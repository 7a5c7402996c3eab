import LuoYun.Lib.Machine
import LuoYun.Web.Vote

/-!
# The counters of votes

A vote that changes the records changes the counters by what the records say: a switch takes one
from the old side and gives it to the new one, and a first vote counts by its sign. A vote of
nothing is recorded and never counts; whoever has cast one cannot cast another.
-/

namespace LuoYun.Web

/-- A vote on `target` of the kind `side`. -/
def Vote.on (side : Int → Bool) (target : Int) (v : Vote) : Bool :=
  v.target = target && side v.value

/-- A vote for it. -/
def positive (value : Int) : Bool := 0 < value

/-- A vote against it. -/
def negative (value : Int) : Bool := value < 0

namespace Ballots

/-- So many votes of the kind `side`. -/
def tally (b : Ballots) (side : Int → Bool) (target : Int) : Int :=
  b.votes.countP (Vote.on side target)

/-- The counters are the numbers of votes. -/
structure Tallied (b : Ballots) : Prop where
  like : ∀ t ∈ b.items, t.like = b.tally positive t.id
  unlike : ∀ t ∈ b.items, t.unlike = b.tally negative t.id
  /-- One record at most for a user and what is voted on. -/
  once : (b.votes.map fun v => (v.target, v.userId)).Nodup
  /-- The primary key. -/
  ids : (b.votes.map Vote.id).Nodup
  fresh : ∀ v ∈ b.votes, v.id < b.seq

variable {b : Ballots}

theorem Tallied.nonneg (h : b.Tallied) : ∀ t ∈ b.items, 0 ≤ t.like ∧ 0 ≤ t.unlike := by
  intro t ht
  rw [h.like t ht, h.unlike t ht]
  exact ⟨Int.natCast_nonneg _, Int.natCast_nonneg _⟩

/-! ## The operations -/

theorem mem_count {target like unlike : Int} {t : Votable}
    (ht : t ∈ (b.count target like unlike).items) :
    ∃ t₀ ∈ b.items, t₀.id = t.id ∧
      t.like = t₀.like + (if t.id = target then like else 0) ∧
      t.unlike = t₀.unlike + if t.id = target then unlike else 0 := by
  obtain ⟨t₀, hmem, rfl⟩ := List.mem_map.mp ht
  refine ⟨t₀, hmem, ?_⟩
  by_cases hid : t₀.id = target
  · rw [if_pos hid]
    exact ⟨rfl, by rw [if_pos hid], by rw [if_pos hid]⟩
  · rw [if_neg hid]
    exact ⟨rfl, by rw [if_neg hid, Int.add_zero], by rw [if_neg hid, Int.add_zero]⟩

/-- The counters follow the records. -/
theorem Tallied.change (h : b.Tallied) {target like unlike : Int} {b' : Ballots}
    (hitems : b'.items = (b.count target like unlike).items)
    (hlike : ∀ i, b'.tally positive i = b.tally positive i + if i = target then like else 0)
    (hunlike : ∀ i, b'.tally negative i = b.tally negative i + if i = target then unlike else 0)
    (honce : (b'.votes.map fun v => (v.target, v.userId)).Nodup)
    (hids : (b'.votes.map Vote.id).Nodup)
    (hfresh : ∀ v ∈ b'.votes, v.id < b'.seq) : b'.Tallied where
  like t ht := by
    obtain ⟨t₀, hmem, hid, heq, -⟩ := mem_count (hitems ▸ ht)
    rw [heq, h.like t₀ hmem, hid, hlike]
  unlike t ht := by
    obtain ⟨t₀, hmem, hid, -, heq⟩ := mem_count (hitems ▸ ht)
    rw [heq, h.unlike t₀ hmem, hid, hunlike]
  once := honce
  ids := hids
  fresh := hfresh

theorem voteOf_some {target user : Int} {v : Vote} (h : b.voteOf target user = some v) :
    v ∈ b.votes ∧ v.target = target ∧ v.userId = user := by
  have hv := List.find?_some h
  simp only [decide_eq_true_eq] at hv
  exact ⟨List.mem_of_find?_eq_some h, hv⟩

theorem voteOf_none {target user : Int} (h : b.voteOf target user = none) :
    (target, user) ∉ b.votes.map fun v => (v.target, v.userId) := by
  intro hmem
  obtain ⟨v, hv, he⟩ := List.mem_map.mp hmem
  obtain ⟨ht, hu⟩ := Prod.mk.inj he
  exact List.find?_eq_none.mp h v hv (decide_eq_true ⟨ht, hu⟩)

/-- A record that changes sides is counted on the other one. -/
theorem tally_recast (hids : (b.votes.map Vote.id).Nodup) {v : Vote} (hv : v ∈ b.votes) (vote : Int)
    (side : Int → Bool) (i : Int) :
    (b.recast v vote).tally side i = b.tally side i +
      if i = v.target then (if side vote then 1 else 0) -
        (if side v.value then 1 else 0) else 0 := by
  have hcount := Table.countP_update hids hv (fun v => { v with value := vote }) (Vote.on side i)
  unfold Ballots.tally Ballots.recast
  unfold Vote.on at hcount ⊢
  by_cases hi : i = v.target
  · rw [if_pos hi]
    simp only [hi, decide_true, Bool.true_and] at hcount ⊢
    cases hnew : side vote <;> cases hold : side v.value <;>
      simp only [hnew, hold, Bool.false_eq_true, if_true, if_false] at hcount ⊢ <;> omega
  · rw [if_neg hi]
    simp only [Ne.symm hi, decide_false, Bool.false_and, Bool.false_eq_true, if_false] at hcount ⊢
    omega

theorem tally_record (target user vote : Int) (side : Int → Bool) (i : Int) :
    (b.record target user vote).tally side i = b.tally side i +
      if i = target then if side vote then 1 else 0 else 0 := by
  unfold Ballots.tally Ballots.record
  rw [List.countP_append, List.countP_singleton]
  unfold Vote.on
  by_cases hi : i = target
  · rw [if_pos hi]
    simp only [hi, decide_true, Bool.true_and]
    cases side vote <;> simp
  · rw [if_neg hi]
    simp [Ne.symm hi]

/-- A switch of a vote that was there. -/
theorem Tallied.recast (h : b.Tallied) {v : Vote} (hv : v ∈ b.votes) {like unlike vote : Int}
    (hlike : like = (if positive vote then 1 else 0) - if positive v.value then 1 else 0)
    (hunlike : unlike = (if negative vote then 1 else 0) - if negative v.value then 1 else 0) :
    Tallied ((b.count v.target like unlike).recast v vote) := by
  have hkeys : ((b.recast v vote).votes.map fun v => (v.target, v.userId)) =
      b.votes.map fun v => (v.target, v.userId) := by
    unfold Ballots.recast
    rw [Table.update, List.map_map]
    refine List.map_congr_left fun w _ => ?_
    dsimp only [Function.comp]
    split <;> rfl
  have hids : (b.recast v vote).votes.map Vote.id = b.votes.map Vote.id :=
    Table.map_key_update (by intro; rfl)
  have hfresh : ∀ w ∈ (b.recast v vote).votes, w.id < b.seq := by
    intro w hw
    obtain ⟨w₀, hw₀, he⟩ :=
      List.mem_map.mp (hids ▸ List.mem_map_of_mem hw : w.id ∈ b.votes.map Vote.id)
    exact he ▸ h.fresh w₀ hw₀
  refine h.change rfl ?_ ?_ (hkeys ▸ h.once) (hids ▸ h.ids) hfresh
  · intro i
    rw [hlike]
    exact tally_recast h.ids hv vote positive i
  · intro i
    rw [hunlike]
    exact tally_recast h.ids hv vote negative i

/-- A first vote. -/
theorem Tallied.record (h : b.Tallied) {target user like unlike vote : Int}
    (hnew : b.voteOf target user = none) (hlike : like = if positive vote then 1 else 0)
    (hunlike : unlike = if negative vote then 1 else 0) :
    Tallied ((b.count target like unlike).record target user vote) := by
  obtain ⟨hids, hfresh⟩ :=
    Table.nodup_append_next (x := ⟨b.seq, target, user, vote⟩) h.ids h.fresh rfl
  refine h.change rfl ?_ ?_ ?_ hids hfresh
  · intro i
    rw [hlike]
    exact tally_record target user vote positive i
  · intro i
    rw [hunlike]
    exact tally_record target user vote negative i
  · exact Table.nodup_append_new h.once (voteOf_none hnew)

theorem count_zero (target : Int) : b.count target 0 0 = b := by
  unfold Ballots.count Table.update
  have hid : ∀ t ∈ b.items, (if t.id = target then
      { t with like := t.like + 0, unlike := t.unlike + 0 }
      else t) = id t := by
    intro t _
    simp
  rw [List.map_congr_left hid, List.map_id]

/-! ## The handlers -/

/-- **A vote keeps the tally**, whichever way it and the vote before it go. -/
theorem Tallied.vote (h : b.Tallied) {t : Votable} {user vote : Int} {b' : Ballots}
    (hb : b.vote t user vote = some b') : b'.Tallied := by
  unfold Ballots.vote at hb
  cases hv : b.voteOf t.id user with
  | some v =>
    obtain ⟨hmem, htarget, -⟩ := voteOf_some hv
    rw [hv, ← htarget] at hb
    dsimp only at hb
    -- a vote of 0 changes nothing, and one for the side it is on is refused
    rcases Int.lt_trichotomy vote 0 with hneg | hzero | hpos
    · rw [if_neg (by omega), if_pos hneg] at hb
      by_cases hold : 0 < v.value
      · rw [if_pos hold] at hb
        obtain rfl := Option.some.inj hb
        refine h.recast hmem ?_ ?_
        · simp [positive, hold, Int.not_lt.mpr (Int.le_of_lt hneg)]
        · simp [negative, hneg, Int.not_lt.mpr (Int.le_of_lt hold)]
      · rw [if_neg hold] at hb
        cases hb
    · rw [if_neg (by omega), if_neg (by omega)] at hb
      obtain rfl := Option.some.inj hb
      exact h
    · rw [if_pos hpos] at hb
      by_cases hold : v.value < 0
      · rw [if_pos hold] at hb
        obtain rfl := Option.some.inj hb
        refine h.recast hmem ?_ ?_
        · simp [positive, hpos, Int.not_lt.mpr (Int.le_of_lt hold)]
        · simp [negative, hold, Int.not_lt.mpr (Int.le_of_lt hpos)]
      · rw [if_neg hold] at hb
        cases hb
  | none =>
    rw [hv] at hb
    dsimp only at hb
    obtain rfl := Option.some.inj hb
    -- a first vote is put on record whatever it is; a vote of 0 counts for neither side
    rcases Int.lt_trichotomy vote 0 with hneg | hzero | hpos
    · rw [if_neg (by omega), if_pos hneg]
      refine h.record hv ?_ ?_
      · simp [positive, Int.not_lt.mpr (Int.le_of_lt hneg)]
      · simp [negative, hneg]
    · rw [if_neg (by omega), if_neg (by omega)]
      have hrec : Tallied ((b.count t.id 0 0).record t.id user vote) :=
        h.record hv (by simp [positive, hzero]) (by simp [negative, hzero])
      rw [count_zero] at hrec
      exact hrec
    · rw [if_pos hpos]
      refine h.record hv ?_ ?_
      · simp [positive, hpos]
      · simp [negative, Int.not_lt.mpr (Int.le_of_lt hpos)]

theorem Tallied.post (h : b.Tallied) {user id : Option Int} {vote : Int} {b' : Ballots}
    (hb : b.post user id vote = some b') : b'.Tallied := by
  obtain ⟨u, -, hb⟩ := Option.bind_eq_some_iff.mp hb
  obtain ⟨i, -, hb⟩ := Option.bind_eq_some_iff.mp hb
  obtain ⟨t, -, hb⟩ := Option.bind_eq_some_iff.mp hb
  split at hb
  · cases hb
  · exact h.vote hb

/-- Nobody has voted. -/
def Unvoted (b : Ballots) : Prop := b.votes = [] ∧ ∀ t ∈ b.items, t.like = 0 ∧ t.unlike = 0

theorem Unvoted.tallied (h : b.Unvoted) : b.Tallied := by
  obtain ⟨hvotes, hitems⟩ := h
  have htally : ∀ side i, b.tally side i = 0 := by
    intro side i
    rw [tally, hvotes]
    rfl
  refine ⟨?_, ?_, ?_, ?_, ?_⟩
  · intro t ht
    rw [htally, (hitems t ht).1]
  · intro t ht
    rw [htally, (hitems t ht).2]
  · rw [hvotes]
    exact List.nodup_nil
  · rw [hvotes]
    exact List.nodup_nil
  · rw [hvotes]
    exact nofun

end Ballots

/-- Both pairs of tables agree with their records. -/
def ForumDb.Tallied (db : ForumDb) : Prop := db.topics.Tallied ∧ db.posts.Tallied

/-- Nobody has voted on anything. -/
def ForumDb.Unvoted (db : ForumDb) : Prop := db.topics.Unvoted ∧ db.posts.Unvoted

theorem handler_tallied {db : ForumDb} (h : db.Tallied) (r : VoteRequest) :
    (Session.request r.handler db).Tallied := by
  rw [Session.request_eq]
  cases r with
  | topic user id vote =>
    rw [VoteRequest.handler, topicVote, Session.opened_work]
    cases hb : db.topics.post user id vote with
    | none => exact h
    | some b =>
      dsimp only
      rw [Session.commitIf_persisted]
      split
      · exact ⟨h.1.post hb, h.2⟩
      · exact h
  | post user id vote =>
    rw [VoteRequest.handler, postVote, Session.opened_work]
    cases hb : db.posts.post user id vote with
    | none => exact h
    | some b =>
      dsimp only
      rw [Session.commitIf_persisted]
      split
      · exact ⟨h.1, h.2.post hb⟩
      · exact h

/-- **The counters of votes are exact** after any requests. -/
theorem votes_exact {db : ForumDb}
    (h : Machine.Reach ForumDb.next Machine.Always ForumDb.Unvoted db) :
    (db.topics.Tallied ∧ ∀ t ∈ db.topics.items, 0 ≤ t.like ∧ 0 ≤ t.unlike) ∧
      (db.posts.Tallied ∧ ∀ t ∈ db.posts.items, 0 ≤ t.like ∧ 0 ≤ t.unlike) := by
  have htallied : db.Tallied := by
    refine h.inv ?_ ?_
    · exact fun _ h0 => ⟨h0.1.tallied, h0.2.tallied⟩
    · intro s r t hs _ hn
      obtain rfl := Except.ok.inj (Option.some.inj hn)
      exact handler_tallied hs r
  exact ⟨⟨htallied.1, htallied.1.nonneg⟩, htallied.2, htallied.2.nonneg⟩

/-- A topic and a post of user 1. -/
def ForumDb.fresh : ForumDb where
  topics := { items := [{ id := 5, userId := some 1 }] }
  posts := { items := [{ id := 8, userId := some 1 }] }

/-- Votes for, against and of nothing. -/
theorem votes_exact_run :
    ∃ db, Machine.exec ForumDb.next [.topic (some 2) (some 5) 3, .topic (some 3) (some 5) 0,
        .topic (some 2) (some 5) (-1), .post (some 3) (some 8) 1] ForumDb.fresh = some db ∧
      (db.topics.Tallied ∧ ∀ t ∈ db.topics.items, 0 ≤ t.like ∧ 0 ≤ t.unlike) ∧
        (db.posts.Tallied ∧ ∀ t ∈ db.posts.items, 0 ≤ t.like ∧ 0 ≤ t.unlike) := by
  have hrun : Machine.exec ForumDb.next [.topic (some 2) (some 5) 3, .topic (some 3) (some 5) 0,
      .topic (some 2) (some 5) (-1), .post (some 3) (some 8) 1] ForumDb.fresh = some
      ⟨⟨[⟨5, some 1, 0, 1⟩], [⟨0, 5, 2, -1⟩, ⟨1, 5, 3, 0⟩], 2⟩,
        ⟨[⟨8, some 1, 1, 0⟩], [⟨0, 8, 3, 1⟩], 1⟩⟩ := by
    decide
  have h0 : ForumDb.fresh.Unvoted := by
    refine ⟨⟨rfl, ?_⟩, rfl, ?_⟩
    · intro t ht
      obtain rfl := List.mem_singleton.mp ht
      exact ⟨rfl, rfl⟩
    · intro t ht
      obtain rfl := List.mem_singleton.mp ht
      exact ⟨rfl, rfl⟩
  exact ⟨_, hrun, votes_exact ((Machine.Reach.of_init h0).of_exec (fun _ _ _ => trivial) hrun)⟩

end LuoYun.Web
