import LuoYun.Lib.Machine
import LuoYun.Web.Tag
import Mathlib.Algebra.BigOperators.Group.List.Basic

/-!
# The hits of tags

A request first adds a hit for each tag that is new to the topic, and then takes one off for each
that is left behind. Between the two the hits are more than the topics by what is still to be taken
off (`Owed`), and each `dropHit` pays for one tag; a tag whose record is deleted there is on no
topic that counts.

Two names for one new tag add two hits. And a topic that was deleted does not count any more, but
its tags can be taken off again.
-/

namespace LuoYun.Web.Forum

open TagDb

namespace TagDb

/-! ## Counting -/

/-- The hit of a tag, or nothing. -/
def weight (t : Int) (T : ForumTopicTag) : Int := if T.id = t then T.hit else 0

/-- The hit of the tag with the number `t`, which is 0 if there is no record. -/
def hitOf (db : TagDb) (t : Int) : Int := (db.tags.map (weight t)).sum

/-- The topics of the kind `p` that have the tag. -/
def carriersBy (db : TagDb) (p : ForumTopic → Bool) (t : Int) : Int :=
  db.topics.countP fun x => p x && t ∈ x.tags

/-- It is not deleted. -/
def live (x : ForumTopic) : Bool := !x.isDeleted

/-- The topics that have the tag and are not deleted. -/
def carriers (db : TagDb) (t : Int) : Int := db.carriersBy live t

/-- **The hits are exact**, and a tag without topics has no record. -/
def Exact (db : TagDb) : Prop :=
  (∀ T ∈ db.tags, T.hit = db.carriers T.id) ∧ ∀ t,
    t ∈ db.tags.map ForumTopicTag.id ↔ 1 ≤ db.carriers t

/-- The keys and references are in order, and a record has a hit. -/
structure Shape (db : TagDb) : Prop where
  tagIds : (db.tags.map ForumTopicTag.id).Nodup
  tagFresh : ∀ T ∈ db.tags, T.id < db.tagSeq
  topicIds : (db.topics.map ForumTopic.id).Nodup
  topicFresh : ∀ x ∈ db.topics, x.id < db.topicSeq
  refs : ∀ x ∈ db.topics, ∀ t ∈ x.tags, t ∈ db.tags.map ForumTopicTag.id
  sets : ∀ x ∈ db.topics, x.tags.Nodup
  pos : ∀ T ∈ db.tags, 1 ≤ T.hit

/-- The topics of the kind `p` are counted, and one more for each of these tags. -/
def Owed (p : ForumTopic → Bool) (ids : List Int) (db : TagDb) : Prop :=
  ∀ t, db.hitOf t = db.carriersBy p t + if t ∈ ids then 1 else 0

variable {db : TagDb} {p : ForumTopic → Bool}

theorem carriersBy_nonneg (t : Int) : 0 ≤ db.carriersBy p t := Int.natCast_nonneg _

theorem sum_weight_others {l : List ForumTopicTag} {t : Int} (h : ∀ T ∈ l, T.id ≠ t) :
    (l.map (weight t)).sum = 0 := by
  induction l with
  | nil => rfl
  | cons T l ih =>
    have hT : weight t T = 0 := if_neg (h T List.mem_cons_self)
    rw [List.map_cons, List.sum_cons, hT, ih fun U hU => h U (List.mem_cons_of_mem _ hU)]
    rfl

theorem hitOf_none {t : Int} (h : t ∉ db.tags.map ForumTopicTag.id) : db.hitOf t = 0 :=
  sum_weight_others fun _ hT he => h (he ▸ List.mem_map_of_mem hT)

theorem hitOf_mem (hids : (db.tags.map ForumTopicTag.id).Nodup)
    {T : ForumTopicTag} (hT : T ∈ db.tags) :
    db.hitOf T.id = T.hit := by
  obtain ⟨a, b, hab⟩ := Table.exists_around hids hT
  have hself : weight T.id T = T.hit := if_pos rfl
  rw [hitOf, hab.eq, List.map_append, List.sum_append, List.map_cons, List.sum_cons, hself,
    sum_weight_others hab.before, sum_weight_others hab.after]
  omega

/-- What the records say when nothing is owed. -/
theorem Owed.exact (h : Owed live [] db) (hshape : db.Shape) : db.Exact := by
  have hhit : ∀ t, db.hitOf t = db.carriers t := by
    intro t
    have ht := h t
    rw [if_neg List.not_mem_nil, Int.add_zero] at ht
    exact ht
  constructor
  · intro T hT
    rw [← hhit, hitOf_mem hshape.tagIds hT]
  · intro t
    rw [← hhit]
    constructor
    · intro ht
      obtain ⟨T, hT, rfl⟩ := List.mem_map.mp ht
      rw [hitOf_mem hshape.tagIds hT]
      exact hshape.pos T hT
    · intro ht
      by_contra hnone
      rw [hitOf_none hnone] at ht
      omega

/-! ## One tag more or less -/

theorem hitOf_addHit (hids : (db.tags.map ForumTopicTag.id).Nodup) {T : ForumTopicTag}
    (hT : T ∈ db.tags) (n t : Int) :
    (db.addHit T.id n).hitOf t = db.hitOf t + if t = T.id then n else 0 := by
  obtain ⟨a, b, hab⟩ := Table.exists_around hids hT
  have hmore : weight t { T with hit := T.hit + n } = weight t T + if t = T.id then n else 0 := by
    unfold weight
    by_cases ht : t = T.id
    · rw [if_pos ht.symm, if_pos ht.symm, if_pos ht]
    · rw [if_neg (Ne.symm ht), if_neg (Ne.symm ht), if_neg ht]
      rfl
  rw [hitOf, addHit, hitOf]
  dsimp only
  rw [Table.update_around hab, hab.eq, List.map_append, List.map_append, List.sum_append,
    List.sum_append, List.map_cons, List.map_cons, List.sum_cons, List.sum_cons, hmore]
  omega

theorem hitOf_newTag (name : Text) (t : Int) :
    (db.newTag name).hitOf t = db.hitOf t + if t = db.tagSeq then 1 else 0 := by
  rw [hitOf, newTag, List.map_append, List.sum_append, List.map_cons, List.map_nil,
    List.sum_singleton, hitOf, weight]
  simp only [eq_comm]

theorem hitOf_deleteTag (hids : (db.tags.map ForumTopicTag.id).Nodup) {T : ForumTopicTag}
    (hT : T ∈ db.tags) (t : Int) :
    (db.deleteTag T.id).hitOf t = if t = T.id then 0 else db.hitOf t := by
  obtain ⟨a, b, hab⟩ := Table.exists_around hids hT
  rw [hitOf, deleteTag]
  dsimp only
  rw [Table.erase_around hab, List.map_append, List.sum_append]
  by_cases ht : t = T.id
  · rw [if_pos ht, ht, sum_weight_others hab.before, sum_weight_others hab.after]
    rfl
  · have hself : weight t T = 0 := if_neg (Ne.symm ht)
    rw [if_neg ht, hitOf, hab.eq, List.map_append, List.sum_append, List.map_cons, List.sum_cons,
      hself]
    omega

theorem carriersBy_deleteTag (hp : ∀ x l, p { x with tags := l } = p x) (id t : Int) :
    (db.deleteTag id).carriersBy p t = if t = id then 0 else db.carriersBy p t := by
  rw [carriersBy, deleteTag, List.countP_map]
  by_cases ht : t = id
  · rw [if_pos ht]
    have hzero : db.topics.countP ((fun x => p x && decide (t ∈ x.tags)) ∘
        fun x : ForumTopic => { x with tags := x.tags.filter (· ≠ id) }) = 0 := by
      rw [List.countP_eq_zero]
      intro x _
      simp [ht]
    rw [hzero]
    rfl
  · rw [if_neg ht, carriersBy]
    congr 1
    refine List.countP_congr fun x _ => ?_
    rw [Function.comp_apply, hp]
    simp [ht]

/-- A topic whose tags are set. -/
theorem carriersBy_setTags (hp : ∀ x l, p { x with tags := l } = p x)
    (hids : (db.topics.map ForumTopic.id).Nodup)
    {x : ForumTopic} (hx : x ∈ db.topics) (l : List Int) (t : Int) :
    (db.setTags x.id l).carriersBy p t + (if p x ∧ t ∈ x.tags then 1 else 0) =
      db.carriersBy p t + if p x ∧ t ∈ l then 1 else 0 := by
  have hcount := Table.countP_update hids hx (fun x => { x with tags := l.dedup })
    (fun x => p x && decide (t ∈ x.tags))
  have hset : p { x with tags := l.dedup } = p x := hp x _
  rw [carriersBy, setTags, carriersBy]
  dsimp only at hcount ⊢
  rw [hset] at hcount
  simp only [Bool.and_eq_true, decide_eq_true_eq, List.mem_dedup] at hcount
  by_cases hold : p x = true ∧ t ∈ x.tags <;> by_cases hnew : p x = true ∧ t ∈ l
  · rw [if_pos hold, if_pos hnew] at *
    omega
  · rw [if_pos hold, if_neg hnew] at *
    omega
  · rw [if_neg hold, if_pos hnew] at *
    omega
  · rw [if_neg hold, if_neg hnew] at *
    omega

/-- `dropHit` finds the record or does nothing. -/
theorem dropHit_eq (hids : (db.tags.map ForumTopicTag.id).Nodup)
    {T : ForumTopicTag} (hT : T ∈ db.tags) :
    db.dropHit T.id = if T.hit = 1 then db.deleteTag T.id else db.addHit T.id (-1) := by
  rw [dropHit, Table.find?_key hids hT]

theorem map_id_addHit (id n : Int) : (db.addHit id n).tags.map ForumTopicTag.id =
    db.tags.map ForumTopicTag.id :=
  Table.map_key_update (by intro; rfl)

theorem Shape.addHit (h : db.Shape) {T : ForumTopicTag} (hT : T ∈ db.tags)
    {n : Int} (hn : 1 ≤ T.hit + n) :
    (db.addHit T.id n).Shape where
  tagIds := by
    rw [map_id_addHit]
    exact h.tagIds
  tagFresh U hU := by
    obtain ⟨V, hV, he⟩ := List.mem_map.mp (map_id_addHit T.id n ▸ List.mem_map_of_mem hU :
      U.id ∈ db.tags.map ForumTopicTag.id)
    exact he ▸ h.tagFresh V hV
  topicIds := h.topicIds
  topicFresh := h.topicFresh
  refs x hx t ht := by
    rw [map_id_addHit]
    exact h.refs x hx t ht
  sets := h.sets
  pos U hU := by
    obtain ⟨V, hV, rfl⟩ := List.mem_map.mp hU
    by_cases hVT : V.id = T.id
    · obtain rfl := List.inj_on_of_nodup_map h.tagIds hV hT hVT
      rw [if_pos rfl]
      exact hn
    · rw [if_neg hVT]
      exact h.pos V hV

theorem Shape.deleteTag (h : db.Shape) (id : Int) : (db.deleteTag id).Shape where
  tagIds := h.tagIds.sublist (List.filter_sublist.map _)
  tagFresh T hT := h.tagFresh T (List.mem_of_mem_filter hT)
  topicIds := by
    rw [TagDb.deleteTag, List.map_map]
    exact h.topicIds
  topicFresh x hx := by
    obtain ⟨y, hy, rfl⟩ := List.mem_map.mp hx
    exact h.topicFresh y hy
  refs x hx t ht := by
    obtain ⟨y, hy, rfl⟩ := List.mem_map.mp hx
    obtain ⟨ht, hne⟩ := List.mem_filter.mp ht
    obtain ⟨T, hT, rfl⟩ := List.mem_map.mp (h.refs y hy t ht)
    exact List.mem_map_of_mem (List.mem_filter.mpr ⟨hT, hne⟩)
  sets x hx := by
    obtain ⟨y, hy, rfl⟩ := List.mem_map.mp hx
    exact (h.sets y hy).filter _
  pos T hT := h.pos T (List.mem_of_mem_filter hT)

theorem Shape.newTag (h : db.Shape) (name : Text) : (db.newTag name).Shape where
  tagIds := (Table.nodup_append_next h.tagIds h.tagFresh rfl).1
  tagFresh := (Table.nodup_append_next h.tagIds h.tagFresh rfl).2
  topicIds := h.topicIds
  topicFresh := h.topicFresh
  refs x hx t ht := by
    rw [TagDb.newTag, List.map_append]
    exact List.mem_append_left _ (h.refs x hx t ht)
  sets := h.sets
  pos T hT := by
    rcases List.mem_append.mp hT with hT | hT
    · exact h.pos T hT
    · obtain rfl := List.mem_singleton.mp hT
      exact Int.le_refl 1

theorem Shape.setTags (h : db.Shape) (id : Int) {l : List Int}
    (hl : ∀ t ∈ l, t ∈ db.tags.map ForumTopicTag.id) :
    (db.setTags id l).Shape := by
  have hids : (db.setTags id l).topics.map ForumTopic.id = db.topics.map ForumTopic.id :=
    Table.map_key_update (by intro; rfl)
  refine ⟨h.tagIds, h.tagFresh, hids ▸ h.topicIds, ?_, ?_, ?_, h.pos⟩
  · intro x hx
    obtain ⟨y, hy, he⟩ :=
      List.mem_map.mp (hids ▸ List.mem_map_of_mem hx : x.id ∈ db.topics.map ForumTopic.id)
    exact he ▸ h.topicFresh y hy
  · intro x hx t ht
    obtain ⟨y, hy, rfl⟩ := List.mem_map.mp hx
    split at ht
    · exact hl t (List.mem_dedup.mp ht)
    · exact h.refs y hy t ht
  · intro x hx
    obtain ⟨y, hy, rfl⟩ := List.mem_map.mp hx
    split
    · exact List.nodup_dedup _
    · exact h.sets y hy

/-! ## Paying what is owed -/

/-- A record that goes takes its topics with it. -/
theorem Owed.deleteTag {ids ids' : List Int} (h : Owed p ids db)
    (hp : ∀ x l, p { x with tags := l } = p x)
    (htags : (db.tags.map ForumTopicTag.id).Nodup) {T : ForumTopicTag}
    (hT : T ∈ db.tags) (hgone : T.id ∉ ids')
    (hsame : ∀ t, t ≠ T.id → (t ∈ ids ↔ t ∈ ids')) : Owed p ids' (db.deleteTag T.id) := by
  intro t
  rw [hitOf_deleteTag htags hT, carriersBy_deleteTag hp]
  by_cases ht : t = T.id
  · rw [if_pos ht, if_pos ht, if_neg (ht ▸ hgone)]
    rfl
  · rw [if_neg ht, if_neg ht, h t]
    simp only [hsame t ht]

/-- **One is taken off**: the record has a hit more than there are topics for it, and when it goes
there is no topic left. -/
theorem Owed.dropHit {id : Int} {ids : List Int} (h : Owed p (id :: ids) db) (hshape : db.Shape)
    (hp : ∀ x l, p { x with tags := l } = p x) (hid : id ∉ ids) :
    Owed p ids (db.dropHit id) ∧ (db.dropHit id).Shape := by
  have hhit := h id
  rw [if_pos List.mem_cons_self] at hhit
  have hge : 0 ≤ db.carriersBy p id := carriersBy_nonneg id
  have hmem : id ∈ db.tags.map ForumTopicTag.id := by
    by_contra hnone
    rw [hitOf_none hnone] at hhit
    omega
  obtain ⟨T, hT, rfl⟩ := List.mem_map.mp hmem
  -- a hit of 1 is the one that is owed, so no topic has the tag when its record goes
  rw [dropHit_eq hshape.tagIds hT]
  split
  · refine ⟨h.deleteTag hp hshape.tagIds hT hid fun t ht => ?_, hshape.deleteTag T.id⟩
    rw [List.mem_cons]
    exact ⟨fun hc => hc.resolve_left ht, .inr⟩
  · rename_i hmany
    have hpos := hshape.pos T hT
    refine ⟨?_, hshape.addHit hT (by omega)⟩
    intro t
    have hcar : (db.addHit T.id (-1)).carriersBy p t = db.carriersBy p t := rfl
    have ht := h t
    rw [hitOf_addHit hshape.tagIds hT, hcar]
    by_cases he : t = T.id
    · rw [if_pos (he ▸ List.mem_cons_self)] at ht
      rw [if_pos he, if_neg (he ▸ hid)]
      omega
    · rw [if_neg he]
      simp only [List.mem_cons, he, false_or] at ht
      omega

theorem Owed.dropHits {ids : List Int} (h : Owed p ids db) (hshape : db.Shape)
    (hp : ∀ x l, p { x with tags := l } = p x) (hids : ids.Nodup) :
    Owed p [] (ids.foldl TagDb.dropHit db) ∧ (ids.foldl TagDb.dropHit db).Shape := by
  induction ids generalizing db with
  | nil => exact ⟨h, hshape⟩
  | cons id ids ih =>
    obtain ⟨hid, hids⟩ := List.nodup_cons.mp hids
    obtain ⟨h', hshape'⟩ := h.dropHit hshape hp hid
    exact ih h' hshape' hids

/-- Tags that one topic has which is not deleted lose it. -/
theorem Owed.dropLast {ids : List Int} (h : Owed p [] db) (hshape : db.Shape)
    (hp : ∀ x l, p { x with tags := l } = p x) (hids : ids.Nodup)
    (hone : ∀ t ∈ ids, db.carriersBy p t = 1) :
    Owed p [] (ids.foldl TagDb.dropHit db) ∧ (ids.foldl TagDb.dropHit db).Shape := by
  induction ids generalizing db with
  | nil => exact ⟨h, hshape⟩
  | cons id ids ih =>
    obtain ⟨hid, hrest⟩ := List.nodup_cons.mp hids
    have hhit := h id
    rw [if_neg List.not_mem_nil, hone id List.mem_cons_self, Int.add_zero] at hhit
    have hmem : id ∈ db.tags.map ForumTopicTag.id := by
      by_contra hnone
      rw [hitOf_none hnone] at hhit
      omega
    obtain ⟨T, hT, rfl⟩ := List.mem_map.mp hmem
    -- the record goes, and the topic that is not deleted loses the tag with it
    rw [hitOf_mem hshape.tagIds hT] at hhit
    rw [List.foldl_cons, dropHit_eq hshape.tagIds hT, if_pos hhit]
    refine ih (h.deleteTag hp hshape.tagIds hT List.not_mem_nil fun _ _ => Iff.rfl)
      (hshape.deleteTag T.id) hrest ?_
    intro t ht
    have hne : t ≠ T.id := fun he => hid (he ▸ ht)
    rw [carriersBy_deleteTag hp, if_neg hne]
    exact hone t (List.mem_cons_of_mem _ ht)

/-! ## The loop over the names -/

variable {lower : Lowers}

/-- The numbers and names of the tags. -/
def pairs (db : TagDb) : List (Int × Text) := db.tags.map fun T => (T.id, T.name)

/-- The number of the tag for a name. -/
def tagId (lower : Lowers) (db : TagDb) (name : Text) : Option Int :=
  (db.tagByName lower name).map ForumTopicTag.id

/-- Only numbers and names matter. -/
theorem tagId_eq (db : TagDb) (name : Text) :
    db.tagId lower name = (db.pairs.find? fun q => lower.db q.2 = lower.py name).map Prod.fst := by
  rw [tagId, tagByName, pairs, List.find?_map, Option.map_map]
  rfl

/-- A name that has a tag keeps it when there are more tags. -/
theorem tagId_append {db db' : TagDb} {news : List (Int × Text)}
    (h : db'.pairs = db.pairs ++ news) (name : Text) :
    db'.tagId lower name =
      (db.tagId lower name).or
        ((news.find? fun q => lower.db q.2 = lower.py name).map Prod.fst) := by
  rw [tagId_eq, tagId_eq, h, List.find?_append]
  cases db.pairs.find? fun q => decide (lower.db q.2 = lower.py name) with
  | none => rfl
  | some q => rfl

theorem tagId_lt (hshape : db.Shape) {name : Text} {t : Int} (h : db.tagId lower name = some t) :
    t < db.tagSeq := by
  obtain ⟨T, hT, rfl⟩ := Option.map_eq_some_iff.mp h
  exact hshape.tagFresh T (List.mem_of_find?_eq_some hT)

theorem pairs_addHit (id n : Int) : (db.addHit id n).pairs = db.pairs := by
  rw [pairs, addHit, Table.update, List.map_map]
  refine List.map_congr_left fun T _ => ?_
  rw [Function.comp_apply]
  split <;> rfl

theorem pairs_newTag (name : Text) : (db.newTag name).pairs = db.pairs ++ [(db.tagSeq, name)] := by
  rw [pairs, newTag, List.map_append]
  rfl

/-- What is known after the loop whatever the names are. -/
structure Looped (lower : Lowers) (db : TagDb) (names : List Text)
    (r : List Int × TagDb) : Prop where
  topics : r.2.topics = db.topics
  topicSeq : r.2.topicSeq = db.topicSeq
  shape : r.2.Shape
  seq : db.tagSeq ≤ r.2.tagSeq
  /-- The records that are new. -/
  news : ∃ news, r.2.pairs = db.pairs ++ news ∧
    ∀ q ∈ news, db.tagSeq ≤ q.1 ∧ q.2 ∈ names ∧ db.tagId lower q.2 = none
  list : ∀ t ∈ r.1, t ∈ r.2.tags.map ForumTopicTag.id
  /-- Where the tags of the list come from. -/
  source : ∀ t ∈ r.1, (∃ n ∈ names, db.tagId lower n = some t) ∨ db.tagSeq ≤ t

theorem tagLoop_append (db : TagDb) (old : List Int) (names : List Text) (name : Text) :
    db.tagLoop lower old (names ++ [name]) =
      tagStep lower old (db.tagLoop lower old names) name := by
  rw [tagLoop, tagLoop, List.foldl_append]
  rfl

/-- A name for which there is no record gets one. -/
theorem Looped.insert {names : List Text} {r : List Int × TagDb}
    (h : Looped lower db names r) {name : Text} (hnone : r.2.tagByName lower name = none) :
    Looped lower db (names ++ [name]) (r.1 ++ [r.2.tagSeq], r.2.newTag name) := by
  obtain ⟨news, hpairs, hnews⟩ := h.news
  have hunknown : db.tagId lower name = none := by
    have hafter : r.2.tagId lower name = none := by rw [tagId, hnone, Option.map_none]
    rw [tagId_append hpairs] at hafter
    exact (Option.or_eq_none_iff.mp hafter).1
  refine ⟨h.topics, h.topicSeq, h.shape.newTag name, ?_,
    ⟨news ++ [(r.2.tagSeq, name)], ?_, ?_⟩, ?_, ?_⟩
  · show db.tagSeq ≤ r.2.tagSeq + 1
    have := h.seq
    omega
  · rw [pairs_newTag, hpairs, List.append_assoc]
  · intro q hq
    rcases List.mem_append.mp hq with hq | hq
    · obtain ⟨hge, hmem, hno⟩ := hnews q hq
      exact ⟨hge, List.mem_append_left _ hmem, hno⟩
    · obtain rfl := List.mem_singleton.mp hq
      exact ⟨h.seq, List.mem_append_right _ List.mem_cons_self, hunknown⟩
  · intro t ht
    rw [newTag, List.map_append]
    rcases List.mem_append.mp ht with ht | ht
    · exact List.mem_append_left _ (h.list t ht)
    · obtain rfl := List.mem_singleton.mp ht
      exact List.mem_append_right _ List.mem_cons_self
  · intro t ht
    rcases List.mem_append.mp ht with ht | ht
    · exact (h.source t ht).imp (fun ⟨n, hn, he⟩ => ⟨n, List.mem_append_left _ hn, he⟩) id
    · obtain rfl := List.mem_singleton.mp ht
      exact .inr h.seq

/-- A name that has a record. -/
theorem Looped.found {names : List Text} {r : List Int × TagDb}
    (h : Looped lower db names r) {name : Text}
    {T : ForumTopicTag} (hT : r.2.tagByName lower name = some T) (old : List Int) :
    Looped lower db (names ++ [name])
      (r.1 ++ [T.id], if T.id ∈ old then r.2 else r.2.addHit T.id 1) := by
  have hmem : T ∈ r.2.tags := List.mem_of_find?_eq_some hT
  obtain ⟨news, hpairs, hnews⟩ := h.news
  have hsource : (∃ n ∈ names ++ [name], db.tagId lower n = some T.id) ∨ db.tagSeq ≤ T.id := by
    have hafter : r.2.tagId lower name = some T.id := by rw [tagId, hT, Option.map_some]
    rw [tagId_append hpairs] at hafter
    rcases Option.or_eq_some_iff.mp hafter with hold | ⟨-, hnew⟩
    · exact .inl ⟨name, List.mem_append_right _ List.mem_cons_self, hold⟩
    · obtain ⟨q, hq, he⟩ := Option.map_eq_some_iff.mp hnew
      exact .inr (he ▸ (hnews q (List.mem_of_find?_eq_some hq)).1)
  -- with a hit or without, the records are the same
  obtain ⟨db', hdb', htopics, htopicSeq, hshape, hseq, hpairs', hids⟩ : ∃ db',
      (if T.id ∈ old then r.2 else r.2.addHit T.id 1) = db' ∧ db'.topics = r.2.topics ∧
        db'.topicSeq = r.2.topicSeq ∧ db'.Shape ∧ db'.tagSeq = r.2.tagSeq ∧ db'.pairs = r.2.pairs ∧
        db'.tags.map ForumTopicTag.id = r.2.tags.map ForumTopicTag.id := by
    refine ⟨_, rfl, ?_⟩
    split
    · exact ⟨rfl, rfl, h.shape, rfl, rfl, rfl⟩
    · have hpos := h.shape.pos T hmem
      exact ⟨rfl, rfl, h.shape.addHit hmem (by omega), rfl,
        pairs_addHit T.id 1, map_id_addHit T.id 1⟩
  rw [hdb']
  refine ⟨htopics.trans h.topics, htopicSeq.trans h.topicSeq, hshape, hseq ▸ h.seq,
    ⟨news, hpairs'.trans hpairs, fun q hq => ?_⟩, ?_, ?_⟩
  · obtain ⟨hge, hmem, hno⟩ := hnews q hq
    exact ⟨hge, List.mem_append_left _ hmem, hno⟩
  · intro t ht
    show t ∈ db'.tags.map ForumTopicTag.id
    rw [hids]
    rcases List.mem_append.mp ht with ht | ht
    · exact h.list t ht
    · obtain rfl := List.mem_singleton.mp ht
      exact List.mem_map_of_mem hmem
  · intro t ht
    rcases List.mem_append.mp ht with ht | ht
    · exact (h.source t ht).imp (fun ⟨n, hn, he⟩ => ⟨n, List.mem_append_left _ hn, he⟩) id
    · obtain rfl := List.mem_singleton.mp ht
      exact hsource

theorem looped (hshape : db.Shape) (old : List Int) (names : List Text) :
    Looped lower db names (db.tagLoop lower old names) := by
  induction names using List.reverseRecOn with
  | nil =>
    exact ⟨rfl, rfl, hshape, Int.le_refl _, ⟨[], (List.append_nil _).symm, nofun⟩, nofun, nofun⟩
  | append_singleton names name ih =>
    rw [tagLoop_append, tagStep]
    cases hT : (db.tagLoop lower old names).2.tagByName lower name with
    | none => exact ih.insert hT
    | some T => exact ih.found hT old

/-- Of two names, the second one does not stand for a tag that the first one has added. -/
def Apart (lower : Lowers) (db : TagDb) (old : List Int) (n m : Text) : Prop :=
  match db.tagId lower m with
  | some t => t ∈ old ∨ db.tagId lower n ≠ some t
  | none => db.tagId lower n = none → lower.db n ≠ lower.py m

/-- **The loop adds a hit for each tag that is new to the topic**, if no two names stand for one. -/
theorem hitOf_tagLoop (hshape : db.Shape) {old : List Int}
    (hold : ∀ t ∈ old, t < db.tagSeq) {names : List Text}
    (hapart : names.Pairwise (Apart lower db old)) (t : Int) :
    (db.tagLoop lower old names).2.hitOf t =
      db.hitOf t + if t ∈ (db.tagLoop lower old names).1 ∧ t ∉ old then 1 else 0 := by
  induction names using List.reverseRecOn with
  | nil =>
    have hnot : ¬ (t ∈ (db.tagLoop lower old []).1 ∧ t ∉ old) := fun h => List.not_mem_nil h.1
    rw [if_neg hnot, Int.add_zero]
    rfl
  | append_singleton names name ih =>
    obtain ⟨hbefore, -, hname⟩ := List.pairwise_append.mp hapart
    have hlooped : Looped lower db names (db.tagLoop lower old names) := looped hshape old names
    have hih := ih hbefore
    obtain ⟨r, hr⟩ : ∃ r, db.tagLoop lower old names = r := ⟨_, rfl⟩
    rw [hr] at hlooped hih
    rw [tagLoop_append, hr, tagStep]
    have happend : ∀ u, t ∈ r.1 ++ [u] ↔ t ∈ r.1 ∨ t = u := by
      intro u
      rw [List.mem_append, List.mem_singleton]
    cases hT : r.2.tagByName lower name with
    | none =>
      dsimp only
      -- its number is not on the list yet, and the topic cannot have it
      have hfresh : r.2.tagSeq ∉ r.1 := by
        intro hin
        obtain ⟨T, hT, he⟩ := List.mem_map.mp (hlooped.list _ hin)
        have hlt := hlooped.shape.tagFresh T hT
        rw [he] at hlt
        exact Int.lt_irrefl _ hlt
      have hnew : r.2.tagSeq ∉ old := by
        intro hin
        have hlt := hold _ hin
        have hge := hlooped.seq
        omega
      rw [hitOf_newTag, hih]
      by_cases ht : t = r.2.tagSeq
      · subst ht
        rw [if_neg (fun h => hfresh h.1), if_pos rfl, if_pos ⟨(happend _).mpr (.inr rfl), hnew⟩]
        omega
      · simp only [happend, ht, or_false, if_false]
        omega
    | some T =>
      dsimp only
      by_cases hin : T.id ∈ old
      · rw [if_pos hin, hih]
        by_cases ht : t = T.id
        · rw [if_neg (fun h => h.2 (ht ▸ hin)), if_neg (fun h => h.2 (ht ▸ hin))]
        · simp only [happend, ht, or_false]
      · rw [if_neg hin, hitOf_addHit hlooped.shape.tagIds (List.mem_of_find?_eq_some hT), hih]
        -- no name before has added this tag
        have hfirst : T.id ∉ r.1 := by
          obtain ⟨news, hpairs, hnews⟩ := hlooped.news
          have hafter : r.2.tagId lower name = some T.id := by rw [tagId, hT, Option.map_some]
          rw [tagId_append hpairs] at hafter
          intro hmem
          rcases Option.or_eq_some_iff.mp hafter with hknown | ⟨hunknown, hnew⟩
          · rcases hlooped.source T.id hmem with ⟨n, hn, he⟩ | hge
            · have hap := hname n hn name List.mem_cons_self
              rw [Apart, hknown] at hap
              exact hap.elim hin fun hne => hne he
            · have hlt := tagId_lt hshape hknown
              omega
          · obtain ⟨q, hq, -⟩ := Option.map_eq_some_iff.mp hnew
            obtain ⟨-, hqn, hqnone⟩ := hnews q (List.mem_of_find?_eq_some hq)
            have hap := hname q.2 hqn name List.mem_cons_self
            rw [Apart, hunknown] at hap
            have hdec := List.find?_some hq
            exact hap hqnone (of_decide_eq_true hdec)
        by_cases ht : t = T.id
        · subst ht
          rw [if_neg (fun h => hfirst h.1), if_pos rfl, if_pos ⟨(happend _).mpr (.inr rfl), hin⟩]
          omega
        · simp only [happend, ht, or_false, if_false]
          omega

/-! ## `update_tag` -/

theorem live_tags (x : ForumTopic) (l : List Int) : live { x with tags := l } = live x := rfl

/-- Nothing is owed, and the tables are in order. -/
def Sound (db : TagDb) : Prop := Owed live [] db ∧ db.Shape

theorem Sound.hitOf (h : db.Sound) (t : Int) : db.hitOf t = db.carriers t := by
  have ht := h.1 t
  rw [if_neg List.not_mem_nil, Int.add_zero] at ht
  exact ht

theorem Sound.tags_lt (h : db.Sound) {x : ForumTopic} (hx : x ∈ db.topics) :
    ∀ t ∈ x.tags, t < db.tagSeq := by
  intro t ht
  obtain ⟨T, hT, rfl⟩ := List.mem_map.mp (h.2.refs x hx t ht)
  exact h.2.tagFresh T hT

/-- **The tags of a topic that counts are set.** -/
theorem Sound.updateTag (h : db.Sound) {x : ForumTopic} (hx : x ∈ db.topics)
    (hlive : live x = true) {tag : Text}
    (hapart : (dotags tag).Pairwise (Apart lower db x.tags)) :
    (TagDb.updateTag lower tag x db).Sound := by
  have hlooped : Looped lower db (dotags tag) (db.tagLoop lower x.tags (dotags tag)) :=
    looped h.2 x.tags (dotags tag)
  have hhits := hitOf_tagLoop h.2 (h.tags_lt hx) hapart
  rw [TagDb.updateTag]
  obtain ⟨r, hr⟩ : ∃ r, db.tagLoop lower x.tags (dotags tag) = r := ⟨_, rfl⟩
  rw [hr] at hlooped hhits ⊢
  have hin : x ∈ r.2.topics := hlooped.topics ▸ hx
  -- what is owed is a hit for each old tag that is not on the list
  refine Owed.dropHits ?_ (hlooped.shape.setTags x.id hlooped.list) live_tags
    ((h.2.sets x hx).filter _)
  intro t
  have hset := carriersBy_setTags live_tags hlooped.shape.topicIds hin r.1 t
  have hsame : r.2.carriersBy live t = db.carriers t := by
    rw [carriers, carriersBy, carriersBy, hlooped.topics]
  have hhit : (r.2.setTags x.id r.1).hitOf t =
      db.carriers t + if t ∈ r.1 ∧ t ∉ x.tags then 1 else 0 := by
    rw [← h.hitOf t]
    exact hhits t
  rw [hhit]
  rw [hsame] at hset
  simp only [hlive, true_and] at hset
  simp only [List.mem_filter, decide_eq_true_eq]
  by_cases hold : t ∈ x.tags <;> by_cases hnew : t ∈ r.1
  · simp only [hold, hnew, not_true_eq_false, and_false, if_true, if_false] at hset ⊢
    omega
  · simp only [hold, hnew, not_true_eq_false, not_false_eq_true, and_false, and_true, if_true,
      if_false] at hset ⊢
    omega
  · simp only [hold, hnew, not_true_eq_false, not_false_eq_true, and_false, and_true, if_true,
      if_false] at hset ⊢
    omega
  · simp only [hold, hnew, not_false_eq_true, and_true, if_false] at hset ⊢
    omega

/-- Names that the topic has add nothing. -/
theorem tagLoop_known {old : List Int} {names : List Text}
    (hknown : ∀ n ∈ names, ∃ t ∈ old, db.tagId lower n = some t) :
    (db.tagLoop lower old names).2 = db ∧
      ∀ t, t ∈ (db.tagLoop lower old names).1 ↔ ∃ n ∈ names, db.tagId lower n = some t := by
  induction names using List.reverseRecOn with
  | nil =>
    refine ⟨rfl, fun t => ⟨fun ht => absurd ht List.not_mem_nil, ?_⟩⟩
    rintro ⟨n, hn, -⟩
    cases hn
  | append_singleton names name ih =>
    obtain ⟨hdb, hlist⟩ := ih fun n hn => hknown n (List.mem_append_left _ hn)
    obtain ⟨u, hu, hname⟩ := hknown name (List.mem_append_right _ List.mem_cons_self)
    obtain ⟨T, hT, rfl⟩ := Option.map_eq_some_iff.mp hname
    rw [tagLoop_append, tagStep, hdb, hT]
    dsimp only
    rw [if_pos hu]
    refine ⟨rfl, fun t => ?_⟩
    rw [List.mem_append, List.mem_singleton, hlist]
    constructor
    · rintro (⟨n, hn, he⟩ | rfl)
      · exact ⟨n, List.mem_append_left _ hn, he⟩
      · exact ⟨name, List.mem_append_right _ List.mem_cons_self, hname⟩
    · rintro ⟨n, hn, he⟩
      rcases List.mem_append.mp hn with hn | hn
      · exact .inl ⟨n, hn, he⟩
      · obtain rfl := List.mem_singleton.mp hn
        exact .inr (Option.some.inj (he.symm.trans hname))

/-- The tags of a topic that does not count. -/
theorem Sound.updateTag_deleted (h : db.Sound) {x : ForumTopic} (hx : x ∈ db.topics)
    (hdead : live x = false)
    {tag : Text} (hknown : ∀ n ∈ dotags tag, ∃ t ∈ x.tags, db.tagId lower n = some t)
    (hlost : ∀ t ∈ x.tags, (∃ n ∈ dotags tag, db.tagId lower n = some t) ∨ db.carriers t = 1) :
    (TagDb.updateTag lower tag x db).Sound := by
  have hlooped : Looped lower db (dotags tag) (db.tagLoop lower x.tags (dotags tag)) :=
    looped h.2 x.tags (dotags tag)
  obtain ⟨hdb, hlist⟩ := tagLoop_known hknown
  rw [TagDb.updateTag]
  obtain ⟨l, hl⟩ : ∃ l, (db.tagLoop lower x.tags (dotags tag)).1 = l := ⟨_, rfl⟩
  have hrefs := hlooped.list
  rw [hl] at hlist hrefs ⊢
  rw [hdb] at hrefs ⊢
  have hcar : ∀ t, (db.setTags x.id l).carriersBy live t = db.carriersBy live t := by
    intro t
    have hset := carriersBy_setTags live_tags h.2.topicIds hx l t
    simp only [hdead, Bool.false_eq_true, false_and, if_false] at hset
    omega
  refine Owed.dropLast ?_ (h.2.setTags x.id hrefs) live_tags ((h.2.sets x hx).filter _) ?_
  · intro t
    rw [hcar]
    exact h.1 t
  · intro t ht
    obtain ⟨ht, hnot⟩ := List.mem_filter.mp ht
    rw [hcar]
    exact (hlost t ht).resolve_left fun hn => of_decide_eq_true hnot ((hlist t).mpr hn)

/-! ## A name that is too long -/

/-- A name for a new tag is too long, and no name before it stands for the same tag. -/
def Refused (lower : Lowers) (db : TagDb) (names : List Text) : Prop :=
  ∃ before n after, names = before ++ n :: after ∧ 32 < n.length ∧ db.tagId lower n = none ∧
    ∀ m ∈ before, db.tagId lower m = none → lower.db m ≠ lower.py n

theorem mem_pairs_tagStep {old : List Int} {r : List Int × TagDb} {q : Int × Text}
    (hq : q ∈ r.2.pairs) (name : Text) :
    q ∈ (tagStep lower old r name).2.pairs := by
  rw [tagStep]
  split
  · dsimp only
    split
    · exact hq
    · rw [pairs_addHit]
      exact hq
  · rw [pairs_newTag]
    exact List.mem_append_left _ hq

theorem mem_pairs_foldl {old : List Int} {r : List Int × TagDb}
    {q : Int × Text} (hq : q ∈ r.2.pairs)
    (names : List Text) : q ∈ (names.foldl (tagStep lower old) r).2.pairs := by
  induction names generalizing r with
  | nil => exact hq
  | cons name names ih => exact ih (mem_pairs_tagStep hq name)

theorem mem_pairs_dropHits {q : Int × Text} (hq : q ∈ db.pairs)
    {ids : List Int} (hids : q.1 ∉ ids) :
    q ∈ (ids.foldl TagDb.dropHit db).pairs := by
  induction ids generalizing db with
  | nil => exact hq
  | cons id ids ih =>
    rw [List.mem_cons, not_or] at hids
    refine ih ?_ hids.2
    rw [TagDb.dropHit]
    split
    · exact hq
    · split
      · obtain ⟨T, hT, rfl⟩ := List.mem_map.mp hq
        exact List.mem_map_of_mem (List.mem_filter.mpr ⟨hT, decide_eq_true hids.1⟩)
      · rw [pairs_addHit]
        exact hq

/-- **The database does not take such a name.** -/
theorem not_fits_updateTag (hshape : db.Shape) {x : ForumTopic}
    (hold : ∀ t ∈ x.tags, t < db.tagSeq) {tag : Text}
    (hrefused : Refused lower db (dotags tag)) : (TagDb.updateTag lower tag x db).fits = false := by
  obtain ⟨before, n, after, hnames, hlong, hunknown, hbefore⟩ := hrefused
  have hlooped : Looped lower db before (db.tagLoop lower x.tags before) :=
    looped hshape x.tags before
  obtain ⟨r, hr⟩ : ∃ r, db.tagLoop lower x.tags before = r := ⟨_, rfl⟩
  rw [hr] at hlooped
  obtain ⟨news, hpairs, hnews⟩ := hlooped.news
  have hnone : r.2.tagByName lower n = none := by
    have hid : r.2.tagId lower n = none := by
      rw [tagId_append hpairs, hunknown, Option.none_or, Option.map_eq_none_iff, List.find?_eq_none]
      intro q hq he
      obtain ⟨-, hqn, hqnone⟩ := hnews q hq
      exact hbefore q.2 hqn hqnone (of_decide_eq_true he)
    exact Option.map_eq_none_iff.mp hid
  have hinserted : (r.2.tagSeq, n) ∈ (db.tagLoop lower x.tags (dotags tag)).2.pairs := by
    have hloop : db.tagLoop lower x.tags (dotags tag) =
        after.foldl (tagStep lower x.tags)
          (tagStep lower x.tags (db.tagLoop lower x.tags before) n) := by
      rw [hnames, tagLoop, List.foldl_append]
      rfl
    rw [hloop, hr]
    refine mem_pairs_foldl ?_ after
    rw [tagStep, hnone, pairs_newTag]
    exact List.mem_append_right _ List.mem_cons_self
  -- only old tags are dropped, and this one is new
  have hkept : (r.2.tagSeq, n) ∈ (TagDb.updateTag lower tag x db).pairs := by
    have hset : (r.2.tagSeq, n) ∈ ((db.tagLoop lower x.tags (dotags tag)).2.setTags x.id
        (db.tagLoop lower x.tags (dotags tag)).1).pairs := hinserted
    rw [TagDb.updateTag]
    refine mem_pairs_dropHits hset fun hin => ?_
    have hlt := hold _ (List.mem_of_mem_filter hin)
    have hge := hlooped.seq
    dsimp only at hlt
    omega
  obtain ⟨T, hT, he⟩ := List.mem_map.mp hkept
  obtain ⟨-, rfl⟩ := Prod.mk.inj he
  rw [fits, List.all_eq_false]
  refine ⟨T, hT, ?_⟩
  rw [decide_eq_true_eq]
  omega

/-! ## The requests -/

/-- `T.set_status('deleted')`. -/
def close (db : TagDb) (id : Int) : TagDb :=
  { db with topics := Table.update ForumTopic.id id (fun x => { x with status := 1 }) db.topics }

/-- Live, and not this one. -/
def liveBut (id : Int) (x : ForumTopic) : Bool := live x && x.id ≠ id

theorem carriersBy_close (id t : Int) : (db.close id).carriersBy live t =
    db.carriersBy (liveBut id) t := by
  rw [carriersBy, close, Table.update, List.countP_map, carriersBy]
  congr 1
  refine List.countP_congr fun x _ => ?_
  rw [Function.comp_apply]
  by_cases hx : x.id = id
  · simp [hx, live, liveBut, ForumTopic.isDeleted]
  · simp [hx, liveBut]

/-- Without one topic. -/
theorem carriersBy_liveBut (hids : (db.topics.map ForumTopic.id).Nodup) {x : ForumTopic}
    (hx : x ∈ db.topics) (t : Int) :
    db.carriersBy (liveBut x.id) t + (if live x ∧ t ∈ x.tags then 1 else 0) = db.carriers t := by
  have hcount := Table.countP_update hids hx (fun x => { x with status := 1 })
    (fun x => live x && decide (t ∈ x.tags))
  have hclosed : live { x with status := 1 } = false := rfl
  dsimp only at hcount
  rw [hclosed] at hcount
  simp only [Bool.false_and, Bool.false_eq_true, if_false, Bool.and_eq_true,
    decide_eq_true_eq] at hcount
  rw [← carriersBy_close, carriersBy, close, carriers, carriersBy]
  dsimp only
  by_cases hc : live x = true ∧ t ∈ x.tags
  · rw [if_pos hc] at *
    omega
  · rw [if_neg hc] at *
    omega

theorem Shape.close (h : db.Shape) (id : Int) : (db.close id).Shape := by
  have hids : (db.close id).topics.map ForumTopic.id = db.topics.map ForumTopic.id :=
    Table.map_key_update (by intro; rfl)
  have htags : ∀ x ∈ (db.close id).topics, ∃ y ∈ db.topics, y.id = x.id ∧ y.tags = x.tags := by
    intro x hx
    obtain ⟨y, hy, rfl⟩ := List.mem_map.mp hx
    refine ⟨y, hy, ?_⟩
    split <;> exact ⟨rfl, rfl⟩
  refine ⟨h.tagIds, h.tagFresh, hids ▸ h.topicIds, ?_, ?_, ?_, h.pos⟩
  · intro x hx
    obtain ⟨y, hy, hid, -⟩ := htags x hx
    exact hid ▸ h.topicFresh y hy
  · intro x hx t ht
    obtain ⟨y, hy, -, he⟩ := htags x hx
    exact h.refs y hy t (he ▸ ht)
  · intro x hx
    obtain ⟨y, hy, -, he⟩ := htags x hx
    exact he ▸ h.sets y hy

/-- A topic that is closed when what it owes has been paid. -/
theorem sound_close {id : Int} (h : Owed (liveBut id) [] db) (hshape : db.Shape) :
    (db.close id).Sound := by
  refine ⟨fun t => ?_, hshape.close id⟩
  rw [carriersBy_close]
  exact h t

theorem myTopic_mem {user : Visitor} {id : Option Int} {x : ForumTopic}
    (h : db.myTopic user id = some x) :
    x ∈ db.topics := by
  obtain ⟨i, -, h⟩ := Option.bind_eq_some_iff.mp h
  exact List.mem_of_find?_eq_some (Option.filter_eq_some_iff.mp h).1

/-- What a text does to the tags of a topic is refused, or right. -/
def UpdateOk (lower : Lowers) (db : TagDb) (tag : Text) (x : ForumTopic) : Prop :=
  Refused lower db (dotags tag) ∨
    if live x then (dotags tag).Pairwise (Apart lower db x.tags)
    else (∀ n ∈ dotags tag, ∃ t ∈ x.tags, db.tagId lower n = some t) ∧
      ∀ t ∈ x.tags, (∃ n ∈ dotags tag, db.tagId lower n = some t) ∨ db.carriers t = 1

/-- **When the hits stay exact**: no two names of a text stand for one tag that is new to the topic;
and a topic that has been deleted is not given tags, and loses only tags that one topic has. -/
def Careful (lower : Lowers) (db : TagDb) : TagRequest → Prop
  | .add user cid form => db.mayAdd user cid form = true →
      UpdateOk lower db form.tag (db.newTopic user)
  | .edit user id form => ∀ x, db.myTopic user id = some x → db.formOk form = true →
      UpdateOk lower db form.tag x
  | .delete user id => ∀ x, db.myTopic user id = some x → live x = true ∨
      ∀ t ∈ x.tags, db.carriers t = 1

theorem Sound.commitTags (h : db.Sound) {x : ForumTopic} (hx : x ∈ db.topics) {tag : Text}
    (hok : UpdateOk lower db tag x) (hfits : (TagDb.updateTag lower tag x db).fits = true) :
    (TagDb.updateTag lower tag x db).Sound := by
  rcases hok with hrefused | hok
  · rw [not_fits_updateTag h.2 (h.tags_lt hx) hrefused] at hfits
    cases hfits
  · cases hlive : live x with
    | true =>
      rw [if_pos hlive] at hok
      exact h.updateTag hx hlive hok
    | false =>
      rw [if_neg (by rw [hlive]; exact Bool.false_ne_true)] at hok
      exact h.updateTag_deleted hx hlive hok.1 hok.2

theorem Sound.addTopic (h : db.Sound) (user : Visitor) :
    TagDb.Sound
      { db with topics := db.topics ++ [db.newTopic user], topicSeq := db.topicSeq + 1 } := by
  obtain ⟨howed, hshape⟩ := h
  have hold : ∀ x ∈ db.topics ++ [db.newTopic user], x ∈ db.topics ∨
      x = db.newTopic user := fun x hx =>
    (List.mem_append.mp hx).imp id List.mem_singleton.mp
  obtain ⟨hids, hfresh⟩ :=
    Table.nodup_append_next (x := db.newTopic user) hshape.topicIds hshape.topicFresh rfl
  refine ⟨?_, hshape.tagIds, hshape.tagFresh, hids, hfresh, ?_, ?_, hshape.pos⟩
  · intro t
    have hcar : carriersBy
        { db with topics := db.topics ++ [db.newTopic user], topicSeq := db.topicSeq + 1 } live t =
        db.carriersBy live t := by
      rw [carriersBy, List.countP_append, List.countP_singleton, carriersBy]
      simp [newTopic]
    rw [hcar]
    exact howed t
  · intro x hx t ht
    rcases hold x hx with hx | rfl
    · exact hshape.refs x hx t ht
    · cases ht
  · intro x hx
    rcases hold x hx with hx | rfl
    · exact hshape.sets x hx
    · exact List.nodup_nil

theorem Sound.deleteTopic (h : db.Sound) {x : ForumTopic} (hx : x ∈ db.topics)
    (hok : live x = true ∨ ∀ t ∈ x.tags, db.carriers t = 1) :
    ((x.tags.foldl TagDb.dropHit db).close x.id).Sound := by
  have hp : ∀ y l, liveBut x.id { y with tags := l } = liveBut x.id y := fun _ _ => rfl
  have hbut := carriersBy_liveBut h.2.topicIds hx
  cases hlive : live x with
  | true =>
    -- the topic does not count any more, and its tags have one hit too many
    have howed : Owed (liveBut x.id) x.tags db := by
      intro t
      have ht := hbut t
      simp only [hlive, true_and] at ht
      rw [h.hitOf t, ht]
    obtain ⟨hpaid, hshape⟩ := howed.dropHits h.2 hp (h.2.sets x hx)
    exact sound_close hpaid hshape
  | false =>
    have hsame : ∀ t, db.carriersBy (liveBut x.id) t = db.carriers t := by
      intro t
      have ht := hbut t
      simp only [hlive, Bool.false_eq_true, false_and, if_false] at ht
      omega
    have howed : Owed (liveBut x.id) [] db := by
      intro t
      rw [hsame]
      exact h.1 t
    have hone : ∀ t ∈ x.tags, db.carriersBy (liveBut x.id) t = 1 := by
      intro t ht
      rw [hsame]
      exact (hok.resolve_left (by rw [hlive]; exact Bool.false_ne_true)) t ht
    obtain ⟨hpaid, hshape⟩ := howed.dropLast h.2 hp (h.2.sets x hx) hone
    exact sound_close hpaid hshape

theorem Exact.sound (h : db.Exact) (hshape : db.Shape) : db.Sound := by
  refine ⟨fun t => ?_, hshape⟩
  rw [if_neg List.not_mem_nil, Int.add_zero]
  by_cases ht : t ∈ db.tags.map ForumTopicTag.id
  · obtain ⟨T, hT, rfl⟩ := List.mem_map.mp ht
    rw [hitOf_mem hshape.tagIds hT]
    exact h.1 T hT
  · have hnone : ¬ 1 ≤ db.carriers t := fun hle => ht ((h.2 t).mpr hle)
    have hge : 0 ≤ db.carriers t := carriersBy_nonneg t
    rw [hitOf_none ht]
    show 0 = db.carriers t
    omega

/-- **A request keeps the tables sound.** -/
theorem handler_sound (hs : db.Sound) {r : TagRequest} (hr : db.Careful lower r) :
    (Session.request (r.handler lower) db).Sound := by
  rw [Session.request_eq]
  cases r with
  | add user cid form =>
    rw [TagRequest.handler, topicAdd, Session.opened_work]
    split
    · rename_i hmay
      have hadded := hs.addTopic user
      dsimp only
      rw [Session.commitIf_persisted]
      split
      · rename_i hfits
        refine hadded.commitTags (List.mem_append_right _ List.mem_cons_self) ?_ hfits
        -- the numbers of the tags are what they were before the topic
        exact (hr hmay).imp id fun hok => hok
      · exact hadded
    · exact hs
  | edit user id form =>
    rw [TagRequest.handler, topicEdit, Session.opened_work]
    cases hx : db.myTopic user id with
    | none => exact hs
    | some x =>
      dsimp only
      split
      · rename_i hform
        rw [Session.commitIf_persisted]
        split
        · rename_i hfits
          exact hs.commitTags (myTopic_mem hx) (hr x hx hform) hfits
        · exact hs
      · exact hs
  | delete user id =>
    rw [TagRequest.handler, topicDelete, Session.opened_work]
    cases hx : db.myTopic user id with
    | none => exact hs
    | some x => exact hs.deleteTopic (myTopic_mem hx) (hr x hx)

end TagDb

/-- **The hits of tags are exact** after any requests that are careful. -/
theorem hits_exact (lower : Lowers) {db : TagDb}
    (h : Machine.Reach (TagDb.next lower) (TagDb.Careful lower)
      (fun db => db.Shape ∧ db.Exact) db) : db.Exact := by
  have hsound : db.Sound := by
    refine h.inv (fun _ h0 => h0.2.sound h0.1) ?_
    intro s r t hs hr hn
    obtain rfl := Except.ok.inj (Option.some.inj hn)
    exact handler_sound hs hr
  exact hsound.1.exact hsound.2

/-- What `lower` is where the names have no other letters. -/
def asciiLower : Lowers := ⟨List.map Char.toLower, List.map Char.toLower⟩

/-- A catalog, and no topics. -/
def TagDb.blank : TagDb := { catalogs := [{ id := 1 }], topicSeq := 1, tagSeq := 1 }

/-- User 1 adds a topic with these tags. -/
def addTagged (tag : String) : TagRequest :=
  .add { id := 1 } none ⟨1, "about".toList, "about".toList, tag.toList, "about".toList⟩

theorem blank_shape : TagDb.blank.Shape :=
  ⟨List.nodup_nil, nofun, List.nodup_nil, nofun, nofun, nofun, nofun⟩

theorem blank_exact : TagDb.blank.Exact := by
  refine ⟨nofun, fun t => ⟨nofun, fun ht => ?_⟩⟩
  have hzero : TagDb.blank.carriers t = 0 := rfl
  omega

/-- A topic with two tags is added and deleted. -/
theorem hits_exact_run :
    ∃ db, Machine.exec (TagDb.next asciiLower) [addTagged "a, b"] TagDb.blank = some db ∧ db.Exact ∧
      ∃ db', Machine.exec (TagDb.next asciiLower) [.delete { id := 1 } (some 1)] db =
        some db' ∧ db'.Exact := by
  have hblank : Machine.Reach (TagDb.next asciiLower) (TagDb.Careful asciiLower)
      (fun db => db.Shape ∧ db.Exact)
      TagDb.blank := .of_init ⟨blank_shape, blank_exact⟩
  have hadd : TagDb.blank.Careful asciiLower (addTagged "a, b") := by
    intro _
    right
    show (dotags "a, b".toList).Pairwise (Apart asciiLower TagDb.blank [])
    have hnames : dotags "a, b".toList = [['a'], ['b']] := rfl
    rw [hnames, List.pairwise_pair]
    intro _
    decide
  obtain ⟨db, hdb⟩ : ∃ db, TagDb.blank.next asciiLower (addTagged "a, b") =
      some (.ok db) := ⟨_, rfl⟩
  have hadded := hblank.step _ hadd hdb
  have hlive : ∀ x, db.myTopic { id := 1 } (some 1) = some x → TagDb.live x = true := by
    obtain rfl := Except.ok.inj (Option.some.inj hdb)
    decide
  have hdeleted := hadded.step (.delete { id := 1 } (some 1)) (fun x hx => .inl (hlive x hx)) rfl
  refine ⟨db, ?_, hits_exact asciiLower hadded, _, rfl, hits_exact asciiLower hdeleted⟩
  rw [Machine.exec_cons hdb]
  rfl

/-- Two spellings of a new tag are two hits. And of three topics with a tag the first is deleted
twice. -/
theorem hits_wrong :
    (∃ db, Machine.exec (TagDb.next asciiLower) [addTagged "a,A"] TagDb.blank = some db ∧
        db.tags = [⟨1, ['a'], 2⟩] ∧ db.carriers 1 = 1 ∧ ¬ db.Exact) ∧
      ∃ db, Machine.exec (TagDb.next asciiLower)
          [addTagged "a", addTagged "a", addTagged "a", .delete { id := 1 } (some 1),
            .delete { id := 1 } (some 1)]
          TagDb.blank = some db ∧ db.tags = [⟨1, ['a'], 1⟩] ∧ db.carriers 1 = 2 ∧ ¬ db.Exact := by
  constructor
  · obtain ⟨db, hdb⟩ : ∃ db, Machine.exec (TagDb.next asciiLower) [addTagged "a,A"] TagDb.blank =
        some db := ⟨_, rfl⟩
    have hresult : db.tags = [⟨1, ['a'], 2⟩] ∧ db.carriers 1 = 1 := by
      obtain rfl := Option.some.inj hdb
      decide
    refine ⟨db, hdb, hresult.1, hresult.2, fun hexact => ?_⟩
    have hhit := hexact.1 ⟨1, ['a'], 2⟩ (hresult.1 ▸ List.mem_cons_self)
    exact absurd (hhit.trans hresult.2) (by decide)
  · obtain ⟨db, hdb⟩ : ∃ db, Machine.exec (TagDb.next asciiLower)
        [addTagged "a", addTagged "a", addTagged "a", .delete { id := 1 } (some 1),
          .delete { id := 1 } (some 1)]
        TagDb.blank = some db := ⟨_, rfl⟩
    have hresult : db.tags = [⟨1, ['a'], 1⟩] ∧ db.carriers 1 = 2 := by
      obtain rfl := Option.some.inj hdb
      decide
    refine ⟨db, hdb, hresult.1, hresult.2, fun hexact => ?_⟩
    have hhit := hexact.1 ⟨1, ['a'], 1⟩ (hresult.1 ▸ List.mem_cons_self)
    exact absurd (hhit.trans hresult.2) (by decide)

end LuoYun.Web.Forum
