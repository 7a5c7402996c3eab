import LuoYun.Lib.Machine
import LuoYun.Web.PublicKey

/-!
# The default key

The flag is counted. `set_default` leaves one whatever there was before; the constructor adds one
when there was none; and a key that is deleted takes the flag with it only to have it handed on.
What a request does to the keys of one user it does not do to those of another.
-/

namespace LuoYun.Web

namespace KeyDb

variable {db : KeyDb} {user : Int}

/-- The number of keys of a user. -/
def total (db : KeyDb) (user : Int) : Nat := db.rows.countP fun K => K.userId = user

/-- How many of them have the flag. -/
def defaults (db : KeyDb) (user : Int) : Nat := db.rows.countP fun K =>
    decide (K.userId = user) && K.isdefault

/-- The primary key. -/
structure Keyed (db : KeyDb) : Prop where
  ids : (db.rows.map PublicKey.id).Nodup
  fresh : ∀ K ∈ db.rows, K.id < db.seq

/-- No key, or one with the flag. -/
def OneDefault (db : KeyDb) (user : Int) : Prop := db.total user = 0 ∨ db.defaults user = 1

/-! ## The keys of a user -/

theorem mem_keys {K : PublicKey} : K ∈ db.keys user ↔ K ∈ db.rows ∧ K.userId = user := by
  rw [keys, List.mem_insertionSort, List.mem_filter, decide_eq_true_eq]

theorem keys_eq_nil : db.keys user = [] ↔ db.total user = 0 := by
  rw [total, List.countP_eq_zero, List.eq_nil_iff_forall_not_mem]
  constructor
  · intro h K hK hu
    exact h K (mem_keys.mpr ⟨hK, of_decide_eq_true hu⟩)
  · intro h K hK
    obtain ⟨hmem, hu⟩ := mem_keys.mp hK
    exact h K hmem (decide_eq_true hu)

theorem any_keys : (db.keys user).any (·.isdefault) = true ↔ 0 < db.defaults user := by
  rw [defaults, List.countP_pos_iff, List.any_eq_true]
  constructor
  · rintro ⟨K, hK, hdef⟩
    obtain ⟨hmem, hu⟩ := mem_keys.mp hK
    exact ⟨K, hmem, by rw [hdef, Bool.and_true]; exact decide_eq_true hu⟩
  · rintro ⟨K, hmem, h⟩
    rw [Bool.and_eq_true] at h
    exact ⟨K, mem_keys.mpr ⟨hmem, of_decide_eq_true h.1⟩, h.2⟩

/-- In the words of the table. -/
theorem oneDefault_iff : db.OneDefault user ↔
    db.keys user = [] ∨ (db.keys user).countP (·.isdefault) = 1 := by
  have hcount : (db.keys user).countP (·.isdefault) = db.defaults user := by
    rw [keys, (List.perm_insertionSort _ _).countP_eq, List.countP_filter, defaults]
    exact List.countP_congr fun K _ => by rw [Bool.and_comm]
  rw [hcount, keys_eq_nil, OneDefault]

/-- A key with the flag is a key. -/
theorem defaults_le_total : db.defaults user ≤ db.total user :=
  List.countP_mono_left fun _ _ h => (Bool.and_eq_true _ _ ▸ h).1

/-! ## What the operations do to the counts -/

theorem total_add (key : PublicKey) : (db.add key).total user =
    db.total user + if key.userId = user then 1 else 0 := by
  rw [add, total, List.countP_append, List.countP_singleton, total]
  simp

theorem defaults_add (key : PublicKey) :
    (db.add key).defaults user = db.defaults user +
      if key.userId = user ∧ key.isdefault then 1 else 0 := by
  rw [add, defaults, List.countP_append, List.countP_singleton, defaults]
  simp

theorem total_update {f : PublicKey → PublicKey}
    (hf : ∀ K, (f K).userId = K.userId) (key : PublicKey) :
    (db.update key f).total user = db.total user := by
  rw [update, total, Table.update, List.countP_map, total]
  refine List.countP_congr fun K _ => ?_
  dsimp only [Function.comp]
  split
  · rw [hf]
  · rfl

theorem defaults_update {f : PublicKey → PublicKey}
    (hf : ∀ K, (f K).userId = K.userId ∧ (f K).isdefault = K.isdefault) (key : PublicKey) :
    (db.update key f).defaults user = db.defaults user := by
  rw [update, defaults, Table.update, List.countP_map, defaults]
  refine List.countP_congr fun K _ => ?_
  dsimp only [Function.comp]
  split
  · rw [(hf K).1, (hf K).2]
  · rfl

theorem total_clear (owner : Int) : (db.clear owner).total user = db.total user := by
  rw [clear, total, List.countP_map, total]
  refine List.countP_congr fun K _ => ?_
  dsimp only [Function.comp]
  split <;> rfl

theorem defaults_clear (owner : Int) :
    (db.clear owner).defaults user = if user = owner then 0 else db.defaults user := by
  rw [clear, defaults, List.countP_map]
  split
  · rename_i hu
    rw [List.countP_eq_zero]
    intro K _
    dsimp only [Function.comp]
    by_cases hK : K.userId = owner
    · simp [hK]
    · simp [hK, hu]
  · rename_i hu
    rw [defaults]
    refine List.countP_congr fun K _ => ?_
    dsimp only [Function.comp]
    by_cases hK : K.userId = owner
    · simp [hK, Ne.symm hu]
    · simp [hK]

/-- The flag is given to a key, which may have it. -/
theorem defaults_promote (hids : (db.rows.map PublicKey.id).Nodup)
    {K : PublicKey} (hK : K ∈ db.rows) :
    (db.update K fun K => { K with isdefault := true }).defaults user +
        (if K.userId = user ∧ K.isdefault then 1 else 0) =
      db.defaults user + if K.userId = user then 1 else 0 := by
  have hcount := Table.countP_update hids hK (fun K => { K with isdefault := true })
    (fun K => decide (K.userId = user) && K.isdefault)
  rw [update, defaults, defaults]
  simpa using hcount

theorem map_id_clear (owner : Int) : (db.clear owner).rows.map PublicKey.id =
    db.rows.map PublicKey.id := by
  rw [clear, List.map_map]
  refine List.map_congr_left fun K _ => ?_
  dsimp only [Function.comp]
  split <;> rfl

/-- **`set_default` leaves one default key.** -/
theorem defaults_setDefault (hids : (db.rows.map PublicKey.id).Nodup) {key : PublicKey}
    (hkey : key ∈ db.rows) :
    (db.setDefault key).defaults user = if user = key.userId then 1 else db.defaults user := by
  -- the flag is taken from all of them first, so the key does not have it when it is given
  have hmem : { key with isdefault := false } ∈ (db.clear key.userId).rows :=
    List.mem_map.mpr ⟨key, hkey, if_pos rfl⟩
  have hpromote := @defaults_promote _ user ((map_id_clear key.userId).symm ▸ hids) _ hmem
  rw [defaults_clear, if_neg (by simp)] at hpromote
  refine hpromote.trans ?_
  by_cases hu : user = key.userId
  · simp [hu]
  · simp [hu, Ne.symm hu]

theorem total_setDefault (key : PublicKey) : (db.setDefault key).total user = db.total user := by
  rw [setDefault, total_update (by intro; rfl), total_clear]

/-- A key that is taken away. -/
theorem counts_erase (hids : (db.rows.map PublicKey.id).Nodup) {key : PublicKey}
    (hkey : key ∈ db.rows) :
    let db' : KeyDb := { db with rows := Table.erase PublicKey.id key.id db.rows }
    db'.total user + (if key.userId = user then 1 else 0) = db.total user ∧
      db'.defaults user + (if key.userId = user ∧ key.isdefault then 1 else 0) =
        db.defaults user := by
  have htotal := Table.countP_erase hids hkey fun K => decide (K.userId = user)
  have hdefaults := Table.countP_erase hids hkey fun K => decide (K.userId = user) && K.isdefault
  refine ⟨?_, ?_⟩
  · simpa [total] using htotal
  · simpa [defaults] using hdefaults

/-! ## The primary key -/

theorem Keyed.of_map_id (h : db.Keyed) {db' : KeyDb}
    (hids : (db'.rows.map PublicKey.id).Sublist (db.rows.map PublicKey.id))
    (hseq : db'.seq = db.seq) :
    db'.Keyed where
  ids := h.ids.sublist hids
  fresh K hK := by
    obtain ⟨K₀, hK₀, he⟩ := List.mem_map.mp (hids.subset (List.mem_map_of_mem hK))
    rw [hseq, ← he]
    exact h.fresh K₀ hK₀

theorem Keyed.update (h : db.Keyed) {f : PublicKey → PublicKey}
    (hf : ∀ K, (f K).id = K.id) (key : PublicKey) :
    (db.update key f).Keyed :=
  h.of_map_id (by rw [KeyDb.update, Table.map_key_update hf]) rfl

theorem Keyed.setDefault (h : db.Keyed) (key : PublicKey) : (db.setDefault key).Keyed := by
  have hclear : (db.clear key.userId).Keyed :=
    h.of_map_id (by rw [map_id_clear]) rfl
  exact hclear.update (by intro; rfl) key

theorem Keyed.add (h : db.Keyed) (user : Int) (name data : Text) :
    (db.add (db.newKey user name data)).Keyed where
  ids := (Table.nodup_append_next h.ids h.fresh rfl).1
  fresh := (Table.nodup_append_next h.ids h.fresh rfl).2

theorem myKey_some {id : Option Int} {key : PublicKey} (h : db.myKey user id = some key) :
    key ∈ db.rows ∧ key.userId = user := by
  obtain ⟨i, -, h⟩ := Option.bind_eq_some_iff.mp h
  obtain ⟨hfind, hu⟩ := Option.filter_eq_some_iff.mp h
  exact ⟨List.mem_of_find?_eq_some hfind, of_decide_eq_true hu⟩

end KeyDb

open KeyDb

/-! ## The requests -/

/-- What holds of the keys of one user, whoever the requests come from. -/
structure KeyInv (user : Int) (db : KeyDb) : Prop where
  keyed : db.Keyed
  one : db.OneDefault user

variable {db : KeyDb} {user : Int}

theorem KeyInv.setDefault (h : KeyInv user db) {key : PublicKey} (hkey : key ∈ db.rows) :
    KeyInv user (db.setDefault key) where
  keyed := h.keyed.setDefault key
  one := by
    unfold OneDefault
    rw [defaults_setDefault h.keyed.ids hkey, total_setDefault]
    by_cases hu : user = key.userId
    · rw [if_pos hu]
      exact .inr rfl
    · rw [if_neg hu]
      exact h.one

theorem add_keyInv (h : KeyInv user db) (owner : Int) (form : PublicKeyForm) :
    KeyInv user (Session.request (publicKeyAdd owner form) db) := by
  rw [Session.request_eq, publicKeyAdd]
  split
  · dsimp only
    rw [Session.opened_work]
    -- the constructor gives the flag to the first key
    have hnew : KeyInv user (db.add (db.newKey owner form.name form.key)) := by
      refine ⟨h.keyed.add owner _ _, ?_⟩
      unfold OneDefault
      rw [total_add, defaults_add]
      by_cases hu : owner = user
      · have hflag : (db.newKey owner form.name form.key).isdefault = true ↔
            db.defaults owner = 0 := by
          show (!(db.keys owner).any (·.isdefault)) = true ↔ _
          rw [Bool.not_eq_true', ← Bool.not_eq_true, any_keys]
          omega
        have howner : (db.newKey owner form.name form.key).userId = owner := rfl
        have hle : db.defaults user ≤ db.total user := defaults_le_total
        rw [← hu] at hle ⊢
        have hone : db.OneDefault owner := hu ▸ h.one
        right
        by_cases hzero : db.defaults owner = 0
        · rw [if_pos ⟨howner, hflag.mpr hzero⟩, hzero]
        · rw [if_neg (fun hc => hzero (hflag.mp hc.2))]
          rcases hone with ht | hd
          · omega
          · rw [hd]
      · have howner : (db.newKey owner form.name form.key).userId ≠ user := hu
        rw [if_neg howner, if_neg (fun hc => howner hc.1)]
        exact h.one
    split
    · exact hnew.setDefault (List.mem_append_right _ List.mem_cons_self)
    · exact hnew
  · exact h

theorem edit_keyInv (h : KeyInv user db) (owner : Int) (id : Option Int) (form : PublicKeyForm) :
    KeyInv user (Session.request (publicKeyEdit owner id form) db) := by
  rw [Session.request_eq, publicKeyEdit, Session.opened_work]
  cases hkey : db.myKey owner id with
  | none => exact h
  | some key =>
    dsimp only
    split
    · split
      · exact h
      · obtain ⟨hmem, hu⟩ := myKey_some hkey
        have hnamed : KeyInv user
            (db.update key fun K => { K with name := form.name, data := form.key }) := by
          refine ⟨h.keyed.update (by intro; rfl) key, ?_⟩
          unfold OneDefault
          rw [total_update (by intro; rfl), defaults_update (by intro; exact ⟨rfl, rfl⟩)]
          exact h.one
        split
        · have hin : { key with name := form.name, data := form.key } ∈
              (db.update key fun K => { K with name := form.name, data := form.key }).rows :=
            List.mem_map.mpr ⟨key, hmem, if_pos rfl⟩
          have hdefault := hnamed.setDefault hin
          exact hdefault
        · exact hnamed
    · exact h

theorem delete_keyInv (h : KeyInv user db) (owner : Int) (id : Option Int) :
    KeyInv user (Session.request (publicKeyDelete owner id) db) := by
  rw [Session.request_eq, publicKeyDelete, Session.opened_work]
  cases hkey : db.myKey owner id with
  | none => exact h
  | some key =>
    obtain ⟨hmem, hu⟩ := myKey_some hkey
    obtain ⟨htotal, hdefaults⟩ := @counts_erase _ user h.keyed.ids _ hmem
    have hleft : KeyDb.Keyed { db with rows := Table.erase PublicKey.id key.id db.rows } :=
      h.keyed.of_map_id (List.filter_sublist.map _) rfl
    generalize hrest : ({ db with rows := Table.erase PublicKey.id key.id db.rows } : KeyDb) =
      rest at *
    dsimp only at htotal hdefaults ⊢
    rw [Session.commit_work, Session.modify_work, Session.opened_work, hrest]
    have hone := h.one
    have hle : rest.defaults user ≤ rest.total user := defaults_le_total
    unfold OneDefault at hone
    by_cases hflag : key.isdefault = true
    · rw [if_pos hflag]
      cases hkeys : rest.keys owner with
      | nil =>
        dsimp only
        rw [Session.commit_persisted, Session.commit_work, Session.modify_work, Session.opened_work,
          hrest]
        refine ⟨hleft, ?_⟩
        unfold OneDefault
        by_cases howner : owner = user
        · exact .inl (howner ▸ keys_eq_nil.mp hkeys)
        · rw [if_neg (fun hc => howner (hu.symm.trans hc))] at htotal
          rw [if_neg (fun hc => howner (hu.symm.trans hc.1))] at hdefaults
          omega
      | cons K Ks =>
        dsimp only
        rw [Session.commit_persisted, Session.modify_work, Session.commit_work, Session.modify_work,
          Session.opened_work, hrest]
        refine ⟨hleft.update (by intro; rfl) K, ?_⟩
        obtain ⟨hK, hKu⟩ := mem_keys.mp (hkeys ▸ List.mem_cons_self : K ∈ rest.keys owner)
        have hpromote := @defaults_promote _ user hleft.ids _ hK
        unfold OneDefault
        rw [total_update (by intro; rfl)]
        by_cases howner : owner = user
        -- the flag has gone with the key
        · rw [if_pos (hu.trans howner)] at htotal
          rw [if_pos ⟨hu.trans howner, hflag⟩] at hdefaults
          rw [if_pos (hKu.trans howner)] at hpromote
          have hnone : rest.defaults user = 0 := by omega
          rw [hnone] at hpromote
          have hKflag : ¬ (K.userId = user ∧ K.isdefault = true) := by
            rintro ⟨hKuser, hKdef⟩
            have hany : (rest.keys user).any (·.isdefault) = true :=
              List.any_eq_true.mpr ⟨K, mem_keys.mpr ⟨hK, hKuser⟩, hKdef⟩
            rw [any_keys] at hany
            omega
          rw [if_neg hKflag] at hpromote
          exact .inr hpromote
        · have hKother : ¬ K.userId = user := fun hc => howner (hKu.symm.trans hc)
          rw [if_neg (fun hc => howner (hu.symm.trans hc))] at htotal
          rw [if_neg (fun hc => howner (hu.symm.trans hc.1))] at hdefaults
          rw [if_neg hKother, if_neg (fun hc => hKother hc.1)] at hpromote
          omega
    · rw [if_neg hflag]
      -- another key keeps the flag
      rw [Session.commit_persisted, Session.modify_work, Session.opened_work, hrest]
      refine ⟨hleft, ?_⟩
      unfold OneDefault
      rw [if_neg (fun hc => hflag hc.2)] at hdefaults
      omega

/-- **What a request does to the keys of a user** leaves one default key, or none when there are
none. -/
theorem handler_keyInv (h : KeyInv user db) (r : KeyRequest) :
    KeyInv user (Session.request r.handler db) := by
  cases r with
  | add owner form => exact add_keyInv h owner form
  | edit owner id form => exact edit_keyInv h owner id form
  | delete owner id => exact delete_keyInv h owner id

/-- The user has no keys. -/
def KeyDb.Without (user : Int) (db : KeyDb) : Prop := db.Keyed ∧ db.keys user = []

/-- **A user has no key or exactly one default key**, after any requests of anyone. -/
theorem one_default {user : Int} {db : KeyDb}
    (h : Machine.Reach KeyDb.next Machine.Always (KeyDb.Without user) db) :
    db.keys user = [] ∨ (db.keys user).countP (·.isdefault) = 1 := by
  have hinv : KeyInv user db := by
    refine h.inv ?_ ?_
    · exact fun _ h0 => ⟨h0.1, .inl (keys_eq_nil.mp h0.2)⟩
    · intro s r t hs _ hn
      obtain rfl := Except.ok.inj (Option.some.inj hn)
      exact handler_keyInv hs r
  exact oneDefault_iff.mp hinv.one

/-- Three keys, of which the second becomes the default one and is deleted. -/
theorem one_default_run :
    let form (c : Char) (isdefault : Bool) : PublicKeyForm := ⟨[c], [c], isdefault⟩
    ∃ db, Machine.exec KeyDb.next [.add 1 (form 'a' false), .add 1 (form 'b' true),
      .add 1 (form 'c' false),
        .delete 1 (some 1)] ⟨[], 1⟩ = some db ∧
      (db.keys 1 = [] ∨ (db.keys 1).countP (·.isdefault) = 1) := by
  intro form
  have hrun : Machine.exec KeyDb.next [.add 1 (form 'a' false), .add 1 (form 'b' true),
      .add 1 (form 'c' false),
      .delete 1 (some 1)] ⟨[], 1⟩ =
        some ⟨[⟨2, 1, ['b'], ['b'], true⟩, ⟨3, 1, ['c'], ['c'], false⟩], 4⟩ := by
    rfl
  have h0 : KeyDb.Without 1 ⟨[], 1⟩ := ⟨⟨List.nodup_nil, nofun⟩, rfl⟩
  exact ⟨_, hrun, one_default ((Machine.Reach.of_init h0).of_exec (fun _ _ _ => trivial) hrun)⟩

end LuoYun.Web
