import LuoYun.Clc.Entity
import Mathlib.Data.List.Nodup

/-!
# The entity store keeps its books

The slot array, the two lists and the map from database ids to entities are changed by five
operations, two of which release *another* entity half way through. What they all preserve
is `StoreInv`: an occupied slot knows its own number, the lists hold exactly the occupied
slots of their type, once each, and no two entities of a type share a positive database id.

The last two fields are the ones a first attempt misses. A free slot must be clean, or
`ly_entity_new` refuses it although it is free. And an entity that is neither a node nor an
OS manager must not have a database id: it is in no list, so nothing would find it.
-/

namespace LuoYun

/-- Slot `i` is occupied. -/
def Live (s : EntityStore) (i : Nat) : Prop := i < lyEntityMax ∧ (s.ents i).id ≠ -1

instance (s : EntityStore) (i : Nat) : Decidable (Live s i) :=
  inferInstanceAs (Decidable (_ ∧ _))

/-- The types whose entities are kept in a list. -/
def Listed (type : EntityType) : Prop := type = .node ∨ type = .osm

/-- The invariant of the entity store. -/
structure StoreInv (s : EntityStore) : Prop where
  /-- An occupied slot carries its own number. -/
  id : ∀ i, Live s i → (s.ents i).id = i
  /-- Each list holds the occupied slots of its type. -/
  mem : ∀ type i, i ∈ s.list type ↔ Live s i ∧ (s.ents i).type = type ∧ Listed type
  /-- Each slot is in a list once. -/
  nodup : ∀ type, (s.list type).Nodup
  /-- A positive database id belongs to one entity of its type. -/
  unique : ∀ i j, Live s i → Live s j → (s.ents i).type = (s.ents j).type →
    0 < (s.ents i).dbId → (s.ents i).dbId = (s.ents j).dbId → i = j
  /-- A free slot holds no private data and no keys. -/
  clean : ∀ i, i < lyEntityMax → ¬ Live s i → (s.ents i).entity = .null ∧ (s.ents i).auth = {}
  /-- An entity in no list has no database id. -/
  unlisted : ∀ i, Live s i → ¬ Listed (s.ents i).type → (s.ents i).dbId = -1

theorem storeInv_empty : StoreInv {} where
  id := fun i h => absurd rfl h.2
  mem := by
    intro type i
    have h1 : i ∉ (({} : EntityStore).list type) := by
      cases type <;> exact List.not_mem_nil
    exact ⟨fun h => absurd h h1, fun h => absurd rfl h.1.2⟩
  nodup := by intro type; cases type <;> exact List.nodup_nil
  unique := fun i j h => absurd rfl h.2
  clean := fun i _ _ => ⟨rfl, rfl⟩
  unlisted := fun i h => absurd rfl h.2

/-! ## Finding an entity by its database id -/

/-- `ly_entity_find_by_db` returns the entity that holds the id. -/
theorem find_of_holder {s : EntityStore} (h : StoreInv s) {i : Nat} {type : EntityType} {d : Int}
    (hd : 0 < d) (hl : Live s i) (ht : (s.ents i).type = type) (hi : (s.ents i).dbId = d) :
    lyEntityFindByDb s type d = i := by
  have hlisted : Listed type := by
    rcases Classical.em (Listed type) with hc | hc
    · exact hc
    · have := h.unlisted i hl (by rw [ht]; exact hc)
      omega
  have hmem : i ∈ s.list type := (h.mem type i).mpr ⟨hl, ht, hlisted⟩
  rw [lyEntityFindByDb, if_neg (by omega)]
  cases hf : (s.list type).find? fun j => (s.ents j).dbId == d with
  | none =>
    have := List.find?_eq_none.mp hf i hmem
    simp [hi] at this
  | some j =>
    obtain ⟨hlj, htj, -⟩ := (h.mem type j).mp (List.mem_of_find?_eq_some hf)
    have hdj : (s.ents j).dbId = d := by simpa using List.find?_some hf
    have hij : i = j := h.unique i j hl hlj (by rw [ht, htj]) (by omega) (by rw [hi, hdj])
    dsimp only
    rw [h.id j hlj, hij]

/-- What `ly_entity_find_by_db` returns holds the id. -/
theorem holder_of_find {s : EntityStore} (h : StoreInv s) {type : EntityType} {d : Int}
    (hf : 0 ≤ lyEntityFindByDb s type d) :
    ∃ i : Nat, lyEntityFindByDb s type d = i ∧ 0 < d ∧ Live s i ∧ (s.ents i).type = type
      ∧ (s.ents i).dbId = d := by
  rw [lyEntityFindByDb] at hf ⊢
  split at hf
  · omega
  · rename_i hd
    rw [if_neg hd]
    split at hf
    · omega
    · rename_i j hj
      obtain ⟨hlj, htj, -⟩ := (h.mem type j).mp (List.mem_of_find?_eq_some hj)
      have hdj : (s.ents j).dbId = d := by simpa using List.find?_some hj
      exact ⟨j, h.id j hlj, by omega, hlj, htj, hdj⟩

/-- `ly_entity_find_by_db` returns `-1` when nobody holds the id. -/
theorem find_of_no_holder {s : EntityStore} (h : StoreInv s) {type : EntityType} {d : Int}
    (hn : ¬ ∃ i, Live s i ∧ (s.ents i).type = type ∧ (s.ents i).dbId = d) :
    lyEntityFindByDb s type d = -1 := by
  rw [lyEntityFindByDb]
  split
  · rfl
  · cases hf : (s.list type).find? fun j => (s.ents j).dbId == d with
    | none => rfl
    | some j =>
      obtain ⟨hlj, htj, -⟩ := (h.mem type j).mp (List.mem_of_find?_eq_some hf)
      exact absurd ⟨j, hlj, htj, by simpa using List.find?_some hf⟩ hn

/-! ## One operation at a time -/

/-- **The rule for an operation on slot `i`.** The other slots keep what they had, so only
what the operation leaves in slot `i` has to be checked. -/
theorem storeInv_slot {s s' : EntityStore} (h : StoreInv s) {i : Nat} (hi : i < lyEntityMax)
    (hother : ∀ j, j ≠ i → s'.ents j = s.ents j)
    (hlist : ∀ t j, j ≠ i → (j ∈ s'.list t ↔ j ∈ s.list t))
    (hnodup : ∀ t, (s'.list t).Nodup)
    (hmem : ∀ t, i ∈ s'.list t ↔ Live s' i ∧ (s'.ents i).type = t ∧ Listed t)
    (hid : Live s' i → (s'.ents i).id = i)
    (hunique : Live s' i → 0 < (s'.ents i).dbId → ∀ j, j ≠ i → Live s j →
      (s.ents j).type = (s'.ents i).type → (s.ents j).dbId ≠ (s'.ents i).dbId)
    (hclean : ¬ Live s' i → (s'.ents i).entity = .null ∧ (s'.ents i).auth = {})
    (hunlisted : Live s' i → ¬ Listed (s'.ents i).type → (s'.ents i).dbId = -1) :
    StoreInv s' := by
  have live : ∀ j, j ≠ i → (Live s' j ↔ Live s j) := fun j hj => by
    rw [Live, Live, hother j hj]
  refine ⟨?_, ?_, hnodup, ?_, ?_, ?_⟩
  · intro j hj
    by_cases hji : j = i
    · subst hji; exact hid hj
    · rw [hother j hji]
      exact h.id j ((live j hji).mp hj)
  · intro t j
    by_cases hji : j = i
    · subst hji; exact hmem t
    · rw [hlist t j hji, live j hji, hother j hji]
      exact h.mem t j
  · intro j k hj hk ht hpos heq
    by_cases hji : j = i
    · by_cases hki : k = i
      · rw [hji, hki]
      · subst hji
        rw [hother k hki] at ht heq
        exact absurd heq.symm (hunique hj hpos k hki ((live k hki).mp hk) ht.symm)
    · rw [hother j hji] at ht hpos heq
      by_cases hki : k = i
      · subst hki
        exact absurd heq (hunique hk (heq ▸ hpos) j hji ((live j hji).mp hj) ht)
      · rw [hother k hki] at ht heq
        exact h.unique j k ((live j hji).mp hj) ((live k hki).mp hk) ht hpos heq
  · intro j hj hnl
    by_cases hji : j = i
    · subst hji; exact hclean hnl
    · rw [hother j hji]
      exact h.clean j hj fun hc => hnl ((live j hji).mpr hc)
  · intro j hj hnl
    by_cases hji : j = i
    · subst hji; exact hunlisted hj hnl
    · rw [hother j hji] at hnl ⊢
      exact h.unlisted j ((live j hji).mp hj) hnl

/-- A change that keeps the number, the type and the database id of an occupied slot. -/
theorem storeInv_modify {s : EntityStore} (h : StoreInv s) {i : Nat} {f : LYEntity → LYEntity}
    (hl : Live s i) (hid : (f (s.ents i)).id = (s.ents i).id)
    (htype : (f (s.ents i)).type = (s.ents i).type) (hdb : (f (s.ents i)).dbId = (s.ents i).dbId) :
    StoreInv (s.modify i f) := by
  have hlive : Live (s.modify i f) i ↔ Live s i := by
    rw [Live, Live, EntityStore.modify_ents_self, hid]
  refine storeInv_slot h hl.1 (fun j hj => EntityStore.modify_ents_ne s f hj) (fun t j _ => Iff.rfl)
    h.nodup ?_ ?_ ?_ ?_ ?_
  · intro t
    rw [hlive, EntityStore.modify_ents_self, htype]
    exact h.mem t i
  · rw [EntityStore.modify_ents_self, hid]
    exact fun _ => h.id i hl
  · rw [EntityStore.modify_ents_self, htype, hdb]
    intro _ hpos j hji hj ht heq
    exact hji (h.unique j i hj hl ht (heq ▸ hpos) heq)
  · exact fun hc => absurd (hlive.mpr hl) hc
  · rw [EntityStore.modify_ents_self, htype, hdb]
    exact fun _ => h.unlisted i hl

theorem freeSlot_some {s : EntityStore} {i : Nat} (h : freeSlot s = some i) :
    i < lyEntityMax ∧ (s.ents i).id = -1 := by
  unfold freeSlot at h
  exact ⟨List.mem_range.mp (List.mem_of_find?_eq_some h), by simpa using List.find?_some h⟩

theorem freeSlot_eq_none {s : EntityStore} :
    freeSlot s = none ↔ ∀ i, i < lyEntityMax → Live s i := by
  rw [freeSlot, List.find?_eq_none]
  constructor
  · intro h i hi
    exact ⟨hi, by simpa using h i (List.mem_range.mpr hi)⟩
  · intro h i hi
    simpa using (h i (List.mem_range.mp hi)).2

/-- The entity of a connection that was just accepted. -/
def newEntity (fd : Int) (i : Nat) (p : LYPacketRecv) : LYEntity := { fd, pkt := some p, id := i }

/-- `ly_entity_new` in closed form: a clean store never refuses a free slot. -/
theorem lyEntityNew_eq {s : EntityStore} (h : StoreInv s) {fd : Int} (hfd : 0 ≤ fd) (m : Mem) :
    (freeSlot s = none ∧ lyEntityNew s fd m = (s, -1)) ∨
    ∃ i, freeSlot s = some i ∧
      lyEntityNew s fd m = (s.set i (newEntity fd i ((s.ents i).freshPkt m)), (i : Int)) := by
  cases hf : freeSlot s with
  | none =>
    refine .inl ⟨rfl, ?_⟩
    rw [lyEntityNew, if_neg (by omega), hf]
  | some i =>
    obtain ⟨hi, hfree⟩ := freeSlot_some hf
    obtain ⟨hnull, hauth⟩ := h.clean i hi fun hc => hc.2 hfree
    refine .inr ⟨i, rfl, ?_⟩
    rw [lyEntityNew, if_neg (by omega), hf]
    dsimp only
    rw [if_neg (by simp [hnull, hauth]), hnull, hauth]
    rfl

theorem storeInv_new {s : EntityStore} (h : StoreInv s) (fd : Int) (m : Mem) :
    StoreInv (lyEntityNew s fd m).1 := by
  by_cases hfd : fd < 0
  · rw [lyEntityNew, if_pos hfd]
    exact h
  rcases lyEntityNew_eq h (Int.not_lt.mp hfd) m with ⟨-, he⟩ | ⟨i, hf, he⟩
  · rw [he]
    exact h
  obtain ⟨hi, hfree⟩ := freeSlot_some hf
  rw [he]
  refine storeInv_slot h hi (fun j hj => EntityStore.set_ents_ne s _ hj) (fun t j _ => Iff.rfl)
    h.nodup ?_ ?_ ?_ ?_ ?_
  · intro t
    rw [EntityStore.set_ents_self]
    -- the slot was free, so it is in no list, and its new type is none of theirs
    refine ⟨fun hm => absurd hfree ((h.mem t i).mp hm).1.2, ?_⟩
    rintro ⟨-, rfl, hc | hc⟩ <;> cases hc
  · intro _
    rw [EntityStore.set_ents_self]
    rfl
  · rw [EntityStore.set_ents_self]
    exact fun _ hpos => absurd hpos (Int.not_lt.mpr (Int.negSucc_le_zero 0))
  · intro hc
    refine absurd ⟨hi, ?_⟩ hc
    rw [EntityStore.set_ents_self]
    show (i : Int) ≠ -1
    omega
  · intro _ _
    rw [EntityStore.set_ents_self]
    rfl

theorem lyEntityRelease_live {s : EntityStore} (h : StoreInv s) {i : Nat} (hl : Live s i) :
    lyEntityRelease s i = (((s.cleanup i).listDel i).modify i LYEntity.released, 0) := by
  rw [lyEntityRelease, slot?_natCast hl.1]
  dsimp only
  rw [if_neg (by rw [h.id i hl]; omega)]

theorem storeInv_release {s : EntityStore} (h : StoreInv s) {i : Nat} (hl : Live s i) :
    StoreInv (lyEntityRelease s i).1 := by
  rw [lyEntityRelease_live h hl]
  have hdead : ¬ Live (((s.cleanup i).listDel i).modify i LYEntity.released) i := by
    intro hc
    refine hc.2 ?_
    rw [EntityStore.modify_ents_self]
    rfl
  have hlist : ∀ t, (((s.cleanup i).listDel i).modify i LYEntity.released).list t
      = (s.list t).filter (· ≠ i) := by
    intro t
    cases t <;> rfl
  refine storeInv_slot h hl.1 (fun j hj => EntityStore.modify_ents_ne _ _ hj) ?_ ?_ ?_
    (fun hc => absurd hc hdead) (fun hc => absurd hc hdead) ?_ (fun hc => absurd hc hdead)
  · intro t j hji
    rw [hlist, List.mem_filter]
    simp [hji]
  · intro t
    rw [hlist]
    exact (h.nodup t).filter _
  · intro t
    rw [hlist, List.mem_filter]
    simp [hdead]
  · rw [EntityStore.modify_ents_self]
    exact fun _ => ⟨rfl, rfl⟩

/-- Giving an occupied slot of unknown type its type, and linking it into that type's list. -/
theorem storeInv_retype {s s' : EntityStore} (h : StoreInv s) {i : Nat} (type : EntityType)
    (hl : Live s i) (hu : (s.ents i).type = .unknown)
    (hother : ∀ j, j ≠ i → s'.ents j = s.ents j)
    (hlist : ∀ t, s'.list t = if t = type ∧ (t = .node ∨ t = .osm) then i :: s.list t else s.list t)
    (hid : (s'.ents i).id = (s.ents i).id) (htype : (s'.ents i).type = type)
    (hdb : (s'.ents i).dbId = (s.ents i).dbId) : StoreInv s' := by
  have hnot : ¬ Listed (s.ents i).type := by
    rw [hu]
    rintro (hc | hc) <;> cases hc
  have hneg : (s'.ents i).dbId = -1 := by
    rw [hdb]
    exact h.unlisted i hl hnot
  have hout : ∀ t, i ∉ s.list t := by
    intro t hm
    obtain ⟨-, ht, hlt⟩ := (h.mem t i).mp hm
    exact hnot (ht ▸ hlt)
  have hlive : Live s' i := ⟨hl.1, by rw [hid]; exact hl.2⟩
  refine storeInv_slot h hl.1 hother ?_ ?_ ?_ ?_ ?_ ?_ ?_
  · intro t j hji
    rw [hlist]
    split
    · simp [hji]
    · rfl
  · intro t
    rw [hlist]
    split
    · exact List.nodup_cons.mpr ⟨hout t, h.nodup t⟩
    · exact h.nodup t
  · intro t
    rw [hlist, htype]
    split
    · rename_i ht
      exact ⟨fun _ => ⟨hlive, ht.1.symm, ht.2⟩, fun _ => List.mem_cons_self⟩
    · rename_i ht
      exact ⟨fun hm => absurd hm (hout t), fun hm => absurd ⟨hm.2.1.symm, hm.2.2⟩ ht⟩
  · intro _
    rw [hid]
    exact h.id i hl
  · intro _ hpos
    omega
  · exact fun hc => absurd hlive hc
  · exact fun _ _ => hneg

theorem storeInv_init {s : EntityStore} (h : StoreInv s) {i : Nat} (hl : Live s i)
    (type : EntityType) : StoreInv (lyEntityInit s i type).1 := by
  rw [lyEntityInit, slot?_natCast hl.1]
  dsimp only
  by_cases hu : (s.ents i).type = .unknown
  · rw [if_neg (by simp [hu])]
    refine storeInv_retype h type hl hu ?_ ?_ ?_ ?_ ?_
    · intro j hj
      cases type <;> simp [EntityStore.modify, EntityStore.set, hj]
    · intro t
      cases type <;> cases t <;> rfl
    all_goals cases type <;> simp [EntityStore.modify, EntityStore.set]
  · rw [if_pos hu]
    exact h

/-! ### Claiming a database id -/

/-- Releasing the holder of a database id leaves the id free and the claimer untouched. -/
theorem storeInv_claim {s : EntityStore} (h : StoreInv s) {i : Nat} {d : Int} (hl : Live s i)
    (htyped : 0 ≤ d → Listed (s.ents i).type) : StoreInv (claimDbId s i d) := by
  rw [claimDbId]
  by_cases hd : d < 0
  · rw [if_pos hd]; exact h
  rw [if_neg hd]
  dsimp only
  generalize hs' : (if 0 ≤ lyEntityFindByDb s (s.ents i).type d ∧
    lyEntityFindByDb s (s.ents i).type d ≠ i then
      (lyEntityRelease s (lyEntityFindByDb s (s.ents i).type d)).1
      else s) = s'
  have key : StoreInv s' ∧ s'.ents i = s.ents i ∧ ∀ j, j ≠ i → Live s' j →
      (s'.ents j).type = (s.ents i).type → 0 < d → (s'.ents j).dbId ≠ d := by
    by_cases hold : 0 ≤ lyEntityFindByDb s (s.ents i).type d ∧
        lyEntityFindByDb s (s.ents i).type d ≠ i
    · rw [if_pos hold] at hs'
      obtain ⟨k, hk, -, hlk, htk, hdk⟩ := holder_of_find h hold.1
      have hki : k ≠ i := by
        rintro rfl
        exact hold.2 hk
      rw [hk] at hs'
      have hinv := storeInv_release h hlk
      rw [hs'] at hinv
      rw [lyEntityRelease_live h hlk] at hs'
      have hkeep : ∀ j, j ≠ k → s'.ents j = s.ents j := by
        intro j hj
        rw [← hs']
        exact EntityStore.modify_ents_ne _ _ hj
      refine ⟨hinv, hkeep i hki.symm, ?_⟩
      intro j hji hlj htj hpos hdj
      by_cases hjk : j = k
      · subst hjk
        refine hlj.2 ?_
        rw [← hs', EntityStore.modify_ents_self]
        rfl
      · rw [hkeep j hjk] at htj hdj
        rw [Live, hkeep j hjk] at hlj
        exact hjk (h.unique j k hlj hlk (by rw [htj, htk]) (by omega) (by rw [hdj, hdk]))
    · rw [if_neg hold] at hs'
      subst hs'
      refine ⟨h, rfl, ?_⟩
      intro j hji hlj htj hpos hdj
      have := find_of_holder h hpos hlj htj hdj
      rw [this] at hold
      omega
  obtain ⟨hinv, hent, hfree⟩ := key
  have hl' : Live s' i := by rw [Live, hent]; exact hl
  have hlive : Live (s'.modify i fun e => { e with dbId := d }) i ↔ Live s' i := by
    rw [Live, Live, EntityStore.modify_ents_self]
  refine storeInv_slot hinv hl.1 (fun j hj => EntityStore.modify_ents_ne s' _ hj)
    (fun t j _ => Iff.rfl) hinv.nodup ?_ ?_ ?_ ?_ ?_
  · intro t
    rw [hlive, EntityStore.modify_ents_self]
    exact hinv.mem t i
  · rw [EntityStore.modify_ents_self]
    exact fun _ => hinv.id i hl'
  · rw [EntityStore.modify_ents_self]
    intro _ hpos j hji hj ht
    rw [hent] at ht
    exact hfree j hji hj ht hpos
  · exact fun hc => absurd (hlive.mpr hl') hc
  · rw [EntityStore.modify_ents_self]
    intro _ hnl
    dsimp only at hnl
    rw [hent] at hnl
    exact absurd (htyped (by omega)) hnl

theorem storeInv_update {s : EntityStore} (h : StoreInv s) {i : Nat} (hl : Live s i)
    {d status : Int} (htyped : 0 ≤ d → Listed (s.ents i).type) :
    StoreInv (lyEntityUpdate s i d status).1 := by
  rw [lyEntityUpdate, slot?_natCast hl.1]
  dsimp only
  split
  · have hm := storeInv_modify h (f := fun e => e.withStatus status) hl rfl rfl rfl
    refine storeInv_claim hm ?_ ?_
    · rw [Live, EntityStore.modify_ents_self]; exact hl
    · rw [EntityStore.modify_ents_self]; exact htyped
  · exact storeInv_claim h hl htyped

theorem storeInv_enable {s : EntityStore} (h : StoreInv s) {i : Nat} (hl : Live s i)
    {d : Int} {enable : Bool} (htyped : 0 ≤ d → Listed (s.ents i).type) :
    StoreInv (lyEntityEnable s i d enable).1 := by
  rw [lyEntityEnable, slot?_natCast hl.1]
  have hm := storeInv_modify h (f := fun e => e.withEnabled enable) hl rfl rfl rfl
  refine storeInv_claim hm ?_ ?_
  · rw [Live, EntityStore.modify_ents_self]; exact hl
  · rw [EntityStore.modify_ents_self]; exact htyped

/-! ## Any sequence of operations -/

/-- One call of the five operations, on a live id and with a non-negative database id only for
an entity that is typed already. -/
inductive StoreStep : EntityStore → EntityStore → Prop where
  | new (s : EntityStore) (fd : Int) (m : Mem) : StoreStep s (lyEntityNew s fd m).1
  | init (s : EntityStore) (i : Nat) (type : EntityType) (hl : Live s i) :
      StoreStep s (lyEntityInit s i type).1
  | update (s : EntityStore) (i : Nat) (d status : Int) (hl : Live s i)
      (ht : 0 ≤ d → Listed (s.ents i).type) : StoreStep s (lyEntityUpdate s i d status).1
  | enable (s : EntityStore) (i : Nat) (d : Int) (enable : Bool) (hl : Live s i)
      (ht : 0 ≤ d → Listed (s.ents i).type) : StoreStep s (lyEntityEnable s i d enable).1
  | release (s : EntityStore) (i : Nat) (hl : Live s i) : StoreStep s (lyEntityRelease s i).1

/-- A store reached from the empty one, which is what `ly_entity_store_init` sets up. -/
inductive StoreReachable : EntityStore → Prop where
  | init : StoreReachable {}
  | tail {s s' : EntityStore} : StoreReachable s → StoreStep s s' → StoreReachable s'

theorem storeInv_step {s s' : EntityStore} (h : StoreInv s)
    (hs : StoreStep s s') : StoreInv s' := by
  cases hs with
  | new fd m => exact storeInv_new h fd m
  | init i type hl => exact storeInv_init h hl type
  | update i d status hl ht => exact storeInv_update h hl ht
  | enable i d en hl ht => exact storeInv_enable h hl ht
  | release i hl => exact storeInv_release h hl

theorem storeInv_reachable {s : EntityStore} (h : StoreReachable s) : StoreInv s := by
  induction h with
  | init => exact storeInv_empty
  | tail _ hs ih => exact storeInv_step ih hs

/-- `ly_entity_new` gets a slot exactly when it is given a descriptor and one is free. -/
theorem lyEntityNew_succeeds {s : EntityStore} (h : StoreInv s) (fd : Int) (m : Mem) :
    0 ≤ (lyEntityNew s fd m).2 ↔ 0 ≤ fd ∧ ∃ i, i < lyEntityMax ∧ ¬ Live s i := by
  by_cases hfd : fd < 0
  · rw [lyEntityNew, if_pos hfd]
    exact ⟨fun hc => absurd (show (0 : Int) ≤ -255 from hc) (by decide),
      fun hc => absurd hc.1 (by omega)⟩
  rcases lyEntityNew_eq h (Int.not_lt.mp hfd) m with ⟨hf, he⟩ | ⟨i, hf, he⟩
  · rw [he]
    refine ⟨fun hc => absurd (show (0 : Int) ≤ -1 from hc) (by decide), ?_⟩
    rintro ⟨-, i, hi, hn⟩
    exact absurd (freeSlot_eq_none.mp hf i hi) hn
  · rw [he]
    obtain ⟨hi, hfree⟩ := freeSlot_some hf
    exact ⟨fun _ => ⟨by omega, i, hi, fun hc => hc.2 hfree⟩, fun _ => by dsimp only; omega⟩

/-- **The store keeps its books** over any sequence of operations: the lists hold exactly the
live entities of their type, once each; a positive database id belongs to one entity of its
type, and `ly_entity_find_by_db` returns that one; and `ly_entity_new` succeeds exactly when a
slot is free. -/
theorem store_integrity {s : EntityStore} (h : StoreReachable s) :
    (∀ i, i ∈ s.nodeList ↔ Live s i ∧ (s.ents i).type = .node) ∧ s.nodeList.Nodup ∧
    (∀ i, i ∈ s.instanceList ↔ Live s i ∧ (s.ents i).type = .osm) ∧ s.instanceList.Nodup ∧
    (∀ i j, Live s i → Live s j → i ≠ j → (s.ents i).type = (s.ents j).type →
      0 < (s.ents i).dbId → (s.ents i).dbId ≠ (s.ents j).dbId) ∧
    (∀ type d, 0 < d →
      (∀ i, Live s i → (s.ents i).type = type → (s.ents i).dbId = d →
        lyEntityFindByDb s type d = (s.ents i).id ∧ (s.ents i).id = i) ∧
      ((¬ ∃ i, Live s i ∧ (s.ents i).type = type ∧ (s.ents i).dbId = d) →
        lyEntityFindByDb s type d = -1)) ∧
    (∀ fd m, 0 ≤ fd → (0 ≤ (lyEntityNew s fd m).2 ↔ ∃ i, i < lyEntityMax ∧ ¬ Live s i)) := by
  have hinv := storeInv_reachable h
  refine ⟨?_, hinv.nodup .node, ?_, hinv.nodup .osm, ?_, ?_, ?_⟩
  · intro i
    rw [show s.nodeList = s.list .node from rfl, hinv.mem .node i]
    simp [Listed]
  · intro i
    rw [show s.instanceList = s.list .osm from rfl, hinv.mem .osm i]
    simp [Listed]
  · intro i j hi hj hij ht hpos heq
    exact hij (hinv.unique i j hi hj ht hpos heq)
  · intro type d hd
    refine ⟨fun i hi ht hdb => ?_, find_of_no_holder hinv⟩
    rw [hinv.id i hi]
    exact ⟨find_of_holder hinv hd hi ht hdb, rfl⟩
  · intro fd m hfd
    rw [lyEntityNew_succeeds hinv]
    simp [hfd]

/-- A node connection that has claimed database id 5. -/
def oneNode : EntityStore :=
  (lyEntityUpdate (lyEntityInit (lyEntityNew {} 3 fun _ => 0).1 0 .node).1 0 5 Flag.online).1

theorem oneNode_reachable : StoreReachable oneNode :=
  .tail (.tail (.tail .init (.new {} 3 fun _ => 0)) (.init _ 0 .node (by decide +kernel)))
    (.update _ 0 5 Flag.online (by decide +kernel) fun _ => .inl (by decide +kernel))

theorem store_integrity_oneNode :
    oneNode.nodeList.Nodup ∧ lyEntityFindByDb oneNode .node 5 = (oneNode.ents 0).id :=
  ⟨(store_integrity oneNode_reachable).2.1,
    (((store_integrity oneNode_reachable).2.2.2.2.2.1 .node 5 (by decide)).1 0 (by decide +kernel)
      (by decide +kernel) (rfl)).1⟩

end LuoYun
