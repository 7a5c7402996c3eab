import LuoYun.Clc.Schedule
import LuoYun.Clc.World
import LuoYun.Proof.EntityInv
import Mathlib.Data.List.MinMax

/-!
# Which node `node_schedule` picks

The variable `ent_id` of the loop is at once the best node so far and, as long as there is none, the
reason why. `scheduled` says the two apart: the first node of the greatest free memory among those
that may be used (`firstMax`), and if there is none what all the nodes together have to say.

The loop is driven by the ids of the entities. It goes through the list once if every node carries
its own slot number and none is in slot 0, where `ly_entity_data_next` starts all over.
-/

namespace LuoYun

/-! ## The specification -/

/-- The node data in slot `i`. -/
def nodeAt (s : EntityStore) (i : Nat) : LYNodeData :=
  match (s.ents i).entity with
  | .node nd => nd
  | _ => {}

/-- The node is registered and enabled. -/
def isUsable (s : EntityStore) (i : Nat) : Bool := lyEntityIsRegistered s i && lyEntityIsEnabled s i

/-- The low mark as `storage_free` is compared with it: an unsigned number. -/
def storageLow (env : Env) : Int := toUInt32 env.cfg.nodeStorageLow

/-- The node has storage above the low mark, and a processor and memory to commit. -/
def hasRoom (env : Env) (nf : NodeInfo) : Bool :=
  decide (storageLow env < nf.storageFree) && decide (nf.cpuCommit < nf.cpuVlimit) &&
    decide (nf.memCommit < nf.memVlimit)

/-- Fewer starts than the limit are under way on the node. -/
def isIdle (env : Env) (nd : LYNodeData) : Bool :=
  decide (nd.insJobBusyNr < env.cfg.nodeInsJobBusyLimit)

/-- The nodes that an instance may be started on. -/
def isCandidate (env : Env) (s : EntityStore) (i : Nat) : Bool :=
  isUsable s i && hasRoom env (nodeAt s i).node && isIdle env (nodeAt s i)

/-- The nodes that only the starts under way keep from being candidates. -/
def isStroking (env : Env) (s : EntityStore) (i : Nat) : Bool :=
  isUsable s i && hasRoom env (nodeAt s i).node && !isIdle env (nodeAt s i)

/-- The memory of the node that is not committed. -/
def memAvail (s : EntityStore) (i : Nat) : Int :=
  (nodeAt s i).node.memVlimit - (nodeAt s i).node.memCommit

/-- The result for the nodes `l` when `best` is the one to be taken. -/
def answer (env : Env) (s : EntityStore) (l : List Nat) (best : Option Nat) : Int :=
  match best with
  | some i => i
  | none =>
    if l.any (isUsable s) = false then nodeScheduleNodeUnavail
    else if l.any (isStroking env s) then nodeScheduleNodeStroke
    else nodeScheduleNodeBusy

/-- The first of the elements with the greatest value: `List.argmax`, by the order of the integers.
-/
def firstMax {α : Type} (f : α → Int) (l : List α) : Option α :=
  @List.argmax α Int Int.instLinearOrder.toPreorder Int.decLt f l

/-- **What `node_schedule` is for**: the candidate with the most memory, the first on ties. -/
def scheduled (env : Env) (s : EntityStore) : Int :=
  answer env s s.nodeList (firstMax (memAvail s) (s.nodeList.filter (isCandidate env s)))

/-- The node list links slots of the store, each of which knows its number and holds node data, and
slot 0 is not among them. -/
structure NodesLinked (s : EntityStore) : Prop where
  nodup : s.nodeList.Nodup
  id : ∀ i ∈ s.nodeList, (s.ents i).id = i
  range : ∀ i ∈ s.nodeList, 1 ≤ i ∧ i < lyEntityMax
  data : ∀ i ∈ s.nodeList, ∃ nd, (s.ents i).entity = .node nd

/-- A store that keeps its books links its nodes. -/
theorem StoreInv.nodesLinked {s : EntityStore} (h : StoreInv s)
    (hid : ∀ i ∈ s.nodeList, 1 ≤ (s.ents i).id)
    (hdata : ∀ i ∈ s.nodeList, ∃ nd, (s.ents i).entity = .node nd) : NodesLinked s where
  nodup := h.nodup .node
  id := fun i hi => h.id i ((h.mem .node i).mp hi).1
  range := by
    intro i hi
    have hlive := ((h.mem .node i).mp hi).1
    have := hid i hi
    rw [h.id i hlive] at this
    exact ⟨by omega, hlive.1⟩
  data := hdata

/-! ## The node data -/

namespace NodesLinked

variable {s : EntityStore} {i : Nat}

theorem entity (h : NodesLinked s) (hi : i ∈ s.nodeList) :
    (s.ents i).entity = .node (nodeAt s i) := by
  obtain ⟨nd, hnd⟩ := h.data i hi
  rw [nodeAt, hnd]

end NodesLinked

theorem noResource_eq (nf : NodeInfo) :
    noResource nf =
      !(decide (nf.cpuCommit < nf.cpuVlimit) && decide (nf.memCommit < nf.memVlimit)) := by
  simp only [noResource, Bool.not_and, ← decide_not, not_lt]

theorem hasRoom_iff {env : Env} {nf : NodeInfo} : hasRoom env nf = true ↔
    storageLow env < nf.storageFree ∧ nf.cpuCommit < nf.cpuVlimit ∧
      nf.memCommit < nf.memVlimit := by
  simp only [hasRoom, Bool.and_eq_true, decide_eq_true_eq, and_assoc]

/-! ## The best of a list -/

theorem firstMax_mem {α : Type} {f : α → Int} {l : List α} {m : α}
    (h : firstMax f l = some m) : m ∈ l :=
  List.argmax_mem h

theorem firstMax_concat {α : Type} (f : α → Int) (a : α) (l : List α) :
    firstMax f (l ++ [a]) = Option.casesOn (firstMax f l) (some a) fun c =>
      if f c < f a then some a else some c :=
  List.argmax_concat f a l

theorem firstMax_congr {α : Type} [DecidableEq α] {f g : α → Int} {l : List α}
    (h : ∀ a ∈ l, f a = g a) :
    firstMax f l = firstMax g l := by
  have hiff : ∀ (k : α → Int) (m : α), firstMax k l = some m ↔
      m ∈ l ∧ (∀ a ∈ l, k a ≤ k m) ∧ ∀ a ∈ l, k m ≤ k a → l.idxOf m ≤ l.idxOf a :=
        fun _ _ => List.mem_argmax_iff
  refine Option.ext fun m => ?_
  rw [hiff, hiff]
  refine and_congr_right fun hm => and_congr ?_ ?_
  · exact forall₂_congr fun a ha => by rw [h a ha, h m hm]
  · exact forall₂_congr fun a ha => by rw [h a ha, h m hm]

/-! ## One round -/

/-- The free memory of a node as the loop computes it, in an `int`. -/
def memAvailInt (s : EntityStore) (i : Nat) : Int := toInt32 (memAvail s i)

/-- The candidates that the loop can take: an `int` that is not positive never exceeds the maximum.
-/
def isTakeable (env : Env) (s : EntityStore) (i : Nat) : Bool :=
  isCandidate env s i && decide (0 < memAvailInt s i)

/-- The best of these nodes. -/
def bestOf (env : Env) (s : EntityStore) (l : List Nat) : Option Nat :=
  firstMax (memAvailInt s) (l.filter (isTakeable env s))

/-- The variables of the loop when it has gone through `l`. -/
def scanned (env : Env) (s : EntityStore) (l : List Nat) : ScheduleState where
  entCurr := (l.getLast?.map fun i => (i : Int)).getD (-1)
  entId := answer env s l (bestOf env s l)
  memAvailMax := ((bestOf env s l).map (memAvailInt s)).getD 0

theorem bestOf_concat (env : Env) (s : EntityStore) (l : List Nat) (i : Nat) :
    bestOf env s (l ++ [i]) =
      if isTakeable env s i then
        match bestOf env s l with
        | none => some i
        | some c => if memAvailInt s c < memAvailInt s i then some i else some c
      else bestOf env s l := by
  unfold bestOf
  rw [List.filter_append]
  split
  · rename_i ht
    rw [List.filter_cons_of_pos ht, List.filter_nil, firstMax_concat]
    cases firstMax (memAvailInt s) (l.filter (isTakeable env s)) <;> rfl
  · rename_i ht
    rw [List.filter_cons_of_neg ht, List.filter_nil, List.append_nil]

/-- The maximum so far is never negative. -/
theorem scanned_max_nonneg (env : Env) (s : EntityStore) (l : List Nat) :
    0 ≤ (scanned env s l).memAvailMax := by
  unfold scanned
  dsimp only
  cases h : bestOf env s l with
  | none => exact Int.le_refl 0
  | some c =>
    have hmem := firstMax_mem h
    have htake := (List.mem_filter.mp hmem).2
    have hpos : 0 < memAvailInt s c := by
      simpa using (Bool.and_eq_true_iff.mp htake).2
    exact Int.le_of_lt hpos

section Answer

variable {env : Env} {s : EntityStore} {l : List Nat} {i : Nat} {best : Option Nat}

theorem isStroking_usable (h : isStroking env s i = true) : isUsable s i = true := by
  unfold isStroking at h
  rw [Bool.and_eq_true, Bool.and_eq_true] at h
  exact h.1.1

theorem any_stroking (h : l.any (isUsable s) = false) : l.any (isStroking env s) = false := by
  rw [List.any_eq_false] at h ⊢
  intro j hj hs
  exact h j hj (isStroking_usable hs)

theorem answer_some (c : Nat) : answer env s l (some c) ≠ nodeScheduleNodeUnavail ∧
    answer env s l (some c) ≠ nodeScheduleNodeBusy := by
  simp only [answer, nodeScheduleNodeUnavail, nodeScheduleNodeBusy]
  omega

/-- A node that is not registered or not enabled says nothing. -/
theorem answer_unusable (h : isUsable s i = false) :
    answer env s (l ++ [i]) best = answer env s l best := by
  have hs : isStroking env s i = false := by simp [isStroking, h]
  cases best <;> simp [answer, h, hs]

/-- A node without room turns UNAVAIL into BUSY. -/
theorem answer_usable (h : isUsable s i = true) (hs : isStroking env s i = false) :
    answer env s (l ++ [i]) best = scheduleSeen (answer env s l best) := by
  unfold scheduleSeen
  cases best with
  | some c => rw [if_neg (answer_some c).1, answer, answer]
  | none =>
    cases hl : l.any (isUsable s) with
    | false => simp [answer, h, hs, hl, any_stroking hl]
    | true =>
      cases hk : l.any (isStroking env s) <;>
        simp [answer, h, hs, hl, hk, nodeScheduleNodeStroke, nodeScheduleNodeBusy,
          nodeScheduleNodeUnavail]

/-- A node that is only stroking turns BUSY into STROKE. -/
theorem answer_stroking (hs : isStroking env s i = true) :
    answer env s (l ++ [i]) best = scheduleStroking (scheduleSeen (answer env s l best)) := by
  have h := isStroking_usable hs
  unfold scheduleStroking scheduleSeen
  cases best with
  | some c =>
    rw [if_neg (answer_some c).1, if_neg (answer_some c).2, answer, answer]
  | none =>
    cases hl : l.any (isUsable s) with
    | false => simp [answer, h, hs, hl]
    | true =>
      cases hk : l.any (isStroking env s) <;>
        simp [answer, h, hs, hl, hk, nodeScheduleNodeStroke, nodeScheduleNodeBusy,
          nodeScheduleNodeUnavail]

end Answer

/-- What a round does with the node in slot `i`. -/
theorem scanned_concat (env : Env) (s : EntityStore) (l : List Nat) (i : Nat) :
    scanned env s (l ++ [i]) =
      let st := { scanned env s l with entCurr := i }
      if isUsable s i = false then st
      else scheduleVisit env (nodeAt s i) { st with entId := scheduleSeen st.entId } := by
  have hmax := scanned_max_nonneg env s l
  -- a node that is not taken changes the answer only
  have keep : isTakeable env s i = false → scanned env s (l ++ [i]) =
      { scanned env s l with
        entCurr := i, entId := answer env s (l ++ [i]) (bestOf env s l) } := by
    intro ht
    simp [scanned, bestOf_concat, ht]
  dsimp only
  split
  · rename_i hu
    rw [keep (by simp [isTakeable, isCandidate, hu]), answer_unusable hu]
    rfl
  rename_i hu
  have hu : isUsable s i = true := by simpa using hu
  unfold scheduleVisit
  dsimp only
  by_cases hroom : hasRoom env (nodeAt s i).node = true
  · obtain ⟨hlow, hcpu, hmem⟩ := hasRoom_iff.mp hroom
    unfold storageLow at hlow
    rw [if_neg (Int.not_le.mpr hlow), if_neg (by rw [noResource_eq]; simp [hcpu, hmem])]
    by_cases hidle : isIdle env (nodeAt s i) = true
    · have hlimit : ¬ env.cfg.nodeInsJobBusyLimit ≤ (nodeAt s i).insJobBusyNr := by
        simpa [isIdle] using hidle
      have hcand : isCandidate env s i = true := by simp [isCandidate, hu, hroom, hidle]
      have hstroke : isStroking env s i = false := by simp [isStroking, hidle]
      rw [if_neg hlimit]
      rw [show toInt32 ((nodeAt s i).node.memVlimit - (nodeAt s i).node.memCommit) =
        memAvailInt s i from rfl]
      by_cases hpos : 0 < memAvailInt s i
      · have htake : isTakeable env s i = true := by simp [isTakeable, hcand, hpos]
        have hbest := bestOf_concat env s l i
        rw [if_pos htake] at hbest
        unfold scanned
        rw [hbest]
        cases hb : bestOf env s l with
        | none =>
          dsimp only
          rw [if_pos (by simpa using hpos)]
          simp [answer]
        | some c =>
          dsimp only
          by_cases hlt : memAvailInt s c < memAvailInt s i
          · rw [if_pos hlt, if_pos (by simpa using hlt)]
            simp [answer]
          · rw [if_neg hlt, if_neg (by simpa using hlt)]
            simp [answer, scheduleSeen, nodeScheduleNodeUnavail]
      · rw [keep (by simp [isTakeable, hpos]), if_neg (by omega), answer_usable hu hstroke]
        rfl
    · have hidle : isIdle env (nodeAt s i) = false := by simpa using hidle
      have hlimit : env.cfg.nodeInsJobBusyLimit ≤ (nodeAt s i).insJobBusyNr := by
        simpa [isIdle] using hidle
      rw [keep (by simp [isTakeable, isCandidate, hidle]), if_pos hlimit,
        answer_stroking (by simp [isStroking, hu, hroom, hidle])]
      rfl
  · have hroom : hasRoom env (nodeAt s i).node = false := by simpa using hroom
    rw [keep (by simp [isTakeable, isCandidate, hroom]),
      answer_usable hu (by simp [isStroking, hroom])]
    -- no room: the first or the second test of the loop sees it
    split
    · rfl
    · rename_i hlow
      rw [if_pos]
      · rfl
      · rw [noResource_eq]
        have hnot := mt hasRoom_iff.mpr (by rw [hroom]; decide)
        have hroom' : ¬ ((nodeAt s i).node.cpuCommit < (nodeAt s i).node.cpuVlimit ∧
            (nodeAt s i).node.memCommit < (nodeAt s i).node.memVlimit) :=
          fun hr => hnot ⟨Int.not_le.mp hlow, hr⟩
        simpa using not_and_or.mp hroom'

/-! ## The iterator -/

/-- The last node visited leads to the next one on the list. -/
theorem lyEntityDataNext_scanned {env : Env} {s : EntityStore}
    (h : NodesLinked s) {l rest : List Nat} (hl : s.nodeList = l ++ rest) :
    lyEntityDataNext s .node (scanned env s l).entCurr =
      match rest with
      | [] => .ok ((scanned env s l).entCurr, .null)
      | i :: _ => .ok ((i : Int), .node (nodeAt s i)) := by
  have hlist : s.list .node = l ++ rest := hl
  -- what stands behind the front is a node of the list
  have hnode : ∀ i ∈ s.nodeList, (.ok ((s.ents i).id, (s.ents i).entity) : Res (Int × EntityData)) =
      .ok ((i : Int), .node (nodeAt s i)) := by
    intro i hi
    rw [h.id i hi, h.entity hi]
  unfold lyEntityDataNext
  rw [hlist]
  rcases List.eq_nil_or_concat' l with rfl | ⟨before, c, rfl⟩
  · -- nothing visited yet: the id is -1, and the first is next
    cases rest with
    | nil => rfl
    | cons i rest => exact hnode i (by rw [hl]; exact List.mem_cons_self)
  · have hc : c ∈ s.nodeList := by rw [hl]; simp
    have hcur : (scanned env s (before ++ [c])).entCurr = c := by simp [scanned]
    obtain ⟨hlow, hhigh⟩ := h.range c hc
    have hnodup := h.nodup
    rw [hl, List.append_assoc, List.singleton_append] at hnodup
    have hnot : c ∉ before := fun hmem =>
      (List.disjoint_of_nodup_append hnodup) hmem List.mem_cons_self
    have hdrop : (before ++ [c] ++ rest).dropWhile (fun j : Nat => decide ((j : Int) ≠ c)) =
        c :: rest := by
      rw [List.append_assoc, List.dropWhile_append_of_pos]
      · simp
      · intro j hj
        have hne : j ≠ c := fun he => hnot (he ▸ hj)
        exact decide_eq_true (by omega)
    rw [hcur]
    cases hfirst : before ++ [c] ++ rest with
    | nil => simp at hfirst
    | cons first more =>
      dsimp only
      rw [if_neg (by omega), ← hfirst, hdrop]
      cases rest with
      | nil => rfl
      | cons i rest => exact hnode i (by rw [hl]; simp)

/-! ## The loop -/

theorem scheduleRound_scanned {env : Env} {s : EntityStore} (h : NodesLinked s)
    {l : List Nat} {i : Nat} {rest : List Nat} (hl : s.nodeList = l ++ i :: rest) :
    scheduleRound env s (scanned env s l) = .ok (.inl (scanned env s (l ++ [i]))) := by
  rw [scheduleRound, lyEntityDataNext_scanned h hl, scanned_concat]
  dsimp only
  cases hu : isUsable s i with
  | false =>
    have hor : lyEntityIsRegistered s i = false ∨ lyEntityIsEnabled s i = false :=
      Bool.and_eq_false_iff.mp hu
    rw [if_pos hor, if_pos rfl]
  | true =>
    have hor : ¬ (lyEntityIsRegistered s i = false ∨ lyEntityIsEnabled s i = false) := by
      simpa [isUsable] using hu
    rw [if_neg hor, if_neg (by decide)]

theorem scheduleRound_done {env : Env} {s : EntityStore} (h : NodesLinked s) :
    scheduleRound env s (scanned env s s.nodeList) =
      .ok (.inr (answer env s s.nodeList (bestOf env s s.nodeList))) := by
  rw [scheduleRound, lyEntityDataNext_scanned h (List.append_nil _).symm]
  rfl

/-- The rounds that are left when the loop has gone through `l`. -/
theorem run_scanned {env : Env} {s : EntityStore} (h : NodesLinked s) {l rest : List Nat}
    (hl : s.nodeList = l ++ rest) :
    Loop.run (scheduleRound env s) (rest.length + 1) (scanned env s l) =
      some (.ok (answer env s s.nodeList (bestOf env s s.nodeList))) := by
  induction rest generalizing l with
  | nil =>
    rw [List.append_nil] at hl
    rw [← hl]
    exact Loop.run_stop (scheduleRound_done h) 0
  | cons i rest ih =>
    rw [List.length_cons, Loop.run_continue (scheduleRound_scanned h hl)]
    exact ih (by rw [hl, List.append_assoc, List.singleton_append])

/-- **The loop ends**, one round after the last node. -/
theorem nodeScheduleRun_eq {env : Env} {s : EntityStore} (h : NodesLinked s) {nodeId : Int}
    (hmode : env.cfg.nodeSelect ≠ nodeSelectLastOnly ∨ nodeId ≤ 0) :
    nodeScheduleRun env s nodeId (s.nodeList.length + 1) =
      some (.ok (answer env s s.nodeList (bestOf env s s.nodeList))) := by
  have hany : ¬ (env.cfg.nodeSelect = nodeSelectLastOnly ∧ 0 < nodeId) := by omega
  rw [nodeScheduleRun, if_neg hany]
  exact run_scanned h (l := []) rfl

/-- `nodeScheduleAny` goes through the list as the loop does. -/
theorem nodeScheduleAny_scanned {env : Env} {s : EntityStore}
    (h : NodesLinked s) {l rest : List Nat} (hl : s.nodeList = l ++ rest) :
    nodeScheduleAny env s rest (scanned env s l).entId (scanned env s l).memAvailMax =
      .ok (answer env s s.nodeList (bestOf env s s.nodeList)) := by
  induction rest generalizing l with
  | nil =>
    rw [List.append_nil] at hl
    rw [← hl]
    rfl
  | cons i rest ih =>
    have hi : i ∈ s.nodeList := by rw [hl]; simp
    have hstep := scanned_concat env s l i
    have hnext := ih (l := l ++ [i]) (by rw [hl, List.append_assoc, List.singleton_append])
    have hpos := (h.range i hi).1
    rw [nodeScheduleAny, h.entity hi]
    dsimp only
    rw [h.id i hi, if_neg (by omega), ← hnext, hstep]
    cases hu : isUsable s i with
    | false =>
      rw [show (lyEntityIsRegistered s i && lyEntityIsEnabled s i) = false from hu]
      simp
    | true =>
      rw [show (lyEntityIsRegistered s i && lyEntityIsEnabled s i) = true from hu]
      simp only [scheduleVisit, scheduleSeen, scheduleStroking, true_and, Bool.not_true,
        Bool.false_or]
      generalize scanned env s l = st
      -- the tests in the order of the loop
      by_cases hlow : (nodeAt s i).node.storageFree ≤ toUInt32 env.cfg.nodeStorageLow
      · simp [hlow]
      by_cases hres : noResource (nodeAt s i).node = true
      · simp [hlow, hres]
      by_cases hlimit : env.cfg.nodeInsJobBusyLimit ≤ (nodeAt s i).insJobBusyNr
      · simp [hlow, hres, hlimit]
      by_cases hmax : st.memAvailMax <
          toInt32 ((nodeAt s i).node.memVlimit - (nodeAt s i).node.memCommit)
      · simp [hlow, hres, hlimit, hmax]
      · simp [hlow, hres, hlimit, hmax]

/-! ## The specification holds -/

/-- The memory of a node fits an `int`, so the `int` that the loop computes is exact. -/
theorem memAvailInt_eq {s : EntityStore} {i : Nat} (h0 : 0 ≤ (nodeAt s i).node.memCommit)
    (h1 : (nodeAt s i).node.memVlimit < 2 ^ 31)
    (hlt : (nodeAt s i).node.memCommit < (nodeAt s i).node.memVlimit) :
    memAvailInt s i = memAvail s i ∧ 0 < memAvail s i := by
  unfold memAvailInt memAvail toInt32
  omega

theorem isCandidate_iff {env : Env} {s : EntityStore} {i : Nat} : isCandidate env s i = true ↔
    isUsable s i = true ∧ hasRoom env (nodeAt s i).node = true ∧
      isIdle env (nodeAt s i) = true := by
  simp only [isCandidate, Bool.and_eq_true, and_assoc]

/-- If the limits of the registered nodes fit an `int`, the best node is the one of the
specification. -/
theorem bestOf_eq {env : Env} {s : EntityStore}
    (hmem : ∀ i ∈ s.nodeList, lyEntityIsRegistered s i = true →
      0 ≤ (nodeAt s i).node.memCommit ∧ (nodeAt s i).node.memVlimit < 2 ^ 31) :
    bestOf env s s.nodeList = firstMax (memAvail s) (s.nodeList.filter (isCandidate env s)) := by
  have hexact : ∀ i ∈ s.nodeList, isCandidate env s i = true →
      memAvailInt s i = memAvail s i ∧ 0 < memAvail s i := by
    intro i hi hcand
    obtain ⟨husable, hroom, -⟩ := isCandidate_iff.mp hcand
    obtain ⟨h0, h1⟩ := hmem i hi (Bool.and_eq_true_iff.mp husable).1
    exact memAvailInt_eq h0 h1 (hasRoom_iff.mp hroom).2.2
  have hfilter : s.nodeList.filter (isTakeable env s) = s.nodeList.filter (isCandidate env s) := by
    refine List.filter_congr fun i hi => ?_
    unfold isTakeable
    cases hcand : isCandidate env s i with
    | false => rfl
    | true =>
      obtain ⟨heq, hpos⟩ := hexact i hi hcand
      simp [heq, hpos]
  unfold bestOf
  rw [hfilter]
  refine firstMax_congr fun i hi => ?_
  obtain ⟨hin, hcand⟩ := List.mem_filter.mp hi
  exact (hexact i hin hcand).1

/-- **The scheduler meets its specification.** In a mode other than LAST_ONLY, or for an instance
that has not run yet, the loop ends and returns what `scheduled` says. -/
theorem nodeSchedule_scheduled {env : Env} {s : EntityStore} {nodeId : Int} (h : NodesLinked s)
    (hmem : ∀ i ∈ s.nodeList, lyEntityIsRegistered s i = true →
      0 ≤ (nodeAt s i).node.memCommit ∧ (nodeAt s i).node.memVlimit < 2 ^ 31)
    (hmode : env.cfg.nodeSelect ≠ nodeSelectLastOnly ∨ nodeId ≤ 0) :
    (∃ n, nodeScheduleRun env s nodeId n = some (.ok (scheduled env s))) ∧
      nodeSchedule env s nodeId = .ok (scheduled env s) := by
  have hbest := @bestOf_eq env s hmem
  refine ⟨⟨s.nodeList.length + 1, ?_⟩, ?_⟩
  · rw [nodeScheduleRun_eq h hmode, hbest, scheduled]
  · have hany : ¬ (env.cfg.nodeSelect = nodeSelectLastOnly ∧ 0 < nodeId) := by omega
    rw [nodeSchedule, if_neg hany, scheduled, ← hbest]
    exact nodeScheduleAny_scanned h (l := []) rfl

/-- A store with these nodes, each in its slot and under a database id of its own, registered and
enabled. -/
def EntityStore.ofNodes (nodes : List (Nat × Int × LYNodeData)) : EntityStore where
  ents := fun i =>
    match nodes.lookup i with
    | none => {}
    | some (dbId, nd) =>
      { fd := i + 10, id := i, type := .node, flag := 11, dbId, entity := .node nd }
  nodeList := nodes.map Prod.fst

theorem EntityStore.ofNodes_linked {nodes : List (Nat × Int × LYNodeData)}
    (hnodup : (nodes.map Prod.fst).Nodup)
    (hrange : ∀ i ∈ nodes.map Prod.fst, 1 ≤ i ∧ i < lyEntityMax) :
    NodesLinked (.ofNodes nodes) := by
  have hent : ∀ i ∈ nodes.map Prod.fst, ∃ v, nodes.lookup i = some v := by
    intro i hi
    obtain ⟨p, hp, rfl⟩ := List.mem_map.mp hi
    cases hl : nodes.lookup p.1 with
    | some v => exact ⟨v, rfl⟩
    | none =>
      have := List.lookup_eq_none_iff.mp hl p hp
      simp at this
  refine ⟨hnodup, fun i hi => ?_, hrange, fun i hi => ?_⟩
  · obtain ⟨v, hv⟩ := hent i hi
    simp only [ofNodes, hv]
  · obtain ⟨v, hv⟩ := hent i hi
    exact ⟨v.2, by simp only [ofNodes, hv]⟩

/-- A node with storage and processors. -/
def LYNodeData.roomy (memCommit memVlimit : Int) : LYNodeData :=
  { node :=
      { status := NodeStatus.ready, storageFree := 100, cpuVlimit := 4, memVlimit, memCommit } }

/-- Three nodes: the second and the third have the same memory left, the first has less. -/
theorem nodeSchedule_scheduled_three :
    let s := EntityStore.ofNodes [(3, 7, .roomy 3072 4096), (1, 5, .roomy 0 2048),
      (2, 6, .roomy 2048 4096)]
    (∃ n, nodeScheduleRun Env.plain s 0 n = some (.ok 1)) ∧ nodeSchedule Env.plain s 0 = .ok 1 := by
  intro s
  have hlinked : NodesLinked s := EntityStore.ofNodes_linked (by decide) (by decide)
  have hsched : scheduled Env.plain s = 1 := by decide
  have h := @nodeSchedule_scheduled Env.plain s 0 hlinked (by decide) (.inr (by decide))
  rwa [hsched] at h

end LuoYun
