import LuoYun.Compute.DomainXml

/-!
# The data disk of a domain

`disk_found` and `storage_size` are declared outside of the loop over the entries of a storage
array. The flag stays set, so every entry behind the disk adds the element once more and sizes the
file again; the size stays, so a disk without a size takes the one of an earlier entry.

`Placed` says what has been done when some of the entries have been read. One entry keeps it
(`placed_entry`), so it holds of all entries of all storage arrays (`placed_members`).
-/

namespace LuoYun

/-- The members of an entry of a storage array. -/
abbrev DiskMembers := List (Bytes × Json)

/-- The type of the entry is `disk`: its first member of this name says so. -/
def isDisk (e : DiskMembers) : Bool :=
  match e.find? fun m => decide (m.1 = cstr "type") with
  | some (_, .string type) => decide (type = cstr "disk")
  | _ => false

/-- A type other than `disk`. -/
def otherType : Bytes × Json → Bool
  | (name, .string type) => decide (name = cstr "type" ∧ type ≠ cstr "disk")
  | _ => false

/-- The size that a member gives. -/
def sizeMember : Bytes × Json → Option Int
  | (name, .integer n) => if name = cstr "size" then some n else none
  | _ => none

/-- The size field of an entry. Should there be several, the last one is meant, up to a type other
than `disk`. -/
def sizeField (e : DiskMembers) : Option Int :=
  ((e.takeWhile fun m => !otherType m).filterMap sizeMember).getLast?

/-- The members of the entries of an array. -/
def entriesOf (values : List Json) : List DiskMembers :=
  values.filterMap fun
    | .object members => some members
    | _ => none

/-- The entries of all storage arrays of a document. -/
def storageOf (members : List (Bytes × Json)) : List DiskMembers :=
  members.flatMap fun
    | (name, .array values) => if name = cstr "storage" then entriesOf values else []
    | _ => []

/-- The disk and what follows it. -/
def fromDisk (es : List DiskMembers) : List DiskMembers := es.dropWhile fun e => !isDisk e

/-- The element of the data disk. -/
def dataDisk (cfg : NodeConfig) (id : Int) : Bytes :=
  snprintf pathMax ((diskElement cfg (insPath cfg id "disk1.img") "sdb" "hdb").getD [])

/-- The file of the data disk is at least `n` gigabytes long. -/
def grown (n : Int) : Option File → File
  | none => File.empty.resize (n * 2 ^ 30).toNat
  | some f => if n * 2 ^ 30 ≤ f.size then f else f.resize (n * 2 ^ 30).toNat

/-- What the code makes of the file: the size is compared in whole gigabytes, as an `int`. -/
def sized (n : Int) : Option File → File
  | none => File.empty.resize (n * 2 ^ 30).toNat
  | some f => if n ≤ sizeG f.size then f else f.resize (n * 2 ^ 30).toNat

/-- The size and the one of the file can be compared as `int`s of gigabytes, and the size is an
`int` if the file is to grow. -/
def Fits (n : Int) : Option File → Prop
  | none => n < 2 ^ 31
  | some f => if n * 2 ^ 30 ≤ f.size then toInt32 n ≤ sizeG f.size else n <
      2 ^ 31 ∧ sizeG f.size < n

/-- The file of the data disk. -/
abbrev dataPath (id : Int) : NodePath := .insFile id .storage1

/-- The data disk is the one that the document asks for: one element and the size of the disk's own
entry, or no element. -/
def DiskAsListed (cfg : NodeConfig) (id : Int) (members : List (Bytes × Json))
    (disk disk' : List Bytes) (fs fs' : NodeFs) : Prop :=
  match fromDisk (storageOf members) with
  | [] => disk' = disk
  | e :: _ => disk' = disk ++ [dataDisk cfg id] ∧
      ∃ n, sizeField e = some n ∧ fs'.entry (dataPath id) = some (grown n (fs.entry (dataPath id)))

/-- No storage entry follows the disk, and the disk has a size that fits. -/
def DiskLast (members : List (Bytes × Json)) (f : Option File) : Prop :=
  match fromDisk (storageOf members) with
  | [] => True
  | e :: rest => rest = [] ∧ ∃ n, sizeField e = some n ∧ Fits n f

/-! ## One entry -/

/-- A flag that is set stays set. -/
theorem diskEntry_found {e : DiskMembers} {size s : Int} {b : Bool}
    (h : diskEntry e true size = some (b, s)) :
    b = true := by
  induction e generalizing size with
  | nil => simp_all [diskEntry]
  | cons m rest ih =>
    obtain ⟨name, value⟩ := m
    unfold diskEntry at h
    split at h
    · split at h
      · split at h
        · simp at h
        · simp_all
      · cases h
    · split at h
      · split at h
        · split at h
          · cases h
          · exact ih h
        · cases h
      · exact ih h

/-- The flag is set by a disk. -/
theorem diskEntry_isDisk {e : DiskMembers} {size s : Int} {b : Bool}
    (h : diskEntry e false size = some (b, s)) :
    b = isDisk e := by
  induction e generalizing size with
  | nil => simp_all [diskEntry, isDisk]
  | cons m rest ih =>
    obtain ⟨name, value⟩ := m
    unfold diskEntry at h
    split at h
    next hname =>
      split at h
      next type =>
        split at h
        next htype =>
          rw [if_neg (by simp)] at h
          simp [isDisk, hname, htype, diskEntry_found h]
        next htype => simp_all [isDisk]
      · cases h
    next hname =>
      have hskip : isDisk ((name, value) :: rest) = isDisk rest := by simp [isDisk, hname]
      rw [hskip]
      split at h
      · split at h
        · split at h
          · cases h
          · exact ih h
        · cases h
      · exact ih h

theorem sizeField_other {m : Bytes × Json} (rest : DiskMembers) (h : otherType m = true) :
    sizeField (m :: rest) = none := by
  simp [sizeField, h]

theorem sizeField_cons {m : Bytes × Json} (rest : DiskMembers) (h : otherType m = false) :
    sizeField (m :: rest) = (sizeField rest).or (sizeMember m) := by
  unfold sizeField
  rw [List.takeWhile_cons, h, Bool.not_false, if_pos rfl, List.filterMap_cons]
  cases sizeMember m with
  | none => simp
  | some n =>
    rw [List.getLast?_cons]
    cases List.getLast?
      (List.filterMap sizeMember (List.takeWhile (fun m => !otherType m) rest)) <;> rfl

/-- The size afterwards is the field of the entry, which is positive, or else the one before. -/
theorem diskEntry_size {e : DiskMembers} {found b : Bool} {size s : Int}
    (h : diskEntry e found size = some (b, s)) :
    (sizeField e = none → s = size) ∧ ∀ n, sizeField e = some n → 0 < n ∧ s = toInt32 n := by
  induction e generalizing found size with
  | nil => simp_all [diskEntry, sizeField]
  | cons m rest ih =>
    obtain ⟨name, value⟩ := m
    unfold diskEntry at h
    split at h
    next hname =>
      split at h
      next type =>
        split at h
        next htype =>
          rw [sizeField_cons rest (by simp [otherType, htype]),
            show sizeMember (name, .string type) = none from rfl, Option.or_none]
          split at h
          · cases h
          · exact ih h
        next htype =>
          rw [sizeField_other rest (by simp [otherType, hname, htype])]
          simp_all
      · cases h
    next hname =>
      rw [sizeField_cons rest (by cases value <;> simp [otherType, hname])]
      split at h
      next hsize =>
        split at h
        next k =>
          split at h
          · cases h
          next hk =>
            obtain ⟨hnone, hsome⟩ := ih h
            rw [show sizeMember (name, .integer k) = some k by simp [sizeMember, hsize]]
            cases hr : sizeField rest with
            | none =>
              refine ⟨(fun hc => nomatch hc), fun n hn => ?_⟩
              obtain rfl : k = n := Option.some.inj hn
              exact ⟨by omega, hnone hr⟩
            | some r =>
              refine ⟨(fun hc => nomatch hc), fun n hn => ?_⟩
              exact hsome n (hr.trans hn)
        · cases h
      next hsize =>
        rw [show sizeMember (name, value) = none by
          cases value <;> simp [sizeMember, hsize], Option.or_none]
        exact ih h

/-! ## The file -/

/-- The state of the files, watched through the calls. -/
def fsMonitor : Monitor NodeOp Int NodeFs where
  ok := fun _ _ => True
  next := NodeFs.does

/-- A disk that is made, or is too small, is cut to its size. -/
theorem sizeDisk_safe (id n : Int) (fs : NodeFs) :
    Safe fsMonitor (fun fs' r => 0 ≤ r → fs'.entry (dataPath id) =
      some (sized n (fs.entry (dataPath id))))
      (sizeDisk id n) fs := by
  have hgrow : ∀ (fs1 : NodeFs) (f : File), fs1.entry (dataPath id) = some f →
      f.resize (n * 2 ^ 30).toNat = sized n (fs.entry (dataPath id)) →
      Safe fsMonitor (fun fs' r => 0 ≤ r → fs'.entry (dataPath id) =
        some (sized n (fs.entry (dataPath id))))
        (.call (.truncate (dataPath id) (n * 2 ^ 30)) fun x =>
          if x ≠ 0 then .ret (-1) else .ret (0 : Int))
        fs1 := by
    intro fs1 f hf hres
    refine Safe.call trivial fun x fs2 hx => ?_
    rcases hx with ⟨rfl, f', hf', rfl⟩ | ⟨rfl, rfl⟩
    · obtain rfl : f = f' := Option.some.inj (hf.symm.trans hf')
      intro _
      rw [NodeFs.put_entry_self, hres]
    · rw [if_pos (by omega)]
      intro h
      omega
  simp only [sizeDisk, Prog.bind_eq, Prog.pure_eq, Prog.ask_bind]
  refine Safe.call trivial fun x fs1 hx => ?_
  obtain ⟨rfl, hx⟩ := hx
  split
  next h0 =>
    obtain ⟨f, hf⟩ := Option.isSome_iff_exists.mp (hx.mp h0)
    refine Safe.call trivial fun y fs2 hy => ?_
    obtain ⟨rfl, hy⟩ := hy
    rcases hy with rfl | ⟨f', hf', rfl⟩
    · rw [if_pos (by omega)]
      intro h
      omega
    · obtain rfl : f = f' := Option.some.inj (hf.symm.trans hf')
      rw [if_neg (by omega)]
      -- the number must not be computed with
      generalize hg : sizeG f.size = g
      rcases Int.lt_or_le g n with hlt | hle
      · rw [if_neg (by omega)]
        refine hgrow _ f hf ?_
        rw [hf]
        simp only [sized, hg, if_neg (Int.not_le.mpr hlt)]
      · rw [if_pos hle]
        intro _
        rw [hf]
        simp only [sized, hg, if_pos hle]
  next h0 =>
    have hnone : fs1.entry (dataPath id) = none := by
      cases h : fs1.entry (dataPath id) with
      | none => rfl
      | some f => exact absurd (hx.mpr (by rw [h]; rfl)) h0
    refine Safe.call trivial fun y fs2 hy => ?_
    rcases hy with ⟨hy, rfl⟩ | ⟨rfl, rfl⟩
    · rw [if_neg (by omega)]
      exact hgrow _ .empty (by simp) (by rw [hnone]; rfl)
    · rw [if_pos (by omega)]
      intro h
      omega

variable {cfg : NodeConfig} {id : Int} {diskSize : Nat}

/-- A disk that is placed adds its element, and its file is sized. -/
theorem placeDisk_safe (hd : 0 < diskSize) (size : Int) (disk : List Bytes) (fs : NodeFs) :
    Safe fsMonitor (fun fs' r => ∀ disk', r = some disk' →
      disk' = disk ++ [dataDisk cfg id] ∧ 0 < size ∧
        fs'.entry (dataPath id) = some (sized size (fs.entry (dataPath id))))
      (placeDisk cfg id diskSize size disk) fs := by
  simp only [placeDisk, Prog.bind_eq, Prog.pure_eq]
  split
  · exact fun disk' h => nomatch h
  next hsize =>
    split
    · exact fun disk' h => nomatch h
    · split
      · exact fun disk' h => nomatch h
      next disk1 happ =>
        have hdisk : disk1 = disk ++ [dataDisk cfg id] := by
          unfold appendDisk at happ
          rw [if_pos hd] at happ
          split at happ
          · cases happ
          next text htext =>
            dsimp only at happ
            split at happ
            · cases happ
            · rw [← Option.some.inj happ, dataDisk, htext]
              rfl
        refine (sizeDisk_safe id size fs).bind fun fs' r hr => ?_
        split
        · exact fun disk' h => nomatch h
        next hneg =>
          intro disk' h
          obtain rfl : disk1 = disk' := Option.some.inj h
          exact ⟨hdisk, by omega, hr (by omega)⟩

/-! ## All entries -/

/-- What has been done when the entries `es` have been read, beginning with `disk0` and `fs0`. -/
def Placed (cfg : NodeConfig) (id : Int) (disk0 : List Bytes) (fs0 : NodeFs)
    (es : List DiskMembers) (found : Bool) (disk : List Bytes) (fs : NodeFs) : Prop :=
  match fromDisk es with
  | [] => found = false ∧ disk = disk0 ∧ fs.entry (dataPath id) = fs0.entry (dataPath id)
  | e :: rest => found = true ∧ disk = disk0 ++ List.replicate (rest.length + 1) (dataDisk cfg id) ∧
      (rest = [] → ∀ n, sizeField e = some n → 0 < n ∧ 0 < toInt32 n ∧
        fs.entry (dataPath id) = some (sized (toInt32 n) (fs0.entry (dataPath id))))

theorem fromDisk_snoc_nil {es : List DiskMembers} (e : DiskMembers) (h : fromDisk es = []) :
    fromDisk (es ++ [e]) = if isDisk e then [e] else [] := by
  have h' : (List.dropWhile (fun e => !isDisk e) es).isEmpty = true := by rw [← fromDisk, h]; rfl
  rw [fromDisk, List.dropWhile_append, if_pos h']
  cases he : isDisk e <;> simp [he]

theorem fromDisk_snoc_cons {es rest : List DiskMembers} {d : DiskMembers} (e : DiskMembers)
    (h : fromDisk es = d :: rest) : fromDisk (es ++ [e]) = d :: (rest ++ [e]) := by
  have h' : (List.dropWhile (fun e => !isDisk e) es).isEmpty = false := by rw [← fromDisk, h]; rfl
  rw [fromDisk, List.dropWhile_append, h', if_neg (by simp), ← fromDisk, h]
  rfl

section

variable {disk0 disk : List Bytes} {fs0 fs : NodeFs} {es : List DiskMembers} {found : Bool}

/-- An entry that is not a disk, before there is one. -/
theorem placed_skip {e : DiskMembers} {size s : Int} (h : Placed cfg id disk0 fs0 es found disk fs)
    (he : diskEntry e found size = some (false, s)) :
    Placed cfg id disk0 fs0 (es ++ [e]) false disk fs := by
  cases hes : fromDisk es with
  | nil =>
    rw [Placed, hes] at h
    obtain ⟨rfl, h⟩ := h
    have hd : isDisk e = false := (diskEntry_isDisk he).symm
    rw [Placed, fromDisk_snoc_nil e hes, hd]
    exact ⟨rfl, h⟩
  | cons d rest =>
    rw [Placed, hes] at h
    obtain ⟨rfl, -⟩ := h
    exact absurd (diskEntry_found he) (by simp)

/-- The disk, and every entry behind it. -/
theorem placed_place (hd : 0 < diskSize) {e : DiskMembers} {size s : Int}
    (h : Placed cfg id disk0 fs0 es found disk fs) (he : diskEntry e found size = some (true, s)) :
    Safe fsMonitor (fun fs' r => ∀ disk', r = some disk' →
      Placed cfg id disk0 fs0 (es ++ [e]) true disk' fs')
      (placeDisk cfg id diskSize s disk) fs := by
  refine (placeDisk_safe hd s disk fs).mono fun fs' r hr disk' hdisk => ?_
  obtain ⟨rfl, hpos, hfile⟩ := hr disk' hdisk
  cases hes : fromDisk es with
  | nil =>
    rw [Placed, hes] at h
    obtain ⟨rfl, rfl, hentry⟩ := h
    rw [Placed, fromDisk_snoc_nil e hes, ← diskEntry_isDisk he]
    refine ⟨rfl, rfl, fun _ n hn => ?_⟩
    obtain ⟨hn0, rfl⟩ := (diskEntry_size he).2 n hn
    exact ⟨hn0, hpos, hentry ▸ hfile⟩
  | cons d rest =>
    rw [Placed, hes] at h
    obtain ⟨rfl, rfl, -⟩ := h
    rw [Placed, fromDisk_snoc_cons e hes]
    refine ⟨rfl, ?_, fun hnil => absurd hnil (by simp)⟩
    rw [List.append_assoc, ← List.replicate_succ']
    simp

/-- A storage array. -/
theorem placed_entries (hd : 0 < diskSize) (values : List Json) (size : Int)
    (h : Placed cfg id disk0 fs0 es found disk fs) :
    Safe fsMonitor (fun fs' r => ∀ found' disk', r = some (found', disk') →
        Placed cfg id disk0 fs0 (es ++ entriesOf values) found' disk' fs')
      (storageEntries cfg id diskSize values found size disk) fs := by
  induction values generalizing es found size disk fs with
  | nil =>
    intro found' disk' hr
    obtain ⟨rfl, rfl⟩ := Prod.mk.inj (Option.some.inj hr)
    simpa [entriesOf] using h
  | cons v rest ih =>
    cases v with
    | object e =>
      have hes : es ++ entriesOf (.object e :: rest) = es ++ [e] ++ entriesOf rest := by
        simp [entriesOf]
      rw [hes]
      simp only [storageEntries, Prog.bind_eq, Prog.pure_eq]
      split
      · exact fun found' disk' hr => nomatch hr
      next found' s he =>
        cases found' with
        | false => exact ih s (placed_skip h he)
        | true =>
          refine (placed_place hd h he).bind fun fs' r hr => ?_
          split
          · exact fun found' disk' hr => nomatch hr
          next disk' => exact ih s (hr disk' rfl)
    | _ => exact fun found' disk' hr => nomatch hr

/-- The whole document. -/
theorem placed_members (hd : 0 < diskSize) (netSize : Nat)
    (members : List (Bytes × Json)) (net : List Bytes)
    (h : Placed cfg id disk0 fs0 es found disk fs) :
    Safe fsMonitor (fun fs' r => ∀ found' net' disk', r = some (found', net', disk') →
        Placed cfg id disk0 fs0 (es ++ storageOf members) found' disk' fs')
      (jsonMembers cfg id netSize diskSize members found net disk) fs := by
  induction members generalizing es found net disk fs with
  | nil =>
    intro found' net' disk' hr
    obtain ⟨rfl, hbufs⟩ := Prod.mk.inj (Option.some.inj hr)
    obtain ⟨-, rfl⟩ := Prod.mk.inj hbufs
    simpa [storageOf] using h
  | cons m rest ih =>
    obtain ⟨name, value⟩ := m
    simp only [jsonMembers, Prog.bind_eq, Prog.pure_eq]
    split
    next hnet =>
      -- the network is not a storage array
      have hskip : storageOf ((name, value) :: rest) = storageOf rest := by
        have hne : name ≠ cstr "storage" := by rw [hnet.1]; decide
        cases value <;> simp [storageOf, hne]
      rw [hskip]
      split
      · split
        · exact fun found' net' disk' hr => nomatch hr
        · exact ih _ h
      · exact fun found' net' disk' hr => nomatch hr
    · split
      next hst =>
        split
        next values =>
          have hes : es ++ storageOf ((name, .array values) :: rest) =
              es ++ entriesOf values ++ storageOf rest := by
            simp [storageOf, hst]
          rw [hes]
          refine (placed_entries hd values (-1) h).bind fun fs' r hr => ?_
          split
          · exact fun found' net' disk' hr => nomatch hr
          next found' disk' => exact ih net (hr found' disk' rfl)
        · exact fun found' net' disk' hr => nomatch hr
      next hst =>
        have hskip : storageOf ((name, value) :: rest) = storageOf rest := by
          cases value <;> simp [storageOf, hst]
        rw [hskip]
        exact ih net h

end

/-! ## The result -/

/-- The code's way of sizing the file is right exactly where the numbers fit. -/
theorem sized_eq_grown_iff {n : Int} (hn : 0 < n) (hn32 : 0 < toInt32 n) (f : Option File) :
    sized (toInt32 n) f = grown n f ↔ Fits n f := by
  have h32 : n < 2 ^ 31 ↔ toInt32 n = n := by unfold toInt32; omega
  have hlt32 : toInt32 n < 2 ^ 31 := by unfold toInt32; omega
  have hresize : ∀ (f : File), f.resize (toInt32 n * 2 ^ 30).toNat =
      f.resize (n * 2 ^ 30).toNat ↔ n < 2 ^ 31 := by
    intro f
    constructor
    · intro h
      have hs : (toInt32 n * 2 ^ 30).toNat = (n * 2 ^ 30).toNat := congrArg File.size h
      omega
    · intro h
      rw [h32.mp h]
  cases f with
  | none => exact hresize .empty
  | some f =>
    have hle32 : toInt32 n ≤ sizeG f.size ↔ ¬ sizeG f.size < toInt32 n := by omega
    unfold sized grown Fits
    dsimp only
    by_cases hg : n * 2 ^ 30 ≤ f.size
    · rw [if_pos hg, if_pos hg]
      by_cases hc : toInt32 n ≤ sizeG f.size
      · simp [hc]
      · rw [if_neg hc]
        -- a file of exactly the size would have been left alone
        refine ⟨fun h => absurd ?_ hc, fun h => absurd h hc⟩
        have hs : (toInt32 n * 2 ^ 30).toNat = f.size := congrArg File.size h
        have hq : (f.size : Int) / 2 ^ 30 = toInt32 n := by omega
        have hfix : toInt32 (toInt32 n) = toInt32 n := toInt32_eq (by unfold IsInt32; omega)
        have hcode : sizeG f.size = toInt32 n := by rw [sizeG, hq, hfix]
        omega
    · rw [if_neg hg, if_neg hg]
      by_cases hc : toInt32 n ≤ sizeG f.size
      · rw [if_pos hc]
        refine ⟨fun h => ?_, fun h => ?_⟩
        · have hs : f.size = (n * 2 ^ 30).toNat := congrArg File.size h
          omega
        · have := h32.mp h.1
          omega
      · rw [if_neg hc, hresize]
        refine ⟨fun h => ⟨h, ?_⟩, fun h => h.1⟩
        have := h32.mp h
        omega

/-- **The data disk**: a document that is accepted is given the disk that it lists exactly when no
storage entry follows the disk and the disk has a size that fits. -/
theorem diskAsListed_iff {json : Bytes} {members : List (Bytes × Json)}
    {net net' disk disk' : List Bytes}
    {netSize : Nat} {fs fs' : NodeFs} (hd : 0 < diskSize)
    (hparse : cfg.jsonParse json = some (.object members))
    (hrun : (domainXmlJson cfg id json net netSize disk diskSize).Runs NodeFs.does fs fs'
      (some (net', disk'))) :
    DiskAsListed cfg id members disk disk' fs fs' ↔ DiskLast members (fs.entry (dataPath id)) := by
  have hstart : Placed cfg id disk fs [] false disk fs := ⟨rfl, rfl, rfl⟩
  have hsafe : Safe fsMonitor (fun fs' r => ∀ net' disk', r = some (net', disk') → ∃ found fs1,
      Placed cfg id disk fs (storageOf members) found disk' fs1 ∧ (found = true → fs' = fs1))
      (domainXmlJson cfg id json net netSize disk diskSize) fs := by
    simp only [domainXmlJson, hparse, Prog.bind_eq, Prog.pure_eq]
    refine (placed_members hd netSize members net hstart).bind fun fs1 r hr => ?_
    split
    · exact fun net' disk' h => nomatch h
    next found net1 disk1 =>
      have hplaced := hr found net1 disk1 rfl
      rw [List.nil_append] at hplaced
      cases found with
      | true =>
        intro net' disk' h
        obtain ⟨rfl, rfl⟩ := Prod.mk.inj (Option.some.inj h)
        exact ⟨true, fs1, hplaced, fun _ => rfl⟩
      | false =>
        -- the file goes into the trash: the buffers are those of the loop
        refine (Safe.of_ok fun _ _ => trivial).bind fun fs2 r _ => ?_
        split
        · exact fun net' disk' h => nomatch h
        · intro net' disk' h
          obtain ⟨rfl, rfl⟩ := Prod.mk.inj (Option.some.inj h)
          exact ⟨false, fs1, hplaced, fun h => nomatch h⟩
  obtain ⟨found, fs1, hplaced, hfs⟩ := hsafe.of_runs hrun net' disk' rfl
  unfold DiskAsListed DiskLast
  unfold Placed at hplaced
  cases hes : fromDisk (storageOf members) with
  | nil =>
    rw [hes] at hplaced
    exact iff_of_true hplaced.2.1 trivial
  | cons e rest =>
    rw [hes] at hplaced
    obtain ⟨rfl, rfl, hsize⟩ := hplaced
    obtain rfl := hfs rfl
    cases rest with
    | nil =>
      constructor
      · rintro ⟨-, n, hn, hfile⟩
        obtain ⟨hn0, hn32, hcode⟩ := hsize rfl n hn
        refine ⟨rfl, n, hn, (sized_eq_grown_iff hn0 hn32 _).mp ?_⟩
        exact Option.some.inj (hcode.symm.trans hfile)
      · rintro ⟨-, n, hn, hfits⟩
        obtain ⟨hn0, hn32, hcode⟩ := hsize rfl n hn
        refine ⟨rfl, n, hn, ?_⟩
        rw [hcode, (sized_eq_grown_iff hn0 hn32 _).mpr hfits]
    | cons e' rest =>
      constructor
      · rintro ⟨htwice, -⟩
        have hlen := congrArg List.length htwice
        simp at hlen
      · rintro ⟨hnil, -⟩
        cases hnil

/-- A node that reads every document as these storage entries. -/
def storageConfig (es : List DiskMembers) : NodeConfig where
  nodeDataDir := cstr "/var"
  jsonParse := fun _ => some (.object [(cstr "storage", .array (es.map .object))])

/-- A disk of one gigabyte. -/
def oneDisk : DiskMembers := [(cstr "type", .string (cstr "disk")), (cstr "size", .integer 1)]

/-- An entry of a type that is to be ignored. -/
def otherDisk : DiskMembers := [(cstr "type", .string (cstr "cdrom"))]

/-- The run on a node without files in which no call fails. -/
def storageRun (es : List DiskMembers) : NodeFs × Option (List Bytes × List Bytes) :=
  (domainXmlJson (storageConfig es) 1 [] [] 1024 [] 1024).exec NodeFs.answer {}

theorem storageRun_runs (es : List DiskMembers) :
    (domainXmlJson (storageConfig es) 1 [] [] 1024 [] 1024).Runs NodeFs.does {}
      (storageRun es).1 (storageRun es).2 :=
  Prog.exec_runs NodeFs.does_answer _ _

theorem storageRun_one : (storageRun [oneDisk]).2 =
    some ([], [dataDisk (storageConfig [oneDisk]) 1]) := by
  decide +kernel

theorem storageRun_other : (storageRun [oneDisk, otherDisk]).2 =
    some ([], List.replicate 2 (dataDisk (storageConfig [oneDisk, otherDisk]) 1)) := by
  decide +kernel

theorem diskAsListed_one : DiskLast [(cstr "storage", .array [.object oneDisk])] none ∧
    DiskAsListed (storageConfig [oneDisk]) 1 [(cstr "storage", .array [.object oneDisk])] []
      [dataDisk (storageConfig [oneDisk]) 1] {} (storageRun [oneDisk]).1 := by
  have hlast : DiskLast [(cstr "storage", .array [.object oneDisk])] none :=
    ⟨rfl, 1, rfl, show (1 : Int) < 2 ^ 31 by decide⟩
  have hrun : (domainXmlJson (storageConfig [oneDisk]) 1 [] [] 1024 [] 1024).Runs NodeFs.does {}
      (storageRun [oneDisk]).1 (some ([], [dataDisk (storageConfig [oneDisk]) 1])) :=
    storageRun_one ▸ storageRun_runs [oneDisk]
  exact ⟨hlast, (diskAsListed_iff (by decide) rfl hrun).mpr hlast⟩

/-- An entry of another type behind the disk puts the disk into the description twice. -/
theorem diskAsListed_other :
    (domainXmlJson (storageConfig [oneDisk, otherDisk]) 1 [] [] 1024 [] 1024).Runs NodeFs.does {}
        (storageRun [oneDisk, otherDisk]).1
        (some ([], List.replicate 2 (dataDisk (storageConfig [oneDisk, otherDisk]) 1))) ∧
      ¬ DiskAsListed (storageConfig [oneDisk, otherDisk]) 1
        [(cstr "storage", .array [.object oneDisk, .object otherDisk])] []
        (List.replicate 2 (dataDisk (storageConfig [oneDisk, otherDisk]) 1)) {}
        (storageRun [oneDisk, otherDisk]).1 := by
  refine ⟨storageRun_other ▸ storageRun_runs [oneDisk, otherDisk], ?_⟩
  rintro ⟨htwice, -⟩
  exact absurd (congrArg List.length htwice) (by decide)

end LuoYun
