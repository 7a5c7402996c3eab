import LuoYun.Compute.DomainBuf
import LuoYun.Proof.DataDisk
import Mathlib.Tactic.Ring

/-!
# The buffers of a domain description

Two checks stand before the two `strcat`s. That of `net` leaves room for the terminating zero
(`netEntriesBuf_eq`: no network entry leaves the buffer). That of `disk` accepts a text of exactly
1024 bytes, and the zero is then written behind the array.

The elements of the data disk all have the same length, so what happens is a matter of counting:
`diskPlaces` is the number of times that the document has the element put into the buffer, should
every file operation succeed. One entry is dealt with in `storageEntriesBuf_returns`, the document
in `jsonMembersBuf_returns`.
-/

namespace LuoYun

/-- Nothing was written behind a buffer. -/
def Held {α : Type} (r : Res α) : Prop := r ≠ .error .stack

/-- Whatever the calls of `__domain_xml` answer, nothing is written behind `net` and `disk`. -/
def FragmentsFit (cfg : NodeConfig) (ci : NodeRequest) : Prop := (domainXmlBuf cfg ci).Returns Held

/-- How often the entries of a storage array have the data disk put into the buffer, and
`disk_found` behind the array unless an entry ends the reading. -/
def arrayPlaces : List Json → Bool → Int → Nat × Option Bool
  | [], found, _ => (0, some found)
  | .object members :: rest, found, size =>
    match diskEntry members found size with
    | none => (0, none)
    | some (found, size) =>
      if found then
        if size ≤ 0 then (0, none) else ((arrayPlaces rest found size).1 + 1,
          (arrayPlaces rest found size).2)
      else arrayPlaces rest found size
  | _ :: _, _, _ => (0, none)

/-- How often a document has the data disk put into the buffer. -/
def diskPlaces (cfg : NodeConfig) (netSize : Nat) : List (Bytes × Json) → Bool → Nat
  | [], _ => 0
  | (name, value) :: rest, found =>
    if name = cstr "network" ∧ 0 < netSize then
      match value with
      | .array values => if (netEntries cfg netSize values 0 []).isSome then
          diskPlaces cfg netSize rest found
          else 0
      | _ => 0
    else if name = cstr "storage" then
      match value with
      | .array values =>
        match arrayPlaces values found (-1) with
        | (n, none) => n
        | (n, some found) => n + diskPlaces cfg netSize rest found
      | _ => 0
    else diskPlaces cfg netSize rest found

/-- The disk elements fill the buffer to the last byte, without the zero: the description is made by
the node (`osText` is the element of the OS disk), and some number of data disks that the document
asks for ends exactly there. -/
def FillsDisk (cfg : NodeConfig) (ci : NodeRequest) : Prop :=
  (insPath cfg ci.insId "os.img").length < 1024 ∧
  ∃ osText json members, diskElement cfg (insPath cfg ci.insId "os.img") "sda1" "hda" =
    some osText ∧
    ci.osmJson = some json ∧ cfg.jsonParse json = some (.object members) ∧
    ∃ k < diskPlaces cfg xmlBufSize members false,
      (snprintf xmlBufSize osText).length + (k + 1) * (dataDisk cfg ci.insId).length = xmlBufSize

variable {cfg : NodeConfig} {id : Int} {netSize diskSize : Nat}

/-! ## The network -/

theorem strcat_eq {buf tmp : Bytes} (h : buf.length + tmp.length < xmlBufSize) :
    strcat buf tmp = .ok (buf ++ tmp) := by
  unfold strcat
  rw [if_neg (by omega)]

/-- The text of an interface is appended if there is room for it. -/
theorem netText_eq (hsize : netSize ≤ xmlBufSize) (net : List Bytes) (text : Option Bytes)
    {k : Bytes → Res (Option Bytes)} {k' : List Bytes → Option (List Bytes)}
    (hk : ∀ net, k (bufText net) = .ok ((k' net).map bufText)) :
    (match text with
      | none => .ok none
      | some text =>
        if netSize ≤ (bufText net).length + (snprintf pathMax text).length then .ok none
        else
          match strcat (bufText net) (snprintf pathMax text) with
          | .error e => .error e
          | .ok net => k net : Res (Option Bytes)) =
      .ok ((match text with
        | none => none
        | some text =>
          if netSize ≤ (bufText net).length + (snprintf pathMax text).length then none
          else k' (net ++ [snprintf pathMax text])).map bufText) := by
  cases text with
  | none => rfl
  | some text =>
    dsimp only
    by_cases hlen : netSize ≤ (bufText net).length + (snprintf pathMax text).length
    · rw [if_pos hlen, if_pos hlen]
      rfl
    · have happ : bufText net ++ snprintf pathMax text =
          bufText (net ++ [snprintf pathMax text]) := by
        simp [bufText]
      rw [if_neg hlen, if_neg hlen, strcat_eq (by omega), happ]
      exact hk _

/-- The check of the network entries is enough: the loop does what it does on buffers without an
end. -/
theorem netEntriesBuf_eq (hsize : netSize ≤ xmlBufSize) (values : List Json)
    (j : Nat) (net : List Bytes) :
    netEntriesBuf cfg netSize values j (bufText net) =
      .ok ((netEntries cfg netSize values j net).map bufText) := by
  induction values generalizing j net with
  | nil => rfl
  | cons value rest ih =>
    cases value with
    | object members =>
      unfold netEntriesBuf netEntries
      rcases hm : netMembers members none none with ⟨mac, type⟩
      -- only a string is a MAC address, and only a string or nothing is a type
      rcases mac with - | mac <;> try rfl
      cases mac <;> try rfl
      next mac =>
        dsimp only
        have hstep := netText_eq hsize net (netElement cfg (netTypeOf cfg j) mac) (ih (j + 1))
        rcases type with - | type
        · exact hstep
        · cases type <;> first | exact hstep | rfl
    | _ => rfl

/-! ## The storage -/

/-- What is put into `disk` for a data disk: nothing under a template of the controller. -/
def diskTmp (cfg : NodeConfig) (id : Int) (diskSize : Nat) : Bytes :=
  if 0 < diskSize then dataDisk cfg id else []

/-- The two sizes that the buffer is used with; in a buffer that is used the elements exist. -/
def BufUse (cfg : NodeConfig) (id : Int) (diskSize : Nat) : Prop :=
  diskSize = 0 ∨ diskSize = xmlBufSize ∧
    (diskElement cfg (insPath cfg id "disk1.img") "sdb" "hdb").isSome

/-- The check and the `strcat`: a text of exactly the size of the buffer passes the one and not the
other. -/
theorem appendDiskBuf_eq (huse : BufUse cfg id diskSize) {disk : Bytes}
    (hdisk : disk.length < xmlBufSize) :
    appendDiskBuf cfg id disk diskSize =
      if xmlBufSize < disk.length + (diskTmp cfg id diskSize).length then .ok none
      else if disk.length + (diskTmp cfg id diskSize).length = xmlBufSize then .error .stack
      else .ok (some (disk ++ diskTmp cfg id diskSize)) := by
  unfold appendDiskBuf diskTmp
  rcases huse with rfl | ⟨rfl, hsome⟩
  · have hlt : ¬ xmlBufSize < disk.length := by omega
    have hne : disk.length ≠ xmlBufSize := by omega
    simp [hlt, hne]
  · obtain ⟨text, htext⟩ := Option.isSome_iff_exists.mp hsome
    have hpos : 0 < xmlBufSize := by decide
    have htmp : dataDisk cfg id = snprintf pathMax text := by simp [dataDisk, htext]
    simp only [if_pos hpos, htext, ← htmp]
    by_cases hbig : xmlBufSize < disk.length + (dataDisk cfg id).length
    · rw [if_pos hbig, if_pos hbig]
    · rw [if_neg hbig, if_neg hbig]
      by_cases hfull : disk.length + (dataDisk cfg id).length = xmlBufSize
      · rw [if_pos hfull, strcat, if_pos (by omega)]
        rfl
      · rw [if_neg hfull, strcat_eq (by omega)]
        rfl

/-- The file operations of an entry may succeed and may fail; nothing else is seen of them. -/
theorem sizeDisk_bind_returns {β : Type} {R : β → Prop} (size : Int) (f : Int → NodeProg β) :
    ((sizeDisk id size).bind f).Returns R ↔ (f (-1)).Returns R ∧ (f 0).Returns R := by
  constructor
  · intro h
    simp only [sizeDisk, Prog.bind_eq, Prog.pure_eq, Prog.ask_bind, Prog.call_bind,
      Prog.returns_call] at h
    -- the file is not there and is made; it can then be extended or not
    have hgrow := h 1 0
    refine ⟨?_, ?_⟩
    · simpa using hgrow 1
    · simpa using hgrow 0
  · rintro ⟨hfail, hdone⟩
    have hret : (sizeDisk id size).Returns fun r => r = -1 ∨ r = 0 := by
      simp only [sizeDisk, Prog.bind_eq, Prog.pure_eq, Prog.ask_bind, Prog.returns_call]
      intro a
      split
      · intro b
        dsimp only
        split
        · exact .inl rfl
        · split
          · exact .inr rfl
          · intro c
            dsimp only
            split
            · exact .inl rfl
            · exact .inr rfl
      · intro b
        dsimp only
        split
        · exact .inl rfl
        · intro c
          dsimp only
          split
          · exact .inl rfl
          · exact .inr rfl
    refine hret.bind ?_
    rintro r (rfl | rfl)
    · exact hfail
    · exact hdone

/-- The copies of the element that are in the buffer after `n` more entries. -/
def withDisks (disk tmp : Bytes) (n : Nat) : Bytes := disk ++ (List.replicate n tmp).flatten

theorem withDisks_length (disk tmp : Bytes) (n : Nat) :
    (withDisks disk tmp n).length = disk.length + n * tmp.length := by
  simp [withDisks]

theorem withDisks_succ (disk tmp : Bytes) (n : Nat) :
    withDisks disk tmp (n + 1) = withDisks (disk ++ tmp) tmp n := by
  simp [withDisks, List.replicate_succ]

/-- Some number of elements, at most `n`, ends with the last byte of the buffer. -/
def EndsFull (len tmp n : Nat) : Prop := ∃ k < n, len + (k + 1) * tmp = xmlBufSize

theorem not_endsFull_zero {len tmp : Nat} : ¬ EndsFull len tmp 0 := by
  rintro ⟨k, hk, -⟩
  omega

theorem endsFull_succ {len tmp n : Nat} :
    EndsFull len tmp (n + 1) ↔ len + tmp = xmlBufSize ∨ EndsFull (len + tmp) tmp n := by
  constructor
  · rintro ⟨k, hk, heq⟩
    rcases k with - | k
    · exact .inl (by simpa using heq)
    · refine .inr ⟨k, by omega, ?_⟩
      rw [← heq]
      ring
  · rintro (heq | ⟨k, hk, heq⟩)
    · exact ⟨0, by omega, by simpa using heq⟩
    · refine ⟨k + 1, by omega, ?_⟩
      rw [← heq]
      ring

/-- **The entries of a storage array**, and what follows them: nothing is written behind the buffer
exactly when no number of elements that are put into it ends with its last byte, and what follows
keeps to the buffers when the array has been read. -/
theorem storageEntriesBuf_returns {β : Type} (huse : BufUse cfg id diskSize)
    (hpath : (insPath cfg id "disk1.img").length < pathMax)
    {f : Res (Option (Bool × Bytes)) → NodeProg (Res β)}
    (hfault : ¬ (f (.error .stack)).Returns Held) (hnone : (f (.ok none)).Returns Held)
    (values : List Json) (found : Bool) (size : Int) {disk : Bytes}
    (hdisk : disk.length < xmlBufSize) :
    ((storageEntriesBuf cfg id diskSize values found size disk).bind f).Returns Held ↔
      ¬ EndsFull disk.length (diskTmp cfg id diskSize).length (arrayPlaces values found size).1 ∧
      ∀ found', (arrayPlaces values found size).2 = some found' →
        (withDisks disk (diskTmp cfg id diskSize) (arrayPlaces values found size).1).length <
          xmlBufSize →
        (f
          (.ok
            (some (found', withDisks disk (diskTmp cfg id diskSize)
              (arrayPlaces values found size).1)))).Returns
          Held := by
  induction values generalizing found size disk with
  | nil =>
    have hsame : withDisks disk (diskTmp cfg id diskSize) 0 = disk := by simp [withDisks]
    simp [storageEntriesBuf, arrayPlaces, not_endsFull_zero, hsame, hdisk]
  | cons value rest ih =>
    cases value with
    | object members =>
      unfold storageEntriesBuf arrayPlaces
      rcases diskEntry members found size with - | ⟨found, size⟩
      · simp [not_endsFull_zero, hnone]
      · dsimp only
        cases found with
        | false => exact ih false size hdisk
        | true =>
          simp only [if_true, placeDiskBuf, if_neg (Nat.not_le.mpr hpath),
            appendDiskBuf_eq huse hdisk]
          by_cases hsize : size ≤ 0
          · simp [hsize, not_endsFull_zero, hnone]
          · simp only [if_neg hsize, withDisks_succ, endsFull_succ]
            generalize diskTmp cfg id diskSize = tmp at ih ⊢
            rcases Nat.lt_trichotomy (disk.length + tmp.length) xmlBufSize with hlt | heq | hgt
            · rw [if_neg (by omega), if_neg (by omega)]
              have hlen : (disk ++ tmp).length < xmlBufSize := by simpa using hlt
              have hnext := ih true size hlen
              rw [List.length_append] at hnext
              simp only [Prog.bind_eq, Prog.pure_eq, Prog.bind_assoc, sizeDisk_bind_returns]
              simp [hnone, hnext, Nat.ne_of_lt hlt]
            · rw [if_neg (by omega), if_pos heq]
              simp [hfault, heq]
            · rw [if_pos hgt]
              -- one element is too much already
              have hnever : ¬ EndsFull (disk.length + tmp.length) tmp.length
                  (arrayPlaces rest true size).1 := by
                rintro ⟨k, -, heq⟩
                have := Nat.zero_le ((k + 1) * tmp.length)
                omega
              have hlong : ¬ (withDisks (disk ++ tmp) tmp (arrayPlaces rest true size).1).length <
                  xmlBufSize := by
                rw [withDisks_length, List.length_append]
                omega
              simp [hnone, hnever, hlong, Nat.ne_of_gt hgt]
    | _ => simp [storageEntriesBuf, arrayPlaces, not_endsFull_zero, hnone]

/-! ## The document -/

theorem endsFull_add {len tmp n m : Nat} :
    EndsFull len tmp (n + m) ↔ EndsFull len tmp n ∨ EndsFull (len + n * tmp) tmp m := by
  induction n generalizing len with
  | zero =>
    simp [not_endsFull_zero]
  | succ n ih =>
    have hlen : len + tmp + n * tmp = len + (n + 1) * tmp := by ring
    rw [Nat.succ_add, endsFull_succ, endsFull_succ, ih, hlen, or_assoc]

/-- A text that does not fit does not come to end with the last byte. -/
theorem not_endsFull_of_le {len tmp n m : Nat} (hlen : len < xmlBufSize)
    (hle : xmlBufSize ≤ len + n * tmp) :
    ¬ EndsFull (len + n * tmp) tmp m := by
  rintro ⟨k, -, heq⟩
  have hzero : (k + 1) * tmp = 0 := by omega
  rcases Nat.mul_eq_zero.mp hzero with hk | rfl
  · omega
  · simp at hle
    omega

/-- **The members of a document**: what follows them keeps to the buffers by itself. -/
theorem jsonMembersBuf_returns {β : Type} (huse : BufUse cfg id diskSize)
    (hnet : netSize ≤ xmlBufSize) (hpath : (insPath cfg id "disk1.img").length < pathMax)
    {f : Res (Option (Bool × Bytes × Bytes)) → NodeProg (Res β)}
    (hfault : ¬ (f (.error .stack)).Returns Held) (hf : ∀ r, (f (.ok r)).Returns Held)
    (members : List (Bytes × Json)) (found : Bool) (net : Bytes) {disk : Bytes}
      (hdisk : disk.length < xmlBufSize) :
    ((jsonMembersBuf cfg id netSize diskSize members found net disk).bind f).Returns Held ↔
      ¬ EndsFull disk.length (diskTmp cfg id diskSize).length
        (diskPlaces cfg netSize members found) := by
  induction members generalizing found net disk with
  | nil => exact iff_of_true (hf _) not_endsFull_zero
  | cons member rest ih =>
    obtain ⟨name, value⟩ := member
    unfold jsonMembersBuf diskPlaces
    by_cases hnetwork : name = cstr "network" ∧ 0 < netSize
    · rw [if_pos hnetwork, if_pos hnetwork]
      cases value with
      | array values =>
        have hentries : netEntriesBuf cfg netSize values 0 [] =
            .ok ((netEntries cfg netSize values 0 []).map bufText) :=
              netEntriesBuf_eq hnet values 0 []
        simp only [hentries]
        cases netEntries cfg netSize values 0 [] with
        | none => exact iff_of_true (hf _) not_endsFull_zero
        | some net => exact ih found (bufText net) hdisk
      | _ => exact iff_of_true (hf _) not_endsFull_zero
    · rw [if_neg hnetwork, if_neg hnetwork]
      by_cases hstorage : name = cstr "storage"
      · rw [if_pos hstorage, if_pos hstorage]
        cases value with
        | array values =>
          dsimp only
          simp only [Prog.bind_eq, Prog.bind_assoc]
          rw [storageEntriesBuf_returns huse hpath hfault (hf none) values found (-1) hdisk]
          rcases harray : arrayPlaces values found (-1) with ⟨n, found'⟩
          cases found' with
          | none => simp
          | some found =>
            dsimp only
            rw [endsFull_add, not_or, ← withDisks_length]
            refine and_congr_right fun hfit => ?_
            by_cases hlen : (withDisks disk (diskTmp cfg id diskSize) n).length < xmlBufSize
            · rw [← ih found net hlen]
              simp [hlen]
            · refine iff_of_true (fun _ _ h => absurd h hlen) ?_
              rw [withDisks_length] at hlen ⊢
              exact not_endsFull_of_le hdisk (by omega)
        | _ => exact iff_of_true (hf _) not_endsFull_zero
      · rw [if_neg hstorage, if_neg hstorage]
        exact ih found net hdisk

/-- `__domain_xml_json`. -/
theorem domainXmlJsonBuf_returns {β : Type} (huse : BufUse cfg id diskSize)
    (hnet : netSize ≤ xmlBufSize) (hpath : (insPath cfg id "disk1.img").length < pathMax)
    {f : Res (Option (Bytes × Bytes)) → NodeProg (Res β)}
    (hfault : ¬ (f (.error .stack)).Returns Held) (hf : ∀ r, (f (.ok r)).Returns Held)
    (json net : Bytes) {disk : Bytes} (hdisk : disk.length < xmlBufSize) :
    ((domainXmlJsonBuf cfg id json net netSize disk diskSize).bind f).Returns Held ↔
      ∀ members, cfg.jsonParse json = some (.object members) →
        ¬ EndsFull disk.length (diskTmp cfg id diskSize).length
          (diskPlaces cfg netSize members false) := by
  unfold domainXmlJsonBuf
  cases hparse : cfg.jsonParse json with
  | none => simp [hf]
  | some value =>
    cases value with
    | object members =>
      simp only [Prog.bind_eq, Prog.bind_assoc]
      rw [jsonMembersBuf_returns huse hnet hpath hfault ?_ members false net hdisk]
      · simp
      · -- behind the loop there are file operations only
        intro r
        rcases r with - | ⟨found, net, disk⟩
        · exact hf none
        · cases found with
          | true => exact hf _
          | false =>
            simp only [Bool.false_eq_true, if_false, Prog.bind_assoc]
            refine Prog.returns_bind_of_forall fun ret => ?_
            split
            · exact hf none
            · exact hf _
    | _ => simp [hf]

/-- The elements of the two disks are there or not there together. -/
theorem diskElement_isSome (path path' : Bytes) (xen kvm xen' kvm' : String) :
    (diskElement cfg path xen kvm).isSome = (diskElement cfg path' xen' kvm').isSome := by
  unfold diskElement
  cases cfg.vmXmlDisk with
  | some f => rfl
  | none =>
    dsimp only
    split
    · rfl
    · split <;> rfl

theorem insPath_length (cfg : NodeConfig) (id : Int) (file file' : String) :
    (insPath cfg id file).length + (cstr file').length =
      (insPath cfg id file').length + (cstr file).length := by
  simp only [insPath, List.length_append]
  omega

/-- The OS disk may be extended without an error. -/
theorem extendOs_bind_returns {β : Type} {R : β → Prop} {extsize : Int} {f : Int → NodeProg β}
    (h : ((extendOs id extsize).bind f).Returns R) : (f 0).Returns R := by
  unfold extendOs at h
  by_cases hext : 0 < extsize ∧ extsize < 1000
  · simp only [if_pos hext, Prog.bind_eq, Prog.pure_eq, Prog.ask_bind, Prog.returns_call,
      Prog.call_bind] at h
    have hempty : sizeG 0 < extsize := by
      have : sizeG 0 = 0 := by decide
      omega
    have hsize := h 0
    simp only [lt_irrefl, if_false, if_pos hempty, Prog.call_bind, Prog.returns_call] at hsize
    simpa using hsize 0
  · simpa [if_neg hext] using h

theorem domainText_returns (cfg : NodeConfig) (ci : NodeRequest) (template : Int) (net : Bytes) :
    (domainText cfg ci template net).Returns Held := by
  unfold domainText
  split
  · exact fun h => nomatch h
  · exact fun _ h => nomatch h

theorem snprintf_length_lt (text : Bytes) : (snprintf xmlBufSize text).length < xmlBufSize := by
  have : xmlBufSize = 1024 := rfl
  simp only [snprintf, List.length_take]
  omega

theorem domainXmlFrom_returns {ci : NodeRequest} {bufSize : Nat}
    (huse : BufUse cfg ci.insId bufSize)
    (hpath : (insPath cfg ci.insId "disk1.img").length < pathMax) (template : Int) (text : Bytes) :
    (domainXmlFrom cfg ci template bufSize text).Returns Held ↔
      ∀ json members, ci.osmJson = some json → cfg.jsonParse json = some (.object members) →
        ¬ EndsFull (snprintf xmlBufSize text).length (diskTmp cfg ci.insId bufSize).length
          (diskPlaces cfg bufSize members false) := by
  have hbuf : bufSize ≤ xmlBufSize := by
    rcases huse with rfl | ⟨rfl, -⟩
    · exact Nat.zero_le _
    · exact Nat.le_refl _
  have hfault : ¬ (domainXmlEnd cfg ci template (.error .stack)).Returns Held := fun h => h rfl
  have hok : ∀ r, (domainXmlEnd cfg ci template (.ok r)).Returns Held := by
    intro r
    rcases r with - | ⟨net, disk⟩
    · exact fun h => nomatch h
    · exact domainText_returns cfg ci template net
  have hjsonIff := fun json => domainXmlJsonBuf_returns huse hbuf hpath hfault hok json []
    (snprintf_length_lt text)
  unfold domainXmlFrom
  simp only [Prog.bind_eq, Prog.pure_eq]
  constructor
  · intro h json members hjson hparse
    have hdone := extendOs_bind_returns h
    simp only [lt_irrefl, if_false, hjson] at hdone
    exact (hjsonIff json).mp hdone members hparse
  · intro h
    refine Prog.returns_bind_of_forall fun ret => ?_
    split
    · exact fun h => nomatch h
    · cases hjson : ci.osmJson with
      | none => exact domainText_returns cfg ci template []
      | some json => exact (hjsonIff json).mpr fun members hparse => h json members hjson hparse

/-- **The buffers**: the fragments of a description, with their terminating zero, keep to `net` and
`disk` exactly when the disks that the document asks for do not end with the last byte of `disk`. -/
theorem fragmentsFit_iff (cfg : NodeConfig) (ci : NodeRequest) :
    FragmentsFit cfg ci ↔ ¬ FillsDisk cfg ci := by
  unfold FragmentsFit domainXmlBuf FillsDisk
  by_cases hos : 1024 ≤ (insPath cfg ci.insId "os.img").length
  · have hnot : ¬ (insPath cfg ci.insId "os.img").length < 1024 := by omega
    simp only [if_pos hos, hnot, false_and, not_false_iff, iff_true]
    exact fun h => nomatch h
  · simp only [if_neg hos]
    have hpath : (insPath cfg ci.insId "disk1.img").length < pathMax := by
      have := insPath_length cfg ci.insId "disk1.img" "os.img"
      have h1 : (cstr "disk1.img").length = 9 := by decide
      have h2 : (cstr "os.img").length = 6 := by decide
      unfold pathMax
      omega
    have htemplate : ∀ template, (domainXmlFrom cfg ci template 0 []).Returns Held := by
      intro template
      rw [domainXmlFrom_returns (.inl rfl) hpath template []]
      rintro json members - - ⟨k, -, hfull⟩
      -- nothing is put into the buffer
      simp [snprintf, diskTmp, xmlBufSize] at hfull
    simp only [Prog.bind_eq, Prog.ask_bind, Prog.returns_call]
    cases hel : diskElement cfg (insPath cfg ci.insId "os.img") "sda1" "hda" with
    | none =>
      refine iff_of_true (fun template => ?_) ?_
      · split
        · exact htemplate template
        · exact fun h => nomatch h
      · rintro ⟨-, text, -, -, hsome, -⟩
        cases hsome
    | some text =>
      have huse : BufUse cfg ci.insId xmlBufSize := by
        refine .inr ⟨rfl, ?_⟩
        rw [diskElement_isSome _ (insPath cfg ci.insId "os.img") _ _ "sda1" "hda", hel]
        rfl
      have hfrom := domainXmlFrom_returns huse hpath 0 text
      have htmp : diskTmp cfg ci.insId xmlBufSize = dataDisk cfg ci.insId := if_pos (by decide)
      rw [htmp] at hfrom
      constructor
      · rintro h ⟨-, text', json, members, htext, hjson, hparse, hfull⟩
        obtain rfl := Option.some.inj htext
        exact hfrom.mp (h 0) json members hjson hparse hfull
      · intro h template
        by_cases hzero : template = 0
        · subst hzero
          refine hfrom.mpr fun json members hjson hparse hfull => h ?_
          exact ⟨by omega, text, json, members, rfl, hjson, hparse, hfull⟩
        · rw [if_pos hzero]
          exact htemplate template

/-- A node whose data directory has a name of 430 bytes, and an instance with one data disk of one
gigabyte. -/
def deepConfig : NodeConfig where
  nodeDataDir := cstr "/" ++ List.replicate 214 97 ++ cstr "/" ++ List.replicate 214 97
  hypervisor := hypervisorIsXen
  jsonParse := fun _ => some (.object [(cstr "storage", .array [.object oneDisk])])

def deepRequest : NodeRequest where
  insId := 1
  osmJson := some (cstr "\x7b\"storage\":[\x7b\"type\":\"disk\",\"size\":1\x7d]\x7d")

theorem not_fragmentsFit_of_exec {ci : NodeRequest} {fs : NodeFs}
    (hrun : ((domainXmlBuf cfg ci).exec NodeFs.answer fs).2 = .error .stack) :
    ¬ FragmentsFit cfg ci := by
  intro h
  exact h.of_exec NodeFs.answer fs hrun

theorem deep_exec : ((domainXmlBuf deepConfig deepRequest).exec NodeFs.answer {}).2 =
    .error .stack := by
  decide +kernel

/-- The two elements have 1024 bytes together: the zero is written behind the buffer. -/
theorem fragmentsFit_deep : ¬ FragmentsFit deepConfig deepRequest :=
  not_fragmentsFit_of_exec deep_exec

/-! ## The buffers and their pieces

As long as nothing is written behind the buffers, the code is that of `Compute.DomainXml`, which
keeps the pieces.
-/

theorem bufText_append (pieces : List Bytes) (tmp : Bytes) :
    bufText (pieces ++ [tmp]) = bufText pieces ++ tmp := by
  simp [bufText]

theorem appendDisk_eq (huse : BufUse cfg id diskSize) {disk : List Bytes}
    (hdisk : (bufText disk).length < xmlBufSize) :
    (appendDisk cfg id disk diskSize).map bufText =
      if xmlBufSize < (bufText disk).length + (diskTmp cfg id diskSize).length then none
      else some (bufText disk ++ diskTmp cfg id diskSize) := by
  unfold appendDisk diskTmp
  rcases huse with rfl | ⟨rfl, hsome⟩
  · have hlt : ¬ xmlBufSize < (bufText disk).length := by omega
    simp [hlt]
  · obtain ⟨text, htext⟩ := Option.isSome_iff_exists.mp hsome
    have hpos : 0 < xmlBufSize := by decide
    have htmp : dataDisk cfg id = snprintf pathMax text := by simp [dataDisk, htext]
    simp only [if_pos hpos, htext, ← htmp]
    split
    · rfl
    · simp [bufText_append]

theorem storageEntriesBuf_bind {γ : Type} (huse : BufUse cfg id diskSize)
    (hpath : (insPath cfg id "disk1.img").length < pathMax)
    {f : Res (Option (Bool × Bytes)) → NodeProg γ}
    {g : Option (Bool × List Bytes) → NodeProg γ} (hnone : f (.ok none) = g none)
    (values : List Json) (found : Bool) (size : Int) {disk : List Bytes}
    (hdisk : (bufText disk).length < xmlBufSize)
    (hfit : ¬ EndsFull (bufText disk).length (diskTmp cfg id diskSize).length
      (arrayPlaces values found size).1)
    (hsome : ∀ found' disk', (arrayPlaces values found size).2 = some found' →
      (bufText disk').length < xmlBufSize →
      bufText disk' = withDisks (bufText disk) (diskTmp cfg id diskSize)
        (arrayPlaces values found size).1 →
      f (.ok (some (found', bufText disk'))) = g (some (found', disk'))) :
    (storageEntriesBuf cfg id diskSize values found size (bufText disk)).bind f =
      (storageEntries cfg id diskSize values found size disk).bind g := by
  induction values generalizing found size disk with
  | nil => exact hsome found disk rfl hdisk (by simp [withDisks, arrayPlaces])
  | cons value rest ih =>
    cases value with
    | object members =>
      simp only [storageEntriesBuf, storageEntries]
      simp only [arrayPlaces] at hfit hsome
      rcases he : diskEntry members found size with - | ⟨found, size⟩
      · exact hnone
      · simp only [he] at hfit hsome ⊢
        cases found with
        | false => exact ih false size hdisk hfit hsome
        | true =>
          simp only [if_true, placeDiskBuf, placeDisk, if_neg (Nat.not_le.mpr hpath),
            appendDiskBuf_eq huse hdisk] at hfit hsome ⊢
          by_cases hsize : size ≤ 0
          · simp [hsize, hnone]
          · simp only [if_neg hsize, withDisks_succ, endsFull_succ, not_or] at hfit hsome ⊢
            have happ := appendDisk_eq huse hdisk
            generalize diskTmp cfg id diskSize = tmp at ih hfit hsome happ ⊢
            rw [if_neg hfit.1]
            by_cases hbig : xmlBufSize < (bufText disk).length + tmp.length
            · rw [if_pos hbig] at happ ⊢
              simp [Option.map_eq_none_iff.mp happ, hnone]
            · rw [if_neg hbig] at happ ⊢
              obtain ⟨disk1, hdisk1, htext⟩ := Option.map_eq_some_iff.mp happ
              have hlen : (bufText disk1).length < xmlBufSize := by
                have := hfit.1
                rw [htext, List.length_append]
                omega
              rw [← List.length_append, ← htext] at hfit
              rw [← htext] at hsome ⊢
              simp only [hdisk1, Prog.bind_eq, Prog.pure_eq, Prog.bind_assoc]
              refine congrArg _ (funext fun ret => ?_)
              by_cases hret : ret < 0
              · simp [hret, hnone]
              · simpa [hret] using ih true size hlen hfit.2 hsome
    | _ => exact hnone

theorem jsonMembersBuf_bind {γ : Type} (huse : BufUse cfg id diskSize) (hnet : netSize ≤ xmlBufSize)
    (hpath : (insPath cfg id "disk1.img").length < pathMax)
    {f : Res (Option (Bool × Bytes × Bytes)) → NodeProg γ}
    {g : Option (Bool × List Bytes × List Bytes) → NodeProg γ} (hnone : f (.ok none) = g none)
    (hsome : ∀ found net disk, f (.ok (some (found, bufText net, bufText disk))) =
      g (some (found, net, disk)))
    (members : List (Bytes × Json)) (found : Bool) (net : List Bytes) {disk : List Bytes}
    (hdisk : (bufText disk).length < xmlBufSize)
    (hfit : ¬ EndsFull (bufText disk).length (diskTmp cfg id diskSize).length
      (diskPlaces cfg netSize members found)) :
    (jsonMembersBuf cfg id netSize diskSize members found (bufText net) (bufText disk)).bind f =
      (jsonMembers cfg id netSize diskSize members found net disk).bind g := by
  induction members generalizing found net disk with
  | nil => exact hsome found net disk
  | cons member rest ih =>
    obtain ⟨name, value⟩ := member
    simp only [jsonMembersBuf, jsonMembers]
    simp only [diskPlaces] at hfit
    by_cases hnetwork : name = cstr "network" ∧ 0 < netSize
    · simp only [if_pos hnetwork] at hfit ⊢
      cases value with
      | array values =>
        have hentries : netEntriesBuf cfg netSize values 0 [] =
            .ok ((netEntries cfg netSize values 0 []).map bufText) :=
              netEntriesBuf_eq hnet values 0 []
        simp only [hentries]
        cases hn : netEntries cfg netSize values 0 [] with
        | none => exact hnone
        | some net => exact ih found net hdisk (by simpa [hn] using hfit)
      | _ => exact hnone
    · simp only [if_neg hnetwork] at hfit ⊢
      by_cases hstorage : name = cstr "storage"
      · simp only [if_pos hstorage] at hfit ⊢
        cases value with
        | array values =>
          simp only [Prog.bind_eq, Prog.bind_assoc]
          rcases harray : arrayPlaces values found (-1) with ⟨n, found'⟩
          simp only [harray] at hfit
          refine storageEntriesBuf_bind huse hpath hnone values found (-1) hdisk ?_ ?_
          · rw [harray]
            cases found' with
            | none => exact hfit
            | some found' => exact fun h => hfit (endsFull_add.mpr (.inl h))
          · rw [harray]
            rintro found1 disk1 rfl hlen htext
            refine ih found1 net hlen fun h => hfit (endsFull_add.mpr (.inr ?_))
            rwa [htext, withDisks_length] at h
        | _ => exact hnone
      · simp only [if_neg hstorage] at hfit ⊢
        exact ih found net hdisk hfit

/-- **Refinement**: while the disks fit, `__domain_xml_json` on its buffers is the one on their
pieces. -/
theorem domainXmlJsonBuf_eq (huse : BufUse cfg id diskSize) (hnet : netSize ≤ xmlBufSize)
    (hpath : (insPath cfg id "disk1.img").length < pathMax) (json : Bytes)
    (net : List Bytes) {disk : List Bytes} (hdisk : (bufText disk).length < xmlBufSize)
    (hfit : ∀ members, cfg.jsonParse json = some (.object members) →
      ¬ EndsFull (bufText disk).length (diskTmp cfg id diskSize).length
        (diskPlaces cfg netSize members false)) :
    domainXmlJsonBuf cfg id json (bufText net) netSize (bufText disk) diskSize =
      (domainXmlJson cfg id json net netSize disk diskSize).bind fun r =>
        .ret (.ok (r.map fun bufs => (bufText bufs.1, bufText bufs.2))) := by
  unfold domainXmlJsonBuf domainXmlJson
  cases hparse : cfg.jsonParse json with
  | none => rfl
  | some value =>
    cases value with
    | object members =>
      simp only [Prog.bind_eq, Prog.bind_assoc]
      refine jsonMembersBuf_bind huse hnet hpath rfl ?_ members false net hdisk
        (hfit members hparse)
      intro found net disk
      cases found with
      | true => rfl
      | false =>
        simp only [Bool.false_eq_true, if_false, Prog.bind_assoc, Prog.pure_eq]
        refine congrArg _ (funext fun ret => ?_)
        split <;> rfl
    | _ => rfl

end LuoYun
