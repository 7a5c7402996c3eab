import LuoYun.Base
import LuoYun.Lib.Prog

/-!
# The calls of the instance handlers

The handlers of `handler.c` run in a thread of their own for every request. What they share is the
file system: the lock files, the appliances and the files of the instances. `NodeOp` lists the calls
they make, and `NodeFs.does` says what a call may answer and what it does to the files. Every call
may fail; the only answers that are tied to the state are whether a file is there (`access`), how
large it is (`stat`), and that `link` fails on a name that exists.

A file is named by what it is for. The lock files are named by their text, because the functions
build that text in two ways.
-/

namespace LuoYun

/-- The files in the directory of an instance. -/
inductive InsFile where
  /-- `LUOYUN_INSTANCE_DISK_FILE`. -/
  | os
  /-- `LUOYUN_INSTANCE_CONF_FILE`. -/
  | conf
  /-- `LUOYUN_INSTANCE_STORAGE1_FILE`. -/
  | storage1
  | kernel
  | initrd
  deriving DecidableEq, Repr

/-- The files and directories of the node. -/
inductive NodePath where
  | insDir (id : Int)
  | insFile (id : Int) (file : InsFile)
  | appDir (id : Int)
  /-- `LUOYUN_APPLIANCE_FILE`. -/
  | appFile (id : Int)
  /-- A file of an instance in the trash directory. -/
  | trash (id : Int) (file : InsFile)
  deriving DecidableEq, Repr

/-- The content of a file. -/
structure File where
  size : Nat
  byte : Nat → UInt8

namespace File

def empty : File := ⟨0, fun _ => 0⟩

/-- `truncate`: what is cut off is lost, what is added is zero. -/
def resize (f : File) (n : Nat) : File := ⟨n, fun i => if i < f.size then f.byte i else 0⟩

/-- The file has become longer at most: its former bytes are unchanged. -/
def Kept (f f' : File) : Prop := f.size ≤ f'.size ∧ ∀ i < f.size, f'.byte i = f.byte i

theorem Kept.refl (f : File) : f.Kept f := ⟨Nat.le_refl _, fun _ _ => rfl⟩

theorem Kept.trans {f g h : File} (h1 : f.Kept g) (h2 : g.Kept h) : f.Kept h :=
  ⟨Nat.le_trans h1.1 h2.1, fun i hi => (h2.2 i (Nat.lt_of_lt_of_le hi h1.1)).trans (h1.2 i hi)⟩

theorem kept_resize {f : File} {n : Nat} (h : f.size ≤ n) : f.Kept (f.resize n) :=
  ⟨h, fun i hi => by simp [resize, hi]⟩

end File

/-- The commands that are run with `system_call`. -/
inductive SysCmd where
  | mount
  | cpKernel
  | cpInitrd
  | umount
  deriving DecidableEq, Repr

/-- The calls of the handlers. -/
inductive NodeOp where
  /-- `access(lock_dir, R_OK | W_OK | X_OK)` in `__file_lock_get`. -/
  | accessDir (dir : Bytes)
  /-- The same in `__file_lock_put`. -/
  | accessPut (dir : Bytes)
  /-- `creat` of the file that the locks are links to. -/
  | creatLock (path : Bytes)
  | link (path linkPath : Bytes)
  | unlinkLock (linkPath : Bytes)
  | sleep
  | access (path : NodePath)
  | stat (path : NodePath)
  | mkdir (path : NodePath)
  | rmdir (path : NodePath)
  | creat (path : NodePath)
  | truncate (path : NodePath) (size : Int)
  | unlink (path : NodePath)
  /-- `rename` of a file of an instance into the trash directory. -/
  | toTrash (id : Int) (file : InsFile)
  /-- `lyutil_checksum` of the file of an appliance. -/
  | checksum (app : Int) (sum : Bytes)
  /-- `lyutil_download` opens its target. -/
  | downloadOpen (app : Int)
  /-- `lyutil_download` comes to its end. -/
  | download (app : Int)
  /-- `lyutil_decompress_gz` of an appliance into the disk of an instance. -/
  | decompress (app ins : Int)
  /-- `lyutil_get_disk_offset`. -/
  | diskOffset (ins : Int)
  | mkdtemp
  | removeTmp
  | system (ins : Int) (cmd : SysCmd)
  /-- `__create_luoyun_ini`, `fprintf` and `__close_luoyun_ini`. -/
  | iniOpen (ins : Int)
  | iniPrint (ins : Int)
  | iniClose (ins : Int)
  | malloc
  /-- `__domain_xml_template`: 0 is `NULL`. -/
  | xmlTemplate
  /-- The text of the domain is put together; a negative answer is `NULL`. -/
  | xmlText
  | domainActive (ins : Int)
  | domainCreate (ins : Int)
  | domainStop (ins : Int)
  | domainPoweroff (ins : Int)
  | domainReboot (ins : Int)
  /-- `libvirt_domain_xml`: 0 is `NULL`. -/
  | domainDescription (ins : Int)
  /-- `__send_response`. -/
  | sendResponse (status : Int)
  /-- A reply with an `InstanceInfo`. -/
  | sendInfo (status domainStatus : Int)
  /-- `ly_node_send_report_resource`. -/
  | sendReport
  deriving DecidableEq, Repr

/-- A program of the handlers. -/
abbrev NodeProg := Prog NodeOp Int

/-- The files of the node and the names of the locks that are taken. -/
structure NodeFs where
  entry : NodePath → Option File := fun _ => none
  lock : Bytes → Bool := fun _ => false

namespace NodeFs

/-- Write an entry. -/
def put (s : NodeFs) (p : NodePath) (f : Option File) : NodeFs :=
  { s with entry := fun q => if q = p then f else s.entry q }

/-- Make or remove the name of a lock. -/
def setLock (s : NodeFs) (l : Bytes) (b : Bool) : NodeFs :=
  { s with lock := fun k => if k = l then b else s.lock k }

@[simp] theorem put_entry_self (s : NodeFs) (p : NodePath) (f : Option File) :
    (s.put p f).entry p = f := by
  simp [put]

theorem put_entry_ne (s : NodeFs) {p q : NodePath} (f : Option File) (h : q ≠ p) :
    (s.put p f).entry q = s.entry q := by
  simp [put, h]

@[simp] theorem put_lock (s : NodeFs) (p : NodePath) (f : Option File) :
    (s.put p f).lock = s.lock := rfl
@[simp] theorem setLock_entry (s : NodeFs) (l : Bytes) (b : Bool) :
    (s.setLock l b).entry = s.entry := rfl
@[simp] theorem setLock_self (s : NodeFs) (l : Bytes) (b : Bool) : (s.setLock l b).lock l = b := by
  simp [setLock]

theorem setLock_ne (s : NodeFs) {l k : Bytes} (b : Bool) (h : k ≠ l) :
    (s.setLock l b).lock k = s.lock k := by
  simp [setLock, h]

/-- The path now holds anything, or nothing. -/
def Rewritten (s : NodeFs) (p : NodePath) (s' : NodeFs) : Prop := ∃ f, s' = s.put p f

/-- What a call may answer, and what it does. -/
def does (s : NodeFs) (op : NodeOp) (x : Int) (s' : NodeFs) : Prop :=
  match op with
  | .link _ linkPath => x = 0 ∧ s.lock linkPath = false ∧
      s' = s.setLock linkPath true ∨ x = -1 ∧ s' = s
  | .unlinkLock linkPath => x = 0 ∧ s' = s.setLock linkPath false ∨ x = -1 ∧ s' = s
  | .access p => s' = s ∧ (x = 0 ↔ (s.entry p).isSome = true)
  | .stat p => s' = s ∧ (x = -1 ∨ ∃ f, s.entry p = some f ∧ x = f.size)
  | .mkdir p => x = 0 ∧ s' = s.put p (some .empty) ∨ x = -1 ∧ s' = s
  | .rmdir p => x = 0 ∧ s' = s.put p none ∨ x = -1 ∧ s' = s
  | .creat p => 0 ≤ x ∧ s' = s.put p (some .empty) ∨ x = -1 ∧ s' = s
  | .truncate p size => x = 0 ∧
      (∃ f, s.entry p = some f ∧ s' = s.put p (some (f.resize size.toNat))) ∨
      x = -1 ∧ s' = s
  | .unlink p => x = 0 ∧ s' = s.put p none ∨ x = -1 ∧ s' = s
  | .toTrash id file => x = 0 ∧ s' = (s.put (.insFile id file) none).put (.trash id file)
      (s.entry (.insFile id file)) ∨ x = -1 ∧ s' = s
  | .checksum app _ => s' = s ∧ (x = 0 → (s.entry (.appFile app)).isSome = true)
  | .downloadOpen app => s.Rewritten (.appFile app) s'
  | .download app => s.Rewritten (.appFile app) s'
  | .decompress _ ins => s.Rewritten (.insFile ins .os) s'
  | .system ins .cpKernel => s.Rewritten (.insFile ins .kernel) s'
  | .system ins .cpInitrd => s.Rewritten (.insFile ins .initrd) s'
  | .iniOpen ins => s.Rewritten (.insFile ins .conf) s'
  | .iniPrint ins => s.Rewritten (.insFile ins .conf) s'
  | .iniClose ins => s.Rewritten (.insFile ins .conf) s'
  | _ => s' = s

/-- The answers when nothing fails that need not. -/
def answer (s : NodeFs) (op : NodeOp) : Int × NodeFs :=
  match op with
  | .link _ linkPath => if s.lock linkPath then (-1, s) else (0, s.setLock linkPath true)
  | .unlinkLock linkPath => (0, s.setLock linkPath false)
  | .access p => (if (s.entry p).isSome then 0 else -1, s)
  | .stat p => (((s.entry p).map fun f => (f.size : Int)).getD (-1), s)
  | .mkdir p => (0, s.put p (some .empty))
  | .rmdir p => (0, s.put p none)
  | .creat p => (0, s.put p (some .empty))
  | .truncate p size =>
    match s.entry p with
    | some f => (0, s.put p (some (f.resize size.toNat)))
    | none => (-1, s)
  | .unlink p => (0, s.put p none)
  | .toTrash id file =>
    (0, (s.put (.insFile id file) none).put (.trash id file) (s.entry (.insFile id file)))
  | .checksum app _ => (if (s.entry (.appFile app)).isSome then 0 else -1, s)
  | .downloadOpen app => (0, s.put (.appFile app) (some .empty))
  | .download app => (0, s.put (.appFile app) (some (File.empty.resize 1000000)))
  | .decompress app ins => (0, s.put (.insFile ins .os) (s.entry (.appFile app)))
  | .system ins .cpKernel => (0, s.put (.insFile ins .kernel) (some .empty))
  | .system ins .cpInitrd => (0, s.put (.insFile ins .initrd) (some .empty))
  | .iniOpen ins | .iniPrint ins | .iniClose ins => (0, s.put (.insFile ins .conf) (some .empty))
  | _ => (0, s)

theorem does_answer (s : NodeFs) (op : NodeOp) : s.does op (s.answer op).1 (s.answer op).2 := by
  cases op with
  | link path linkPath =>
    cases h : s.lock linkPath with
    | true => exact .inr (by simp [answer, h])
    | false => exact .inl (by simp [answer, h])
  | access p => cases h : s.entry p <;> simp [does, answer, h]
  | stat p => cases h : s.entry p <;> simp [does, answer, h]
  | truncate p size => cases h : s.entry p <;> simp [does, answer, h]
  | checksum app sum => cases h : s.entry (.appFile app) <;> simp [does, answer, h]
  | system ins cmd => cases cmd <;> simp [does, answer, Rewritten]
  | _ => simp [does, answer, Rewritten]

end NodeFs

end LuoYun
