import LuoYun.Lib.Session
import LuoYun.Lib.Table
import LuoYun.Web.Python
import Mathlib.Data.List.Sort

/-!
# The public keys of a user

`PublicKey` of `app/account/models.py` and the requests on it. One of the keys of a user is the
default: the constructor makes the first one that, `set_default` hands it on, and so does
`PublicKeyDelete`.
-/

namespace LuoYun.Web

/-- `PublicKey`. -/
structure PublicKey where
  id : Int
  userId : Int
  name : Text
  data : Text
  isdefault : Bool := false
  deriving DecidableEq, Repr

/-- `PublicKeyForm`. -/
structure PublicKeyForm where
  name : Text
  key : Text
  isdefault : Bool := false
  deriving DecidableEq, Repr

/-- `form.validate()`. -/
def PublicKeyForm.validate (form : PublicKeyForm) : Bool :=
  1 ≤ form.name.length && form.name.length ≤ 128 && 1 ≤ form.key.length && form.key.length ≤ 1024

/-- The table. -/
structure KeyDb where
  rows : List PublicKey := []
  /-- `public_key_id_seq`. -/
  seq : Int := 0
  deriving DecidableEq, Repr

namespace KeyDb

/-- `user.keys`. -/
def keys (db : KeyDb) (user : Int) : List PublicKey :=
  (db.rows.filter (·.userId = user)).insertionSort fun a b => a.id ≤ b.id

/-- `PublicKey.__init__`. -/
def newKey (db : KeyDb) (user : Int) (name key : Text) : PublicKey :=
  ⟨db.seq, user, name, key, !(db.keys user).any (·.isdefault)⟩

/-- `self.db.add( key )`. -/
def add (db : KeyDb) (key : PublicKey) : KeyDb := ⟨db.rows ++ [key], db.seq + 1⟩

/-- A change of one key. -/
def update (db : KeyDb) (key : PublicKey) (f : PublicKey → PublicKey) : KeyDb :=
  { db with rows := Table.update PublicKey.id key.id f db.rows }

/-- The loop of `set_default`. -/
def clear (db : KeyDb) (user : Int) : KeyDb :=
  { db with
    rows := db.rows.map fun K => if K.userId = user then { K with isdefault := false } else K }

/-- `set_default`. -/
def setDefault (db : KeyDb) (key : PublicKey) : KeyDb :=
  (db.clear key.userId).update key fun K => { K with isdefault := true }

/-- `PublicKeyHandler.initialize`: a key of the user. -/
def myKey (db : KeyDb) (user : Int) (id : Option Int) : Option PublicKey :=
  (id.filter (· ≠ 0)).bind fun id => (db.rows.find? (·.id = id)).filter fun key => key.userId = user

end KeyDb

/-- `PublicKeyAdd.post`. -/
def publicKeyAdd (user : Int) (form : PublicKeyForm) (s : Session KeyDb) : Session KeyDb :=
  if form.validate then
    let key := s.work.newKey user form.name form.key
    let s := (s.modify (·.add key)).commit
    (if form.isdefault then s.modify (·.setDefault key) else s).commit
  else s

/-- `PublicKeyEdit.post`. -/
def publicKeyEdit (user : Int) (id : Option Int) (form : PublicKeyForm)
    (s : Session KeyDb) : Session KeyDb :=
  match s.work.myKey user id with
  | none => s
  | some key =>
    if form.validate then
      let conflict := s.work.rows.any fun K => K.data = form.key ∧ K.id ≠ key.id
      if conflict then s
      else
        let s := s.modify (·.update key fun K => { K with name := form.name, data := form.key })
        (if form.isdefault then s.modify (·.setDefault key) else s).commit
    else s

/-- `PublicKeyDelete.get`. -/
def publicKeyDelete (user : Int) (id : Option Int) (s : Session KeyDb) : Session KeyDb :=
  match s.work.myKey user id with
  | none => s
  | some key =>
    let s := (s.modify fun db => { db with rows := Table.erase PublicKey.id key.id db.rows }).commit
    if key.isdefault then
      match s.work.keys user with
      | [] => s.commit
      | K :: _ => (s.modify (·.update K fun K => { K with isdefault := true })).commit
    else s

/-- The requests, by a user who has logged in. -/
inductive KeyRequest where
  | add (user : Int) (form : PublicKeyForm)
  | edit (user : Int) (id : Option Int) (form : PublicKeyForm)
  | delete (user : Int) (id : Option Int)

/-- What the handler of a request does. -/
def KeyRequest.handler : KeyRequest → Session KeyDb → Session KeyDb
  | .add user form => publicKeyAdd user form
  | .edit user id form => publicKeyEdit user id form
  | .delete user id => publicKeyDelete user id

/-- What a completed request makes of the database. -/
def KeyDb.next (db : KeyDb) (r : KeyRequest) : Option (Except Empty KeyDb) :=
  some (.ok (Session.request r.handler db))

end LuoYun.Web
