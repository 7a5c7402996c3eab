import LuoYun.Lib.Session
import LuoYun.Lib.Table
import LuoYun.Web.Form

/-!
# Addresses that have been validated

An address becomes valid in two ways: `Register` of `app/registration/views.py` makes a user with
the address that the key was sent to, and `EmailValidate` of `app/account/views.py` gives an address
to the user who comes back with the key. Passwords and profiles are left out. A time is a number of
seconds.
-/

namespace LuoYun.Web.Email

/-- `User`. -/
structure User where
  id : Int
  username : Text
  email : Option Text := none
  emailValid : Bool := false
  deriving DecidableEq, Repr

/-- `AuthKey`. -/
structure AuthKey where
  id : Int
  authKey : Text
  authData : Text
  expireDate : Int
  deriving DecidableEq, Repr

/-- `RegistrationApply`. -/
structure RegistrationApply where
  id : Int
  email : Text
  key : Text
  deriving DecidableEq, Repr

/-- The tables. -/
structure EmailDb where
  users : List User := []
  authKeys : List AuthKey := []
  applys : List RegistrationApply := []
  /-- The setting `registration.status`. -/
  status : Option Text := none
  /-- `auth_user_id_seq`. -/
  userSeq : Int := 0
  /-- `auth_key_id_seq`. -/
  keySeq : Int := 0
  /-- The sequence of `registration_apply`. -/
  applySeq : Int := 0
  deriving DecidableEq, Repr

/-- `RegistrationForm`. -/
structure RegistrationForm where
  username : Text
  password : Text
  passwordConfirm : Text
  deriving DecidableEq, Repr

/-- `form.validate()`. -/
def RegistrationForm.validate (form : RegistrationForm) : Bool :=
  lengthOk 2 21 form.username && lengthOk 6 120 form.password &&
    form.passwordConfirm = form.password

/-- What `RegistrationApplyForm` and `EmailValidateForm` ask of an address. -/
def addressOk (email : Text) : Bool := lengthOk 6 35 email && isEmail email

namespace EmailDb

/-- What the database takes: an address of `registration_apply` has a column of its own length. -/
def fits (db : EmailDb) : Bool := db.applys.all fun x => x.email.length ≤ 32

/-- `Register.prepare` goes on. -/
def open? (db : EmailDb) : Bool := db.status.all (· = "true".toList)

/-- `self.exist_key`. -/
def existKey (db : EmailDb) (key : Text) : Option RegistrationApply :=
  if db.open? && key ≠ [] then db.applys.find? (·.key = key) else none

/-- The user whom `post_registration` makes, out of which application. -/
def registrant (db : EmailDb) (key : Text) (form : RegistrationForm) :
    Option (User × RegistrationApply) :=
  (db.existKey key).bind fun x =>
    if form.validate && !db.users.any (·.username = form.username) then
      some
        ({ id := db.userSeq, username := form.username, email := some x.email, emailValid := true },
          x)
    else none

/-- The user who confirms an address, and the key. -/
def confirmer (db : EmailDb) (user : Int) (authKey : Text) (now : Int) : Option (User × AuthKey) :=
  if authKey = [] then none
  else (db.users.find? (·.id = user)).bind fun u =>
    ((db.authKeys.find? (·.authKey = authKey)).filter fun K => ¬ K.expireDate < now).map fun K =>
      (u, K)

/-- The user for whom `EmailValidate.post` issues a key. -/
def requester (db : EmailDb) (user : Int) (email : Text) : Option User :=
  (db.users.find? (·.id = user)).filter fun u =>
    addressOk email && !db.users.any (fun v => v.id ≠ u.id ∧ v.email = some email) &&
      !(u.email = some email && u.emailValid)

end EmailDb

open EmailDb

/-- `post_apply`, where `key` is what `sha1(str(random.random()))` gives. -/
def postApply (email : Text) (acceptRules : Bool) (key : Text)
    (s : Session EmailDb) : Session EmailDb :=
  if s.work.open? && addressOk email && acceptRules then
    match s.work.applys.find? (·.email = email) with
    | some K =>
      (s.modify fun db =>
        { db with
          applys := Table.update RegistrationApply.id K.id
            (fun K => { K with key := key }) db.applys }).commitIf fits
    | none =>
      if s.work.users.any (·.email = some email) then s
      else
        (s.modify fun db =>
          { db with
            applys := db.applys ++ [⟨db.applySeq, email, key⟩]
            applySeq := db.applySeq + 1 }).commitIf fits
  else s

/-- `post_registration`. -/
def postRegistration (key : Text) (form : RegistrationForm)
    (s : Session EmailDb) : Session EmailDb :=
  match s.work.registrant key form with
  | none => s
  | some (new, x) =>
    (s.modify fun db =>
      { db with
        users := db.users ++ [new]
        userSeq := db.userSeq + 1
        applys := Table.erase RegistrationApply.id x.id db.applys }).commit

/-- `EmailValidate.post`. -/
def validatePost (user : Int) (email key : Text) (now : Int)
    (s : Session EmailDb) : Session EmailDb :=
  match s.work.requester user email with
  | none => s
  | some _ =>
    (s.modify fun db =>
      { db with
        authKeys := db.authKeys ++ [⟨db.keySeq, key, email, now + 3600 * 24 * 7⟩]
        keySeq := db.keySeq + 1 }).commit

/-- `EmailValidate.get`, with a key. -/
def validateGet (user : Int) (authKey : Text) (now : Int) (s : Session EmailDb) : Session EmailDb :=
  match s.work.confirmer user authKey now with
  | none => s
  | some (u, K) =>
    (s.modify fun db =>
      { db with
        users := Table.update User.id u.id
          (fun u => { u with email := some K.authData, emailValid := true }) db.users
        authKeys := Table.erase AuthKey.id K.id db.authKeys }).commit

/-- The requests. -/
inductive EmailRequest where
  | apply (email : Text) (acceptRules : Bool) (key : Text)
  | register (key : Text) (form : RegistrationForm)
  | request (user : Int) (email key : Text) (now : Int)
  | confirm (user : Int) (authKey : Text) (now : Int)

/-- What the handler of a request does. -/
def EmailRequest.handler : EmailRequest → Session EmailDb → Session EmailDb
  | .apply email acceptRules key => postApply email acceptRules key
  | .register key form => postRegistration key form
  | .request user email key now => validatePost user email key now
  | .confirm user authKey now => validateGet user authKey now

end LuoYun.Web.Email
