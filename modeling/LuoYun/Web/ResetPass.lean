import LuoYun.Lib.Session
import LuoYun.Lib.Table
import LuoYun.Web.Form

/-!
# Passwords that are forgotten

`ResetPassApply` and `ResetPass` of `app/account/views.py`. An application is a row with a random
key, which is sent to the user by mail; who knows the key sets the password. The sessions of users
are left out.
-/

namespace LuoYun.Web.ResetPass

/-- `User`. -/
structure User where
  id : Int
  email : Option Text := none
  password : Text := []
  deriving DecidableEq, Repr

/-- `UserResetpass`. -/
structure UserResetpass where
  id : Int
  userId : Int
  key : Text
  completed : Option Int := none
  deriving DecidableEq, Repr

/-- The tables. -/
structure ResetDb where
  users : List User := []
  resets : List UserResetpass := []
  /-- `user_resetpass_id_seq`. -/
  seq : Int := 0
  deriving DecidableEq, Repr

/-- `ResetPassForm`. -/
structure ResetPassForm where
  password : Text
  passwordConfirm : Text
  deriving DecidableEq, Repr

/-- `form.validate()`. -/
def ResetPassForm.validate (form : ResetPassForm) : Bool :=
  lengthOk 6 120 form.password && form.passwordConfirm = form.password

/-- `form.validate()` of `ResetPassApplyForm`. -/
def applyFormOk (email : Text) : Bool := lengthOk 6 35 email && isEmail email

/-- `UserResetpass.completed is None`: it is the column that is compared. -/
def completedIsNone : Bool := false

namespace ResetDb

/-- The user of an application. -/
def applicant (db : ResetDb) (email : Text) : Option User :=
  if applyFormOk email then db.users.find? (·.email = some (stripText email)) else none

/-- `applys`. -/
def applys (db : ResetDb) (user : User) : List UserResetpass :=
  db.resets.filter fun a => a.userId = user.id && completedIsNone

/-- The loop over `applys`. -/
def forget (db : ResetDb) (applys : List UserResetpass) : ResetDb :=
  { db with resets := db.resets.filter fun a => a.id ∉ applys.map UserResetpass.id }

/-- `UserResetpass(user)`, where `key` is what `sha1(str(random.random()))` gives. -/
def insert (db : ResetDb) (user : User) (key : Text) : ResetDb :=
  { db with
    resets := db.resets ++ [{ id := db.seq, userId := user.id, key := key }]
    seq := db.seq + 1 }

/-- `ResetPass.prepare`. -/
def userApply (db : ResetDb) (key : Text) : Option UserResetpass :=
  if key = [] then none else db.resets.find? (·.key = key)

end ResetDb

/-- `ResetPassApply.post`. -/
def resetPassApply (email key : Text) (s : Session ResetDb) : Session ResetDb :=
  match s.work.applicant email with
  | none => s
  | some user => (s.modify fun db => (db.forget (db.applys user)).insert user key).commit

/-- `ResetPass.post`, where `enc` is `enc_login_passwd`. -/
def resetPass (enc : Text → Text) (key : Text) (form : ResetPassForm) (s : Session ResetDb) :
    Session ResetDb :=
  match s.work.userApply key with
  | none => s
  | some it =>
    if form.validate then
      (s.modify fun db =>
        { db with
          users := Table.update User.id it.userId
            (fun u => { u with password := enc form.password }) db.users
          resets := Table.erase UserResetpass.id it.id db.resets }).commit
    else s

/-- The requests. -/
inductive ResetRequest where
  | apply (email key : Text)
  | reset (key : Text) (form : ResetPassForm)

/-- What the handler of a request does. -/
def ResetRequest.handler (enc : Text → Text) : ResetRequest → Session ResetDb → Session ResetDb
  | .apply email key => resetPassApply email key
  | .reset key form => resetPass enc key form

end LuoYun.Web.ResetPass
