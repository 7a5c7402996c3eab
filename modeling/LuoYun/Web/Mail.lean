import LuoYun.Lib.Session
import LuoYun.Lib.Table
import LuoYun.Util.Text
import LuoYun.Web.Python

/-!
# Mails that wait in a directory

`mailto_address` of `tool/clc/handler/base.py` hands a mail to `FileSysMail.send` of `yweb/mail.py`,
which stores it in a file; the thread of `FileSysMail` sends what it finds in the directory. The
calls of `mailto_address` come one after the other, but the thread runs beside them: it can read a
file that is only half written.

The template is a parameter.
-/

namespace LuoYun.Web.Mail

/-! ## `mailto_address` -/

/-- `User`. -/
structure User where
  id : Int
  username : Text
  nickname : Option Text := none
  email : Option Text := none
  deriving DecidableEq, Repr

/-- The users, and two settings. -/
structure MailDb where
  users : List User := []
  /-- `notice.smtp.fromaddr`. -/
  fromaddr : Option Text := none
  /-- `site.send_mail.total`, as a number. -/
  total : Option Int := none
  deriving DecidableEq, Repr

/-- The message that asks for a mail. -/
structure MailMsg where
  /-- `to`. -/
  address : Option Text := none
  toUserId : Option Int := none
  subject : Option Text := none
  body : Option Text := none
  deriving DecidableEq, Repr

/-- `Email`. -/
structure Email where
  subject : Option Text
  text : Text
  adrTo : Text
  adrFrom : Text
  deriving DecidableEq, Repr

/-- The name and the address, unless the function returns or raises. -/
def recipient (users : List User) (msg : MailMsg) : Option (Text × Text) :=
  let address := msg.address.filter (· ≠ [])
  match (msg.toUserId.filter (· ≠ 0)).bind fun i => users.find? (·.id = i) with
  | some u => (u.email.filter (· ≠ [])).map fun adr =>
    ((u.nickname.filter (· ≠ [])).getD u.username, adr)
  -- without an address `username` is not defined
  | none => address.map fun adr => (adr.takeWhile (· ≠ '@'), adr)

/-- `mailto_address` up to `fm.send`: what it hands over, and under which name. -/
def mailtoAddress (render : Option Text → Option Text → Text → Option Text) (msg : MailMsg)
    (s : Session MailDb) : Session MailDb × Option (Email × Bytes) :=
  let adrFrom := s.work.fromaddr.getD "admin@localhost".toList
  if (msg.address.filter (· ≠ [])).isNone && (msg.toUserId.filter (· ≠ 0)).isNone then (s, none)
  else
    let s := if s.work.total = none then
      (s.modify fun db => { db with total := some 0 }).commit
      else s
    match recipient s.work.users msg with
    | none => (s, none)
    | some (username, adrTo) =>
      match (render msg.subject msg.body username).filter (· ≠ []) with
      | none => (s, none)
      | some body =>
        let total := s.work.total.getD 0 + 1
        -- nothing commits this
        (s.modify fun db => { db with total := some total },
          some (⟨msg.subject, body, adrTo, adrFrom⟩, dec total ++ cstr "-mail"))

/-! ## The directory and the thread -/

/-- A file in the directory: the mail in it, the number of the mail, and whether all of it is there.
-/
structure MailFile where
  name : Bytes
  eml : Email
  nr : Nat
  complete : Bool := false
  deriving DecidableEq, Repr

/-- Where the thread is, with what is left of `email_list`. -/
inductive Sender where
  /-- At the head of the outer loop. -/
  | idle
  | connecting (emailList : List Bytes)
  /-- At the head of the inner loop. -/
  | sending (emailList : List Bytes)
  | loaded (emailList : List Bytes) (filename : Bytes) (eml : Email) (nr : Nat)
  | deleting (emailList : List Bytes) (filename : Bytes)
  /-- At `smtp.quit()`. -/
  | leaving
  /-- The thread has ended. -/
  | ended
  deriving DecidableEq, Repr

/-- The directory and the thread. The mails are numbered, and it is kept what became of them. -/
structure MailState where
  db : MailDb := {}
  files : List MailFile := []
  sender : Sender := .idle
  /-- The mail that is being written. -/
  writing : Option Nat := none
  /-- The mails that were accepted, with their names. -/
  accepted : List (Nat × Bytes) := []
  /-- For these `smtp.sendmail` succeeded. -/
  sent : List Nat := []
  /-- The files of these were deleted. -/
  deleted : List Nat := []
  deriving DecidableEq, Repr

/-- What happens next. -/
inductive MailEvent where
  /-- A call of `mailto_address` that reaches `fm.send`, up to the opening of the file. -/
  | mailto (msg : MailMsg)
  /-- The rest of `FileSysMail.send`. -/
  | close
  /-- `os.listdir`, which lists in any order. -/
  | list (emailList : List Bytes)
  | connect (ok : Bool)
  /-- `email_list.pop()` and `get_email`. -/
  | pop
  | sendmail (ok : Bool)
  | delete
  | quit (ok : Bool)
  /-- `_do_quit` is found to be set. -/
  | stop

namespace MailState

/-- `open(p, 'w')` for a new mail. -/
def openFile (s : MailState) (eml : Email) (name : Bytes) : MailState :=
  let nr := s.accepted.length
  { s with
    files := Table.erase MailFile.name name s.files ++ [{ name := name, eml := eml, nr := nr }]
    writing := some nr
    accepted := s.accepted ++ [(nr, name)] }

/-- `f.close()`. -/
def closeFile (s : MailState) (nr : Nat) : MailState :=
  { s with
    files := s.files.map fun f => if f.nr = nr then { f with complete := true } else f
    writing := none }

/-- `email_list.pop()` and `get_email`, where `none` is an exception. -/
def load (s : MailState) (filename : Bytes) : Option MailFile :=
  (s.files.find? (·.name = filename)).filter (·.complete)

/-- `delete_email`, which logs an error when there is no such file. -/
def deleteEmail (s : MailState) (filename : Bytes) : MailState :=
  { s with
    files := Table.erase MailFile.name filename s.files
    deleted := s.deleted ++ (s.files.filter (·.name = filename)).map MailFile.nr }

/-- The thread goes on. -/
def goto (s : MailState) (sender : Sender) : MailState := { s with sender := sender }

variable (render : Option Text → Option Text → Text → Option Text)

/-- One event. -/
def next (s : MailState) : MailEvent → Option (Except Empty MailState)
  | .mailto msg =>
    match s.writing, mailtoAddress render msg (Session.opened s.db) with
    | none, (session, some (eml, name)) =>
      some (.ok ({ s with db := session.remove.work }.openFile eml name))
    | _, _ => none
  | .close => s.writing.map fun nr => .ok (s.closeFile nr)
  | .list emailList =>
    if s.sender = .idle ∧ emailList.Perm (s.files.map MailFile.name) then
      -- it sleeps when there is nothing to do
      some (.ok (s.goto (if emailList = [] then .idle else .connecting emailList)))
    else none
  | .connect ok =>
    match s.sender with
    | .connecting emailList => some (.ok (s.goto (if ok then .sending emailList else .leaving)))
    | _ => none
  | .pop =>
    match s.sender with
    | .sending emailList =>
      match emailList.getLast? with
      | none => some (.ok (s.goto .leaving))
      | some filename =>
        match s.load filename with
        | none => some (.ok (s.goto .leaving))
        | some f => some (.ok (s.goto (.loaded emailList.dropLast filename f.eml f.nr)))
    | _ => none
  | .sendmail ok =>
    match s.sender with
    | .loaded emailList filename _ nr =>
      some
        (.ok ({ s with sent := if ok then s.sent ++ [nr] else s.sent }.goto
          (.deleting emailList filename)))
    | _ => none
  | .delete =>
    match s.sender with
    | .deleting emailList filename =>
      some (.ok ((s.deleteEmail filename).goto (.sending emailList)))
    | _ => none
  | .quit ok =>
    match s.sender with
    | .leaving => some (.ok (s.goto (if ok then .idle else .ended)))
    | _ => none
  | .stop => if s.sender = .idle then some (.ok (s.goto .ended)) else none

end MailState

end LuoYun.Web.Mail
