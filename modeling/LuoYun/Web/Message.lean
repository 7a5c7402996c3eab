import LuoYun.Lib.Session
import LuoYun.Lib.Table
import LuoYun.Web.Python

/-!
# Messages between users

`app/message/views.py`: a message that is sent has a copy for the inbox of its receiver and one for
the outbox of its sender, with the same sender and receiver, and `User.notify` counts what a
receiver has not read.

What `trans` and the expression for `Re:` make of a subject is a parameter.
-/

namespace LuoYun.Web.Mailbox

/-- `User`. -/
structure User where
  id : Int
  username : Text
  notice : Int := 0
  deriving DecidableEq, Repr

/-- `Message`. -/
structure Message where
  id : Int
  replyId : Option Int := none
  senderId : Int
  /-- There is none for a notice. -/
  receiverId : Option Int
  textId : Int
  isinbox : Bool := true
  isread : Bool := false
  deriving DecidableEq, Repr

/-- `MessageText`. -/
structure MessageText where
  id : Int
  subject : Text
  body : Text
  deriving DecidableEq, Repr

/-- The tables. -/
structure MessageDb where
  users : List User := []
  messages : List Message := []
  texts : List MessageText := []
  /-- `message_id_seq`. -/
  seq : Int := 0
  /-- `message_text_id_seq`. -/
  textSeq : Int := 0
  deriving DecidableEq, Repr

/-- `User.notify`. -/
def User.notify (u : User) (notice : Int) : User :=
  let n := if u.notice ≠ 0 then u.notice + notice else notice
  { u with notice := if n < 0 then 0 else n }

/-- `subject.replace('<', "&lt;").replace('>', "&gt;")`. -/
def escape (subject : Text) : Text :=
  subject.flatMap fun c => if c = '<' then "&lt;".toList else if c = '>' then "&gt;".toList else [c]

/-- It is the user's own: sent or received. -/
def Message.involves (m : Message) (user : Int) : Bool :=
  m.receiverId = some user || m.senderId = user

namespace MessageDb

/-- What the database takes: numbers and subjects that fit, and replies to what is there. -/
def fits (db : MessageDb) : Bool :=
  (db.users.all fun u => fitsInteger u.notice) && (db.texts.all fun t => t.subject.length ≤ 256) &&
    db.messages.all fun m => m.replyId.all fun r => db.messages.any fun n => n.id = r

/-- `user.notify(notice)`. -/
def notify (db : MessageDb) (user notice : Int) : MessageDb :=
  { db with users := Table.update User.id user (·.notify notice) db.users }

/-- `MessageText`. -/
def addText (db : MessageDb) (subject body : Text) : MessageDb :=
  { db with texts := db.texts ++ [⟨db.textSeq, escape subject, body⟩], textSeq := db.textSeq + 1 }

/-- `Message`. -/
def addMessage (db : MessageDb) (replyId : Option Int)
    (sender receiver text : Int) (isinbox : Bool) :
    MessageDb :=
  { db with
    messages := db.messages ++ [⟨db.seq, replyId, sender, some receiver, text, isinbox, false⟩]
    seq := db.seq + 1 }

/-- The copies of a message and the notice of its receiver. -/
def send (db : MessageDb) (replyId : Option Int) (sender receiver text : Int) : MessageDb :=
  let db := db.addMessage replyId sender receiver text true
  let db := if receiver ≠ sender then db.addMessage replyId sender receiver text false else db
  db.notify receiver 1

/-- `my_message`. -/
def myMessage (db : MessageDb) (user id : Int) : Option Message :=
  (db.messages.find? (·.id = id)).filter fun m => m.involves user

/-- `M.receiver`. -/
def receiver (db : MessageDb) (m : Message) : Option User :=
  m.receiverId.bind fun r => db.users.find? (·.id = r)

/-- A change of one message. -/
def update (db : MessageDb) (m : Message) (f : Message → Message) : MessageDb :=
  { db with messages := Table.update Message.id m.id f db.messages }

/-- The loop over `quote_list`. -/
def unquote (db : MessageDb) (user : Int) (m : Message) : MessageDb :=
  { db with
    messages := db.messages.map fun q =>
      if q.replyId = some m.id ∧ q.involves user then { q with replyId := none } else q }

/-- `self.db.delete( M )` and, when it was the last one, its text. -/
def remove (db : MessageDb) (m : Message) (x : Nat) : MessageDb :=
  { db with
    messages := Table.erase Message.id m.id db.messages
    texts := if x = 1 then Table.erase MessageText.id m.textId db.texts else db.texts }

end MessageDb

open MessageDb

/-- `MessageForm`. -/
structure MessageForm where
  /-- `to`. -/
  toUser : Text
  subject : Text
  text : Text
  deriving DecidableEq, Repr

/-- `form.validate()`. -/
def MessageForm.validate (form : MessageForm) : Bool :=
  2 ≤ form.subject.length && form.subject.length ≤ 256 && 6 ≤
    form.text.length && form.text.length ≤ 10240

/-- `View.get`. -/
def view (user id : Int) (s : Session MessageDb) : Session MessageDb :=
  match s.work.myMessage user id with
  | none => s
  | some m =>
    if m.isread then s.commit
    else match s.work.receiver m with
    -- `None` has no `notify`
    | none => s
    | some r =>
      (s.modify fun db => (db.update m fun m => { m with isread := true }).notify r.id (-1)).commit

/-- `Delete.get`. -/
def delete (user id : Int) (s : Session MessageDb) : Session MessageDb :=
  match s.work.myMessage user id with
  | none => s
  | some m =>
    let x := s.work.messages.countP fun n => n.textId = m.textId
    let finish (s : Session MessageDb) : Session MessageDb :=
      (s.modify fun db => (db.unquote user m).remove m x).commitIf fits
    if m.isread then finish s
    else match s.work.receiver m with
    | none => s
    | some r => finish (s.modify fun db => db.notify r.id (-1))

/-- `New.post`. -/
def new (user : Int) (form : MessageForm) (s : Session MessageDb) : Session MessageDb :=
  if form.validate then
    match s.work.users.find? (·.username = form.toUser) with
    | none => s
    | some receiver =>
      let text := s.work.textSeq
      (s.modify fun db => db.addText form.subject form.text).commitThen fits fun s =>
        (s.modify fun db => db.send none user receiver.id text).commitIf fits
  else s

/-- `Reply.post`. -/
def reply (reSubject : Text → Text) (user id : Int) (body : Text) (s : Session MessageDb) :
    Session MessageDb :=
  match s.work.myMessage user id with
  | none => s
  | some m =>
    if body = [] then s
    else match s.work.texts.find? (·.id = m.textId) with
    | none => s
    | some t =>
      let text := s.work.textSeq
      (s.modify fun db => db.addText (reSubject t.subject) body).commitThen fits fun s =>
        match s.work.users.find? (·.id = m.senderId) with
        | none => s
        | some sender => (s.modify fun db => db.send (some m.id) user sender.id text).commitIf fits

/-- The requests, by a user who has logged in. -/
inductive MessageRequest where
  | new (user : Int) (form : MessageForm)
  | reply (user id : Int) (body : Text)
  | view (user id : Int)
  | delete (user id : Int)

variable (reSubject : Text → Text)

/-- What the handler of a request does. -/
def MessageRequest.handler : MessageRequest → Session MessageDb → Session MessageDb
  | .new user form => Mailbox.new user form
  | .reply user id body => Mailbox.reply reSubject user id body
  | .view user id => Mailbox.view user id
  | .delete user id => Mailbox.delete user id

/-- What a completed request makes of the database. -/
def MessageDb.next (db : MessageDb) (r : MessageRequest) : Option (Except Empty MessageDb) :=
  some (.ok (Session.request (r.handler reSubject) db))

end LuoYun.Web.Mailbox
