import LuoYun.Lib.Session
import LuoYun.Lib.Table
import LuoYun.Web.Form
import Mathlib.Data.List.Dedup

/-!
# The tags of topics

`TopicHandler.update_tag` and the requests of `app/forum/views.py` that add, edit and delete a
topic. A tag counts the topics that have it in `hit`. A topic that is deleted keeps its row and its
tags.

Names are looked up by `lower`, the one of the database on the one side and the one of `unicode` on
the other. Both are parameters. The texts of a topic are left out.
-/

namespace LuoYun.Web.Forum

/-- `ForumTopicTag`. -/
structure ForumTopicTag where
  id : Int
  name : Text
  hit : Int := 1
  deriving DecidableEq, Repr

/-- `ForumTopic`. -/
structure ForumTopic where
  id : Int
  userId : Int
  status : Int := 0
  /-- The tags by their numbers. A tag is there once: this is what a query makes of the rows. -/
  tags : List Int := []
  deriving DecidableEq, Repr

/-- `is_deleted`. -/
def ForumTopic.isDeleted (x : ForumTopic) : Bool := x.status = 1

/-- `ForumCatalog`. -/
structure ForumCatalog where
  id : Int
  isPrivate : Bool := false
  isVisible : Bool := true
  managers : List Int := []
  allowedUsers : List Int := []
  deriving DecidableEq, Repr

/-- The tables. -/
structure TagDb where
  topics : List ForumTopic := []
  tags : List ForumTopicTag := []
  catalogs : List ForumCatalog := []
  /-- The users of `ForumForbiddenUser`. -/
  forbidden : List Int := []
  /-- `forum_topic_id_seq`. -/
  topicSeq : Int := 0
  /-- `forum_topic_tag_id_seq`. -/
  tagSeq : Int := 0
  deriving DecidableEq, Repr

/-- `TopicForm`. -/
structure TopicForm where
  catalog : Int
  name : Text
  summary : Text
  tag : Text
  body : Text
  deriving DecidableEq, Repr

/-- Who makes a request. -/
structure Visitor where
  id : Int
  /-- `has_permission('admin')`. -/
  admin : Bool := false
  deriving DecidableEq, Repr

/-! ## The names in a text -/

/-- How long the separator at the front is. The expression is a byte string, so the wide comma and
the wide colon in it stand for three characters each. -/
def sepLength : Text → Nat
  | ',' :: _ => 1
  | ':' :: _ => 1
  | '|' :: _ => 1
  | a :: b :: c :: _ =>
    if a.toNat = 0xef && b.toNat = 0xbc && (c.toNat = 0x8c || c.toNat = 0x9a) then 3 else 0
  | _ => 0

/-- `re.split(restr, tag)`, where `word` is what comes before, backwards, and `skip` characters
belong to a separator. -/
def splitSep (word : Text) (skip : Nat) : Text → List Text
  | [] => [word.reverse]
  | c :: text =>
    match skip with
    | k + 1 => splitSep word k text
    | 0 =>
      match sepLength (c :: text) with
      | 0 => splitSep (c :: word) 0 text
      | n + 1 => word.reverse :: splitSep [] n text

/-- `tags`, and each of them once: `dotag`. -/
def dotags (tag : Text) : List Text :=
  (((splitSep [] 0 tag).map stripText).filter (· ≠ [])).eraseDups

/-! ## `update_tag` -/

/-- `func.lower` and `unicode.lower`. -/
structure Lowers where
  db : Text → Text
  py : Text → Text

namespace TagDb

variable (lower : Lowers)

/-- The tag for a name. -/
def tagByName (db : TagDb) (name : Text) : Option ForumTopicTag :=
  db.tags.find? fun T => lower.db T.name = lower.py name

/-- `T.hit += n`. -/
def addHit (db : TagDb) (id n : Int) : TagDb :=
  { db with
    tags := Table.update ForumTopicTag.id id (fun T => { T with hit := T.hit + n }) db.tags }

/-- `ForumTopicTag( name )`. -/
def newTag (db : TagDb) (name : Text) : TagDb :=
  { db with tags := db.tags ++ [{ id := db.tagSeq, name := name }], tagSeq := db.tagSeq + 1 }

/-- `self.db.delete(T)`: the topics do not have it any more. -/
def deleteTag (db : TagDb) (id : Int) : TagDb :=
  { db with
    tags := Table.erase ForumTopicTag.id id db.tags
    topics := db.topics.map fun x => { x with tags := x.tags.filter (· ≠ id) } }

/-- `topic.tags = taglist`. -/
def setTags (db : TagDb) (topic : Int) (taglist : List Int) : TagDb :=
  { db with
    topics := Table.update ForumTopic.id topic (fun x => { x with tags := taglist.dedup })
      db.topics }

/-- One name: `taglist` and the tags after it. -/
def tagStep (old : List Int) (r : List Int × TagDb) (name : Text) : List Int × TagDb :=
  match r.2.tagByName lower name with
  | some T => (r.1 ++ [T.id], if T.id ∈ old then r.2 else r.2.addHit T.id 1)
  | none => (r.1 ++ [r.2.tagSeq], r.2.newTag name)

/-- The loop over the names. -/
def tagLoop (db : TagDb) (old : List Int) (names : List Text) : List Int × TagDb :=
  names.foldl (tagStep lower old) ([], db)

/-- A topic less for a tag. -/
def dropHit (db : TagDb) (id : Int) : TagDb :=
  match db.tags.find? (·.id = id) with
  | none => db
  | some T => if T.hit = 1 then db.deleteTag id else db.addHit id (-1)

/-- `update_tag` up to the commit. -/
def updateTag (tag : Text) (topic : ForumTopic) (db : TagDb) : TagDb :=
  let r := db.tagLoop lower topic.tags (dotags tag)
  (topic.tags.filter (· ∉ r.1)).foldl dropHit (r.2.setTags topic.id r.1)

/-- What the database takes: a name has 32 characters. -/
def fits (db : TagDb) : Bool := db.tags.all fun T => T.name.length ≤ 32

/-- `can_add_topic`. -/
def canAddTopic (db : TagDb) (user : Visitor) (c : ForumCatalog) : Bool :=
  user.id ∈ c.managers ||
    (user.id ∉ db.forbidden && !(c.isPrivate && !user.admin && user.id ∉ c.allowedUsers))

/-- `form.validate()`. -/
def formOk (db : TagDb) (form : TopicForm) : Bool :=
  (db.catalogs.any fun c => c.id = form.catalog && c.isVisible && !c.isPrivate) &&
    lengthOk 2 128 form.name &&
    lengthOk 2 1024 form.summary && lengthOk 2 102400 form.body

/-- `TopicAdd.prepare` and the form let the user add a topic. -/
def mayAdd (db : TagDb) (user : Visitor) (cid : Option Int) (form : TopicForm) : Bool :=
  (((cid.filter (· ≠ 0)).bind fun i => db.catalogs.find? (·.id = i)).all (db.canAddTopic user)) &&
    db.formOk form

/-- The topic that `TopicAdd.post` makes. -/
def newTopic (db : TagDb) (user : Visitor) : ForumTopic := { id := db.topicSeq, userId := user.id }

/-- `get_my_topic_byid`, and what `TopicDelete` checks. -/
def myTopic (db : TagDb) (user : Visitor) (id : Option Int) : Option ForumTopic :=
  (id.filter (· ≠ 0)).bind fun i =>
    (db.topics.find? (·.id = i)).filter fun x => x.userId = user.id || user.admin

end TagDb

open TagDb

variable (lower : Lowers)

/-- `TopicAdd.post`. -/
def topicAdd (user : Visitor) (cid : Option Int) (form : TopicForm)
    (s : Session TagDb) : Session TagDb :=
  if s.work.mayAdd user cid form then
    let topic := s.work.newTopic user
    let s :=
      (s.modify fun db =>
        { db with topics := db.topics ++ [topic], topicSeq := db.topicSeq + 1 }).commit
    (s.modify (updateTag lower form.tag topic)).commitIf fits
  else s

/-- `TopicEdit.post`. -/
def topicEdit (user : Visitor) (id : Option Int) (form : TopicForm)
    (s : Session TagDb) : Session TagDb :=
  match s.work.myTopic user id with
  | none => s
  | some topic =>
    if s.work.formOk form then
      (s.commit.modify (updateTag lower form.tag topic)).commitIf fits
    else s

/-- `TopicDelete.post`. -/
def topicDelete (user : Visitor) (id : Option Int) (s : Session TagDb) : Session TagDb :=
  match s.work.myTopic user id with
  | none => s
  | some topic =>
    (s.modify fun db =>
      let db := topic.tags.foldl dropHit db
      { db with
        topics := Table.update ForumTopic.id topic.id
          (fun x => { x with status := 1 }) db.topics }).commit

/-- The requests. -/
inductive TagRequest where
  | add (user : Visitor) (cid : Option Int) (form : TopicForm)
  | edit (user : Visitor) (id : Option Int) (form : TopicForm)
  | delete (user : Visitor) (id : Option Int)

/-- What the handler of a request does. -/
def TagRequest.handler : TagRequest → Session TagDb → Session TagDb
  | .add user cid form => topicAdd lower user cid form
  | .edit user id form => topicEdit lower user id form
  | .delete user id => topicDelete user id

/-- What a completed request makes of the database. -/
def TagDb.next (db : TagDb) (r : TagRequest) : Option (Except Empty TagDb) :=
  some (.ok (Session.request (r.handler lower) db))

end LuoYun.Web.Forum
