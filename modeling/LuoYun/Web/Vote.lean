import LuoYun.Lib.Session
import LuoYun.Lib.Table
import LuoYun.Web.Python

/-!
# Votes on topics and posts

`TopicVote` and `PostVote` of `app/forum/views.py` are the same handler on two pairs of tables. A
topic or a post counts the votes for and against it, and the tables of votes have a record of each.
-/

namespace LuoYun.Web

/-- What is voted on: `ForumTopic` or `ForumPost`. -/
structure Votable where
  id : Int
  userId : Option Int := none
  like : Int := 0
  unlike : Int := 0
  deriving DecidableEq, Repr

/-- `ForumTopicVote` or `ForumPostVote`. -/
structure Vote where
  id : Int
  /-- `topic_id` or `post_id`. -/
  target : Int
  userId : Int
  value : Int
  deriving DecidableEq, Repr

/-- The two tables of a handler. -/
structure Ballots where
  items : List Votable := []
  votes : List Vote := []
  /-- The sequence of the votes. -/
  seq : Int := 0
  deriving DecidableEq, Repr

namespace Ballots

/-- `T.like += like` and `T.unlike += unlike`. -/
def count (b : Ballots) (target like unlike : Int) : Ballots :=
  { b with
    items := Table.update Votable.id target
      (fun t => { t with like := t.like + like, unlike := t.unlike + unlike }) b.items }

/-- `V.value = vote`. -/
def recast (b : Ballots) (v : Vote) (vote : Int) : Ballots :=
  { b with votes := Table.update Vote.id v.id (fun v => { v with value := vote }) b.votes }

/-- `self.db.add( V )`. -/
def record (b : Ballots) (target user vote : Int) : Ballots :=
  { b with votes := b.votes ++ [⟨b.seq, target, user, vote⟩], seq := b.seq + 1 }

/-- The query for `V`. -/
def voteOf (b : Ballots) (target user : Int) : Option Vote :=
  b.votes.find? fun v => v.target = target ∧ v.userId = user

/-- What the database takes. -/
def fits (b : Ballots) : Bool :=
  (b.items.all fun t => fitsInteger t.like && fitsInteger t.unlike) &&
    b.votes.all fun v => fitsInteger v.value

/-- A vote by someone who may vote on `t`: what is there to commit, if the handler gets that far. -/
def vote (b : Ballots) (t : Votable) (user vote : Int) : Option Ballots :=
  match b.voteOf t.id user with
  | some v =>
    if 0 < vote then
      if v.value < 0 then some ((b.count t.id 1 (-1)).recast v vote) else none
    else if vote < 0 then
      if 0 < v.value then some ((b.count t.id (-1) 1).recast v vote) else none
    else some b
  | none =>
    let b := if 0 < vote then b.count t.id 1 0 else if vote < 0 then b.count t.id 0 1 else b
    some (b.record t.id user vote)

/-- The handler up to the commit. There is no user when the visitor has not logged in. -/
def post (b : Ballots) (user id : Option Int) (vote : Int) : Option Ballots :=
  user.bind fun user =>
    (id.filter (· ≠ 0)).bind fun id =>
      (b.items.find? (·.id = id)).bind fun t =>
        if t.userId = some user then none else b.vote t user vote

end Ballots

/-- The forum. -/
structure ForumDb where
  topics : Ballots := {}
  posts : Ballots := {}
  deriving DecidableEq, Repr

/-- What the database takes. -/
def ForumDb.fits (db : ForumDb) : Bool := db.topics.fits && db.posts.fits

/-- `TopicVote.post`. -/
def topicVote (user id : Option Int) (vote : Int) (s : Session ForumDb) : Session ForumDb :=
  match s.work.topics.post user id vote with
  | none => s
  | some b => (s.modify fun db => { db with topics := b }).commitIf ForumDb.fits

/-- `PostVote.post`. -/
def postVote (user id : Option Int) (vote : Int) (s : Session ForumDb) : Session ForumDb :=
  match s.work.posts.post user id vote with
  | none => s
  | some b => (s.modify fun db => { db with posts := b }).commitIf ForumDb.fits

/-- The requests. -/
inductive VoteRequest where
  | topic (user id : Option Int) (vote : Int)
  | post (user id : Option Int) (vote : Int)

/-- What the handler of a request does. -/
def VoteRequest.handler : VoteRequest → Session ForumDb → Session ForumDb
  | .topic user id vote => topicVote user id vote
  | .post user id vote => postVote user id vote

/-- What a completed request makes of the database. -/
def ForumDb.next (db : ForumDb) (r : VoteRequest) : Option (Except Empty ForumDb) :=
  some (.ok (Session.request r.handler db))

end LuoYun.Web
