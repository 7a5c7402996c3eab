import Mathlib.Tactic.Common

/-!
# A session on a database

A request works on its own copy of the database. `commit` makes the copy the state that persists,
and when the request is over the copy is given up: what was changed since the last `commit` is
lost.
-/

namespace LuoYun

/-- A session: what persists, and what the request sees. -/
structure Session (α : Type) where
  persisted : α
  work : α

namespace Session

variable {α : Type}

/-- A session at the beginning of a request. -/
def opened (db : α) : Session α := ⟨db, db⟩

/-- A change that the request makes. -/
def modify (s : Session α) (f : α → α) : Session α := { s with work := f s.work }

def commit (s : Session α) : Session α := { s with persisted := s.work }

/-- The end of the session. -/
def remove (s : Session α) : Session α := { s with work := s.persisted }

/-- A `commit` that raises unless the database takes the change, and what the request goes on with.
-/
def commitThen (ok : α → Bool) (rest : Session α → Session α) (s : Session α) : Session α :=
  if ok s.work then rest s.commit else s.remove

/-- A `commit` that raises unless the database takes the change. -/
def commitIf (ok : α → Bool) (s : Session α) : Session α := if ok s.work then s.commit else s.remove

/-- What a whole request makes of the database. -/
def request (handler : Session α → Session α) (db : α) : α := (handler (opened db)).remove.work

@[simp] theorem opened_work (db : α) : (opened db).work = db := rfl

@[simp] theorem opened_persisted (db : α) : (opened db).persisted = db := rfl

@[simp] theorem modify_persisted (s : Session α) (f : α → α) :
    (s.modify f).persisted = s.persisted := rfl

@[simp] theorem modify_work (s : Session α) (f : α → α) : (s.modify f).work = f s.work := rfl

@[simp] theorem commit_persisted (s : Session α) : s.commit.persisted = s.work := rfl

@[simp] theorem commit_work (s : Session α) : s.commit.work = s.work := rfl

theorem commitThen_persisted (ok : α → Bool) (rest : Session α → Session α) (s : Session α) :
    (s.commitThen ok rest).persisted =
      if ok s.work then (rest s.commit).persisted else s.persisted := by
  unfold commitThen
  split <;> rfl

theorem commitIf_persisted (ok : α → Bool) (s : Session α) :
    (s.commitIf ok).persisted = if ok s.work then s.work else s.persisted := by
  unfold commitIf
  split <;> rfl

/-- What persists is what was committed. -/
theorem request_eq (handler : Session α → Session α) (db : α) :
    request handler db = (handler (opened db)).persisted := rfl

end Session

end LuoYun
