import LuoYun.Lib.Machine
import LuoYun.Web.ResetPass

/-!
# Keys that reset a password

The query for the old applications of a user finds none, since what it compares is the column and
not its value. So an application is deleted only when it is used, and a user who applies again has
two keys. For as long as users apply only when they have no key left, they have one.
-/

namespace LuoYun.Web.ResetPass

/-- `ResetPass` takes this key for a key of `user`. -/
def ResetDb.accepts (db : ResetDb) (user : Int) (key : Text) : Prop :=
  ∃ it, db.userApply key = some it ∧ it.userId = user

/-- A run: the database, and the key of the last application of each user unless it has been used.
-/
structure Resets where
  db : ResetDb := {}
  last : Int → Option Text := fun _ => none

namespace Resets

/-- What a request makes of the last keys. -/
def lastAfter (s : Resets) : ResetRequest → Int → Option Text
  | .apply email key, user => if (s.db.applicant email).any (·.id = user) then
      some key
      else s.last user
  | .reset key form, user =>
    if (s.db.userApply key).any (·.userId = user) && form.validate then none else s.last user

/-- A completed request. -/
def after (enc : Text → Text) (s : Resets) (r : ResetRequest) : Resets :=
  ⟨Session.request (r.handler enc) s.db, s.lastAfter r⟩

def next (enc : Text → Text) (s : Resets) (r : ResetRequest) : Option (Except Empty Resets) :=
  some (.ok (s.after enc r))

/-- No key is accepted but that of the last application. -/
def Sole (s : Resets) : Prop := ∀ user key, s.db.accepts user key → s.last user = some key

/-- Every user has one application at most, which is the last one. -/
structure OneKey (s : Resets) : Prop where
  last : ∀ a ∈ s.db.resets, s.last a.userId = some a.key
  users : (s.db.resets.map UserResetpass.userId).Nodup

/-- Whoever applies has no application that is not used. -/
def NoneUnused (s : Resets) : ResetRequest → Prop
  | .apply email _ => ∀ user, s.db.applicant email = some user →
      ∀ a ∈ s.db.resets, a.userId ≠ user.id
  | .reset _ _ => True

/-- The keys that were drawn are different. -/
def Drawn (s : Resets) : ResetRequest → Prop
  | .apply _ key => (key :: s.db.resets.map UserResetpass.key).Nodup ∧
      [] ∉ s.db.resets.map UserResetpass.key
  | .reset _ _ => True

variable {s : Resets} {enc : Text → Text}

theorem OneKey.sole (h : s.OneKey) : s.Sole := by
  rintro user key ⟨it, hit, rfl⟩
  unfold ResetDb.userApply at hit
  split at hit
  · cases hit
  · have hdec := List.find?_some hit
    have hkey : it.key = key := of_decide_eq_true hdec
    rw [h.last it (List.mem_of_find?_eq_some hit), hkey]

end Resets

/-! ## What the requests do -/

/-- **Nothing is found to be deleted.** -/
theorem applys_eq_nil (db : ResetDb) (user : User) : db.applys user = [] := by
  rw [ResetDb.applys, List.filter_eq_nil_iff]
  intro a _
  rw [completedIsNone, Bool.and_false]
  exact Bool.false_ne_true

theorem forget_applys (db : ResetDb) (user : User) : db.forget (db.applys user) = db := by
  rw [applys_eq_nil, ResetDb.forget]
  have hall : db.resets.filter
      (fun a => decide (a.id ∉ ([] : List UserResetpass).map UserResetpass.id)) = db.resets :=
    List.filter_eq_self.mpr fun _ _ => rfl
  rw [hall]

namespace Resets

variable {s : Resets} {enc : Text → Text}

theorem after_apply {email key : Text} {user : User} (h : s.db.applicant email = some user) :
    s.after enc (.apply email key) =
      ⟨s.db.insert user key, fun u => if u = user.id then some key else s.last u⟩ := by
  have hdb : Session.request (ResetRequest.handler enc (.apply email key)) s.db =
      s.db.insert user key := by
    rw [Session.request_eq, ResetRequest.handler, resetPassApply, Session.opened_work, h]
    dsimp only
    rw [Session.commit_persisted, Session.modify_work, Session.opened_work, forget_applys]
  unfold after
  rw [hdb]
  congr 1
  funext u
  rw [lastAfter, h]
  simp [eq_comm]

theorem after_apply_none {email key : Text} (h : s.db.applicant email = none) :
    s.after enc (.apply email key) = s := by
  have hdb : Session.request (ResetRequest.handler enc (.apply email key)) s.db = s.db := by
    rw [Session.request_eq, ResetRequest.handler, resetPassApply, Session.opened_work, h]
    rfl
  unfold after
  rw [hdb]
  congr 1
  funext u
  rw [lastAfter, h]
  rfl

theorem after_reset {key : Text} {form : ResetPassForm} {it : UserResetpass}
    (hit : s.db.userApply key = some it) (hform : form.validate = true) :
    (s.after enc (.reset key form)).db.resets = Table.erase UserResetpass.id it.id s.db.resets ∧
      ∀ u, (s.after enc (.reset key form)).last u = if u = it.userId then none else s.last u := by
  unfold after
  constructor
  · rw [Session.request_eq, ResetRequest.handler, resetPass, Session.opened_work, hit]
    dsimp only
    rw [if_pos hform]
    rfl
  · intro u
    dsimp only [lastAfter]
    rw [hit, hform]
    simp [eq_comm]

theorem after_reset_none {key : Text} {form : ResetPassForm}
    (h : s.db.userApply key = none ∨ form.validate = false) :
    s.after enc (.reset key form) = s := by
  have hdb : Session.request (ResetRequest.handler enc (.reset key form)) s.db = s.db := by
    rw [Session.request_eq, ResetRequest.handler, resetPass, Session.opened_work]
    rcases h with h | h
    · rw [h]
      rfl
    · rw [h]
      split <;> rfl
  unfold after
  rw [hdb]
  congr 1
  funext u
  rw [lastAfter]
  rcases h with h | h
  · rw [h]
    rfl
  · rw [h, Bool.and_false]
    rfl

/-- A key that is used is gone, and it was the only one. -/
theorem OneKey.reset (h : s.OneKey) (key : Text) (form : ResetPassForm) :
    (s.after enc (.reset key form)).OneKey := by
  cases hit : s.db.userApply key with
  | none =>
    rw [after_reset_none (.inl hit)]
    exact h
  | some it =>
    cases hform : form.validate with
    | false =>
      rw [after_reset_none (.inr hform)]
      exact h
    | true =>
      obtain ⟨hresets, hlast⟩ := after_reset (s := s) hit hform
      have hmem : it ∈ s.db.resets := by
        unfold ResetDb.userApply at hit
        split at hit
        · cases hit
        · exact List.mem_of_find?_eq_some hit
      constructor
      · intro a ha
        -- what is left is not of this user
        rw [hresets] at ha
        obtain ⟨ha, hne⟩ := List.mem_filter.mp ha
        have hother : a.userId ≠ it.userId := by
          intro he
          have hsame : a = it := List.inj_on_of_nodup_map h.users ha hmem he
          rw [hsame] at hne
          exact of_decide_eq_true hne rfl
        rw [hlast, if_neg hother]
        exact h.last a ha
      · rw [hresets]
        exact h.users.sublist (List.filter_sublist.map _)

/-- **An application gives the one key** if it is made by someone who has none. -/
theorem OneKey.apply (h : s.OneKey) {email key : Text} (hnone : s.NoneUnused (.apply email key)) :
    (s.after enc (.apply email key)).OneKey := by
  cases hu : s.db.applicant email with
  | none =>
    rw [after_apply_none hu]
    exact h
  | some user =>
    rw [after_apply hu]
    have hfree := hnone user hu
    constructor
    · intro a ha
      rcases List.mem_append.mp ha with ha | ha
      · exact (if_neg (hfree a ha)).trans (h.last a ha)
      · obtain rfl := List.mem_singleton.mp ha
        exact if_pos rfl
    · refine Table.nodup_append_new h.users fun hin => ?_
      obtain ⟨a, ha, he⟩ := List.mem_map.mp hin
      exact hfree a ha he

/-- The old key of a user who applies again is still accepted. -/
theorem not_sole_apply {email key : Text} (hdrawn : s.Drawn (.apply email key))
    (hagain : ¬ s.NoneUnused (.apply email key)) : ¬ (s.after enc (.apply email key)).Sole := by
  intro hsole
  obtain ⟨hnodup, hne⟩ := hdrawn
  obtain ⟨hnew, hkeys⟩ := List.nodup_cons.mp hnodup
  refine hagain fun user hu a ha hau => ?_
  rw [after_apply hu] at hsole
  have hold : a.key ≠ [] := fun he => hne (he ▸ List.mem_map_of_mem ha)
  have hfind : s.db.resets.find? (fun b => decide (b.key = a.key)) = some a :=
    Table.find?_key hkeys ha
  have haccept : (s.db.insert user key).accepts user.id a.key := by
    refine ⟨a, ?_, hau⟩
    rw [ResetDb.userApply, if_neg hold, ResetDb.insert, List.find?_append, hfind]
    rfl
  have hlast := (hsole user.id a.key haccept).symm.trans (if_pos rfl)
  obtain rfl := Option.some.inj hlast
  exact hnew (List.mem_map_of_mem ha)

end Resets

open Resets

/-- **When a user has one live key**: as long as nobody applies who has an application that is not
used. If the keys that are drawn are different, the first such application makes two keys live. -/
theorem one_live_key (enc : Text → Text) {s : Resets}
    (h : Machine.Reach (Resets.next enc) Resets.NoneUnused Resets.OneKey s) :
    s.Sole ∧ ∀ r, s.Drawn r → ((s.after enc r).Sole ↔ s.NoneUnused r) := by
  have hstep : ∀ s : Resets, s.OneKey → ∀ r, s.NoneUnused r → (s.after enc r).OneKey := by
    intro s hs r hr
    cases r with
    | apply email key => exact hs.apply hr
    | reset key form => exact hs.reset key form
  have hkey : s.OneKey := by
    refine h.inv (fun _ h0 => h0) ?_
    intro s r t hs hq hn
    obtain rfl := Except.ok.inj (Option.some.inj hn)
    exact hstep s hs r hq
  refine ⟨hkey.sole, fun r hdrawn => ⟨fun hsole => ?_, fun hr => (hstep s hkey r hr).sole⟩⟩
  cases r with
  | apply email key =>
    by_contra hagain
    exact not_sole_apply hdrawn hagain hsole
  | reset key form => trivial

/-- One user, and no applications. -/
def Resets.start : Resets where
  db := { users := [{ id := 1, email := some "a@site.org".toList }] }

theorem start_oneKey : Resets.start.OneKey := ⟨nofun, List.nodup_nil⟩

/-- `NoneUnused` as a test. -/
def Resets.noneUnused (s : Resets) : ResetRequest → Bool
  | .apply email _ => (s.db.applicant email).all fun user => s.db.resets.all (·.userId ≠ user.id)
  | .reset _ _ => true

theorem noneUnused_of_test (s : Resets) (r : ResetRequest) (h : s.noneUnused r = true) :
    s.NoneUnused r := by
  cases r with
  | reset key form => trivial
  | apply email key =>
    intro user hu a ha
    rw [Resets.noneUnused, hu, Option.all_some] at h
    exact of_decide_eq_true (List.all_eq_true.mp h a ha)

/-- The user applies, sets a new password, and applies again. -/
def resetAndApply : List ResetRequest :=
  [.apply "a@site.org".toList ['k'], .reset ['k'] ⟨"secret".toList, "secret".toList⟩,
    .apply "a@site.org".toList ['l']]

/-- Only the second key is accepted. A third application would make it two. -/
theorem one_live_key_reset :
    ∃ s, Machine.execIf (Resets.next id) Resets.noneUnused resetAndApply Resets.start = some s ∧
      s.db.users.map User.password = ["secret".toList] ∧ s.Sole ∧
      ((s.after id (.apply "a@site.org".toList ['m'])).Sole ↔
        s.NoneUnused (.apply "a@site.org".toList ['m'])) := by
  obtain ⟨s, hrun⟩ : ∃ s,
      Machine.execIf (Resets.next id) Resets.noneUnused resetAndApply Resets.start =
        some s := ⟨_, rfl⟩
  have hdb : (Machine.execIf (Resets.next id) Resets.noneUnused resetAndApply Resets.start).map
      (fun s => (s.db.users.map User.password, s.db.resets.map UserResetpass.key)) =
        some (["secret".toList], [['l']]) := by
    decide +kernel
  rw [hrun, Option.map_some] at hdb
  obtain ⟨hpassword, hkeys⟩ := Prod.mk.inj (Option.some.inj hdb)
  obtain ⟨hsole, hstep⟩ :=
    one_live_key id (.of_execIf (.of_init start_oneKey) noneUnused_of_test hrun)
  refine ⟨s, hrun, hpassword, hsole, hstep (.apply "a@site.org".toList ['m']) ?_⟩
  rw [Resets.Drawn, hkeys]
  decide

/-- The user applies twice, and both keys are accepted. -/
theorem two_live_keys :
    ∃ s, Machine.exec (Resets.next id)
      [.apply "a@site.org".toList ['k'], .apply "a@site.org".toList ['l']]
        Resets.start = some s ∧
      s.db.accepts 1 ['k'] ∧ s.db.accepts 1 ['l'] ∧ ¬ s.Sole := by
  refine ⟨_, rfl, ⟨⟨0, 1, ['k'], none⟩, ?_, rfl⟩, ⟨⟨1, 1, ['l'], none⟩, ?_, rfl⟩, ?_⟩
  · rfl
  · rfl
  · intro hsole
    have hfirst := hsole 1 ['k'] ⟨⟨0, 1, ['k'], none⟩, rfl, rfl⟩
    revert hfirst
    decide

end LuoYun.Web.ResetPass
