import LuoYun.Lib.Machine
import LuoYun.Web.Email

/-!
# Who has a valid address

A key for an address says nothing about who asked for it, and whether somebody else has the address
is looked up when the key is issued. So the address of a key is valid for whoever brings it, and for
as many users as bring keys for it. It is valid for one user as long as the keys are brought by
those who asked for them, while nobody else has had the address validated.
-/

namespace LuoYun.Web.Email

/-- The address `email` has been validated for the user. -/
def User.ValidAt (u : User) (email : Text) : Prop := u.emailValid = true ∧ u.email = some email

/-- A valid address is the address of one user. -/
def EmailDb.Unique (db : EmailDb) : Prop :=
  ∀ u ∈ db.users, ∀ v ∈ db.users, ∀ email, u.ValidAt email → v.ValidAt email → u.id = v.id

/-- A run: the database, who requested the keys, and who asked for the keys that have been
confirmed, and who confirmed them. -/
structure Emails where
  db : EmailDb := {}
  requestedBy : Int → Option Int := fun _ => none
  confirmed : List (Option Int × Int) := []

namespace Emails

/-- What a request makes of the requesters. -/
def requestedAfter (s : Emails) : EmailRequest → Int → Option Int
  | .request user email _ _, k =>
    if k = s.db.keySeq then ((s.db.requester user email).map User.id).or
      (s.requestedBy k) else s.requestedBy k
  | _, k => s.requestedBy k

/-- What a request adds to the confirmations. -/
def confirmedAfter (s : Emails) : EmailRequest → List (Option Int × Int)
  | .confirm user authKey now =>
    match s.db.confirmer user authKey now with
    | none => s.confirmed
    | some (u, K) => s.confirmed ++ [(s.requestedBy K.id, u.id)]
  | _ => s.confirmed

/-- A completed request. -/
def after (s : Emails) (r : EmailRequest) : Emails :=
  ⟨Session.request r.handler s.db, s.requestedAfter r, s.confirmedAfter r⟩

def next (s : Emails) (r : EmailRequest) : Option (Except Empty Emails) := some (.ok (s.after r))

/-- Every key was confirmed by the user who requested it. -/
def Own (s : Emails) : Prop := ∀ x ∈ s.confirmed, x.1 = some x.2

/-- What the addresses should be like. -/
def Proper (s : Emails) : Prop := s.db.Unique ∧ s.Own

/-- And the numbers of users come from the sequence. -/
structure Good (s : Emails) : Prop where
  proper : s.Proper
  fresh : ∀ u ∈ s.db.users, u.id < s.db.userSeq

/-- A key is confirmed by the user who requested it, and nobody else has a valid address that
becomes one now. -/
def Rightful (s : Emails) : EmailRequest → Prop
  | .confirm user authKey now => ∀ u K, s.db.confirmer user authKey now = some (u, K) →
      s.requestedBy K.id = some u.id ∧ ∀ v ∈ s.db.users, v.id ≠ u.id → ¬ v.ValidAt K.authData
  | .register key form => ∀ new x, s.db.registrant key form = some (new, x) →
      ∀ v ∈ s.db.users, ¬ v.ValidAt x.email
  | _ => True

end Emails

open EmailDb Emails

/-! ## What the requests do to the users -/

theorem apply_users (email : Text) (acceptRules : Bool) (key : Text) (db : EmailDb) :
    (Session.request (postApply email acceptRules key) db).users = db.users ∧
      (Session.request (postApply email acceptRules key) db).userSeq = db.userSeq := by
  rw [Session.request_eq, postApply]
  split
  · rw [Session.opened_work]
    cases db.applys.find? (·.email = email) with
    | some K =>
      dsimp only
      rw [Session.commitIf_persisted]
      split <;> exact ⟨rfl, rfl⟩
    | none =>
      dsimp only
      split
      · exact ⟨rfl, rfl⟩
      · rw [Session.commitIf_persisted]
        split <;> exact ⟨rfl, rfl⟩
  · exact ⟨rfl, rfl⟩

theorem request_users (user : Int) (email key : Text) (now : Int) (db : EmailDb) :
    (Session.request (validatePost user email key now) db).users = db.users ∧
      (Session.request (validatePost user email key now) db).userSeq = db.userSeq := by
  rw [Session.request_eq, validatePost]
  split <;> exact ⟨rfl, rfl⟩

theorem confirmer_mem {db : EmailDb} {user : Int} {authKey : Text} {now : Int}
    {u : User} {K : AuthKey} (h : db.confirmer user authKey now = some (u, K)) : u ∈ db.users := by
  unfold confirmer at h
  split at h
  · cases h
  · obtain ⟨u', hu, h⟩ := Option.bind_eq_some_iff.mp h
    obtain ⟨K', -, he⟩ := Option.map_eq_some_iff.mp h
    obtain ⟨rfl, -⟩ := Prod.mk.inj he
    exact List.mem_of_find?_eq_some hu

theorem registrant_spec {db : EmailDb} {key : Text} {form : RegistrationForm} {new : User}
    {x : RegistrationApply}
    (h : db.registrant key form = some (new, x)) : new.id = db.userSeq ∧ new.ValidAt x.email := by
  obtain ⟨y, -, h⟩ := Option.bind_eq_some_iff.mp h
  split at h
  · obtain ⟨rfl, rfl⟩ := Prod.mk.inj (Option.some.inj h)
    exact ⟨rfl, rfl, rfl⟩
  · cases h

/-- An address that is given to one user. -/
theorem unique_update_iff {db : EmailDb} (h : db.Unique) {u : User}
    (hu : u ∈ db.users) (email : Text) :
    EmailDb.Unique { db with
      users := Table.update User.id u.id
        (fun u => { u with email := some email, emailValid := true }) db.users } ↔
      ∀ v ∈ db.users, v.id ≠ u.id → ¬ v.ValidAt email := by
  constructor
  · intro h' v hv hne hvalid
    have hmem : v ∈ Table.update User.id u.id
        (fun u => { u with email := some email, emailValid := true }) db.users :=
      List.mem_map.mpr ⟨v, hv, if_neg hne⟩
    have hnew : { u with email := some email, emailValid := true } ∈
        Table.update User.id u.id (fun u => { u with email := some email, emailValid := true })
          db.users :=
      List.mem_map.mpr ⟨u, hu, if_pos rfl⟩
    have hsame := h' v hmem { u with email := some email, emailValid := true }
      hnew email hvalid ⟨rfl, rfl⟩
    exact hne hsame
  · intro hnone v hv w hw e hve hwe
    obtain ⟨v₀, hv₀, rfl⟩ := List.mem_map.mp hv
    obtain ⟨w₀, hw₀, rfl⟩ := List.mem_map.mp hw
    -- at most one of the two is the user whose address has changed
    by_cases hvu : v₀.id = u.id <;> by_cases hwu : w₀.id = u.id
    · rw [if_pos hvu, if_pos hwu]
      exact hvu.trans hwu.symm
    · rw [if_pos hvu] at hve
      rw [if_neg hwu] at hwe
      obtain rfl := Option.some.inj hve.2
      exact absurd hwe (hnone w₀ hw₀ hwu)
    · rw [if_neg hvu] at hve
      rw [if_pos hwu] at hwe
      obtain rfl := Option.some.inj hwe.2
      exact absurd hve (hnone v₀ hv₀ hvu)
    · rw [if_neg hvu] at hve ⊢
      rw [if_neg hwu] at hwe ⊢
      exact h v₀ hv₀ w₀ hw₀ e hve hwe

/-- A user who is new. -/
theorem unique_append_iff {db : EmailDb} (h : db.Unique)
    (hfresh : ∀ u ∈ db.users, u.id < db.userSeq) {new : User}
    {email : Text} (hid : new.id = db.userSeq) (hnew : new.ValidAt email) {db' : EmailDb}
    (husers : db'.users = db.users ++ [new]) : db'.Unique ↔ ∀ v ∈ db.users, ¬ v.ValidAt email := by
  unfold EmailDb.Unique
  rw [husers]
  constructor
  · intro h' v hv hvalid
    have hsame := h' v (List.mem_append_left _ hv) new
      (List.mem_append_right _ List.mem_cons_self) email hvalid hnew
    have hlt := hfresh v hv
    omega
  · intro hnone v hv w hw e hve hwe
    have hother : ∀ w, w.ValidAt e → new.ValidAt e → w ∈ db.users → False := by
      intro w hwe hne hw
      obtain rfl := Option.some.inj (hne.2.symm.trans hnew.2)
      exact hnone w hw hwe
    rcases List.mem_append.mp hv with hvOld | hvNew <;>
        rcases List.mem_append.mp hw with hwOld | hwNew
    · exact h v hvOld w hwOld e hve hwe
    · obtain rfl := List.mem_singleton.mp hwNew
      exact (hother v hve hwe hvOld).elim
    · obtain rfl := List.mem_singleton.mp hvNew
      exact (hother w hwe hve hwOld).elim
    · rw [List.mem_singleton.mp hvNew, List.mem_singleton.mp hwNew]

/-! ## The requests -/

variable {s : Emails}

theorem confirm_proper_iff (h : s.Good) (user : Int) (authKey : Text) (now : Int) :
    ((s.after (.confirm user authKey now)).Proper ↔ s.Rightful (.confirm user authKey now)) ∧
      ∀ u ∈ (s.after (.confirm user authKey now)).db.users,
        u.id < (s.after (.confirm user authKey now)).db.userSeq := by
  have hdb : (s.after (.confirm user authKey now)).db =
      Session.request (validateGet user authKey now) s.db := rfl
  have hlog : (s.after (.confirm user authKey now)).confirmed =
      s.confirmedAfter (.confirm user authKey now) := rfl
  unfold Proper Own
  rw [hlog, hdb, Session.request_eq, validateGet, confirmedAfter, Session.opened_work]
  cases hc : s.db.confirmer user authKey now with
  | none => exact ⟨iff_of_true h.proper fun u K hc' =>
      absurd (hc.symm.trans hc') (by simp), h.fresh⟩
  | some x =>
    obtain ⟨u, K⟩ := x
    dsimp only
    rw [Session.commit_persisted, Session.modify_work, Session.opened_work]
    have hunique := unique_update_iff h.proper.1 (confirmer_mem hc) K.authData
    refine ⟨⟨?_, ?_⟩, ?_⟩
    · rintro ⟨hafter, hown⟩ u' K' hc'
      obtain ⟨rfl, rfl⟩ := Prod.mk.inj (Option.some.inj (hc.symm.trans hc'))
      -- the log now ends with this confirmation
      exact ⟨hown _ (List.mem_append_right _ List.mem_cons_self), hunique.mp hafter⟩
    · intro hright
      obtain ⟨hrequested, hnone⟩ := hright u K hc
      refine ⟨hunique.mpr hnone, ?_⟩
      intro x hx
      rcases List.mem_append.mp hx with hx | hx
      · exact h.proper.2 x hx
      · obtain rfl := List.mem_singleton.mp hx
        exact hrequested
    · intro v hv
      obtain ⟨v₀, hv₀, rfl⟩ := List.mem_map.mp hv
      have hlt := h.fresh v₀ hv₀
      split <;> exact hlt

theorem register_proper_iff (h : s.Good) (key : Text) (form : RegistrationForm) :
    ((s.after (.register key form)).Proper ↔ s.Rightful (.register key form)) ∧
      ∀ u ∈ (s.after (.register key form)).db.users,
        u.id < (s.after (.register key form)).db.userSeq := by
  have hdb : (s.after (.register key form)).db =
      Session.request (postRegistration key form) s.db := rfl
  have hlog : (s.after (.register key form)).confirmed = s.confirmed := rfl
  unfold Proper Own
  rw [hlog, hdb, Session.request_eq, postRegistration, Session.opened_work]
  cases hr : s.db.registrant key form with
  | none => exact ⟨iff_of_true h.proper fun new x hr' =>
      absurd (hr.symm.trans hr') (by simp), h.fresh⟩
  | some y =>
    obtain ⟨new, x⟩ := y
    dsimp only
    rw [Session.commit_persisted, Session.modify_work, Session.opened_work]
    obtain ⟨hid, hnew⟩ := registrant_spec hr
    have hunique : EmailDb.Unique
        { s.db with
          users := s.db.users ++ [new]
          userSeq := s.db.userSeq + 1
          applys := Table.erase RegistrationApply.id x.id s.db.applys } ↔ _ :=
      unique_append_iff h.proper.1 h.fresh hid hnew rfl
    refine ⟨⟨?_, ?_⟩, ?_⟩
    · rintro ⟨hafter, -⟩ new' x' hr'
      obtain ⟨rfl, rfl⟩ := Prod.mk.inj (Option.some.inj (hr.symm.trans hr'))
      exact hunique.mp hafter
    · exact fun hright => ⟨hunique.mpr (hright new x hr), h.proper.2⟩
    · exact Table.fresh_append h.fresh hid

/-- A request that leaves the users as they are. -/
theorem proper_quiet (h : s.Good) {r : EmailRequest} (hr : s.Rightful r)
    (husers : (s.after r).db.users = s.db.users) (hseq : (s.after r).db.userSeq = s.db.userSeq)
    (hlog : (s.after r).confirmed = s.confirmed) :
    ((s.after r).Proper ↔ s.Rightful r) ∧ ∀ u ∈ (s.after r).db.users,
      u.id < (s.after r).db.userSeq := by
  unfold Proper Own EmailDb.Unique
  rw [husers, hseq, hlog]
  exact ⟨iff_of_true h.proper hr, h.fresh⟩

theorem after_proper_iff (h : s.Good) (r : EmailRequest) :
    ((s.after r).Proper ↔ s.Rightful r) ∧ ∀ u ∈ (s.after r).db.users,
      u.id < (s.after r).db.userSeq := by
  cases r with
  | apply email acceptRules key =>
    obtain ⟨husers, hseq⟩ := apply_users email acceptRules key s.db
    exact proper_quiet h trivial husers hseq rfl
  | register key form => exact register_proper_iff h key form
  | request user email key now =>
    obtain ⟨husers, hseq⟩ := request_users user email key now s.db
    exact proper_quiet h trivial husers hseq rfl
  | confirm user authKey now => exact confirm_proper_iff h user authKey now

/-- **When a valid address has one owner**: as long as keys are confirmed by the users who requested
them, and an address becomes valid only while it is not valid for somebody else. The first request
that is not of this kind breaks it. -/
theorem valid_unique {s : Emails} (h : Machine.Reach Emails.next Emails.Rightful Emails.Good s) :
    s.Proper ∧ ∀ r, (s.after r).Proper ↔ s.Rightful r := by
  have hgood : s.Good := by
    refine h.inv (fun _ h0 => h0) ?_
    intro s r t hs hq hn
    obtain rfl := Except.ok.inj (Option.some.inj hn)
    obtain ⟨hiff, hfresh⟩ := after_proper_iff hs r
    exact ⟨hiff.mpr hq, hfresh⟩
  exact ⟨hgood.proper, fun r => (after_proper_iff hgood r).1⟩

/-- Two users without addresses. -/
def Emails.two : Emails where
  db :=
    { users := [{ id := 1, username := "ann".toList }, { id := 2, username := "bob".toList }]
      userSeq := 3 }

theorem two_good : Emails.two.Good := by
  refine ⟨⟨?_, nofun⟩, ?_⟩
  · intro u hu v _ e hue
    rcases List.mem_cons.mp hu with rfl | hu
    · exact absurd hue.1 (by decide)
    · obtain rfl := List.mem_singleton.mp hu
      exact absurd hue.1 (by decide)
  · intro u hu
    rcases List.mem_cons.mp hu with rfl | hu
    · decide
    · obtain rfl := List.mem_singleton.mp hu
      decide

/-- The address has been validated for none of these users. -/
def notYetValid (email : Text) (users : List User) : Bool :=
  users.all fun v => !(v.emailValid && v.email = some email)

/-- `Rightful` as a test. -/
def Emails.rightful (s : Emails) : EmailRequest → Bool
  | .confirm user authKey now =>
    (s.db.confirmer user authKey now).all fun (u, K) =>
      s.requestedBy K.id = some u.id && notYetValid K.authData (s.db.users.filter (·.id ≠ u.id))
  | .register key form => (s.db.registrant key form).all fun (_, x) =>
    notYetValid x.email s.db.users
  | _ => true

theorem notYetValid_spec {email : Text} {users : List User} (h : notYetValid email users = true) :
    ∀ v ∈ users, ¬ v.ValidAt email := by
  rintro v hv ⟨hvalid, hemail⟩
  have := List.all_eq_true.mp h v hv
  simp [hvalid, hemail] at this

theorem rightful_of_test (s : Emails) (r : EmailRequest)
    (h : s.rightful r = true) : s.Rightful r := by
  cases r with
  | apply email acceptRules key => trivial
  | request user email key now => trivial
  | register key form =>
    intro new x hr
    rw [Emails.rightful, hr, Option.all_some] at h
    exact notYetValid_spec h
  | confirm user authKey now =>
    intro u K hc
    rw [Emails.rightful, hc, Option.all_some] at h
    obtain ⟨hrequested, hnone⟩ := Bool.and_eq_true_iff.mp h
    refine ⟨of_decide_eq_true hrequested, fun v hv hne => ?_⟩
    exact notYetValid_spec hnone v (List.mem_filter.mpr ⟨hv, decide_eq_true hne⟩)

/-- Ann confirms the key she has asked for, and Carl completes a registration. -/
def confirmAndRegister : List EmailRequest :=
  [.request 1 "a@site.org".toList ['k'] 0, .confirm 1 ['k'] 1,
    .apply "c@site.org".toList true ['r'],
    .register ['r'] ⟨"carl".toList, "secret".toList, "secret".toList⟩]

/-- Both addresses are valid, and Bob still cannot get Ann's. -/
theorem valid_unique_confirmed :
    ∃ s, Machine.execIf Emails.next Emails.rightful confirmAndRegister Emails.two = some s ∧
      (s.db.users.filter User.emailValid).map User.email =
        [some "a@site.org".toList, some "c@site.org".toList] ∧
      s.Proper ∧ (s.after (.request 2 "a@site.org".toList ['l'] 2)).Proper := by
  obtain ⟨s, hrun⟩ : ∃ s,
      Machine.execIf Emails.next Emails.rightful confirmAndRegister Emails.two = some s := ⟨_, rfl⟩
  have hvalid : (Machine.execIf Emails.next Emails.rightful confirmAndRegister Emails.two).map
      (fun s => (s.db.users.filter User.emailValid).map User.email) =
        some [some "a@site.org".toList, some "c@site.org".toList] := by
    decide +kernel
  rw [hrun, Option.map_some] at hvalid
  obtain ⟨hproper, hiff⟩ := valid_unique (.of_execIf (.of_init two_good) rightful_of_test hrun)
  exact ⟨s, hrun, Option.some.inj hvalid, hproper,
    (hiff (.request 2 "a@site.org".toList ['l'] 2)).mpr trivial⟩

/-- Two users ask for the same address and both confirm; and somebody else brings a key. -/
theorem valid_twice :
    (∃ s, Machine.exec Emails.next [.request 1 "a@site.org".toList ['k'] 0,
      .request 2 "a@site.org".toList ['l'] 0,
        .confirm 1 ['k'] 1, .confirm 2 ['l'] 1] Emails.two = some s ∧ ¬ s.db.Unique) ∧
      ∃ s, Machine.exec Emails.next [.request 1 "a@site.org".toList ['k'] 0, .confirm 2 ['k'] 1]
        Emails.two = some s ∧
        ¬ s.Own := by
  refine ⟨⟨_, rfl, ?_⟩, _, rfl, ?_⟩
  · intro hunique
    have hsame := hunique ⟨1, "ann".toList, some "a@site.org".toList, true⟩ ?_
      ⟨2, "bob".toList, some "a@site.org".toList, true⟩ ?_ "a@site.org".toList ⟨rfl, rfl⟩ ⟨rfl, rfl⟩
    · revert hsame
      decide
    · decide
    · decide
  · intro hown
    have hfirst := hown (some 1, 2) (by decide)
    revert hfirst
    decide

end LuoYun.Web.Email
