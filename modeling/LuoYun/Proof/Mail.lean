import LuoYun.Lib.Machine
import LuoYun.Web.Mail

/-!
# Mails that are not lost

The counter of mails that names the files is changed in a session that nobody commits, so every mail
gets the same name (`accepted_name`). A mail that is accepted while the one before it waits takes
its file; and the thread deletes a file whether or not it could send it.

As long as neither happens the file of a mail that has not been sent is there (`MailInv.kept`), and
what the thread deletes is the file of the mail it has sent.
-/

namespace LuoYun.Web.Mail

/-- The name that goes with a counter. -/
def mailName (total : Option Int) : Bytes := dec (total.getD 0 + 1) ++ cstr "-mail"

namespace MailState

/-- No two mails that have not been sent have the same name. -/
def Distinct (s : MailState) : Prop :=
  ∀ x ∈ s.accepted, ∀ y ∈ s.accepted, x.2 = y.2 → x.1 ∉ s.sent → y.1 ∉ s.sent → x.1 = y.1

/-- A file is deleted when its mail has been sent. -/
def DeletedSent (s : MailState) : Prop := ∀ nr ∈ s.deleted, nr ∈ s.sent

/-- No mail has been accepted. -/
def Empty (s : MailState) : Prop :=
  s.files = [] ∧ s.sender = .idle ∧ s.accepted = [] ∧ s.deleted = []

/-- The file of the mail that the thread holds is there. -/
def Holds (s : MailState) : Sender → Prop
  | .loaded _ filename _ nr => ∃ f ∈ s.files, f.name = filename ∧ f.nr = nr
  | .deleting _ filename => ∃ f ∈ s.files, f.name = filename ∧ f.nr ∈ s.sent
  | _ => True

/-- Nothing is lost. -/
structure MailInv (s : MailState) : Prop where
  names : (s.files.map MailFile.name).Nodup
  kept : ∀ x ∈ s.accepted, x.1 ∈ s.sent ∨ ∃ f ∈ s.files, f.name = x.2 ∧ f.nr = x.1
  deleted : s.DeletedSent
  holds : s.Holds s.sender

variable {s : MailState}

theorem MailInv.distinct (h : s.MailInv) : s.Distinct := by
  intro x hx y hy hname hxs hys
  obtain ⟨f, hf, hfn, hfx⟩ := (h.kept x hx).resolve_left hxs
  obtain ⟨g, hg, hgn, hgy⟩ := (h.kept y hy).resolve_left hys
  have hfg : f = g := List.inj_on_of_nodup_map h.names hf hg (by rw [hfn, hgn, hname])
  rw [← hfx, ← hgy, hfg]

theorem MailInv.init (h : s.Empty) : s.MailInv := by
  obtain ⟨hfiles, hsender, haccepted, hdeleted⟩ := h
  refine ⟨?_, ?_, ?_, ?_⟩
  · rw [hfiles]
    exact List.nodup_nil
  · rw [haccepted]
    exact nofun
  · rw [DeletedSent, hdeleted]
    exact nofun
  · rw [hsender]
    trivial

/-! ## The events -/

/-- The thread moves on to where it holds what is there. -/
theorem MailInv.goto (h : s.MailInv) {sender : Sender} (hs : s.Holds sender) :
    (s.goto sender).MailInv :=
  ⟨h.names, h.kept, h.deleted, hs⟩

/-- **A mail gets a file of its own.** -/
theorem MailInv.openFile (h : s.MailInv) {eml : Email} {name : Bytes}
    (hname : name ∉ s.files.map MailFile.name) :
    (s.openFile eml name).MailInv := by
  have hothers : Table.erase MailFile.name name s.files = s.files := by
    refine List.filter_eq_self.mpr fun f hf => decide_eq_true fun he => ?_
    exact hname (he ▸ List.mem_map_of_mem hf)
  have hfiles : (s.openFile eml name).files =
      s.files ++ [{ name := name, eml := eml, nr := s.accepted.length }] := by
    rw [MailState.openFile, hothers]
  have hsub : ∀ f ∈ s.files, f ∈ (s.openFile eml name).files := by
    intro f hf
    rw [hfiles]
    exact List.mem_append_left _ hf
  refine ⟨?_, ?_, h.deleted, ?_⟩
  · rw [hfiles]
    exact Table.nodup_append_new h.names hname
  · intro x hx
    rcases List.mem_append.mp hx with hx | hx
    · rcases h.kept x hx with hsent | ⟨f, hf, hfx⟩
      · exact .inl hsent
      · exact .inr ⟨f, hsub f hf, hfx⟩
    · obtain rfl := List.mem_singleton.mp hx
      refine .inr ⟨{ name := name, eml := eml, nr := s.accepted.length }, ?_, rfl, rfl⟩
      rw [hfiles]
      exact List.mem_append_right _ List.mem_cons_self
  · have hholds := h.holds
    show (s.openFile eml name).Holds s.sender
    cases hs : s.sender with
    | loaded l filename eml' nr =>
      rw [hs] at hholds
      obtain ⟨f, hf, hfx⟩ := hholds
      exact ⟨f, hsub f hf, hfx⟩
    | deleting l filename =>
      rw [hs] at hholds
      obtain ⟨f, hf, hfx⟩ := hholds
      exact ⟨f, hsub f hf, hfx⟩
    | _ => trivial

theorem MailInv.closeFile (h : s.MailInv) (nr : Nat) : (s.closeFile nr).MailInv := by
  have hname : ∀ f : MailFile, (if f.nr = nr then { f with complete := true } else f).name =
    f.name := by
    intro f
    split <;> rfl
  have hnr : ∀ f : MailFile, (if f.nr = nr then { f with complete := true } else f).nr = f.nr := by
    intro f
    split <;> rfl
  refine ⟨?_, ?_, h.deleted, ?_⟩
  · unfold MailState.closeFile
    rw [List.map_map]
    exact (List.map_congr_left fun f _ => hname f) ▸ h.names
  · intro x hx
    rcases h.kept x hx with hsent | ⟨f, hf, hfx⟩
    · exact .inl hsent
    · exact .inr ⟨_, List.mem_map_of_mem hf, by rw [hname, hnr]; exact hfx⟩
  · have hholds := h.holds
    show (s.closeFile nr).Holds s.sender
    cases hs : s.sender with
    | loaded l filename eml' n =>
      rw [hs] at hholds
      obtain ⟨f, hf, hfx⟩ := hholds
      exact ⟨_, List.mem_map_of_mem hf, by rw [hname, hnr]; exact hfx⟩
    | deleting l filename =>
      rw [hs] at hholds
      obtain ⟨f, hf, hfx⟩ := hholds
      exact ⟨_, List.mem_map_of_mem hf, by rw [hname, hnr]; exact hfx⟩
    | _ => trivial

/-- **The mail that has been sent is the one in the file.** -/
theorem MailInv.sent (h : s.MailInv) {l : List Bytes} {filename : Bytes} {eml : Email} {nr : Nat}
    (hs : s.sender = .loaded l filename eml nr) :
    ({ s with sent := s.sent ++ [nr] }.goto (.deleting l filename)).MailInv := by
  have hholds := h.holds
  rw [hs] at hholds
  obtain ⟨f, hf, hname, hnr⟩ := hholds
  refine ⟨h.names, ?_, ?_, f, hf, hname, ?_⟩
  · exact fun x hx => (h.kept x hx).imp (List.mem_append_left _) id
  · exact fun n hn => List.mem_append_left _ (h.deleted n hn)
  · rw [hnr]
    exact List.mem_append_right _ List.mem_cons_self

theorem MailInv.deleteEmail (h : s.MailInv) {l : List Bytes} {filename : Bytes}
    (hs : s.sender = .deleting l filename) :
    ((s.deleteEmail filename).goto (.sending l)).MailInv := by
  have hholds := h.holds
  rw [hs] at hholds
  obtain ⟨f, hf, hname, hsent⟩ := hholds
  -- there is no other file of this name
  have hall : ∀ g ∈ s.files, g.name = filename → g.nr ∈ s.sent := by
    intro g hg hgn
    have hfg : f = g := List.inj_on_of_nodup_map h.names hf hg (by rw [hname, hgn])
    exact hfg ▸ hsent
  refine ⟨h.names.sublist (List.filter_sublist.map _), ?_, ?_, trivial⟩
  · intro x hx
    rcases h.kept x hx with hx | ⟨g, hg, hgn, hgx⟩
    · exact .inl hx
    · by_cases hgone : g.name = filename
      · exact .inl (hgx ▸ hall g hg hgone)
      · exact .inr ⟨g, List.mem_filter.mpr ⟨hg, decide_eq_true hgone⟩, hgn, hgx⟩
  · intro n hn
    rcases List.mem_append.mp hn with hn | hn
    · exact h.deleted n hn
    · obtain ⟨g, hg, rfl⟩ := List.mem_map.mp hn
      obtain ⟨hg, hgn⟩ := List.mem_filter.mp hg
      exact hall g hg (of_decide_eq_true hgn)

theorem load_some {filename : Bytes} {f : MailFile} (h : s.load filename = some f) :
    f ∈ s.files ∧ f.name = filename := by
  obtain ⟨hfind, -⟩ := Option.filter_eq_some_iff.mp h
  have hdec := List.find?_some hfind
  exact ⟨List.mem_of_find?_eq_some hfind, of_decide_eq_true hdec⟩

end MailState

/-! ## The name -/

variable {render : Option Text → Option Text → Text → Option Text}

/-- **The counter that names a mail is the one before it**: what is committed is 0 the first time,
and nothing after that. -/
theorem mailtoAddress_spec {msg : MailMsg} {db : MailDb} {session : Session MailDb}
    {eml : Email} {name : Bytes}
    (h : mailtoAddress render msg (Session.opened db) = (session, some (eml, name))) :
    name = mailName db.total ∧ session.remove.work.total = some (db.total.getD 0) := by
  unfold mailtoAddress at h
  dsimp only at h
  split at h
  · cases h
  · obtain ⟨t, ht, hpersisted⟩ : ∃ t : Session MailDb,
        t = (if (Session.opened db).work.total = none then
        ((Session.opened db).modify fun db => { db with total := some 0 }).commit
          else Session.opened db) ∧
        t.persisted.total = some (db.total.getD 0) ∧ t.work.total = some (db.total.getD 0) := by
      refine ⟨_, rfl, ?_⟩
      cases hd : db.total with
      | none =>
        have hnone : (Session.opened db).work.total = none := hd
        rw [if_pos hnone]
        exact ⟨rfl, rfl⟩
      | some n =>
        have hsome : (Session.opened db).work.total ≠ none :=
          fun hn => Option.some_ne_none n (hd.symm.trans hn)
        rw [if_neg hsome]
        exact ⟨hd, hd⟩
    rw [← ht] at h
    split at h
    · cases h
    · split at h
      · cases h
      · obtain ⟨rfl, hmail⟩ := Prod.mk.inj h
        obtain ⟨-, rfl⟩ := Prod.mk.inj (Option.some.inj hmail)
        rw [hpersisted.2]
        exact ⟨rfl, hpersisted.1⟩

namespace MailState

/-- A mail is accepted when there is no file of its name, and `smtp.sendmail` succeeds. -/
def Careful (s : MailState) : MailEvent → Prop
  | .mailto _ => mailName s.db.total ∉ s.files.map MailFile.name
  | .sendmail ok => ok = true
  | _ => True

variable {s t : MailState}

/-- A mail that is accepted: what was there, and a file for it. -/
theorem next_mailto {msg : MailMsg} (h : s.next render (.mailto msg) = some (.ok t)) :
    ∃ db eml, db.total = some (s.db.total.getD 0) ∧
      t = { s with db := db }.openFile eml (mailName s.db.total) := by
  dsimp only [MailState.next] at h
  split at h
  · rename_i session eml name hwriting hmail
    obtain ⟨rfl, htotal⟩ := mailtoAddress_spec hmail
    exact ⟨session.remove.work, eml, htotal, (Except.ok.inj (Option.some.inj h)).symm⟩
  · cases h

/-- **A careful event loses nothing.** -/
theorem MailInv.next (h : s.MailInv) {ev : MailEvent} (hcareful : s.Careful ev)
    (hn : s.next render ev = some (.ok t)) : t.MailInv := by
  cases ev with
  | mailto msg =>
    obtain ⟨db, eml, -, rfl⟩ := next_mailto hn
    have hdb : MailInv { s with db := db } := ⟨h.names, h.kept, h.deleted, h.holds⟩
    exact hdb.openFile hcareful
  | close =>
    obtain ⟨nr, -, he⟩ := Option.map_eq_some_iff.mp hn
    obtain rfl := Except.ok.inj he
    exact h.closeFile nr
  | list emailList =>
    dsimp only [MailState.next] at hn
    split at hn
    · obtain rfl := Except.ok.inj (Option.some.inj hn)
      refine h.goto ?_
      split <;> trivial
    · cases hn
  | connect ok =>
    dsimp only [MailState.next] at hn
    split at hn
    · obtain rfl := Except.ok.inj (Option.some.inj hn)
      refine h.goto ?_
      split <;> trivial
    · cases hn
  | pop =>
    dsimp only [MailState.next] at hn
    split at hn
    · split at hn
      · obtain rfl := Except.ok.inj (Option.some.inj hn)
        exact h.goto trivial
      · split at hn
        · obtain rfl := Except.ok.inj (Option.some.inj hn)
          exact h.goto trivial
        · rename_i f hload
          obtain rfl := Except.ok.inj (Option.some.inj hn)
          obtain ⟨hf, hname⟩ := load_some hload
          exact h.goto ⟨f, hf, hname, rfl⟩
    · cases hn
  | sendmail ok =>
    -- when it fails the sender goes on to delete the file
    obtain rfl : ok = true := hcareful
    dsimp only [MailState.next] at hn
    split at hn
    · rename_i l filename eml nr hs
      obtain rfl := Except.ok.inj (Option.some.inj hn)
      exact h.sent hs
    · cases hn
  | delete =>
    dsimp only [MailState.next] at hn
    split at hn
    · rename_i l filename hs
      obtain rfl := Except.ok.inj (Option.some.inj hn)
      exact h.deleteEmail hs
    · cases hn
  | quit ok =>
    dsimp only [MailState.next] at hn
    split at hn
    · obtain rfl := Except.ok.inj (Option.some.inj hn)
      refine h.goto ?_
      split <;> trivial
    · cases hn
  | stop =>
    dsimp only [MailState.next] at hn
    split at hn
    · obtain rfl := Except.ok.inj (Option.some.inj hn)
      exact h.goto trivial
    · cases hn

/-! ## Runs -/

/-- Mails are accepted by `mailto_address` only. -/
theorem next_accepted {ev : MailEvent} (hev : ∀ msg, ev ≠ .mailto msg)
    (hn : s.next render ev = some (.ok t)) :
    t.accepted = s.accepted ∧ t.db = s.db := by
  cases ev with
  | mailto msg => exact absurd rfl (hev msg)
  | close =>
    obtain ⟨nr, -, he⟩ := Option.map_eq_some_iff.mp hn
    obtain rfl := Except.ok.inj he
    exact ⟨rfl, rfl⟩
  | _ =>
    dsimp only [MailState.next] at hn
    repeat' split at hn
    all_goals cases hn
    all_goals exact ⟨rfl, rfl⟩

/-- **Every mail has the same name**, in any run. -/
theorem accepted_name (h : Machine.Reach (MailState.next render) Machine.Always MailState.Empty s) :
    ∀ x ∈ s.accepted, x.2 = mailName s.db.total := by
  refine h.inv (I := fun s => ∀ x ∈ s.accepted, x.2 = mailName s.db.total) ?_ ?_
  · rintro s ⟨-, -, haccepted, -⟩
    rw [haccepted]
    exact nofun
  · intro s ev t hs _ hn
    by_cases hev : ∃ msg, ev = .mailto msg
    · obtain ⟨msg, rfl⟩ := hev
      obtain ⟨db, eml, htotal, rfl⟩ := next_mailto hn
      -- the counter that is stored is 0 or what it was, and both make the same name
      have hname : mailName db.total = mailName s.db.total := by
        rw [mailName, htotal]
        rfl
      intro x hx
      show x.2 = mailName db.total
      rw [hname]
      rcases List.mem_append.mp hx with hx | hx
      · exact hs x hx
      · obtain rfl := List.mem_singleton.mp hx
        rfl
    · obtain ⟨haccepted, hdb⟩ := next_accepted (fun msg he => hev ⟨msg, he⟩) hn
      rw [haccepted, hdb]
      exact hs

/-- **When no mail is lost**: as long as mails are accepted only when there is no file of their
name, and `smtp.sendmail` does not fail, mails that have not been sent have different names, and the
files that are deleted are those of mails that have been sent. -/
theorem no_mail_lost (render : Option Text → Option Text → Text → Option Text) {s : MailState}
    (h : Machine.Reach (MailState.next render) MailState.Careful MailState.Empty s) :
    s.Distinct ∧ s.DeletedSent := by
  have hinv : s.MailInv :=
    h.inv (fun _ h0 => .init h0) fun _ _ _ hs hq hn => hs.next hq hn
  exact ⟨hinv.distinct, hinv.deleted⟩

/-- A template that is only the body. -/
def bodyOnly (_ body : Option Text) (_ : Text) : Option Text := body

/-- A mail to an address. -/
def toAnn : MailMsg := { address := some "ann@site.org".toList, body := some "hello".toList }

/-- `Careful`, as a test. -/
def careful (s : MailState) : MailEvent → Bool
  | .mailto _ => mailName s.db.total ∉ s.files.map MailFile.name
  | .sendmail ok => ok
  | _ => true

theorem careful_spec (s : MailState) (ev : MailEvent) (h : s.careful ev = true) : s.Careful ev := by
  cases ev with
  | mailto msg =>
    have hdec : decide (mailName s.db.total ∉ s.files.map MailFile.name) = true := h
    have hname := of_decide_eq_true hdec
    exact hname
  | sendmail ok => exact h
  | _ => trivial

/-- Two mails, of which the second is accepted when the first has been sent. -/
theorem no_mail_lost_two :
    ∃ s, Machine.execIf (MailState.next bodyOnly) careful
      [.mailto toAnn, .close, .list [cstr "1-mail"], .connect true,
        .pop, .sendmail true, .delete, .mailto toAnn] {} = some s ∧ s.Distinct ∧ s.DeletedSent := by
  obtain ⟨s, hrun⟩ : ∃ s, Machine.execIf (MailState.next bodyOnly) careful [.mailto toAnn, .close,
      .list [cstr "1-mail"], .connect true, .pop, .sendmail true, .delete,
        .mailto toAnn] {} = some s :=
    Option.isSome_iff_exists.mp (rfl)
  have h0 : MailState.Empty {} := ⟨rfl, rfl, rfl, rfl⟩
  exact ⟨s, hrun, no_mail_lost bodyOnly ((Machine.Reach.of_init h0).of_execIf careful_spec hrun)⟩

/-- A second mail takes the file of the first one; and a mail that cannot be sent is deleted. -/
theorem mail_lost :
    (∃ s, Machine.exec (MailState.next bodyOnly) [.mailto toAnn, .close, .mailto toAnn] {} =
      some s ∧ ¬ s.Distinct) ∧
      ∃ s, Machine.exec (MailState.next bodyOnly)
        [.mailto toAnn, .close, .list [cstr "1-mail"], .connect true, .pop,
        .sendmail false, .delete] {} = some s ∧ ¬ s.DeletedSent := by
  refine ⟨⟨_, rfl, ?_⟩, _, rfl, ?_⟩
  · intro hdistinct
    have hsame := hdistinct (0, cstr "1-mail") (by decide) (1, cstr "1-mail") (by decide) rfl
      (by decide) (by decide)
    revert hsame
    decide
  · intro hdeleted
    have hzero := hdeleted 0 (by decide)
    revert hzero
    decide

end MailState

end LuoYun.Web.Mail
