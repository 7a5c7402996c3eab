import LuoYun.Lib.Machine
import LuoYun.Web.Message

/-!
# The counter of unread messages

`send` tells the receiver of a message once, and makes one copy of it that counts. `View` and
`Delete` take one off the counter for any copy that is unread. That is right for the copy in the
inbox; the copy in the outbox never counted, and the counter is wrong afterwards unless it was 0 and
stays there.
-/

namespace LuoYun.Web.Mailbox

/-- An unread message in the inbox of `user`. -/
def Message.pending (user : Int) (m : Message) : Bool :=
  m.isinbox && m.receiverId = some user && !m.isread

namespace MessageDb

/-- So many are unread in the inbox of `user`. -/
def unread (db : MessageDb) (user : Int) : Int := db.messages.countP (Message.pending user)

/-- The counters agree with the inboxes. -/
def Counted (db : MessageDb) : Prop := ∀ u ∈ db.users, u.notice = db.unread u.id

/-- So they do, in a database whose keys and references are in order. -/
structure Exact (db : MessageDb) : Prop where
  counted : db.Counted
  fits : db.fits = true
  ids : (db.messages.map Message.id).Nodup
  fresh : ∀ m ∈ db.messages, m.id < db.seq

variable {db : MessageDb}

theorem unread_nonneg (user : Int) : 0 ≤ db.unread user := Int.natCast_nonneg _

/-! ## Notices -/

theorem notify_notice (u : User) (n : Int) :
    (u.notify n).notice = if u.notice + n < 0 then 0 else u.notice + n := by
  unfold User.notify
  dsimp only
  by_cases h : u.notice = 0
  · rw [if_neg (not_not.mpr h), h, Int.zero_add]
  · rw [if_pos h]

/-- **When the counters still agree**: the unread messages of `r` have become `d` more, and `r` has
been told of `n` more. -/
theorem counted_notify (h : db.Counted) {db' : MessageDb} {r n d : Int}
    (husers : db'.users = (db.notify r n).users)
    (hunread : ∀ u, db'.unread u = db.unread u + if u = r then d else 0) :
    db'.Counted ↔ ∀ u ∈ db.users, u.id = r → (u.notify n).notice = u.notice + d := by
  unfold Counted
  rw [husers]
  constructor
  · intro h' u hu hr
    have hmem : u.notify n ∈ (db.notify r n).users := List.mem_map.mpr ⟨u, hu, if_pos hr⟩
    have hid : (u.notify n).id = u.id := rfl
    rw [h' _ hmem, hunread, hid, if_pos hr, h u hu]
  · intro hr u' hu'
    obtain ⟨u, hu, rfl⟩ := List.mem_map.mp hu'
    by_cases hur : u.id = r
    · rw [if_pos hur, hr u hu hur, hunread]
      have hid : (u.notify n).id = u.id := rfl
      rw [hid, if_pos hur, h u hu]
    · rw [if_neg hur, hunread, if_neg hur, Int.add_zero, h u hu]

/-- Nobody is told of anything. -/
theorem counted_quiet (h : db.Counted) {db' : MessageDb} (husers : db'.users = db.users)
    (hunread : ∀ u, db'.unread u = db.unread u) : db'.Counted := by
  intro u hu
  rw [hunread]
  exact h u (husers ▸ hu)

/-! ## Messages -/

theorem unread_addMessage (replyId : Option Int) (sender receiver text : Int)
    (isinbox : Bool) (u : Int) :
    (db.addMessage replyId sender receiver text isinbox).unread u =
      db.unread u + if isinbox = true ∧ u = receiver then 1 else 0 := by
  rw [addMessage, unread, List.countP_append, List.countP_singleton, unread, Message.pending]
  by_cases hr : u = receiver
  · cases isinbox <;> simp [hr]
  · simp [hr, Ne.symm hr]

/-- A change of one message, counted. -/
theorem unread_update (hids : (db.messages.map Message.id).Nodup)
    {m : Message} (hm : m ∈ db.messages) (f : Message → Message) (u : Int) :
    (db.update m f).unread u + (if Message.pending u m then 1 else 0) =
      db.unread u + if Message.pending u (f m) then 1 else 0 := by
  have hcount := Table.countP_update hids hm f (Message.pending u)
  rw [update, unread, unread]
  dsimp only
  by_cases hold : Message.pending u m = true <;> by_cases hnew : Message.pending u (f m) = true <;>
    simp only [hold, hnew, if_true, if_false, Bool.false_eq_true] at hcount ⊢ <;> omega

/-- An unread message of an inbox is marked. -/
theorem unread_markRead (hids : (db.messages.map Message.id).Nodup) {m : Message}
    (hm : m ∈ db.messages) (u : Int) :
    (db.update m fun m => { m with isread := true }).unread u +
      (if Message.pending u m then 1 else 0) =
      db.unread u := by
  have hread : Message.pending u { m with isread := true } = false := Bool.and_false _
  have hcount := unread_update hids hm (fun m => { m with isread := true }) u
  rw [hread] at hcount
  simpa using hcount

/-- A quote of the user's own is taken back. -/
def unquoted (user id : Int) (q : Message) : Message :=
  if q.replyId = some id ∧ q.involves user then { q with replyId := none } else q

theorem unquoted_id (user id : Int) (q : Message) : (unquoted user id q).id = q.id := by
  unfold unquoted
  split <;> rfl

theorem unquoted_pending (user id u : Int) (q : Message) :
    Message.pending u (unquoted user id q) = Message.pending u q := by
  unfold unquoted
  split <;> rfl

theorem unquote_messages (user : Int) (m : Message) :
    (db.unquote user m).messages = db.messages.map (unquoted user m.id) := rfl

theorem map_id_unquote (user : Int) (m : Message) :
    (db.unquote user m).messages.map Message.id = db.messages.map Message.id := by
  rw [unquote_messages, List.map_map]
  exact List.map_congr_left fun q _ => unquoted_id user m.id q

theorem unread_remove (hids : (db.messages.map Message.id).Nodup)
    {m : Message} (hm : m ∈ db.messages) (user : Int) (x : Nat) (u : Int) :
    ((db.unquote user m).remove m x).unread u + (if Message.pending u m then 1 else 0) =
      db.unread u := by
  have hmem : unquoted user m.id m ∈ (db.unquote user m).messages := List.mem_map_of_mem hm
  have hcount := Table.countP_erase ((map_id_unquote user m).symm ▸ hids) hmem (Message.pending u)
  rw [unquoted_pending, unquoted_id] at hcount
  have hsame : (db.unquote user m).messages.countP (Message.pending u) =
      db.messages.countP (Message.pending u) := by
    rw [unquote_messages, List.countP_map]
    refine List.countP_congr fun q _ => ?_
    rw [Function.comp_apply, unquoted_pending]
  rw [hsame] at hcount
  rw [remove, unread, unread]
  dsimp only
  by_cases hp : Message.pending u m = true
  · rw [if_pos hp] at *
    omega
  · rw [if_neg hp] at *
    omega

/-! ## What the database takes -/

theorem fits_iff : db.fits = true ↔ (∀ u ∈ db.users, fitsInteger u.notice = true) ∧
    (∀ t ∈ db.texts, t.subject.length ≤ 256) ∧
      ∀ m ∈ db.messages, ∀ r, m.replyId = some r → r ∈ db.messages.map Message.id := by
  rw [fits, Bool.and_eq_true, Bool.and_eq_true, and_assoc]
  simp only [List.all_eq_true, decide_eq_true_eq, Option.all_eq_true, List.any_eq_true,
    List.mem_map]

theorem fitsInteger_notify {u : User} (h : fitsInteger u.notice = true) :
    fitsInteger (u.notify (-1)).notice = true := by
  rw [notify_notice]
  unfold fitsInteger at *
  simp only [Bool.and_eq_true, decide_eq_true_eq] at *
  split <;> omega

theorem fits_notify (h : db.fits = true) (r : Int) : (db.notify r (-1)).fits = true := by
  rw [fits_iff] at *
  refine ⟨?_, h.2⟩
  intro u hu
  obtain ⟨u₀, hu₀, rfl⟩ := List.mem_map.mp hu
  split
  · exact fitsInteger_notify (h.1 u₀ hu₀)
  · exact h.1 u₀ hu₀

theorem fits_markRead (h : db.fits = true) (m : Message) :
    (db.update m fun m => { m with isread := true }).fits = true := by
  rw [fits_iff] at *
  refine ⟨h.1, h.2.1, ?_⟩
  intro n hn r hr
  obtain ⟨n₀, hn₀, rfl⟩ := List.mem_map.mp hn
  have hold : n₀.replyId = some r := by
    split at hr <;> exact hr
  have hids : (db.update m fun m => { m with isread := true }).messages.map Message.id =
      db.messages.map Message.id := Table.map_key_update (by intro; rfl)
  rw [hids]
  exact h.2.2 n₀ hn₀ r hold

/-- Somebody else's message is a reply to this one. -/
def quotedByOthers (db : MessageDb) (user : Int) (m : Message) : Prop :=
  ∃ q ∈ db.messages, q.id ≠ m.id ∧ q.replyId = some m.id ∧ q.involves user = false

/-- **What stands against a deletion** is a reply that is not the user's own. -/
theorem fits_remove (h : db.fits = true) (user : Int) (m : Message) (x : Nat) :
    ((db.unquote user m).remove m x).fits = true ↔ ¬ db.quotedByOthers user m := by
  rw [fits_iff] at *
  obtain ⟨husers, htexts, hreplies⟩ := h
  constructor
  · rintro ⟨-, -, hafter⟩ ⟨q, hq, hne, hreply, hother⟩
    -- the reply is not the user's, so it still names the message, which is gone
    have hsame : unquoted user m.id q = q := by
      rw [unquoted, if_neg (by rw [hother]; exact fun hc => Bool.noConfusion hc.2)]
    have hmem : q ∈ ((db.unquote user m).remove m x).messages := by
      refine List.mem_filter.mpr ⟨?_, decide_eq_true hne⟩
      exact hsame ▸ List.mem_map_of_mem hq
    obtain ⟨n, hn, hid⟩ := List.mem_map.mp (hafter q hmem m.id hreply)
    exact of_decide_eq_true (List.mem_filter.mp hn).2 hid
  · intro hnone
    refine ⟨husers, ?_, ?_⟩
    · intro t ht
      have hsub : ((db.unquote user m).remove m x).texts ⊆ db.texts := by
        unfold remove
        dsimp only
        split
        · exact List.filter_sublist.subset
        · exact fun _ h => h
      exact htexts t (hsub ht)
    · intro n hn r hr
      obtain ⟨hn, hne⟩ := List.mem_filter.mp hn
      obtain ⟨q, hq, rfl⟩ := List.mem_map.mp hn
      rw [← unquoted, unquoted_id] at hne
      rw [← unquoted] at hr
      have hreply : q.replyId = some r ∧ ¬ (q.replyId = some m.id ∧ q.involves user = true) := by
        unfold unquoted at hr
        split at hr
        · cases hr
        · rename_i hkept
          exact ⟨hr, hkept⟩
      -- what a message still names is not the one that is gone
      have hrm : r ≠ m.id := by
        rintro rfl
        refine hnone ⟨q, hq, of_decide_eq_true hne, hreply.1, ?_⟩
        rw [← Bool.not_eq_true]
        exact fun hinv => hreply.2 ⟨hreply.1, hinv⟩
      obtain ⟨n, hn, hid⟩ := List.mem_map.mp (map_id_unquote user m ▸ hreplies q hq r hreply.1)
      exact List.mem_map.mpr ⟨n, List.mem_filter.mpr ⟨hn, decide_eq_true (hid ▸ hrm)⟩, hid⟩

/-! ## The requests -/

theorem myMessage_some {user id : Int} {m : Message} (h : db.myMessage user id = some m) :
    m ∈ db.messages :=
  List.mem_of_find?_eq_some (Option.filter_eq_some_iff.mp h).1

theorem receiver_some {m : Message} {r : User} (h : db.receiver m = some r) :
    r ∈ db.users ∧ m.receiverId = some r.id := by
  obtain ⟨i, hi, hfind⟩ := Option.bind_eq_some_iff.mp h
  have hid : r.id = i := by
    have hdec := List.find?_some hfind
    exact of_decide_eq_true hdec
  exact ⟨List.mem_of_find?_eq_some hfind, hid ▸ hi⟩

/-- **One is taken off the counter** for an unread message: this is right if the message was
counted, or if there is nothing to take. -/
theorem counted_take (h : db.Counted) {m : Message} {r : User}
    (hr : db.receiver m = some r) (hnew : m.isread = false) {db' : MessageDb}
    (husers : db'.users = (db.notify r.id (-1)).users)
    (hunread : ∀ u, db'.unread u + (if Message.pending u m then 1 else 0) = db.unread u) :
    db'.Counted ↔ m.isinbox = true ∨ r.notice = 0 := by
  obtain ⟨hmem, hid⟩ := receiver_some hr
  have hpending : ∀ u, Message.pending u m = true ↔ m.isinbox = true ∧ u = r.id := by
    intro u
    unfold Message.pending
    rw [hid, hnew]
    simp only [Bool.and_eq_true, decide_eq_true_eq, Option.some.injEq, Bool.not_false, and_true]
    exact and_congr_right fun _ => eq_comm
  have hsame : ∀ u ∈ db.users, u.id = r.id → u.notice = r.notice := by
    intro u hu he
    rw [h u hu, h r hmem, he]
  cases hbox : m.isinbox with
  | true =>
    have hd : ∀ u, db'.unread u = db.unread u + if u = r.id then -1 else 0 := by
      intro u
      have hu := hunread u
      by_cases he : u = r.id
      · rw [if_pos ((hpending u).mpr ⟨hbox, he⟩)] at hu
        rw [if_pos he]
        omega
      · rw [if_neg (fun hc => he ((hpending u).mp hc).2)] at hu
        rw [if_neg he]
        omega
    -- it is one of those that are counted
    have hpos : 0 < r.notice := by
      have hu := hunread r.id
      have hge : 0 ≤ db'.unread r.id := unread_nonneg r.id
      rw [if_pos ((hpending r.id).mpr ⟨hbox, rfl⟩)] at hu
      rw [h r hmem]
      omega
    rw [counted_notify h husers hd]
    refine ⟨fun _ => .inl rfl, fun _ u hu he => ?_⟩
    have hnotice := hsame u hu he
    rw [notify_notice, if_neg (by omega)]
  | false =>
    -- it never counted, so the counter must have nothing to lose
    have hd : ∀ u, db'.unread u = db.unread u + if u = r.id then 0 else 0 := by
      intro u
      have hu := hunread u
      rw [if_neg (fun hc => Bool.noConfusion (hbox.symm.trans ((hpending u).mp hc).1))] at hu
      rw [ite_self]
      omega
    rw [counted_notify h husers hd]
    have hge : 0 ≤ db.unread r.id := unread_nonneg r.id
    constructor
    · intro hall
      have hnotice := hall r hmem rfl
      have hcount := h r hmem
      rw [notify_notice] at hnotice
      right
      split at hnotice <;> omega
    · rintro (hc | hzero) u hu he
      · cases hc
      · have hnotice := hsame u hu he
        rw [notify_notice, if_pos (by omega)]
        omega

theorem Exact.addText (h : db.Exact) {subject body : Text}
    (hfits : (db.addText subject body).fits = true) :
    (db.addText subject body).Exact :=
  ⟨counted_quiet h.counted rfl fun _ => rfl, hfits, h.ids, h.fresh⟩

/-- A new message has a number of its own. -/
theorem ids_addMessage (hids : (db.messages.map Message.id).Nodup)
    (hfresh : ∀ m ∈ db.messages, m.id < db.seq)
    (replyId : Option Int) (sender receiver text : Int) (isinbox : Bool) :
    let db' := db.addMessage replyId sender receiver text isinbox
    (db'.messages.map Message.id).Nodup ∧ ∀ m ∈ db'.messages, m.id < db'.seq := by
  exact Table.nodup_append_next hids hfresh rfl

/-- **Sending keeps the counters**: the receiver is told of the one copy that counts. -/
theorem Exact.send (h : db.Exact) {replyId : Option Int} {sender receiver text : Int}
    (hfits : (db.send replyId sender receiver text).fits = true) :
    (db.send replyId sender receiver text).Exact := by
  obtain ⟨hids1, hfresh1⟩ := ids_addMessage h.ids h.fresh replyId sender receiver text true
  obtain ⟨hids2, hfresh2⟩ := ids_addMessage hids1 hfresh1 replyId sender receiver text false
  have hcounted : (db.send replyId sender receiver text).Counted := by
    refine (counted_notify (r := receiver) (n := 1) (d := 1) h.counted ?_ ?_).mpr ?_
    · unfold MessageDb.send
      dsimp only
      split <;> rfl
    · intro u
      have hin := @unread_addMessage db replyId sender receiver text true u
      have hout := @unread_addMessage (db.addMessage replyId sender receiver text true)
        replyId sender receiver text
        false u
      unfold MessageDb.send
      dsimp only
      split
      · show ((db.addMessage replyId sender receiver text true).addMessage
            replyId sender receiver text
          false).unread u = _
        rw [hout, hin]
        simp
      · -- a message to oneself has no second copy
        show (db.addMessage replyId sender receiver text true).unread u = _
        rw [hin]
        simp
    · intro u hu _
      have hge : 0 ≤ db.unread u.id := unread_nonneg u.id
      have hnotice := h.counted u hu
      rw [notify_notice, if_neg (by omega)]
  refine ⟨hcounted, hfits, ?_, ?_⟩
  · unfold MessageDb.send
    dsimp only
    split
    · exact hids2
    · exact hids1
  · unfold MessageDb.send
    dsimp only
    split
    · exact hfresh2
    · exact hfresh1

end MessageDb

open MessageDb

variable {db : MessageDb}

theorem new_exact (h : db.Exact) (user : Int) (form : MessageForm) :
    (Session.request (new user form) db).Exact := by
  rw [Session.request_eq, new]
  split
  · rw [Session.opened_work]
    cases db.users.find? (·.username = form.toUser) with
    | none => exact h
    | some receiver =>
      dsimp only
      rw [Session.commitThen_persisted]
      split
      · rename_i hfits
        -- the text is committed before the copies, and stays when they are refused
        have htext := h.addText hfits
        rw [Session.commitIf_persisted]
        split
        · exact htext.send (by assumption)
        · exact htext
      · exact h
  · exact h

theorem reply_exact (reSubject : Text → Text) (h : db.Exact) (user id : Int) (body : Text) :
    (Session.request (reply reSubject user id body) db).Exact := by
  rw [Session.request_eq, reply, Session.opened_work]
  cases db.myMessage user id with
  | none => exact h
  | some m =>
    dsimp only
    split
    · exact h
    · cases db.texts.find? (·.id = m.textId) with
      | none => exact h
      | some t =>
        dsimp only
        rw [Session.commitThen_persisted]
        split
        · rename_i hfits
          have htext := h.addText hfits
          split
          · exact htext
          · rw [Session.commitIf_persisted]
            split
            · exact htext.send (by assumption)
            · exact htext
        · exact h

/-- The request does not count a message off that was never counted. -/
def Harmless (db : MessageDb) : MessageRequest → Prop
  | .view user id => ∀ m r, db.myMessage user id = some m →
      db.receiver m = some r → m.isread = false →
      m.isinbox = true ∨ r.notice = 0
  | .delete user id => ∀ m r, db.myMessage user id = some m →
      db.receiver m = some r → m.isread = false →
      (m.isinbox = true ∨ r.notice = 0) ∨ db.quotedByOthers user m
  | _ => True

/-- The counters agree after the request if and only if it is harmless, and then all is as before.
-/
def KeepsIff (db : MessageDb) (r : MessageRequest) (db' : MessageDb) : Prop :=
  (db'.Counted → Harmless db r) ∧ (Harmless db r → db'.Exact)

theorem view_keeps_iff (h : db.Exact) (user id : Int) :
    KeepsIff db (.view user id) (Session.request (view user id) db) := by
  rw [Session.request_eq, view, Session.opened_work]
  cases hm : db.myMessage user id with
  | none => exact ⟨fun _ m r hm' => absurd (hm.symm.trans hm') (by simp), fun _ => h⟩
  | some m =>
    dsimp only
    have hmem := myMessage_some hm
    cases hread : m.isread with
    | true =>
      rw [if_pos rfl]
      refine ⟨fun _ m' r hm' _ hnew => ?_, fun _ => h⟩
      obtain rfl := Option.some.inj (hm.symm.trans hm')
      exact absurd (hread.symm.trans hnew) (by decide)
    | false =>
      rw [if_neg (by decide)]
      cases hr : db.receiver m with
      | none =>
        refine ⟨fun _ m' r hm' hr' => ?_, fun _ => h⟩
        obtain rfl := Option.some.inj (hm.symm.trans hm')
        exact absurd (hr.symm.trans hr') (by simp)
      | some r =>
        dsimp only
        rw [Session.commit_persisted, Session.modify_work, Session.opened_work]
        have htake : ((db.update m fun m => { m with isread := true }).notify r.id (-1)).Counted ↔
          _ :=
          counted_take h.counted hr hread rfl (unread_markRead h.ids hmem)
        have hids : (db.update m fun m => { m with isread := true }).messages.map Message.id =
            db.messages.map Message.id := Table.map_key_update (by intro; rfl)
        constructor
        · intro h' m' r' hm' hr' _
          obtain rfl := Option.some.inj (hm.symm.trans hm')
          obtain rfl := Option.some.inj (hr.symm.trans hr')
          exact htake.mp h'
        · intro hok
          refine ⟨htake.mpr (hok m r hm hr hread),
            fits_notify (fits_markRead h.fits m) r.id, hids ▸ h.ids, ?_⟩
          intro n hn
          obtain ⟨n₀, hn₀, he⟩ :=
            List.mem_map.mp (hids ▸ List.mem_map_of_mem hn : n.id ∈ db.messages.map Message.id)
          exact he ▸ h.fresh n₀ hn₀

/-- A message that is taken away, and the numbers of the others. -/
theorem exact_remove {user : Int} {m : Message} {x : Nat} {before : MessageDb} (h : db.Exact)
    (hmessages : before.messages = db.messages) (hseq : before.seq = db.seq)
    (hfits : before.fits = true) :
    ((before.unquote user m).remove m x).Counted ∧ ¬ before.quotedByOthers user m →
      ((before.unquote user m).remove m x).Exact := by
  rintro ⟨hcounted, hquoted⟩
  have hsub : (((before.unquote user m).remove m x).messages.map Message.id).Sublist
      (db.messages.map Message.id) := by
    have hids := @map_id_unquote before user m
    rw [← hmessages, ← hids]
    exact List.filter_sublist.map _
  refine ⟨hcounted, (fits_remove hfits user m x).mpr hquoted, h.ids.sublist hsub, ?_⟩
  intro n hn
  obtain ⟨n₀, hn₀, he⟩ := List.mem_map.mp (hsub.subset (List.mem_map_of_mem hn))
  have hlt := h.fresh n₀ hn₀
  rw [he, ← hseq] at hlt
  exact hlt

theorem delete_keeps_iff (h : db.Exact) (user id : Int) :
    KeepsIff db (.delete user id) (Session.request (delete user id) db) := by
  rw [Session.request_eq, delete, Session.opened_work]
  cases hm : db.myMessage user id with
  | none => exact ⟨fun _ m r hm' => absurd (hm.symm.trans hm') (by simp), fun _ => h⟩
  | some m =>
    dsimp only
    have hmem := myMessage_some hm
    cases hread : m.isread with
    | true =>
      rw [if_pos rfl, Session.commitIf_persisted, Session.modify_work, Session.opened_work]
      refine ⟨fun _ m' r hm' _ hnew => ?_, fun _ => ?_⟩
      · obtain rfl := Option.some.inj (hm.symm.trans hm')
        exact absurd (hread.symm.trans hnew) (by decide)
      · split
        · rename_i hfits
          -- a message that has been read does not count
          have hpending : ∀ u, Message.pending u m = false := by
            intro u
            rw [Message.pending, hread]
            exact Bool.and_false _
          refine exact_remove h rfl rfl h.fits ⟨counted_quiet h.counted rfl fun u => ?_, ?_⟩
          · have hcount := unread_remove h.ids hmem user
              (db.messages.countP fun n => n.textId = m.textId) u
            rw [hpending u] at hcount
            simpa using hcount
          · exact (fits_remove h.fits user m _).mp hfits
        · exact h
    | false =>
      rw [if_neg (by decide)]
      cases hr : db.receiver m with
      | none =>
        refine ⟨fun _ m' r hm' hr' => ?_, fun _ => h⟩
        obtain rfl := Option.some.inj (hm.symm.trans hm')
        exact absurd (hr.symm.trans hr') (by simp)
      | some r =>
        dsimp only
        rw [Session.commitIf_persisted, Session.modify_work, Session.modify_work,
          Session.opened_work]
        have hnotified := fits_notify h.fits r.id
        have htake : (((db.notify r.id (-1)).unquote user m).remove m
            (db.messages.countP fun n => n.textId = m.textId)).Counted ↔ _ :=
          counted_take h.counted hr hread rfl
            (unread_remove h.ids hmem user (db.messages.countP fun n => n.textId = m.textId))
        have hquoted : (db.notify r.id (-1)).quotedByOthers user m ↔
            db.quotedByOthers user m := Iff.rfl
        split
        · rename_i hfits
          have hnone := (fits_remove hnotified user m _).mp hfits
          constructor
          · intro h' m' r' hm' hr' _
            obtain rfl := Option.some.inj (hm.symm.trans hm')
            obtain rfl := Option.some.inj (hr.symm.trans hr')
            exact .inl (htake.mp h')
          · intro hok
            rcases hok m r hm hr hread with htaken | hq
            · exact exact_remove h rfl rfl hnotified ⟨htake.mpr htaken, hnone⟩
            · exact absurd (hquoted.mpr hq) hnone
        · rename_i hfits
          -- the deletion is refused: this is no harm, and there is a reply that is the reason
          refine ⟨fun _ m' r' hm' _ _ => ?_, fun _ => h⟩
          obtain rfl := Option.some.inj (hm.symm.trans hm')
          by_contra hnone
          exact hfits ((fits_remove hnotified user m _).mpr fun hq => hnone (.inr (hquoted.mp hq)))

theorem handler_keeps_iff (reSubject : Text → Text) (h : db.Exact) (r : MessageRequest) :
    KeepsIff db r (Session.request (r.handler reSubject) db) := by
  cases r with
  | new user form => exact ⟨fun _ => trivial, fun _ => new_exact h user form⟩
  | reply user id body => exact ⟨fun _ => trivial, fun _ => reply_exact reSubject h user id body⟩
  | view user id => exact view_keeps_iff h user id
  | delete user id => exact delete_keeps_iff h user id

/-- **When the counters are exact**: as long as no unread copy outside an inbox is viewed or deleted
while its receiver has something to read. The first such request makes a counter wrong. -/
theorem unread_exact (reSubject : Text → Text) {db : MessageDb}
    (h : Machine.Reach (MessageDb.next reSubject) Harmless MessageDb.Exact db) :
    db.Counted ∧ ∀ r, (Session.request (r.handler reSubject) db).Counted ↔ Harmless db r := by
  have hdb : db.Exact := by
    refine h.inv (fun _ h0 => h0) ?_
    intro s r t hs hq hn
    obtain rfl := Except.ok.inj (Option.some.inj hn)
    exact (handler_keeps_iff reSubject hs r).2 hq
  refine ⟨hdb.counted, fun r => ?_⟩
  obtain ⟨honly, hkeeps⟩ := handler_keeps_iff reSubject hdb r
  exact ⟨honly, fun hr => (hkeeps hr).counted⟩

/-- Two users, and no messages. -/
def MessageDb.two : MessageDb where
  users := [⟨1, "ann".toList, 0⟩, ⟨2, "bob".toList, 0⟩]

theorem two_exact : MessageDb.two.Exact := by
  refine ⟨?_, rfl, List.nodup_nil, nofun⟩
  intro u hu
  rcases List.mem_cons.mp hu with rfl | hu
  · rfl
  · obtain rfl := List.mem_singleton.mp hu
    rfl

/-- A message to bob. -/
def toBob : MessageForm := ⟨"bob".toList, "hello".toList, "see you".toList⟩

/-- Bob reads what ann has sent him. -/
theorem unread_exact_read :
    ∃ db, Machine.exec (MessageDb.next id) [.new 1 toBob] .two = some db ∧ db.Counted ∧
      ((Session.request (MessageRequest.handler id (.view 2 0)) db).Counted ↔
        Harmless db (.view 2 0)) := by
  obtain ⟨db, hrun⟩ : ∃ db, Machine.exec (MessageDb.next id) [.new 1 toBob] .two =
      some db := ⟨_, rfl⟩
  have hreach : Machine.Reach (MessageDb.next id) Harmless MessageDb.Exact db :=
    (Machine.Reach.of_init two_exact).of_exec (fun ev hev _ => by
      obtain rfl := List.mem_singleton.mp hev
      trivial) hrun
  exact ⟨db, hrun, (unread_exact id hreach).1, (unread_exact id hreach).2 _⟩

/-- Ann looks at her copy of what she has sent to bob, and bob's counter is 0. -/
theorem unread_lost :
    ¬ ∀ db, Machine.Reach (MessageDb.next id) Machine.Always MessageDb.Exact db → db.Counted := by
  intro hall
  have hrun : Machine.exec (MessageDb.next id) [.new 1 toBob, .view 1 1] .two = some
      { users := [⟨1, "ann".toList, 0⟩, ⟨2, "bob".toList, 0⟩]
        messages := [⟨0, none, 1, some 2, 0, true, false⟩, ⟨1, none, 1, some 2, 0, false, true⟩]
        texts := [⟨0, "hello".toList, "see you".toList⟩]
        seq := 2
        textSeq := 1 } := by
    rfl
  have hbad := hall _ ((Machine.Reach.of_init two_exact).of_exec (fun _ _ _ => trivial) hrun)
  have hbob := hbad ⟨2, "bob".toList, 0⟩ (by simp)
  revert hbob
  decide

end LuoYun.Web.Mailbox
