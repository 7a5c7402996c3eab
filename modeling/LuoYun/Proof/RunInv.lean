import LuoYun.Clc.World
import LuoYun.Proof.PacketEffect

/-!
# Invariants of whole runs

The main loop reaches its handlers through `ly_epoll_entity_recv`, and the packet loop changes the
receive structure of the connection before and after every packet. This module takes one event apart
into these pieces, once, and proves the rule every invariant of a run goes through: what is true
when the loop is entered, is kept by accepting a connection, by a write to a receive structure and
by every `Prim`, is true in every reachable state.
-/

namespace LuoYun

/-! ## One event -/

/-- What a round of the packet loop that does not fault consists of. -/
structure Round (env : Env) (c : Clc) (b : Busy) (p : LYPacketRecv) (r : Int × LYPacketRecv)
    (h : Clc × Int) (p' : LYPacketRecv) (d : Int × LYPacketRecv) : Prop where
  pkt : (c.store.ents b.slot).pkt = some p
  recv : lyPacketRecv p b.len = .ok r
  complete : 0 < r.1
  handle : handlePacket env (c.setPkt b.slot r.2) b.slot
    (lyPacketType r.2) r.2.pktHeader.length = .ok h
  left : (h.1.store.ents b.slot).pkt = some p'
  done : lyPacketRecvDone p' = .ok d

theorem roundEnd_cases {i : Nat} {c : Clc} {ret : Int} {x : RoundState ⊕ (Clc × Int)}
    (h : roundEnd i c ret = .ok x) :
    ∃ p d, (c.store.ents i).pkt = some p ∧ lyPacketRecvDone p = .ok d ∧
      (ret < 0 ∧ x = .inr (c.setPkt i d.2, -1) ∨ 0 < ret ∧ x = .inr (c.setPkt i d.2, ret) ∨
        ret = 0 ∧ x = .inl (c.setPkt i d.2, 0, sizeofLYPacketHeader)) := by
  unfold roundEnd at h
  cases hp : (c.store.ents i).pkt with
  | none => rw [hp] at h; cases h
  | some p =>
    rw [hp] at h
    obtain ⟨d, hd, h⟩ := exists_ok_of_bind h
    refine ⟨p, d, rfl, hd, ?_⟩
    dsimp only at h
    split at h
    · exact .inl ⟨by assumption, (Except.ok.inj h).symm⟩
    · split at h
      · exact .inr (.inl ⟨by assumption, (Except.ok.inj h).symm⟩)
      · exact .inr (.inr ⟨by omega, (Except.ok.inj h).symm⟩)

/-- A round that handles no packet, and a round that handles one. -/
theorem packetRound_cases {env : Env} {c : Clc} {b : Busy} {x : RoundState ⊕ (Clc × Int)}
    (hx : packetRound env b.slot (c, b.len, b.buf) = .ok x) :
    (∃ p r, (c.store.ents b.slot).pkt = some p ∧ lyPacketRecv p b.len = .ok r ∧ r.1 ≤ 0 ∧
      x = .inr (c.setPkt b.slot r.2, 0)) ∨
    ∃ p r h p' d, Round env c b p r h p' d ∧
      (h.2 < 0 ∧ x = .inr (h.1.setPkt b.slot d.2, -1) ∨ 0 < h.2 ∧
        x = .inr (h.1.setPkt b.slot d.2, h.2) ∨
        h.2 = 0 ∧ x = .inl (h.1.setPkt b.slot d.2, 0, sizeofLYPacketHeader)) := by
  unfold packetRound at hx
  dsimp only at hx
  cases hp : (c.store.ents b.slot).pkt with
  | none => rw [hp] at hx; cases hx
  | some p =>
    rw [hp] at hx
    obtain ⟨r, hrecv, hx⟩ := exists_ok_of_bind hx
    split at hx
    · obtain ⟨_, _, hx⟩ := exists_ok_of_bind hx
      exact .inl ⟨p, r, rfl, hrecv, by omega, (Except.ok.inj hx).symm⟩
    · split at hx
      · refine .inl ⟨p, r, rfl, hrecv, by omega, ?_⟩
        split at hx
        · obtain ⟨_, _, hx⟩ := exists_ok_of_bind hx
          exact (Except.ok.inj hx).symm
        · exact (Except.ok.inj hx).symm
      · obtain ⟨h, hh, hx⟩ := exists_ok_of_bind hx
        obtain ⟨p', d, hp', hd, hx⟩ := roundEnd_cases hx
        exact .inr ⟨p, r, h, p', d, ⟨hp, hrecv, by omega, hh, hp', hd⟩, hx⟩

theorem rounded_cases {env : Env} {c : Clc} {b : Busy} {w' : World}
    (hr : World.rounded env c b = .ok w') :
    (∃ p r, (c.store.ents b.slot).pkt = some p ∧ lyPacketRecv p b.len = .ok r ∧ r.1 ≤ 0 ∧
      w' = ⟨c.setPkt b.slot r.2, none⟩) ∨
    ∃ p r h p' d, Round env c b p r h p' d ∧
      (h.2 < 0 ∧ w' = ⟨h.1.setPkt b.slot d.2, none⟩ ∨
        0 < h.2 ∧ w' = ⟨(h.1.setPkt b.slot d.2).release b.slot, none⟩ ∨
        h.2 = 0 ∧ w' = ⟨h.1.setPkt b.slot d.2, some ⟨b.slot, 0, sizeofLYPacketHeader⟩⟩) := by
  unfold World.rounded at hr
  cases hx : packetRound env b.slot (c, b.len, b.buf) with
  | error e => rw [hx] at hr; cases hr
  | ok x =>
    rw [hx] at hr
    rcases packetRound_cases hx with ⟨p, r, hp, hrecv, hle, rfl⟩ | ⟨p, r, h, p', d, hround, hend⟩
    · exact .inl ⟨p, r, hp, hrecv, hle, (Except.ok.inj hr).symm⟩
    · refine .inr ⟨p, r, h, p', d, hround, ?_⟩
      rcases hend with ⟨hlt, rfl⟩ | ⟨hgt, rfl⟩ | ⟨hz, rfl⟩
      · exact .inl ⟨hlt, (Except.ok.inj hr).symm⟩
      · refine .inr (.inl ⟨hgt, ?_⟩)
        have := (Except.ok.inj hr).symm
        rwa [if_pos hgt] at this
      · exact .inr (.inr ⟨hz, (Except.ok.inj hr).symm⟩)

/-- Bytes that `recv` has put into the buffer of slot `i`. -/
structure Received (c : Clc) (i : Nat) (chunk : Bytes) (p : LYPacketRecv) (off room : Nat)
    (p' : LYPacketRecv) : Prop where
  slot : i < lyEntityMax
  readable : Readable (c.store.ents i)
  pkt : (c.store.ents i).pkt = some p
  free : lyPacketBuf p = some (off, room)
  nonempty : chunk ≠ []
  fits : chunk.length ≤ room
  into : recvInto p chunk = .ok p'

theorem received_cases {c : Clc} {i : Nat} {chunk : Bytes} {w' : World}
    (h : World.received c i chunk = some (.ok w')) :
    ∃ p off room p', Received c i chunk p off room p' ∧
      w' = ⟨c.setPkt i p', some ⟨i, chunk.length, off⟩⟩ := by
  unfold World.received at h
  split at h
  · cases h
  · rename_i hguard
    push Not at hguard
    obtain ⟨hi, hrd, hne⟩ := hguard
    split at h
    · cases h
    · rename_i p hp
      split at h
      · cases h
      · rename_i off room hfree
        split at h
        · cases h
        · rename_i hroom
          cases hinto : recvInto p chunk with
          | error e => rw [hinto] at h; cases h
          | ok p' =>
            rw [hinto] at h
            exact ⟨p, off, room, p', ⟨hi, hrd, hp, hfree, hne, by omega, hinto⟩,
              (Except.ok.inj (Option.some.inj h)).symm⟩

/-- An event that the CLC survives. -/
theorem next_eq_ok {env : Env} {w w' : World} {ev : Event} :
    w.next env ev = some (.ok w') ↔ w.step env ev = some (.ok w') ∧
      w'.clc.store.strayFree = false := by
  unfold World.next
  cases w.step env ev with
  | none => simp
  | some r =>
    cases r with
    | error e => simp [bind, Except.bind]
    | ok w₁ =>
      simp only [Option.map_some, bind, Except.bind, World.alive, Option.some.injEq,
        Except.ok.injEq]
      split
      · rename_i hs
        simp only [reduceCtorEq, false_iff, not_and]
        rintro rfl
        rw [hs]
        simp
      · rename_i hs
        simp only [Except.ok.injEq, iff_self_and]
        rintro rfl
        simpa using hs

/-- An event that breaks the CLC in another way than by its end. -/
theorem step_of_next_error {env : Env} {w : World} {ev : Event} {e : Fault} (he : e ≠ .strayFree)
    (h : w.next env ev = some (.error e)) : w.step env ev = some (.error e) := by
  unfold World.next at h
  obtain ⟨r, hr, hb⟩ := Option.map_eq_some_iff.mp h
  rw [hr]
  cases r with
  | error e' => exact congrArg some hb
  | ok w₁ =>
    simp only [bind, Except.bind, World.alive] at hb
    split at hb
    · exact absurd (Except.error.inj hb).symm he
    · cases hb

/-- **What the code can do at one event.** -/
theorem step_cases {env : Env} {w w' : World} {ev : Event} (h : w.step env ev = some (.ok w')) :
    (∃ b, ev = .round ∧ w.busy = some b ∧ World.rounded env w.clc b = .ok w') ∨
    w.busy = none ∧
      ((∃ fd m, ev = .accept fd m ∧ w' = ⟨epollWorkRecv w.clc fd m, none⟩) ∨
        (∃ i chunk p off room p', ev = .recv i chunk ∧ Received w.clc i chunk p off room p' ∧
          w' = ⟨w.clc.setPkt i p', some ⟨i, chunk.length, off⟩⟩) ∨
        (∃ i c ret, ev = .closed i ∧ entityClosed env w.clc i = .ok (c, ret) ∧
          w' = ⟨c.release i, none⟩) ∨
        (∃ i, ev = .hangUp i ∧ w' = ⟨w.clc.release i, none⟩) ∨
        (∃ c, ev = .dispatch ∧ jobDispatch env w.clc = .ok c ∧ w' = ⟨c, none⟩) ∨
        ∃ db io, ev = .outside db io ∧ w' = ⟨{ w.clc with db, io }, none⟩) := by
  obtain ⟨c, busy⟩ := w
  cases busy with
  | some b =>
    cases ev with
    | round => exact .inl ⟨b, rfl, rfl, Option.some.inj h⟩
    | _ => cases h
  | none =>
    refine .inr ⟨rfl, ?_⟩
    cases ev with
    | round => cases h
    | accept fd m => exact .inl ⟨fd, m, rfl, (Except.ok.inj (Option.some.inj h)).symm⟩
    | recv i chunk =>
      obtain ⟨p, off, room, p', hrec, hw⟩ := received_cases h
      exact .inr (.inl ⟨i, chunk, p, off, room, p', rfl, hrec, hw⟩)
    | closed i =>
      refine .inr (.inr (.inl ?_))
      have h : World.ended env c i = some (.ok w') := h
      unfold World.ended at h
      split at h
      · cases h
      · cases hc : entityClosed env c i with
        | error e => rw [hc] at h; cases h
        | ok r =>
          rw [hc] at h
          exact ⟨i, r.1, r.2, rfl, hc, (Except.ok.inj (Option.some.inj h)).symm⟩
    | hangUp i =>
      exact .inr (.inr (.inr (.inl ⟨i, rfl, (Except.ok.inj (Option.some.inj h)).symm⟩)))
    | dispatch =>
      refine .inr (.inr (.inr (.inr (.inl ?_))))
      simp only [World.step] at h
      cases hd : jobDispatch env c with
      | error e => rw [hd] at h; cases h
      | ok c' =>
        rw [hd] at h
        exact ⟨c', rfl, rfl, (Except.ok.inj (Option.some.inj h)).symm⟩
    | outside db io =>
      exact .inr (.inr (.inr (.inr (.inr ⟨db, io, rfl, (Except.ok.inj (Option.some.inj h)).symm⟩))))

/-- **What one event can do.** -/
theorem next_cases {env : Env} {w w' : World} {ev : Event} (h : w.next env ev = some (.ok w')) :
    (∃ b, ev = .round ∧ w.busy = some b ∧ World.rounded env w.clc b = .ok w') ∨
    w.busy = none ∧
      ((∃ fd m, ev = .accept fd m ∧ w' = ⟨epollWorkRecv w.clc fd m, none⟩) ∨
        (∃ i chunk p off room p', ev = .recv i chunk ∧ Received w.clc i chunk p off room p' ∧
          w' = ⟨w.clc.setPkt i p', some ⟨i, chunk.length, off⟩⟩) ∨
        (∃ i c ret, ev = .closed i ∧ entityClosed env w.clc i = .ok (c, ret) ∧
          w' = ⟨c.release i, none⟩) ∨
        (∃ i, ev = .hangUp i ∧ w' = ⟨w.clc.release i, none⟩) ∨
        (∃ c, ev = .dispatch ∧ jobDispatch env w.clc = .ok c ∧ w' = ⟨c, none⟩) ∨
        ∃ db io, ev = .outside db io ∧ w' = ⟨{ w.clc with db, io }, none⟩) :=
  step_cases (next_eq_ok.mp h).1

/-! ## The invariant rule -/

/-- What every change to the state keeps. -/
structure Kept (R : Rules) (I : Clc → Prop) : Prop where
  accept : ∀ c fd m, I c → I (epollWorkRecv c fd m)
  pkt : ∀ c i p, I c → I (c.setPkt i p)
  prim : ∀ i a b, I a → Prim R i a b → I b

/-- The packet loop is in a slot of the store. -/
def World.InStore (w : World) : Prop := ∀ b, w.busy = some b → b.slot < lyEntityMax

section

variable {R : Rules} {I : Clc → Prop} {env : Env} {P : Clc → Nat → Int → Int → Prop}

theorem rounded_inv (hk : Kept R I) (htidy : ¬ R.tidy)
    (hok : ∀ c i type size, i < lyEntityMax → I c → P c i type size → PacketOk R env c i type size)
    {w w' : World} {b : Busy} (hb : w.busy = some b) (hs : b.slot < lyEntityMax) (hI : I w.clc)
    (hP : OnPacket P w .round) (hr : World.rounded env w.clc b = .ok w') :
    I w'.clc ∧ w'.InStore := by
  rcases rounded_cases hr with ⟨p, r, hp, hrecv, hle, rfl⟩ | ⟨p, r, h, p', d, hround, hend⟩
  · exact ⟨hk.pkt _ _ _ hI, fun _ hb => nomatch hb⟩
  · have hpacket : P (w.clc.setPkt b.slot r.2) b.slot (lyPacketType r.2) r.2.pktHeader.length := by
      unfold OnPacket at hP
      rw [hb] at hP
      exact hP p r hround.pkt hround.recv hround.complete
    have hdoes := (handlePacket_sat hs env _ _ _ (hok _ _ _ _ hs (hk.pkt _ _ _ hI) hpacket)).of_ok
      hround.handle
    have hI' : I (h.1.setPkt b.slot d.2) :=
      hk.pkt _ _ _ (hdoes.inv (hk.prim b.slot) (hk.pkt _ _ _ hI))
    rcases hend with ⟨-, rfl⟩ | ⟨-, rfl⟩ | ⟨-, rfl⟩
    · exact ⟨hI', fun _ hb => nomatch hb⟩
    · exact ⟨(release_does htidy _).inv (hk.prim b.slot) hI', fun _ hb => nomatch hb⟩
    · refine ⟨hI', fun b' hb' => ?_⟩
      obtain rfl := Option.some.inj hb'
      exact hs

/-- What an event keeps, whether the CLC survives it or not. -/
theorem step_inv (hk : Kept R I) (hloud : ¬ R.quiet) (htidy : ¬ R.tidy)
    (hok : ∀ c i type size, i < lyEntityMax → I c → P c i type size → PacketOk R env c i type size)
    {w w' : World} {ev : Event} (hI : I w.clc) (hs : w.InStore) (hQ : OnPacket P w ev)
    (hstep : w.step env ev = some (.ok w')) : I w'.clc ∧ w'.InStore := by
  rcases step_cases hstep with ⟨b, rfl, hb, hr⟩ | ⟨hidle, hcase⟩
  · exact rounded_inv hk htidy hok hb (hs b hb) hI hQ hr
  · rcases hcase with ⟨fd, m, rfl, rfl⟩ | ⟨i, chunk, p, off, room, p', rfl, hrec, rfl⟩ |
      ⟨i, c, ret, rfl, hc, rfl⟩ | ⟨i, rfl, rfl⟩ | ⟨c, rfl, hc, rfl⟩ | ⟨db, io, rfl, rfl⟩
    · exact ⟨hk.accept _ _ _ hI, fun _ hb => nomatch hb⟩
    · refine ⟨hk.pkt _ _ _ hI, fun b hb => ?_⟩
      obtain rfl := Option.some.inj hb
      exact hrec.slot
    · have hd := ((entityClosed_sat (R := R) (i := i) env hloud w.clc).of_ok hc).trans
        (release_does htidy c)
      exact ⟨hd.inv (hk.prim i) hI, fun _ hb => nomatch hb⟩
    · exact ⟨(release_does htidy w.clc).inv (hk.prim i) hI, fun _ hb => nomatch hb⟩
    · have hd : Does R 0 w.clc c := (jobDispatch_sat hloud env w.clc).of_ok hc
      exact ⟨hd.inv (hk.prim 0) hI, fun _ hb => nomatch hb⟩
    · have hd : Does R 0 w.clc { w.clc with db, io } := .outside ⟨rfl, rfl, rfl, rfl⟩ hloud
      exact ⟨hd.inv (hk.prim 0) hI, fun _ hb => nomatch hb⟩

/-- **An invariant of every run** whose packets satisfy `P`. -/
theorem reachable_inv (hk : Kept R I) (hloud : ¬ R.quiet) (htidy : ¬ R.tidy)
    (hboot : ∀ w, Boot w → I w.clc)
    (hok : ∀ c i type size, i < lyEntityMax → I c → P c i type size → PacketOk R env c i type size)
    {w : World} (h : Reachable env (OnPacket P) w) : I w.clc ∧ w.InStore := by
  refine Machine.Reach.inv (I := fun w => I w.clc ∧ w.InStore) h
    (fun w hw => ⟨hboot w hw, fun b hb => ?_⟩) fun w ev w' hI hQ hn => ?_
  · rw [hw.idle] at hb
    cases hb
  · exact step_inv hk hloud htidy hok hI.1 hI.2 hQ (next_eq_ok.mp hn).1

end

/-! ## Invariants of single slots -/

/-- The entity that `ly_entity_new` makes of a free one. -/
def LYEntity.accepted (e : LYEntity) (fd : Int) (i : Nat) (p : LYPacketRecv) : LYEntity :=
  { e with pkt := some p, dbId := -1, type := .unknown, flag := 0, fd, id := i }

/-- Accepting a connection does nothing, or fills a slot that was free and empty. -/
theorem epollWorkRecv_cases (c : Clc) (fd : Int) (m : Mem) :
    epollWorkRecv c fd m = c ∨
      ∃ i, i < lyEntityMax ∧ 0 ≤ fd ∧ (c.store.ents i).id = -1 ∧ (c.store.ents i).entity = .null ∧
        (c.store.ents i).auth.challenge = none ∧ (c.store.ents i).auth.secret = none ∧
        (epollWorkRecv c fd m).store =
          c.store.set i ((c.store.ents i).accepted fd i ((c.store.ents i).freshPkt m)) ∧
        (epollWorkRecv c fd m).jobs = c.jobs ∧ (epollWorkRecv c fd m).db = c.db ∧
        (epollWorkRecv c fd m).accepted = c.accepted + 1 ∧
        (epollWorkRecv c fd m).hist = fun j =>
          if j = i then { serial := c.accepted + 1 } else c.hist j := by
  unfold epollWorkRecv lyEntityNew
  by_cases hfd : fd < 0
  · rw [if_pos hfd]
    exact .inl rfl
  · rw [if_neg hfd]
    cases hfree : freeSlot c.store with
    | none => exact .inl rfl
    | some i =>
      obtain ⟨hmem, hfind⟩ := freeSlot_some hfree
      dsimp only
      by_cases hbad : (c.store.ents i).entity ≠ .null ∨ (c.store.ents i).auth.challenge ≠ none ∨
          (c.store.ents i).auth.secret ≠ none
      · rw [if_pos hbad]
        exact .inl rfl
      · rw [if_neg hbad]
        push Not at hbad
        right
        refine ⟨i, hmem, by omega, hfind, hbad.1, hbad.2.1, hbad.2.2, ?_⟩
        dsimp only
        rw [slot?_natCast hmem]
        exact ⟨rfl, rfl, rfl, rfl, rfl⟩

/-- Every change to the state keeps what every change to one slot keeps. -/
theorem prim_slots {R : Rules} {J : Slot → Prop} {i : Nat} {a b : Clc}
    (hact : ∀ s s', J s → SlotAct R s s' → J s')
    (hI : ∀ j, J (a.slot j)) (hprim : Prim R i a b) (j : Nat) : J (b.slot j) := by
  cases hprim with
  | outside ho _ => rw [Clc.slot, ho.store, ho.hist]; exact hI j
  | jobs _ hstore hhist _ => rw [Clc.slot, hstore, hhist]; exact hI j
  | insert hstore hhist _ _ => rw [Clc.slot, hstore, hhist]; exact hI j
  | slot k ht ha _ _ =>
    by_cases hj : j = k
    · subst hj
      exact hact _ _ (hI j) ha
    · rw [ht.others j hj]
      exact hI j
  | displace k ht ha _ _ =>
    by_cases hj : j = k
    · subst hj
      rw [ha]
      exact hact _ _ (hI j) (.release _ _)
    · rw [ht.others j hj]
      exact hI j

/-- An invariant of slots is kept if every change to one slot keeps it. -/
theorem kept_slots {R : Rules} {J : Slot → Prop}
    (haccept : ∀ (e : LYEntity) fd i p n, e.entity = .null → e.auth.challenge = none →
      e.auth.secret = none →
      J ⟨e.accepted fd i p, { serial := n }⟩)
    (hpkt : ∀ e h p, J ⟨e, h⟩ → J ⟨{ e with pkt := p }, h⟩)
    (hact : ∀ s s', J s → SlotAct R s s' → J s') : Kept R fun c => ∀ j, J (c.slot j) where
  accept := by
    intro c fd m hI
    rcases epollWorkRecv_cases c fd m with h | ⟨i, -, -, -, he, hc, hs, hstore, -, -, -, hhist⟩
    · rw [h]
      exact hI
    · intro j
      rw [Clc.slot, hstore, hhist]
      dsimp only
      by_cases hj : j = i
      · subst hj
        rw [EntityStore.set_ents_self, if_pos rfl]
        exact haccept _ _ _ _ _ he hc hs
      · rw [EntityStore.set_ents_ne _ _ hj, if_neg hj]
        exact hI j
  pkt := by
    intro c i p hI j
    by_cases hj : j = i
    · subst hj
      rw [Clc.setPkt, slot_modifyEnt]
      exact hpkt _ _ _ (hI j)
    · have : (c.setPkt i p).slot j = c.slot j := by
        rw [Clc.slot, Clc.slot, Clc.setPkt, Clc.modifyEnt, EntityStore.modify_ents_ne _ _ hj]
      rw [this]
      exact hI j
  prim := fun _ _ _ hI hprim => prim_slots hact hI hprim

/-- A slot of unknown type is in neither list. -/
theorem StoreWf.not_mem {s : EntityStore} (h : StoreWf s) {j : Nat}
    (ht : (s.ents j).type = .unknown) (t : EntityType) (hl : Listed t) : j ∉ s.list t := by
  intro hm
  have := h.list t j hm
  rw [ht] at this
  subst this
  rcases hl with hc | hc <;> cases hc

/-- A slot that is set to an entity of unknown type, in no list. -/
theorem storeWf_set {s : EntityStore} (h : StoreWf s) {i : Nat} {e : LYEntity}
    (hold : ¬ Listed (s.ents i).type) (hid : e.id = -1 ∨ e.id = i) : StoreWf (s.set i e) where
  id := by
    intro k
    by_cases hk : k = i
    · subst hk; rw [EntityStore.set_ents_self]; exact hid
    · rw [EntityStore.set_ents_ne _ _ hk]; exact h.id k
  list := by
    intro t k hk
    have hk' : k ∈ s.list t := by cases t <;> exact hk
    by_cases hki : k = i
    · subst hki
      rw [h.list t k hk'] at hold
      cases t with
      | node => exact absurd (.inl rfl) hold
      | osm => exact absurd (.inr rfl) hold
      | _ => exact absurd hk' List.not_mem_nil
    · rw [EntityStore.set_ents_ne _ _ hki]
      exact h.list t k hk'

theorem listening_eq {fd : Int} (hfd : 0 ≤ fd) (m : Mem) : EntityStore.listening fd m =
    ({} : EntityStore).set 0 ((({} : LYEntity).accepted fd 0 (lyPacketInit m)).inited .clc) := by
  have hfree : freeSlot {} = some 0 := by decide +kernel
  have hnew : lyEntityNew {} fd m = (({} : EntityStore).set 0
      (({} : LYEntity).accepted fd 0 (lyPacketInit m)), 0) := by
    unfold lyEntityNew
    rw [if_neg (by omega), hfree]
    rfl
  rw [EntityStore.listening, hnew]
  simp only [lyEntityInit, slot?, EntityStore.set, EntityStore.modify, LYEntity.accepted,
    LYEntity.inited, lyEntityMax]
  refine congrArg (fun f => EntityStore.mk f [] [] 0 false 0) ?_
  funext j
  by_cases hj : j = 0
  · subst hj; rfl
  · simp [hj]

/-- The slots when the main loop is entered. -/
theorem boot_slot {w : World} (h : Boot w) (j : Nat) :
    w.clc.slot j = ⟨{}, {}⟩ ∨
      ∃ fd p, j = 0 ∧ w.clc.slot j = ⟨(({} : LYEntity).accepted fd 0 p).inited .clc, {}⟩ := by
  obtain ⟨fd, m, hfd, hstore⟩ := h.store
  rw [Clc.slot, h.hist, hstore, listening_eq hfd]
  by_cases hj : j = 0
  · subst hj
    exact .inr ⟨fd, lyPacketInit m, rfl, rfl⟩
  · rw [EntityStore.set_ents_ne _ _ hj]
    exact .inl rfl

theorem boot_storeWf {w : World} (h : Boot w) : StoreWf w.clc.store := by
  obtain ⟨fd, m, hfd, hstore⟩ := h.store
  refine ⟨fun j => ?_, fun t j hj => ?_⟩
  · show (w.clc.slot j).ent.id = -1 ∨ (w.clc.slot j).ent.id = j
    rcases boot_slot h j with hs | ⟨fd, p, rfl, hs⟩
    · rw [hs]; exact .inl rfl
    · rw [hs]; exact .inr rfl
  · rw [hstore, listening_eq hfd] at hj
    cases t <;> cases hj

end LuoYun
