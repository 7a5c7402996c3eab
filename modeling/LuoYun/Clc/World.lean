import LuoYun.Clc.Events
import LuoYun.Lib.Machine

/-!
# The main loop of the CLC

`main` of `lyclc.c` goes round one loop: it dispatches the queue, asks about instances, and takes
the events of `epoll_wait` one after the other. `World` is the CLC between two of the things it
does. A chunk that has been read is worked off packet by packet, so there is also a state between
two packets: `busy` says which connection the packet loop is in.

What the rest of the system does to the database and to the clock, and what the CLC's own periodic
queries do to them, is the event `outside`; it may happen between any two events.
-/

namespace LuoYun

/-- Where the packet loop of `ly_epoll_entity_recv` stands. -/
structure Busy where
  slot : Nat
  len : Int
  buf : Nat

/-- The CLC between two things it does. -/
structure World where
  clc : Clc
  busy : Option Busy := none

/-- What may happen next. -/
inductive Event where
  /-- A connection is accepted; `m` is what `malloc` leaves in a new packet buffer. -/
  | accept (fd : Int) (m : Mem)
  /-- `recv` on the connection in slot `i` gives these bytes. -/
  | recv (i : Nat) (chunk : Bytes)
  /-- The packet loop goes round. -/
  | round
  /-- `recv` on the connection in slot `i` gives nothing. -/
  | closed (i : Nat)
  /-- `epoll_wait` reports a hang-up, or the buffer of the connection is full. -/
  | hangUp (i : Nat)
  /-- The queue is dispatched. -/
  | dispatch
  /-- The database and what leaves the program have changed. -/
  | outside (db : Db) (io : Io)

/-- A connection that `ly_epoll_entity_recv` reads from. -/
def Readable (e : LYEntity) : Prop := e.type ≠ .clc ∧ 0 ≤ e.fd

instance (e : LYEntity) : Decidable (Readable e) := by unfold Readable; infer_instance

/-- `recv` into the packet buffer of slot `i`, and the packet loop begins. -/
def World.received (c : Clc) (i : Nat) (chunk : Bytes) : Option (Res World) :=
  if ¬ i < lyEntityMax ∨ ¬ Readable (c.store.ents i) ∨ chunk = [] then none
  else match (c.store.ents i).pkt with
  | none => none
  | some p =>
    match lyPacketBuf p with
    | none => none
    | some (off, room) =>
      if room < chunk.length then none
      else some (match recvInto p chunk with
        | .error e => .error e
        | .ok p => .ok ⟨c.setPkt i p, some ⟨i, chunk.length, off⟩⟩)

/-- One round of the packet loop; a positive result releases the entity. -/
def World.rounded (env : Env) (c : Clc) (b : Busy) : Res World :=
  match packetRound env b.slot (c, b.len, b.buf) with
  | .error e => .error e
  | .ok (.inl (c, len, buf)) => .ok ⟨c, some ⟨b.slot, len, buf⟩⟩
  | .ok (.inr (c, ret)) => .ok ⟨if 0 < ret then c.release b.slot else c, none⟩

/-- The peer has closed the connection in slot `i`. -/
def World.ended (env : Env) (c : Clc) (i : Nat) : Option (Res World) :=
  if ¬ i < lyEntityMax ∨ ¬ Readable (c.store.ents i) then none
  else some (match entityClosed env c i with
    | .error e => .error e
    | .ok (c, _) => .ok ⟨c.release i, none⟩)

/-- What the code does at an event. -/
def World.step (env : Env) (w : World) (ev : Event) : Option (Res World) :=
  match w.busy, ev with
  | some b, .round => some (World.rounded env w.clc b)
  | none, .accept fd m => some (.ok ⟨epollWorkRecv w.clc fd m, none⟩)
  | none, .recv i chunk => World.received w.clc i chunk
  | none, .closed i => World.ended env w.clc i
  | none, .hangUp i => some (.ok ⟨w.clc.release i, none⟩)
  | none, .dispatch =>
    some (match jobDispatch env w.clc with
      | .error e => .error e
      | .ok c => .ok ⟨c, none⟩)
  | none, .outside db io => some (.ok ⟨{ w.clc with db, io }, none⟩)
  | _, _ => none

/-- The C library has ended the program if a number was passed to `free`. -/
def World.alive (w : World) : Res World :=
  if w.clc.store.strayFree then .error .strayFree else .ok w

/-- What becomes of an event. -/
def World.next (env : Env) (w : World) (ev : Event) : Option (Res World) :=
  (w.step env ev).map (· >>= World.alive)

/-- The entity store when only the listening socket `fd` has a slot. -/
def EntityStore.listening (fd : Int) (m : Mem) : EntityStore :=
  (lyEntityInit (lyEntityNew {} fd m).1 0 .clc).1

-- the search for a free slot is not for the unifier
attribute [irreducible] EntityStore.listening

/-- The CLC as `main` enters the loop: only the listening socket has a slot, and no job has been
touched since it was read from the database. -/
structure Boot (w : World) : Prop where
  idle : w.busy = none
  store : ∃ fd m, 0 ≤ fd ∧ w.clc.store = .listening fd m
  jobs : ∀ j ∈ w.clc.jobs, j.jEntId = 0 ∧ j.jPendingNr = -1 ∧ j.jSent = false
  hist : w.clc.hist = fun _ => {}
  accepted : w.clc.accepted = 0

/-- The states of runs whose events satisfy `Q`. A run is followed up to its first fault: a theorem
about these states says nothing of what comes after a NULL pointer is followed, data is read through
the layout of another type, or a number is freed. -/
def Reachable (env : Env) (Q : World → Event → Prop) : World → Prop :=
  Machine.Reach (World.next env) Q Boot

/-- The packet that the next round of the packet loop handles satisfies `P`. -/
def OnPacket (P : Clc → Nat → Int → Int → Prop) (w : World) (ev : Event) : Prop :=
  match w.busy, ev with
  | some b, .round => ∀ p r, (w.clc.store.ents b.slot).pkt = some p → lyPacketRecv p b.len = .ok r →
      0 < r.1 → P (w.clc.setPkt b.slot r.2) b.slot (lyPacketType r.2) r.2.pktHeader.length
  | _, _ => True

/-- Between two rounds of the packet loop anything may happen. -/
theorem onPacket_of_ne {P : Clc → Nat → Int → Int → Prop} {ev : Event} (h : ev ≠ .round)
    (w : World) : OnPacket P w ev := by
  unfold OnPacket
  split
  · exact absurd rfl h
  · trivial

theorem OnPacket.mono {P Q : Clc → Nat → Int → Int → Prop} {w : World}
    {ev : Event} (h : OnPacket P w ev)
    (hPQ : ∀ c i type size, P c i type size → Q c i type size) : OnPacket Q w ev := by
  unfold OnPacket at h ⊢
  split at h
  · exact fun p r hp hr hpos => hPQ _ _ _ _ (h p r hp hr hpos)
  · trivial

/-- The type of the packet that the next round of the packet loop handles. -/
def World.packetType (w : World) : Option Int :=
  w.busy.bind fun b => (w.clc.store.ents b.slot).pkt.bind fun p =>
    (lyPacketRecv p b.len).toOption.map fun r => lyPacketType r.2

theorem onPacket_of_type {P : Clc → Nat → Int → Int → Prop} {w : World} {t : Int}
    (h : w.packetType = some t) (hP : ∀ c i size, P c i t size) (ev : Event) : OnPacket P w ev := by
  unfold OnPacket
  split
  · rename_i b hb
    intro p r hp hr _
    unfold World.packetType at h
    simp only [hb, hp, hr, Option.bind_some, Except.toOption, Option.map_some,
      Option.some.injEq] at h
    rw [h]
    exact hP _ _ _
  · trivial

/-- The packet that the next round of the packet loop handles, passes the test. -/
def World.passes (test : Clc → Nat → Int → Int → Bool) (w : World) : Event → Bool
  | .round => w.busy.all fun b => (w.clc.store.ents b.slot).pkt.all fun p =>
    (lyPacketRecv p b.len).toOption.all fun r =>
      decide (r.1 ≤ 0) || test (w.clc.setPkt b.slot r.2) b.slot
        (lyPacketType r.2) r.2.pktHeader.length
  | _ => true

theorem onPacket_of_passes {P : Clc → Nat → Int → Int → Prop} {test : Clc → Nat → Int → Int → Bool}
    (ht : ∀ c i type size, test c i type size = true → P c i type size) {w : World} {ev : Event}
    (h : w.passes test ev = true) : OnPacket P w ev := by
  unfold OnPacket
  split
  · rename_i b hb
    intro p r hp hr hpos
    unfold World.passes at h
    rw [hb, Option.all_some, hp, Option.all_some, hr] at h
    simp only [Except.toOption, Option.all_some, Bool.or_eq_true, decide_eq_true_eq] at h
    exact ht _ _ _ _ (h.resolve_left (by omega))
  · trivial

/-! ## A small installation -/

/-- Surroundings in which every call succeeds, and no document is well formed. -/
def Env.plain : Env where
  cfg := {}
  ok := fun _ _ => true
  sendmsg := fun _ => .all
  uuid := fun _ => ⟨cstr "d2719ad5-6f8a-4b1e-9d3f-0c5a7e2b4c61", rfl, by decide⟩
  time := fun n => 1400000000 + n
  cipher := fun _ => none
  readDoc := fun _ => none
  appliance := fun _ => none
  injectExec := fun _ db => (db, false)
  injectNodes := fun _ db => (db, none)

/-- Every call succeeds. -/
structure Env.Works (env : Env) : Prop where
  ok : ∀ call n, env.ok call n = true
  sendmsg : ∀ n, env.sendmsg n = .all

/-- The keystream of RC4 with the key `luoyun`. -/
def keystreamLuoyun : Bytes :=
  [49, 12, 10, 68, 128, 224, 174, 184, 82, 78, 36, 185, 202, 4, 225, 205,
    250, 35, 154, 91, 208, 174,
    136, 2, 220, 191, 86, 125, 138, 114, 14, 147, 209, 6, 247, 174, 137, 208, 238, 67]

/-- Plain surroundings in which that key is used. -/
def Env.keyed : Env :=
  { Env.plain with
    cipher := fun key => if key = cstr "luoyun" then some fun n =>
      keystreamLuoyun.getD n 0 else none }

/-- The CLC with this database and these jobs, as it enters the loop. -/
def World.start (db : Db) (jobs : List LYJobInfo) : World :=
  ⟨{ store := .listening 3 fun _ => 0, db, jobs := jobs.map fun j =>
    { j with jEntId := 0, jPendingNr := -1, jSent := false } }, none⟩

theorem start_boot (db : Db) (jobs : List LYJobInfo) : Boot (World.start db jobs) := by
  refine ⟨rfl, ⟨3, fun _ => 0, by decide, by simp only [World.start]⟩, ?_, rfl, rfl⟩
  intro j hj
  obtain ⟨j', -, rfl⟩ := List.mem_map.mp hj
  exact ⟨rfl, rfl, rfl⟩

/-- The bytes of a packet. -/
def packet (type : Int) (data : Bytes) : Bytes := le32 type ++ le32 data.length ++ data

end LuoYun
