import LuoYun.Osm.Sockrecv
import LuoYun.Util.PacketSpec

/-!
# Framing at the OS manager

How the bytes are cut into chunks makes no difference to `sockrecv`, which reads on until it has
what it wants. A pause does: inside a packet it drops what was read of it, and the rest of the
packet is taken for a header. And a packet of more than 1024 bytes is cut off there. Behind a packet
on which `lyproc.process` raises an exception nothing is read any more.

`receive` finds exactly the packets that were sent when no packet is longer than that, no pause
falls inside one, and none but the last raises an exception. Otherwise it does not: either a packet
comes out cut off, or bytes that belong to a packet have been dropped or were never read, and then
the packets that come out hold fewer bytes than those sent.
-/

namespace LuoYun.Osm

open Gapped

/-! ## Chunks make no difference -/

/-- The same result on the stream. -/
def onStream : Read UInt8 (List Arrival) → Read UInt8 (List (Option UInt8))
  | .done d rest => .done d (stream rest)
  | .timeout d rest => .timeout d (stream rest)

theorem stream_leftover (bs : Bytes) (rest : List Arrival) :
    stream (leftover bs rest) = bs.map some ++ stream rest := by
  cases bs with
  | nil => rfl
  | cons b bs => rfl

theorem readLoop_stream {want : Nat} {data : Bytes} (input : List Arrival)
    (h : data.length < want) :
    onStream (readLoop want data input) = read want data (stream input) := by
  induction input generalizing data with
  | nil => rfl
  | cons a input ih =>
    cases a with
    | pause => rfl
    | chunk b bs =>
      rw [readLoop, stream]
      generalize hc : b :: bs = c
      have hpos : 0 < c.length := by rw [← hc]; exact Nat.succ_pos _
      by_cases hlong : want - data.length ≤ c.length
      · -- the chunk holds all that is missing
        have hlen : (c.take (want - data.length)).length = want - data.length := by
          rw [List.length_take, Nat.min_eq_left hlong]
        have hfull : (data ++ c.take (want - data.length)).length = want := by
          rw [List.length_append, hlen]
          omega
        have hne : c.take (want - data.length) ≠ [] := by
          intro hnil
          rw [hnil, List.length_nil] at hlen
          omega
        have hcut : c.map some = (c.take (want - data.length)).map some ++
            (c.drop (want - data.length)).map some := by
          rw [← List.map_append, List.take_append_drop]
        rw [if_pos hfull, hcut, List.append_assoc, read_done (by omega) hne]
        dsimp only [onStream]
        rw [stream_leftover]
      · have hall : c.take (want - data.length) = c := List.take_of_length_le (by omega)
        have hlen : (data ++ c).length = data.length + c.length := List.length_append
        rw [hall, if_neg (by omega), ih (by omega), read_more (by omega)]

/-- `sockrecv` on the stream. -/
def sockrecvStream (length : Nat) (s : List (Option UInt8)) :
    (Int × Option Bytes) × List (Option UInt8) :=
  match read headlen [] s with
  | .timeout _ rest => ((-1, none), rest)
  | .done head rest =>
    if datalen head = 0 ∨ length ≤ headlen then ((0, some head), rest)
    else
      let pktlen := if length < headlen + datalen head then length else headlen + datalen head
      match read pktlen head rest with
      | .timeout data rest => ((-1, some data), rest)
      | .done data rest => ((pktlen, some data), rest)

theorem sockrecv_stream (length : Nat) (input : List Arrival) :
    ((sockrecv length input).1, stream (sockrecv length input).2) =
      sockrecvStream length (stream input) := by
  unfold sockrecv sockrecvStream
  rw [← readLoop_stream input (show ([] : Bytes).length < headlen by decide)]
  have hspec := read_spec (s := stream input) (show ([] : Bytes).length < headlen by decide)
  rw [← readLoop_stream input (by decide)] at hspec
  cases hread : readLoop headlen [] input with
  | timeout d rest => rfl
  | done head rest =>
    rw [hread] at hspec
    obtain ⟨xs, -, hlen, -⟩ := hspec
    dsimp only [onStream]
    by_cases hzero : datalen head = 0 ∨ length ≤ headlen
    · rw [if_pos hzero, if_pos hzero]
    · rw [if_neg hzero, if_neg hzero]
      have hlt : head.length < (if length < headlen + datalen head then length
          else headlen + datalen head) := by
        split <;> omega
      generalize (if length < headlen + datalen head then length
        else headlen + datalen head) = pktlen at *
      rw [← readLoop_stream rest hlt]
      cases readLoop pktlen head rest with
      | timeout d rest => rfl
      | done d rest => rfl

/-- The receive loop on the stream. -/
def receiveStream : Nat → List (Option UInt8) → List Bytes
  | 0, _ => []
  | _, [] => []
  | n + 1, a :: s =>
    match sockrecvStream recvLength (a :: s) with
    | ((result, response), rest) =>
      if result = 0 then []
      else if 0 < result then processThen (response.getD []) (receiveStream n rest)
      else receiveStream n rest

theorem receiveLoop_stream (n : Nat) (input : List Arrival) :
    receiveLoop n input = receiveStream n (stream input) := by
  induction n generalizing input with
  | zero => rfl
  | succ n ih =>
    cases input with
    | nil => rfl
    | cons a input =>
      have hrecv := sockrecv_stream recvLength (a :: input)
      obtain ⟨x, s, hs⟩ : ∃ x s, stream (a :: input) = x :: s := by
        cases a with
        | pause => exact ⟨_, _, rfl⟩
        | chunk b bs => exact ⟨_, _, rfl⟩
      rw [hs] at hrecv ⊢
      rw [receiveLoop, receiveStream, ← hrecv]
      dsimp only
      rw [ih]

/-! ## One call -/

/-- **What a call takes from the stream**: a header that closes the connection, a packet, or
whatever came before a gap. -/
theorem sockrecvStream_cases (s : List (Option UInt8)) :
    (∃ head rest, sockrecvStream recvLength s = ((0, some head), rest) ∧ head.length = headlen ∧
      s = head.map some ++ rest) ∨
    (∃ (d : Bytes) (rest : List (Option UInt8)),
      sockrecvStream recvLength s = (((d.length : Int), some d), rest) ∧
      headlen < d.length ∧ d.length ≤ recvLength ∧ s = d.map some ++ rest) ∨
    ∃ (xs : Bytes) (response : Option Bytes) (rest : List (Option UInt8)),
      sockrecvStream recvLength s = ((-1, response), rest) ∧
      (s = xs.map some ++ none :: rest ∨ s = xs.map some ∧ rest = []) := by
  have hhead := read_spec (s := s) (show ([] : Bytes).length < headlen by decide)
  unfold sockrecvStream
  cases hread : read headlen [] s with
  | timeout d rest =>
    rw [hread] at hhead
    obtain ⟨xs, -, -, hs⟩ := hhead
    exact .inr (.inr ⟨xs, none, rest, rfl, hs⟩)
  | done head rest =>
    rw [hread] at hhead
    obtain ⟨xs, hxs, hlen, hs⟩ := hhead
    rw [List.nil_append] at hxs
    subst hxs
    dsimp only
    by_cases hzero : datalen head = 0 ∨ recvLength ≤ headlen
    · rw [if_pos hzero]
      exact .inl ⟨head, rest, rfl, hlen, hs⟩
    · rw [if_neg hzero]
      have h8 : headlen = 8 := rfl
      have h1024 : recvLength = 1024 := rfl
      obtain ⟨pktlen, hpkt, hlo, hhi⟩ : ∃ k, (if recvLength < headlen + datalen head then recvLength
          else headlen + datalen head) = k ∧ headlen < k ∧ k ≤ recvLength := by
        refine ⟨_, rfl, ?_, ?_⟩
        · split <;> omega
        · split <;> omega
      rw [hpkt]
      have hbody := read_spec (s := rest) (show head.length < pktlen by omega)
      cases hread' : read pktlen head rest with
      | timeout d rest' =>
        rw [hread'] at hbody
        obtain ⟨ys, -, -, hs'⟩ := hbody
        refine .inr (.inr ⟨head ++ ys, some d, rest', rfl, ?_⟩)
        rw [List.map_append, hs]
        rcases hs' with hs' | ⟨hs', hr⟩
        · exact .inl (by rw [hs', List.append_assoc])
        · exact .inr ⟨by rw [hs'], hr⟩
      | done d rest' =>
        rw [hread'] at hbody
        obtain ⟨ys, hd, hdl, hs'⟩ := hbody
        refine .inr (.inl ⟨d, rest', by rw [hdl], by omega, by omega, ?_⟩)
        rw [hd, List.map_append, hs, hs', List.append_assoc]

/-- A whole packet that fits is read. -/
theorem sockrecvStream_packet {f : Bytes} {rest : List (Option UInt8)} (hlo : headlen < f.length)
    (hhi : f.length ≤ recvLength) (hlen : datalen (f.take headlen) = f.length - headlen) :
    sockrecvStream recvLength (f.map some ++ rest) = (((f.length : Int), some f), rest) := by
  have h1024 : recvLength = 1024 := rfl
  have h8 : headlen = 8 := rfl
  have hcut : f.map some ++ rest =
      (f.take headlen).map some ++ ((f.drop headlen).map some ++ rest) := by
    rw [← List.append_assoc, ← List.map_append, List.take_append_drop]
  have hhead : (f.take headlen).length = headlen := by
    rw [List.length_take]
    omega
  have hbody : (f.drop headlen).length = f.length - headlen := List.length_drop ..
  have hne : ∀ l : Bytes, 0 < l.length → l ≠ [] := by
    rintro l hl rfl
    exact absurd hl (by decide)
  unfold sockrecvStream
  rw [hcut, read_done (by rw [hhead]; rfl) (hne _ (by omega)), List.nil_append]
  dsimp only
  rw [hlen, if_neg (by omega), if_neg (by omega)]
  have hsum : headlen + (f.length - headlen) = f.length := by omega
  rw [hsum, read_done (by omega) (hne _ (by omega)), List.take_append_drop]

/-! ## The loop -/

theorem receiveStream_closed {n : Nat} {a : Option UInt8} {s rest : List (Option UInt8)}
    {response : Option Bytes} (h : sockrecvStream recvLength (a :: s) = ((0, response), rest)) :
    receiveStream (n + 1) (a :: s) = [] := by
  rw [receiveStream, h]
  rfl

/-- `lyproc.process` raises an exception on this packet. -/
def Raises (d : Bytes) : Prop := ∃ e, process d = .error e

theorem processThen_cases (d : Bytes) (next : List Bytes) :
    Raises d ∧ processThen d next = [d] ∨ ¬ Raises d ∧ processThen d next = d :: next := by
  cases hp : process d with
  | error e => exact .inl ⟨⟨e, hp⟩, by rw [processThen, hp]⟩
  | ok u =>
    refine .inr ⟨?_, by rw [processThen, hp]⟩
    rintro ⟨e, he⟩
    rw [hp] at he
    cases he

theorem receiveStream_packet {n : Nat} {a : Option UInt8} {s rest : List (Option UInt8)} {d : Bytes}
    (h : sockrecvStream recvLength (a :: s) = (((d.length : Int), some d), rest))
    (hd : headlen < d.length) :
    receiveStream (n + 1) (a :: s) = processThen d (receiveStream n rest) := by
  have h0 : ¬ (d.length : Int) = 0 := by omega
  have h1 : 0 < (d.length : Int) := by omega
  rw [receiveStream, h]
  dsimp only
  rw [if_neg h0, if_pos h1]
  rfl

theorem receiveStream_timeout {n : Nat} {a : Option UInt8} {s rest : List (Option UInt8)}
    {response : Option Bytes} (h : sockrecvStream recvLength (a :: s) = ((-1, response), rest)) :
    receiveStream (n + 1) (a :: s) = receiveStream n rest := by
  rw [receiveStream, h]
  rfl

/-- No packet comes out longer than `length`. -/
theorem receiveStream_short (n : Nat) (s : List (Option UInt8)) :
    ∀ d ∈ receiveStream n s, d.length ≤ recvLength := by
  induction n generalizing s with
  | zero => intro d hd; exact absurd hd List.not_mem_nil
  | succ n ih =>
    cases s with
    | nil => intro d hd; exact absurd hd List.not_mem_nil
    | cons a s =>
      rcases sockrecvStream_cases (a :: s) with ⟨head, rest, hcall, -, -⟩ |
        ⟨d, rest, hcall, hlo, hhi, -⟩ | ⟨xs, response, rest, hcall, -⟩
      · rw [receiveStream_closed hcall]
        intro d hd
        exact absurd hd List.not_mem_nil
      · intro d' hd'
        rw [receiveStream_packet hcall hlo] at hd'
        rcases processThen_cases d (receiveStream n rest) with ⟨-, heq⟩ | ⟨-, heq⟩
        · rw [heq] at hd'
          obtain rfl := List.mem_singleton.mp hd'
          exact hhi
        · rw [heq] at hd'
          rcases List.mem_cons.mp hd' with rfl | hd'
          · exact hhi
          · exact ih rest d' hd'
      · rw [receiveStream_timeout hcall]
        exact ih rest

/-- No byte comes out twice. -/
theorem receiveStream_bytes (n : Nat) (s : List (Option UInt8)) :
    (receiveStream n s).flatten.length ≤ (items s).length := by
  induction n generalizing s with
  | zero => exact Nat.zero_le _
  | succ n ih =>
    cases s with
    | nil => exact Nat.zero_le _
    | cons a s =>
      rcases sockrecvStream_cases (a :: s) with ⟨head, rest, hcall, -, -⟩ |
        ⟨d, rest, hcall, hlo, -, hs⟩ | ⟨xs, response, rest, hcall, hs⟩
      · rw [receiveStream_closed hcall]
        exact Nat.zero_le _
      · have hrest := ih rest
        rw [receiveStream_packet hcall hlo, hs, items_append, items_map_some, List.length_append]
        rcases processThen_cases d (receiveStream n rest) with ⟨-, heq⟩ | ⟨-, heq⟩
        · rw [heq, List.flatten_singleton]
          omega
        · rw [heq, List.flatten_cons, List.length_append]
          omega
      · have hrest := ih rest
        rw [receiveStream_timeout hcall]
        rcases hs with hs | ⟨hs, hr⟩
        · rw [hs, items_append, items_none, List.length_append]
          omega
        · subst hr
          rw [items_nil, List.length_nil] at hrest
          omega

/-- Behind an exception nothing comes out. -/
theorem receiveStream_raises (n : Nat) (s : List (Option UInt8)) :
    ∀ d ∈ (receiveStream n s).dropLast, ¬ Raises d := by
  induction n generalizing s with
  | zero => intro d hd; exact absurd hd List.not_mem_nil
  | succ n ih =>
    cases s with
    | nil => intro d hd; exact absurd hd List.not_mem_nil
    | cons a s =>
      rcases sockrecvStream_cases (a :: s) with ⟨head, rest, hcall, -, -⟩ |
        ⟨d, rest, hcall, hlo, -, -⟩ | ⟨xs, response, rest, hcall, -⟩
      · rw [receiveStream_closed hcall]
        intro d hd
        exact absurd hd List.not_mem_nil
      · rw [receiveStream_packet hcall hlo]
        rcases processThen_cases d (receiveStream n rest) with ⟨-, heq⟩ | ⟨hno, heq⟩
        · rw [heq]
          intro d hd
          exact absurd hd List.not_mem_nil
        · rw [heq]
          intro d' hd'
          cases hrest : receiveStream n rest with
          | nil =>
            rw [hrest] at hd'
            exact absurd hd' List.not_mem_nil
          | cons e es =>
            rw [hrest, List.dropLast_cons_cons, ← hrest] at hd'
            rcases List.mem_cons.mp hd' with rfl | hd'
            · exact hno
            · exact ih rest d' hd'
      · rw [receiveStream_timeout hcall]
        exact ih rest

/-- **When every byte comes out, no gap was inside a packet.** -/
theorem receiveStream_spaced (n : Nat) (s : List (Option UInt8)) (hn : s.length ≤ n)
    (hall : (items s).length ≤ (receiveStream n s).flatten.length) :
    Spaced (receiveStream n s) s := by
  induction n generalizing s with
  | zero =>
    obtain rfl := List.length_eq_zero_iff.mp (Nat.le_zero.mp hn)
    exact .nil
  | succ n ih =>
    cases s with
    | nil => exact .nil
    | cons a s =>
      rcases sockrecvStream_cases (a :: s) with ⟨head, rest, hcall, hlen, hs⟩ |
        ⟨d, rest, hcall, hlo, -, hs⟩ | ⟨xs, response, rest, hcall, hs⟩
      · -- the header that closed the connection did not come out
        rw [receiveStream_closed hcall, hs, items_append, items_map_some,
          List.length_append] at hall
        have h8 : headlen = 8 := rfl
        rw [List.flatten_nil, List.length_nil] at hall
        omega
      · have hitems : (items (a :: s)).length = d.length + (items rest).length := by
          rw [hs, items_append, items_map_some, List.length_append]
        rw [receiveStream_packet hcall hlo] at hall ⊢
        rcases processThen_cases d (receiveStream n rest) with ⟨-, heq⟩ | ⟨-, heq⟩
        · -- nothing but gaps is left behind the exception
          rw [heq, List.flatten_singleton] at hall
          rw [heq, hs]
          exact .piece (spaced_of_items_nil (List.length_eq_zero_iff.mp (by omega)))
        · rw [heq, List.flatten_cons, List.length_append] at hall
          have hrest : rest.length ≤ n := by
            have hlen := congrArg List.length hs
            rw [List.length_append, List.length_map, List.length_cons] at hlen
            rw [List.length_cons] at hn
            omega
          rw [heq, hs]
          exact .piece (ih rest hrest (by omega))
      · rw [receiveStream_timeout hcall] at hall ⊢
        have hle := receiveStream_bytes n rest
        rcases hs with hs | ⟨hs, hr⟩
        · -- nothing was read before the gap
          rw [hs, items_append, items_map_some, items_none, List.length_append] at hall
          obtain rfl := List.length_eq_zero_iff.mp (show xs.length = 0 by omega)
          rw [List.map_nil, List.nil_append] at hs
          obtain ⟨rfl, rfl⟩ := List.cons.inj hs
          rw [List.length_cons] at hn
          exact .gap (ih s (by omega) (by omega))
        · subst hr
          rw [hs, items_map_some] at hall
          rw [items_nil, List.length_nil] at hle
          obtain rfl := List.length_eq_zero_iff.mp (show xs.length = 0 by omega)
          rw [List.map_nil] at hs
          cases hs

/-- **Packets with gaps around them come out as they are.** -/
theorem receiveStream_of_spaced {fs : List Bytes} {s : List (Option UInt8)} (h : Spaced fs s)
    (hfs : ∀ f ∈ fs, headlen < f.length ∧ f.length ≤ recvLength ∧
      datalen (f.take headlen) = f.length - headlen)
    (hraise : ∀ f ∈ fs.dropLast, ¬ Raises f) (n : Nat) (hn : s.length ≤ n) :
    receiveStream n s = fs := by
  induction h generalizing n with
  | nil =>
    cases n with
    | zero => rfl
    | succ n => rfl
  | gap _ ih =>
    rw [List.length_cons] at hn
    obtain ⟨k, rfl⟩ : ∃ k, n = k + 1 := ⟨n - 1, by omega⟩
    have hcall : ∀ t : List (Option UInt8),
        sockrecvStream recvLength (none :: t) = ((-1, none), t) := fun _ => rfl
    rw [receiveStream_timeout (hcall _)]
    exact ih hfs hraise k (by omega)
  | @piece p ps s _ ih =>
    obtain ⟨hlo, hhi, hlen⟩ := hfs p List.mem_cons_self
    have hcall : sockrecvStream recvLength (p.map some ++ s) = (((p.length : Int), some p), s) :=
      sockrecvStream_packet hlo hhi hlen
    rw [List.length_append, List.length_map] at hn
    obtain ⟨k, rfl⟩ : ∃ k, n = k + 1 := ⟨n - 1, by omega⟩
    obtain ⟨b, p', rfl⟩ : ∃ b p', p = b :: p' := by
      cases p with
      | nil => exact absurd hlo (by decide)
      | cons b p' => exact ⟨b, p', rfl⟩
    have hrest : ∀ f ∈ ps.dropLast, ¬ Raises f := by
      intro f hf
      cases ps with
      | nil => exact absurd hf List.not_mem_nil
      | cons q qs =>
        rw [List.dropLast_cons_cons] at hraise
        exact hraise f (List.mem_cons_of_mem _ hf)
    rw [List.map_cons, List.cons_append] at hcall ⊢
    rw [receiveStream_packet hcall hlo]
    rcases processThen_cases (b :: p') (receiveStream k s) with ⟨hraises, heq⟩ | ⟨-, heq⟩
    · -- then it is the last packet
      cases ps with
      | nil => exact heq
      | cons q qs =>
        rw [List.dropLast_cons_cons] at hraise
        exact absurd hraises (hraise _ List.mem_cons_self)
    · rw [heq, ih (fun f hf => hfs f (List.mem_cons_of_mem _ hf)) hrest k (by omega)]

/-! ## The connection -/

/-- More calls find nothing more. -/
theorem receiveStream_enough {n : Nat} {s : List (Option UInt8)} (h : s.length ≤ n) :
    receiveStream n s = receiveStream s.length s := by
  generalize hk : s.length = k at h
  have hk' : s.length ≤ k := Nat.le_of_eq hk
  clear hk
  induction k generalizing n s with
  | zero =>
    obtain rfl := List.length_eq_zero_iff.mp (Nat.le_zero.mp hk')
    cases n with
    | zero => rfl
    | succ n => rfl
  | succ k ih =>
    obtain ⟨n, rfl⟩ : ∃ m, n = m + 1 := ⟨n - 1, by omega⟩
    cases s with
    | nil => rfl
    | cons a s =>
      rw [List.length_cons] at hk'
      rcases sockrecvStream_cases (a :: s) with ⟨head, rest, hcall, -, -⟩ |
        ⟨d, rest, hcall, hlo, -, hs⟩ | ⟨xs, response, rest, hcall, hs⟩
      · rw [receiveStream_closed hcall, receiveStream_closed hcall]
      · have hlen := congrArg List.length hs
        rw [List.length_append, List.length_map, List.length_cons] at hlen
        rw [receiveStream_packet hcall hlo, receiveStream_packet hcall hlo,
          ih (by omega) (by omega)]
      · rw [receiveStream_timeout hcall, receiveStream_timeout hcall]
        rcases hs with hs | ⟨-, rfl⟩
        · have hlen := congrArg List.length hs
          rw [List.length_append, List.length_map, List.length_cons, List.length_cons] at hlen
          rw [ih (by omega) (by omega)]
        · exact ih (Nat.le_of_succ_le_succ h) (Nat.zero_le _)

/-- The loop has ended after as many calls as there are bytes and pauses. -/
theorem receiveLoop_enough {n : Nat} {input : List Arrival} (h : (stream input).length ≤ n) :
    receiveLoop n input = receive input := by
  rw [receive, receiveLoop_stream, receiveLoop_stream, receiveStream_enough h]

/-- A packet of the controller. -/
structure Packet where
  type : Int
  data : Bytes

/-- Its bytes. -/
def Packet.frame (p : Packet) : Bytes := wire p.type p.data

theorem length_frame (p : Packet) : p.frame.length = headlen + p.data.length := length_wire _ _

theorem datalen_frame {p : Packet} {fd : Int} (h : lyPacketFrame fd p.type p.data = .ok p.frame) :
    0 < p.data.length ∧ datalen p.frame = p.data.length ∧
      datalen (p.frame.take headlen) = p.data.length := by
  unfold lyPacketFrame at h
  split at h
  · cases h
  · rename_i hargs
    split at h
    · cases h
    · rename_i hsize
      rw [max_eq, hdr_eq] at hsize
      have hne : p.data ≠ [] := fun hnil => hargs (.inr (.inr hnil))
      have hint : IsInt32 p.data.length := by
        unfold IsInt32
        omega
      have hcut : p.frame = le32 p.type ++ (le32 p.data.length ++ p.data) := List.append_assoc ..
      have hdrop : p.frame.drop 4 = le32 p.data.length ++ p.data := by
        rw [hcut, List.drop_left' (by simp)]
      have hhead : (p.frame.take headlen).drop 4 = le32 p.data.length ++ [] := by
        rw [List.drop_take, hdrop, List.take_left' (by simp [headlen]), List.append_nil]
      have hlen : toUInt32 (p.data.length : Int) = p.data.length := by
        unfold toUInt32
        omega
      refine ⟨List.length_pos_iff.mpr hne, ?_, ?_⟩
      · rw [datalen, hdrop, int32Of_le32 hint, hlen]
      · rw [datalen, hhead, int32Of_le32 hint, hlen]

theorem type_pos_frame {p : Packet} {fd : Int} {f : Bytes}
    (h : lyPacketFrame fd p.type p.data = .ok f) : 0 < p.type := by
  unfold lyPacketFrame at h
  split at h
  · cases h
  · rename_i hargs
    push Not at hargs
    omega

/-- `lyproc.process` raises an exception on this packet: it is an echo request, or a query with the
id of a job. -/
def Packet.Fatal (p : Packet) : Prop :=
  p.type = PktType.testEchoRequest ∨ p.type = PktType.clcOsmQueryRequest ∧ p.data.length = 4

instance (p : Packet) : Decidable p.Fatal := inferInstanceAs (Decidable (_ ∨ _))

theorem packetType_frame {p : Packet} (hint : IsInt32 p.type) (hpos : 0 < p.type) :
    (packetType p.frame : Int) = p.type := by
  unfold IsInt32 at hint
  have hlt : toUInt32 p.type < 4294967296 := by
    unfold toUInt32
    omega
  have hback : (toUInt32 p.type : Int) = p.type := by
    unfold toUInt32
    omega
  have hbytes : packetType p.frame = toUInt32 p.type := by
    unfold packetType Packet.frame wire le32
    simp only [List.cons_append, List.getElem?_cons_zero, List.getElem?_cons_succ, Option.getD_some,
      UInt8.toNat_ofNat']
    omega
  rw [hbytes, hback]

theorem raises_frame {p : Packet} (hint : IsInt32 p.type) (hpos : 0 < p.type)
    (hlen : datalen p.frame = p.data.length) : Raises p.frame ↔ p.Fatal := by
  have htype := packetType_frame hint hpos
  have hdata : p.frame.drop headlen = p.data := List.drop_left' (by simp [headlen])
  unfold Raises process Packet.Fatal procOSMQuery
  dsimp only
  rw [htype, hdata, hlen]
  by_cases hecho : p.type = PktType.testEchoRequest
  · simp [hecho]
  · by_cases hquery : p.type = PktType.clcOsmQueryRequest
    · by_cases hfour : p.data.length = 4
      · simp [hquery, hfour, PktType.testEchoRequest, PktType.clcOsmQueryRequest, Except.map]
      · simp [hquery, hfour, PktType.testEchoRequest, PktType.clcOsmQueryRequest, Except.map]
    · simp [hecho, hquery]

/-- **When the OS manager processes what the controller has sent.** -/
theorem osm_framing_iff (fd : Int) (ps : List Packet) (input : List Arrival)
    (hint : ∀ p ∈ ps, IsInt32 p.type)
    (hsend : ∀ p ∈ ps, lyPacketFrame fd p.type p.data = .ok p.frame)
    (hbytes : items (stream input) = (ps.map Packet.frame).flatten) :
    receive input = ps.map Packet.frame ↔
      (∀ p ∈ ps, p.data.length ≤ 1016) ∧ Spaced (ps.map Packet.frame) (stream input) ∧
        ∀ p ∈ ps.dropLast, ¬ p.Fatal := by
  have h8 : headlen = 8 := rfl
  have h1024 : recvLength = 1024 := rfl
  have hraises : ∀ p ∈ ps, Raises p.frame ↔ p.Fatal := fun p hp =>
    raises_frame (hint p hp) (type_pos_frame (hsend p hp)) (datalen_frame (hsend p hp)).2.1
  rw [receive, receiveLoop_stream]
  constructor
  · intro heq
    refine ⟨?_, ?_, ?_⟩
    · intro p hp
      have hshort := receiveStream_short (stream input).length (stream input) p.frame
        (heq ▸ List.mem_map_of_mem hp)
      rw [length_frame] at hshort
      omega
    · have hall : (items (stream input)).length ≤
          (receiveStream (stream input).length (stream input)).flatten.length := by
        rw [heq, hbytes]
      have hspaced := receiveStream_spaced _ _ (Nat.le_refl _) hall
      rw [heq] at hspaced
      exact hspaced
    · intro p hp
      rw [← hraises p ((List.dropLast_sublist ps).subset hp)]
      refine receiveStream_raises (stream input).length (stream input) _ ?_
      rw [heq, ← List.map_dropLast]
      exact List.mem_map_of_mem hp
  · rintro ⟨hshort, hspaced, hlast⟩
    refine receiveStream_of_spaced hspaced ?_ ?_ _ (Nat.le_refl _)
    · intro f hf
      obtain ⟨p, hp, rfl⟩ := List.mem_map.mp hf
      obtain ⟨hpos, -, hlen⟩ := datalen_frame (hsend p hp)
      have := hshort p hp
      rw [hlen, length_frame]
      omega
    · intro f hf
      rw [← List.map_dropLast] at hf
      obtain ⟨p, hp, rfl⟩ := List.mem_map.mp hf
      rw [hraises p ((List.dropLast_sublist ps).subset hp)]
      exact hlast p hp

/-- The query of job 5. -/
def queryPacket : Packet := ⟨PktType.clcOsmQueryRequest, le32 5⟩

/-- The answer to a registration. -/
def registerReply : Packet := ⟨PktType.osmRegisterReply, le32 LyS.registeringDoneSuccess⟩

/-- A reply and a query in three chunks, with a pause between them. -/
def pausedBetween : List Arrival :=
  [.chunk 66 [156, 0], .chunk 0 [4, 0, 0, 0, 253, 3, 0, 0], .pause,
    .chunk 65 [78, 0, 0, 4, 0, 0, 0, 5, 0, 0, 0]]

theorem osm_framing_paused_between :
    receive pausedBetween = [registerReply.frame, queryPacket.frame] := by
  have hcases : ∀ p ∈ [registerReply, queryPacket], p = registerReply ∨ p = queryPacket := by
    intro p hp
    simpa using hp
  have hint : ∀ p ∈ [registerReply, queryPacket], IsInt32 p.type := by
    intro p hp
    rcases hcases p hp with rfl | rfl <;> decide
  have hsend : ∀ p ∈ [registerReply, queryPacket], lyPacketFrame 6 p.type p.data = .ok p.frame := by
    intro p hp
    rcases hcases p hp with rfl | rfl <;> rfl
  have hspaced : Spaced [registerReply.frame, queryPacket.frame] (stream pausedBetween) :=
    .piece (p := registerReply.frame) (.gap (.piece (p := queryPacket.frame) .nil))
  refine (osm_framing_iff 6 [registerReply, queryPacket] pausedBetween hint hsend (by decide)).mpr
    ⟨?_, hspaced, ?_⟩
  · intro p hp
    rcases hcases p hp with rfl | rfl <;> decide
  · intro p hp
    obtain rfl : p = registerReply := by simpa using hp
    decide

/-- One query with a pause in its header. -/
def pausedInside : List Arrival :=
  [.chunk 65 [78, 0], .pause, .chunk 0 [4, 0, 0, 0, 5, 0, 0, 0]]

/-- The query with a pause in its header is lost. -/
theorem osm_framing_loses : ¬ ∀ (ps : List Packet) (input : List Arrival),
    (∀ p ∈ ps, lyPacketFrame 6 p.type p.data = .ok p.frame) →
    items (stream input) = (ps.map Packet.frame).flatten → receive input = ps.map Packet.frame := by
  intro hall
  have hsend : ∀ p ∈ [queryPacket], lyPacketFrame 6 p.type p.data = .ok p.frame := by
    intro p hp
    obtain rfl := List.mem_singleton.mp hp
    rfl
  have hlost : receive pausedInside = [] := by decide +kernel
  have hbad := hall [queryPacket] pausedInside hsend (by decide)
  rw [hlost] at hbad
  cases hbad

end LuoYun.Osm
