import LuoYun.Web.Stream
import LuoYun.Util.PacketSpec

/-!
# The message stream between its two ends

Whatever the pieces are that a stream arrives in, a read of `n` bytes takes the first `n` bytes of
it, or fails if there are fewer (`readFromStream_eq`). So a stream of messages is read back message
by message (`readMsgs_round_trip`), and what `read_msg` does with a stream that is not of this kind
depends on its first eight bytes only (`readMsg_raises_iff`).
-/

namespace LuoYun.Web

/-- The bytes that can be read before the connection is closed or fails. -/
def received : List Arrival → Bytes
  | .data piece :: sock => if piece = [] then [] else piece ++ received sock
  | _ => []

/-! ## Reading -/

theorem received_cons {piece : Bytes} (h : piece ≠ []) (sock : List Arrival) :
    received (.data piece :: sock) = piece ++ received sock := if_neg h

/-- What `recv` hands out is taken off the stream. -/
theorem recv_some {n : Nat} (hn : 0 < n) {sock rest : List Arrival} {data : Bytes}
    (h : recv n sock = (some data, rest)) :
    data.length ≤ n ∧ (data = [] → received sock = []) ∧
      (data ≠ [] → received sock = data ++ received rest) := by
  cases sock with
  | nil =>
    obtain rfl := Option.some.inj (Prod.mk.inj h).1
    exact ⟨Nat.zero_le n, fun _ => rfl, fun hd => absurd rfl hd⟩
  | cons a sock =>
    cases a with
    | error =>
      obtain ⟨hnone, -⟩ := Prod.mk.inj h
      cases hnone
    | data piece =>
      obtain ⟨hdata, hrest⟩ := Prod.mk.inj h
      obtain rfl := Option.some.inj hdata
      have htake : piece.take n = [] ↔ piece = [] := by
        rw [List.take_eq_nil_iff]
        constructor
        · rintro (h0 | h0)
          · omega
          · exact h0
        · exact .inr
      refine ⟨List.length_take_le n piece, fun hd => if_pos (htake.mp hd), fun hd => ?_⟩
      have hne : piece ≠ [] := fun he => hd (htake.mpr he)
      rw [received_cons hne, ← hrest]
      split
      · rename_i hle
        rw [List.take_of_length_le hle]
      · rename_i hlt
        have hdrop : piece.drop n ≠ [] := by
          rw [Ne, List.drop_eq_nil_iff]
          exact hlt
        rw [received_cons hdrop, ← List.append_assoc, List.take_append_drop]

theorem recv_none {n : Nat} {sock rest : List Arrival} (h : recv n sock = (none, rest)) :
    received sock = [] := by
  cases sock with
  | nil => rfl
  | cons a sock =>
    cases a with
    | error => rfl
    | data piece =>
      obtain ⟨hnone, -⟩ := Prod.mk.inj h
      cases hnone

/-- The loop takes what is missing off the stream, or there is not enough. -/
theorem readLoop_spec (left : Nat) (got : Bytes) (sock : List Arrival) (hleft : 0 < left) :
    if left ≤ (received sock).length then
      ∃ rest, readLoop left got sock = (some (got ++ (received sock).take left), rest) ∧
        received rest = (received sock).drop left
    else (readLoop left got sock).1 = none := by
  induction left using Nat.strongRecOn generalizing got sock with
  | ind left ih =>
    have hn : 0 < if 2048 < left then 2048 else left := by split <;> omega
    have hle : (if 2048 < left then 2048 else left) ≤ left := by split <;> omega
    have hstep := readLoop.eq_1 left got sock
    generalize (if 2048 < left then 2048 else left) = n at *
    cases hr : recv n sock with
    | mk data rest =>
      rw [hr] at hstep
      cases data with
      | none =>
        rw [recv_none hr, if_neg (by rw [List.length_nil]; omega), hstep]
      | some data =>
        obtain ⟨hlen, hnil, hcons⟩ := recv_some hn hr
        dsimp only at hstep
        by_cases h0 : data.length = 0
        · rw [if_pos h0] at hstep
          rw [hnil (List.length_eq_zero_iff.mp h0), if_neg (by rw [List.length_nil]; omega), hstep]
        · have hne : data ≠ [] := fun he => h0 (List.length_eq_zero_iff.mpr he)
          rw [if_neg h0] at hstep
          -- what came is the front of the stream, and the rest is left to the next round
          by_cases hall : data.length = left
          · rw [if_pos hall] at hstep
            rw [hcons hne, if_pos (by rw [List.length_append]; omega), ← hall,
              List.take_left, List.drop_left, hall]
            exact ⟨rest, hstep, rfl⟩
          · rw [if_neg hall, if_neg (by omega)] at hstep
            have hmore := ih (left - data.length) (by omega) (got ++ data) rest (by omega)
            have hiff : left ≤ (data ++ received rest).length ↔ left - data.length ≤
                (received rest).length := by
              rw [List.length_append]
              omega
            rw [hstep, hcons hne]
            by_cases hin : left - data.length ≤ (received rest).length
            · rw [if_pos hin] at hmore
              rw [if_pos (hiff.mpr hin), List.take_append, List.drop_append,
                List.take_of_length_le (by omega),
                List.drop_eq_nil_of_le (by omega), ← List.append_assoc, List.nil_append]
              exact hmore
            · rw [if_neg hin] at hmore
              rw [if_neg (fun h => hin (hiff.mp h))]
              exact hmore

/-- **A read takes so many bytes off the stream**, however it arrives. -/
theorem readFromStream_some {n : Nat} {sock : List Arrival} (hn : 0 < n)
    (h : n ≤ (received sock).length) :
    ∃ rest, readFromStream n sock = (some ((received sock).take n), rest) ∧
      received rest = (received sock).drop n := by
  have hspec := readLoop_spec n [] sock hn
  rw [if_pos h] at hspec
  exact hspec

theorem readFromStream_none {n : Nat} {sock : List Arrival} (hn : 0 < n)
    (h : (received sock).length < n) :
    (readFromStream n sock).1 = none := by
  have hspec := readLoop_spec n [] sock hn
  rw [if_neg (by omega)] at hspec
  exact hspec

/-! ## Any stream -/

variable {J : Type} (json : JsonLib J)

/-- A header with the start mark and a length that no message has. -/
def BadHead (bs : Bytes) : Prop :=
  headlen ≤ bs.length ∧ (unpackHead (bs.take headlen)).start = 1 ∧
    ((unpackHead (bs.take headlen)).length ≤ 0 ∨
      (bodymax : Int) < (unpackHead (bs.take headlen)).length)

/-- Only the length can go wrong. -/
theorem readBody_ok_iff (head : MsgHead) (sock : List Arrival) :
    (∃ r, (readBody json head sock).1 = .ok r) ↔
      ¬ (head.start = 1 ∧ (head.length ≤ 0 ∨ (bodymax : Int) < head.length)) := by
  unfold readBody
  by_cases hstart : head.start = 1
  · rw [if_neg (not_not.mpr hstart)]
    by_cases hmax : (bodymax : Int) < head.length
    · -- the message to the log is what fails
      rw [if_pos hmax]
      constructor
      · rintro ⟨r, hr⟩
        cases hr
      · exact fun h => absurd ⟨hstart, .inr hmax⟩ h
    · rw [if_neg hmax]
      by_cases hpos : 0 < head.length
      · rw [if_pos hpos]
        refine ⟨fun _ h => ?_, fun _ => ?_⟩
        · omega
        · cases hr : readFromStream head.length.toNat sock with
          | mk body rest =>
            cases body with
            | none => exact ⟨none, rfl⟩
            | some body =>
              dsimp only
              by_cases hb : body = []
              · rw [if_pos hb]
                exact ⟨none, rfl⟩
              · rw [if_neg hb]
                exact ⟨_, rfl⟩
      · -- the body is not read, and is used all the same
        rw [if_neg hpos]
        constructor
        · rintro ⟨r, hr⟩
          cases hr
        · exact fun h => absurd ⟨hstart, .inl (by omega)⟩ h
  · rw [if_pos hstart]
    exact ⟨fun _ h => hstart h.1, fun _ => ⟨none, rfl⟩⟩

theorem readMsg_ok_iff (sock : List Arrival) :
    (∃ r, (readMsg json sock).1 = .ok r) ↔ ¬ BadHead (received sock) := by
  have hpos : 0 < headlen := by decide
  unfold readMsg
  by_cases hlen : headlen ≤ (received sock).length
  · obtain ⟨rest, hread, -⟩ := readFromStream_some hpos hlen
    have hne : (received sock).take headlen ≠ [] := by
      rw [Ne, List.take_eq_nil_iff]
      rintro (h | h)
      · exact absurd h (by decide)
      · rw [h] at hlen
        exact absurd hlen (by decide)
    rw [hread]
    dsimp only
    rw [if_neg hne, readBody_ok_iff]
    constructor
    · rintro h ⟨-, hbad⟩
      exact h hbad
    · exact fun h hbad => h ⟨hlen, hbad⟩
  · have hnone : (readFromStream headlen sock).1 = none := readFromStream_none hpos (by omega)
    generalize readFromStream headlen sock = r at hnone
    obtain ⟨data, rest⟩ := r
    obtain rfl : data = none := hnone
    exact ⟨fun _ h => hlen h.1, fun _ => ⟨none, rfl⟩⟩

/-- **When a stream is handled**: `read_msg` returns, and the body is delivered or the connection is
closed, unless the header has the start mark and a length that is not positive or too large. -/
theorem handleRead_iff (sock : List Arrival) :
    ((∃ r, (readMsg json sock).1 = .ok r) ↔ ¬ BadHead (received sock)) ∧
      ((handleRead json sock = .closed ∨ ∃ body, handleRead json sock = .delivered body) ↔
        ¬ BadHead (received sock)) := by
  have hok := readMsg_ok_iff json sock
  refine ⟨hok, ?_⟩
  rw [← hok]
  unfold handleRead
  cases (readMsg json sock).1 with
  | error e => simp
  | ok r =>
    cases r with
    | none => simp
    | some msg => simp

/-- A library for values that are their own texts. -/
def JsonLib.texts : JsonLib { t : Bytes // t ≠ [] } where
  null := ⟨cstr "null", by decide⟩
  str s := ⟨34 :: s ++ [34], by simp⟩
  obj fields :=
    ⟨123 :: [44, 32].intercalate (fields.map fun x => 34 :: x.1 ++ [34, 58, 32] ++ x.2.1) ++ [125],
    by simp⟩
  truthy j := j.1 ≠ cstr "null"
  dumps j := j.1
  loads t := if h : t = [] then none else some ⟨t, h⟩
  loads_dumps j := dif_neg j.2
  loads_nil := dif_pos rfl

/-- A message of no length, and one that is too long. -/
theorem handleRead_raises :
    handleRead JsonLib.texts [.data [1, 2, 3, 0, 0, 0, 0, 0]] = .raised .unboundLocalError ∧
      handleRead JsonLib.texts [.data [1, 2, 3, 0, 1, 0, 160, 0]] = .raised .nameError := by
  have hread : ∀ bs : Bytes, bs.length = 8 →
      readFromStream headlen [.data bs] = (some bs, []) := by
    intro bs hbs
    have hne : bs ≠ [] := by
      rintro rfl
      cases hbs
    rw [readFromStream, readLoop, recv, List.take_of_length_le (by rw [hbs]; decide)]
    simp [hbs, headlen]
  constructor
  · rw [handleRead, readMsg, hread _ rfl]
    decide +kernel
  · rw [handleRead, readMsg, hread _ rfl]
    decide +kernel

/-! ## A stream of messages -/

/-- No error, and every piece has something in it. -/
def Clean (sock : List Arrival) : Prop := ∀ a ∈ sock, ∃ piece, piece ≠ [] ∧ a = .data piece

theorem recv_clean {n : Nat} {sock : List Arrival} (h : Clean sock) : Clean (recv n sock).2 := by
  cases sock with
  | nil => exact h
  | cons a sock =>
    have hrest : Clean sock := fun b hb => h b (List.mem_cons_of_mem _ hb)
    cases a with
    | error => exact hrest
    | data piece =>
      unfold recv
      dsimp only
      split
      · exact hrest
      · rename_i hlt
        intro b hb
        rcases List.mem_cons.mp hb with rfl | hb
        · exact ⟨piece.drop n, by rw [Ne, List.drop_eq_nil_iff]; exact hlt, rfl⟩
        · exact hrest b hb

theorem readLoop_clean (left : Nat) (got : Bytes) (sock : List Arrival) (h : Clean sock) :
    Clean (readLoop left got sock).2 := by
  induction left using Nat.strongRecOn generalizing got sock with
  | ind left ih =>
    rw [readLoop]
    have hr := recv_clean (n := if 2048 < left then 2048 else left) h
    generalize recv (if 2048 < left then 2048 else left) sock = r at *
    obtain ⟨data, rest⟩ := r
    cases data with
    | none => exact hr
    | some data =>
      dsimp only at hr ⊢
      split
      · exact hr
      · split
        · exact hr
        · split
          · exact hr
          · exact ih _ (by omega) _ _ hr

/-- A clean stream that has nothing left is at its end. -/
theorem Clean.eq_nil {sock : List Arrival} (h : Clean sock)
    (hr : received sock = []) : sock = [] := by
  cases sock with
  | nil => rfl
  | cons a sock =>
    obtain ⟨piece, hne, rfl⟩ := h a List.mem_cons_self
    rw [received_cons hne] at hr
    exact absurd (List.append_eq_nil_iff.mp hr).1 hne

theorem received_map_data {pieces : List Bytes} (h : [] ∉ pieces) :
    received (pieces.map .data) = pieces.flatten := by
  induction pieces with
  | nil => rfl
  | cons piece pieces ih =>
    rw [List.mem_cons, not_or] at h
    rw [List.map_cons, received_cons (Ne.symm h.1), ih h.2, List.flatten_cons]

theorem clean_map_data {pieces : List Bytes} (h : [] ∉ pieces) : Clean (pieces.map .data) := by
  intro a ha
  obtain ⟨piece, hp, rfl⟩ := List.mem_map.mp ha
  exact ⟨piece, fun he => h (he ▸ hp), rfl⟩

theorem length_packHead (n : Nat) : (packHead n).length = headlen := by
  rw [packHead, List.length_append, le32]
  rfl

/-- Packing and unpacking agree. -/
theorem unpackHead_packHead {n : Nat} (h : n ≤ bodymax) : unpackHead (packHead n) = ⟨1, 3, n⟩ := by
  have hint : IsInt32 n := by
    unfold IsInt32
    unfold bodymax at h
    omega
  have hle := int32Of_le32 hint []
  rw [List.append_nil] at hle
  have hdrop : (packHead n).drop 4 = le32 n := by
    rw [packHead]
    exact List.drop_left' rfl
  have hget : ∀ i < 4, (packHead n).getD i 0 = [1, 2, 3, 0].getD i 0 := by
    intro i hi
    rw [packHead, List.getD_eq_getElem?_getD, List.getElem?_append_left hi,
      List.getD_eq_getElem?_getD]
  unfold unpackHead
  rw [hdrop, hle, hget 0 (by decide), hget 2 (by decide), hget 3 (by decide)]
  have h0 : int8 ([1, 2, 3, 0].getD 0 0) = 1 := rfl
  have h2 : int16 ([1, 2, 3, 0].getD 2 0) ([1, 2, 3, 0].getD 3 0) = 3 := by decide
  rw [h0, h2]

variable {json}

theorem dumps_ne_nil (j : J) : json.dumps j ≠ [] := by
  intro h
  have := json.loads_dumps j
  rw [h, json.loads_nil] at this
  cases this

/-- What the other side is to find under a name: what `send_msg` was given. A `call` or `call_me`
that counts as false is left out. -/
def MsgCall.given (json : JsonLib J) (c : MsgCall J) (name : Bytes) : Option J :=
  if name = cstr "msg" then some c.msg
  else if name = cstr "key" then some (json.str c.key)
  else if name = cstr "call" then c.call.filter json.truthy
  else if name = cstr "call_me" then c.callMe.filter json.truthy
  else none

/-- The dictionary with what the call was given, and nothing else. -/
def MsgCall.IsDict (json : JsonLib J) (c : MsgCall J) (body : J) : Prop :=
  ∃ d, body = json.obj d ∧ (d.map Prod.fst).Nodup ∧ ∀ name, d.lookup name = c.given json name

theorem entry_eq (json : JsonLib J) (name : String) (value : Option J) :
    entry json name value = ((value.filter json.truthy).map fun j => (cstr name, j)).toList := by
  cases value with
  | none => rfl
  | some j =>
    rw [entry, Option.filter_some]
    cases json.truthy j <;> rfl

theorem lookup_cons_if (name : Bytes) (p : Bytes × J) (d : List (Bytes × J)) :
    (p :: d).lookup name = if name = p.1 then some p.2 else d.lookup name := by
  rw [List.lookup_cons]
  by_cases h : name = p.1
  · rw [if_pos h, beq_iff_eq.mpr h]
  · rw [if_neg h, beq_eq_false_iff_ne.mpr h]

/-- What is sent is that dictionary. -/
theorem body_isDict (json : JsonLib J) (c : MsgCall J) : c.IsDict json (c.body json) := by
  refine ⟨_, rfl, ?_, fun name => ?_⟩
  · rw [entry_eq, entry_eq]
    cases c.call.filter json.truthy <;> cases c.callMe.filter json.truthy
    · exact (by decide : [cstr "msg", cstr "key"].Nodup)
    · exact (by decide : [cstr "msg", cstr "key", cstr "call_me"].Nodup)
    · exact (by decide : [cstr "msg", cstr "key", cstr "call"].Nodup)
    · exact (by decide : [cstr "msg", cstr "key", cstr "call", cstr "call_me"].Nodup)
  · rw [entry_eq, entry_eq, MsgCall.given]
    by_cases hcall : name = cstr "call"
    -- the name stands before the one behind it, which is another
    · have hme : cstr "call" ≠ cstr "call_me" := by decide
      rw [hcall]
      cases c.call.filter json.truthy <;> cases c.callMe.filter json.truthy <;>
        simp [lookup_cons_if, hme]
    · cases c.call.filter json.truthy <;> cases c.callMe.filter json.truthy <;>
        simp [lookup_cons_if, hcall]

/-- What `read_msg` makes of a message. -/
def MsgCall.format (json : JsonLib J) (c : MsgCall J) : MsgFormat J :=
  ⟨3, (json.dumps (c.body json)).length, c.body json⟩

/-- A message at the front of the stream is read, and no more. -/
theorem readMsg_message {c : MsgCall J} (hkey : c.key ≠ [])
    (hmax : (json.dumps (c.body json)).length ≤ bodymax) {sock : List Arrival} {more : Bytes}
    (hclean : Clean sock) (hr : received sock = sendMsg json c ++ more) :
    ∃ rest, readMsg json sock = (.ok (some (c.format json)), rest) ∧ Clean rest ∧
      received rest = more := by
  have hne : json.dumps (c.body json) ≠ [] := dumps_ne_nil (c.body json)
  rw [sendMsg, if_neg hkey, List.append_assoc] at hr
  unfold MsgCall.format
  generalize hbody : json.dumps (c.body json) = body at *
  have hpos : 0 < body.length := List.length_pos_iff.mpr hne
  have hhead := length_packHead body.length
  obtain ⟨mid, hread, hmid⟩ := @readFromStream_some headlen sock (by decide)
    (by rw [hr, List.length_append, hhead]; omega)
  rw [hr, ← hhead, List.take_left] at hread
  rw [hr, ← hhead, List.drop_left] at hmid
  have hcleanMid : Clean mid := by
    have := readLoop_clean headlen [] sock hclean
    rw [← readFromStream, ← hhead, hread] at this
    exact this
  obtain ⟨rest, hread', hrest⟩ := @readFromStream_some body.length mid hpos
    (by rw [hmid, List.length_append]; omega)
  rw [hmid, List.take_left] at hread'
  rw [hmid, List.drop_left] at hrest
  refine ⟨rest, ?_, ?_, hrest⟩
  · have hload : loadJson json body = c.body json := by
      rw [loadJson, if_neg hne, ← hbody, json.loads_dumps]
      rfl
    have hlen : ¬ (bodymax : Int) < body.length := by omega
    rw [readMsg, ← hhead, hread]
    dsimp only
    rw [if_neg (by intro h; rw [h] at hhead; cases hhead), unpackHead_packHead hmax, readBody]
    dsimp only
    rw [if_neg (not_not.mpr rfl), if_neg hlen, if_pos (by omega), Int.toNat_natCast, hread']
    dsimp only
    rw [if_neg hne, hload]
  · have := readLoop_clean body.length [] mid hcleanMid
    rw [← readFromStream, hread'] at this
    exact this

theorem readMsgs_clean {calls : List (MsgCall J)} (hkey : ∀ c ∈ calls, c.key ≠ [])
    (hmax : ∀ c ∈ calls, (json.dumps (c.body json)).length ≤ bodymax) {sock : List Arrival}
    (hclean : Clean sock) (hr : received sock = calls.flatMap (sendMsg json)) :
    readMsgs json calls.length sock = (calls.map fun c => .ok (some (c.format json)), []) := by
  induction calls generalizing sock with
  | nil =>
    rw [hclean.eq_nil hr]
    rfl
  | cons c calls ih =>
    rw [List.flatMap_cons] at hr
    obtain ⟨rest, hread, hrest, hmore⟩ :=
      readMsg_message (hkey c List.mem_cons_self) (hmax c List.mem_cons_self) hclean hr
    have hih := ih (fun d hd => hkey d (List.mem_cons_of_mem _ hd))
      (fun d hd => hmax d (List.mem_cons_of_mem _ hd)) hrest hmore
    rw [List.length_cons, readMsgs, hread, hih]
    rfl

/-- **Messages come back**: however the stream is cut, as many reads return the dictionaries that
were sent, in their order, and nothing is left to read. In each there is what the call was given. -/
theorem readMsgs_round_trip (json : JsonLib J) (calls : List (MsgCall J)) (pieces : List Bytes)
    (hkey : ∀ c ∈ calls, c.key ≠ [])
    (hmax : ∀ c ∈ calls, (json.dumps (c.body json)).length ≤ bodymax) (hpieces : [] ∉ pieces)
    (hcut : pieces.flatten = calls.flatMap (sendMsg json)) :
    readMsgs json calls.length (pieces.map .data) =
      (calls.map fun c => .ok (some (c.format json)), []) ∧
      ∀ c ∈ calls, c.IsDict json (c.format json).body :=
  ⟨readMsgs_clean hkey hmax (clean_map_data hpieces) ((received_map_data hpieces).trans hcut),
    fun c _ => body_isDict json c⟩

/-- Two messages, in three pieces. -/
theorem readMsgs_round_trip_two :
    let json := JsonLib.texts
    let first : MsgCall _ := { msg := json.null, key := cstr "a" }
    let second : MsgCall _ :=
      { msg := json.str (cstr "hi"), key := cstr "b", call := some (json.str (cstr "f")) }
    let bytes := [first, second].flatMap (sendMsg json)
    readMsgs json 2 ([bytes.take 5, (bytes.drop 5).take 60, bytes.drop 65].map .data) =
      ([.ok (some (first.format json)), .ok (some (second.format json))], []) ∧
      ∀ c ∈ [first, second], c.IsDict json (c.format json).body := by
  refine readMsgs_round_trip JsonLib.texts
    [{ msg := JsonLib.texts.null, key := cstr "a" },
      { msg := JsonLib.texts.str (cstr "hi"), key := cstr "b",
        call := some (JsonLib.texts.str (cstr "f")) }] _ ?_ ?_ ?_ ?_
  · decide
  · decide
  · decide
  · rfl

end LuoYun.Web
