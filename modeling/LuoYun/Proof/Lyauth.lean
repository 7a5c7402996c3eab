import LuoYun.Osm.Lyauth
import Mathlib.Data.List.Range

/-!
# The cipher of the OSM is RC4

`SBox`, `i` and `j` are the state of the generator, and each loop of `lyauth.py` does to them what
RC4 does to its permutation. `encode` starts with `generateKey` and sets `i` and `j`, so that what
earlier calls have left in the globals does not matter.
-/

namespace LuoYun.Osm

/-! ## Calls -/

section

variable {α β : Type} {g g' : Globals}

@[simp] theorem call_pure (a : α) : (pure a : Py α).call g = (.ok a, g) := rfl

@[simp] theorem call_get : (get : Py Globals).call g = (.ok g, g) := rfl

@[simp] theorem call_set : (set g' : Py Unit).call g = (.ok (), g') := rfl

@[simp] theorem call_modify (f : Globals → Globals) :
    (modify f : Py Unit).call g = (.ok (), f g) := rfl

@[simp] theorem call_throw (e : PyError) : (throw e : Py α).call g = (.error e, g) := rfl

/-- What a call goes on with, if its first part returns. -/
theorem call_bind {p : Py α} {f : α → Py β} {a : α} (h : p.call g = (.ok a, g')) :
    (p >>= f).call g = (f a).call g' := by
  unfold Py.call at *
  simp only [ExceptT.run_bind, StateT.run_bind, h]
  rfl

/-- An exception in the first part is the end. -/
theorem call_bind_error {p : Py α} {f : α → Py β} {e : PyError} (h : p.call g = (.error e, g')) :
    (p >>= f).call g = (.error e, g') := by
  unfold Py.call at *
  simp only [ExceptT.run_bind, StateT.run_bind, h]
  rfl

theorem call_item {l : List Nat} {k x : Nat} (h : l[k]? = some x) :
    (item l k).call g = (.ok x, g) := by
  rw [item, h]
  rfl

theorem call_item_none {l : List Nat} {k : Nat} (h : l[k]? = none) :
    (item l k).call g = (.error .indexError, g) := by
  rw [item, h]
  rfl

end

/-! ## The globals as a state of the generator -/

open Rc4 (State scheduleStep schedule start advance output)

/-- The globals that represent a state. -/
def ofState (s : State 256) : Globals := ⟨s.box, s.i, s.j⟩

theorem sbox_ofState (s : State 256) : (ofState s).sbox = s.box := by rw [ofState]

/-- Indices are added modulo `SIZE`. -/
theorem val_add_size (a b : Fin 256) : ((a : Nat) + (b : Nat)) % SIZE = (a + b : Fin 256) :=
  (Fin.val_add a b).symm

variable {s : State 256}

theorem swapItems_call : swapItems.call (ofState s) = (.ok (), ofState s.exchange) := by
  rw [swapItems, call_bind call_get]
  dsimp only [ofState]
  rw [call_bind (call_item (s.getElem?_box s.i)), call_bind (call_item (s.getElem?_box s.j)),
    call_set, s.box_exchange]
  rfl

theorem getByte_call : getByte.call (ofState s) =
    (.ok (output (advance s) : Nat), ofState (advance s)) := by
  have hi : ((s.i : Nat) + 1) % SIZE = (s.i + 1 : Fin 256) := val_add_size s.i 1
  rw [getByte, call_bind (call_modify _), call_bind call_get]
  dsimp only [ofState]
  rw [hi, call_bind (call_item (s.getElem?_box (s.i + 1))), val_add_size, call_bind call_set]
  -- the globals represent the state with the new indices
  refine (call_bind (swapItems_call (s := ⟨s.S, s.i + 1, s.j + s.S (s.i + 1)⟩))).trans ?_
  have hadv : State.exchange ⟨s.S, s.i + 1, s.j + s.S (s.i + 1)⟩ = advance s := rfl
  rw [hadv]
  generalize advance s = t
  rw [call_bind call_get]
  dsimp only [ofState]
  rw [call_bind (call_item (t.getElem?_box t.i)), call_bind (call_item (t.getElem?_box t.j)),
    val_add_size, call_item (t.getElem?_box _)]
  rfl

/-! ## The key -/

/-- The byte of the key that is used with an index. -/
def keyByte (mykey : Bytes) (k : Nat) : Fin 256 :=
  ⟨(mykey.getD (k % mykey.length) 0).toNat, UInt8.toNat_lt _⟩

variable {mykey : Bytes}

theorem fillSBox_call (l : List Nat) (g : Globals) :
    ∃ i, (fillSBox l).call g = (.ok (), ⟨g.sbox ++ l, i, g.j⟩) := by
  induction l generalizing g with
  | nil => exact ⟨g.i, by rw [List.append_nil]; rfl⟩
  | cons k l ih =>
    obtain ⟨i, hi⟩ := ih ⟨g.sbox ++ [k], k, g.j⟩
    refine ⟨i, (call_bind (call_modify _)).trans ?_⟩
    rw [List.append_assoc] at hi
    exact hi

theorem fillKBox_call (h : mykey ≠ []) (l : List Nat) (g : Globals) :
    ∃ i, (fillKBox mykey l).call g =
      (.ok (l.map fun k => (keyByte mykey k : Nat)), ⟨g.sbox, i, g.j⟩) := by
  have hpos : 0 < mykey.length := List.length_pos_iff.mpr h
  induction l generalizing g with
  | nil => exact ⟨g.i, rfl⟩
  | cons k l ih =>
    obtain ⟨i, hi⟩ := ih ⟨g.sbox, k, g.j⟩
    have hk : k % mykey.length < mykey.length := Nat.mod_lt _ hpos
    have hitem : (mykey.map UInt8.toNat)[k % mykey.length]? = some (keyByte mykey k : Nat) := by
      simp [keyByte, hk]
    refine ⟨i, ?_⟩
    rw [fillKBox, List.mapM_cons]
    have hfirst : (do
        modify fun s => { s with i := k }
        if mykey.length = 0 then throw .zeroDivisionError
        item (mykey.map UInt8.toNat) (k % mykey.length) : Py Nat).call g =
        (.ok (keyByte mykey k : Nat), ⟨g.sbox, k, g.j⟩) := by
      rw [call_bind (call_modify _), if_neg (Nat.ne_of_gt hpos)]
      exact call_item hitem
    rw [call_bind hfirst]
    exact call_bind hi

/-- The first index of the loops. -/
theorem range_size : ∃ l, List.range SIZE = 0 :: l := ⟨_, List.range_succ_eq_map (n := 255)⟩

/-- A key without bytes: the first loop is done, and the second one fails at once. -/
theorem generateKey_empty (g : Globals) :
    (generateKey []).call g = (.error .zeroDivisionError, ⟨List.range SIZE, 0, g.j⟩) := by
  obtain ⟨i, hi⟩ := fillSBox_call (List.range SIZE) { g with sbox := [] }
  obtain ⟨l, hl⟩ := range_size
  have hk : ∀ g, (fillKBox [] (List.range SIZE)).call g =
      (.error .zeroDivisionError, { g with i := 0 }) := by
    intro g
    rw [hl, fillKBox, List.mapM_cons]
    refine call_bind_error ?_
    rw [call_bind (call_modify _)]
    rfl
  rw [generateKey, call_bind (call_modify _), call_bind hi, call_bind_error (hk _),
    List.nil_append]

/-- A round of the third loop, whatever `i` was before. -/
theorem mixRound_call {kbox : List Nat} {key : Fin 256 → Fin 256} {k : Fin 256} (i : Nat)
    (hk : kbox[(k : Nat)]? = some (key k : Nat)) :
    (mixRound kbox k).call ⟨s.box, i, s.j⟩ = (.ok (), ofState (scheduleStep key s k)) := by
  have hj : ((s.j : Nat) + (s.S k : Nat) + (key k : Nat)) % SIZE =
      (s.j + s.S k + key k : Fin 256) := by
    rw [← val_add_size, ← val_add_size, Nat.mod_add_mod]
  rw [mixRound, call_bind (call_modify _), call_bind call_get,
    call_bind (call_item (s.getElem?_box k)), call_bind (call_item hk), call_bind call_set]
  dsimp only
  rw [hj]
  exact swapItems_call (s := ⟨s.S, k, s.j + s.S k + key k⟩)

/-- The third loop. There is a first round, which sets `i`. -/
theorem mixRounds_call {kbox : List Nat} {key : Fin 256 → Fin 256}
    (k : Fin 256) (l : List (Fin 256))
    (i : Nat) (hk : ∀ k : Fin 256, kbox[(k : Nat)]? = some (key k : Nat)) :
    (((k :: l).map Fin.val).forM (mixRound kbox)).call ⟨s.box, i, s.j⟩ =
      (.ok (), ofState ((k :: l).foldl (scheduleStep key) s)) := by
  induction l generalizing s i k with
  | nil => exact call_bind (mixRound_call i (hk k))
  | cons k' l ih => exact (call_bind (mixRound_call i (hk k))).trans (ih k' _)

/-- **`generateKey` is the key schedule.** -/
theorem generateKey_call (h : mykey ≠ []) (g : Globals) :
    (generateKey mykey).call g = (.ok (), ofState (schedule fun k => keyByte mykey k)) := by
  obtain ⟨i, hi⟩ := fillSBox_call (List.range SIZE) { g with sbox := [] }
  obtain ⟨i', hi'⟩ := fillKBox_call h (List.range SIZE) ⟨[] ++ List.range SIZE, i, g.j⟩
  have hk : ∀ k : Fin 256, ((List.range SIZE).map fun k => (keyByte mykey k : Nat))[(k : Nat)]? =
      some (keyByte mykey k : Nat) := by
    intro k
    have hget : (List.range SIZE)[(k : Nat)]? = some (k : Nat) := List.getElem?_range k.isLt
    rw [List.getElem?_map, hget]
    rfl
  have hrange : List.range SIZE = (List.finRange 256).map Fin.val :=
    List.ext_getElem (by simp [SIZE]) (by simp)
  have hfirst : ∃ k l, List.finRange 256 = k :: l := ⟨_, _, List.finRange_succ⟩
  obtain ⟨k, l, hl⟩ := hfirst
  have hrounds := mixRounds_call (s := ⟨Equiv.refl _, 0, 0⟩) k l i' hk
  have hbox : (⟨Equiv.refl _, 0, 0⟩ : State 256).box = List.range SIZE := State.box_refl 0 0
  rw [← hl, ← hrange, hbox, Fin.val_zero] at hrounds
  rw [generateKey, call_bind (call_modify _), call_bind hi, call_bind hi',
    call_bind (call_modify _), schedule, List.nil_append]
  dsimp only
  exact hrounds

/-! ## The output -/

/-- The exclusive or with an output, of numbers. -/
def xorNat (m : Nat) (k : Fin 256) : Nat := m ^^^ (k : Nat)

/-- The exclusive or with an output, of bytes. -/
def xorByte (b : UInt8) (k : Fin 256) : UInt8 := b ^^^ UInt8.ofNat k

/-- RC4 on bytes. -/
def rc4 (mykey data : Bytes) : Bytes := Rc4.crypt xorByte (start fun k => keyByte mykey k) data

/-- The bytes that `rc4` mixes the data with. -/
def keyStream (mykey : Bytes) (n : Nat) : UInt8 :=
  UInt8.ofNat (Rc4.output (Rc4.advance^[n + 1] (start fun k => keyByte mykey k)))

/-- `encode` sets the indices. -/
theorem ofState_reset (s : State 256) : ({ ofState s with i := 0, j := 0 } : Globals) =
    ofState ⟨s.S, 0, 0⟩ := by
  simp only [ofState, State.box_indices, Fin.val_zero]

theorem getBytes_call (data : List Nat) (s : State 256) :
    ∃ t, (data.mapM fun m => do let g ← getByte; return m ^^^ g).call (ofState s) =
      (.ok (Rc4.crypt xorNat s data), ofState t) := by
  induction data generalizing s with
  | nil => exact ⟨s, rfl⟩
  | cons m data ih =>
    obtain ⟨t, ht⟩ := ih (advance s)
    refine ⟨t, ?_⟩
    have hm : (do let g ← getByte; return m ^^^ g : Py Nat).call (ofState s) =
        (.ok (xorNat m (output (advance s))), ofState (advance s)) := call_bind getByte_call
    rw [List.mapM_cons, call_bind hm]
    exact call_bind ht

theorem encode_call (h : mykey ≠ []) (data : List Nat) (g : Globals) :
    ∃ t, (encode mykey data).call g =
      (.ok (Rc4.crypt xorNat (start fun k => keyByte mykey k) data), ofState t) := by
  obtain ⟨t, ht⟩ := getBytes_call data (start fun k => keyByte mykey k)
  refine ⟨t, ?_⟩
  rw [encode, call_bind (generateKey_call h g), call_bind (call_modify _), ofState_reset]
  exact ht

/-! ## Runs -/

/-- The globals represent a state of the generator. -/
def Keyed (g : Globals) : Prop := ∃ s, g = ofState s

/-- What holds from the import on: a key has been generated, or `SBox` is empty. -/
def Sane (g : Globals) : Prop := Keyed g ∨ (g.sbox = [] ∧ g.j < 256)

variable {g : Globals}

theorem Keyed.perm (h : Keyed g) : g.sbox.Perm (List.range SIZE) := by
  obtain ⟨s, rfl⟩ := h
  rw [sbox_ofState]
  exact s.box_perm

theorem Sane.j_lt (h : Sane g) : g.j < 256 := by
  rcases h with ⟨s, rfl⟩ | h
  · exact s.j.isLt
  · exact h.2

/-- Also a key without bytes leaves a permutation. -/
theorem generateKey_keyed (h : Sane g) (mykey : Bytes) : Keyed ((generateKey mykey).call g).2 := by
  by_cases hkey : mykey = []
  · refine ⟨⟨Equiv.refl _, 0, ⟨g.j, h.j_lt⟩⟩, ?_⟩
    rw [hkey, generateKey_empty, ofState, State.box_refl, Fin.val_zero]
  · exact ⟨_, congrArg Prod.snd (generateKey_call hkey g)⟩

theorem encode_keyed (h : Sane g) (mykey : Bytes) (data : List Nat) :
    Keyed ((encode mykey data).call g).2 := by
  by_cases hkey : mykey = []
  · have hfail := generateKey_keyed h mykey
    rw [hkey, generateKey_empty] at hfail
    rw [hkey, encode, call_bind_error (generateKey_empty g)]
    exact hfail
  · obtain ⟨t, ht⟩ := encode_call hkey data g
    exact ⟨t, congrArg Prod.snd ht⟩

/-- Without a key there is nothing to index. -/
theorem getByte_empty (h : g.sbox = []) :
    getByte.call g = (.error .indexError, { g with i := (g.i + 1) % SIZE }) := by
  rw [getByte, call_bind (call_modify _), call_bind call_get]
  refine call_bind_error (call_item_none ?_)
  rw [h]
  rfl

theorem Keyed.getByte (h : Keyed g) : ∃ x g', getByte.call g = (.ok x, g') ∧ Keyed g' := by
  obtain ⟨s, rfl⟩ := h
  exact ⟨_, _, getByte_call, advance s, rfl⟩

/-- A call keeps a key, and it never leaves anything but a key or nothing. -/
theorem PyCall.after_sane (h : Sane g) (c : PyCall) :
    Sane (c.after g) ∧ (Keyed g → Keyed (c.after g)) := by
  cases c with
  | generateKey mykey =>
    exact ⟨.inl (generateKey_keyed h mykey), fun _ => generateKey_keyed h mykey⟩
  | encode mykey data =>
    exact ⟨.inl (encode_keyed h mykey data), fun _ => encode_keyed h mykey data⟩
  | getByte =>
    have hkeyed : Keyed g → Keyed (PyCall.after g .getByte) := by
      intro hg
      obtain ⟨x, g', hx, hg'⟩ := hg.getByte
      rw [PyCall.after, hx]
      exact hg'
    refine ⟨?_, hkeyed⟩
    rcases h with h | ⟨hs, hj⟩
    · exact .inl (hkeyed h)
    · rw [PyCall.after, getByte_empty hs]
      exact .inr ⟨hs, hj⟩

theorem afterCalls_sane (h : Sane g) (calls : List PyCall) :
    Sane (afterCalls calls g) ∧ (Keyed g → Keyed (afterCalls calls g)) := by
  induction calls generalizing g with
  | nil => exact ⟨h, id⟩
  | cons c calls ih =>
    obtain ⟨hs, hk⟩ := c.after_sane h
    obtain ⟨hs', hk'⟩ := ih hs
    exact ⟨hs', fun hg => hk' (hk hg)⟩

/-- The globals after an import and any calls. -/
theorem sane_calls (calls : List PyCall) : Sane (afterCalls calls {}) :=
  (afterCalls_sane (.inr ⟨rfl, by decide⟩) calls).1

/-! ## RC4 -/

theorem toNat_xorByte (b : UInt8) (k : Fin 256) : (xorByte b k).toNat = xorNat b.toNat k := by
  rw [xorByte, UInt8.toNat_xor, UInt8.toNat_ofNat_of_lt' k.isLt]
  rfl

theorem encode_rc4 (h : mykey ≠ []) (data : Bytes) (g : Globals) :
    ((encode mykey (data.map UInt8.toNat)).call g).1 = .ok ((rc4 mykey data).map UInt8.toNat) := by
  obtain ⟨t, ht⟩ := encode_call h (data.map UInt8.toNat) g
  rw [ht, rc4, Rc4.map_crypt toNat_xorByte]

theorem rc4_rc4 (mykey data : Bytes) : rc4 mykey (rc4 mykey data) = data := by
  refine Rc4.crypt_crypt (fun b k => ?_) _ data
  rw [xorByte, xorByte, UInt8.xor_assoc, UInt8.xor_self, UInt8.xor_zero]

/-- **The cipher is RC4**, whatever was called before and in between. After `generateKey` the array
is a permutation and stays one, every `getByte` that returns leaves a permutation, and `encode`
encrypts from the start of the output of its key, so that it undoes itself. -/
theorem lyauth_is_rc4 (mykey : Bytes) (h : mykey ≠ []) (data : Bytes)
    (before between : List PyCall) :
    (∃ g, (generateKey mykey).call (afterCalls before {}) = (.ok (), g) ∧
      ∃ x g', getByte.call (afterCalls between g) = (.ok x, g') ∧
        g.sbox.Perm (List.range SIZE) ∧ (afterCalls between g).sbox.Perm (List.range SIZE) ∧
        g'.sbox.Perm (List.range SIZE)) ∧
    (∀ x g', getByte.call (afterCalls before {}) = (.ok x, g') → g'.sbox.Perm (List.range SIZE)) ∧
    ∃ code g, (encode mykey (data.map UInt8.toNat)).call (afterCalls before {}) = (.ok code, g) ∧
      code = (rc4 mykey data).map UInt8.toNat ∧
      ((encode mykey code).call (afterCalls between g)).1 = .ok (data.map UInt8.toNat) := by
  refine ⟨?_, ?_, ?_⟩
  · have hkeyed : Keyed (ofState (schedule fun k => keyByte mykey k)) := ⟨_, rfl⟩
    have hbetween := (afterCalls_sane (.inl hkeyed) between).2 hkeyed
    refine ⟨_, generateKey_call h _, ?_⟩
    obtain ⟨x, g', hx, hg'⟩ := hbetween.getByte
    exact ⟨x, g', hx, hkeyed.perm, hbetween.perm, hg'.perm⟩
  · intro x g' hx
    rcases sane_calls before with hs | ⟨hs, -⟩
    · obtain ⟨x', g'', hx', hg''⟩ := hs.getByte
      rw [hx'] at hx
      rw [← (Prod.mk.inj hx).2]
      exact hg''.perm
    · rw [getByte_empty hs] at hx
      cases hx
  · obtain ⟨t, ht⟩ := encode_call h (data.map UInt8.toNat) (afterCalls before {})
    have hcode := encode_rc4 h data (afterCalls before {})
    rw [ht] at hcode
    refine ⟨_, _, ht, Except.ok.inj hcode, ?_⟩
    rw [Except.ok.inj hcode, encode_rc4 h, rc4_rc4]

/-- A key of one byte, and a text of one. -/
theorem lyauth_is_rc4_one :
    ∃ code g, (encode [1] ([2].map UInt8.toNat)).call (afterCalls [.getByte] {}) = (.ok code, g) ∧
      code = (rc4 [1] [2]).map UInt8.toNat ∧
      ((encode [1] code).call (afterCalls [] g)).1 = .ok ([2].map UInt8.toNat) :=
  (lyauth_is_rc4 [1] (by decide) [2] [.getByte] []).2.2

end LuoYun.Osm
