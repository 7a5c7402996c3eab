import LuoYun.Base

/-!
# `lyauth.c`: challenge and response

A party proves that it knows the shared secret by encrypting the other's challenge with it.
The cipher is RC4 through libgcrypt, which is outside the repository: `Cipher` gives the
keystream of every key it accepts, and encryption and decryption are the same XOR, from the
start of the keystream on every call. A challenge is the text form of a uuid.
-/

namespace LuoYun

/-- The text form of a uuid, as `uuid_unparse` writes it. -/
structure Uuid where
  text : Bytes
  length_text : text.length = 36
  no_zero : (0 : UInt8) ∉ text
  deriving DecidableEq

/-- `gcry_cipher_setkey` for ARCFOUR: the keystream of a key, or a refusal. -/
abbrev Cipher := Bytes → Option (Nat → UInt8)

/-- `AuthConfig`. -/
structure AuthConfig where
  secret : Option Bytes := none
  challenge : Option Uuid := none
  deriving DecidableEq

/-- XOR with a keystream that starts at `k`. -/
def xorFrom (ks : Nat → UInt8) (k : Nat) : Bytes → Bytes
  | [] => []
  | b :: bs => (b ^^^ ks k) :: xorFrom ks (k + 1) bs

/-- `lyauth_encrypt` and `lyauth_decrypt` in place; `none` is a negative return. -/
def lyauthCrypt (cipher : Cipher) (secret data : Bytes) : Option Bytes :=
  (cipher secret).map fun ks => xorFrom ks 0 data

/-- `lyauth_answer`: the data afterwards, or `none` for `-1`. -/
def lyauthAnswer (cipher : Cipher) (ac : AuthConfig) (data : Bytes) : Option Bytes :=
  match ac.secret with
  | none => some data
  | some secret => lyauthCrypt cipher secret data

/-- `tolower`. -/
def toLower (b : UInt8) : UInt8 := if 65 ≤ b ∧ b ≤ 90 then b + 32 else b

/-- `strcasecmp(challenge, data) == 0`, where the challenge ends before the data does. -/
def strcaseEq (challenge : Bytes) (data : Bytes) : Bool :=
  (data.take challenge.length).map toLower == challenge.map toLower &&
    data[challenge.length]? == some 0

/-- `lyauth_verify`: what it returns and the data afterwards. -/
def lyauthVerify (cipher : Cipher) (ac : AuthConfig) (data : Bytes) : Int × Bytes :=
  match ac.challenge with
  | none => (-1, data)
  | some ch =>
    match lyauthAnswer cipher ac data with
    | none => (-1, data)
    | some data => (if strcaseEq ch.text data then 1 else 0, data)

/-- `bzero(ai->data, n); strncpy(ai->data, s, n)`. -/
def strncpy (n : Nat) (s : Bytes) : Bytes := (s ++ List.replicate n 0).take n

/-! ## The cipher is an involution -/

@[simp] theorem length_xorFrom (ks : Nat → UInt8) (k : Nat) (bs : Bytes) :
    (xorFrom ks k bs).length = bs.length := by
  induction bs generalizing k with
  | nil => rfl
  | cons b bs ih => simp [xorFrom, ih]

theorem xorFrom_xorFrom (ks : Nat → UInt8) (k : Nat) (bs : Bytes) :
    xorFrom ks k (xorFrom ks k bs) = bs := by
  induction bs generalizing k with
  | nil => rfl
  | cons b bs ih =>
    rw [xorFrom, xorFrom, ih]
    rw [UInt8.xor_assoc, UInt8.xor_self, UInt8.xor_zero]

@[simp] theorem length_strncpy (n : Nat) (s : Bytes) : (strncpy n s).length = n := by
  simp [strncpy]

theorem length_lyauthAnswer {cipher : Cipher} {ac : AuthConfig} {data data' : Bytes}
    (h : lyauthAnswer cipher ac data = some data') : data'.length = data.length := by
  unfold lyauthAnswer lyauthCrypt at h
  split at h
  · rw [Option.some.inj h]
  · obtain ⟨ks, -, rfl⟩ := Option.map_eq_some_iff.mp h
    exact length_xorFrom _ _ _

/-- A challenge padded to the length of the authentication data is recognised. -/
theorem strcaseEq_strncpy (ch : Uuid) :
    strcaseEq ch.text (strncpy luoyunAuthDataLen ch.text) = true := by
  have hlen := ch.length_text
  have htake : (strncpy luoyunAuthDataLen ch.text).take ch.text.length = ch.text := by
    rw [strncpy, List.take_take, Nat.min_eq_left (by rw [hlen]; decide), List.take_left' rfl]
  have hzero : (strncpy luoyunAuthDataLen ch.text)[ch.text.length]? = some 0 := by
    rw [strncpy, List.getElem?_take_of_lt (by rw [hlen]; decide),
      List.getElem?_append_right (by omega)]
    rw [Nat.sub_self]
    rfl
  rw [strcaseEq, htake, hzero]
  simp

end LuoYun
