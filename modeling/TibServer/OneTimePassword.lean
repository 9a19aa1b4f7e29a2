import TibServer.SecureHash

/-!
The keyed hash (RFC 2104) and the one-time password of a counter (RFC 4226), with the texts of
bytes and numbers.
-/

namespace OneTimePassword

open SecureHash

/-- A key as a whole block. -/
def blockKey (key : List Byte) : List Byte :=
  let key := if key.length ≤ 64 then key else sha1 key
  key ++ List.replicate (64 - key.length) 0

def hmac (key text : List Byte) : List Byte :=
  let key := blockKey key
  sha1 (key.map (· ^^^ 0x5c) ++ sha1 (key.map (· ^^^ 0x36) ++ text))

/-- The number that the bytes are written as. -/
def number (bytes : List Byte) : Nat := bytes.foldl (fun n b => n * 256 + b.toNat) 0

/-- The dynamic truncation of a keyed hash to 31 bits. -/
def truncate (hash : List Byte) : Nat :=
  let offset := (hash.getD 19 0).toNat % 16
  number ((hash.drop offset).take 4) % 2 ^ 31

def hotp (key : List Byte) (counter : BitVec 64) (digits : Nat) : Nat :=
  truncate (hmac key (longBytes counter)) % 10 ^ digits

/-! ### Texts -/

/-- A byte as two digits. -/
def hexByte (b : Byte) : List Char :=
  [Nat.digitChar (b.toNat / 16), Nat.digitChar (b.toNat % 16)]

def hex (bytes : List Byte) : List Char := bytes.flatMap hexByte

/-- The last decimal digits of a number. -/
def decimal : Nat → Nat → List Char
  | 0, _ => []
  | digits + 1, n => decimal digits (n / 10) ++ [Nat.digitChar (n % 10)]

@[simp] theorem decimal_length (digits n : Nat) : (decimal digits n).length = digits := by
  induction digits generalizing n with
  | zero => rfl
  | succ digits ih => rw [decimal, List.length_append, ih, List.length_singleton]

theorem decimal_mod (digits n : Nat) : decimal digits (n % 10 ^ digits) = decimal digits n := by
  induction digits generalizing n with
  | zero => rfl
  | succ digits ih =>
      have hmod : n % 10 ^ (digits + 1) % 10 = n % 10 :=
        Nat.mod_mod_of_dvd n (Dvd.intro_left _ (pow_succ 10 digits).symm)
      have hdiv : n % 10 ^ (digits + 1) / 10 = n / 10 % 10 ^ digits := by
        rw [pow_succ', Nat.mod_mul_right_div_self]
      rw [decimal, decimal, hmod, hdiv, ih]

theorem decimal_zero (digits : Nat) : decimal digits 0 = List.replicate digits '0' := by
  induction digits with
  | zero => rfl
  | succ digits ih =>
      rw [decimal, Nat.zero_div, ih, List.replicate_succ']
      rfl

/-- The last digits are the digits of the number, cut at the front or filled up with zeros. -/
theorem decimal_eq (digits n : Nat) :
    List.replicate (digits - min (Nat.toDigits 10 n).length digits) '0' ++
      (Nat.toDigits 10 n).drop
        ((Nat.toDigits 10 n).length - min (Nat.toDigits 10 n).length digits) = decimal digits n := by
  induction digits generalizing n with
  | zero => simp [decimal]
  | succ digits ih =>
      rw [decimal]
      rcases Nat.lt_or_ge n 10 with hlt | hge
      · rw [Nat.toDigits_of_lt_base hlt, Nat.div_eq_of_lt hlt, Nat.mod_eq_of_lt hlt, decimal_zero]
        simp
      · have hpos := Nat.length_toDigits_pos (b := 10) (n := n / 10)
        rw [Nat.toDigits_of_base_le (by omega) hge, List.length_append, List.length_singleton,
          Nat.add_min_add_right, Nat.add_sub_add_right, Nat.add_sub_add_right,
          List.drop_append_of_le_length (Nat.sub_le _ _), ← List.append_assoc, ih]

/-! ### Digits of bytes -/

@[simp] theorem hex_nil : hex [] = [] := rfl

@[simp] theorem hex_cons (b : Byte) (bytes : List Byte) :
    hex (b :: bytes) = hexByte b ++ hex bytes :=
  rfl

@[simp] theorem hex_length (bytes : List Byte) : (hex bytes).length = 2 * bytes.length := by
  induction bytes with
  | nil => rfl
  | cons b bytes ih =>
      rw [hex_cons, List.length_append, ih, List.length_cons]
      change 2 + 2 * bytes.length = _
      omega

theorem hex_drop (bytes : List Byte) (n : Nat) : (hex bytes).drop (2 * n) = hex (bytes.drop n) := by
  induction n generalizing bytes with
  | zero => rfl
  | succ n ih =>
      cases bytes with
      | nil => rfl
      | cons b bytes => exact ih bytes

theorem hex_take (bytes : List Byte) (n : Nat) : (hex bytes).take (2 * n) = hex (bytes.take n) := by
  induction n generalizing bytes with
  | zero => rfl
  | succ n ih =>
      cases bytes with
      | nil => rfl
      | cons b bytes => exact congrArg (hexByte b ++ ·) (ih bytes)

/-- The digit of a byte at an even or at an odd position. -/
def hexChar (b : Byte) (j : Nat) : Char :=
  if j % 2 = 0 then Nat.digitChar (b.toNat / 16) else Nat.digitChar (b.toNat % 16)

theorem hex_eq_map (bytes : List Byte) :
    hex bytes = (List.range (2 * bytes.length)).map fun j => hexChar (bytes.getD (j / 2) 0) j := by
  induction bytes with
  | nil => rfl
  | cons b bytes ih =>
      have hrange : List.range (2 * (b :: bytes).length) =
          0 :: 1 :: (List.range (2 * bytes.length)).map (· + 2) := by
        rw [List.length_cons, Nat.mul_succ, List.range_succ_eq_map, List.range_succ_eq_map,
          List.map_cons, List.map_map]
        rfl
      rw [hex_cons, ih, hrange, List.map_cons, List.map_cons, List.map_map]
      refine congrArg (hexByte b ++ ·) (List.map_congr_left fun j _ => ?_)
      have hdiv : (j + 2) / 2 = j / 2 + 1 := by omega
      have hmod : (j + 2) % 2 = j % 2 := by omega
      change _ = hexChar ((b :: bytes).getD ((j + 2) / 2) 0) (j + 2)
      rw [hdiv]
      unfold hexChar
      rw [hmod]
      rfl

theorem number_lt (bytes : List Byte) : number bytes < 256 ^ bytes.length := by
  induction bytes using List.reverseRecOn with
  | nil => exact Nat.one_pos
  | append_singleton bytes b ih =>
      have hb := b.isLt
      unfold number at ih ⊢
      rw [List.foldl_append, List.length_append, List.length_singleton, pow_succ]
      change List.foldl _ 0 bytes * 256 + b.toNat < _
      omega

end OneTimePassword
