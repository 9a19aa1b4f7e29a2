import Mathlib.Data.List.TakeWhile
import TibServer.MessageDigest

/-!
The tokens of the authenticator are the one-time passwords of six digits of a counter.
-/

namespace TibServer.Authenticator

open SecureHash OneTimePassword

/-! ### Hexadecimal numbers -/

theorem hexValue_digitChar {d : Nat} (h : d < 16) : hexValue (Nat.digitChar d) = some d := by
  interval_cases d <;> rfl

theorem hexDigit_lt (b : Byte) : b.toNat / 16 < 16 ∧ b.toNat % 16 < 16 := by
  have hlt := b.isLt
  omega

theorem hex_isDigit (bytes : List Byte) : ∀ c ∈ hex bytes, (hexValue c).isSome := by
  induction bytes with
  | nil => exact fun c hc => absurd hc List.not_mem_nil
  | cons b bytes ih =>
      intro c hc
      obtain ⟨hhigh, hlow⟩ := hexDigit_lt b
      rcases List.mem_append.mp hc with hb | hrest
      · rcases List.mem_pair.mp hb with rfl | rfl
        · rw [hexValue_digitChar hhigh]
          rfl
        · rw [hexValue_digitChar hlow]
          rfl
      · exact ih c hrest

theorem hex_value (bytes : List Byte) (n : Nat) :
    ((hex bytes).filterMap hexValue).foldl (fun n digit => n * 16 + digit) n =
      bytes.foldl (fun n b => n * 256 + b.toNat) n := by
  induction bytes generalizing n with
  | nil => rfl
  | cons b bytes ih =>
      obtain ⟨hhigh, hlow⟩ := hexDigit_lt b
      have hb : (hexByte b).filterMap hexValue = [b.toNat / 16, b.toNat % 16] := by
        unfold hexByte
        rw [List.filterMap_cons_some (hexValue_digitChar hhigh),
          List.filterMap_cons_some (hexValue_digitChar hlow), List.filterMap_nil]
      have hvalue : (n * 16 + b.toNat / 16) * 16 + b.toNat % 16 = n * 256 + b.toNat := by omega
      rw [hex_cons, List.filterMap_append, hb, List.foldl_append, ih]
      simp only [List.foldl_cons, List.foldl_nil, hvalue]

/-- A number of so few bytes fits into a `long`. -/
theorem stol_hex {bytes : List Byte} (hne : bytes ≠ []) (hlength : bytes.length ≤ 7) :
    stol (hex bytes) = some (number bytes) := by
  have hwhile : (hex bytes).takeWhile (fun c => (hexValue c).isSome) = hex bytes :=
    List.takeWhile_eq_self_iff.mpr (hex_isDigit bytes)
  have hdigits : (hex bytes).filterMap hexValue ≠ [] := by
    obtain ⟨b, rest, rfl⟩ := List.exists_cons_of_ne_nil hne
    rw [hex_cons, List.filterMap_append]
    unfold hexByte
    rw [List.filterMap_cons_some (hexValue_digitChar (hexDigit_lt b).1)]
    exact List.cons_ne_nil _ _
  have hfits : number bytes < 2 ^ LONG_BITS :=
    calc number bytes < 256 ^ bytes.length := number_lt bytes
      _ ≤ 256 ^ 7 := Nat.pow_le_pow_right (by omega) hlength
      _ < 2 ^ LONG_BITS := by decide
  unfold stol
  dsimp only
  rw [hwhile, hex_value]
  exact if_neg (not_or.mpr ⟨hdigits, not_le.mpr hfits⟩)

theorem substr_hex (bytes : List Byte) {i : Nat} (n : Nat) (h : i ≤ bytes.length) :
    substr (hex bytes) (2 * i) (2 * n) = some (hex ((bytes.drop i).take n)) := by
  unfold substr
  rw [hex_length, if_pos (by omega), hex_drop, hex_take]

/-! ### The message and the pads -/

theorem setWidth_and (x : BitVec 32) : (x &&& 0xff).setWidth 8 = x.setWidth 8 := by
  apply BitVec.eq_of_toNat_eq
  have hand : (x &&& 0xff).toNat = x.toNat % 256 := by
    rw [BitVec.toNat_and]
    exact Nat.and_two_pow_sub_one_eq_mod x.toNat 8
  rw [BitVec.toNat_setWidth, BitVec.toNat_setWidth, hand]
  exact Nat.mod_mod _ _

/-- The ticks are the counter, of which the first four bytes are zero. -/
theorem tickMessage_eq (ticks : BitVec 32) : tickMessage ticks = longBytes (ticks.setWidth 64) := by
  have hhigh : (ticks.setWidth 64).extractLsb' 32 32 = 0 := by
    apply BitVec.eq_of_toNat_eq
    have hlt := ticks.isLt
    rw [BitVec.extractLsb'_toNat, BitVec.toNat_setWidth, Nat.shiftRight_eq_div_pow]
    change _ = 0
    omega
  have hlow : (ticks.setWidth 64).extractLsb' 0 32 = ticks := by
    apply BitVec.eq_of_toNat_eq
    have hlt := ticks.isLt
    rw [BitVec.extractLsb'_toNat, BitVec.toNat_setWidth, Nat.shiftRight_zero]
    omega
  have hzero : ∀ n, 32 ≤ n → ticks.extractLsb' n 8 = 0 := by
    intro n hn
    rw [← setWidth_shift, BitVec.ushiftRight_eq_zero hn]
    rfl
  have hmessage : tickMessage ticks = [0, ticks.extractLsb' 48 8, ticks.extractLsb' 40 8,
      ticks.extractLsb' 32 8, ticks.extractLsb' 24 8, ticks.extractLsb' 16 8,
      ticks.extractLsb' 8 8, ticks.extractLsb' 0 8] := by
    unfold tickMessage
    simp only [← BitVec.shiftRight_add, setWidth_and, setWidth_shift, List.foldl_cons,
      List.foldl_nil]
    rw [← setWidth_shift ticks 0, BitVec.ushiftRight_zero]
    rfl
  unfold longBytes
  rw [hhigh, hlow, hmessage, hzero 48 (by omega), hzero 40 (by omega), hzero 32 (by omega)]
  rfl

theorem keyPad_eq (fill : Byte) {key : List Byte} (h : key.length ≤ 64) :
    keyPad fill key = (blockKey key).map (· ^^^ fill) := by
  have hloop : ∀ n ≤ key.length, (List.range n).foldl
      (fun pad i => pad.set i (pad.getD i 0 ^^^ key.getD i 0)) (List.replicate 64 fill) =
        (key.take n).map (· ^^^ fill) ++ List.replicate (64 - n) fill := by
    intro n hn
    induction n with
    | zero => rfl
    | succ n ih =>
        have hsplit :
            List.replicate (64 - n) fill = fill :: List.replicate (64 - (n + 1)) fill := by
          rw [← List.replicate_succ]
          congr 1
          omega
        have hlength : ((key.take n).map (· ^^^ fill)).length = n := by
          rw [List.length_map, List.length_take]
          omega
        have htake : key.take (n + 1) = key.take n ++ [key.getD n 0] := by
          rw [List.take_succ_eq_append_getElem (by omega), List.getD_eq_getElem?_getD,
            List.getElem?_eq_getElem (by omega)]
          rfl
        rw [List.range_succ, List.foldl_append, ih (by omega), List.foldl_cons, List.foldl_nil,
          hsplit, List.set_append_right _ _ hlength.le, hlength, Nat.sub_self, htake,
          List.map_append, List.append_assoc, List.getD_eq_getElem?_getD,
          List.getElem?_append_right hlength.le, hlength, Nat.sub_self]
        exact congrArg (fun b => (key.take n).map (· ^^^ fill) ++ b :: _) (BitVec.xor_comm _ _)
  unfold keyPad blockKey
  rw [hloop key.length le_rfl, List.take_length]
  dsimp only
  rw [if_pos h, List.map_append, List.map_replicate]
  exact congrArg (fun b => _ ++ List.replicate _ b) BitVec.zero_xor.symm

/-! ### The token -/

theorem appendHash_eq (oKeyPad bytes : List Byte) (h : bytes.length = 20) :
    appendHash oKeyPad (hex bytes) = some (oKeyPad ++ bytes) := by
  have hloop : ∀ n ≤ bytes.length, (List.range n).foldlM (fun oKeyPad i => do
      let value ← stol (← substr (hex bytes) (2 * i) 2)
      return oKeyPad ++ [BitVec.ofNat 8 value]) oKeyPad = some (oKeyPad ++ bytes.take n) := by
    intro n hn
    induction n with
    | zero => rw [List.take_zero, List.append_nil]; rfl
    | succ n ih =>
        have hbyte : (bytes.drop n).take 1 = [bytes[n]] := by
          rw [List.drop_eq_getElem_cons (by omega)]
          rfl
        have hnumber : number [bytes[n]] = bytes[n].toNat := Nat.zero_add _
        have hsubstr := substr_hex bytes 1 (show n ≤ bytes.length by omega)
        rw [hbyte] at hsubstr
        rw [List.range_succ, List.foldlM_append, ih (by omega)]
        simp only [Option.bind_eq_bind, Option.bind_some, List.foldlM_cons, List.foldlM_nil]
        rw [hsubstr]
        simp only [Option.bind_some]
        rw [stol_hex (List.cons_ne_nil _ _) (by simp), hnumber]
        simp only [Option.bind_some, BitVec.ofNat_toNat, BitVec.setWidth_eq]
        rw [List.take_succ_eq_append_getElem (by omega), ← List.append_assoc]
        rfl
  have htwenty := hloop 20 h.ge
  rw [List.take_of_length_le h.le] at htwenty
  exact htwenty

theorem sha1_length (message : List Byte) : (sha1 message).length = 20 := rfl

/-- The offset is the last digit of the hash. -/
theorem offset_eq (hash : List Byte) (h : hash.length = 20) :
    ∃ text, substr (hex hash) 39 1 = some text ∧
      stol text = some ((hash.getD 19 0).toNat % 16) := by
  have hlast : hash.drop 19 = [hash.getD 19 0] := by
    rw [List.drop_eq_getElem_cons (by omega), List.getD_eq_getElem?_getD,
      List.getElem?_eq_getElem (by omega), List.drop_eq_nil_of_le (by omega)]
    rfl
  have hdigit : ∀ d < 16, stol [Nat.digitChar d] = some d := by
    intro d hd
    interval_cases d <;> rfl
  have hchar : (hex hash).drop 39 = [Nat.digitChar ((hash.getD 19 0).toNat % 16)] := by
    rw [show 39 = 2 * 19 + 1 from rfl, ← List.drop_drop, hex_drop, hlast]
    rfl
  refine ⟨_, ?_, hdigit _ (Nat.mod_lt (hash.getD 19 0).toNat (by omega))⟩
  unfold substr
  rw [hex_length, if_pos (by omega), hchar]
  rfl

/-- The four bytes at the offset. -/
theorem truncHash_eq (hash : List Byte) (h : hash.length = 20) {offset : Nat}
    (hoffset : offset < 16) :
    ∃ text, substr (hex hash) (2 * offset) 8 = some text ∧
      stol text = some (number ((hash.drop offset).take 4)) := by
  have hsubstr := substr_hex hash 4 (show offset ≤ hash.length by omega)
  have hlength : ((hash.drop offset).take 4).length = 4 := by
    rw [List.length_take, List.length_drop]
    omega
  have hne : (hash.drop offset).take 4 ≠ [] := by
    intro hnil
    rw [hnil] at hlength
    exact absurd hlength (by decide)
  exact ⟨_, hsubstr, stol_hex hne (by omega)⟩

theorem token_digits (n : Nat) :
    (substr (Nat.toDigits 10 n)
      ((Nat.toDigits 10 n).length - min (Nat.toDigits 10 n).length AUTHENTICATOR_DIGITS)
      (Nat.toDigits 10 n).length).bind (fun message =>
        some (List.replicate (AUTHENTICATOR_DIGITS -
          min (Nat.toDigits 10 n).length AUTHENTICATOR_DIGITS) '0' ++ message)) =
      some (decimal AUTHENTICATOR_DIGITS n) := by
  unfold substr
  rw [if_pos (Nat.sub_le _ _), List.take_of_length_le (by rw [List.length_drop]; omega)]
  exact congrArg some (decimal_eq AUTHENTICATOR_DIGITS n)

theorem token_hotp :
    (∀ messageBlock input, transformToSHA1 messageBlock input = hex (sha1 input)) ∧
      ∀ stack stack' key ticks, key.length ≤ 64 →
        generateToken stack stack' key ticks =
          some (decimal 6 (hotp key (ticks.setWidth 64) 6)) := by
  refine ⟨transformToSHA1_eq, fun stack stack' key ticks hkey => ?_⟩
  have hpads := appendHash_eq ((blockKey key).map (· ^^^ 0x5c))
    (sha1 ((blockKey key).map (· ^^^ 0x36) ++ longBytes (ticks.setWidth 64))) (sha1_length _)
  have hhmac : sha1 ((blockKey key).map (· ^^^ 0x5c) ++
      sha1 ((blockKey key).map (· ^^^ 0x36) ++ longBytes (ticks.setWidth 64))) =
        hmac key (longBytes (ticks.setWidth 64)) := rfl
  obtain ⟨last, hlast, hoffset⟩ := offset_eq (hmac key (longBytes (ticks.setWidth 64))) rfl
  obtain ⟨text, htext, htrunc⟩ := truncHash_eq (hmac key (longBytes (ticks.setWidth 64))) rfl
    (Nat.mod_lt ((hmac key (longBytes (ticks.setWidth 64))).getD 19 0).toNat
      (by decide : 0 < 16))
  have hmod : ∀ n, n % 16 % 16 = n % 16 := fun n => Nat.mod_mod n 16
  unfold generateToken
  simp only [transformToSHA1_eq, keyPad_eq _ hkey, tickMessage_eq, hpads, Option.bind_eq_bind,
    Option.bind_some, hhmac, hlast, hoffset, hmod, htext, htrunc]
  exact (token_digits _).trans (congrArg some (decimal_mod 6 _).symm)

namespace Sample

/-- A key of twenty bytes. -/
def key : List Byte := (List.range 20).map fun i => BitVec.ofNat 8 (48 + (i + 1) % 10)

theorem key_token :
    generateToken (fun _ => 0) (fun _ => 0) key 7 = some (decimal 6 (hotp key 7 6)) :=
  token_hotp.2 _ _ key 7 (by decide)

end Sample

end TibServer.Authenticator
