import TibServer.BitLists
import TibServer.SecureHash

/-!
The secret of an authenticator (`iologindata.cpp`), which the database keeps in base 32. The buffer
is never masked; the bits that are still to be put out are always its lowest ones.
-/

namespace TibServer.Authenticator

open SecureHash BitLists

/-! ### Decoding -/

/-- What a character adds to the buffer. -/
def charValue (ch : Byte) : Option (BitVec 32) :=
  if 0x41#8 ≤ ch ∧ ch ≤ 0x5A#8 then some ((ch.setWidth 32 &&& 0x1F) - 1)
  else if 0x32#8 ≤ ch ∧ ch ≤ 0x37#8 then some (ch.setWidth 32 - 24)
  else none

/-- The loop; a broken key is returned as an empty one. -/
def decodeLoop : List Byte → BitVec 32 → Nat → List Byte → List Byte
  | [], _, _, key => key
  | ch :: secret, buffer, left, key =>
      let buffer := buffer <<< 5
      match charValue ch with
      | none => []
      | some value =>
          let buffer := buffer ||| value
          let left := left + 5
          if left ≥ 8 then
            let left := left - 8
            decodeLoop secret buffer left (key ++ [(buffer >>> left).setWidth 8])
          else decodeLoop secret buffer left key

/-- `decodeSecret` -/
def decodeSecret (secret : List Byte) : List Byte := decodeLoop secret 0 0 []

/-! ### Base 32 (RFC 4648), without padding characters -/

/-- The letters and then the digits from 2 on. -/
def alphabet : List Byte :=
  [0x41, 0x42, 0x43, 0x44, 0x45, 0x46, 0x47, 0x48, 0x49, 0x4A, 0x4B, 0x4C, 0x4D, 0x4E, 0x4F, 0x50,
    0x51, 0x52, 0x53, 0x54, 0x55, 0x56, 0x57, 0x58, 0x59, 0x5A, 0x32, 0x33, 0x34, 0x35, 0x36, 0x37]

/-- Groups of five bits, the last filled up with zeros. -/
def groups : List Bool → List (List Bool)
  | b₄ :: b₃ :: b₂ :: b₁ :: b₀ :: l => [b₄, b₃, b₂, b₁, b₀] :: groups l
  | [b₄, b₃, b₂, b₁] => [[b₄, b₃, b₂, b₁, false]]
  | [b₄, b₃, b₂] => [[b₄, b₃, b₂, false, false]]
  | [b₄, b₃] => [[b₄, b₃, false, false, false]]
  | [b₄] => [[b₄, false, false, false, false]]
  | [] => []

/-- The bits of a text of bytes. -/
def byteBits (k : List Byte) : List Bool := k.flatMap fun b => toBits 8 b.toNat

def base32 (k : List Byte) : List Byte :=
  (groups (byteBits k)).map fun group => alphabet.getD (ofBits group) 0

/-! ### Characters -/

/-- The bits of a text in base 32. -/
def textBits (s : List Byte) : List Bool :=
  s.flatMap fun ch => toBits 5 ((charValue ch).getD 0).toNat

theorem charValue_alphabet : ∀ v < 32, charValue (alphabet.getD v 0) = some (BitVec.ofNat 32 v) := by
  decide

theorem charValue_isSome : ∀ ch : Byte, (charValue ch).isSome = true ↔ ch ∈ alphabet := by
  decide +kernel

theorem charValue_lt : ∀ ch : Byte, ((charValue ch).getD 0).toNat < 32 := by
  decide +kernel

/-! ### The buffer -/

section Buffer

variable {buffer value : BitVec 32} {left : Nat}

theorem bits_push (hvalue : value.toNat < 32) (hleft : left + 5 ≤ 32) :
    toBits (left + 5) (buffer <<< 5 ||| value).toNat =
      toBits left buffer.toNat ++ toBits 5 value.toNat := by
  rw [toBits_add]
  congr 1
  · refine toBits_congr fun i hi => ?_
    have hhigh : value.getLsbD (5 + i) = false :=
      Nat.testBit_lt_two_pow (hvalue.trans_le (Nat.pow_le_pow_right Nat.two_pos (Nat.le_add_right 5 i)))
    rw [Nat.testBit_shiftRight, BitVec.testBit_toNat, BitVec.testBit_toNat, BitVec.getLsbD_or,
      BitVec.getLsbD_shiftLeft, hhigh]
    simp only [Bool.or_false, Nat.add_sub_cancel_left]
    simp
    omega
  · refine toBits_congr fun i hi => ?_
    rw [BitVec.testBit_toNat, BitVec.testBit_toNat, BitVec.getLsbD_or, BitVec.getLsbD_shiftLeft]
    simp [hi]

/-- What is above the byte that is cut out falls away. -/
theorem bits_cut (buffer : BitVec 32) (left : Nat) : toBits (8 + left) buffer.toNat =
    toBits 8 ((buffer >>> left).setWidth 8).toNat ++ toBits left buffer.toNat := by
  rw [toBits_add]
  congr 1
  refine toBits_congr fun i hi => ?_
  rw [BitVec.testBit_toNat, BitVec.getLsbD_setWidth, BitVec.getLsbD_ushiftRight,
    Nat.testBit_shiftRight, BitVec.testBit_toNat]
  simp [hi]

end Buffer

/-! ### The loop -/

theorem decodeLoop_bits (s : List Byte) (hs : ∀ ch ∈ s, ch ∈ alphabet) (buffer : BitVec 32)
    (left : Nat) (hleft : left < 8) (key : List Byte) : ∃ rest : List Bool, rest.length < 8 ∧
      byteBits (decodeLoop s buffer left key) ++ rest =
        byteBits key ++ toBits left buffer.toNat ++ textBits s := by
  induction s generalizing buffer left key with
  | nil => exact ⟨toBits left buffer.toNat, by simpa using hleft, (List.append_nil _).symm⟩
  | cons ch s ih =>
      have hrest := ih fun c hc => hs c (List.mem_cons_of_mem _ hc)
      obtain ⟨value, hch⟩ :=
        Option.isSome_iff_exists.mp ((charValue_isSome ch).mpr (hs ch List.mem_cons_self))
      have hvalue := charValue_lt ch
      rw [hch] at hvalue
      have hpush := @bits_push buffer _ left hvalue (by omega)
      have hbits : textBits (ch :: s) = toBits 5 value.toNat ++ textBits s := by
        unfold textBits
        rw [List.flatMap_cons, hch]
        rfl
      rw [decodeLoop, hch, hbits]
      dsimp only
      rw [Option.getD_some] at hpush
      split_ifs with hfull
      · obtain ⟨rest, hlength, heq⟩ := hrest _ (left + 5 - 8) (by omega) _
        refine ⟨rest, hlength, heq.trans ?_⟩
        have hcut := bits_cut (buffer <<< 5 ||| value) (left + 5 - 8)
        rw [show 8 + (left + 5 - 8) = left + 5 by omega, hpush] at hcut
        unfold byteBits
        rw [List.flatMap_append, List.flatMap_singleton]
        simp only [List.append_assoc] at hcut ⊢
        rw [← List.append_assoc (toBits 8 _), ← hcut, List.append_assoc]
      · obtain ⟨rest, hlength, heq⟩ := hrest _ (left + 5) (by omega) key
        refine ⟨rest, hlength, heq.trans ?_⟩
        rw [hpush]
        simp only [List.append_assoc]

theorem decodeLoop_broken {s : List Byte} (hs : ∃ ch ∈ s, ch ∉ alphabet) (buffer : BitVec 32)
    (left : Nat) (key : List Byte) : decodeLoop s buffer left key = [] := by
  induction s generalizing buffer left key with
  | nil =>
      obtain ⟨ch, hch, -⟩ := hs
      exact absurd hch List.not_mem_nil
  | cons c s ih =>
      rw [decodeLoop]
      cases hvalue : charValue c with
      | none => rfl
      | some value =>
          have hc := (charValue_isSome c).mp (by rw [hvalue]; rfl)
          have hrest : ∃ ch ∈ s, ch ∉ alphabet := by
            obtain ⟨ch, hch, hnot⟩ := hs
            rcases List.mem_cons.mp hch with rfl | hmem
            · exact absurd hc hnot
            · exact ⟨ch, hmem, hnot⟩
          dsimp only
          split_ifs
          · exact ih hrest _ _ _
          · exact ih hrest _ _ _

/-! ### The round trip -/

theorem length_byteBits (k : List Byte) : (byteBits k).length = 8 * k.length := by
  unfold byteBits
  simp [Nat.mul_comm]

theorem length_textBits (s : List Byte) : (textBits s).length = 5 * s.length := by
  unfold textBits
  simp [Nat.mul_comm]

theorem byteBits_inj {k k' : List Byte} (h : byteBits k = byteBits k') : k = k' := by
  refine List.map_injective_iff.mpr (fun _ _ => BitVec.eq_of_toNat_eq)
    (flatMap_toBits_inj (w := 8) (by omega) (fun n hn => ?_) (fun n hn => ?_) ?_)
  · obtain ⟨b, -, rfl⟩ := List.mem_map.mp hn
    exact b.isLt
  · obtain ⟨b, -, rfl⟩ := List.mem_map.mp hn
    exact b.isLt
  · rw [List.flatMap_map, List.flatMap_map]
    exact h

/-- Whole groups, by what was filled up. -/
theorem groups_spec (l : List Bool) : (∀ group ∈ groups l, group.length = 5) ∧
    ∃ pad : List Bool, pad.length < 5 ∧ (groups l).flatten = l ++ pad := by
  induction l using groups.induct with
  | case1 b₄ b₃ b₂ b₁ b₀ l ih =>
      obtain ⟨hlength, pad, hpad, hflat⟩ := ih
      refine ⟨fun group hgroup => ?_, pad, hpad, ?_⟩
      · rcases List.mem_cons.mp hgroup with rfl | hrest
        · rfl
        · exact hlength group hrest
      · rw [groups, List.flatten_cons, hflat]
        rfl
  | case2 | case3 | case4 | case5 => simp [groups]
  | case6 => exact ⟨fun group hgroup => absurd hgroup List.not_mem_nil, [], by simp, rfl⟩

/-- The letter of a group stands for its bits. -/
theorem charValue_group {group : List Bool} (h : group.length = 5) :
    charValue (alphabet.getD (ofBits group) 0) = some (BitVec.ofNat 32 (ofBits group)) ∧
      toBits 5 (BitVec.ofNat 32 (ofBits group)).toNat = group := by
  have hlt := ofBits_lt group
  have hbits := toBits_ofBits group
  rw [h] at hlt hbits
  have hmod : (BitVec.ofNat 32 (ofBits group)).toNat = ofBits group :=
    Nat.mod_eq_of_lt (hlt.trans (by decide))
  exact ⟨charValue_alphabet _ hlt, by rw [hmod, hbits]⟩

theorem base32_spec (k : List Byte) : (∀ ch ∈ base32 k, ch ∈ alphabet) ∧
    textBits (base32 k) = (groups (byteBits k)).flatten := by
  have hgroups := (groups_spec (byteBits k)).1
  constructor
  · intro ch hch
    obtain ⟨group, hgroup, rfl⟩ := List.mem_map.mp hch
    refine (charValue_isSome _).mp ?_
    rw [(charValue_group (hgroups group hgroup)).1]
    rfl
  · unfold textBits base32
    rw [List.flatMap_map, List.flatMap_def]
    congr 1
    conv_rhs => rw [← List.map_id (groups (byteBits k))]
    refine List.map_congr_left fun group hgroup => ?_
    obtain ⟨hvalue, hbits⟩ := charValue_group (hgroups group hgroup)
    rw [hvalue]
    exact hbits

/-- What was encoded is decoded; a text with another character gives nothing, and any other text as
many bytes as its bits fill. -/
theorem decodeSecret_base32 : (∀ k, decodeSecret (base32 k) = k) ∧
    (∀ s, (∃ ch ∈ s, ch ∉ alphabet) → decodeSecret s = []) ∧
    ∀ s, (∀ ch ∈ s, ch ∈ alphabet) → (decodeSecret s).length = 5 * s.length / 8 := by
  refine ⟨fun k => ?_, fun s hs => decodeLoop_broken hs 0 0 [], fun s hs => ?_⟩
  · obtain ⟨hvalid, htext⟩ := base32_spec k
    obtain ⟨-, pad, hpad, hflat⟩ := groups_spec (byteBits k)
    obtain ⟨rest, hrest, hbits⟩ := decodeLoop_bits _ hvalid 0 0 (by omega) []
    change byteBits (decodeSecret (base32 k)) ++ rest = textBits (base32 k) at hbits
    rw [htext, hflat] at hbits
    have hlength := congrArg List.length hbits
    rw [List.length_append, List.length_append, length_byteBits, length_byteBits] at hlength
    -- fewer than eight bits are left, and fewer than five were added
    have hsame : (decodeSecret (base32 k)).length = k.length := by omega
    refine byteBits_inj (List.append_inj_left hbits ?_)
    rw [length_byteBits, length_byteBits, hsame]
  · obtain ⟨rest, hrest, hbits⟩ := decodeLoop_bits s hs 0 0 (by omega) []
    change byteBits (decodeSecret s) ++ rest = textBits s at hbits
    have hlength := congrArg List.length hbits
    rw [List.length_append, length_byteBits, length_textBits] at hlength
    omega

/-- "foobar" is "MZXW6YTBOI". -/
example : base32 [0x66, 0x6F, 0x6F, 0x62, 0x61, 0x72] =
    [0x4D, 0x5A, 0x58, 0x57, 0x36, 0x59, 0x54, 0x42, 0x4F, 0x49] := by
  decide

end TibServer.Authenticator
