import Mathlib.Data.BitVec
import Mathlib.Tactic

/-!
The secure hash algorithm SHA-1 (FIPS 180): the padding of a message to whole blocks, the schedule
of a block and its rounds.
-/

namespace SecureHash

abbrev Byte := BitVec 8
abbrev Word := BitVec 32

/-- The five words of a hash value. -/
structure Digest where
  a : Word
  b : Word
  c : Word
  d : Word
  e : Word
  deriving DecidableEq, Repr

/-! ### The rounds -/

def ch (x y z : Word) : Word := (x &&& y) ^^^ (~~~x &&& z)

def parity (x y z : Word) : Word := x ^^^ y ^^^ z

def maj (x y z : Word) : Word := (x &&& y) ^^^ (x &&& z) ^^^ (y &&& z)

/-- The function of a round. -/
def f (t : Nat) : Word → Word → Word → Word :=
  if t < 20 then ch else if t < 40 then parity else if t < 60 then maj else parity

/-- The constant of a round. -/
def k (t : Nat) : Word :=
  if t < 20 then 0x5a827999
  else if t < 40 then 0x6ed9eba1
  else if t < 60 then 0x8f1bbcdc
  else 0xca62c1d6

def word (block : Nat → Byte) (t : Nat) : Word :=
  block (4 * t) ++ block (4 * t + 1) ++ block (4 * t + 2) ++ block (4 * t + 3)

/-- The schedule of a block. -/
def schedule (block : Nat → Byte) (t : Nat) : Word :=
  if t < 16 then word block t
  else (schedule block (t - 3) ^^^ schedule block (t - 8) ^^^ schedule block (t - 14) ^^^
    schedule block (t - 16)).rotateLeft 1
  termination_by t

def round (block : Nat → Byte) (s : Digest) (t : Nat) : Digest where
  a := s.a.rotateLeft 5 + f t s.b s.c s.d + s.e + k t + schedule block t
  b := s.a
  c := s.b.rotateLeft 30
  d := s.c
  e := s.d

def Digest.add (h s : Digest) : Digest :=
  ⟨h.a + s.a, h.b + s.b, h.c + s.c, h.d + s.d, h.e + s.e⟩

def compress (h : Digest) (block : Nat → Byte) : Digest :=
  h.add ((List.range 80).foldl (round block) h)

/-! ### The message -/

/-- The bytes of a word, the first one first. -/
def wordBytes (w : Word) : List Byte :=
  [w.extractLsb' 24 8, w.extractLsb' 16 8, w.extractLsb' 8 8, w.extractLsb' 0 8]

/-- The bytes of a number of 64 bits. -/
def longBytes (x : BitVec 64) : List Byte :=
  wordBytes (x.extractLsb' 32 32) ++ wordBytes (x.extractLsb' 0 32)

/-- The zeros between the message and its length. -/
def zeros (length : Nat) : Nat := (119 - length % 64) % 64

def pad (message : List Byte) : List Byte :=
  message ++ [0x80] ++ List.replicate (zeros message.length) 0 ++
    longBytes (BitVec.ofNat 64 (8 * message.length))

def block (message : List Byte) (i j : Nat) : Byte := message.getD (64 * i + j) 0

def initial : Digest := ⟨0x67452301, 0xefcdab89, 0x98badcfe, 0x10325476, 0xc3d2e1f0⟩

/-- The hash value after the first `i` blocks. -/
def chain (message : List Byte) : Nat → Digest
  | 0 => initial
  | i + 1 => compress (chain message i) (block message i)

def digest (message : List Byte) : Digest := chain (pad message) ((pad message).length / 64)

def Digest.bytes (h : Digest) : List Byte :=
  wordBytes h.a ++ wordBytes h.b ++ wordBytes h.c ++ wordBytes h.d ++ wordBytes h.e

def sha1 (message : List Byte) : List Byte := (digest message).bytes

/-! ### Padding -/

/-- The zeros are the fewest with which the length ends a block. -/
theorem zeros_least {length z : Nat} (h : (length + 1 + z + 8) % 64 = 0) : zeros length ≤ z := by
  unfold zeros
  omega

/-! ### Blocks -/

variable {block block' : Nat → Byte}

theorem word_congr (h : ∀ j < 64, block j = block' j) {t : Nat} (ht : t < 16) :
    word block t = word block' t := by
  unfold word
  rw [h (4 * t) (by omega), h (4 * t + 1) (by omega), h (4 * t + 2) (by omega),
    h (4 * t + 3) (by omega)]

theorem schedule_input (block : Nat → Byte) {t : Nat} (ht : t < 16) :
    schedule block t = word block t := by
  rw [schedule, if_pos ht]

theorem schedule_later (block : Nat → Byte) {t : Nat} (ht : 16 ≤ t) :
    schedule block t = (schedule block (t - 3) ^^^ schedule block (t - 8) ^^^
      schedule block (t - 14) ^^^ schedule block (t - 16)).rotateLeft 1 := by
  rw [schedule, if_neg (not_lt.mpr ht)]

theorem schedule_congr (h : ∀ j < 64, block j = block' j) (t : Nat) :
    schedule block t = schedule block' t := by
  induction t using Nat.strong_induction_on with
  | _ t ih =>
      rcases Nat.lt_or_ge t 16 with ht | ht
      · rw [schedule_input block ht, schedule_input block' ht, word_congr h ht]
      · rw [schedule_later block ht, schedule_later block' ht, ih (t - 3) (by omega),
          ih (t - 8) (by omega), ih (t - 14) (by omega), ih (t - 16) (by omega)]

/-- The rounds read nothing after the block. -/
theorem compress_congr (h : ∀ j < 64, block j = block' j) (d : Digest) :
    compress d block = compress d block' := by
  have hround : round block = round block' := by
    funext s t
    unfold round
    rw [schedule_congr h]
  unfold compress
  rw [hround]

theorem block_append {message : List Byte} {i j : Nat} (rest : List Byte)
    (h : 64 * i + j < message.length) :
    SecureHash.block (message ++ rest) i j = SecureHash.block message i j := by
  unfold SecureHash.block
  rw [List.getD_eq_getElem?_getD, List.getD_eq_getElem?_getD, List.getElem?_append_left h]

/-- The first blocks do not change when the message goes on. -/
theorem chain_append {message : List Byte} (rest : List Byte) {i : Nat}
    (h : 64 * i ≤ message.length) : chain (message ++ rest) i = chain message i := by
  induction i with
  | zero => rfl
  | succ i ih =>
      unfold chain
      rw [ih (by omega)]
      exact compress_congr (fun j hj => block_append rest (by omega)) _

end SecureHash
