import TibServer.OneTimePassword

/-!
The hash of passwords and the tokens of the authenticator (`tools.cpp`).

What an array holds before it is written to is arbitrary, and a parameter here. The texts are lists
of characters, the strings that are only bytes lists of bytes.
-/

namespace TibServer.Authenticator

open SecureHash (Byte Word Digest)

/-! ### The hash -/

def circularShift (bits : Nat) (value : Word) : Word := value <<< bits ||| value >>> (32 - bits)

/-- The four bytes of the message block from `offset` on. -/
def messageWord (messageBlock : Nat → Byte) (offset : Nat) : Word :=
  (messageBlock offset).setWidth 32 <<< 24 ||| (messageBlock (offset + 1)).setWidth 32 <<< 16 |||
    (messageBlock (offset + 2)).setWidth 32 <<< 8 ||| (messageBlock (offset + 3)).setWidth 32

/-- The array `W`, as it grows. -/
def extend (W : List Word) (i : Nat) : List Word :=
  W ++ [circularShift 1
    (W.getD (i - 3) 0 ^^^ W.getD (i - 8) 0 ^^^ W.getD (i - 14) 0 ^^^ W.getD (i - 16) 0)]

def messageSchedule (messageBlock : Nat → Byte) : List Word :=
  let W := (List.range 16).foldl (fun W i => W ++ [messageWord messageBlock (i <<< 2)]) []
  (List.range' 16 64).foldl extend W

/-- A loop of twenty rounds. -/
def rounds (W : List Word) (mix : Word → Word → Word → Word) (k : Word) (first : Nat)
    (s : Digest) : Digest :=
  (List.range' first 20).foldl (fun s i =>
    let tmp := circularShift 5 s.a + mix s.b s.c s.d + s.e + W.getD i 0 + k
    { e := s.d, d := s.c, c := circularShift 30 s.b, b := s.a, a := tmp }) s

def processSHA1MessageBlock (messageBlock : Nat → Byte) (H : Digest) : Digest :=
  let W := messageSchedule messageBlock
  let s := rounds W (fun B C D => (B &&& C) ||| (~~~B &&& D)) 0x5a827999 0 H
  let s := rounds W (fun B C D => B ^^^ C ^^^ D) 0x6ed9eba1 20 s
  let s := rounds W (fun B C D => (B &&& C) ||| (B &&& D) ||| (C &&& D)) 0x8f1bbcdc 40 s
  let s := rounds W (fun B C D => B ^^^ C ^^^ D) 0xca62c1d6 60 s
  ⟨H.a + s.a, H.b + s.b, H.c + s.c, H.d + s.d, H.e + s.e⟩

/-- What `transformToSHA1` keeps between two bytes. -/
structure Hashing where
  H : Digest := ⟨0x67452301, 0xefcdab89, 0x98badcfe, 0x10325476, 0xc3d2e1f0⟩
  messageBlock : Nat → Byte
  index : Nat := 0
  lengthLow : BitVec 32 := 0
  lengthHigh : BitVec 32 := 0

namespace Hashing

/-- `messageBlock[index++] = byte`. -/
def put (s : Hashing) (byte : Byte) : Hashing :=
  { s with messageBlock := Function.update s.messageBlock s.index byte, index := s.index + 1 }

def process (s : Hashing) : Hashing :=
  { s with H := processSHA1MessageBlock s.messageBlock s.H, index := 0 }

/-- The loop over the input. -/
def read (s : Hashing) (ch : Byte) : Hashing :=
  let s := s.put ch
  let lengthLow := s.lengthLow + 8
  let lengthHigh := if lengthLow = 0 then s.lengthHigh + 1 else s.lengthHigh
  let s := { s with lengthLow, lengthHigh }
  if s.index = 64 then s.process else s

/-- `while (index < limit) messageBlock[index++] = 0`. -/
def fill (limit : Nat) (s : Hashing) : Hashing :=
  if s.index < limit then fill limit (s.put 0) else s
  termination_by limit - s.index
  decreasing_by
    rename_i h
    exact Nat.sub_succ_lt_self _ _ h

/-- The bytes of a word into the message block from `offset` on. -/
def store (offset : Nat) (w : Word) (messageBlock : Nat → Byte) : Nat → Byte :=
  let messageBlock := Function.update messageBlock offset ((w >>> 24).setWidth 8)
  let messageBlock := Function.update messageBlock (offset + 1) ((w >>> 16).setWidth 8)
  let messageBlock := Function.update messageBlock (offset + 2) ((w >>> 8).setWidth 8)
  Function.update messageBlock (offset + 3) (w.setWidth 8)

/-- What follows the input. -/
def finish (s : Hashing) : Digest :=
  let s := s.put 0x80
  let s := if 56 < s.index then (s.fill 64).process else s
  let s := s.fill 56
  let messageBlock := store 56 s.lengthHigh s.messageBlock
  let messageBlock := store 60 s.lengthLow messageBlock
  processSHA1MessageBlock messageBlock s.H

end Hashing

/-- `H[i]`. -/
def getWord (H : Digest) : Nat → Word
  | 0 => H.a
  | 1 => H.b
  | 2 => H.c
  | 3 => H.d
  | _ => H.e

def hexDigits : List Char :=
  ['0', '1', '2', '3', '4', '5', '6', '7', '8', '9', 'a', 'b', 'c', 'd', 'e', 'f']

/-- A byte of the hash; `& 3` is taken of a number with a sign. -/
def hashByteOf (H : Digest) (hashByte : Nat) : Byte :=
  (getWord H (hashByte >>> 2) >>> (((3 - (hashByte : Int)) % 4).toNat <<< 3)).setWidth 8

/-- The loop from the last byte to the first. -/
def hexLoop (H : Digest) : Nat → (Nat → Char) → Nat → Char
  | 0, hexstring => hexstring
  | hashByte + 1, hexstring =>
      let byte := hashByteOf H hashByte
      let index := hashByte <<< 1
      let high := hexDigits.getD (byte >>> 4).toNat ' '
      let low := hexDigits.getD (byte &&& 15).toNat ' '
      hexLoop H hashByte (Function.update (Function.update hexstring index high) (index + 1) low)

def transformToSHA1 (messageBlock : Nat → Byte) (input : List Byte) : List Char :=
  let H := (input.foldl Hashing.read { messageBlock }).finish
  (List.range 40).map (hexLoop H 20 fun _ => ' ')

/-! ### The tokens -/

def AUTHENTICATOR_DIGITS : Nat := 6

/-- The bits of a `long` after its sign, where it has 64 of them. -/
def LONG_BITS : Nat := 63

def hexValue (c : Char) : Option Nat :=
  if '0' ≤ c ∧ c ≤ '9' then some (c.toNat - '0'.toNat)
  else if 'a' ≤ c ∧ c ≤ 'f' then some (c.toNat - 'a'.toNat + 10)
  else if 'A' ≤ c ∧ c ≤ 'F' then some (c.toNat - 'A'.toNat + 10)
  else none

/-- `std::stol(text, nullptr, 16)` of a text without blanks, sign and prefix: the digits at its
beginning. -/
def stol (text : List Char) : Option Nat :=
  let digits := (text.takeWhile fun c => (hexValue c).isSome).filterMap hexValue
  let value := digits.foldl (fun n digit => n * 16 + digit) 0
  if digits = [] ∨ 2 ^ LONG_BITS ≤ value then none else some value

def substr (text : List Char) (pos n : Nat) : Option (List Char) :=
  if pos ≤ text.length then some ((text.drop pos).take n) else none

/-- The message that is made of the ticks. -/
def tickMessage (ticks : BitVec 32) : List Byte :=
  (([7, 6, 5, 4, 3, 2, 1] : List Nat).foldl (fun (message, ticks) i =>
    (message.set i ((ticks &&& 0xff).setWidth 8), ticks >>> 8)) (List.replicate 8 0, ticks)).1

/-- A pad of the key, of at most 64 bytes. -/
def keyPad (fill : Byte) (key : List Byte) : List Byte :=
  (List.range key.length).foldl (fun pad i => pad.set i (pad.getD i 0 ^^^ key.getD i 0))
    (List.replicate 64 fill)

/-- The bytes of the hash after the outer pad. -/
def appendHash (oKeyPad : List Byte) (message : List Char) : Option (List Byte) :=
  (List.range 20).foldlM (fun oKeyPad i => do
    let value ← stol (← substr message (2 * i) 2)
    return oKeyPad ++ [BitVec.ofNat 8 value]) oKeyPad

/-- Nothing where the standard library throws. -/
def generateToken (stack stack' : Nat → Byte) (key : List Byte) (ticks : BitVec 32) :
    Option (List Char) := do
  let iKeyPad := keyPad 0x36 key ++ tickMessage ticks
  let oKeyPad ← appendHash (keyPad 0x5c key) (transformToSHA1 stack iKeyPad)
  let message := transformToSHA1 stack' oKeyPad
  let offset := (← stol (← substr message 39 1)) % 16
  let truncHash := (← stol (← substr message (2 * offset) 8)) % 2 ^ 31
  let message := Nat.toDigits 10 truncHash
  let hashLen := message.length
  let message ← substr message (hashLen - min hashLen AUTHENTICATOR_DIGITS) hashLen
  return List.replicate (AUTHENTICATOR_DIGITS - min hashLen AUTHENTICATOR_DIGITS) '0' ++ message

end TibServer.Authenticator
