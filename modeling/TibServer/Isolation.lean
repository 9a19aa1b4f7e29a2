import TibServer.NetworkMessage

/-!
What the reads of a parser can see of the buffer it reads from. A connection
receives every packet into the same buffer, so behind a packet lie the bytes of
those before it; the theorem at the end says which reads stay within the packet,
for every sequence of packets and reads.
-/

namespace TibServer

open Bytes

/-! ### Reads -/

/-- What a parser asks of a message. -/
inductive Read
  | byte
  | get (size : Nat) (some_ : 0 < size)
  | string (stringLen : UInt16)
  | position
  | skip (count : Int16)

inductive Value
  | number (n : Nat)
  | bytes (l : List UInt8)
  | place (pos : Position)
  | nothing
  deriving DecidableEq

/-- The `n` bytes of a packet from a position on. -/
def piece (packet : List UInt8) (pos n : Nat) : List UInt8 := (packet.drop pos).take n

namespace Read

/-- What the code answers, and the message behind the read. -/
def run : Read → NetworkMessage → Value × NetworkMessage
  | .byte, m => (.number m.getByte.1.toNat, m.getByte.2)
  | .get size _, m => (.number (m.get size).1, (m.get size).2)
  | .string stringLen, m => (.bytes (m.getString stringLen).1, (m.getString stringLen).2)
  | .position, m => (.place m.getPosition.1, m.getPosition.2)
  | .skip count, m => (.nothing, m.skipBytes count)

def default : Read → Value
  | .byte | .get _ _ => .number 0
  | .string _ => .bytes []
  | .position => .place { x := 0, y := 0, z := 0 }
  | .skip _ => .nothing

/-- The `n` bytes at a position, and the position behind them, unless they pass the
end of the packet. -/
def bytesAt (packet : List UInt8) (pos n : Nat) (value : List UInt8 → Value) :
    Option (Value × Nat) :=
  if pos + n ≤ packet.length then some (value (piece packet pos n), pos + n) else none

/-- What a read comes to on the packet alone: its value and the position behind it,
or nothing when it would pass the end. -/
def result (packet : List UInt8) (pos : Nat) : Read → Option (Value × Nat)
  | .byte => bytesAt packet pos 1 fun l => .number (ofLE l)
  | .get size _ => bytesAt packet pos size fun l => .number (ofLE l)
  | .string stringLen =>
    if stringLen = 0 then
      if pos + 2 ≤ packet.length then
        bytesAt packet (pos + 2) (ofLE (piece packet pos 2)) .bytes
      else none
    else bytesAt packet pos stringLen.toNat .bytes
  | .position =>
    if pos + 5 ≤ packet.length then
      some (.place { x := ofLE (piece packet pos 2), y := ofLE (piece packet (pos + 2) 2),
                     z := ofLE (piece packet (pos + 4) 1) }, pos + 5)
    else none
  | .skip count =>
    if 0 ≤ pos + count.toInt ∧ pos + count.toInt ≤ packet.length then
      some (.nothing, (pos + count.toInt).toNat)
    else none

/-- A read is isolated when it does what it does on the packet alone, and past its
end answers the default value and stays where it is. -/
def Isolated (packet : List UInt8) (m : NetworkMessage) (r : Read) : Prop :=
  ((r.run m).1, (r.run m).2.position) =
    (r.result packet m.position).getD (r.default, m.position)

/-- A read of `n` bytes is inside the packet, or so far behind it that it is refused. -/
def Clear (packet : List UInt8) (m : NetworkMessage) (n : Nat) : Prop :=
  m.position + n ≤ packet.length ∨ m.length + 8 < m.position + n

/-- The reads that are isolated. -/
def Contained (packet : List UInt8) (m : NetworkMessage) : Read → Prop
  | .byte => Clear packet m 1
  | .get size _ => Clear packet m size
  | .string stringLen =>
    if stringLen = 0 then
      if m.position + 2 ≤ packet.length then
        m.position + 2 + ofLE (piece packet m.position 2) ≤ packet.length
      else m.length + 8 < m.position + 2
    else Clear packet m stringLen.toNat
  | .position => m.position + 5 ≤ packet.length ∨ m.length + 8 < m.position + 1
  | .skip count =>
    0 ≤ m.position + count.toInt ∧ m.position + count.toInt ≤ packet.length ∨ count.toInt = 0

end Read

/-! ### The message that holds a packet -/

/-- The packet is at the start of the buffer, and the length that is checked is not
shorter. -/
structure NetworkMessage.Holds (m : NetworkMessage) (packet : List UInt8) : Prop where
  bytes : slice m.buffer 0 packet.length = packet
  ends : packet.length ≤ m.length + 8
  fits : m.length + 8 < NETWORKMESSAGE_MAXSIZE
  start : m.position < 2 ^ 16

namespace NetworkMessage

variable {m m' : NetworkMessage} {packet : List UInt8} {n : Nat}

theorem Holds.piece (h : m.Holds packet) {pos : Nat} (inside : pos + n ≤ packet.length) :
    slice m.buffer pos n = piece packet pos n := by
  have whole := slice_drop m.buffer 0 (m := pos) (n := packet.length) (by omega)
  rw [Nat.zero_add, h.bytes] at whole
  rw [TibServer.piece, whole, slice_take _ _ (by omega)]

theorem canRead_iff (fits : m.length + 8 < NETWORKMESSAGE_MAXSIZE) :
    m.canRead n = true ↔ m.position + n ≤ m.length + 8 := by
  simp only [canRead, Bool.not_eq_true', Bool.or_eq_false_iff, decide_eq_false_iff_not]
  omega

@[simp] theorem advance_position (m : NetworkMessage) (n : Nat) :
    (m.advance n).position = m.position + n := rfl

@[simp] theorem advance_length (m : NetworkMessage) (n : Nat) :
    (m.advance n).length = m.length := rfl

@[simp] theorem refuse_position (m : NetworkMessage) : m.refuse.position = m.position := rfl

/-! ### What a read changes -/

/-- The message may have moved on, and nothing else. -/
structure Moved (m m' : NetworkMessage) : Prop where
  buffer : m'.buffer = m.buffer
  length : m'.length = m.length
  position : m.position < 2 ^ 16 → m.length + 8 < 2 ^ 16 → m'.position < 2 ^ 16

theorem Moved.refl (m : NetworkMessage) : Moved m m := ⟨rfl, rfl, fun h _ => h⟩

theorem Moved.trans {m'' : NetworkMessage} (h : Moved m m') (h' : Moved m' m'') : Moved m m'' where
  buffer := h'.buffer.trans h.buffer
  length := h'.length.trans h.length
  position hp hl := h'.position (h.position hp hl) (by rwa [h.length])

theorem Moved.holds (h : Moved m m') (hm : m.Holds packet) : m'.Holds packet where
  bytes := by rw [h.buffer, hm.bytes]
  ends := by rw [h.length]; exact hm.ends
  fits := by rw [h.length]; exact hm.fits
  start := by
    have fits := hm.fits
    simp only [NETWORKMESSAGE_MAXSIZE] at fits
    exact h.position hm.start (by omega)

theorem moved_refuse (m : NetworkMessage) : Moved m m.refuse := ⟨rfl, rfl, fun h _ => h⟩

theorem moved_advance (h : m.canRead n = true) : Moved m (m.advance n) := by
  refine ⟨rfl, rfl, fun _ hl => ?_⟩
  simp only [canRead, Bool.not_eq_true', Bool.or_eq_false_iff, decide_eq_false_iff_not] at h
  simp only [advance]
  omega

theorem moved_getByte (m : NetworkMessage) : Moved m m.getByte.2 := by
  unfold getByte
  split
  · next h => exact moved_advance h
  · exact moved_refuse m

theorem moved_get (m : NetworkMessage) (n : Nat) : Moved m (m.get n).2 := by
  unfold get
  split
  · next h => exact moved_advance h
  · exact moved_refuse m

theorem moved_getContents (m : NetworkMessage) (n : Nat) : Moved m (m.getContents n).2 := by
  unfold getContents
  split
  · next h => exact moved_advance h
  · exact moved_refuse m

theorem moved_skipBytes (m : NetworkMessage) (count : Int16) : Moved m (m.skipBytes count) := by
  refine ⟨rfl, rfl, fun _ _ => ?_⟩
  simp only [skipBytes]
  omega

/-- No read changes more than the position. -/
theorem moved_run (r : Read) (m : NetworkMessage) : Moved m (r.run m).2 := by
  cases r with
  | byte => exact moved_getByte m
  | get size => exact moved_get m size
  | string stringLen =>
      simp only [Read.run, getString]
      split
      · exact (moved_get m 2).trans (moved_getContents _ _)
      · exact moved_getContents m _
  | position => exact ((moved_get m 2).trans (moved_get _ 2)).trans (moved_getByte _)
  | skip count => exact moved_skipBytes m count

/-! ### Single reads -/

theorem get_eq (m : NetworkMessage) (n : Nat) :
    m.get n = (ofLE (m.getContents n).1, (m.getContents n).2) := by
  unfold get getContents
  split <;> rfl

theorem getByte_eq (m : NetworkMessage) :
    m.getByte.1.toNat = (m.get 1).1 ∧ m.getByte.2 = (m.get 1).2 := by
  unfold getByte get
  split <;> simp [slice, ofLE]

theorem getContents_granted (fits : m.length + 8 < NETWORKMESSAGE_MAXSIZE)
    (h : m.position + n ≤ m.length + 8) :
    m.getContents n = (slice m.buffer m.position n, m.advance n) :=
  if_pos ((canRead_iff fits).mpr h)

theorem getContents_refused (fits : m.length + 8 < NETWORKMESSAGE_MAXSIZE)
    (h : m.length + 8 < m.position + n) : m.getContents n = ([], m.refuse) :=
  if_neg fun can => absurd ((canRead_iff fits).mp can) (not_le.mpr h)

theorem get_granted (fits : m.length + 8 < NETWORKMESSAGE_MAXSIZE)
    (h : m.position + n ≤ m.length + 8) :
    m.get n = (ofLE (slice m.buffer m.position n), m.advance n) := by
  rw [get_eq, getContents_granted fits h]

theorem get_refused (fits : m.length + 8 < NETWORKMESSAGE_MAXSIZE)
    (h : m.length + 8 < m.position + n) : m.get n = (0, m.refuse) := by
  rw [get_eq, getContents_refused fits h, ofLE]

/-- A string of no length is empty, whether it is refused or not. -/
theorem getContents_zero (m : NetworkMessage) :
    (m.getContents 0).1 = [] ∧ (m.getContents 0).2.position = m.position := by
  unfold getContents
  split <;> exact ⟨rfl, rfl⟩

theorem position_le_getContents (m : NetworkMessage) (n : Nat) :
    m.position ≤ (m.getContents n).2.position := by
  unfold getContents
  split
  · exact Nat.le_add_right _ _
  · exact le_refl _

theorem position_le_get (m : NetworkMessage) (n : Nat) :
    m.position ≤ (m.get n).2.position := by
  rw [get_eq]
  exact position_le_getContents m n

theorem position_le_getByte (m : NetworkMessage) : m.position ≤ m.getByte.2.position := by
  rw [(getByte_eq m).2]
  exact position_le_get m 1

end NetworkMessage

/-! ### The reads on a message that holds a packet -/

namespace Read

open NetworkMessage

variable {m : NetworkMessage} {packet : List UInt8} {n : Nat}

theorem contents_iff (h : m.Holds packet) (some_ : 0 < n) (value : List UInt8 → Value) :
    (value (m.getContents n).1, (m.getContents n).2.position) =
        (bytesAt packet m.position n value).getD (value [], m.position) ↔
      Clear packet m n := by
  unfold bytesAt Clear
  by_cases inside : m.position + n ≤ packet.length
  · have granted := getContents_granted h.fits (inside.trans h.ends)
    simp [inside, granted, h.piece inside, advance]
  · rw [if_neg inside, or_iff_right inside, Option.getD_none]
    by_cases refused : m.length + 8 < m.position + n
    · simp [getContents_refused h.fits refused, refused, refuse]
    · have granted := getContents_granted h.fits (not_lt.mp refused)
      refine iff_of_false (fun e => ?_) refused
      have stays := congrArg Prod.snd e
      simp only [granted, advance] at stays
      omega

theorem isolated_get_iff (h : m.Holds packet) (some_ : 0 < n) :
    Isolated packet m (.get n some_) ↔ Clear packet m n := by
  simp only [Isolated, run, result, default, get_eq]
  exact contents_iff h some_ fun l => .number (ofLE l)

theorem isolated_byte_iff (h : m.Holds packet) :
    Isolated packet m .byte ↔ Clear packet m 1 := by
  simp only [Isolated, run, result, default, getByte_eq, get_eq]
  exact contents_iff h Nat.one_pos fun l => .number (ofLE l)

/-- The prefix has to be inside with its string, or refused: a prefix that was read
moves the position. -/
theorem isolated_prefixed_iff (h : m.Holds packet) :
    Isolated packet m (.string 0) ↔ Contained packet m (.string 0) := by
  simp only [Isolated, run, result, default, Contained, getString, if_true]
  by_cases inside : m.position + 2 ≤ packet.length
  · have granted := get_granted h.fits (inside.trans h.ends)
    rw [h.piece inside] at granted
    simp only [inside, if_true]
    rw [granted]
    generalize ofLE (piece packet m.position 2) = n
    have holds : (m.advance 2).Holds packet := by
      have moved := moved_get m 2
      rw [granted] at moved
      exact moved.holds h
    by_cases fits : m.position + 2 + n ≤ packet.length
    · have contents := getContents_granted (n := n) holds.fits
        (show (m.advance 2).position + n ≤ _ from fits.trans holds.ends)
      simp only [contents, bytesAt, fits, if_true, iff_true, Option.getD_some]
      rw [show (m.advance 2).position = m.position + 2 from rfl, holds.piece fits]
      rfl
    · refine iff_of_false (fun e => ?_) fits
      have stays := congrArg Prod.snd e
      have moves := position_le_getContents (m.advance 2) n
      simp only [bytesAt, fits, if_false, Option.getD_none] at stays
      rw [advance_position] at moves
      omega
  · simp only [inside, if_false, Option.getD_none]
    by_cases refused : m.length + 8 < m.position + 2
    · obtain ⟨empty, stays⟩ := getContents_zero m.refuse
      simp only [get_refused h.fits refused, refused, iff_true, empty, stays]
      rfl
    · refine iff_of_false (fun e => ?_) refused
      have stays := congrArg Prod.snd e
      have moves := position_le_getContents (m.get 2).2 (m.get 2).1
      rw [get_granted h.fits (not_lt.mp refused)] at moves stays
      rw [advance_position] at moves
      omega

theorem isolated_position_iff (h : m.Holds packet) :
    Isolated packet m .position ↔ Contained packet m .position := by
  simp only [Isolated, run, result, default, Contained, getPosition]
  by_cases inside : m.position + 5 ≤ packet.length
  · have ends := h.ends
    have fits := h.fits
    have x := get_granted (m := m) (n := 2) fits (by omega)
    have y := get_granted (m := m.advance 2) (n := 2) fits (by simp; omega)
    have z := get_granted (m := (m.advance 2).advance 2) (n := 1) fits (by simp; omega)
    simp only [x, y, getByte_eq, z, inside, if_true, true_or, iff_true, Option.getD_some]
    simp only [advance]
    rw [h.piece (by omega), h.piece (by omega), h.piece (by omega)]
  · simp only [inside, if_false, Option.getD_none, false_or]
    by_cases refused : m.length + 8 < m.position + 1
    · have x := get_refused (m := m) (n := 2) h.fits (by omega)
      have y := get_refused (m := m.refuse) (n := 2) h.fits (by simp only [refuse]; omega)
      have z := get_refused (m := m.refuse.refuse) (n := 1) h.fits (by simp only [refuse]; omega)
      simp only [x, y, getByte_eq, z, refused, iff_true]
      rfl
    · refine iff_of_false (fun e => ?_) refused
      have stays := congrArg Prod.snd e
      dsimp only at stays
      -- either the first number is read, or the last byte
      by_cases first : m.length + 8 < m.position + 2
      · have x := get_refused (m := m) (n := 2) h.fits first
        have y := get_refused (m := m.refuse) (n := 2) h.fits first
        have z := get_granted (m := m.refuse.refuse) (n := 1) h.fits (not_lt.mp refused)
        simp only [x, y, getByte_eq, z, advance_position, refuse_position] at stays
        omega
      · have x := get_granted (m := m) (n := 2) h.fits (not_lt.mp first)
        have moves := (position_le_get (m.advance 2) 2).trans
          (position_le_getByte ((m.advance 2).get 2).2)
        rw [x] at stays
        rw [advance_position, stays] at moves
        omega

theorem isolated_skip_iff (h : m.Holds packet) (count : Int16) :
    Isolated packet m (.skip count) ↔ Contained packet m (.skip count) := by
  have low := count.le_toInt
  have high := count.toInt_lt
  have start := h.start
  have fits := h.fits
  have ends := h.ends
  simp only [NETWORKMESSAGE_MAXSIZE] at fits
  simp only [Isolated, run, result, default, Contained, skipBytes]
  by_cases inside : 0 ≤ m.position + count.toInt ∧ m.position + count.toInt ≤ packet.length
  · simp only [inside, and_self, if_true, Option.getD_some, true_or, iff_true, Prod.mk.injEq,
      true_and]
    omega
  · simp only [inside, if_false, Option.getD_none, false_or, Prod.mk.injEq, true_and]
    omega

/-- A read of a message that holds a packet is isolated exactly when it is contained. -/
theorem holds_isolated_iff (h : m.Holds packet) (r : Read) :
    Isolated packet m r ↔ Contained packet m r := by
  cases r with
  | byte => exact isolated_byte_iff h
  | get size some_ => exact isolated_get_iff h some_
  | string stringLen =>
      by_cases none_ : stringLen = 0
      · subst none_
        exact isolated_prefixed_iff h
      · have some_ : 0 < stringLen.toNat := by
          refine Nat.pos_of_ne_zero fun e => none_ ?_
          exact UInt16.toNat_inj.mp e
        simp only [Isolated, run, result, default, Contained, getString, none_, if_false]
        exact contents_iff h some_ .bytes
  | position => exact isolated_position_iff h
  | skip count => exact isolated_skip_iff h count

end Read

/-! ### What a connection hands to its parser -/

namespace Protocol

/-- A packet with the blocks behind the checksum decrypted. -/
def plain (p : Protocol) (wire : List UInt8) : List UInt8 :=
  wire.take 6 ++ mapBlocks (Xtea.decryptBlock p.key) ((wire.length - 6) / 8) (wire.drop 6)

/-- The bytes of a packet that belong to its message: the inner size says how many. -/
def opened (p : Protocol) (wire : List UInt8) : List UInt8 :=
  (p.plain wire).take (8 + ofLE (piece (p.plain wire) 6 2))

end Protocol

namespace Connection

/-- The packet that the parser is given. -/
def content (c : Connection) (wire : List UInt8) : List UInt8 :=
  if c.receivedFirst then
    match c.protocol with
    | some p => if p.encryptionEnabled then p.opened wire else wire
    | none => wire
  else wire

/-- A connection and the packet that is being parsed, if there is one: packets come
in, of which the socket delivers as many bytes as the header says, the parser reads
from them as it likes, and sets up its protocol. -/
inductive Parsing : Connection → Option (List UInt8) → Prop
  | connected (buffer : Buffer) (protocol : Option Protocol) :
      Parsing { msg := { buffer }, protocol } none
  | packet {c c' : Connection} {last : Option (List UInt8)} {wire : List UInt8} {given : Bool}
      (before : Parsing c last) (whole : wire.length = 2 + ofLE (wire.take 2))
      (h : c.receive wire = some (given, c')) :
      Parsing c' (if given then some (c.content wire) else none)
  | read {c : Connection} {packet : List UInt8} (r : Read) (before : Parsing c (some packet)) :
      Parsing { c with msg := (r.run c.msg).2 } (some packet)
  | protocol {c : Connection} {packet : Option (List UInt8)} (p : Protocol)
      (before : Parsing c packet) : Parsing { c with protocol := some p } packet

variable {c c' : Connection} {wire : List UInt8} {given : Bool}

end Connection

/-! ### The packet is in the buffer -/

namespace NetworkMessage

variable {m : NetworkMessage} {wire : List UInt8}

/-- A message that has just been taken in: all of it is the packet, and the body is
next. -/
structure Received (m : NetworkMessage) (wire : List UInt8) : Prop where
  bytes : slice m.buffer 0 wire.length = wire
  length : m.length = wire.length
  long : 2 < wire.length
  short : wire.length + 8 < NETWORKMESSAGE_MAXSIZE

theorem Received.holds (h : m.Received wire) (start : m.position < 2 ^ 16) : m.Holds wire where
  bytes := h.bytes
  ends := by rw [h.length]; omega
  fits := by rw [h.length]; exact h.short
  start := start

/-- The header and the body are stored one behind the other. -/
theorem slice_header_body (b : Buffer) (long : 2 ≤ wire.length) :
    slice (store (store b 0 (wire.take 2)) 2 (wire.drop 2)) 0 wire.length = wire := by
  have two : (wire.take 2).length = 2 := by
    rw [List.length_take]
    omega
  have first := slice_store b 0 (wire.take 2)
  have rest := slice_store (store b 0 (wire.take 2)) 2 (wire.drop 2)
  rw [two] at first
  have sum : wire.length = 2 + (wire.drop 2).length := by
    rw [List.length_drop]
    omega
  conv_lhs => rw [sum]
  rw [slice_add, slice_store_apart _ _ (.inl (Nat.zero_add 2).le), first, Nat.zero_add, rest,
    List.take_append_drop]

theorem parseHeader_received {m' : NetworkMessage} (whole : wire.length = 2 + ofLE (wire.take 2))
    (h : ({ m with buffer := store m.buffer 0 (wire.take 2) } : NetworkMessage).parseHeader =
      some m') :
    Received { m' with buffer := store m'.buffer 2 (wire.drop 2) } wire ∧ m'.position = 2 := by
  have two : (wire.take 2).length = 2 := by
    rw [List.length_take]
    omega
  have header : slice (store m.buffer 0 (wire.take 2)) 0 2 = wire.take 2 := by
    have := slice_store m.buffer 0 (wire.take 2)
    rwa [two] at this
  simp only [parseHeader, getLengthHeader, header, NETWORKMESSAGE_MAXSIZE] at h
  split at h
  · cases h
  · next good =>
      cases h
      refine ⟨⟨slice_header_body m.buffer (by omega), ?_, ?_, ?_⟩, rfl⟩
      · exact (Nat.add_comm _ _).trans whole.symm
      · omega
      · simp only [NETWORKMESSAGE_MAXSIZE]
        omega

theorem Received.decipher {p : Protocol} (h : m.Received wire) (start : m.position = 6)
    (some_ : 6 ≤ wire.length) (blocks : (wire.length - 6) % 8 = 0) :
    (p.decipher m).Received (p.plain wire) := by
  obtain ⟨n, hn⟩ : ∃ n, wire.length = 6 + 8 * n := ⟨(wire.length - 6) / 8, by omega⟩
  have count : (wire.length - 6) / 8 = n := by omega
  have sizes := Xtea.decryptBlock_length p.key
  have body := slice_drop m.buffer 0 some_
  rw [h.bytes, Nat.zero_add, hn, Nat.add_sub_cancel_left] at body
  have length : (p.plain wire).length = wire.length := by
    rw [Protocol.plain, List.length_append, mapBlocks_length sizes, count, List.length_take]
    omega
  refine ⟨?_, h.length.trans length.symm, by rw [length]; exact h.long,
    by rw [length]; exact h.short⟩
  rw [length, hn, slice_add]
  simp only [Protocol.decipher, Protocol.plain, h.length, count, start, Nat.zero_add]
  congr 1
  · rw [← h.bytes, slice_take _ _ some_]
    exact slice_congr fun i hi => storeBlocks_outside sizes n _ (.inl (by omega))
  · rw [slice_storeBlocks sizes, body]

/-- The inner size is read from the decrypted message, and never refused. -/
theorem Received.XTEA_decrypt_eq {p : Protocol} (h : m.Received wire) (start : m.position = 6) :
    p.XTEA_decrypt m =
      if ((wire.length : Int) - 6) % 8 ≠ 0 then (false, m)
      else if wire.length < 8 + ofLE (slice (p.decipher m).buffer 6 2) then
        (false, (p.decipher m).advance 2)
      else (true, { (p.decipher m).advance 2 with
        length := ofLE (slice (p.decipher m).buffer 6 2) }) := by
  have fits := h.short
  rw [← h.length] at fits
  unfold Protocol.XTEA_decrypt
  rw [← h.length]
  split
  · rfl
  · next blocks =>
      have position : (p.decipher m).position = 6 := start
      have length : (p.decipher m).length = m.length := rfl
      have granted := get_granted (m := p.decipher m) (n := 2) fits (by omega)
      simp only [granted, position, advance_length, length]
      split
      · next past => rw [if_pos (by omega)]
      · next within => rw [if_neg (by omega)]

/-- What is accepted is the packet that was opened: its blocks cover its inner size. -/
theorem Received.opened {p : Protocol} (h : m.Received wire) (start : m.position = 6)
    (accepted : (p.XTEA_decrypt m).1 = true) : (p.XTEA_decrypt m).2.Holds (p.opened wire) := by
  have long := h.long
  rw [h.XTEA_decrypt_eq start] at accepted ⊢
  split at accepted
  · cases accepted
  · next blocks =>
      rw [if_neg blocks]
      have deciphered := h.decipher (p := p) start (by omega) (by omega)
      have position : (p.decipher m).position = 6 := start
      have same : (p.plain wire).length = wire.length :=
        deciphered.length.symm.trans h.length
      generalize p.decipher m = d at accepted deciphered position ⊢
      split at accepted
      · cases accepted
      · next within =>
          rw [if_neg within]
          have holds := deciphered.holds (by omega)
          have short := h.short
          have inner : slice d.buffer 6 2 = piece (p.plain wire) 6 2 := holds.piece (by omega)
          rw [inner] at within ⊢
          have length : (p.opened wire).length = 8 + ofLE (piece (p.plain wire) 6 2) := by
            rw [Protocol.opened, List.length_take]
            omega
          refine ⟨?_, by rw [length, Nat.add_comm], by simp only; omega, ?_⟩
          · rw [length, Protocol.opened, ← slice_take _ _ (by omega : _ ≤ (p.plain wire).length)]
            exact congrArg _ deciphered.bytes
          · simp only [advance_position, position]
            omega

end NetworkMessage

namespace Connection

open NetworkMessage

variable {c c' : Connection} {packet : Option (List UInt8)} {wire : List UInt8} {given : Bool}

/-- A parser that is given a message is given one that holds its packet. -/
theorem receive_holds (whole : wire.length = 2 + ofLE (wire.take 2))
    (h : c.receive wire = some (true, c')) : c'.msg.Holds (c.content wire) := by
  unfold receive at h
  split at h
  · cases h
  · next m parsed =>
      obtain ⟨received, position⟩ := parseHeader_received whole parsed
      have start : ({ m with buffer := store m.buffer 2 (wire.drop 2) } : NetworkMessage).position =
          2 := position
      generalize ({ m with buffer := store m.buffer 2 (wire.drop 2) } : NetworkMessage) = m'
        at received start h
      simp only [Option.some.injEq] at h
      have short := received.short
      have checksum := get_granted (m := m') (n := 4) (by rw [received.length]; exact short)
        (by rw [start]; omega)
      replace received : (m'.advance 4).Received wire :=
        ⟨received.bytes, received.length, received.long, received.short⟩
      replace start : (m'.advance 4).position = 6 := by rw [advance_position, start]
      simp only [parsePacket, checksum] at h
      generalize m'.advance 4 = m at received start h
      have plain := received.holds (by omega)
      unfold content
      split at h
      · next first =>
          rw [if_pos first]
          cases hp : c.protocol with
          | none =>
              rw [hp] at h
              cases h
          | some p =>
              rw [hp] at h
              simp only [Protocol.onRecvMessage, Prod.mk.injEq] at h
              obtain ⟨accepted, rfl⟩ := h
              by_cases encrypted : p.encryptionEnabled = true
              · simp only [encrypted, if_true] at accepted ⊢
                exact received.opened start accepted
              · simp only [encrypted] at accepted ⊢
                exact plain
      · next first =>
          rw [if_neg first]
          cases hp : c.protocol with
          | none =>
              rw [hp] at h
              obtain rfl := (Prod.mk.inj h).2
              simp only
              split
              · exact (moved_skipBytes m _).holds plain
              · exact plain
          | some p =>
              rw [hp] at h
              obtain rfl := (Prod.mk.inj h).2
              exact (moved_skipBytes m _).holds plain

/-- Whatever came before, the packet under the parser is in the buffer. -/
theorem Parsing.holds (h : Parsing c packet) : ∀ bytes ∈ packet, c.msg.Holds bytes := by
  induction h with
  | connected buffer protocol => simp
  | packet before whole h ih =>
      rintro bytes mem
      split at mem
      · next given =>
          subst given
          obtain rfl := Option.some.inj mem
          exact receive_holds whole h
      · cases mem
  | read r before ih =>
      rintro bytes mem
      exact (moved_run r _).holds (ih bytes mem)
  | protocol p before ih => exact ih

/-- In every run of packets and reads, a read stays within its packet exactly when it
is contained: it ends inside the packet, or so far behind it that the length check,
which allows for eight bytes more, refuses it. -/
theorem Parsing.isolated_iff {bytes : List UInt8} (h : Parsing c (some bytes)) (r : Read) :
    r.Isolated bytes c.msg ↔ r.Contained bytes c.msg :=
  Read.holds_isolated_iff (h.holds bytes rfl) r

end Connection

namespace Sample

/-! ### A read behind the packet -/

def long : List UInt8 := [8, 0, 11, 12, 13, 14, 15, 16, 17, 18]

def short : List UInt8 := [5, 0, 1, 2, 3, 4, 5]

def fresh : Connection := { msg := { buffer := fun _ => 0 } }

/-- The connection with its first packet. -/
def greeted : Connection := ((fresh.receive long).getD (false, fresh)).2

/-- The connection with its second packet, which is shorter. -/
def reused : Connection :=
  ((({ greeted with protocol := some { key := fun _ => 0 } } : Connection).receive short).getD
    (false, fresh)).2

theorem reused_parsing : Connection.Parsing reused (some short) := by
  have long_whole : long.length = 2 + ofLE (long.take 2) := by decide
  have short_whole : short.length = 2 + ofLE (short.take 2) := by decide
  have first : Connection.Parsing greeted (some long) :=
    .packet (.connected (fun _ => 0) none) long_whole rfl
  exact .packet (.protocol { key := fun _ => 0 } first) short_whole rfl

/-- The last byte of the second packet is read with three of the first. -/
theorem stale_bytes_read : Connection.Parsing reused (some short) ∧
    ((Read.get 4 (by decide)).run reused.msg).1 = .number 0x12111005 ∧
    ¬ Read.Isolated short reused.msg (.get 4 (by decide)) := by
  refine ⟨reused_parsing, by decide, fun isolated => ?_⟩
  have moved := congrArg Prod.snd isolated
  revert moved
  decide

theorem short_isolated_iff :
    Read.Isolated short reused.msg .byte ↔ Read.Contained short reused.msg .byte :=
  reused_parsing.isolated_iff .byte

end Sample

end TibServer
