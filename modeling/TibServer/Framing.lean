import TibServer.Isolation

/-!
The framing of messages, from the server that sends to one that receives: the
size, the padding, the cipher and the checksum are put on by `onSendMessage`, and
taken off by the connection.
-/

namespace TibServer

open Bytes

/-! ### Messages that are sent -/

/-- The add operations. -/
inductive AddOp
  | byte (value : UInt8)
  | word (size value : Nat)
  | string (value : List UInt8)
  | bytes (l : List UInt8)
  | position (pos : Position)

def AddOp.run : AddOp → NetworkMessage → NetworkMessage
  | .byte value, m => m.addByte value
  | .word size value, m => m.add size value
  | .string value, m => m.addString value
  | .bytes l, m => m.addBytes l
  | .position pos, m => m.addPosition pos

namespace OutputMessage

/-- What add operations can make of a new message. -/
inductive Accumulated : OutputMessage → Prop
  | new (buffer : Buffer) : Accumulated { buffer }
  | add {msg : OutputMessage} (op : AddOp) (before : Accumulated msg) :
      Accumulated { msg with toNetworkMessage := op.run msg.toNetworkMessage }

/-- The bytes that were added. -/
def payload (msg : OutputMessage) : List UInt8 := slice msg.buffer 8 msg.length

end OutputMessage

namespace NetworkMessage

variable {m : NetworkMessage}

/-- What was added lies between the start and the position. -/
structure Filled (m : NetworkMessage) : Prop where
  position : m.position = 8 + m.length
  room : m.position < MAX_BODY_LENGTH

theorem Filled.put (h : m.Filled) {l : List UInt8} (room : m.position + l.length < MAX_BODY_LENGTH) :
    (m.put l).Filled := by
  refine ⟨?_, room⟩
  simp only [NetworkMessage.put, h.position]
  omega

theorem Filled.add (h : m.Filled) (size value : Nat) : (m.add size value).Filled := by
  unfold NetworkMessage.add
  split
  · next can =>
      refine h.put ?_
      rw [toLE_length]
      simpa [canAdd, Nat.add_comm] using can
  · exact h

theorem Filled.addByte (h : m.Filled) (value : UInt8) : (m.addByte value).Filled := by
  unfold NetworkMessage.addByte
  split
  · next can =>
      refine h.put ?_
      simpa [canAdd, Nat.add_comm] using can
  · exact h

theorem Filled.addBytes (h : m.Filled) (l : List UInt8) : (m.addBytes l).Filled := by
  unfold NetworkMessage.addBytes
  split
  · exact h
  · next can =>
      refine h.put ?_
      simp only [canAdd, Bool.or_eq_true, Bool.not_eq_true', decide_eq_false_iff_not, not_or,
        not_not] at can
      omega

theorem Filled.addString (h : m.Filled) (value : List UInt8) : (m.addString value).Filled := by
  unfold NetworkMessage.addString
  split
  · exact h
  · next can =>
      simp only [canAdd, Bool.or_eq_true, Bool.not_eq_true', decide_eq_false_iff_not, not_or,
        not_not] at can
      refine (h.add 2 value.length).put ?_
      have fits : m.canAdd 2 = true := by
        simp only [canAdd, decide_eq_true_eq]
        omega
      simp only [NetworkMessage.add, fits, if_true, NetworkMessage.put, toLE_length]
      omega

theorem Filled.run (h : m.Filled) (op : AddOp) : (op.run m).Filled := by
  cases op with
  | byte value => exact h.addByte value
  | word size value => exact h.add size value
  | string value => exact h.addString value
  | bytes l => exact h.addBytes l
  | position pos => exact ((h.add 2 pos.x).add 2 pos.y).addByte _

end NetworkMessage

namespace OutputMessage

variable {msg : OutputMessage}

theorem Accumulated.filled (h : Accumulated msg) :
    msg.Filled ∧ msg.outputBufferStart = 8 := by
  induction h with
  | new buffer => exact ⟨⟨rfl, (by decide : 8 < NetworkMessage.MAX_BODY_LENGTH)⟩, rfl⟩
  | add op before ih => exact ⟨ih.1.run op, ih.2⟩

/-! ### What each step does to the output -/

@[simp] theorem output_length (msg : OutputMessage) : msg.output.length = msg.length :=
  slice_length ..

theorem addHeader_output {size : Nat} (start : size ≤ msg.outputBufferStart) (value : Nat) :
    (msg.addHeader size value).output = toLE size value ++ msg.output := by
  have header := slice_store msg.buffer (msg.outputBufferStart - size) (toLE size value)
  rw [toLE_length] at header
  simp only [output, addHeader]
  rw [Nat.add_comm msg.length, slice_add, header, Nat.sub_add_cancel start,
    slice_store_apart _ _ (.inr (by rw [toLE_length]; omega))]

/-- The bytes that are put behind a message to fill its last block. -/
def filling (msg : OutputMessage) : List UInt8 :=
  List.replicate ((8 - msg.length % 8) % 8) 0x33

theorem pad_output (msg : OutputMessage)
    (ends : msg.position = msg.outputBufferStart + msg.length)
    (room : msg.position + msg.filling.length < NetworkMessage.MAX_BODY_LENGTH) :
    msg.pad.output = msg.output ++ msg.filling ∧
      msg.pad.outputBufferStart = msg.outputBufferStart ∧ msg.pad.length % 8 = 0 := by
  unfold pad filling
  rw [filling, List.length_replicate] at room
  by_cases whole : msg.length % 8 = 0
  · simp [whole]
  · have rest : (8 - msg.length % 8) % 8 = 8 - msg.length % 8 := by omega
    have can : msg.canAdd (8 - msg.length % 8) = true := by
      simp only [NetworkMessage.canAdd, decide_eq_true_eq]
      omega
    have stored := slice_store msg.buffer msg.position
      (List.replicate (8 - msg.length % 8) (0x33 : UInt8))
    rw [List.length_replicate] at stored
    simp only [ne_eq, whole, not_false_eq_true, if_true, NetworkMessage.addPaddingBytes, can,
      output, rest, true_and]
    refine ⟨?_, by omega⟩
    rw [slice_add, ← ends, stored, slice_store_apart _ _ (.inl ends.ge)]

theorem XTEA_encrypt_output (p : Protocol) {n : Nat} (blocks : msg.pad.length = 8 * n) :
    (p.XTEA_encrypt msg).output = mapBlocks (Xtea.encryptBlock p.key) n msg.pad.output := by
  have count : (8 * n + 7) / 8 = n := by omega
  simp only [Protocol.XTEA_encrypt, output, blocks, count]
  exact slice_storeBlocks (Xtea.encryptBlock_length p.key) n _ _

/-- A check, when there is one, is put on before the size. -/
theorem addCryptoHeader_output (start : msg.outputBufferStart = 6) (addChecksum : Nat) :
    ∃ check : List UInt8,
      (msg.addCryptoHeader addChecksum).output =
        toLE 2 (check.length + msg.length) ++ (check ++ msg.output) ∧
      check.length = (if addChecksum = 1 ∨ addChecksum = 2 then 4 else 0) ∧
      (msg.addCryptoHeader addChecksum).outputBufferStart = 4 - check.length := by
  -- the header that holds a check, of either kind
  have checked (other : OutputMessage) (value : Nat)
      (h : other.output = (msg.addHeader 4 value).output)
      (hs : other.outputBufferStart = 2) :
      other.writeMessageLength.output =
          toLE 2 ((toLE 4 value).length + msg.length) ++ (toLE 4 value ++ msg.output) ∧
        other.writeMessageLength.outputBufferStart = 4 - (toLE 4 value).length := by
    have length : other.length = (toLE 4 value).length + msg.length := by
      rw [← output_length, h, addHeader_output (by omega), List.length_append, output_length]
    refine ⟨?_, ?_⟩
    · rw [writeMessageLength, addHeader_output (by omega), length, h, addHeader_output (by omega)]
    · simp [writeMessageLength, addHeader, hs]
  unfold addCryptoHeader
  by_cases adler : addChecksum = 1
  · refine ⟨toLE 4 (adlerChecksum msg.output).toNat, ?_⟩
    have both := checked (msg.addHeader 4 (adlerChecksum msg.output).toNat) _ rfl
      (by simp [addHeader, start])
    simpa [adler] using both
  · by_cases sequence : addChecksum = 2
    · refine ⟨toLE 4 msg.sequence.toNat, ?_⟩
      have both := checked
        { msg.addHeader 4 msg.sequence.toNat with sequence := msg.sequence + 1 }
        msg.sequence.toNat rfl (by simp [addHeader, start])
      simpa [adler, sequence] using both
    · refine ⟨[], ?_⟩
      simp only [adler, sequence, if_false, or_self, writeMessageLength, List.length_nil,
        Nat.zero_add, List.nil_append, true_and]
      exact ⟨addHeader_output (by omega) _, by simp [addHeader, start]⟩

/-- The size, the bytes and the padding of a message, which are encrypted as one. -/
def body (msg : OutputMessage) : List UInt8 :=
  toLE 2 msg.length ++ msg.payload ++ msg.writeMessageLength.filling

theorem filling_length_body (msg : OutputMessage) :
    msg.writeMessageLength.filling.length = (8 - (msg.length + 2) % 8) % 8 :=
  List.length_replicate

theorem body_length (msg : OutputMessage) :
    msg.body.length = 2 + msg.length + (8 - (msg.length + 2) % 8) % 8 := by
  rw [body, List.length_append, List.length_append, filling_length_body, toLE_length, payload,
    slice_length]

/-- A message of the encrypted modes on the wire. -/
theorem Accumulated.onSendMessage_output (h : Accumulated msg) (short : msg.length ≤ 24566)
    {p : Protocol} (raw : p.rawMessages = false) (enabled : p.encryptionEnabled = true) :
    ∃ check : List UInt8, ∃ n : Nat, msg.body.length = 8 * n ∧
      (p.onSendMessage msg).output = toLE 2 (check.length + 8 * n) ++
        (check ++ mapBlocks (Xtea.encryptBlock p.key) n msg.body) ∧
      check.length = (if p.compactCrypt = true ∨ p.checksumEnabled = true then 4 else 0) ∧
      (p.onSendMessage msg).outputBufferStart = 4 - check.length := by
  obtain ⟨⟨position, room⟩, start⟩ := h.filled
  have output : msg.writeMessageLength.output = toLE 2 msg.length ++ msg.payload := by
    rw [writeMessageLength, addHeader_output (by omega), OutputMessage.output, payload, start]
  have first : msg.writeMessageLength.outputBufferStart = 6 := by
    simp [writeMessageLength, addHeader, start]
  have filled := filling_length_body msg
  obtain ⟨padded, same, whole⟩ := pad_output msg.writeMessageLength
    (by
      rw [first]
      simp only [writeMessageLength, addHeader]
      omega)
    (by
      rw [filled]
      simp only [NetworkMessage.MAX_BODY_LENGTH, NETWORKMESSAGE_MAXSIZE, writeMessageLength,
        addHeader]
      omega)
  rw [output] at padded
  have size : msg.writeMessageLength.pad.length = msg.body.length := by
    rw [← output_length, padded, body]
  obtain ⟨n, hn⟩ : ∃ n, msg.body.length = 8 * n := ⟨msg.body.length / 8, by omega⟩
  have encrypted := XTEA_encrypt_output p (size.trans hn)
  rw [padded, ← body] at encrypted
  have length : (p.XTEA_encrypt msg.writeMessageLength).length = 8 * n := size.trans hn
  have second : (p.XTEA_encrypt msg.writeMessageLength).outputBufferStart = 6 := same.trans first
  have sent (addChecksum : Nat) := addCryptoHeader_output second addChecksum
  rw [encrypted, length] at sent
  simp only [Protocol.onSendMessage, raw, enabled, if_true, Bool.false_eq_true, if_false]
  by_cases compact : p.compactCrypt = true
  · obtain ⟨check, out, long, front⟩ := sent 2
    refine ⟨check, n, hn, ?_⟩
    simp only [compact, if_true, true_or]
    exact ⟨out, long, front⟩
  · obtain ⟨check, out, long, front⟩ := sent (if p.checksumEnabled = true then 1 else 0)
    refine ⟨check, n, hn, ?_⟩
    simp only [compact]
    refine ⟨out, ?_, front⟩
    rw [long]
    split_ifs <;> simp_all

end OutputMessage

/-! ### What is received -/

namespace Connection

open NetworkMessage

variable {c : Connection} {p : Protocol} {wire : List UInt8}

/-- A packet of an allowed size goes to the protocol, behind its checksum. -/
theorem receive_eq (first : c.receivedFirst = true) (hp : c.protocol = some p)
    (whole : wire.length = 2 + ofLE (wire.take 2)) (long : 2 < wire.length)
    (short : wire.length < NETWORKMESSAGE_MAXSIZE - 14) :
    ∃ m : NetworkMessage, m.Received wire ∧ m.position = 6 ∧
      c.receive wire = some ((p.onRecvMessage m).1, { c with msg := (p.onRecvMessage m).2 }) := by
  have two : (wire.take 2).length = 2 := by
    rw [List.length_take]
    omega
  have header : slice (store c.msg.buffer 0 (wire.take 2)) 0 2 = wire.take 2 := by
    have := slice_store c.msg.buffer 0 (wire.take 2)
    rwa [two] at this
  simp only [NETWORKMESSAGE_MAXSIZE] at short
  have parsed : ({ c.msg with buffer := store c.msg.buffer 0 (wire.take 2) } :
      NetworkMessage).parseHeader = some { c.msg with
        buffer := store c.msg.buffer 0 (wire.take 2)
        length := ofLE (wire.take 2) + 2
        position := 2 } := by
    simp only [parseHeader, getLengthHeader, header, NETWORKMESSAGE_MAXSIZE]
    rw [if_neg (by omega)]
  obtain ⟨received, start⟩ := parseHeader_received whole parsed
  unfold receive
  rw [parsed]
  dsimp only at received start ⊢
  generalize body : ({ c.msg with
      buffer := store (store c.msg.buffer 0 (wire.take 2)) 2 (wire.drop 2)
      length := ofLE (wire.take 2) + 2
      position := 2 } : NetworkMessage) = m at received ⊢
  replace start : m.position = 2 := by rw [← body]
  have checksum := get_granted (m := m) (n := 4) (by rw [received.length]; exact received.short)
    (by rw [start]; omega)
  simp only [parsePacket, first, if_true, hp, checksum]
  exact ⟨m.advance 4, ⟨received.bytes, received.length, received.long, received.short⟩,
    by rw [advance_position, start], rfl⟩

end Connection

namespace OutputMessage

open NetworkMessage

variable {msg : OutputMessage} {p : Protocol} {c : Connection}

/-- What has been encrypted is decrypted, and the inner size and the payload are where
they are looked for. -/
theorem plain_onSendMessage {n : Nat} {header : List UInt8} (six : header.length = 6)
    (blocks : msg.body.length = 8 * n) (short : msg.length ≤ 24566) :
    p.plain (header ++ mapBlocks (Xtea.encryptBlock p.key) n msg.body) = header ++ msg.body ∧
      ofLE (piece (header ++ msg.body) 6 2) = msg.length ∧
      piece (header ++ msg.body) 8 msg.length = msg.payload := by
  have length := mapBlocks_length (Xtea.encryptBlock_length p.key) n msg.body
  have count : ((header ++ mapBlocks (Xtea.encryptBlock p.key) n msg.body).length - 6) / 8 = n := by
    rw [List.length_append, length, six]
    omega
  refine ⟨?_, ?_, ?_⟩
  · rw [Protocol.plain, count, List.take_left' six, List.drop_left' six,
      mapBlocks_inverse (Xtea.encryptBlock_length p.key)
        (fun l hl => Xtea.decryptBlock_encryptBlock p.key hl) n blocks]
  · rw [piece, List.drop_left' six, body, List.append_assoc, List.take_left' (toLE_length ..),
      ofLE_toLE, Nat.mod_eq_of_lt (by omega)]
  · have eight : (header ++ toLE 2 msg.length).length = 8 := by simp [six]
    rw [piece, body, List.append_assoc (toLE _ _), ← List.append_assoc, List.drop_left' eight,
      List.take_left' (by simp [payload])]

/-- A message of at most 24566 bytes that is sent with a checksum or a sequence number
is accepted by a receiver with the same key, who finds its bytes; without either the
receiver takes its first four bytes for one, and refuses it. -/
theorem Accumulated.round_trip (h : Accumulated msg) (short : msg.length ≤ 24566)
    (raw : p.rawMessages = false) (enabled : p.encryptionEnabled = true)
    (first : c.receivedFirst = true) {peer : Protocol} (hp : c.protocol = some peer)
    (key : peer.key = p.key) (decrypts : peer.encryptionEnabled = true) :
    let sent := p.onSendMessage msg
    ((p.compactCrypt = true ∨ p.checksumEnabled = true) →
      (sent.length - 6) % 8 = 0 ∧ sent.outputBufferStart = 0 ∧
        sent.length ≤ NETWORKMESSAGE_MAXSIZE ∧
        ∃ c', c.receive sent.output = some (true, c') ∧ c'.msg.position = 8 ∧
          c'.msg.length = msg.length ∧
          slice c'.msg.buffer c'.msg.position c'.msg.length = msg.payload) ∧
    (p.compactCrypt = false → p.checksumEnabled = false →
      ∃ c', c.receive sent.output = some (false, c')) := by
  intro sent
  obtain ⟨check, n, blocks, out, long, front⟩ := h.onSendMessage_output short raw enabled
  have size := msg.body_length
  have cipher := mapBlocks_length (Xtea.encryptBlock_length p.key) n msg.body
  have wire : sent.output.length = 2 + (check.length + 8 * n) := by
    rw [out]
    simp only [List.length_append, toLE_length, cipher]
  have head : ofLE (sent.output.take 2) = check.length + 8 * n := by
    rw [out, List.take_left' (toLE_length ..), ofLE_toLE]
    refine Nat.mod_eq_of_lt ?_
    rw [long]
    split_ifs <;> omega
  obtain ⟨m, received, start, answer⟩ := Connection.receive_eq first hp
    (by rw [wire, head] : sent.output.length = _) (by omega) (by
      rw [wire, long]
      simp only [NETWORKMESSAGE_MAXSIZE]
      split_ifs <;> omega)
  have decrypt := received.XTEA_decrypt_eq (p := peer) start
  have length : sent.length = sent.output.length := (output_length sent).symm
  simp only [Protocol.onRecvMessage, decrypts, if_true] at answer
  refine ⟨fun checked => ?_, fun compact checksum => ?_⟩
  · rw [if_pos checked] at long
    rw [long] at wire front
    refine ⟨by omega, front, by rw [length, wire, NETWORKMESSAGE_MAXSIZE]; omega, ?_⟩
    have six : (toLE 2 (check.length + 8 * n) ++ check).length = 6 := by simp [long]
    obtain ⟨plain, inner, payload⟩ := plain_onSendMessage (p := peer) six blocks short
    rw [key, List.append_assoc, ← out] at plain
    replace plain : peer.plain sent.output = _ := plain
    have deciphered := received.decipher (p := peer) start (by omega) (by omega)
    have position : (peer.decipher m).position = 6 := start
    rw [plain] at deciphered
    have holds := deciphered.holds (by omega)
    have whole : (toLE 2 (check.length + 8 * n) ++ check ++ msg.body).length = 6 + 8 * n := by
      rw [List.length_append, six, blocks]
    have innerAt : slice (peer.decipher m).buffer 6 2 = _ := holds.piece (by omega)
    have payloadAt : slice (peer.decipher m).buffer 8 msg.length = _ := holds.piece (by omega)
    rw [innerAt, inner] at decrypt
    rw [answer, decrypt, if_neg (by omega), if_neg (by omega)]
    have behind : ((peer.decipher m).advance 2).position = 8 := by rw [advance_position, position]
    refine ⟨_, rfl, behind, rfl, ?_⟩
    exact (congrArg (slice _ · _) behind).trans (payloadAt.trans payload)
  · rw [answer, decrypt, if_pos]
    · exact ⟨_, rfl⟩
    · rw [wire, long]
      simp only [compact, checksum, Bool.false_eq_true, or_self, if_false]
      omega

end OutputMessage

namespace Sample

/-! ### A message without a checksum -/

/-- A text on its way. -/
def greeting : OutputMessage :=
  { toNetworkMessage := (AddOp.string [104, 101, 108, 108, 111]).run { buffer := fun _ => 0 } }

theorem greeting_accumulated : greeting.Accumulated := .add _ (.new fun _ => 0)

def sealing : Protocol := { key := ![1, 2, 3, 4], encryptionEnabled := true }

def receiver : Connection :=
  { msg := { buffer := fun _ => 0 }, receivedFirst := true, protocol := some sealing }

/-- Without a checksum a message of one block is refused. -/
theorem unchecked_refused : greeting.Accumulated ∧
    (receiver.receive (({ sealing with checksumEnabled := false } : Protocol).onSendMessage
      greeting).output).map Prod.fst = some false :=
  ⟨greeting_accumulated, by decide⟩

theorem greeting_round_trip :
    ∃ c', receiver.receive (sealing.onSendMessage greeting).output = some (true, c') ∧
      slice c'.msg.buffer c'.msg.position c'.msg.length = greeting.payload := by
  obtain ⟨-, -, -, c', accepted, -, -, same⟩ :=
    (greeting_accumulated.round_trip (p := sealing) (c := receiver) (by decide) rfl rfl rfl rfl rfl
      rfl).1 (.inr rfl)
  exact ⟨c', accepted, same⟩

end Sample

end TibServer
