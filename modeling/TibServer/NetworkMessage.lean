import TibServer.World
import TibServer.Xtea

/-!
Messages on the network (`networkmessage.h`, `networkmessage.cpp`,
`outputmessage.h`), how a protocol frames those it sends (`protocol.cpp`), and how
a connection takes in those it receives (`connection.cpp`).

The buffer is a function, so what lies behind a message is what was there before.
Timers, packet limits and the greeting with the server's name are left out, and so
are the write functions that only call others (`addItem`, `addDouble` and so on).
-/

namespace TibServer

open Bytes

def NETWORKMESSAGE_MAXSIZE : Nat := 24590

structure NetworkMessage where
  buffer : Buffer
  length : Nat := 0
  position : Nat := 8
  overrun : Bool := false

namespace NetworkMessage

/-- What is left for the body beside the size, the checksum and the inner size. -/
def MAX_BODY_LENGTH : Nat := NETWORKMESSAGE_MAXSIZE - 2 - 4 - 8

variable (m : NetworkMessage)

/-! ### Reading -/

def canRead (size : Nat) : Bool :=
  !(decide (m.position + size > m.length + 8) ||
    decide ((size : Int) ≥ NETWORKMESSAGE_MAXSIZE - m.position))

def advance (n : Nat) : NetworkMessage := { m with position := m.position + n }

def refuse : NetworkMessage := { m with overrun := true }

def getByte : UInt8 × NetworkMessage :=
  if m.canRead 1 then (m.buffer m.position, m.advance 1) else (0, m.refuse)

/-- `get<T>` for a type of `size` bytes. -/
def get (size : Nat) : Nat × NetworkMessage :=
  if m.canRead size then (ofLE (slice m.buffer m.position size), m.advance size)
  else (0, m.refuse)

/-- The contents of a string, when its length is known. -/
def getContents (stringLen : Nat) : List UInt8 × NetworkMessage :=
  if m.canRead stringLen then (slice m.buffer m.position stringLen, m.advance stringLen)
  else ([], m.refuse)

def getString (stringLen : UInt16) : List UInt8 × NetworkMessage :=
  if stringLen = 0 then (m.get 2).2.getContents (m.get 2).1 else m.getContents stringLen.toNat

def getPosition : Position × NetworkMessage :=
  let x := m.get 2
  let y := x.2.get 2
  let z := y.2.getByte
  ({ x := x.1, y := y.1, z := z.1.toNat }, z.2)

/-- Nothing is checked, and the position is kept in 16 bits. -/
def skipBytes (count : Int16) : NetworkMessage :=
  { m with position := ((m.position + count.toInt) % 2 ^ 16).toNat }

/-! ### Writing -/

def canAdd (size : Nat) : Bool := decide (size + m.position < MAX_BODY_LENGTH)

def put (bytes : List UInt8) : NetworkMessage :=
  { m with
    buffer := store m.buffer m.position bytes
    position := m.position + bytes.length
    length := m.length + bytes.length }

def addByte (value : UInt8) : NetworkMessage := if m.canAdd 1 then m.put [value] else m

/-- `add<T>` for a type of `size` bytes. -/
def add (size value : Nat) : NetworkMessage :=
  if m.canAdd size then m.put (toLE size value) else m

def addString (value : List UInt8) : NetworkMessage :=
  if !m.canAdd (value.length + 2) || decide (value.length > 8192) then m
  else (m.add 2 value.length).put value

def addBytes (bytes : List UInt8) : NetworkMessage :=
  if !m.canAdd bytes.length || decide (bytes.length > 8192) then m else m.put bytes

/-- The position stays where it is. -/
def addPaddingBytes (n : Nat) : NetworkMessage :=
  if m.canAdd n then
    { m with
      buffer := store m.buffer m.position (List.replicate n 0x33)
      length := m.length + n }
  else m

def addPosition (pos : Position) : NetworkMessage :=
  ((m.add 2 pos.x).add 2 pos.y).addByte (UInt8.ofNat pos.z)

/-! ### The header that is received -/

def getLengthHeader : Nat := ofLE (slice m.buffer 0 2)

/-- `Connection::parseHeader`: the size is checked, and the body goes behind it. -/
def parseHeader : Option NetworkMessage :=
  if m.getLengthHeader = 0 ∨ m.getLengthHeader ≥ NETWORKMESSAGE_MAXSIZE - 16 then none
  else some { m with length := m.getLengthHeader + 2, position := 2 }

end NetworkMessage

/-! ### Checksums -/

/-- The two sums of `adlerChecksum`, over pieces of 5552 bytes. -/
def adlerSums : Nat → List UInt8 → UInt32 × UInt32 → UInt32 × UInt32
  | 0, _, sums => sums
  | n + 1, data, sums =>
    let sums := (data.take 5552).foldl
      (fun (a, b) byte => (a + byte.toUInt32, b + (a + byte.toUInt32))) sums
    adlerSums n (data.drop 5552) (sums.1 % 65521, sums.2 % 65521)

def adlerChecksum (data : List UInt8) : UInt32 :=
  if data.length > NETWORKMESSAGE_MAXSIZE then 0
  else
    let sums := adlerSums ((data.length + 5551) / 5552) data (1, 0)
    (sums.2 <<< 16) ||| sums.1

/-! ### Sending -/

structure OutputMessage extends NetworkMessage where
  sequence : UInt32 := 0
  outputBufferStart : Nat := 8

namespace OutputMessage

variable (msg : OutputMessage)

/-- What is handed to the socket. -/
def output : List UInt8 := slice msg.buffer msg.outputBufferStart msg.length

/-- `add_header<T>` for a type of `size` bytes. -/
def addHeader (size value : Nat) : OutputMessage :=
  { msg with
    buffer := store msg.buffer (msg.outputBufferStart - size) (toLE size value)
    length := msg.length + size
    outputBufferStart := msg.outputBufferStart - size }

def writeMessageLength : OutputMessage := msg.addHeader 2 msg.length

def addCryptoHeader (addChecksum : Nat) : OutputMessage :=
  (if addChecksum = 1 then msg.addHeader 4 (adlerChecksum msg.output).toNat
   else if addChecksum = 2 then
     { msg.addHeader 4 msg.sequence.toNat with sequence := msg.sequence + 1 }
   else msg).writeMessageLength

def pad : OutputMessage :=
  if msg.length % 8 ≠ 0 then
    { msg with toNetworkMessage := msg.addPaddingBytes (8 - msg.length % 8) }
  else msg

end OutputMessage

structure Protocol where
  key : XteaKey
  encryptionEnabled : Bool := false
  checksumEnabled : Bool := true
  compactCrypt : Bool := false
  rawMessages : Bool := false

namespace Protocol

variable (p : Protocol)

/-- The loop takes a block of eight bytes as long as one has begun. -/
def XTEA_encrypt (msg : OutputMessage) : OutputMessage :=
  let msg := msg.pad
  { msg with
    buffer := storeBlocks (Xtea.encryptBlock p.key) ((msg.length + 7) / 8) msg.buffer
      msg.outputBufferStart }

def onSendMessage (msg : OutputMessage) : OutputMessage :=
  if p.rawMessages then msg
  else
    let msg := msg.writeMessageLength
    if p.encryptionEnabled then
      let msg := p.XTEA_encrypt msg
      if p.compactCrypt then msg.addCryptoHeader 2
      else msg.addCryptoHeader (if p.checksumEnabled then 1 else 0)
    else msg

/-! ### Receiving -/

def decipher (msg : NetworkMessage) : NetworkMessage :=
  { msg with
    buffer := storeBlocks (Xtea.decryptBlock p.key) ((msg.length - 6) / 8) msg.buffer
      msg.position }

/-- Whether the message was accepted, and what became of it. -/
def XTEA_decrypt (msg : NetworkMessage) : Bool × NetworkMessage :=
  if ((msg.length : Int) - 6) % 8 ≠ 0 then (false, msg)
  else
    let inner := (p.decipher msg).get 2
    if (inner.1 : Int) > (inner.2.length : Int) - 8 then (false, inner.2)
    else (true, { inner.2 with length := inner.1 })

/-- Whether the message goes on to `parsePacket`. -/
def onRecvMessage (msg : NetworkMessage) : Bool × NetworkMessage :=
  if p.encryptionEnabled then p.XTEA_decrypt msg else (true, msg)

end Protocol

/-- A connection reads every packet into the same message. -/
structure Connection where
  msg : NetworkMessage
  receivedFirst : Bool := false
  protocol : Option Protocol := none

namespace Connection

variable (c : Connection)

/-- `Connection::parsePacket`, up to the protocol's own parser: whether it gets the
message, and in what state. The protocol of a first message is made by the parser. -/
def parsePacket : Bool × Connection :=
  let msg := (c.msg.get 4).2
  if c.receivedFirst then
    match c.protocol with
    | none => (false, { c with msg })
    | some p => ((p.onRecvMessage msg).1, { c with msg := (p.onRecvMessage msg).2 })
  else
    match c.protocol with
    | none =>
      (true, { c with
        msg := if msg.length < 280 then msg.skipBytes (-4) else msg
        receivedFirst := true })
    | some _ => (true, { c with msg := msg.skipBytes 1, receivedFirst := true })

/-- The bytes of a packet come in: two for the header, then as many as it says. No
answer when the connection is closed. -/
def receive (wire : List UInt8) : Option (Bool × Connection) :=
  match ({ c.msg with buffer := store c.msg.buffer 0 (wire.take 2) } : NetworkMessage).parseHeader with
  | none => none
  | some msg =>
    some ({ c with msg := { msg with
      buffer := store msg.buffer 2 (wire.drop 2) } } : Connection).parsePacket

end Connection

end TibServer
