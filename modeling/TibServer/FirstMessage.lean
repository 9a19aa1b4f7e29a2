import TibServer.Isolation
import TibServer.Rsa

/-!
The first message of a client (`protocol.cpp`, `protocolgame.cpp`): behind the versions comes
a block under the server's key, with the key of the session and who logs in. What a client
puts into the block is what the server reads from it, so that both sides go on with one key.
-/

namespace TibServer

open Bytes NetworkMessage

/-! ### Reading what lies ahead -/

/-- The bytes that the next reads give. -/
structure Ahead (m : NetworkMessage) (l : List UInt8) : Prop where
  bytes : slice m.buffer m.position l.length = l
  ends : m.position + l.length ≤ m.length + 8
  fits : m.length + 8 < NETWORKMESSAGE_MAXSIZE

namespace Ahead

variable {m : NetworkMessage} {a l : List UInt8}

theorem split (h : Ahead m (a ++ l)) :
    slice m.buffer m.position a.length = a ∧ Ahead (m.advance a.length) l := by
  have bytes := h.bytes
  have ends := h.ends
  rw [List.length_append, slice_add] at bytes
  rw [List.length_append] at ends
  obtain ⟨front, back⟩ := List.append_inj bytes (by simp)
  refine ⟨front, back, ?_, h.fits⟩
  simp only [advance]
  omega

theorem get (h : Ahead m (a ++ l)) :
    m.get a.length = (ofLE a, m.advance a.length) ∧ Ahead (m.advance a.length) l := by
  obtain ⟨front, back⟩ := h.split
  have ends := h.ends
  rw [List.length_append] at ends
  rw [get_granted h.fits (by omega), front]
  exact ⟨rfl, back⟩

theorem get_number {n x : Nat} (h : Ahead m (toLE n x ++ l)) (lt : x < 256 ^ n) :
    m.get n = (x, m.advance n) ∧ Ahead (m.advance n) l := by
  have read := h.get
  rw [toLE_length, ofLE_toLE, Nat.mod_eq_of_lt lt] at read
  exact read

theorem getByte {b : UInt8} (h : Ahead m (b :: l)) :
    m.getByte = (b, m.advance 1) ∧ Ahead (m.advance 1) l := by
  have single : Ahead m ([b] ++ l) := h
  obtain ⟨front, back⟩ := single.split
  have ends := single.ends
  simp only [List.length_append, List.length_singleton] at ends front back
  have can : m.canRead 1 = true := (canRead_iff h.fits).mpr (by omega)
  have byte : m.buffer m.position = b := by simpa [slice] using front
  unfold NetworkMessage.getByte
  rw [if_pos can, byte]
  exact ⟨rfl, back⟩

/-- A string behind its length. -/
theorem getString (h : Ahead m (toLE 2 a.length ++ (a ++ l))) (lt : a.length < 65536) :
    ∃ m', m.getString 0 = (a, m') ∧ Ahead m' l := by
  obtain ⟨size, rest⟩ := h.get_number lt
  obtain ⟨front, back⟩ := rest.split
  have ends := rest.ends
  rw [List.length_append] at ends
  refine ⟨(m.advance 2).advance a.length, ?_, back⟩
  unfold NetworkMessage.getString
  rw [if_pos rfl, size, getContents_granted rest.fits (by omega), front]

theorem skipBytes (h : Ahead m (a ++ l)) {k : Int16} (size : k.toInt = a.length) :
    m.skipBytes k = m.advance a.length ∧ Ahead (m.advance a.length) l := by
  have ends := h.ends
  have fits := h.fits
  simp only [NETWORKMESSAGE_MAXSIZE] at fits
  rw [List.length_append] at ends
  refine ⟨?_, h.split.2⟩
  unfold NetworkMessage.skipBytes NetworkMessage.advance
  rw [size]
  congr 1
  omega

end Ahead

/-! ### The block under the key -/

/-- `Protocol::RSA_decrypt` -/
def RSA_decrypt (g_RSA : RSA) (msg : NetworkMessage) : Bool × NetworkMessage :=
  if (msg.length : Int) - msg.position < 128 then (false, msg)
  else
    let plain := g_RSA.decrypt (slice msg.buffer msg.position 128)
    let msg := { msg with buffer := store msg.buffer msg.position plain }
    let first := msg.getByte
    (first.1 == 0, first.2)

namespace FirstMessage

inductive GameState_t
  | STARTUP | INIT | NORMAL | CLOSED | SHUTDOWN | CLOSING | MAINTAIN
  deriving DecidableEq, Repr

structure BanInfo where
  bannedBy : String
  reason : String
  expiresAt : Int
  deriving DecidableEq, Repr

/-- What the server asks when somebody logs in. -/
structure Server where
  gameState : GameState_t
  challengeTimestamp : Nat
  challengeRandom : UInt8
  versionMin : Int
  versionMax : Int
  versionStr : String
  ipBan : Option BanInfo
  formatDateShort : Int → String
  gameworldAuthentication : List UInt8 → List UInt8 → List UInt8 → Nat

inductive Reply
  | disconnect
  | disconnectClient (message : String)
  | login (characterName : List UInt8) (accountId operatingSystem : Nat)
  deriving DecidableEq, Repr

/-- The reply, the protocol from then on, and whether the client is told its opcodes. -/
structure Outcome where
  reply : Reply
  protocol : Protocol
  opcodeMessage : Bool := false

def CLIENTOS_OTCLIENT_LINUX : Nat := 10

def newline : UInt8 := 10

/-- `onRecvFirstMessage`, from the answer to the challenge on. -/
def checkLogin (s : Server) (operatingSystem version : Nat)
    (accountName password characterName : List UInt8) (timeStamp : Nat) (randNumber : UInt8) :
    Reply :=
  if s.challengeTimestamp ≠ timeStamp ∨ s.challengeRandom ≠ randNumber then .disconnect
  else if (version : Int) < s.versionMin ∨ (version : Int) > s.versionMax then
    .disconnectClient ("Only clients with protocol " ++ s.versionStr ++ " allowed!")
  else if s.gameState = .STARTUP then
    .disconnectClient "Gameworld is starting up. Please wait."
  else if s.gameState = .MAINTAIN then
    .disconnectClient "Gameworld is under maintenance. Please re-connect in a while."
  else
    match s.ipBan with
    | some banInfo =>
        let reason := if banInfo.reason = "" then "(none)" else banInfo.reason
        .disconnectClient ("Your IP has been banned until " ++
          s.formatDateShort banInfo.expiresAt ++ " by " ++ banInfo.bannedBy ++
          ".\n\nReason specified:\n" ++ reason)
    | none =>
        let accountId := s.gameworldAuthentication accountName password characterName
        if accountId = 0 then .disconnectClient "Account name or password is not correct."
        else .login characterName accountId operatingSystem

/-- `ProtocolGame::onRecvFirstMessage` -/
def onRecvFirstMessage (g_RSA : RSA) (s : Server) (p : Protocol) (msg : NetworkMessage) :
    Outcome :=
  if s.gameState = .SHUTDOWN then ⟨.disconnect, p, false⟩
  else
    let os := msg.get 2
    let operatingSystem := os.1 % 256
    let version := os.2.get 2
    let p := if version.1 ≥ 1111 then { p with compactCrypt := true } else p
    let msg := version.2.skipBytes 7
    let opened := RSA_decrypt g_RSA msg
    if !opened.1 then ⟨.disconnect, p, false⟩
    else
      let key0 := opened.2.get 4
      let key1 := key0.2.get 4
      let key2 := key1.2.get 4
      let key3 := key2.2.get 4
      let key : XteaKey := ![UInt32.ofNat key0.1, UInt32.ofNat key1.1, UInt32.ofNat key2.1,
        UInt32.ofNat key3.1]
      let p := { p with encryptionEnabled := true, key }
      let opcodeMessage := decide (operatingSystem ≥ CLIENTOS_OTCLIENT_LINUX)
      let sessionKey := (key3.2.skipBytes 1).getString 0
      let noAccount := Reply.disconnectClient "You must enter your account name."
      if newline ∉ sessionKey.1 then ⟨noAccount, p, opcodeMessage⟩
      else
        let accountName := sessionKey.1.takeWhile (· != newline)
        if accountName = [] then ⟨noAccount, p, opcodeMessage⟩
        else
          let password := sessionKey.1.drop (accountName.length + 1)
          let characterName := sessionKey.2.getString 0
          let timeStamp := characterName.2.get 4
          let randNumber := timeStamp.2.getByte
          ⟨checkLogin s operatingSystem version.1 accountName password characterName.1
            timeStamp.1 randNumber.1, p, opcodeMessage⟩

/-! ### The client's side -/

/-- What a client has to say. -/
structure Hello where
  operatingSystem : Nat
  version : Nat
  skipped : List UInt8
  key : XteaKey
  gamemaster : UInt8
  accountName : List UInt8
  password : List UInt8
  characterName : List UInt8
  timeStamp : Nat
  randNumber : UInt8
  filler : List UInt8

namespace Hello

variable (h : Hello)

def sessionKey : List UInt8 := h.accountName ++ newline :: h.password

/-- The strings, the answer to the challenge and what fills the block. -/
def tail : List UInt8 :=
  toLE 2 h.sessionKey.length ++ (h.sessionKey ++ (toLE 2 h.characterName.length ++
    (h.characterName ++ (toLE 4 h.timeStamp ++ h.randNumber :: h.filler))))

def block : List UInt8 :=
  0 :: ((List.ofFn fun i => toLE 4 (h.key i).toNat).flatten ++ ([h.gamemaster] ++ h.tail))

theorem block_eq : h.block =
    0 :: (toLE 4 (h.key 0).toNat ++ (toLE 4 (h.key 1).toNat ++ (toLE 4 (h.key 2).toNat ++
      (toLE 4 (h.key 3).toNat ++ ([h.gamemaster] ++ h.tail))))) := by
  rw [block]
  simp only [List.ofFn_succ, List.ofFn_zero, List.flatten_cons, List.flatten_nil, List.append_nil,
    List.append_assoc]
  rfl

/-- The message, with the block under the public key. -/
def wire (g_RSA : RSA) : List UInt8 :=
  toLE 2 h.operatingSystem ++ (toLE 2 h.version ++ (h.skipped ++ g_RSA.encrypt (ofBE h.block)))

/-- The numbers have their sizes, there is an account name on a line of its own, and the
block is full. -/
structure Valid : Prop where
  operatingSystem : h.operatingSystem < 65536
  version : h.version < 65536
  skipped : h.skipped.length = 7
  named : h.accountName ≠ []
  line : newline ∉ h.accountName
  timeStamp : h.timeStamp < 256 ^ 4
  full : h.block.length = 128

end Hello

/-! ### What the server reads -/

variable {p q : Nat} {m : NetworkMessage} {h : Hello}

/-- The primes of a key whose modulus has 128 bytes. -/
structure KeyPair (p q : Nat) : Prop where
  prime_p : p.Prime
  prime_q : q.Prime
  ne : p ≠ q
  coprime : Nat.Coprime 65537 ((p - 1) * (q - 1))
  large : 256 ^ 127 ≤ p * q
  small : p * q ≤ 256 ^ 128

theorem toBE_ofBE (l : List UInt8) : toBE l.length (ofBE l) = l := by
  have back := toLE_ofLE l.reverse
  rw [List.length_reverse] at back
  rw [toBE, ofBE, back, List.reverse_reverse]

/-- A block that begins with zero is below the modulus, and comes out as it was. -/
theorem KeyPair.decrypt_block (keys : KeyPair p q) {rest : List UInt8}
    (full : rest.length = 127) :
    (RSA.setKey p q).decrypt ((RSA.setKey p q).encrypt (ofBE (0 :: rest))) = 0 :: rest := by
  have value : ofBE (0 :: rest) = ofBE rest := by
    have zero (l : List UInt8) : ofLE (l ++ [0]) = ofLE l := by
      induction l with
      | nil => rfl
      | cons b l ih => rw [List.cons_append, ofLE, ofLE, ih]
    rw [ofBE, List.reverse_cons, zero, ofBE]
  have lt : ofBE (0 :: rest) < p * q := by
    have below := ofLE_lt rest.reverse
    rw [List.length_reverse, full] at below
    rw [value, ofBE]
    exact below.trans_le keys.large
  have length : (0 :: rest).length = 128 := by rw [List.length_cons, full]
  rw [RSA.decrypt_encrypt keys.prime_p keys.prime_q keys.ne keys.coprime keys.small lt, ← length,
    toBE_ofBE]

/-- The server opens the block. -/
theorem KeyPair.opens (keys : KeyPair p q) {rest : List UInt8} (full : rest.length = 127)
    (ahead : Ahead m ((RSA.setKey p q).encrypt (ofBE (0 :: rest))))
    (long : m.position + 128 ≤ m.length) :
    ∃ m', RSA_decrypt (RSA.setKey p q) m = (true, m') ∧ Ahead m' rest := by
  have cipher := ahead.bytes
  rw [RSA.encrypt_length] at cipher
  have length : (0 :: rest).length = 128 := by rw [List.length_cons, full]
  have ends := ahead.ends
  rw [RSA.encrypt_length] at ends
  have plain : Ahead { m with buffer := store m.buffer m.position (0 :: rest) } (0 :: rest) :=
    ⟨slice_store _ _ _, by rw [length]; exact ends, ahead.fits⟩
  obtain ⟨byte, back⟩ := plain.getByte
  refine ⟨_, ?_, back⟩
  unfold RSA_decrypt
  rw [if_neg (by omega)]
  simp only [cipher, keys.decrypt_block full, byte]
  rfl

theorem Hello.Valid.tail_length (valid : h.Valid) : h.tail.length = 110 := by
  have full := valid.full
  simp only [Hello.block_eq, List.length_cons, List.length_append, toLE_length,
    List.length_nil] at full
  omega

theorem Hello.Valid.session_short (valid : h.Valid) :
    h.sessionKey.length < 65536 ∧ h.characterName.length < 65536 := by
  have short := valid.tail_length
  simp only [Hello.tail, List.length_cons, List.length_append, toLE_length] at short
  omega

theorem ofNat_toNat (x : UInt32) : UInt32.ofNat x.toNat = x := by simp

theorem toNat_lt (x : UInt32) : x.toNat < 256 ^ 4 := x.toNat_lt

theorem key_eq (key : XteaKey) : ![key 0, key 1, key 2, key 3] = key := by
  funext i
  fin_cases i <;> rfl

theorem takeWhile_session (valid : h.Valid) :
    h.sessionKey.takeWhile (· != newline) = h.accountName := by
  rw [Hello.sessionKey, List.takeWhile_append_of_pos, List.takeWhile_cons_of_neg (by simp),
    List.append_nil]
  intro b hb
  simp only [bne_iff_ne]
  rintro rfl
  exact valid.line hb

namespace Sample

open ModularPowers

def primeP : Nat := 3 ^ 3 * 2 ^ 455 + 1
def primeQ : Nat := 5 ^ 2 * 2 ^ 554 + 1

theorem primeP_prime : primeP.Prime := by
  apply prime_of_powMod (p := primeP) (a := 5) (k := 460)
  · decide +kernel
  · decide +kernel
  · decide +kernel
  · intro r prime dvd
    rw [primeP, Nat.add_sub_cancel] at dvd
    rcases (Nat.Prime.dvd_mul prime).mp dvd with three | two
    · obtain rfl := (Nat.prime_dvd_prime_iff_eq prime Nat.prime_three).mp
        (prime.dvd_of_dvd_pow three)
      decide +kernel
    · obtain rfl := (Nat.prime_dvd_prime_iff_eq prime Nat.prime_two).mp
        (prime.dvd_of_dvd_pow two)
      decide +kernel

theorem primeQ_prime : primeQ.Prime := by
  apply prime_of_powMod (p := primeQ) (a := 6) (k := 560)
  · decide +kernel
  · decide +kernel
  · decide +kernel
  · intro r prime dvd
    rw [primeQ, Nat.add_sub_cancel] at dvd
    rcases (Nat.Prime.dvd_mul prime).mp dvd with five | two
    · obtain rfl := (Nat.prime_dvd_prime_iff_eq prime Nat.prime_five).mp
        (prime.dvd_of_dvd_pow five)
      decide +kernel
    · obtain rfl := (Nat.prime_dvd_prime_iff_eq prime Nat.prime_two).mp
        (prime.dvd_of_dvd_pow two)
      decide +kernel

theorem keyPair : KeyPair primeP primeQ where
  prime_p := primeP_prime
  prime_q := primeQ_prime
  ne := by decide +kernel
  coprime := by decide +kernel
  large := by decide +kernel
  small := by decide +kernel

def hello : Hello where
  operatingSystem := 2
  version := 1098
  skipped := [0, 0, 0, 0, 0, 0, 0]
  key := ![1, 2, 3, 4]
  gamemaster := 0
  accountName := [97]
  password := [98, 99]
  characterName := [77, 101]
  timeStamp := 1000
  randNumber := 7
  filler := List.replicate 95 0

def server : Server where
  gameState := .NORMAL
  challengeTimestamp := 1000
  challengeRandom := 7
  versionMin := 1097
  versionMax := 1100
  versionStr := "10.98"
  ipBan := none
  formatDateShort := fun _ => ""
  gameworldAuthentication := fun _ _ _ => 5

def greeted : Protocol := { key := fun _ => 0 }

/-- The packet, behind the header and the checksum. -/
def packet : NetworkMessage where
  buffer := store (fun _ => 0) 6 (hello.wire (RSA.setKey primeP primeQ))
  length := 145
  position := 6

theorem hello_valid : hello.Valid where
  operatingSystem := by decide
  version := by decide
  skipped := rfl
  named := by decide
  line := by decide
  timeStamp := by decide
  full := by decide +kernel

end Sample

end FirstMessage

end TibServer
