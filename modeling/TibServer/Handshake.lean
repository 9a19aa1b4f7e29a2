import TibServer.NetworkMessage

/-!
The handshake of a game connection (`connection.cpp`): a client sends the header of its first packet
at once, or the name of the server, a newline and then the header. The first two bytes are read
together, each further byte of the name alone, and then the header.
-/

namespace TibServer.Handshake

open Bytes

inductive ConnectionState
  | DISCONNECTED | CONNECTING_STAGE2 | GAME
  deriving DecidableEq

/-- A connection after `accept(protocol)`. -/
structure Connection where
  connectionState : ConnectionState := .CONNECTING_STAGE2
  receivedName : Bool := false
  receivedLastChar : Bool := false
  serverNameTime : Nat := 0
  /-- the first two bytes of the buffer -/
  buffer : UInt8 × UInt8 := (0, 0)
  /-- The length of the first packet, from where the state is `GAME`. -/
  header : Option Nat := none

def newline : UInt8 := 0x0A

variable (name : List UInt8) (beyond : Nat → UInt8)

/-- `serverName[i]`: the name, a newline and a zero, and behind it what is in the memory. -/
def serverName (i : Nat) : UInt8 :=
  ((name ++ [newline])[i]?).getD (if i = name.length + 1 then 0 else beyond i)

namespace Connection

variable (c : Connection)

def close : Connection := { c with connectionState := .DISCONNECTED }

def getLengthHeader : Nat := ofLE [c.buffer.1, c.buffer.2]

/-- The connection is in the game, and closed again if the size is no size of a packet. -/
def enterGame : Connection :=
  let c := { c with connectionState := .GAME, header := some c.getLengthHeader }
  if c.getLengthHeader = 0 ∨ c.getLengthHeader ≥ NETWORKMESSAGE_MAXSIZE - 16 then c.close else c

/-- How many bytes `accept` asks for. -/
def toRead : Nat := if !c.receivedLastChar && c.receivedName then 1 else 2

def parseHeader : Connection :=
  if !c.receivedLastChar then
    if !c.receivedName && c.buffer.2 == 0 then { c with receivedLastChar := true }.enterGame
    else if !c.receivedName then
      if c.buffer.1 = serverName name beyond 0 ∧ c.buffer.2 = serverName name beyond 1 then
        { c with receivedName := true, serverNameTime := 1 }
      else c.close
    else
      let c := { c with serverNameTime := c.serverNameTime + 1 }
      if c.buffer.1 = serverName name beyond c.serverNameTime then
        if c.buffer.1 = newline then { c with receivedLastChar := true } else c
      else c.close
  else c.enterGame

/-- The connection reads what it has asked for, until the handshake is over. -/
def receive (c : Connection) : List UInt8 → Connection
  | [] => c
  | b :: rest =>
      if c.connectionState ≠ .CONNECTING_STAGE2 then c
      else if c.toRead = 1 then
        receive ({ c with buffer := (b, c.buffer.2 ) }.parseHeader name beyond) rest
      else
        match rest with
        | [] => c
        | b' :: rest => receive ({ c with buffer := (b, b') }.parseHeader name beyond) rest

end Connection

/-! ### What is required -/

/-- The stream starts in one of the two ways. -/
def Accepts (stream : List UInt8) : Prop :=
  (∃ b rest, stream = b :: 0 :: rest) ∨
    ∃ b b' rest, stream = name ++ newline :: b :: b' :: rest

/-- The length in the header of the first packet. -/
def Header (stream : List UInt8) (size : Nat) : Prop :=
  (∃ b rest, stream = b :: 0 :: rest ∧ size = ofLE [b, 0]) ∨
    stream[1]? ≠ some 0 ∧
      ∃ b b' rest, stream = name ++ newline :: b :: b' :: rest ∧ size = ofLE [b, b']

/-- The connection gets into the game exactly with the header of the first packet, and is closed
without it exactly when nothing can follow that makes the stream right. -/
structure Decides (received : List UInt8) (c : Connection) : Prop where
  game : ∀ size, c.header = some size ↔ Header name received size
  closed : c.header = none →
    (c.connectionState = .DISCONNECTED ↔ ∀ more, ¬ Accepts name (received ++ more))

/-! ### A text and then a header -/

inductive Outcome
  | connecting
  | game (size : Nat)
  | closed
  deriving DecidableEq

/-- A text is compared byte by byte, and a header follows. -/
def expect : List UInt8 → List UInt8 → Outcome
  | [], b :: b' :: _ => .game (ofLE [b, b'])
  | [], _ => .connecting
  | _ :: _, [] => .connecting
  | a :: text, b :: stream => if b = a then expect text stream else .closed

variable {name beyond} {text text' stream stream' : List UInt8} {size : Nat} {c : Connection}

theorem expect_append : expect (text ++ text') (text ++ stream) = expect text' stream := by
  induction text with
  | nil => rfl
  | cons a text ih => rw [List.cons_append, List.cons_append, expect, if_pos rfl, ih]

theorem expect_nil (text : List UInt8) : expect text [] = .connecting := by
  cases text with
  | nil => rfl
  | cons a text => rfl

theorem expect_game : expect text stream = .game size ↔
    ∃ b b' rest, stream = text ++ b :: b' :: rest ∧ size = ofLE [b, b'] := by
  induction text generalizing stream with
  | nil =>
      constructor
      · intro hgame
        match stream with
        | b :: b' :: rest =>
            exact ⟨b, b', rest, rfl, (Outcome.game.inj hgame).symm⟩
      · rintro ⟨b, b', rest, rfl, rfl⟩
        rfl
  | cons a text ih =>
      cases stream with
      | nil => simp [expect]
      | cons b stream =>
          rw [expect]
          split
          · next heq => simp [heq, ih]
          · next hne =>
              simp only [List.cons_append, List.cons.injEq]
              refine iff_of_false (fun hgame => by cases hgame) ?_
              rintro ⟨_, _, _, ⟨heq, -⟩, -⟩
              exact hne heq

theorem expect_closed : expect text stream = .closed ↔
    ∀ more b b' rest, stream ++ more ≠ text ++ b :: b' :: rest := by
  induction text generalizing stream with
  | nil =>
      refine iff_of_false (fun hclosed => ?_) fun hnever => ?_
      · match stream with
        | [] => cases hclosed
        | [_] => cases hclosed
        | _ :: _ :: _ => cases hclosed
      · match stream with
        | [] => exact hnever [0, 0] 0 0 [] rfl
        | [b] => exact hnever [0] b 0 [] rfl
        | b :: b' :: rest => exact hnever [] b b' rest (List.append_nil _)
  | cons a text ih =>
      cases stream with
      | nil =>
          refine iff_of_false (fun hclosed => by cases hclosed) fun hnever => ?_
          exact hnever (a :: text ++ [0, 0]) 0 0 [] rfl
      | cons b stream =>
          rw [expect]
          split
          · next heq => simp [heq, ih]
          · next hne =>
              refine iff_of_true rfl fun more b₀ b₁ rest heq => hne ?_
              exact (List.cons.inj heq).1

/-- The outcome that is required. -/
def required (name : List UInt8) : List UInt8 → Outcome
  | b :: b' :: rest => if b' = 0 then .game (ofLE [b, b'])
      else expect (name ++ [newline]) (b :: b' :: rest)
  | _ => .connecting

def Connection.outcome (c : Connection) : Outcome :=
  match c.header with
  | some size => .game size
  | none => if c.connectionState = .DISCONNECTED then .closed else .connecting

theorem required_game : required name stream = .game size ↔ Header name stream size := by
  match stream with
  | [] =>
      refine iff_of_false (fun hgame => by cases hgame) ?_
      rintro (⟨b, rest, heq, -⟩ | ⟨-, b, b', rest, heq, -⟩)
      · cases heq
      · exact absurd heq.symm (by simp)
  | [b₀] =>
      refine iff_of_false (fun hgame => by cases hgame) ?_
      rintro (⟨b, rest, heq, -⟩ | ⟨-, b, b', rest, heq, -⟩)
      · cases heq
      · have hlength := congrArg List.length heq
        simp only [List.length_append, List.length_cons, List.length_nil] at hlength
        omega
  | b₀ :: b₁ :: rest₀ =>
      rw [required, Header]
      split
      · next hzero =>
          rw [hzero]
          constructor
          · intro hgame
            exact .inl ⟨b₀, rest₀, rfl, (Outcome.game.inj hgame).symm⟩
          · rintro (⟨b, rest, heq, hsize⟩ | ⟨hnonzero, -⟩)
            · obtain ⟨rfl, -⟩ := List.cons.inj heq
              exact congrArg Outcome.game hsize.symm
            · exact absurd rfl hnonzero
      · next hnonzero =>
          rw [expect_game]
          constructor
          · rintro ⟨b, b', rest, heq, hsize⟩
            refine .inr ⟨fun hzero => hnonzero (Option.some.inj hzero), b, b', rest, ?_, hsize⟩
            rw [heq, List.append_assoc]
            rfl
          · rintro (⟨b, rest, heq, -⟩ | ⟨-, b, b', rest, heq, hsize⟩)
            · exact absurd (List.cons.inj (List.cons.inj heq).2).1 hnonzero
            · refine ⟨b, b', rest, ?_, hsize⟩
              rw [heq, List.append_assoc]
              rfl

theorem required_closed :
    required name stream = .closed ↔ ∀ more, ¬ Accepts name (stream ++ more) := by
  match stream with
  | [] =>
      exact iff_of_false (fun hclosed => by cases hclosed)
        fun hnever => hnever [0, 0] (.inl ⟨0, [], rfl⟩)
  | [b] =>
      exact iff_of_false (fun hclosed => by cases hclosed)
        fun hnever => hnever [0] (.inl ⟨b, [], rfl⟩)
  | b₀ :: b₁ :: rest₀ =>
      rw [required]
      split
      · next hzero =>
          refine iff_of_false (fun hclosed => by cases hclosed) fun hnever => ?_
          exact hnever [] (.inl ⟨b₀, rest₀, by rw [hzero, List.append_nil]⟩)
      · next hnonzero =>
          rw [expect_closed]
          constructor
          · rintro hnever more (⟨b, rest, heq⟩ | ⟨b, b', rest, heq⟩)
            · exact hnonzero (List.cons.inj (List.cons.inj heq).2).1
            · refine hnever more b b' rest ?_
              rw [heq, List.append_assoc]
              rfl
          · intro hnever more b b' rest heq
            refine hnever more (.inr ⟨b, b', rest, ?_⟩)
            rw [heq, List.append_assoc]
            rfl

theorem outcome_game : c.outcome = .game size ↔ c.header = some size := by
  rw [Connection.outcome]
  cases c.header with
  | some size' => simp
  | none =>
      refine iff_of_false (fun hgame => ?_) (fun hnone => by cases hnone)
      dsimp only at hgame
      split at hgame
      · cases hgame
      · cases hgame

theorem outcome_closed : c.outcome = .closed ↔
    c.header = none ∧ c.connectionState = .DISCONNECTED := by
  rw [Connection.outcome]
  cases c.header with
  | some size => simp
  | none => simp

theorem decides_iff : Decides name stream c ↔ c.outcome = required name stream := by
  constructor
  · intro h
    cases hheader : c.header with
    | some size =>
        rw [outcome_game.2 hheader, required_game.2 ((h.game size).1 hheader)]
    | none =>
        have hgame : ∀ size, required name stream ≠ .game size := by
          intro size heq
          rw [(h.game size).2 (required_game.1 heq)] at hheader
          cases hheader
        have hclosed := (h.closed hheader).trans required_closed.symm
        rw [Connection.outcome, hheader]
        dsimp only
        split
        · next hdisconnected => exact (hclosed.1 hdisconnected).symm
        · next hconnected =>
            cases hrequired : required name stream with
            | connecting => rfl
            | game size => exact absurd hrequired (hgame size)
            | closed => exact absurd (hclosed.2 hrequired) hconnected
  · intro heq
    refine ⟨fun size => ?_, fun hheader => ?_⟩
    · rw [← outcome_game, heq, required_game]
    · rw [← required_closed, ← heq, outcome_closed]
      exact (and_iff_right hheader).symm

/-! ### What the connection does -/

theorem outcome_enterGame : c.enterGame.outcome = .game (ofLE [c.buffer.1, c.buffer.2]) := by
  apply outcome_game.2
  rw [Connection.enterGame]
  split
  · rfl
  · rfl

theorem enterGame_state : c.enterGame.connectionState ≠ .CONNECTING_STAGE2 := by
  rw [Connection.enterGame]
  split
  · exact fun heq => by cases heq
  · exact fun heq => by cases heq

/-- Once the handshake is over the rest is for others to read. -/
theorem receive_over (hover : c.connectionState ≠ .CONNECTING_STAGE2) :
    c.receive name beyond stream = c := by
  cases stream with
  | nil => rfl
  | cons b rest =>
      rw [Connection.receive.eq_def]
      simp only [if_pos hover]

theorem receive_byte (hstate : c.connectionState = .CONNECTING_STAGE2) (hread : c.toRead = 1)
    (b : UInt8) (rest : List UInt8) : c.receive name beyond (b :: rest) =
      ({ c with buffer := (b, c.buffer.2) }.parseHeader name beyond).receive name beyond rest := by
  rw [Connection.receive.eq_def]
  simp only [if_neg (not_not.2 hstate), if_pos hread]

theorem receive_pair (hstate : c.connectionState = .CONNECTING_STAGE2) (hread : c.toRead ≠ 1)
    (b b' : UInt8) (rest : List UInt8) : c.receive name beyond (b :: b' :: rest) =
      ({ c with buffer := (b, b') }.parseHeader name beyond).receive name beyond rest := by
  rw [Connection.receive.eq_def]
  simp only [if_neg (not_not.2 hstate), if_neg hread]

theorem receive_half (hread : c.toRead ≠ 1) (b : UInt8) : c.receive name beyond [b] = c := by
  rw [Connection.receive.eq_def]
  simp only [if_neg hread, ite_self]

theorem outcome_connecting (hstate : c.connectionState = .CONNECTING_STAGE2)
    (hheader : c.header = none) : c.outcome = .connecting := by
  simp only [Connection.outcome, hheader, hstate]
  exact if_neg fun heq => by cases heq

/-- After the newline the connection waits for a header. -/
structure Connection.Named (c : Connection) : Prop where
  connectionState : c.connectionState = .CONNECTING_STAGE2
  receivedLastChar : c.receivedLastChar = true
  header : c.header = none

/-- In the name, up to this place, the connection reads byte by byte. -/
structure Connection.Naming (c : Connection) (i : Nat) : Prop where
  connectionState : c.connectionState = .CONNECTING_STAGE2
  receivedName : c.receivedName = true
  receivedLastChar : c.receivedLastChar = false
  serverNameTime : c.serverNameTime = i
  header : c.header = none

theorem Connection.Named.receive (h : c.Named) :
    (c.receive name beyond stream).outcome = expect [] stream := by
  have hread : c.toRead ≠ 1 := by
    simp only [Connection.toRead, h.receivedLastChar, Bool.not_true, Bool.false_and,
      Bool.false_eq_true, if_false]
    exact fun heq => by cases heq
  match stream with
  | [] => exact outcome_connecting h.connectionState h.header
  | [b] =>
      rw [receive_half hread]
      exact outcome_connecting h.connectionState h.header
  | b :: b' :: rest =>
      rw [receive_pair h.connectionState hread, Connection.parseHeader]
      simp only [h.receivedLastChar, Bool.not_true, Bool.false_eq_true, if_false]
      rw [receive_over enterGame_state, outcome_enterGame]
      rfl

/-- The next byte of the name: it is the right one, and perhaps the end, or the connection is
closed. -/
theorem Connection.Naming.receive_cons {i : Nat} (h : c.Naming i) (name : List UInt8)
    (beyond : Nat → UInt8) (b : UInt8) (rest : List UInt8) : ∃ c' : Connection,
      c.receive name beyond (b :: rest) = c'.receive name beyond rest ∧
      if b = serverName name beyond (i + 1) then
        if b = newline then c'.Named else c'.Naming (i + 1)
      else c'.outcome = .closed ∧ c'.connectionState ≠ .CONNECTING_STAGE2 := by
  have hread : c.toRead = 1 := by
    simp only [Connection.toRead, h.receivedLastChar, h.receivedName, Bool.not_false,
      Bool.and_self, if_true]
  refine ⟨_, receive_byte h.connectionState hread b rest, ?_⟩
  simp only [Connection.parseHeader, h.receivedLastChar, h.receivedName, h.serverNameTime,
    Bool.not_false, Bool.not_true, Bool.false_and, if_true, Bool.false_eq_true, if_false]
  split
  · split
    · exact ⟨h.connectionState, rfl, h.header⟩
    · exact ⟨h.connectionState, rfl, rfl, rfl, h.header⟩
  · exact ⟨outcome_closed.2 ⟨h.header, rfl⟩, fun heq => by cases heq⟩

theorem Connection.Naming.outcome {i : Nat} (h : c.Naming i) : c.outcome = .connecting :=
  outcome_connecting h.connectionState h.header

/-- The rest of the name is expected up to its first newline. -/
theorem Connection.Naming.receive {i : Nat} (h : c.Naming i) (text : List UInt8)
    (hnewline : newline ∉ text) (hname : ∀ j a, (text ++ [newline])[j]? = some a →
      serverName name beyond (i + 1 + j) = a) (stream : List UInt8) :
    (c.receive name beyond stream).outcome = expect (text ++ [newline]) stream := by
  induction text generalizing c i stream with
  | nil =>
      cases stream with
      | nil => exact h.outcome
      | cons b rest =>
          obtain ⟨c', heq, hnext⟩ := h.receive_cons name beyond b rest
          have hchar : serverName name beyond (i + 1) = newline := hname 0 newline rfl
          rw [hchar] at hnext
          rw [heq, List.nil_append, expect]
          split
          · next hb =>
              rw [if_pos hb, if_pos hb] at hnext
              exact hnext.receive
          · next hb =>
              rw [if_neg hb] at hnext
              rw [receive_over hnext.2, hnext.1]
  | cons a text ih =>
      cases stream with
      | nil => exact h.outcome
      | cons b rest =>
          obtain ⟨c', heq, hnext⟩ := h.receive_cons name beyond b rest
          have hchar : serverName name beyond (i + 1) = a := hname 0 a rfl
          rw [hchar] at hnext
          rw [heq, List.cons_append, expect]
          split
          · next hb =>
              have hother : b ≠ newline := by
                rw [hb]
                exact fun heq => hnewline (heq ▸ List.mem_cons_self)
              rw [if_pos hb, if_neg hother] at hnext
              refine ih hnext (fun hmem => hnewline (List.mem_cons_of_mem a hmem))
                (fun j a' hj => ?_) rest
              have hlater := hname (j + 1) a' hj
              rwa [← Nat.add_assoc, Nat.add_right_comm (i + 1) j 1] at hlater
          · next hb =>
              rw [if_neg hb] at hnext
              rw [receive_over hnext.2, hnext.1]

theorem serverName_eq {i : Nat} {a : UInt8} (h : (name ++ [newline])[i]? = some a) :
    serverName name beyond i = a := by
  rw [serverName, h, Option.getD_some]

/-- The first two bytes: a header, or the beginning of the name, or neither. -/
theorem receive_start (name : List UInt8) (beyond : Nat → UInt8) (b b' : UInt8)
    (rest : List UInt8) : ∃ c : Connection,
    ({} : Connection).receive name beyond (b :: b' :: rest) = c.receive name beyond rest ∧
    if b' = 0 then c.outcome = .game (ofLE [b, b']) ∧ c.connectionState ≠ .CONNECTING_STAGE2
    else if b = serverName name beyond 0 ∧ b' = serverName name beyond 1 then c.Naming 1
    else c.outcome = .closed ∧ c.connectionState ≠ .CONNECTING_STAGE2 := by
  refine ⟨_, receive_pair rfl (by decide) b b' rest, ?_⟩
  simp only [Connection.parseHeader, Bool.not_false, Bool.true_and, if_true, beq_iff_eq]
  split
  · exact ⟨outcome_enterGame, enterGame_state⟩
  · split
    · exact ⟨rfl, rfl, rfl, rfl, rfl⟩
    · exact ⟨rfl, fun heq => by cases heq⟩

/-- The connection takes the first newline behind the second byte for the end of the name. -/
theorem receive_outcome {pre post : List UInt8} (hname : name ++ [newline] = pre ++ newline :: post)
    (hlength : 2 ≤ pre.length) (hnewline : newline ∉ pre.drop 2) (stream : List UInt8) :
    (({} : Connection).receive name beyond stream).outcome = required pre stream := by
  match stream, pre, hlength with
  | [], _, _ => rfl
  | [b], _, _ =>
      rw [receive_half (by decide)]
      rfl
  | b :: b' :: rest, p₀ :: p₁ :: pre, _ =>
      obtain ⟨c, heq, hstart⟩ := receive_start name beyond b b' rest
      have h₀ : serverName name beyond 0 = p₀ := serverName_eq (by rw [hname]; rfl)
      have h₁ : serverName name beyond 1 = p₁ := serverName_eq (by rw [hname]; rfl)
      rw [h₀, h₁] at hstart
      rw [heq, required]
      split
      · next hzero =>
          rw [if_pos hzero] at hstart
          rw [receive_over hstart.2, hstart.1]
      · next hnonzero =>
          rw [if_neg hnonzero] at hstart
          simp only [List.cons_append, expect]
          by_cases hname' : b = p₀ ∧ b' = p₁
          · rw [if_pos hname'] at hstart
            rw [if_pos hname'.1, if_pos hname'.2]
            refine hstart.receive pre hnewline (fun j a hj => serverName_eq ?_) rest
            rw [hname, Nat.add_comm, List.append_cons, List.getElem?_append_left]
            · exact hj
            · have hj' := (List.getElem?_eq_some_iff.1 hj).1
              simp only [List.length_append, List.length_cons] at hj' ⊢
              omega
          · rw [if_neg hname'] at hstart
            rw [receive_over hstart.2, hstart.1]
            split
            · next hb => rw [if_neg fun hb' => hname' ⟨hb, hb'⟩]
            · rfl

/-! ### The names that are misread -/

/-- The name is a single byte: its newline is read with it, and a zero is expected. -/
def Short (name stream : List UInt8) : Prop :=
  name.length = 1 ∧ ∃ c rest, stream = name ++ newline :: c :: rest ∧ (c ≠ 0 ∨ rest ≠ [])

/-- The name has a newline behind its second byte, and what follows there in the stream is taken for
the header. -/
def Broken (name stream : List UInt8) : Prop :=
  name[1]? ≠ some 0 ∧ ∃ pre post c rest, name = pre ++ newline :: post ∧ 2 ≤ pre.length ∧
    newline ∉ pre.drop 2 ∧ stream = pre ++ newline :: c :: rest ∧
    ((post ++ [newline]).head? ≠ some c ∨ rest ≠ [])

theorem expect_of_not_heard (h : ¬ text <+: stream) (text' : List UInt8) :
    expect (text ++ text') stream = expect text stream := by
  induction text generalizing stream with
  | nil => exact absurd List.nil_prefix h
  | cons a text ih =>
      cases stream with
      | nil => rfl
      | cons b stream =>
          rw [List.cons_append, expect, expect]
          split
          · next heq => exact ih fun hstart' => h (List.cons_prefix_cons.2 ⟨heq.symm, hstart'⟩)
          · rfl

theorem expect_short_ne (a c d : UInt8) (size : Nat) :
    expect (a :: text) [c, d] ≠ .game size := by
  intro hgame
  obtain ⟨b, b', rest, heq, -⟩ := expect_game.1 hgame
  have hlength := congrArg List.length heq
  simp only [List.length_append, List.length_cons, List.length_nil] at hlength
  omega

theorem required_append {pre post : List UInt8} (hlength : 2 ≤ pre.length)
    (hnonzero : pre[1]? ≠ some 0) (hname : name ++ [newline] = pre ++ newline :: post)
    (stream : List UInt8) : required name (pre ++ newline :: stream) = expect post stream := by
  match pre, hlength with
  | p₀ :: p₁ :: pre, _ =>
      have hne : p₁ ≠ 0 := fun hzero => hnonzero (congrArg some hzero)
      rw [List.cons_append, List.cons_append, required, if_neg hne, hname,
        ← List.cons_append, ← List.cons_append, List.append_cons, List.append_cons _ _ stream]
      exact expect_append

/-- Both readings of the name agree up to the newline in it. -/
theorem required_of_not_heard {pre post : List UInt8} (hname : name = pre ++ newline :: post)
    (h : ¬ pre ++ [newline] <+: stream) : required name stream = required pre stream := by
  match stream with
  | [] => rfl
  | [_] => rfl
  | b :: b' :: rest =>
      have htext : name ++ [newline] = (pre ++ [newline]) ++ (post ++ [newline]) := by
        simp [hname]
      rw [required, required, htext, expect_of_not_heard h]

/-- A stream that goes on behind the newline in the name shows the difference. -/
theorem not_decides_of_broken (beyond : Nat → UInt8) (h : Broken name stream) :
    ∃ received, received <+: stream ∧
    ¬ Decides name received (({} : Connection).receive name beyond received) := by
  obtain ⟨hnonzero, pre, post, c, rest, rfl, hlength, hnewline, rfl, hbad⟩ := h
  have hname : (pre ++ newline :: post) ++ [newline] = pre ++ newline :: (post ++ [newline]) := by
    simp
  have hnonzero' : pre[1]? ≠ some 0 := by
    rwa [List.getElem?_append_left (by omega)] at hnonzero
  have hsome : post ++ [newline] ≠ [] := List.append_ne_nil_of_right_ne_nil post (by simp)
  obtain ⟨a, post', hpost⟩ := List.exists_cons_of_ne_nil hsome
  have hoff : ∀ behind, Decides (pre ++ newline :: post) (pre ++ newline :: behind)
      (({} : Connection).receive (pre ++ newline :: post) beyond (pre ++ newline :: behind)) →
      expect [] behind = expect (a :: post') behind := by
    intro behind hdecides
    have heq := decides_iff.1 hdecides
    rw [receive_outcome hname hlength hnewline, required_append hlength hnonzero' rfl,
      required_append hlength hnonzero' hname, hpost] at heq
    exact heq
  by_cases hrest : rest = []
  · -- the byte itself is not that of the name
    have hother : a ≠ c := by
      rcases hbad with hhead | hsome
      · intro heq
        rw [hpost, heq] at hhead
        exact hhead rfl
      · exact absurd hrest hsome
    refine ⟨pre ++ newline :: [c], ⟨rest, by simp⟩, fun hdecides => ?_⟩
    have heq : Outcome.connecting = .closed := (hoff [c] hdecides).trans (if_neg hother.symm)
    cases heq
  · obtain ⟨d, rest', rfl⟩ := List.exists_cons_of_ne_nil hrest
    refine ⟨pre ++ newline :: [c, d], ⟨rest', by simp⟩, fun hdecides => ?_⟩
    exact expect_short_ne a c d _ (hoff [c, d] hdecides).symm

theorem serverName_two (a : UInt8) : serverName [a] beyond 2 = 0 := rfl

theorem not_decides_of_short (beyond : Nat → UInt8) (h : Short name stream) :
    ∃ received, received <+: stream ∧
    ¬ Decides name received (({} : Connection).receive name beyond received) := by
  obtain ⟨hlength, c, rest, rfl, hbad⟩ := h
  obtain ⟨a, rfl⟩ := List.length_eq_one_iff.1 hlength
  have hstart : ∀ behind, ∃ c' : Connection, c'.Naming 1 ∧
      ({} : Connection).receive [a] beyond ([a] ++ newline :: behind) =
        c'.receive [a] beyond behind := by
    intro behind
    obtain ⟨c', heq, hnext⟩ := receive_start [a] beyond a newline behind
    rw [if_neg (by decide), if_pos ⟨rfl, rfl⟩] at hnext
    exact ⟨c', hnext, heq⟩
  have hrequired : ∀ behind, required [a] ([a] ++ newline :: behind) = expect [] behind := by
    intro behind
    rw [List.cons_append, List.nil_append, required, if_neg (by decide)]
    exact (expect_append : expect ([a, newline] ++ []) ([a, newline] ++ behind) = expect [] behind)
  by_cases hzero : c = 0
  · -- the zero is taken, and the byte behind it is compared with what is in the memory
    obtain ⟨d, rest', rfl⟩ := List.exists_cons_of_ne_nil (hbad.resolve_left (not_not.2 hzero))
    refine ⟨[a] ++ newline :: [c, d], ⟨rest', by simp⟩, fun hdecides => ?_⟩
    obtain ⟨c', hnaming, heq⟩ := hstart [c, d]
    obtain ⟨c₁, heq₁, hnext₁⟩ := hnaming.receive_cons [a] beyond c [d]
    rw [if_pos (hzero.trans (serverName_two a).symm), if_neg (by rw [hzero]; decide)] at hnext₁
    obtain ⟨c₂, heq₂, hnext₂⟩ := hnext₁.receive_cons [a] beyond d []
    have houtcome := decides_iff.1 hdecides
    rw [hrequired, heq, heq₁, heq₂] at houtcome
    have hgame : c₂.header = some (ofLE [c, d]) := outcome_game.1 houtcome
    split at hnext₂
    · split at hnext₂
      · rw [hnext₂.header] at hgame
        cases hgame
      · rw [hnext₂.header] at hgame
        cases hgame
    · rw [(outcome_closed.1 hnext₂.1).1] at hgame
      cases hgame
  · refine ⟨[a] ++ newline :: [c], ⟨rest, by simp⟩, fun hdecides => ?_⟩
    obtain ⟨c', hnaming, heq⟩ := hstart [c]
    obtain ⟨c₁, heq₁, hnext₁⟩ := hnaming.receive_cons [a] beyond c []
    rw [serverName_two, if_neg hzero] at hnext₁
    have houtcome := decides_iff.1 hdecides
    rw [hrequired, heq, heq₁] at houtcome
    have hclosed : c₁.outcome = .connecting := houtcome
    rw [hnext₁.1] at hclosed
    cases hclosed

theorem decides_of_not_short (a : UInt8) {received : List UInt8} (h : ¬ Short [a] stream)
    (hstart' : received <+: stream) :
    Decides [a] received (({} : Connection).receive [a] beyond received) := by
  rw [decides_iff]
  match received with
  | [] => rfl
  | [b] =>
      rw [receive_half (by decide)]
      rfl
  | b :: b' :: rest =>
      obtain ⟨c, heq, hstart⟩ := receive_start [a] beyond b b' rest
      have h₀ : serverName [a] beyond 0 = a := rfl
      have h₁ : serverName [a] beyond 1 = newline := rfl
      rw [h₀, h₁] at hstart
      rw [heq, required]
      split
      · next hzero =>
          rw [if_pos hzero] at hstart
          rw [receive_over hstart.2, hstart.1]
      · next hnonzero =>
          rw [if_neg hnonzero] at hstart
          simp only [List.cons_append, List.nil_append, expect]
          by_cases hname' : b = a ∧ b' = newline
          · obtain ⟨rfl, rfl⟩ := hname'
            rw [if_pos ⟨rfl, rfl⟩] at hstart
            rw [if_pos rfl, if_pos rfl]
            cases rest with
            | nil => exact hstart.outcome
            | cons d rest =>
                obtain ⟨more, hmore⟩ := hstart'
                have hlater : d = 0 ∧ rest ++ more = [] := by
                  by_contra hbad
                  exact h ⟨rfl, d, rest ++ more, hmore.symm, Decidable.not_and_iff_or_not.1 hbad⟩
                obtain ⟨rfl, hnil⟩ := hlater
                obtain ⟨rfl, -⟩ := List.append_eq_nil_iff.1 hnil
                obtain ⟨c', heq', hnext⟩ :=
                  hstart.receive_cons [b] beyond 0 []
                rw [serverName_two, if_pos rfl, if_neg (by decide)] at hnext
                rw [heq']
                exact hnext.outcome
          · rw [if_neg hname'] at hstart
            rw [receive_over hstart.2, hstart.1]
            split
            · next hb => rw [if_neg fun hb' => hname' ⟨hb, hb'⟩]
            · rfl

theorem decides_of_not_broken (hlength : 2 ≤ name.length) {received : List UInt8}
    (h : ¬ Broken name stream) (hstart' : received <+: stream) :
    Decides name received (({} : Connection).receive name beyond received) := by
  rw [decides_iff]
  by_cases hnewline : newline ∈ name.drop 2
  · obtain ⟨front, post, hdrop, hfront⟩ := List.eq_append_cons_of_mem hnewline
    have hsplit : name = (name.take 2 ++ front) ++ newline :: post := by
      rw [List.append_assoc, ← hdrop, List.take_append_drop]
    generalize hpre : name.take 2 ++ front = pre at hsplit
    have htake : (name.take 2).length = 2 := by
      rw [List.length_take]
      omega
    have hpre2 : 2 ≤ pre.length := by
      rw [← hpre, List.length_append]
      omega
    have hbehind : newline ∉ pre.drop 2 := by
      rw [← hpre, List.drop_append_of_le_length (by omega), List.drop_of_length_le (by omega)]
      exact hfront
    have hname : name ++ [newline] = pre ++ newline :: (post ++ [newline]) := by
      rw [hsplit]
      simp
    rw [receive_outcome hname hpre2 hbehind]
    by_cases hheard : pre ++ [newline] <+: received
    · obtain ⟨behind, rfl⟩ := hheard
      rw [← List.append_cons]
      obtain ⟨more, rfl⟩ := hstart'
      by_cases hzero : pre[1]? = some 0
      · match pre, hpre2 with
        | p₀ :: p₁ :: pre, _ =>
            obtain rfl : p₁ = 0 := Option.some.inj hzero
            rfl
      · rw [required_append hpre2 hzero rfl, required_append hpre2 hzero hname]
        cases behind with
        | nil => rw [expect_nil, expect_nil]
        | cons c rest =>
            have hnonzero : name[1]? ≠ some 0 := by
              rwa [hsplit, List.getElem?_append_left (by omega)]
            have hgood : (post ++ [newline]).head? = some c ∧ rest ++ more = [] := by
              by_contra hbad
              refine h ⟨hnonzero, pre, post, c, rest ++ more, hsplit, hpre2, hbehind, by simp,
                Decidable.not_and_iff_or_not.1 hbad⟩
            obtain ⟨rfl, -⟩ := List.append_eq_nil_iff.1 hgood.2
            obtain ⟨post', hpost⟩ := List.head?_eq_some_iff.1 hgood.1
            rw [hpost]
            exact ((if_pos rfl).trans (expect_nil post')).symm
    · exact (required_of_not_heard hsplit hheard).symm
  · exact receive_outcome rfl hlength hnewline received

/-- For a name of at least one byte, all that is received of a stream is decided rightly if and only
if the stream does not go on where the name is misread. -/
theorem handshake_iff (hname : name ≠ []) (stream : List UInt8) :
    (∀ received, received <+: stream →
      Decides name received (({} : Connection).receive name beyond received)) ↔
    ¬ Short name stream ∧ ¬ Broken name stream := by
  constructor
  · intro hall
    refine ⟨fun hshort => ?_, fun hbroken => ?_⟩
    · obtain ⟨received, hstart', hnot⟩ := not_decides_of_short beyond hshort
      exact hnot (hall received hstart')
    · obtain ⟨received, hstart', hnot⟩ := not_decides_of_broken beyond hbroken
      exact hnot (hall received hstart')
  · rintro ⟨hshort, hbroken⟩ received hstart'
    match name, hname with
    | [a], _ => exact decides_of_not_short a hshort hstart'
    | a :: b :: name, _ => exact decides_of_not_broken (by simp) hbroken hstart'

namespace Sample

/-- The name of the server is `T`. -/
def short : List UInt8 := [84]

/-- The client sends the name and the header of a packet of five bytes. -/
def login : List UInt8 := [84, 10, 5, 0]

theorem login_iff : (∀ received, received <+: login →
    Decides short received (({} : Connection).receive short (fun _ => 0) received)) ↔
    ¬ Short short login ∧ ¬ Broken short login :=
  handshake_iff (by decide) login

/-- It is closed although it does what is required. -/
theorem login_closed : ¬ ∀ name : List UInt8, name ≠ [] → ∀ beyond received,
    Decides name received (({} : Connection).receive name beyond received) := by
  intro hclaim
  have hgame := (hclaim short (by decide) (fun _ => 0) login).game 5
  have hheader : Header short login 5 := .inr ⟨by decide, 5, 0, [], rfl, rfl⟩
  exact absurd (hgame.2 hheader) (by decide)

end Sample

end TibServer.Handshake
