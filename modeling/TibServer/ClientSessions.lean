import Mathlib.Data.List.Basic
import TibServer.Runs

/-!
Who controls a player (`protocolgame.cpp`). A login makes a new player or takes over one that is
online, at once or after its old connection had a second to go; connections end at any time. The
tasks of all connections run one after the other in any order.
-/

namespace TibServer.ClientSessions

abbrev ProtocolId := ℕ

abbrev PlayerId := ℕ

/-- What the database says of the one who logs in. -/
structure Character where
  name : List Char
  account : ℕ
  /-- `getAccountType() >= ACCOUNT_TYPE_GAMEMASTER` -/
  gamemaster : Bool

structure Player where
  character : Character
  client : Option ProtocolId := none
  /-- It was on the map. -/
  placed : Bool := false
  isInternalRemoved : Bool := false
  isConnecting : Bool := false

structure Protocol where
  /-- Its first message was handled. -/
  receivedFirst : Bool := false
  player : Option PlayerId := none
  /-- The player that the pending `connect` is for. -/
  eventConnect : Option PlayerId := none
  acceptPackets : Bool := false
  /-- The connection object is gone. -/
  connectionExpired : Bool := false

structure Config where
  ALLOW_CLONES : Bool
  ONE_PLAYER_ON_ACCOUNT : Bool
  REPLACE_KICK_ON_LOGIN : Bool

def asLowerCaseString (source : List Char) : List Char := source.map Char.toLower

structure Game where
  protocols : ProtocolId → Protocol
  memory : PlayerId → Player
  /-- `playerAutoID` -/
  playerAutoID : ℕ
  /-- The keys of `players`. -/
  players : List PlayerId
  mappedPlayerNames : List Char → Option PlayerId

namespace Game

def setProtocol (g : Game) (p : ProtocolId) (proto : Protocol) : Game :=
  { g with protocols := Function.update g.protocols p proto }

def setPlayer (g : Game) (x : PlayerId) (player : Player) : Game :=
  { g with memory := Function.update g.memory x player }

def getPlayerByName (g : Game) (name : List Char) : Option PlayerId :=
  if name = [] then none else g.mappedPlayerNames (asLowerCaseString name)

def getPlayerByID (g : Game) (id : PlayerId) : Option PlayerId := g.players.find? (· == id)

def getPlayerByAccount (g : Game) (account : ℕ) : Option PlayerId :=
  g.players.find? fun x => (g.memory x).character.account == account

def addPlayer (g : Game) (x : PlayerId) : Game :=
  { g with
    mappedPlayerNames := Function.update g.mappedPlayerNames
      (asLowerCaseString (g.memory x).character.name) (some x)
    players := g.players ++ [x] }

def removePlayer (g : Game) (x : PlayerId) : Game :=
  { g with
    mappedPlayerNames := Function.update g.mappedPlayerNames
      (asLowerCaseString (g.memory x).character.name) none
    players := g.players.erase x }

/-- `Game::placeCreature`, on a tile that takes it. -/
def placeCreature (g : Game) (x : PlayerId) : Game :=
  (g.setPlayer x { g.memory x with placed := true }).addPlayer x

/-- `Game::removeCreature` -/
def removeCreature (g : Game) (x : PlayerId) : Game :=
  if (g.memory x).isInternalRemoved then g
  else (g.removePlayer x).setPlayer x { g.memory x with isInternalRemoved := true }

/-- What a login comes to that is not refused at once: what is checked before the account and
after it lets it in. -/
structure Checks where
  before : Bool
  after : Bool

/-- `ProtocolGame::connect` -/
def connect (g : Game) (p : ProtocolId) (playerId : PlayerId) : Game :=
  let g := g.setProtocol p { g.protocols p with eventConnect := none }
  match g.getPlayerByID playerId with
  | none => g
  | some x =>
      if (g.memory x).client.isSome then g
      else if (g.protocols p).connectionExpired then g
      else
        let g := g.setPlayer x { g.memory x with client := some p, isConnecting := false }
        g.setProtocol p { g.protocols p with player := some x, acceptPackets := true }

/-- `ProtocolGame::login`, without the messages. The new player has its client from the start,
also where the login is refused later. -/
def login (config : Config) (g : Game) (p : ProtocolId) (character : Character)
    (checks : Checks) : Game :=
  let g := g.setProtocol p { g.protocols p with receivedFirst := true }
  match g.getPlayerByName character.name, config.ALLOW_CLONES with
  | some x, false =>
      if (g.protocols p).eventConnect.isSome || !config.REPLACE_KICK_ON_LOGIN then g
      else if (g.memory x).client.isSome then
        let g := g.setPlayer x { g.memory x with isConnecting := true }
        g.setProtocol p { g.protocols p with eventConnect := some x }
      else g.connect p x
  | _, _ =>
      let x := g.playerAutoID
      let g := { g with playerAutoID := x + 1 }
      let g := g.setPlayer x { character := character, client := some p }
      let g := g.setProtocol p { g.protocols p with player := some x }
      if !checks.before then g
      else if config.ONE_PLAYER_ON_ACCOUNT && !character.gamemaster &&
          (g.getPlayerByAccount character.account).isSome then g
      else if !checks.after then g
      else
        let g := g.placeCreature x
        g.setProtocol p { g.protocols p with acceptPackets := true }

/-- `ProtocolGame::logout`; `allowed` where the tile, the fight and the scripts let it. -/
def logout (g : Game) (p : ProtocolId) (allowed : Bool) : Game :=
  match (g.protocols p).player with
  | none => g
  | some x => if !(g.memory x).isInternalRemoved && !allowed then g else g.removeCreature x

/-- `ProtocolGame::release`; `safe` in a protection zone or out of a fight. -/
def release (g : Game) (p : ProtocolId) (safe : Bool) : Game :=
  match (g.protocols p).player with
  | none => g
  | some x =>
      if (g.memory x).client = some p then
        let g := if (g.memory x).placed && safe then g.logout p true else g
        let g := g.setPlayer x { g.memory x with client := none }
        g.setProtocol p { g.protocols p with player := none }
      else g

end Game

/-- The tasks, and what the network does. -/
inductive Event where
  | login (p : ProtocolId) (character : Character) (checks : Game.Checks)
  /-- The second is over. -/
  | connect (p : ProtocolId)
  | logout (p : ProtocolId) (allowed : Bool)
  /-- A player is kicked, or dies. -/
  | removeCreature (x : PlayerId)
  | release (p : ProtocolId) (safe : Bool)
  | expire (p : ProtocolId)

/-- A connection handles one first message, and others once it was let in; the scheduler runs what
was scheduled, and only who is online is removed. -/
def step (config : Config) (g : Game) : Event → Option Game
  | .login p character checks =>
      if (g.protocols p).receivedFirst || character.name.isEmpty then none
      else some (g.login config p character checks)
  | .connect p => (g.protocols p).eventConnect.map fun x => g.connect p x
  | .logout p allowed => if (g.protocols p).acceptPackets then some (g.logout p allowed) else none
  | .removeCreature x => if x ∈ g.players then some (g.removeCreature x) else none
  | .release p safe => some (g.release p safe)
  | .expire p => some (g.setProtocol p { g.protocols p with connectionExpired := true })

/-- Nobody has logged in yet. -/
def opened : Game where
  protocols := fun _ => {}
  memory := fun _ => { character := ⟨[], 0, false⟩ }
  playerAutoID := 0
  players := []
  mappedPlayerNames := fun _ => none

/-! ### Small facts -/

/-- What an update does not change of the entry it is made at, it changes nowhere. -/
theorem update_part {α β γ : Type} [DecidableEq α] (part : β → γ) {f : α → β} {a : α} {b : β}
    (same : part b = part (f a)) (c : α) : part (Function.update f a b c) = part (f c) := by
  by_cases eq : c = a
  · subst eq
    rw [Function.update_self, same]
  · rw [Function.update_of_ne eq]

namespace Game

variable {g : Game} {p q : ProtocolId} {x y : PlayerId}

@[simp] theorem protocols_setProtocol (proto : Protocol) :
    (g.setProtocol p proto).protocols = Function.update g.protocols p proto := rfl

@[simp] theorem memory_setProtocol (proto : Protocol) :
    (g.setProtocol p proto).memory = g.memory := rfl

@[simp] theorem protocols_setPlayer (player : Player) :
    (g.setPlayer x player).protocols = g.protocols := rfl

@[simp] theorem memory_setPlayer (player : Player) :
    (g.setPlayer x player).memory = Function.update g.memory x player := rfl

theorem of_getPlayerByID (h : g.getPlayerByID x = some y) : y = x ∧ x ∈ g.players := by
  have found := List.find?_some h
  obtain rfl := beq_iff_eq.mp found
  exact ⟨rfl, List.mem_of_find?_eq_some h⟩

theorem getPlayerByAccount_isSome {account : ℕ} (mem : y ∈ g.players)
    (same : (g.memory y).character.account = account) :
    (g.getPlayerByAccount account).isSome = true := by
  rw [getPlayerByAccount, List.find?_isSome]
  exact ⟨y, mem, beq_iff_eq.mpr same⟩

theorem placed_placeCreature : ((g.placeCreature x).memory x).placed = true := by
  have memory : (g.placeCreature x).memory =
      Function.update g.memory x { g.memory x with placed := true } := rfl
  rw [memory, Function.update_self]

theorem protocols_removeCreature : (g.removeCreature x).protocols = g.protocols := by
  unfold removeCreature
  split_ifs
  · rfl
  · rfl

theorem protocols_logout (allowed : Bool) : (g.logout p allowed).protocols = g.protocols := by
  unfold logout
  split
  · rfl
  · split_ifs
    · rfl
    · exact protocols_removeCreature

end Game

/-! ### Who controls whom -/

/-- A connection and its player name each other. -/
structure Paired (protocols : ProtocolId → Protocol) (memory : PlayerId → Player) : Prop where
  client : ∀ p x, (protocols p).player = some x → (memory x).client = some p
  player : ∀ x p, (memory x).client = some p → (protocols p).player = some x

namespace Paired

variable {protocols : ProtocolId → Protocol} {memory : PlayerId → Player} {p : ProtocolId}
  {x : PlayerId} {proto : Protocol} {player : Player}

theorem setProtocol (h : Paired protocols memory) (same : proto.player = (protocols p).player) :
    Paired (Function.update protocols p proto) memory := by
  have players := update_part Protocol.player same
  refine ⟨?_, ?_⟩
  · intro q y hq
    rw [players] at hq
    exact h.client q y hq
  · intro y q hy
    rw [players]
    exact h.player y q hy

theorem setPlayer (h : Paired protocols memory) (same : player.client = (memory x).client) :
    Paired protocols (Function.update memory x player) := by
  have clients := update_part Player.client same
  refine ⟨?_, ?_⟩
  · intro q y hq
    rw [clients]
    exact h.client q y hq
  · intro y q hy
    rw [clients] at hy
    exact h.player y q hy

/-- Two that are free come together. -/
theorem pair (h : Paired protocols memory) (free : (protocols p).player = none)
    (free' : (memory x).client = none) (names : proto.player = some x)
    (names' : player.client = some p) :
    Paired (Function.update protocols p proto) (Function.update memory x player) := by
  refine ⟨?_, ?_⟩
  · intro q y hq
    by_cases eq : q = p
    · subst eq
      rw [Function.update_self, names] at hq
      obtain rfl := Option.some.inj hq
      rw [Function.update_self, names']
    · rw [Function.update_of_ne eq] at hq
      have client := h.client q y hq
      have ne : y ≠ x := by
        rintro rfl
        rw [free'] at client
        cases client
      rw [Function.update_of_ne ne]
      exact client
  · intro y q hy
    by_cases eq : y = x
    · subst eq
      rw [Function.update_self, names'] at hy
      obtain rfl := Option.some.inj hy
      rw [Function.update_self, names]
    · rw [Function.update_of_ne eq] at hy
      have player := h.player y q hy
      have ne : q ≠ p := by
        rintro rfl
        rw [free] at player
        cases player
      rw [Function.update_of_ne ne]
      exact player

/-- A pair parts. -/
theorem part (h : Paired protocols memory) (together : (protocols p).player = some x)
    (free : proto.player = none) (free' : player.client = none) :
    Paired (Function.update protocols p proto) (Function.update memory x player) := by
  have client := h.client p x together
  refine ⟨?_, ?_⟩
  · intro q y hq
    by_cases eq : q = p
    · subst eq
      rw [Function.update_self, free] at hq
      cases hq
    · rw [Function.update_of_ne eq] at hq
      have ne : y ≠ x := by
        rintro rfl
        exact eq (Option.some.inj ((h.client q y hq).symm.trans client))
      rw [Function.update_of_ne ne]
      exact h.client q y hq
  · intro y q hy
    by_cases eq : y = x
    · subst eq
      rw [Function.update_self, free'] at hy
      cases hy
    · rw [Function.update_of_ne eq] at hy
      have ne : q ≠ p := by
        rintro rfl
        exact eq (Option.some.inj ((h.player y q hy).symm.trans together))
      rw [Function.update_of_ne ne]
      exact h.player y q hy

end Paired

/-! ### Who is online -/

/-- The maps of the players name who is on the map, each name once unless clones are allowed, and
each account once but for gamemasters where that is asked for. -/
structure Online (config : Config) (memory : PlayerId → Player) (playerAutoID : ℕ)
    (players : List PlayerId) (mappedPlayerNames : List Char → Option PlayerId) : Prop where
  mem : ∀ x, x ∈ players ↔ (memory x).placed = true ∧ (memory x).isInternalRemoved = false
  born : ∀ x, (memory x).placed = true ∨ (memory x).client.isSome = true → x < playerAutoID
  nodup : players.Nodup
  names : config.ALLOW_CLONES = false → ∀ name x, mappedPlayerNames name = some x ↔
    x ∈ players ∧ asLowerCaseString (memory x).character.name = name
  accounts : config.ONE_PLAYER_ON_ACCOUNT = true → players.Pairwise fun x y =>
    (memory x).character.account = (memory y).character.account →
      (memory x).character.gamemaster = true ∨ (memory y).character.gamemaster = true

namespace Online

variable {config : Config} {memory : PlayerId → Player} {playerAutoID : ℕ}
  {players : List PlayerId} {mappedPlayerNames : List Char → Option PlayerId}
  {x : PlayerId} {player : Player}

/-- What neither places nor removes a player changes nothing. -/
theorem update (h : Online config memory playerAutoID players mappedPlayerNames)
    (character : player.character = (memory x).character)
    (placed : player.placed = (memory x).placed)
    (removed : player.isInternalRemoved = (memory x).isInternalRemoved)
    (born : player.client.isSome = true → x < playerAutoID) :
    Online config (Function.update memory x player) playerAutoID players mappedPlayerNames := by
  have characters := update_part Player.character character
  have places := update_part Player.placed placed
  refine ⟨?_, ?_, h.nodup, ?_, ?_⟩
  · intro y
    rw [places, update_part Player.isInternalRemoved removed]
    exact h.mem y
  · intro y hy
    rw [places] at hy
    by_cases eq : y = x
    · subst eq
      rw [Function.update_self] at hy
      exact hy.elim (fun on => h.born y (Or.inl on)) born
    · rw [Function.update_of_ne eq] at hy
      exact h.born y hy
  · intro clones name y
    rw [characters]
    exact h.names clones name y
  · intro one
    simp only [characters]
    exact h.accounts one

/-- A new player, who is nowhere yet. -/
theorem create (h : Online config memory playerAutoID players mappedPlayerNames)
    (placed : player.placed = false) :
    Online config (Function.update memory playerAutoID player) (playerAutoID + 1) players
      mappedPlayerNames := by
  have older {y : PlayerId} (mem : y ∈ players) : y ≠ playerAutoID := by
    have := h.born y (Or.inl ((h.mem y).mp mem).1)
    exact this.ne
  refine ⟨?_, ?_, h.nodup, ?_, ?_⟩
  · intro y
    by_cases eq : y = playerAutoID
    · subst eq
      rw [Function.update_self, placed]
      exact iff_of_false (fun mem => older mem rfl) fun on => Bool.false_ne_true on.1
    · rw [Function.update_of_ne eq]
      exact h.mem y
  · intro y hy
    by_cases eq : y = playerAutoID
    · exact eq ▸ Nat.lt_succ_self _
    · rw [Function.update_of_ne eq] at hy
      exact (h.born y hy).trans (Nat.lt_succ_self _)
  · intro clones name y
    rw [h.names clones]
    refine and_congr_right fun mem => ?_
    rw [Function.update_of_ne (older mem)]
  · intro one
    refine (h.accounts one).imp_of_mem fun {y z} hy hz apart => ?_
    rw [Function.update_of_ne (older hy), Function.update_of_ne (older hz)]
    exact apart

theorem placeCreature (h : Online config memory playerAutoID players mappedPlayerNames)
    (off : (memory x).placed = false) (on : (memory x).isInternalRemoved = false)
    (born : x < playerAutoID)
    (name : config.ALLOW_CLONES = false →
      mappedPlayerNames (asLowerCaseString (memory x).character.name) = none)
    (account : config.ONE_PLAYER_ON_ACCOUNT = true → (memory x).character.gamemaster = false →
      ∀ y ∈ players, (memory y).character.account ≠ (memory x).character.account) :
    Online config (Function.update memory x { memory x with placed := true }) playerAutoID
      (players ++ [x])
      (Function.update mappedPlayerNames (asLowerCaseString (memory x).character.name)
        (some x)) := by
  have absent : x ∉ players := by
    rw [h.mem, off]
    exact fun on => Bool.false_ne_true on.1
  have character (y : PlayerId) :
      (Function.update memory x { memory x with placed := true } y).character =
        (memory y).character := by
    apply update_part Player.character
    rfl
  refine ⟨?_, ?_, ?_, ?_, ?_⟩
  · intro y
    rw [List.mem_append, List.mem_singleton]
    by_cases eq : y = x
    · subst eq
      rw [Function.update_self]
      exact iff_of_true (Or.inr rfl) ⟨rfl, on⟩
    · rw [Function.update_of_ne eq, h.mem]
      exact or_iff_left eq
  · intro y hy
    by_cases eq : y = x
    · exact eq ▸ born
    · rw [Function.update_of_ne eq] at hy
      exact h.born y hy
  · rw [List.nodup_append]
    refine ⟨h.nodup, List.nodup_singleton x, ?_⟩
    intro y hy z hz
    rw [List.mem_singleton.mp hz]
    rintro rfl
    exact absent hy
  · intro clones n y
    rw [character, List.mem_append, List.mem_singleton]
    by_cases eq : n = asLowerCaseString (memory x).character.name
    · subst eq
      rw [Function.update_self, Option.some.injEq]
      constructor
      · rintro rfl
        exact ⟨Or.inr rfl, rfl⟩
      · rintro ⟨mem | rfl, same⟩
        · have taken := (h.names clones _ y).mpr ⟨mem, same⟩
          rw [name clones] at taken
          cases taken
        · rfl
    · rw [Function.update_of_ne eq, h.names clones]
      constructor
      · rintro ⟨mem, same⟩
        exact ⟨Or.inl mem, same⟩
      · rintro ⟨mem | rfl, same⟩
        · exact ⟨mem, same⟩
        · exact absurd same.symm eq
  · intro one
    simp only [character]
    rw [List.pairwise_append]
    refine ⟨h.accounts one, List.pairwise_singleton _ _, ?_⟩
    intro y hy z hz same
    rw [List.mem_singleton.mp hz] at same ⊢
    by_contra neither
    rw [not_or, Bool.not_eq_true, Bool.not_eq_true] at neither
    exact account one neither.2 y hy same

theorem removeCreature (h : Online config memory playerAutoID players mappedPlayerNames)
    (on : x ∈ players) :
    Online config (Function.update memory x { memory x with isInternalRemoved := true })
      playerAutoID (players.erase x)
      (Function.update mappedPlayerNames (asLowerCaseString (memory x).character.name) none) := by
  have character (y : PlayerId) :
      (Function.update memory x { memory x with isInternalRemoved := true } y).character =
        (memory y).character := by
    apply update_part Player.character
    rfl
  refine ⟨?_, ?_, h.nodup.erase x, ?_, ?_⟩
  · intro y
    rw [h.nodup.mem_erase_iff, h.mem]
    by_cases eq : y = x
    · subst eq
      rw [Function.update_self]
      exact iff_of_false (fun of => of.1 rfl) fun of => Bool.false_ne_true of.2.symm
    · rw [Function.update_of_ne eq]
      exact and_iff_right eq
  · intro y hy
    by_cases eq : y = x
    · subst eq
      exact h.born y (Or.inl ((h.mem y).mp on).1)
    · rw [Function.update_of_ne eq] at hy
      exact h.born y hy
  · intro clones n y
    rw [character, h.nodup.mem_erase_iff]
    have mine := (h.names clones _ x).mpr ⟨on, rfl⟩
    by_cases eq : n = asLowerCaseString (memory x).character.name
    · subst eq
      rw [Function.update_self]
      refine iff_of_false (fun none => by cases none) ?_
      rintro ⟨⟨ne, mem⟩, same⟩
      have theirs := (h.names clones _ y).mpr ⟨mem, same⟩
      exact ne (Option.some.inj (theirs.symm.trans mine))
    · rw [Function.update_of_ne eq, h.names clones]
      refine and_congr_left fun same => ?_
      rw [and_iff_right]
      rintro rfl
      exact eq same.symm
  · intro one
    simp only [character]
    exact (h.accounts one).sublist List.erase_sublist

end Online

/-! ### Every run -/

structure Sound (config : Config) (g : Game) : Prop where
  paired : Paired g.protocols g.memory
  online : Online config g.memory g.playerAutoID g.players g.mappedPlayerNames
  /-- Who still waits for a player has none. -/
  waiting : ∀ p, (g.protocols p).eventConnect.isSome = true → (g.protocols p).player = none
  silent : ∀ p, (g.protocols p).receivedFirst = false →
    (g.protocols p).player = none ∧ (g.protocols p).eventConnect = none ∧
      (g.protocols p).acceptPackets = false
  /-- Who was let in has a player that came onto the map. -/
  entered : ∀ p x, (g.protocols p).acceptPackets = true → (g.protocols p).player = some x →
    (g.memory x).placed = true

namespace Sound

variable {config : Config} {g : Game} {p : ProtocolId} {x : PlayerId} {character : Character}

/-- One connection changes, and players only come onto the map. -/
theorem update (h : Sound config g) {g' : Game} {proto : Protocol}
    (protocols : g'.protocols = Function.update g.protocols p proto)
    (paired : Paired g'.protocols g'.memory)
    (online : Online config g'.memory g'.playerAutoID g'.players g'.mappedPlayerNames)
    (placed : ∀ y, (g.memory y).placed = true → (g'.memory y).placed = true)
    (waiting : proto.eventConnect.isSome = true → proto.player = none)
    (silent : proto.receivedFirst = false → proto.player = none ∧ proto.eventConnect = none ∧
      proto.acceptPackets = false)
    (entered : proto.acceptPackets = true → ∀ y, proto.player = some y →
      (g'.memory y).placed = true) : Sound config g' := by
  refine ⟨paired, online, ?_, ?_, ?_⟩
  · rw [protocols, Function.forall_update_iff g.protocols
      fun _ proto => proto.eventConnect.isSome = true → proto.player = none]
    exact ⟨waiting, fun q _ => h.waiting q⟩
  · rw [protocols, Function.forall_update_iff g.protocols
      fun _ proto => proto.receivedFirst = false → proto.player = none ∧
        proto.eventConnect = none ∧ proto.acceptPackets = false]
    exact ⟨silent, fun q _ => h.silent q⟩
  · rw [protocols, Function.forall_update_iff g.protocols fun _ proto => ∀ y,
      proto.acceptPackets = true → proto.player = some y → (g'.memory y).placed = true]
    exact ⟨fun y hp => entered hp y, fun q _ y hq hy => placed y (h.entered q y hq hy)⟩

/-- No connection changes, and players only come onto the map. -/
theorem onlyPlayers (h : Sound config g) {g' : Game} (protocols : g'.protocols = g.protocols)
    (paired : Paired g.protocols g'.memory)
    (online : Online config g'.memory g'.playerAutoID g'.players g'.mappedPlayerNames)
    (placed : ∀ y, (g.memory y).placed = true → (g'.memory y).placed = true) :
    Sound config g' := by
  refine ⟨?_, online, ?_, ?_, ?_⟩
  · rw [protocols]
    exact paired
  · rw [protocols]
    exact h.waiting
  · rw [protocols]
    exact h.silent
  · rw [protocols]
    exact fun q y hq hy => placed y (h.entered q y hq hy)

/-- A connection changes that has no player. -/
theorem setProtocol (h : Sound config g) {proto : Protocol}
    (same : proto.player = (g.protocols p).player)
    (waiting : proto.eventConnect.isSome = true → (g.protocols p).player = none)
    (silent : proto.receivedFirst = false → (g.protocols p).player = none ∧
      proto.eventConnect = none ∧ proto.acceptPackets = false)
    (entered : proto.acceptPackets = true → ∀ x, (g.protocols p).player = some x →
      (g.memory x).placed = true) :
    Sound config (g.setProtocol p proto) := by
  rw [← same] at waiting silent entered
  exact h.update rfl (h.paired.setProtocol same) h.online (fun _ => id) waiting silent entered

/-- A player changes, but not who controls it. -/
theorem setPlayer (h : Sound config g) {player : Player}
    (client : player.client = (g.memory x).client)
    (character : player.character = (g.memory x).character)
    (placed : player.placed = (g.memory x).placed)
    (removed : player.isInternalRemoved = (g.memory x).isInternalRemoved) :
    Sound config (g.setPlayer x player) := by
  refine h.onlyPlayers rfl (h.paired.setPlayer client) ?_ ?_
  · apply h.online.update character placed removed
    rw [client]
    exact fun some => h.online.born x (Or.inr some)
  · exact fun y on => (update_part Player.placed placed y).trans on

/-- A new player, with its connection. -/
theorem create (h : Sound config g) (character : Character)
    (free : (g.protocols p).player = none) (spoken : (g.protocols p).receivedFirst = true)
    (idle : (g.protocols p).eventConnect = none) (shut : (g.protocols p).acceptPackets = false) :
    Sound config ((({ g with playerAutoID := g.playerAutoID + 1 } : Game).setPlayer g.playerAutoID
      { character := character, client := some p }).setProtocol p
        { g.protocols p with player := some g.playerAutoID }) := by
  have unborn : (g.memory g.playerAutoID).client = none := by
    rw [← Option.not_isSome_iff_eq_none]
    exact fun some => lt_irrefl _ (h.online.born _ (Or.inr some))
  refine h.update rfl (h.paired.pair free unborn rfl rfl) (h.online.create rfl) ?_ ?_ ?_ ?_
  · intro y on
    have ne : y ≠ g.playerAutoID := (h.online.born y (Or.inl on)).ne
    rw [Game.memory_setProtocol, Game.memory_setPlayer, Function.update_of_ne ne]
    exact on
  · dsimp only
    rw [idle]
    exact fun none => by cases none
  · dsimp only
    rw [spoken]
    exact fun none => by cases none
  · dsimp only
    rw [shut]
    exact fun none => by cases none

theorem placeCreature (h : Sound config g) (off : (g.memory x).placed = false)
    (on : (g.memory x).isInternalRemoved = false) (born : x < g.playerAutoID)
    (name : config.ALLOW_CLONES = false →
      g.mappedPlayerNames (asLowerCaseString (g.memory x).character.name) = none)
    (account : config.ONE_PLAYER_ON_ACCOUNT = true → (g.memory x).character.gamemaster = false →
      ∀ y ∈ g.players, (g.memory y).character.account ≠ (g.memory x).character.account) :
    Sound config (g.placeCreature x) := by
  refine h.onlyPlayers rfl (h.paired.setPlayer rfl) ?_ ?_
  · have placed := h.online.placeCreature off on born name account
    have same : ((g.setPlayer x { g.memory x with placed := true }).memory x).character =
        (g.memory x).character := by
      rw [Game.memory_setPlayer, Function.update_self]
    unfold Game.placeCreature Game.addPlayer
    rw [same]
    exact placed
  · intro y on
    have memory : (g.placeCreature x).memory =
        Function.update g.memory x { g.memory x with placed := true } := rfl
    rw [memory]
    by_cases eq : y = x
    · subst eq
      rw [Function.update_self]
    · rw [Function.update_of_ne eq]
      exact on

/-- The connection gives its player up. -/
theorem part (h : Sound config g) (together : (g.protocols p).player = some x) :
    Sound config ((g.setPlayer x { g.memory x with client := none }).setProtocol p
      { g.protocols p with player := none }) := by
  refine h.update rfl (h.paired.part together rfl rfl) ?_ ?_ ?_ ?_ ?_
  · refine h.online.update ?_ ?_ ?_ ?_
    · rfl
    · rfl
    · rfl
    · exact fun none => by cases none
  · intro y on
    refine (update_part Player.placed ?_ y).trans on
    rfl
  · exact fun _ => rfl
  · exact fun silent => ⟨rfl, (h.silent p silent).2⟩
  · exact fun _ _ none => by cases none

/-- A connection and a player come together. -/
theorem pair (h : Sound config g) {proto : Protocol} {player : Player}
    (free : (g.protocols p).player = none) (free' : (g.memory x).client = none)
    (names : proto.player = some x) (names' : player.client = some p)
    (idle : proto.eventConnect = none) (spoken : proto.receivedFirst = true)
    (character : player.character = (g.memory x).character)
    (placed : player.placed = (g.memory x).placed)
    (removed : player.isInternalRemoved = (g.memory x).isInternalRemoved)
    (born : x < g.playerAutoID)
    (entered : proto.acceptPackets = true → (g.memory x).placed = true) :
    Sound config ((g.setPlayer x player).setProtocol p proto) := by
  have places := update_part Player.placed placed
  refine h.update rfl (h.paired.pair free free' names names')
    (h.online.update character placed removed fun _ => born) ?_ ?_ ?_ ?_
  · exact fun y on => (places y).trans on
  · rw [idle]
    exact fun none => by cases none
  · rw [spoken]
    exact fun none => by cases none
  · intro accepts y hy
    obtain rfl := Option.some.inj (names.symm.trans hy)
    exact (places x).trans (entered accepts)

theorem connect (h : Sound config g) (free : (g.protocols p).player = none)
    (spoken : (g.protocols p).receivedFirst = true) : Sound config (g.connect p x) := by
  have idle : Sound config (g.setProtocol p { g.protocols p with eventConnect := none }) := by
    refine h.setProtocol ?_ ?_ ?_ ?_
    · rfl
    · exact fun none => by cases none
    · intro silent
      rw [spoken] at silent
      cases silent
    · exact fun accepts y => h.entered p y accepts
  unfold Game.connect
  simp only
  split
  · exact idle
  · rename_i y found
    obtain ⟨rfl, mem⟩ := Game.of_getPlayerByID found
    have on := ((h.online.mem y).mp mem).1
    split_ifs with busy expired
    · exact idle
    · exact idle
    · rw [Bool.not_eq_true, Option.isSome_eq_false_iff, Option.isNone_iff_eq_none] at busy
      simp only [Game.protocols_setPlayer, Game.protocols_setProtocol, Function.update_self,
        Game.memory_setProtocol]
      apply idle.pair
      · rw [Game.protocols_setProtocol, Function.update_self]
        exact free
      · exact busy
      · rfl
      · rfl
      · rfl
      · exact spoken
      · rfl
      · rfl
      · rfl
      · exact h.online.born y (Or.inl on)
      · exact fun _ => on

theorem removeCreature (h : Sound config g) (placed : (g.memory x).placed = true) :
    Sound config (g.removeCreature x) := by
  unfold Game.removeCreature
  split_ifs with removed
  · exact h
  · rw [Bool.not_eq_true] at removed
    have on := (h.online.mem x).mpr ⟨placed, removed⟩
    refine h.onlyPlayers rfl (h.paired.setPlayer rfl) (h.online.removeCreature on) ?_
    intro y before
    refine (update_part Player.placed ?_ y).trans before
    rfl

theorem login (h : Sound config g) (checks : Game.Checks)
    (first : (g.protocols p).receivedFirst = false) (named : character.name ≠ []) :
    Sound config (g.login config p character checks) := by
  obtain ⟨free, idle, shut⟩ := h.silent p first
  have spoken : Sound config (g.setProtocol p { g.protocols p with receivedFirst := true }) := by
    refine h.setProtocol ?_ ?_ ?_ ?_
    · rfl
    · exact fun _ => free
    · exact fun none => by cases none
    · exact fun accepts y => h.entered p y accepts
  unfold Game.login
  simp only
  split
  · -- the player is online: it is taken over
    rename_i x found clones
    split_ifs with refused busy
    · exact spoken
    · have connecting : Sound config ((g.setProtocol p
          { g.protocols p with receivedFirst := true }).setPlayer x
            { g.memory x with isConnecting := true }) := by
        refine spoken.setPlayer ?_ ?_ ?_ ?_ <;> rfl
      refine connecting.setProtocol ?_ ?_ ?_ ?_
      · rfl
      · intro _
        rw [Game.protocols_setPlayer, Game.protocols_setProtocol, Function.update_self]
        exact free
      · intro none
        rw [Game.protocols_setPlayer, Game.protocols_setProtocol, Function.update_self] at none
        cases none
      · exact fun accepts y => connecting.entered p y accepts
    · apply spoken.connect
      · rw [Game.protocols_setProtocol, Function.update_self]
        exact free
      · rw [Game.protocols_setProtocol, Function.update_self]
  · -- a new player
    rename_i absent
    have created := spoken.create character (p := p) (by
      rw [Game.protocols_setProtocol, Function.update_self]
      exact free) (by
      rw [Game.protocols_setProtocol, Function.update_self]) (by
      rw [Game.protocols_setProtocol, Function.update_self]
      exact idle) (by
      rw [Game.protocols_setProtocol, Function.update_self]
      exact shut)
    have taken : config.ALLOW_CLONES = false →
        g.mappedPlayerNames (asLowerCaseString character.name) = none := by
      intro clones
      rw [Option.eq_none_iff_forall_ne_some]
      intro y mapped
      refine absent y ?_ clones
      rw [Game.getPlayerByName, if_neg named]
      exact mapped
    split_ifs with refused other closed
    · exact created
    · exact created
    · exact created
    · have new : (Function.update g.memory g.playerAutoID
          { character := character, client := some p } : PlayerId → Player) g.playerAutoID =
          { character := character, client := some p } := Function.update_self ..
      have proto : (Function.update (Function.update g.protocols p
          { g.protocols p with receivedFirst := true }) p
          { (Function.update g.protocols p { g.protocols p with receivedFirst := true } p) with
            player := some g.playerAutoID } : ProtocolId → Protocol) p =
          { g.protocols p with receivedFirst := true, player := some g.playerAutoID } := by
        rw [Function.update_self, Function.update_self]
      have entered := created.placeCreature (x := g.playerAutoID)
        ((congrArg Player.placed new).trans rfl)
        ((congrArg Player.isInternalRemoved new).trans rfl) (Nat.lt_succ_self _) (by
          intro clones
          have named : ((Function.update g.memory g.playerAutoID
              { character := character, client := some p } : PlayerId → Player)
                g.playerAutoID).character.name = character.name := by
            rw [new]
          exact (congrArg (fun name => g.mappedPlayerNames (asLowerCaseString name)) named).trans
            (taken clones)) (by
          intro one normal y mem same
          have mine : ((Function.update g.memory g.playerAutoID
              { character := character, client := some p } : PlayerId → Player)
                g.playerAutoID).character = character := by
            rw [new]
          have normal : character.gamemaster = false := by
            rw [← mine]
            exact normal
          have account := same.trans (congrArg Character.account mine)
          refine other ?_
          rw [one, normal]
          refine (Bool.true_and _).trans ((Bool.true_and _).trans ?_)
          exact Game.getPlayerByAccount_isSome mem account)
      refine entered.setProtocol ?_ ?_ ?_ ?_
      · rfl
      · intro waits
        have none := (congrArg (fun proto => proto.eventConnect.isSome) proto).symm.trans waits
        dsimp only at none
        rw [idle] at none
        cases none
      · intro silent
        cases (congrArg Protocol.receivedFirst proto).symm.trans silent
      · intro _ y hy
        have eq := (congrArg Protocol.player proto).symm.trans hy
        obtain rfl := Option.some.inj eq
        exact Game.placed_placeCreature

theorem logout (h : Sound config g) (allowed : Bool)
    (placed : ∀ x, (g.protocols p).player = some x → (g.memory x).placed = true) :
    Sound config (g.logout p allowed) := by
  unfold Game.logout
  cases hx : (g.protocols p).player with
  | none => exact h
  | some x =>
      simp only
      split_ifs
      · exact h
      · exact h.removeCreature (placed x hx)

theorem release (h : Sound config g) (safe : Bool) : Sound config (g.release p safe) := by
  unfold Game.release
  cases hx : (g.protocols p).player with
  | none => exact h
  | some x =>
      simp only
      have gone : Sound config (if (g.memory x).placed && safe then g.logout p true else g) ∧
          ((if (g.memory x).placed && safe then g.logout p true else g).protocols p).player =
            some x := by
        split_ifs with on
        · rw [Bool.and_eq_true] at on
          refine ⟨h.logout true fun y hy => ?_, ?_⟩
          · obtain rfl := Option.some.inj (hx.symm.trans hy)
            exact on.1
          · rw [Game.protocols_logout]
            exact hx
        · exact ⟨h, hx⟩
      generalize (if (g.memory x).placed && safe then g.logout p true else g) = left at gone
      obtain ⟨sound, together⟩ := gone
      split_ifs with mine
      · exact sound.part together
      · exact h

theorem step (h : Sound config g) {event : Event} {g' : Game}
    (happens : ClientSessions.step config g event = some g') : Sound config g' := by
  cases event with
  | login p character checks =>
      rw [ClientSessions.step] at happens
      split_ifs at happens with refused
      obtain rfl := Option.some.inj happens
      rw [Bool.or_eq_true, not_or, Bool.not_eq_true] at refused
      refine h.login checks refused.1 fun unnamed => refused.2 ?_
      rw [unnamed]
      rfl
  | connect p =>
      obtain ⟨x, pending, rfl⟩ := Option.map_eq_some_iff.mp happens
      have waits : (g.protocols p).eventConnect.isSome = true := by
        rw [pending]
        rfl
      refine h.connect (h.waiting p waits) ?_
      by_contra quiet
      rw [Bool.not_eq_true] at quiet
      rw [(h.silent p quiet).2.1] at waits
      cases waits
  | logout p allowed =>
      rw [ClientSessions.step] at happens
      split_ifs at happens with accepts
      obtain rfl := Option.some.inj happens
      exact h.logout allowed fun x hx => h.entered p x accepts hx
  | removeCreature x =>
      rw [ClientSessions.step] at happens
      split_ifs at happens with on
      obtain rfl := Option.some.inj happens
      exact h.removeCreature ((h.online.mem x).mp on).1
  | release p safe =>
      obtain rfl := Option.some.inj happens
      exact h.release safe
  | expire p =>
      obtain rfl := Option.some.inj happens
      refine h.setProtocol ?_ ?_ ?_ ?_
      · rfl
      · exact h.waiting p
      · exact h.silent p
      · exact fun accepts y => h.entered p y accepts

theorem opened (config : Config) : Sound config opened := by
  refine ⟨⟨?_, ?_⟩, ⟨?_, ?_, List.nodup_nil, ?_, fun _ => List.Pairwise.nil⟩, ?_, ?_, ?_⟩
  · exact fun _ _ none => by cases none
  · exact fun _ _ none => by cases none
  · exact fun _ => iff_of_false List.not_mem_nil fun on => Bool.false_ne_true on.1
  · rintro _ (none | none) <;> cases none
  · exact fun _ _ _ => iff_of_false (fun none => by cases none) fun on => List.not_mem_nil on.1
  · exact fun _ none => by cases none
  · exact fun _ _ => ⟨rfl, rfl, rfl⟩
  · exact fun _ _ none => by cases none

end Sound

/-- In whatever order logins, reconnections, kicks and lost connections come, at most one
connection controls a player, and it is the one the player sends to; unless clones are allowed
no name is online twice, and where one player an account is asked for an account is online twice
only with a gamemaster. -/
theorem one_controller {config : Config} {events : List Event} {g : Game}
    (run : Runs.run (step config) opened events = some g) :
    (∀ p x, (g.protocols p).player = some x ↔ (g.memory x).client = some p) ∧
      (∀ p q x, (g.protocols p).player = some x → (g.protocols q).player = some x → p = q) ∧
      (config.ALLOW_CLONES = false → ∀ x ∈ g.players, ∀ y ∈ g.players,
        asLowerCaseString (g.memory x).character.name =
          asLowerCaseString (g.memory y).character.name → x = y) ∧
      (config.ONE_PLAYER_ON_ACCOUNT = true → g.players.Pairwise fun x y =>
        (g.memory x).character.account = (g.memory y).character.account →
          (g.memory x).character.gamemaster = true ∨
            (g.memory y).character.gamemaster = true) := by
  have sound : Sound config g := by
    refine Runs.Allowed.run (A := fun _ _ => True) (fun _ _ _ _ _ _ => trivial)
      (Sound.opened config) (fun s event s' sound _ happens => sound.step happens) run
  refine ⟨fun p x => ⟨sound.paired.client p x, sound.paired.player x p⟩, ?_, ?_,
    sound.online.accounts⟩
  · intro p q x hp hq
    have client := (sound.paired.client p x hp).symm.trans (sound.paired.client q x hq)
    exact Option.some.inj client
  · intro clones x hx y hy same
    have first := (sound.online.names clones _ x).mpr ⟨hx, rfl⟩
    have second := (sound.online.names clones _ y).mpr ⟨hy, same.symm⟩
    exact Option.some.inj (first.symm.trans second)

namespace Sample

def knight : Character := ⟨['B', 'u', 'b'], 7, false⟩

/-- A second connection kicks the first one, which ends in a fight, and takes the player over. -/
def takeover : List Event :=
  [.login 0 knight ⟨true, true⟩, .login 1 knight ⟨true, true⟩, .release 0 false, .expire 0,
    .connect 1]

/-- The kick is asked for. -/
def config : Config := ⟨false, true, true⟩

def takenOver : Game := (Runs.run (step config) opened takeover).getD opened

theorem taken_over : (takenOver.protocols 1).player = some 0 ∧
    ∀ q, (takenOver.protocols q).player = some 0 → q = 1 := by
  have run : Runs.run (step config) opened takeover = some takenOver := by rfl
  have taken : (takenOver.protocols 1).player = some 0 := by decide
  exact ⟨taken, fun q hq => (one_controller run).2.1 q 1 0 hq taken⟩

end Sample

end TibServer.ClientSessions
