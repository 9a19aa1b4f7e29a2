import TibServer.Party

/-!
Chat channels (`chat.cpp`, the channel functions of `game.cpp` and `player.cpp`) over the parties.

The four tables of channels are one, by kind; a party channel is found by the address of the party
object, and `new` may give an address again that a deleted party has had. The messages to clients
and the text that is spoken are left out; a script of a normal channel is asked, and changes nothing
here. `closeChannel` only sends messages: the id of a private channel is not that of the guild or
party channel, so that `sendClosePrivate` takes no one off.
-/

namespace TibServer.Chat

def CHANNEL_GUILD : Nat := 0x00
def CHANNEL_PARTY : Nat := 0x01
def CHANNEL_PRIVATE : Nat := 0xFFFF

inductive SpeakClass
  | channelY
  | channelO
  | channelR1
  deriving DecidableEq

inductive ChannelRef
  | normalChannel (channelId : Nat)
  | privateChannel (channelId : Nat)
  | partyChannel (address : Nat)
  | guildChannel (guildId : Nat)
  deriving DecidableEq

/-- The owner and the invited players are known by their guids, a channel that is not private has
none. The users are in the order of their ids. -/
structure Channel where
  owner : Nat := 0
  invites : List Nat := []
  users : List PlayerId := []
  deriving DecidableEq

def Channel.isInvited (channel : Channel) (guid : Nat) : Bool :=
  guid == channel.owner || decide (guid ∈ channel.invites)

/-- A guild with the levels of its ranks. -/
structure Guild where
  id : Nat
  ranks : List Nat
  deriving DecidableEq

/-- The guild of a player and the level of his rank. -/
structure GuildLink where
  id : Nat
  rank : Nat
  deriving DecidableEq

/-- What the scripts of normal channels and the accounts answer. -/
structure Answers where
  isPremium : PlayerId → Bool
  canJoin : Nat → PlayerId → Bool
  onJoin : Nat → PlayerId → Bool
  /-- No class: the message is refused. -/
  onSpeak : Nat → PlayerId → SpeakClass → Option SpeakClass

structure State where
  parties : Parties
  address : PartyRef → Nat
  guid : PlayerId → Nat
  guild : PlayerId → Option GuildLink
  channels : ChannelRef → Option Channel

namespace State

variable (ans : Answers) (s : State)

def online (p : PlayerId) : Bool := s.parties.online p

def setChannel (ref : ChannelRef) (channel : Option Channel) : State :=
  { s with channels := Function.update s.channels ref channel }

def setParty (p : PlayerId) (party : Option PartyRef) : State :=
  { s with parties := s.parties.setParty p party }

/-! ### `Chat` -/

/-- The channel, if it is in the table. -/
def find (ref : ChannelRef) : Option ChannelRef := (s.channels ref).map fun _ => ref

def getChannel (p : PlayerId) (channelId : Nat) : Option ChannelRef :=
  if channelId = CHANNEL_GUILD then
    (s.guild p).bind fun guild => s.find (.guildChannel guild.id)
  else if channelId = CHANNEL_PARTY then
    (s.parties.player p).party.bind fun party => s.find (.partyChannel (s.address party))
  else
    match s.channels (.normalChannel channelId) with
    | some _ => if ans.canJoin channelId p then some (.normalChannel channelId) else none
    | none =>
        match s.channels (.privateChannel channelId) with
        | some channel =>
            if channel.isInvited (s.guid p) then some (.privateChannel channelId) else none
        | none => none

/-- The ids a private channel may have. -/
def privateIds : List Nat := List.range' 100 9900

def getPrivateChannel (p : PlayerId) : Option Nat :=
  privateIds.find? fun i => (s.channels (.privateChannel i)).any (·.owner == s.guid p)

/-- `std::map::emplace`: a channel that is there is kept. -/
def emplace (ref : ChannelRef) (channel : Channel) : State :=
  if (s.channels ref).isSome then s else s.setChannel ref (some channel)

def createChannel (p : PlayerId) (channelId : Nat) : State × Option ChannelRef :=
  if (s.getChannel ans p channelId).isSome then (s, none)
  else if channelId = CHANNEL_GUILD then
    match s.guild p with
    | some guild => (s.emplace (.guildChannel guild.id) {}, some (.guildChannel guild.id))
    | none => (s, none)
  else if channelId = CHANNEL_PARTY then
    match (s.parties.player p).party with
    | some party =>
        (s.emplace (.partyChannel (s.address party)) {}, some (.partyChannel (s.address party)))
    | none => (s, none)
  else if channelId = CHANNEL_PRIVATE then
    -- only 1 private channel for each premium player
    if !ans.isPremium p || (s.getPrivateChannel p).isSome then (s, none)
    else
      match privateIds.find? fun i => (s.channels (.privateChannel i)).isNone with
      | some i =>
          (s.setChannel (.privateChannel i) (some { owner := s.guid p }), some (.privateChannel i))
      | none => (s, none)
  else (s, none)

def deleteChannel (p : PlayerId) (channelId : Nat) : State :=
  if channelId = CHANNEL_GUILD then
    match s.guild p with
    | some guild => s.setChannel (.guildChannel guild.id) none
    | none => s
  else if channelId = CHANNEL_PARTY then
    match (s.parties.player p).party with
    | some party => s.setChannel (.partyChannel (s.address party)) none
    | none => s
  else s.setChannel (.privateChannel channelId) none

/-- Only normal channels have a script that may refuse. -/
def executeOnJoinEvent (ref : ChannelRef) (p : PlayerId) : Bool :=
  match ref with
  | .normalChannel channelId => ans.onJoin channelId p
  | _ => true

def addUser (ref : ChannelRef) (p : PlayerId) : State :=
  match s.channels ref with
  | none => s
  | some channel =>
      if p ∈ channel.users then s
      else if executeOnJoinEvent ans ref p then
        s.setChannel ref (some { channel with users := channel.users.orderedInsert (· ≤ ·) p })
      else s

def removeUser (ref : ChannelRef) (p : PlayerId) : State :=
  match s.channels ref with
  | none => s
  | some channel =>
      s.setChannel ref (some { channel with users := channel.users.filter (· ≠ p) })

def addUserToChannel (p : PlayerId) (channelId : Nat) : State :=
  match s.getChannel ans p channelId with
  | some ref => s.addUser ans ref p
  | none => s

def removeUserFromChannel (p : PlayerId) (channelId : Nat) : State :=
  match s.getChannel ans p channelId with
  | none => s
  | some ref =>
      match s.channels ref with
      | none => s
      | some channel =>
          if p ∈ channel.users then
            let s := s.removeUser ref p
            if channel.owner = s.guid p then s.deleteChannel p channelId else s
          else s

/-- What `removeUserFromAllChannels` leaves of a channel. -/
def withoutPlayer (p : PlayerId) : ChannelRef → Channel → Option Channel
  | .privateChannel _, channel =>
      if channel.owner = s.guid p then none
      else some { channel with
        invites := channel.invites.filter (· ≠ s.guid p)
        users := channel.users.filter (· ≠ p) }
  | _, channel => some { channel with users := channel.users.filter (· ≠ p) }

def removeUserFromAllChannels (p : PlayerId) : State :=
  { s with channels := fun ref => (s.channels ref).bind (s.withoutPlayer p ref) }

/-- `Chat::talkToChannel`: the class of the message and who receives it. -/
def talkToChannel (p : PlayerId) (type : SpeakClass) (channelId : Nat) :
    Option (SpeakClass × List PlayerId) :=
  match s.getChannel ans p channelId with
  | none => none
  | some ref =>
      let type :=
        if channelId = CHANNEL_GUILD then
          if (s.guild p).any (1 < ·.rank) then .channelO else .channelY
        else if channelId = CHANNEL_PRIVATE ∨ channelId = CHANNEL_PARTY then .channelY
        else type
      let spoken :=
        match ref with
        | .normalChannel channelId => ans.onSpeak channelId p type
        | _ => some type
      match spoken, s.channels ref with
      | some type, some channel => if p ∈ channel.users then some (type, channel.users) else none
      | _, _ => none

/-- `Chat::getChannelList`, which creates the channel of the guild and of the party. -/
def getChannelList (p : PlayerId) : State :=
  let s := (s.createChannel ans p CHANNEL_GUILD).1
  (s.createChannel ans p CHANNEL_PARTY).1

/-! ### `Player` -/

def sendClosePrivate (p : PlayerId) (channelId : Nat) : State :=
  if channelId = CHANNEL_GUILD ∨ channelId = CHANNEL_PARTY then
    s.removeUserFromChannel ans p channelId
  else s

def setGuild (p : PlayerId) (guild : Option Guild) : State :=
  if guild.map Guild.id = (s.guild p).map GuildLink.id then s
  else
    -- without a rank of level 1 the player is left without a guild
    let link := guild.bind fun guild =>
      if 1 ∈ guild.ranks then some { id := guild.id, rank := 1 } else none
    { s with guild := Function.update s.guild p link }

/-! ### `Party`

The functions that take the party from a player, with the calls that should close its channel. -/

def disband (ref : PartyRef) : State :=
  match s.parties.party ref with
  | none => s
  | some party =>
      let s := (s.setParty party.leader none).sendClosePrivate ans party.leader CHANNEL_PARTY
      let s := { s with
        parties := party.inviteList.foldl
          (fun parties invitee => parties.removePartyInvitation invitee ref) s.parties }
      let s := party.memberList.foldl (fun s member =>
        (s.setParty member none).sendClosePrivate ans member CHANNEL_PARTY) s
      { s with parties := s.parties.write ref none }

def disbandIfEmpty (ref : PartyRef) (missing : Bool) : State :=
  match s.parties.party ref with
  | none => s
  | some party => if missing || party.empty then s.disband ans ref else s

def removeMember (ref : PartyRef) (p : PlayerId) : State :=
  match s.parties.party ref with
  | none => s
  | some party =>
      let s := { s with
        parties := s.parties.write ref (some { party with
          memberList := party.memberList.erase p }) }
      (s.setParty p none).sendClosePrivate ans p CHANNEL_PARTY

def leaveParty (ref : PartyRef) (p : PlayerId) : State :=
  match s.parties.party ref with
  | none => s
  | some party =>
      if (s.parties.player p).party ≠ some ref ∧ party.leader ≠ p then s
      else
        let s := { s with parties := s.parties.passOn ref party p }
        (s.removeMember ans ref p).disbandIfEmpty ans ref (Parties.missingLeader party p)

def removeInvite (ref : PartyRef) (p : PlayerId) (removeFromPlayer : Bool) : State :=
  match s.parties.party ref with
  | none => s
  | some party =>
      if p ∈ party.inviteList then
        let parties := s.parties.write ref (some { party with
          inviteList := party.inviteList.erase p })
        let s := { s with
          parties := if removeFromPlayer then parties.removePartyInvitation p ref else parties }
        s.disbandIfEmpty ans ref false
      else s

def clearPartyInvitations (p : PlayerId) : State :=
  let s := (s.parties.player p).invitePartyList.foldl
    (fun s ref => s.removeInvite ans ref p false) s
  { s with
    parties := s.parties.setPlayer p { s.parties.player p with invitePartyList := [] } }

/-! ### `Game` -/

/-- A party that is founded for the invitation lies at the address. -/
def playerInviteToParty (p invited : PlayerId) (address : Nat) : State :=
  { s with
    parties := s.parties.playerInviteToParty p invited
    address := Function.update s.address s.parties.next address }

def playerRevokePartyInvitation (p invited : PlayerId) : State :=
  if !s.online p then s
  else
    match s.parties.leads p with
    | none => s
    | some ref =>
        if !s.online invited || !s.parties.isInviting p invited then s
        else s.removeInvite ans ref invited true

def playerLeaveParty (p : PlayerId) (inFight : Bool) : State :=
  if !s.online p then s
  else
    match (s.parties.player p).party with
    | none => s
    | some ref => if inFight then s else s.leaveParty ans ref p

def leaveOwnParty (p : PlayerId) : State :=
  match (s.parties.player p).party with
  | none => s
  | some ref => s.leaveParty ans ref p

/-- The part of `Player::onRemoveCreature` about parties and channels. -/
def onRemoveCreature (p : PlayerId) : State :=
  let s := ((s.clearPartyInvitations ans p).leaveOwnParty ans p).removeUserFromAllChannels p
  { s with parties := s.parties.setOffline p }

def playerCreatePrivateChannel (p : PlayerId) : State :=
  if !s.online p || !ans.isPremium p then s
  else
    match s.createChannel ans p CHANNEL_PRIVATE with
    | (s, some ref) => s.addUser ans ref p
    | (s, none) => s

/-- What the owner of a private channel does with it. -/
def changeOwn (p other : PlayerId) (change : Channel → Channel) : State :=
  if !s.online p || !s.online other || p == other then s
  else
    match s.getPrivateChannel p with
    | none => s
    | some i => s.setChannel (.privateChannel i) ((s.channels (.privateChannel i)).map change)

/-- `PrivateChatChannel::invitePlayer`. -/
def playerChannelInvite (p invited : PlayerId) : State :=
  s.changeOwn p invited fun channel =>
    if s.guid invited ∈ channel.invites then channel
    else { channel with invites := s.guid invited :: channel.invites }

/-- `PrivateChatChannel::excludePlayer`. -/
def playerChannelExclude (p excluded : PlayerId) : State :=
  s.changeOwn p excluded fun channel =>
    if s.guid excluded ∈ channel.invites then
      { channel with
        invites := channel.invites.filter (· ≠ s.guid excluded)
        users := channel.users.filter (· ≠ excluded) }
    else channel

end State

/-- What happens to parties, guilds and channels, one call at a time. -/
inductive Event
  | login (p : PlayerId) (guid : Nat) (guild : Option GuildLink)
  | invite (p invited : PlayerId) (address : Nat)
  | join (p leader : PlayerId)
  | revoke (p invited : PlayerId)
  | passLeadership (p newLeader : PlayerId)
  | leave (p : PlayerId) (inFight : Bool)
  | disband (ref : PartyRef)
  | remove (p : PlayerId)
  | setGuild (p : PlayerId) (guild : Option Guild)
  | requestChannels (p : PlayerId)
  | openChannel (p : PlayerId) (channelId : Nat)
  | closeChannel (p : PlayerId) (channelId : Nat)
  | createPrivateChannel (p : PlayerId)
  | channelInvite (p invited : PlayerId)
  | channelExclude (p excluded : PlayerId)
  | connect (p : PlayerId)
  deriving DecidableEq

namespace State

variable (ans : Answers) (s : State)

/-- The new object of a player has the guild he was saved with. -/
def login (p : PlayerId) (guid : Nat) (guild : Option GuildLink) : State :=
  if s.online p then s
  else
    { s with
      parties := s.parties.step (.login p)
      guid := Function.update s.guid p guid
      guild := Function.update s.guild p guild }

def step : Event → State
  | .login p guid guild => s.login p guid guild
  | .invite p invited address => s.playerInviteToParty p invited address
  | .join p leader => { s with parties := s.parties.playerJoinParty p leader }
  | .revoke p invited => s.playerRevokePartyInvitation ans p invited
  | .passLeadership p newLeader =>
      { s with parties := s.parties.playerPassPartyLeadership p newLeader }
  | .leave p inFight => s.playerLeaveParty ans p inFight
  | .disband ref => s.disband ans ref
  | .remove p => if s.online p then s.onRemoveCreature ans p else s
  | .setGuild p guild => s.setGuild p guild
  | .requestChannels p => if s.online p then s.getChannelList ans p else s
  | .openChannel p channelId => if s.online p then s.addUserToChannel ans p channelId else s
  | .closeChannel p channelId => if s.online p then s.removeUserFromChannel ans p channelId else s
  | .createPrivateChannel p => s.playerCreatePrivateChannel ans p
  | .channelInvite p invited => s.playerChannelInvite p invited
  | .channelExclude p excluded => s.playerChannelExclude p excluded
  | .connect p => if s.online p then s.removeUserFromAllChannels p else s

/-- `new` gives no address at which a party is alive. -/
def possible : Event → Prop
  | .invite _ _ address => ∀ ref party, s.parties.party ref = some party → s.address ref ≠ address
  | _ => True

/-- No one is online; the normal channels are loaded. -/
def init (normalChannels : List Nat) : State where
  parties := {
    online := fun _ => false
    player := fun _ => {}
    party := fun _ => none
    next := 0 }
  address _ := 0
  guid _ := 0
  guild _ := none
  channels
    | .normalChannel channelId => if channelId ∈ normalChannels then some {} else none
    | _ => none

end State

end TibServer.Chat
