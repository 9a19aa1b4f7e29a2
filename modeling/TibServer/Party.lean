import TibServer.World

/-!
Parties (`party.cpp`, the party functions of `player.cpp` and `game.cpp`): the
links between players and parties, kept by hand on both sides.

Messages, icons and shared experience are left out; the event hooks let
everything pass. A party object that is deleted is gone from the table.
-/

namespace TibServer

abbrev PartyRef := Nat

structure Party where
  leader : PlayerId
  memberList : List PlayerId := []
  inviteList : List PlayerId := []
  deriving DecidableEq

namespace Party

def empty (party : Party) : Bool := party.memberList.isEmpty && party.inviteList.isEmpty

def isPlayerInvited (party : Party) (p : PlayerId) : Bool := decide (p ∈ party.inviteList)

end Party

/-- What a player keeps about parties. -/
@[ext]
structure PartyLinks where
  party : Option PartyRef := none
  invitePartyList : List PartyRef := []
  deriving DecidableEq

/-- The players that are online, their links, and the parties that are alive. -/
@[ext]
structure Parties where
  online : PlayerId → Bool
  player : PlayerId → PartyLinks
  party : PartyRef → Option Party
  next : PartyRef

namespace Parties

variable (s : Parties)

/-! ### Players -/

def setPlayer (p : PlayerId) (links : PartyLinks) : Parties :=
  { s with player := Function.update s.player p links }

def setParty (p : PlayerId) (party : Option PartyRef) : Parties :=
  s.setPlayer p { s.player p with party }

/-- `Player::addPartyInvitation`. -/
def addPartyInvitation (p : PlayerId) (party : PartyRef) : Parties :=
  if party ∈ (s.player p).invitePartyList then s
  else s.setPlayer p { s.player p with
    invitePartyList := party :: (s.player p).invitePartyList }

/-- `Player::removePartyInvitation`. -/
def removePartyInvitation (p : PlayerId) (party : PartyRef) : Parties :=
  s.setPlayer p { s.player p with
    invitePartyList := (s.player p).invitePartyList.filter (· ≠ party) }

/-- `Player::isInviting`: he leads a party that has invited the other one. -/
def isInviting (p other : PlayerId) : Bool :=
  match (s.player p).party.bind s.party with
  | some party => party.leader == p && party.isPlayerInvited other
  | none => false

/-- `Player::isPartner`. -/
def isPartner (p other : PlayerId) : Bool :=
  (s.player p).party.isSome && (s.player p).party == (s.player other).party

/-! ### `Party` -/

def write (ref : PartyRef) (party : Option Party) : Parties :=
  { s with party := Function.update s.party ref party }

/-- The constructor `Party::Party`: the object gets the next reference. -/
def newParty (leader : PlayerId) : Parties :=
  { (s.write s.next (some { leader })) with next := s.next + 1 }.setParty leader (some s.next)

def disband (ref : PartyRef) : Parties :=
  match s.party ref with
  | none => s
  | some party =>
      let s := s.setParty party.leader none
      let s := party.inviteList.foldl (fun s invitee => s.removePartyInvitation invitee ref) s
      let s := party.memberList.foldl (fun s member => s.setParty member none) s
      s.write ref none

def passPartyLeadership (ref : PartyRef) (p : PlayerId) : Parties :=
  match s.party ref with
  | none => s
  | some party =>
      if party.leader = p ∨ (s.player p).party ≠ some ref then s
      else s.write ref (some { party with
        leader := p
        memberList := party.leader :: party.memberList.erase p })

/-- The leader leaves and no one is left to lead. -/
def missingLeader (party : Party) (p : PlayerId) : Bool :=
  party.leader == p &&
    (party.memberList.isEmpty || (party.memberList.length == 1 && party.inviteList.isEmpty))

/-- A leader who leaves a party that goes on passes the leadership first. -/
def passOn (ref : PartyRef) (party : Party) (p : PlayerId) : Parties :=
  match party.memberList with
  | front :: _ =>
      if party.leader = p ∧ !missingLeader party p then s.passPartyLeadership ref front else s
  | [] => s

def disbandIfEmpty (ref : PartyRef) (missing : Bool) : Parties :=
  match s.party ref with
  | none => s
  | some party => if missing || party.empty then s.disband ref else s

/-- The player goes off the list of members and loses his party. -/
def removeMember (ref : PartyRef) (p : PlayerId) : Parties :=
  match s.party ref with
  | none => s
  | some party =>
      (s.write ref (some { party with memberList := party.memberList.erase p })).setParty p none

def leaveParty (ref : PartyRef) (p : PlayerId) : Parties :=
  match s.party ref with
  | none => s
  | some party =>
      if (s.player p).party ≠ some ref ∧ party.leader ≠ p then s
      else
        -- since we already passed the leadership, we remove the player from the list
        ((s.passOn ref party p).removeMember ref p).disbandIfEmpty ref (missingLeader party p)

def joinParty (ref : PartyRef) (p : PlayerId) : Parties :=
  match s.party ref with
  | none => s
  | some party =>
      if p ∈ party.inviteList then
        ((s.write ref (some { party with
            inviteList := party.inviteList.erase p
            memberList := party.memberList ++ [p] })).setParty p (some ref)).removePartyInvitation
          p ref
      else s

def removeInvite (ref : PartyRef) (p : PlayerId) (removeFromPlayer : Bool := true) : Parties :=
  match s.party ref with
  | none => s
  | some party =>
      if p ∈ party.inviteList then
        let s := s.write ref (some { party with inviteList := party.inviteList.erase p })
        let s := if removeFromPlayer then s.removePartyInvitation p ref else s
        s.disbandIfEmpty ref false
      else s

def invitePlayer (ref : PartyRef) (p : PlayerId) : Parties :=
  match s.party ref with
  | none => s
  | some party =>
      if p ∈ party.inviteList then s
      else
        (s.write ref (some { party with
          inviteList := party.inviteList ++ [p] })).addPartyInvitation p ref

/-! ### `Player` and `Game` -/

/-- `Player::clearPartyInvitations`. -/
def clearPartyInvitations (p : PlayerId) : Parties :=
  let s := (s.player p).invitePartyList.foldl (fun s ref => s.removeInvite ref p false) s
  s.setPlayer p { s.player p with invitePartyList := [] }

/-- The party a player leads. -/
def leads (p : PlayerId) : Option PartyRef :=
  (s.player p).party.filter fun ref => (s.party ref).any (·.leader == p)

def playerInviteToParty (p invited : PlayerId) : Parties :=
  if !s.online p || !s.online invited || s.isInviting invited p then s
  else if (s.player invited).party.isSome then s
  else
    match (s.player p).party with
    | none => (s.newParty p).invitePlayer s.next invited
    | some ref => if s.leads p = some ref then s.invitePlayer ref invited else s

def playerJoinParty (p leader : PlayerId) : Parties :=
  if !s.online p || !s.online leader || !s.isInviting leader p then s
  else
    match s.leads leader with
    | none => s
    | some ref => if (s.player p).party.isSome then s else s.joinParty ref p

def playerRevokePartyInvitation (p invited : PlayerId) : Parties :=
  if !s.online p then s
  else
    match s.leads p with
    | none => s
    | some ref =>
        if !s.online invited || !s.isInviting p invited then s else s.removeInvite ref invited

def playerPassPartyLeadership (p newLeader : PlayerId) : Parties :=
  if !s.online p then s
  else
    match s.leads p with
    | none => s
    | some ref =>
        if !s.online newLeader || !s.isPartner p newLeader then s
        else s.passPartyLeadership ref newLeader

/-- Who is in a fight may not leave. -/
def playerLeaveParty (p : PlayerId) (inFight : Bool) : Parties :=
  if !s.online p then s
  else
    match (s.player p).party with
    | none => s
    | some ref => if inFight then s else s.leaveParty ref p

/-- `if (party) { party->leaveParty(this); }`. -/
def leaveOwnParty (p : PlayerId) : Parties :=
  match (s.player p).party with
  | none => s
  | some ref => s.leaveParty ref p

def setOffline (p : PlayerId) : Parties := { s with online := Function.update s.online p false }

/-- The part of `Player::onRemoveCreature` about parties, for a logout and a death. -/
def onRemoveCreature (p : PlayerId) : Parties :=
  ((s.clearPartyInvitations p).leaveOwnParty p).setOffline p

/-- What happens to parties, one call at a time. -/
inductive Event
  | login (p : PlayerId)
  | invite (p invited : PlayerId)
  | join (p leader : PlayerId)
  | revoke (p invited : PlayerId)
  | passLeadership (p newLeader : PlayerId)
  | leave (p : PlayerId) (inFight : Bool)
  | disband (ref : PartyRef)
  | remove (p : PlayerId)
  deriving DecidableEq

/-- A player who logs in is a new object. -/
def step : Event → Parties
  | .login p =>
      if s.online p then s
      else { s.setPlayer p {} with online := Function.update s.online p true }
  | .invite p invited => s.playerInviteToParty p invited
  | .join p leader => s.playerJoinParty p leader
  | .revoke p invited => s.playerRevokePartyInvitation p invited
  | .passLeadership p newLeader => s.playerPassPartyLeadership p newLeader
  | .leave p inFight => s.playerLeaveParty p inFight
  | .disband ref => s.disband ref
  | .remove p => if s.online p then s.onRemoveCreature p else s

end Parties

end TibServer
