import Mathlib.Data.BitVec
import Mathlib.Tactic

/-!
The waiting list of the login (`waitlist.cpp`): two lists of players with the times up to
which they are kept, those of premium players first.

A call of `clientLogin` takes no time: the clock stands still while it runs. Its times are
64-bit numbers of milliseconds. To erase an element of one list from the other is undefined.
-/

namespace TibServer

structure Wait where
  timeout : BitVec 64
  playerGUID : BitVec 32
  deriving DecidableEq, Repr

/-- What `clientLogin` asks of a player. -/
structure LoginClient where
  guid : BitVec 32
  canAlwaysLogin : Bool := false
  accountType : Nat := 1
  premium : Bool := false
  deriving DecidableEq, Repr

def ACCOUNT_TYPE_GAMEMASTER : Nat := 4

structure WaitListInfo where
  priorityWaitList : List Wait := []
  waitList : List Wait := []
  deriving DecidableEq, Repr

/-- A `WaitList::iterator`: a place in one of the lists, or the end of `waitList`. -/
inductive WaitIterator
  | priority (n : Nat)
  | waiting (n : Nat)
  | listEnd
  deriving DecidableEq, Repr

/-- `cleanupList`: the difference of a `size_t` and an `int64_t` is a `size_t`, which is at
most 0 only if it is 0. -/
def cleanupList (time : BitVec 64) (list : List Wait) : List Wait :=
  list.filter fun e => !decide (e.timeout - time ≤ 0)

/-- `WaitingList::getTime`. -/
def getTime (slot : Nat) : Nat :=
  if slot < 5 then 5
  else if slot < 10 then 10
  else if slot < 20 then 20
  else if slot < 50 then 60
  else 120

def getTimeout (slot : Nat) : Nat := getTime slot + 15

/-- The time up to which a client in a slot is kept. -/
def timeoutOf (now : BitVec 64) (slot : Nat) : BitVec 64 :=
  now + BitVec.ofNat 64 (getTimeout slot * 1000)

namespace WaitListInfo

variable (info : WaitListInfo)

/-- Both lists, in the order in which clients are let in. -/
def queue : List Wait := info.priorityWaitList ++ info.waitList

/-- `WaitListInfo::findClient`. -/
def findClient (guid : BitVec 32) : WaitIterator × Nat :=
  match info.priorityWaitList.findIdx? fun e => e.playerGUID == guid with
  | some n => (.priority n, n + 1)
  | none =>
      match info.waitList.findIdx? fun e => e.playerGUID == guid with
      | some n => (.waiting n, info.priorityWaitList.length + n + 1)
      | none => (.listEnd, info.priorityWaitList.length + info.waitList.length + 1)

/-- `WaitingList::getClientSlot`. -/
def getClientSlot (guid : BitVec 32) : Nat :=
  match info.findClient guid with
  | (.listEnd, _) => 0
  | (_, slot) => slot

/-- `info->waitList.erase(it)`. -/
def eraseWaiting : WaitIterator → Option WaitListInfo
  | .waiting n => some { info with waitList := info.waitList.eraseIdx n }
  | _ => none

/-- `it->timeout = timeout`. -/
def setTimeout (it : WaitIterator) (timeout : BitVec 64) : WaitListInfo :=
  match it with
  | .priority n =>
      { info with
        priorityWaitList := info.priorityWaitList.modify n fun e => { e with timeout } }
  | .waiting n => { info with waitList := info.waitList.modify n fun e => { e with timeout } }
  | .listEnd => info

/-- `WaitingList::clientLogin`; no result where it is undefined. -/
def clientLogin (client : LoginClient) (maxPlayers : BitVec 32) (playersOnline : Nat)
    (now : BitVec 64) : Option (Bool × WaitListInfo) :=
  if client.canAlwaysLogin ∨ client.accountType ≥ ACCOUNT_TYPE_GAMEMASTER then some (true, info)
  else if maxPlayers = 0 ∨ (info.priorityWaitList.isEmpty ∧ info.waitList.isEmpty ∧
      playersOnline < maxPlayers.toNat) then some (true, info)
  else
    let info : WaitListInfo :=
      { priorityWaitList := cleanupList now info.priorityWaitList
        waitList := cleanupList now info.waitList }
    match info.findClient client.guid with
    | (.listEnd, _) =>
        let slot := info.priorityWaitList.length
        if client.premium then
          some (false, { info with
            priorityWaitList :=
              info.priorityWaitList ++ [⟨timeoutOf now (slot + 1), client.guid⟩] })
        else
          let slot := slot + info.waitList.length
          some (false, { info with
            waitList := info.waitList ++ [⟨timeoutOf now (slot + 1), client.guid⟩] })
    | (it, slot) =>
        if playersOnline + slot ≤ maxPlayers.toNat then
          (info.eraseWaiting it).map fun info => (true, info)
        else some (false, info.setTimeout it (timeoutOf now slot))

end WaitListInfo

end TibServer
