import CdPraticas.Groups

/-!
# The servers of the leader-based store

`LeaderManager` of the first project as a value: who it takes for the leader,
its database and the running votes, and what its message handlers make of it.
Every server of a group handles the same views; the leader alone takes writes
and hands them on to the others.
-/

namespace CdPraticas.Replicas
open Groups

/-- The messages of `com.company.messages`. -/
inductive Message
  | newLeader (serverName : List Char)
  | whoIsLeader
  | appendData (key data : String)
  | consensusVoting (transactionId : Nat) (key data : String)
  deriving DecidableEq

/-- The fields of `LeaderManager` that are used, with its database and the
    transactions of its `ConsensusModule`. A `Voting` object is known by the
    client call that made it. `channel` says whether there is one: its target
    does not depend on the leader. -/
structure LeaderManager where
  group : SpreadGroup
  myServerName : List Char
  leaderServerName : List Char
  channel : Bool
  spreadMembersSize : Nat
  database : String → Option String
  activeVoting : Nat → Option Nat

/-- A server that has just connected under `name`. -/
def LeaderManager.new (name host : List Char) : LeaderManager :=
  ⟨privateGroup name host,name,[],false,0,fun _ => none,fun _ => none⟩

def LeaderManager.amILeader (self : LeaderManager) : Bool := self.leaderServerName == self.myServerName
def LeaderManager.doIHaveLeader (self : LeaderManager) : Bool := !self.leaderServerName.isEmpty
def LeaderManager.put (self : LeaderManager) (key data : String) : LeaderManager :=
  { self with database := Function.update self.database key (some data) }

/-- The UTF-16 units of a character. -/
def units (c : Char) : List Nat :=
  if c.toNat < 0x10000 then [c.toNat]
  else [0xD800 + (c.toNat - 0x10000) / 0x400,0xDC00 + (c.toNat - 0x10000) % 0x400]

/-- `String.hashCode`. -/
def hashCode (text : String) : Nat := (text.toList.flatMap units).foldl (fun hash unit => (31 * hash + unit) % 2 ^ 32) 0

/-- What a handler does: the new value, the messages it multicasts and the vote
    it casts over its channel, under the transaction. -/
structure Outcome where
  manager : LeaderManager
  sends : List Message
  vote : Option (Nat × Bool)

variable (self : LeaderManager)

/-- The loop of `notifyServerLeave`; `none` where a name does not parse. -/
def maxCardinality : List SpreadGroup → Nat → Option Nat
  | [], max => some max
  | server :: rest, max =>
    match (getServerName server).bind lastDigit with
    | none => none
    | some cardinality => maxCardinality rest (if cardinality > max then cardinality else max)

/-- `"Server" + max`. -/
def serverName (max : Nat) : List Char := "Server".toList ++ Nat.toDigits 10 max

theorem serverName_eq (max : Nat) : serverName max = "Server".toList ++ Nat.toDigits 10 max := rfl

def sendIAmLeaderMessage : Outcome := ⟨self,[.newLeader self.leaderServerName],none⟩

/-- The end of `notifyServerLeave`: whoever is leader now says so. -/
def notifyIfLeader : Outcome := if self.amILeader then sendIAmLeaderMessage self else ⟨self,[],none⟩

def notifyServerLeave (group : SpreadGroup) (members : List SpreadGroup) : Outcome :=
  match getServerName group with
  | none => ⟨self,[],none⟩
  | some gone =>
    if gone = self.leaderServerName then
      match maxCardinality members 0 with
      | none => ⟨self,[],none⟩
      | some max => notifyIfLeader { self with leaderServerName := serverName max }
    else notifyIfLeader self

def assignNewLeader (name : List Char) : LeaderManager :=
  if name ≠ self.myServerName then { self with leaderServerName := name, channel := true } else self

def assignFirstLeader (joined : SpreadGroup) : LeaderManager :=
  match getServerName joined with
  | none => self
  | some name => { self with leaderServerName := name }

def whoIsLeaderRequestedNotifyParticipantsWhoIsLeader : Outcome := notifyIfLeader self

def appendDataReceived (key data : String) : LeaderManager := if self.amILeader then self else self.put key data

/-- Without a local value `localData.getData()` throws, and without a channel the
    stub does: no vote is cast then. -/
def handleVoteRequest (transactionId : Nat) (key data : String) : Outcome :=
  if self.amILeader then ⟨self,[],none⟩
  else
    match self.database key with
    | none => ⟨self,[],none⟩
    | some localData =>
      if self.channel then ⟨self,[],some (transactionId,hashCode localData == hashCode data)⟩ else ⟨self,[],none⟩

/-- The dispatch of `messageReceived` for a regular message, -/
def messageReceived : Message → Outcome
  | .newLeader name => ⟨assignNewLeader self name,[],none⟩
  | .whoIsLeader => whoIsLeaderRequestedNotifyParticipantsWhoIsLeader self
  | .appendData key data => ⟨appendDataReceived self key data,[],none⟩
  | .consensusVoting transactionId key data => handleVoteRequest self transactionId key data

def updateMembersSize (length : Nat) : LeaderManager := { self with spreadMembersSize := length }

/-- and for a regular membership message. -/
def membershipReceived (info : View) : Outcome :=
  let updated := updateMembersSize self info.members.length
  match info.change with
  | .join joined =>
    if info.members.length = 1 then ⟨assignFirstLeader updated joined,[],none⟩
    else if updated.doIHaveLeader then ⟨updated,[],none⟩
    else ⟨updated,[.whoIsLeader],none⟩
  | .leave left => notifyServerLeave updated left info.members
  | .disconnect disconnected => notifyServerLeave updated disconnected info.members
  | .network => ⟨updated,[],none⟩

end CdPraticas.Replicas
