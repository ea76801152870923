import CdPraticas.Replicas

/-!
# Client calls and votes of the leader-based store

`ClientService.read` and `write` with what they call in `LeaderManager`, and the
`vote` calls with `ConsensusModule.appendVote`, cut into the steps between which
other threads of the server can run.
-/

namespace CdPraticas.Transactions
open Replicas

/-- An object of class `Voting`. -/
structure Voting where
  expectedVotes : Nat
  votesReceived : Nat
  result : Bool
  deriving DecidableEq

/-- `new Voting(expectedVotes,callBack)`: the leader counts as one vote. -/
def Voting.new (expectedVotes : Nat) : Voting := ⟨expectedVotes,1,false⟩

inductive Request
  | read (key : String)
  | write (key data : String)
  deriving DecidableEq

inductive Answer
  | void
  | data (key data : String)
  | unavailable
  /-- an exception that the service does not name -/
  | unknown
  deriving DecidableEq

/-- Where a client call stands. -/
inductive Pc
  /-- the test `amILeader()` -/
  | start
  | put
  | answerWrite
  /-- the test in `sendAppendDataToParticipants` -/
  | testAppend
  | sendAppend
  | get
  /-- the test in `requestVote` -/
  | testVote (data : String)
  | submitVote (data : String)
  | sendVoting (transactionId : Nat) (data : String)
  /-- the loop on `completed` -/
  | spin (transactionId : Nat) (data : String)
  /-- `getResultAndRemove` -/
  | isResult (transactionId : Nat) (data : String)
  | remove (transactionId : Nat) (data : String) (result : Bool)
  | answerRead (data : String) (result : Bool)
  /-- a call that another server is asked to make -/
  | forward
  | awaits (inner : Nat)
  | finished
  deriving DecidableEq

/-- A client call, with the `Voting` object it made and the flag its callback sets. -/
structure Call where
  server : Nat
  request : Request
  pc : Pc
  answer : Option Answer
  voting : Option Voting
  completed : Bool
  deriving DecidableEq

def Call.new (server : Nat) (request : Request) : Call := ⟨server,request,.start,none,none,false⟩

def Call.goto (call : Call) (pc : Pc) : Call := { call with pc := pc }
def Call.finish (call : Call) (answer : Answer) : Call := { call with pc := .finished, answer := some answer }

/-- What the answer of the leader makes the answer of the server that asked it. -/
def passOn : Request → Answer → Answer
  | .write _ _, .void => .void
  | .write _ _, _ => .unknown
  | .read _, answer => answer

/-- Where a `vote` call stands at the server that is to count it. -/
inductive VotePc
  /-- the test `amILeader()` -/
  | vote
  /-- `activeVoting.get` -/
  | get
  /-- `votesReceived++` in two accesses -/
  | load (owner : Nat)
  | store (owner : Nat) (votesReceived : Nat)
  /-- the tests of `appendVote` -/
  | test (owner : Nat)
  | setResult (owner : Nat) (result : Bool)
  /-- `activeVoting.put`; `last` where the callback follows -/
  | put (owner : Nat) (last : Bool)
  | complete (owner : Nat)
  | returned
  deriving DecidableEq

/-- A `vote` call over the channel of a server, at the server `target`. -/
structure VoteCall where
  target : Nat
  transactionId : Nat
  vote : Bool
  pc : VotePc
  deriving DecidableEq

end CdPraticas.Transactions
