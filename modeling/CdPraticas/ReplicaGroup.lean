import CdPraticas.Transactions
import CdPraticas.Runs

/-!
# The group of the leader-based store

The servers with their client calls and votes, the group as Spread sees it and
the messages in flight. The members handle each change of the group before the
next one happens, in any order among themselves.
-/

namespace CdPraticas.ReplicaGroup
open Groups Replicas Transactions Runs

/-- A message on its way to one server. -/
structure Packet where
  receiver : Nat
  message : Message
  deriving DecidableEq

/-- The whole system. Servers are numbered as they join, and a server that has
    left does not come back: it would be a new one. `unhandled` are the members
    that have still to handle the current view. `votes` holds for a server the
    vote its listener is casting. -/
structure State where
  started : Nat
  members : List Nat
  view : View
  unhandled : List Nat
  managers : Nat → LeaderManager
  network : Multiset Packet
  votes : Nat → Option VoteCall
  calls : Nat → Option Call

inductive Action
  | join (name host : List Char)
  /-- `left` is true when it leaves the group and false when it disconnects -/
  | depart (server : Nat) (left : Bool)
  | handle (server : Nat)
  | deliver (packet : Packet)
  | vote (server : Nat)
  | call (i : Nat) (server : Nat) (request : Request)
  /-- `fresh` is the transaction or the call that the step makes, if it makes one -/
  | thread (i : Nat) (fresh : Nat)
  deriving DecidableEq

def groups (managers : Nat → LeaderManager) (members : List Nat) : List SpreadGroup :=
  members.map fun member => (managers member).group

def packets (members : List Nat) (sends : List Message) : Multiset Packet :=
  (sends.flatMap fun message => members.map fun member => ⟨member,message⟩ : List Packet)

/-- What `server` multicasts. Only a member has a connection to the group. -/
def State.multicast (s : State) (server : Nat) (sends : List Message) : State :=
  if server ∈ s.members then { s with network := s.network + packets s.members sends } else s

def State.setManager (s : State) (server : Nat) (manager : LeaderManager) : State :=
  { s with managers := Function.update s.managers server manager }
def State.setCall (s : State) (i : Nat) (call : Call) : State :=
  { s with calls := Function.update s.calls i (some call) }
def State.setVote (s : State) (server : Nat) (vote : Option VoteCall) : State :=
  { s with votes := Function.update s.votes server vote }

/-- The server's listener has handled something. Where it casts a vote it waits
    for the server `reach` names; where there is none the call fails at once. -/
def State.handled (s : State) (reach : Nat → Option Nat) (server : Nat) (outcome : Outcome) : State :=
  let after := (s.setManager server outcome.manager).multicast server outcome.sends
  match outcome.vote, reach server with
  | some (transactionId,vote), some target => after.setVote server (some ⟨target,transactionId,vote,.vote⟩)
  | _, _ => after

/-- The next step of a `vote` call. -/
def stepVote (s : State) (server : Nat) (call : VoteCall) : State :=
  let goto (s : State) (pc : VotePc) : State := s.setVote server (some { call with pc := pc })
  let manager := s.managers call.target
  match call.pc with
  | .vote => goto s (if manager.amILeader then .get else .returned)
  -- `get` of a transaction that is not there gives null, and the call on it throws.
  | .get =>
    match manager.activeVoting call.transactionId with
    | some owner => goto s (.load owner)
    | none => goto s .returned
  | .load owner =>
    match (s.calls owner).bind Call.voting with
    | some voting => goto s (.store owner voting.votesReceived)
    | none => goto s .returned
  | .store owner votesReceived =>
    let counted (call : Call) : Call :=
      { call with voting := call.voting.map fun voting => { voting with votesReceived := votesReceived + 1 } }
    goto { s with calls := Function.update s.calls owner ((s.calls owner).map counted) } (.test owner)
  | .test owner =>
    match (s.calls owner).bind Call.voting with
    | some voting =>
      if call.vote = false then goto s (.setResult owner false)
      else if voting.expectedVotes = voting.votesReceived then goto s (.setResult owner true)
      else goto s (.put owner false)
    | none => goto s .returned
  | .setResult owner result =>
    let decided (call : Call) : Call :=
      { call with voting := call.voting.map fun voting => { voting with result := result } }
    goto { s with calls := Function.update s.calls owner ((s.calls owner).map decided) }
      (if result then .put owner true else .complete owner)
  | .put owner last =>
    goto (s.setManager call.target
        { manager with activeVoting := Function.update manager.activeVoting call.transactionId (some owner) })
      (if last then .complete owner else .returned)
  | .complete owner =>
    let completed (call : Call) : Call := { call with completed := true }
    goto { s with calls := Function.update s.calls owner ((s.calls owner).map completed) } .returned
  | .returned => s.setVote server none

/-- The next step of a client call. -/
def stepCall (reach : Nat → Option Nat) (s : State) (i fresh : Nat) (call : Call) : Option State :=
  let manager := s.managers call.server
  let goto (s : State) (pc : Pc) : State := s.setCall i (call.goto pc)
  match call.pc, call.request with
  | .start, .write _ _ => some (goto s (if manager.amILeader then .put else .forward))
  | .start, .read _ => some (goto s (if manager.amILeader then .get else .forward))
  | .put, .write key data => some (goto (s.setManager call.server (manager.put key data)) .answerWrite)
  | .answerWrite, .write _ _ => some (s.setCall i { call with pc := .testAppend, answer := some .void })
  | .testAppend, .write _ _ => some (goto s (if manager.amILeader then .sendAppend else .finished))
  | .sendAppend, .write key data => some (goto (s.multicast call.server [.appendData key data]) .finished)
  -- `getData()` of an absent value throws.
  | .get, .read key =>
    match manager.database key with
    | some data => some (goto s (.testVote data))
    | none => some (s.setCall i (call.finish .unknown))
  | .testVote data, .read _ =>
    some (if manager.amILeader then goto s (.submitVote data) else s.setCall i (call.finish .unavailable))
  | .submitVote data, .read _ =>
    if manager.activeVoting fresh = none then
      some ((s.setManager call.server
          { manager with activeVoting := Function.update manager.activeVoting fresh (some i) }).setCall i
        { call with pc := .sendVoting fresh data, voting := some (.new manager.spreadMembersSize) })
    else none
  | .sendVoting transactionId data, .read key =>
    some (goto (s.multicast call.server [.consensusVoting transactionId key data]) (.spin transactionId data))
  | .spin transactionId data, .read _ => if call.completed then some (goto s (.isResult transactionId data)) else none
  | .isResult transactionId data, .read _ =>
    match (manager.activeVoting transactionId).bind fun owner => (s.calls owner).bind Call.voting with
    | some voting => some (goto s (.remove transactionId data voting.result))
    | none => some (s.setCall i (call.finish .unknown))
  | .remove transactionId data result, .read _ =>
    some (goto (s.setManager call.server
        { manager with activeVoting := Function.update manager.activeVoting transactionId none })
      (.answerRead data result))
  | .answerRead data result, .read key =>
    some (s.setCall i (call.finish (if result then .data key data else .unavailable)))
  -- Without a channel the stub cannot be made.
  | .forward, request =>
    match (if manager.channel then reach call.server else none) with
    | some target =>
      if s.calls fresh = none then some ((goto s (.awaits fresh)).setCall fresh (.new target request)) else none
    | none => some (s.setCall i (call.finish .unknown))
  | .awaits inner, request =>
    match (s.calls inner).bind Call.answer with
    | some answer => some (s.setCall i (call.finish (passOn request answer)))
    | none => none
  | _, _ => none

/-- The steps of `stepCall`, one constructor for each branch. -/
inductive Turn (reach : Nat → Option Nat) (s : State) (i fresh : Nat) (call : Call) : State → Prop
  | leadsWrite {key data} (write : call.request = .write key data) (here : call.pc = .start)
      (leads : (s.managers call.server).amILeader = true) : Turn reach s i fresh call (s.setCall i (call.goto .put))
  | leadsRead {key} (read : call.request = .read key) (here : call.pc = .start)
      (leads : (s.managers call.server).amILeader = true) : Turn reach s i fresh call (s.setCall i (call.goto .get))
  | refers (here : call.pc = .start) (follows : (s.managers call.server).amILeader = false) :
      Turn reach s i fresh call (s.setCall i (call.goto .forward))
  | put {key data} (write : call.request = .write key data) (here : call.pc = .put) :
      Turn reach s i fresh call
        ((s.setManager call.server ((s.managers call.server).put key data)).setCall i (call.goto .answerWrite))
  | answerWrite {key data} (write : call.request = .write key data) (here : call.pc = .answerWrite) :
      Turn reach s i fresh call (s.setCall i { call with pc := .testAppend, answer := some .void })
  | stillLeads {key data} (write : call.request = .write key data) (here : call.pc = .testAppend)
      (leads : (s.managers call.server).amILeader = true) : Turn reach s i fresh call (s.setCall i (call.goto .sendAppend))
  | noLongerLeads {key data} (write : call.request = .write key data) (here : call.pc = .testAppend)
      (follows : (s.managers call.server).amILeader = false) :
      Turn reach s i fresh call (s.setCall i (call.goto .finished))
  | sendAppend {key data} (write : call.request = .write key data) (here : call.pc = .sendAppend) :
      Turn reach s i fresh call ((s.multicast call.server [.appendData key data]).setCall i (call.goto .finished))
  | get {key data} (read : call.request = .read key) (here : call.pc = .get)
      (stored : (s.managers call.server).database key = some data) :
      Turn reach s i fresh call (s.setCall i (call.goto (.testVote data)))
  | absent {key} (read : call.request = .read key) (here : call.pc = .get)
      (none : (s.managers call.server).database key = none) :
      Turn reach s i fresh call (s.setCall i (call.finish .unknown))
  | mayVote {key data} (read : call.request = .read key) (here : call.pc = .testVote data)
      (leads : (s.managers call.server).amILeader = true) :
      Turn reach s i fresh call (s.setCall i (call.goto (.submitVote data)))
  | mayNotVote {key data} (read : call.request = .read key) (here : call.pc = .testVote data)
      (follows : (s.managers call.server).amILeader = false) :
      Turn reach s i fresh call (s.setCall i (call.finish .unavailable))
  | submitVote {key data} (read : call.request = .read key) (here : call.pc = .submitVote data)
      (unused : (s.managers call.server).activeVoting fresh = none) :
      Turn reach s i fresh call ((s.setManager call.server { s.managers call.server with
          activeVoting := Function.update (s.managers call.server).activeVoting fresh (some i) }).setCall i
        { call with pc := .sendVoting fresh data, voting := some (.new (s.managers call.server).spreadMembersSize) })
  | sendVoting {key transactionId data} (read : call.request = .read key) (here : call.pc = .sendVoting transactionId data) :
      Turn reach s i fresh call ((s.multicast call.server [.consensusVoting transactionId key data]).setCall i
        (call.goto (.spin transactionId data)))
  | spin {key transactionId data} (read : call.request = .read key) (here : call.pc = .spin transactionId data)
      (completed : call.completed = true) :
      Turn reach s i fresh call (s.setCall i (call.goto (.isResult transactionId data)))
  | isResult {key transactionId data voting} (read : call.request = .read key) (here : call.pc = .isResult transactionId data)
      (active : ((s.managers call.server).activeVoting transactionId).bind
        (fun owner => (s.calls owner).bind Call.voting) = some voting) :
      Turn reach s i fresh call (s.setCall i (call.goto (.remove transactionId data voting.result)))
  | noResult {key transactionId data} (read : call.request = .read key) (here : call.pc = .isResult transactionId data)
      (gone : ((s.managers call.server).activeVoting transactionId).bind
        (fun owner => (s.calls owner).bind Call.voting) = none) :
      Turn reach s i fresh call (s.setCall i (call.finish .unknown))
  | remove {key transactionId data result} (read : call.request = .read key)
      (here : call.pc = .remove transactionId data result) :
      Turn reach s i fresh call ((s.setManager call.server { s.managers call.server with
          activeVoting := Function.update (s.managers call.server).activeVoting transactionId none }).setCall i
        (call.goto (.answerRead data result)))
  | answerRead {key data result} (read : call.request = .read key) (here : call.pc = .answerRead data result) :
      Turn reach s i fresh call (s.setCall i (call.finish (if result then .data key data else .unavailable)))
  | forward {target} (here : call.pc = .forward) (channel : (s.managers call.server).channel = true)
      (reached : reach call.server = some target) (unused : s.calls fresh = none) :
      Turn reach s i fresh call
        ((s.setCall i (call.goto (.awaits fresh))).setCall fresh (.new target call.request))
  | nowhere (here : call.pc = .forward) (closed : (s.managers call.server).channel = false ∨ reach call.server = none) :
      Turn reach s i fresh call (s.setCall i (call.finish .unknown))
  | passesOn {inner answer} (here : call.pc = .awaits inner)
      (answered : (s.calls inner).bind Call.answer = some answer) :
      Turn reach s i fresh call (s.setCall i (call.finish (passOn call.request answer)))

theorem stepCall_turn {reach : Nat → Option Nat} {s t : State} {i fresh : Nat} {call : Call}
    (moved : stepCall reach s i fresh call = some t) : Turn reach s i fresh call t := by
  unfold stepCall at moved
  dsimp only at moved
  split at moved
  case h_1 here write =>
    cases moved
    cases leads : (s.managers call.server).amILeader with
    | true => exact .leadsWrite write here leads
    | false => exact .refers here leads
  case h_2 here read =>
    cases moved
    cases leads : (s.managers call.server).amILeader with
    | true => exact .leadsRead read here leads
    | false => exact .refers here leads
  case h_3 here write => cases moved; exact .put write here
  case h_4 here write => cases moved; exact .answerWrite write here
  case h_5 here write =>
    cases moved
    cases leads : (s.managers call.server).amILeader with
    | true => exact .stillLeads write here leads
    | false => exact .noLongerLeads write here leads
  case h_6 here write => cases moved; exact .sendAppend write here
  case h_7 here read =>
    split at moved
    next stored => cases moved; exact .get read here stored
    next none => cases moved; exact .absent read here none
  case h_8 here read =>
    cases moved
    cases leads : (s.managers call.server).amILeader with
    | true => exact .mayVote read here leads
    | false => exact .mayNotVote read here leads
  case h_9 here read =>
    split at moved
    next unused => cases moved; exact .submitVote read here unused
    next => cases moved
  case h_10 here read => cases moved; exact .sendVoting read here
  case h_11 here read =>
    split at moved
    next completed => cases moved; exact .spin read here completed
    next => cases moved
  case h_12 here read =>
    split at moved
    next active => cases moved; exact .isResult read here active
    next gone => cases moved; exact .noResult read here gone
  case h_13 here read => cases moved; exact .remove read here
  case h_14 here read => cases moved; exact .answerRead read here
  case h_15 here =>
    split at moved
    next reached =>
      split at reached
      next channel =>
        split at moved
        next unused => cases moved; exact .forward here channel reached unused
        next => cases moved
      next => cases reached
    next closed =>
      cases moved
      refine .nowhere here ?_
      cases channel : (s.managers call.server).channel with
      | false => exact .inl rfl
      | true => exact .inr (by simpa [channel] using closed)
  case h_16 here =>
    split at moved
    next answered => cases moved; exact .passesOn here answered
    next => cases moved
  case h_17 => cases moved

/-- One step. `reach` names the server whose services a channel leads to. -/
def step (reach : Nat → Option Nat) : Action → State → Option State
  | .join name host, s =>
    if s.unhandled = [] then
      let managers := Function.update s.managers s.started (.new name host)
      let members := s.members ++ [s.started]
      some { s with started := s.started + 1
                    members := members
                    view := ⟨.join (privateGroup name host),groups managers members⟩
                    unhandled := members
                    managers := managers }
    else none
  | .depart server left, s =>
    if s.unhandled = [] ∧ server ∈ s.members then
      let members := s.members.erase server
      let gone := (s.managers server).group
      some { s with members := members
                    view := ⟨if left then .leave gone else .disconnect gone,groups s.managers members⟩
                    unhandled := members
                    network := s.network.filter fun packet => packet.receiver ≠ server }
    else none
  | .handle server, s =>
    if server ∈ s.unhandled ∧ s.votes server = none then
      some { s.handled reach server (membershipReceived (s.managers server) s.view) with
        unhandled := s.unhandled.erase server }
    else none
  | .deliver packet, s =>
    if packet ∈ s.network ∧ s.votes packet.receiver = none then
      some ({ s with network := s.network.erase packet }.handled reach packet.receiver
        (messageReceived (s.managers packet.receiver) packet.message))
    else none
  | .vote server, s => (s.votes server).map (stepVote s server)
  | .call i server request, s =>
    if s.calls i = none ∧ server < s.started then some (s.setCall i (.new server request)) else none
  | .thread i fresh, s => (s.calls i).bind (stepCall reach s i fresh)

/-- The steps, one constructor for each action. -/
inductive Stepped (reach : Nat → Option Nat) (s : State) : Action → State → Prop
  | join {name host} (calm : s.unhandled = []) :
      Stepped reach s (.join name host)
        { s with started := s.started + 1
                 members := s.members ++ [s.started]
                 view := ⟨.join (privateGroup name host),
                   groups (Function.update s.managers s.started (.new name host)) (s.members ++ [s.started])⟩
                 unhandled := s.members ++ [s.started]
                 managers := Function.update s.managers s.started (.new name host) }
  | depart {server left} (calm : s.unhandled = []) (member : server ∈ s.members) :
      Stepped reach s (.depart server left)
        { s with members := s.members.erase server
                 view := ⟨if left then .leave (s.managers server).group else .disconnect (s.managers server).group,
                   groups s.managers (s.members.erase server)⟩
                 unhandled := s.members.erase server
                 network := s.network.filter fun packet => packet.receiver ≠ server }
  | handle {server} (due : server ∈ s.unhandled) (free : s.votes server = none) :
      Stepped reach s (.handle server)
        { s.handled reach server (membershipReceived (s.managers server) s.view) with
          unhandled := s.unhandled.erase server }
  | deliver {packet} (flying : packet ∈ s.network) (free : s.votes packet.receiver = none) :
      Stepped reach s (.deliver packet)
        ({ s with network := s.network.erase packet }.handled reach packet.receiver
          (messageReceived (s.managers packet.receiver) packet.message))
  | vote {server vote} (voting : s.votes server = some vote) : Stepped reach s (.vote server) (stepVote s server vote)
  | call {i server request} (unused : s.calls i = none) (known : server < s.started) :
      Stepped reach s (.call i server request) (s.setCall i (.new server request))
  | thread {i fresh call t} (called : s.calls i = some call) (moved : stepCall reach s i fresh call = some t) :
      Stepped reach s (.thread i fresh) t

theorem stepped {reach : Nat → Option Nat} {s t : State} {a : Action} (move : step reach a s = some t) : Stepped reach s a t := by
  cases a with
  | join name host =>
    simp only [step] at move
    split_ifs at move with calm
    cases move
    exact .join calm
  | depart server left =>
    simp only [step] at move
    split at move
    case isFalse => cases move
    case isTrue there =>
      cases move
      exact .depart there.1 there.2
  | handle server =>
    simp only [step] at move
    split_ifs at move with there
    cases move
    exact .handle there.1 there.2
  | deliver packet =>
    simp only [step] at move
    split_ifs at move with there
    cases move
    exact .deliver there.1 there.2
  | vote server =>
    obtain ⟨vote,voting,rfl⟩ := Option.map_eq_some_iff.mp move
    exact .vote voting
  | call i server request =>
    simp only [step] at move
    split_ifs at move with there
    cases move
    exact .call there.1 there.2
  | thread i fresh =>
    obtain ⟨call,called,moved⟩ := Option.bind_eq_some_iff.mp move
    exact .thread called moved

/-- Nobody has joined yet. -/
def initial : State := ⟨0,[],⟨.network,[]⟩,[],fun _ => .new [] [],0,fun _ => none,fun _ => none⟩

end CdPraticas.ReplicaGroup
