import CdPraticas.Calls
import CdPraticas.Runs

/-!
# The storage cluster

The servers with their client calls, the group as Spread sees it and the
messages in flight, and one step of the whole: a call comes in, a call goes one
step on, a message is delivered, the group changes, a server process starts.
-/

namespace CdPraticas.Cluster
open Groups Store Messages Handlers Calls Runs

/-- The whole system. -/
structure State where
  members : List SpreadGroup
  servers : SpreadGroup → LeaderManager
  calls : Nat → Option Call
  network : Multiset Packet

inductive Action
  | call (i : Nat) (server : SpreadGroup) (request : Request)
  | thread (i : Nat) (choice : Choice)
  /-- `sent` is false when the send of the handler throws -/
  | deliver (packet : Packet) (sent : Bool)
  | view (info : MembershipInfo)
  | boot (server : SpreadGroup)

/-- The effect of one callback invocation on the call that made it. -/
def invoke (i : Nat) (call : Call) : Callback → Call
  | .dataReceived owner dataDto =>
    if owner = i then { call with response := some dataDto, responseReceived := true } else call
  | .allResponsesReceived owner => if owner = i then { call with responseReceived := true } else call
  | .conflict owner conflictSender => if owner = i then { call with conflict := some conflictSender } else call

/-- The sends of a handler that answers a WANT_TO_WRITE. -/
def acknowledges (sends : List Send) : Bool :=
  sends.any fun
    | .unicast (.wantToWriteResponse _) _ => true
    | _ => false

/-- What a delivery does to call `i`: the callbacks that are invoked on it, and
    the record of who has acknowledged it. -/
def notify (sends : List Send) (callbacks : List Callback) (packet : Packet) (sent : Bool) (i : Nat) (call : Call) : Call :=
  let called := callbacks.foldl (invoke i) call
  if packet.call = some i ∧ sent = true ∧ acknowledges sends = true then
    { called with acknowledged := packet.receiver :: called.acknowledged }
  else called

/-- One step. The configuration service takes part in the group but ignores every
    regular message. -/
def step (settings : Settings) : Action → State → Option State
  | .call i server request, s =>
    if s.calls i = none ∧ isService server = false then
      some { s with calls := Function.update s.calls i
                      (some (Call.start (s.servers server).waitStartupDataUpdate server request)) }
    else none
  | .thread i choice, s =>
    match s.calls i with
    | none => none
    | some call =>
      let self := s.servers call.server
      match next settings self.numberOfParticipants (self.database.findById call.request.key) call choice with
      | none => none
      | some (effect,pc) =>
        some { s with servers := Function.update s.servers call.server (effect.apply i self)
                      calls := Function.update s.calls i (some (call.goto pc))
                      network := s.network + packets s.members call.server (some i) effect.sends }
  | .deliver packet sent, s =>
    if packet ∈ s.network then
      if isService packet.receiver then some { s with network := s.network.erase packet }
      else
        let outcome := messageReceived settings (s.servers packet.receiver) packet.receiver packet.sender packet.body
        some { s with servers := Function.update s.servers packet.receiver outcome.manager
                      calls := fun i => (s.calls i).map (notify outcome.sends outcome.callbacks packet sent i)
                      network := s.network.erase packet +
                        (if sent then packets s.members packet.receiver packet.call outcome.sends else 0) }
    else none
  | .view info, s =>
    some { s with members := info.members
                  network := s.network +
                    (info.members.map fun member => ⟨member,member,.membership info,none⟩ : List Packet) }
  | .boot server, s =>
    some { s with servers := Function.update s.servers server (.initial (s.servers server).database)
                  calls := fun i => (s.calls i).filter fun call => call.server ≠ server }

/-! ### What a step does -/

section
variable {settings : Settings} {s t : State} {i : Nat} {packet : Packet} {sent : Bool}

theorem step_started {server : SpreadGroup} {request : Request} (move : step settings (.call i server request) s = some t) :
    s.calls i = none ∧ isService server = false ∧
      t = { s with calls := Function.update s.calls i
                     (some (Call.start (s.servers server).waitStartupDataUpdate server request)) } := by
  simp only [step] at move
  split_ifs at move with fresh
  cases move
  exact ⟨fresh.1,fresh.2,rfl⟩

theorem step_moved {choice : Choice} (move : step settings (.thread i choice) s = some t) :
    ∃ call effect pc, s.calls i = some call ∧
      next settings (s.servers call.server).numberOfParticipants
        ((s.servers call.server).database.findById call.request.key) call choice = some (effect,pc) ∧
      t = { s with servers := Function.update s.servers call.server (effect.apply i (s.servers call.server))
                   calls := Function.update s.calls i (some (call.goto pc))
                   network := s.network + packets s.members call.server (some i) effect.sends } := by
  simp only [step] at move
  split at move
  · cases move
  next call found =>
  split at move
  · cases move
  next effect pc moved =>
  cases move
  exact ⟨call,effect,pc,found,moved,rfl⟩

/-- The configuration service lets everything pass, -/
theorem step_service (service : isService packet.receiver = true) (move : step settings (.deliver packet sent) s = some t) :
    packet ∈ s.network ∧ t = { s with network := s.network.erase packet } := by
  simp only [step,service] at move
  split at move
  case isFalse => cases move
  case isTrue flying =>
    cases move
    exact ⟨flying,rfl⟩

/-- and a server handles it. -/
theorem step_handled (server : isService packet.receiver = false) (move : step settings (.deliver packet sent) s = some t) :
    packet ∈ s.network ∧ ∃ outcome,
      messageReceived settings (s.servers packet.receiver) packet.receiver packet.sender packet.body = outcome ∧
      t = { s with servers := Function.update s.servers packet.receiver outcome.manager
                   calls := fun i => (s.calls i).map (notify outcome.sends outcome.callbacks packet sent i)
                   network := s.network.erase packet +
                     (if sent then packets s.members packet.receiver packet.call outcome.sends else 0) } := by
  simp only [step,server] at move
  split at move
  case isFalse => cases move
  case isTrue flying =>
    cases move
    exact ⟨flying,_,rfl,rfl⟩

/-- A delivery leaves the other servers alone. -/
theorem deliver_elsewhere {server : SpreadGroup} (other : server ≠ packet.receiver)
    (move : step settings (.deliver packet sent) s = some t) : t.servers server = s.servers server := by
  cases service : isService packet.receiver with
  | true =>
    obtain ⟨_,rfl⟩ := step_service service move
    rfl
  | false =>
    obtain ⟨_,_,_,rfl⟩ := step_handled service move
    exact Function.update_of_ne other ..

/-- A delivery at a server whose handler can send: `outcome` is what it does. -/
structure Delivered (settings : Settings) (packet : Packet) (outcome : Outcome) (s t : State) : Prop where
  flying : packet ∈ s.network
  handles : messageReceived settings (s.servers packet.receiver) packet.receiver packet.sender packet.body = outcome
  members : t.members = s.members
  here : t.servers packet.receiver = outcome.manager
  elsewhere : ∀ server, server ≠ packet.receiver → t.servers server = s.servers server
  calls : ∀ i, t.calls i = (s.calls i).map (notify outcome.sends outcome.callbacks packet true i)
  network : t.network = s.network.erase packet + packets s.members packet.receiver packet.call outcome.sends

theorem step_delivered (server : isService packet.receiver = false) (move : step settings (.deliver packet true) s = some t) :
    ∃ outcome, Delivered settings packet outcome s t := by
  obtain ⟨flying,outcome,handles,rfl⟩ := step_handled server move
  exact ⟨outcome,flying,handles,rfl,Function.update_self ..,fun _ other => Function.update_of_ne other ..,fun _ => rfl,rfl⟩

end

end CdPraticas.Cluster
