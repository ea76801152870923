import CdPraticas.Elections

/-!
# What the servers store

A database changes in two places: the leader puts a client's write into its
own, and a follower puts in what an APPEND_DATA brings it.
-/

namespace CdPraticas.Copies
open Groups Replicas Transactions ReplicaGroup Elections Runs

/-- A value stored under a key at a server. -/
structure Entry where
  server : Nat
  key : String
  data : String
  deriving DecidableEq

/-- What a step stores. -/
def stored (s : State) : Action → Option Entry
  | .deliver ⟨server,.appendData key data⟩ => if (s.managers server).amILeader then none else some ⟨server,key,data⟩
  | .thread i _ =>
    match s.calls i with
    | some call =>
      match call.pc, call.request with
      | .put, .write key data => some ⟨call.server,key,data⟩
      | _, _ => none
    | none => none
  | _ => none

/-- The value of one key at one server after a step that stores `entry`. -/
def after (entry : Option Entry) (server : Nat) (key : String) (before : Option String) : Option String :=
  match entry with
  | some entry => if entry.server = server ∧ entry.key = key then some entry.data else before
  | none => before

@[simp] theorem after_none (server : Nat) (key : String) (before : Option String) : after none server key before = before := rfl

/-- A client call on `server` is at one of `stages`. -/
def Underway (stages : List Pc) (server : Nat) (request : Request) (s : State) : Prop :=
  ∃ i call, s.calls i = some call ∧ call.server = server ∧ call.request = request ∧ call.pc ∈ stages

section
variable {s t : State} {reach : Nat → Option Nat}

theorem multicast_managers (server : Nat) (sends : List Message) : (s.multicast server sends).managers = s.managers := by
  unfold State.multicast
  split <;> rfl

theorem handled_managers (server : Nat) (outcome : Outcome) :
    (s.handled reach server outcome).managers = Function.update s.managers server outcome.manager := by
  unfold State.handled
  dsimp only
  split <;> exact multicast_managers ..

theorem stored_cases {a : Action} {entry : Entry} (stores : stored s a = some entry) :
    a = .deliver ⟨entry.server,.appendData entry.key entry.data⟩ ∧ (s.managers entry.server).amILeader = false ∨
    ∃ i fresh call, a = .thread i fresh ∧ s.calls i = some call ∧ call.server = entry.server ∧
      call.request = .write entry.key entry.data ∧ call.pc = .put := by
  unfold stored at stores
  split at stores
  · split at stores
    case isTrue => cases stores
    case isFalse follows => cases stores; exact .inl ⟨rfl,by simpa using follows⟩
  · split at stores
    next call here =>
      split at stores
      next pc write => cases stores; exact .inr ⟨_,_,call,rfl,here,rfl,write,pc⟩
      next => cases stores
    next => cases stores
  · cases stores

/-- Handling a view stores nothing. -/
theorem membershipReceived_database (self : LeaderManager) (info : View) :
    (membershipReceived self info).manager.database = self.database := by
  have notified : ∀ manager : LeaderManager, (notifyIfLeader manager).manager = manager := by
    intro manager
    unfold notifyIfLeader
    split <;> rfl
  have left : ∀ (manager : LeaderManager) group members,
      (notifyServerLeave manager group members).manager.database = manager.database := by
    intro manager group members
    unfold notifyServerLeave
    repeat' split
    all_goals first
      | rfl
      | rw [notified]
  unfold membershipReceived
  dsimp only
  repeat' split
  · unfold assignFirstLeader
    split <;> rfl
  · rfl
  · rfl
  · exact left ..
  · exact left ..
  · rfl

/-- A vote in `appendVote` stores nothing. -/
theorem stepVote_database (server : Nat) (call : VoteCall) (other : Nat) :
    ((stepVote s server call).managers other).database = (s.managers other).database := by
  unfold stepVote
  cases call.pc with
  | put owner last =>
    dsimp only
    by_cases same : other = call.target
    · subst same; simp [State.setVote,State.setManager]
    · simp [State.setVote,State.setManager,Function.update_of_ne same]
  | _ =>
    dsimp only
    repeat' split
    all_goals rfl

/-- A step of a client call stores something in one place only. -/
theorem stepCall_database {i fresh : Nat} {call : Call} (here : s.calls i = some call)
    (moved : stepCall reach s i fresh call = some t) (server : Nat) (key : String) :
    (t.managers server).database key = after (stored s (.thread i fresh)) server key ((s.managers server).database key) := by
  have nothing (other : call.pc ≠ .put) : stored s (.thread i fresh) = none := by
    simp only [stored,here]
    split
    · exact absurd ‹_› other
    · rfl
  cases stepCall_turn moved with
  | @put key' data write at_put =>
    have stores : stored s (.thread i fresh) = some ⟨call.server,key',data⟩ := by simp [stored,here,at_put,write]
    rw [stores]
    simp only [after,State.setCall,State.setManager]
    by_cases same : server = call.server
    · subst same
      by_cases sameKey : key = key'
      · subst sameKey; simp [LeaderManager.put]
      · simp [LeaderManager.put,Function.update_of_ne sameKey,Ne.symm sameKey]
    · simp [Function.update_of_ne same,Ne.symm same]
  | submitVote _ at_pc | remove _ at_pc =>
    rw [nothing (by simp [at_pc]),after_none]
    by_cases same : server = call.server
    · subst same; simp [State.setCall,State.setManager]
    · simp [State.setCall,State.setManager,Function.update_of_ne same]
  | sendAppend _ at_pc | sendVoting _ at_pc =>
    rw [nothing (by simp [at_pc]),after_none]
    simp only [State.setCall]
    rw [multicast_managers]
  | leadsWrite _ at_pc | leadsRead _ at_pc | answerWrite _ at_pc | stillLeads _ at_pc | noLongerLeads _ at_pc
  | get _ at_pc | absent _ at_pc | mayVote _ at_pc | mayNotVote _ at_pc | spin _ at_pc | isResult _ at_pc
  | noResult _ at_pc | answerRead _ at_pc =>
    rw [nothing (by simp [at_pc]),after_none]
    rfl
  | refers at_pc | forward at_pc | nowhere at_pc | passesOn at_pc =>
    rw [nothing (by simp [at_pc]),after_none]
    rfl

/-- What every step does to every database. -/
theorem step_database {a : Action} (move : step reach a s = some t) {server : Nat}
    (here : ∀ name host, a = .join name host → server ≠ s.started) (key : String) :
    (t.managers server).database key = after (stored s a) server key ((s.managers server).database key) := by
  cases stepped move with
  | @join name host => simp [stored,Function.update_of_ne (here name host rfl)]
  | depart => rfl
  | @handle other =>
    simp only [stored,after_none]
    rw [handled_managers]
    by_cases same : server = other
    · subst same; simp [membershipReceived_database]
    · simp [Function.update_of_ne same]
  | @deliver packet =>
    obtain ⟨receiver,message⟩ := packet
    rw [handled_managers]
    by_cases same : server = receiver
    · subst same
      rw [Function.update_self]
      cases message with
      | newLeader name =>
        simp only [messageReceived,assignNewLeader,stored,after_none]
        split <;> rfl
      | whoIsLeader =>
        simp only [messageReceived,whoIsLeaderRequestedNotifyParticipantsWhoIsLeader,notifyIfLeader,stored,after_none]
        split <;> rfl
      | appendData key' data =>
        simp only [messageReceived,appendDataReceived,stored]
        split
        · rfl
        · by_cases sameKey : key = key'
          · subst sameKey; simp [after,LeaderManager.put]
          · simp [after,LeaderManager.put,Function.update_of_ne sameKey,Ne.symm sameKey]
      | consensusVoting transactionId key' data =>
        simp only [messageReceived,handleVoteRequest,stored,after_none]
        repeat' split
        all_goals rfl
    · rw [Function.update_of_ne same]
      cases message with
      | appendData key' data =>
        simp only [stored]
        split
        · rfl
        · simp [after,Ne.symm same]
      | _ => rfl
  | vote =>
    rw [stepVote_database]
    rfl
  | call => rfl
  | thread called moved => exact stepCall_database called moved server key

/-! ### Writes and APPEND_DATA messages -/

/-- What a step of another thread cannot change in a call. -/
def place (call : Call) : Nat × Request × Pc := (call.server,call.request,call.pc)

theorem place_eq {call call' : Call} (same : place call' = place call) :
    call'.server = call.server ∧ call'.request = call.request ∧ call'.pc = call.pc := by
  obtain ⟨server,rest⟩ := Prod.mk.inj same
  exact ⟨server,Prod.mk.inj rest⟩

/-- The step makes the call. -/
def Makes (i : Nat) : Action → Prop
  | .call made _ _ => made = i
  | .thread _ fresh => fresh = i
  | _ => False

instance (i : Nat) : DecidablePred (Makes i)
  | .call made _ _ => inferInstanceAs (Decidable (made = i))
  | .thread _ fresh => inferInstanceAs (Decidable (fresh = i))
  | .join _ _ | .depart _ _ | .handle _ | .deliver _ | .vote _ => isFalse id

/-- What a step does to one call. -/
inductive CallMove (reach : Nat → Option Nat) (s : State) (a : Action) (t : State) (i : Nat) : Prop
  | thread {fresh : Nat} {call : Call} (thread : a = .thread i fresh) (here : s.calls i = some call)
      (turn : Turn reach s i fresh call t)
  | begins {server : Nat} {request : Request} (makes : Makes i a) (unused : s.calls i = none)
      (new : t.calls i = some (.new server request))
  | stays (same : (t.calls i).map place = (s.calls i).map place)

theorem CallMove.of_eq {a : Action} {i : Nat} (same : t.calls i = s.calls i) : CallMove reach s a t i :=
  .stays (by rw [same])

theorem multicast_calls (server : Nat) (sends : List Message) : (s.multicast server sends).calls = s.calls := by
  unfold State.multicast
  split <;> rfl

theorem handled_calls (server : Nat) (outcome : Outcome) : (s.handled reach server outcome).calls = s.calls := by
  unfold State.handled
  dsimp only
  split <;> exact multicast_calls ..

/-- A vote counts for a call and changes nothing else of it. -/
theorem stepVote_calls {β : Type} (f : Call → β)
    (same : ∀ call voting completed, f { call with voting := voting, completed := completed } = f call)
    (server : Nat) (call : VoteCall) (i : Nat) : ((stepVote s server call).calls i).map f = (s.calls i).map f := by
  have changed (owner : Nat) (change : Call → Call) (same : ∀ call, f (change call) = f call) :
      (Function.update s.calls owner ((s.calls owner).map change) i).map f = (s.calls i).map f := by
    by_cases here : i = owner
    · subst here
      rw [Function.update_self,Option.map_map]
      congr 1
      exact funext same
    · rw [Function.update_of_ne here]
  unfold stepVote
  dsimp only
  repeat' split
  all_goals first
    | rfl
    | exact changed _ _ fun call => same call _ _

theorem stepVote_place (server : Nat) (call : VoteCall) (i : Nat) :
    ((stepVote s server call).calls i).map place = (s.calls i).map place :=
  stepVote_calls place (fun _ _ _ => rfl) server call i

/-- The step of one call leaves the others where they are, but for the call it
    has another server make. -/
theorem turn_others {i fresh j : Nat} {call : Call} (turn : Turn reach s i fresh call t) (other : j ≠ i) :
    t.calls j = s.calls j ∨ fresh = j ∧ s.calls j = none ∧ ∃ server request, t.calls j = some (.new server request) := by
  cases turn with
  | forward here channel reached unused =>
    by_cases new : j = fresh
    · subst new
      exact .inr ⟨rfl,unused,_,_,Function.update_self ..⟩
    · left
      simp only [State.setCall]
      rw [Function.update_of_ne new,Function.update_of_ne other]
  | sendAppend | sendVoting =>
    left
    simp only [State.setCall]
    rw [Function.update_of_ne other,multicast_calls]
  | _ =>
    left
    simp only [State.setCall,State.setManager]
    rw [Function.update_of_ne other]

theorem step_callMove {a : Action} (move : step reach a s = some t) (i : Nat) : CallMove reach s a t i := by
  cases stepped move with
  | join | depart => exact .of_eq rfl
  | handle | deliver => exact .of_eq (by simp only [handled_calls])
  | @vote server vote => exact .stays (stepVote_place server vote i)
  | @call j _ _ unused _ =>
    by_cases here : i = j
    · subst here
      exact .begins rfl unused (Function.update_self ..)
    · exact .of_eq (Function.update_of_ne here ..)
  | @thread j fresh call _ here moved =>
    have turn := stepCall_turn moved
    by_cases same : i = j
    · subst same
      exact .thread rfl here turn
    · rcases turn_others turn same with kept | ⟨makes,unused,server,request,new⟩
      · exact .of_eq kept
      · exact .begins makes unused new

/-- A call that no step makes is not there. -/
theorem calls_unmade {acts : List Action} (run : Run (Steps (step reach)) s acts t) {i : Nat} (unused : s.calls i = none)
    (unmade : ∀ a ∈ acts, ¬ Makes i a) : t.calls i = none := by
  have none : (∀ a ∈ acts, ¬ Makes i a) → t.calls i = none := by
    refine run.invariant (P := fun acts s => (∀ a ∈ acts, ¬ Makes i a) → s.calls i = none) (fun _ => unused) ?_
    intro acts s a t _ ih move unmade
    have before := ih fun b earlier => unmade b (List.mem_append_left _ earlier)
    cases step_callMove move i with
    | thread _ here => cases before.symm.trans here
    | begins makes => exact absurd makes (unmade a (by simp))
    | stays same => simpa [before] using same
  exact none unmade

/-- A call that is under way stays so, but for its own steps. -/
theorem underway_step {stages : List Pc} {server : Nat} {request : Request} {a : Action} (move : step reach a s = some t)
    (underway : Underway stages server request s) : Underway stages server request t ∨
      ∃ i fresh call, a = .thread i fresh ∧ s.calls i = some call ∧ call.server = server ∧ call.request = request ∧
        call.pc ∈ stages ∧ Turn reach s i fresh call t := by
  obtain ⟨i,call,here,at_server,requested,stage⟩ := underway
  cases step_callMove move i with
  | @thread fresh call' thread same turn =>
    cases here.symm.trans same
    exact .inr ⟨i,fresh,call,thread,here,at_server,requested,stage,turn⟩
  | begins _ unused => cases here.symm.trans unused
  | stays same =>
    rw [here,Option.map_some] at same
    obtain ⟨call',here',kept⟩ := Option.map_eq_some_iff.mp same
    obtain ⟨server',request',pc'⟩ := place_eq kept
    exact .inl ⟨i,call',here',server'.trans at_server,request'.trans requested,pc' ▸ stage⟩

theorem multicast_network (server : Nat) (sends : List Message) : s.network ≤ (s.multicast server sends).network := by
  unfold State.multicast
  split
  · exact Multiset.le_add_right ..
  · exact le_rfl

theorem handled_network (server : Nat) (outcome : Outcome) :
    s.network ≤ (s.handled reach server outcome).network := by
  unfold State.handled
  dsimp only
  split <;> exact multicast_network (s := s.setManager server outcome.manager) ..

theorem stepVote_network (server : Nat) (call : VoteCall) : (stepVote s server call).network = s.network := by
  unfold stepVote
  dsimp only
  repeat' split
  all_goals rfl

theorem turn_network {i fresh : Nat} {call : Call} (turn : Turn reach s i fresh call t) : s.network ≤ t.network := by
  cases turn with
  | sendAppend | sendVoting => exact multicast_network ..
  | _ => exact le_rfl

/-- What is in flight before a step. -/
def leftover (s : State) : Action → Multiset Packet
  | .deliver packet => s.network.erase packet
  | .depart server _ => s.network.filter fun packet => packet.receiver ≠ server
  | _ => s.network

/-- Only its delivery or the departure of its receiver takes a message away. -/
theorem step_network {a : Action} (move : step reach a s = some t) : leftover s a ≤ t.network := by
  cases stepped move with
  | join | depart | call => exact le_rfl
  | handle => exact handled_network ..
  | @deliver packet => exact handled_network (s := { s with network := s.network.erase packet }) ..
  | @vote server vote => exact (stepVote_network server vote).ge
  | thread _ moved => exact turn_network (stepCall_turn moved)

/-! Messages go to members only. -/

theorem multicast_addressed {server : Nat} {sends : List Message} {packet : Packet}
    (flies : packet ∈ (s.multicast server sends).network) : packet ∈ s.network ∨ packet.receiver ∈ s.members := by
  unfold State.multicast at flies
  split at flies
  · refine (Multiset.mem_add.mp flies).imp_right fun sent => ?_
    simp only [packets,Multiset.mem_coe,List.mem_flatMap,List.mem_map] at sent
    obtain ⟨_,_,member,inside,rfl⟩ := sent
    exact inside
  · exact .inl flies

theorem handled_addressed {server : Nat} {outcome : Outcome} {packet : Packet}
    (flies : packet ∈ (s.handled reach server outcome).network) : packet ∈ s.network ∨ packet.receiver ∈ s.members := by
  unfold State.handled at flies
  dsimp only at flies
  split at flies <;> exact multicast_addressed (s := s.setManager server outcome.manager) flies

theorem step_addressed {a : Action} (move : step reach a s = some t) {packet : Packet} (flies : packet ∈ t.network) :
    packet ∈ s.network ∨ packet.receiver ∈ s.members := by
  cases stepped move with
  | join | call => exact .inl flies
  | depart => exact .inl (Multiset.mem_of_mem_filter flies)
  | handle => exact handled_addressed flies
  | @deliver delivered =>
    exact (handled_addressed (s := { s with network := s.network.erase delivered }) flies).imp_left Multiset.mem_of_mem_erase
  | @vote server vote => exact .inl (stepVote_network server vote ▸ flies)
  | thread _ moved =>
    cases stepCall_turn moved with
    | sendAppend | sendVoting => exact multicast_addressed flies
    | _ => exact .inl flies

/-- The members after a step. -/
def roll (s : State) : Action → List Nat
  | .join _ _ => s.members ++ [s.started]
  | .depart server _ => s.members.erase server
  | _ => s.members

theorem multicast_roll (server : Nat) (sends : List Message) :
    (s.multicast server sends).members = s.members ∧ (s.multicast server sends).started = s.started := by
  unfold State.multicast
  split <;> exact ⟨rfl,rfl⟩

theorem handled_roll (server : Nat) (outcome : Outcome) :
    (s.handled reach server outcome).members = s.members ∧ (s.handled reach server outcome).started = s.started := by
  unfold State.handled
  dsimp only
  split <;> exact multicast_roll (s := s.setManager server outcome.manager) ..

theorem stepVote_roll (server : Nat) (call : VoteCall) :
    (stepVote s server call).members = s.members ∧ (stepVote s server call).started = s.started := by
  unfold stepVote
  dsimp only
  repeat' split
  all_goals exact ⟨rfl,rfl⟩

theorem turn_roll {i fresh : Nat} {call : Call} (turn : Turn reach s i fresh call t) :
    t.members = s.members ∧ t.started = s.started := by
  cases turn with
  | sendAppend | sendVoting => exact multicast_roll ..
  | _ => exact ⟨rfl,rfl⟩

/-- Servers are numbered as they join. -/
theorem step_roll {a : Action} (move : step reach a s = some t) :
    t.members = roll s a ∧ (t.started = s.started ∨ ∃ name host, a = .join name host ∧ t.started = s.started + 1) := by
  cases stepped move with
  | @join name host => exact ⟨rfl,.inr ⟨name,host,rfl,rfl⟩⟩
  | depart | call => exact ⟨rfl,.inl rfl⟩
  | @handle server =>
    obtain ⟨members,started⟩ := @handled_roll s reach server (membershipReceived (s.managers server) s.view)
    exact ⟨members,.inl started⟩
  | @deliver packet =>
    obtain ⟨members,started⟩ := @handled_roll { s with network := s.network.erase packet } reach
      packet.receiver (messageReceived (s.managers packet.receiver) packet.message)
    exact ⟨members,.inl started⟩
  | @vote server vote => exact ⟨(stepVote_roll server vote).1,.inl (stepVote_roll server vote).2⟩
  | thread _ moved => exact ⟨(turn_roll (stepCall_turn moved)).1,.inl (turn_roll (stepCall_turn moved)).2⟩

theorem started_le {a : Action} (move : step reach a s = some t) : s.started ≤ t.started := by
  rcases (step_roll move).2 with same | ⟨_,_,_,more⟩
  · exact same.ge
  · exact more ▸ Nat.le_succ _

/-- The members are known by different numbers, all taken, and nobody else is
    written to. -/
structure Numbered (s : State) : Prop where
  nodup : s.members.Nodup
  started : ∀ member ∈ s.members, member < s.started
  addressed : ∀ packet ∈ s.network, packet.receiver < s.started

theorem numbered_initial : Numbered initial := ⟨by simp [initial],by simp [initial],by simp [initial]⟩

theorem Numbered.step {a : Action} (numbered : Numbered s) (move : step reach a s = some t) : Numbered t := by
  obtain ⟨members,started⟩ := step_roll move
  have grows := started_le move
  suffices rolled : (roll s a).Nodup ∧ ∀ member ∈ roll s a, member < t.started from
    ⟨members ▸ rolled.1,members ▸ rolled.2,fun packet flies => by
      rcases step_addressed move flies with old | inside
      · exact (numbered.addressed packet old).trans_le grows
      · exact (numbered.started _ inside).trans_le grows⟩
  cases a with
  | join name host =>
    have more : t.started = s.started + 1 := by
      cases stepped move
      rfl
    constructor
    · refine List.nodup_append.mpr ⟨numbered.nodup,by simp,?_⟩
      rintro member inside other new rfl
      have := numbered.started member inside
      simp only [List.mem_singleton] at new
      omega
    · intro member inside
      rcases List.mem_append.mp inside with old | new
      · have := numbered.started member old
        omega
      · simp only [List.mem_singleton] at new
        omega
  | depart server left =>
    exact ⟨numbered.nodup.erase _,fun member inside => (numbered.started member (List.mem_of_mem_erase inside)).trans_le grows⟩
  | _ => exact ⟨numbered.nodup,fun member inside => (numbered.started member inside).trans_le grows⟩

/-- A server that has left does not come back. -/
def Gone (server : Nat) (s : State) : Prop := server < s.started ∧ server ∉ s.members

theorem Gone.step {server : Nat} {a : Action} (gone : Gone server s) (move : step reach a s = some t) : Gone server t := by
  obtain ⟨members,started⟩ := step_roll move
  refine ⟨by rcases started with same | ⟨_,_,_,more⟩ <;> have := gone.1 <;> omega,?_⟩
  rw [members]
  cases a with
  | join name host =>
    have := gone.1
    simp only [roll,List.mem_append,List.mem_singleton,not_or]
    exact ⟨gone.2,by omega⟩
  | depart other left => exact fun inside => gone.2 (List.mem_of_mem_erase inside)
  | _ => exact gone.2

/-- The multicast of a write reaches every member. -/
theorem append_sent {server receiver : Nat} {key data : String} (member : server ∈ s.members) (reached : receiver ∈ s.members) :
    (⟨receiver,.appendData key data⟩ : Packet) ∈ (s.multicast server [.appendData key data]).network := by
  rw [State.multicast,if_pos member]
  exact Multiset.mem_add.mpr (.inr (by simpa [packets] using reached))

end

end CdPraticas.Copies
