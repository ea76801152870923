import CdPraticas.Polls

/-!
# One operation

A write or a read of a client, from its first step to the last message and the
last vote it causes, at whichever server it begins. Every step of it leaves less
to do, and while something is left a step can be taken.
-/

namespace CdPraticas.Serving
open Replicas Transactions ReplicaGroup Elections Copies Polls

/-- The map that the servers stand for: what an operation makes of it, -/
def perform (contents : String → Option String) : Request → String → Option String
  | .read _ => contents
  | .write key data => Function.update contents key (some data)

/-- and what it answers. -/
def answerTo (contents : String → Option String) : Request → Answer
  | .read key =>
    match contents key with
    | some data => .data key data
    | none => .unknown
  | .write _ _ => .void

theorem passOn_answerTo (contents : String → Option String) (request : Request) :
    passOn request (answerTo contents request) = answerTo contents request := by
  cases request <;> rfl

/-- The read of `votesReceived` in `votesReceived++`, -/
def loading : VotePc → Bool
  | .load _ => true
  | _ => false

/-- and what follows it up to the write. -/
def counting : VotePc → Bool
  | .store _ _ => true
  | _ => false

/-- `activeVoting.remove` in `getResultAndRemove`. -/
def removing : Pc → Bool
  | .remove _ _ _ => true
  | _ => false

/-- A vote reads the count when no other vote has read it and not written it yet,
    and the transaction is removed when no vote is about to put it. -/
def Undisturbed (s : State) : Action → Prop
  | .vote server => (s.votes server).any (fun vote => loading vote.pc) = true →
      ∀ other ∈ s.members, (s.votes other).any (fun vote => counting vote.pc) = false
  | .thread i _ => (s.calls i).any (fun call => removing call.pc) = true →
      ∀ other ∈ s.members, (s.votes other).any (fun vote => uncommitted vote.pc) = false
  | _ => True

instance (s : State) : DecidablePred (Undisturbed s)
  | .vote server => inferInstanceAs (Decidable ((s.votes server).any (fun vote => loading vote.pc) = true → _))
  | .thread i _ => inferInstanceAs (Decidable ((s.calls i).any (fun call => removing call.pc) = true → _))
  | .join _ _ | .depart _ _ | .handle _ | .deliver _ | .call _ _ _ => isTrue trivial

/-! ### What is left to do -/

/-- The steps that a working call has still to take. -/
def left : Pc → Nat
  | .start => 9
  | .get => 8
  | .testVote _ => 7
  | .submitVote _ => 6
  | .sendVoting _ _ => 5
  | .spin _ _ => 4
  | .isResult _ _ => 3
  | .remove _ _ _ => 2
  | .answerRead _ _ => 1
  | .put => 4
  | .answerWrite => 3
  | .testAppend => 2
  | .sendAppend => 1
  | .forward | .awaits _ | .finished => 0

/-- The steps that a vote has still to take, its end included. -/
def remaining : VotePc → Nat
  | .vote => 9
  | .get => 8
  | .load _ => 7
  | .store _ _ => 6
  | .test _ => 5
  | .setResult _ _ => 4
  | .put _ _ => 3
  | .complete _ => 2
  | .returned => 1

def voteWork (vote : Option VoteCall) : Nat := vote.elim 0 fun vote => remaining vote.pc

/-- The work that the messages in flight and the votes stand for. -/
def flight (team : Team) (s : State) : Nat :=
  10 * s.network.card + ∑ member ∈ team.members.toFinset, voteWork (s.votes member)

section
variable {team : Team} {s t : State}

theorem voteWork_le (vote : Option VoteCall) : voteWork vote ≤ 9 := by
  cases vote with
  | none => simp [voteWork]
  | some vote => simp only [voteWork,Option.elim_some]; cases vote.pc <;> simp [remaining]

/-- One server's vote changes. -/
theorem flight_vote {server : Nat} (member : server ∈ team.members) (vote : Option VoteCall)
    (votes : t.votes = Function.update s.votes server vote) :
    flight team t + voteWork (s.votes server) + 10 * s.network.card = flight team s + voteWork vote + 10 * t.network.card := by
  have inside := List.mem_toFinset.mpr member
  have rest : ∑ other ∈ team.members.toFinset.erase server, voteWork (t.votes other) =
      ∑ other ∈ team.members.toFinset.erase server, voteWork (s.votes other) :=
    Finset.sum_congr rfl fun other others => by rw [votes,Function.update_of_ne (Finset.ne_of_mem_erase others)]
  have before := Finset.add_sum_erase _ (fun other => voteWork (s.votes other)) inside
  have after := Finset.add_sum_erase _ (fun other => voteWork (t.votes other)) inside
  have self : t.votes server = vote := by rw [votes,Function.update_self]
  simp only [self,rest] at after
  simp only [flight]
  omega

/-- A step of a vote brings it nearer to its end. -/
theorem stepVote_votes (server : Nat) (vote : VoteCall) : ∃ vote',
    (stepVote s server vote).votes = Function.update s.votes server vote' ∧ voteWork vote' < voteWork (some vote) := by
  unfold stepVote
  cases at_pc : vote.pc with
  | vote => exact ⟨_,rfl,by simp only [voteWork,Option.elim_some,at_pc]; split <;> simp [remaining]⟩
  | get | load | test =>
    dsimp only
    repeat' split
    all_goals exact ⟨_,rfl,by simp [voteWork,at_pc,remaining]⟩
  | store => exact ⟨_,rfl,by simp [voteWork,at_pc,remaining]⟩
  | setResult owner result => exact ⟨_,rfl,by cases result <;> simp [voteWork,at_pc,remaining]⟩
  | put owner last => exact ⟨_,rfl,by cases last <;> simp [voteWork,at_pc,remaining]⟩
  | complete => exact ⟨_,rfl,by simp [voteWork,at_pc,remaining]⟩
  | returned => exact ⟨_,rfl,by simp [voteWork,at_pc,remaining]⟩

theorem flight_stepVote {server : Nat} {vote : VoteCall} (member : server ∈ team.members) (here : s.votes server = some vote) :
    flight team (stepVote s server vote) < flight team s := by
  obtain ⟨vote',votes,less⟩ := stepVote_votes (s := s) server vote
  have changed := flight_vote member vote' votes
  rw [stepVote_network,here] at changed
  omega

/-- A message about a key makes its receiver send nothing. -/
theorem silent {message : Message} (about : elective message = false) (manager : LeaderManager) :
    (messageReceived manager message).sends = [] := by
  cases message with
  | newLeader | whoIsLeader => cases about
  | appendData => rfl
  | consensusVoting =>
    simp only [messageReceived,handleVoteRequest]
    repeat' split
    all_goals rfl

/-- A listener that sends nothing takes a message out and may begin a vote. -/
theorem handled_silent {reach : Nat → Option Nat} {server : Nat} {outcome : Outcome} (silent : outcome.sends = [])
    (free : s.votes server = none) : (s.handled reach server outcome).network = s.network ∧
      ∃ vote, (s.handled reach server outcome).votes = Function.update s.votes server vote := by
  have kept : s.votes = Function.update s.votes server none := by rw [← free,Function.update_eq_self]
  unfold State.handled
  rw [silent,multicast_nil]
  dsimp only
  split
  · exact ⟨rfl,_,rfl⟩
  · exact ⟨rfl,none,kept⟩

theorem flight_delivered {packet : Packet} (flying : packet ∈ s.network) (member : packet.receiver ∈ team.members)
    (free : s.votes packet.receiver = none) (about : elective packet.message = false) :
    flight team ({ s with network := s.network.erase packet }.handled team.reach packet.receiver
      (messageReceived (s.managers packet.receiver) packet.message)) < flight team s := by
  obtain ⟨network,vote,votes⟩ := @handled_silent { s with network := s.network.erase packet } team.reach _ _
    (silent about (s.managers packet.receiver)) free
  have changed := flight_vote (s := s) member vote votes
  have fewer := Multiset.card_erase_add_one flying
  rw [free,network] at changed
  have := voteWork_le vote
  simp only [voteWork,Option.elim_none] at changed this
  omega

/-- A multicast puts a message for each server in flight. -/
theorem flight_multicast (led : Led team s) (server : Nat) (message : Message) :
    flight team (s.multicast server [message]) ≤ flight team s + 10 * team.members.length := by
  unfold State.multicast
  split
  · simp only [flight,Multiset.card_add,packets,List.flatMap_singleton,Multiset.coe_card,List.length_map,led.members]
    omega
  · omega

end

/-! ### The call at the leader -/

/-- Every server stores `contents`, and no message and no vote is under way. -/
structure Resting (team : Team) (contents : String → Option String) (s : State) : Prop where
  stores : Stores team contents s
  inactive : Inactive team s
  network : s.network = 0
  votes : ∀ server, s.votes server = none

/-- Where a call stands before it changes anything, and what it has found. -/
inductive Early (contents : String → Option String) : Request → Pc → Prop
  | start {request} : Early contents request .start
  | put {key data} : Early contents (.write key data) .put
  | get {key} : Early contents (.read key) .get
  | testVote {key data} (found : contents key = some data) : Early contents (.read key) (.testVote data)
  | submitVote {key data} (found : contents key = some data) : Early contents (.read key) (.submitVote data)

/-- The leader has stored the value, and the others have not been told. -/
structure Written (team : Team) (contents : String → Option String) (key data : String) (s : State) : Prop where
  leader : (s.managers team.leader).database = Function.update contents key (some data)
  followers : ∀ member ∈ team.members, member ≠ team.leader → (s.managers member).database = contents
  inactive : Inactive team s
  network : s.network = 0
  votes : ∀ server, s.votes server = none

/-- Each of the others has stored the value, or is being told. -/
structure Spreading (team : Team) (contents : String → Option String) (key data : String) (s : State) : Prop where
  leader : (s.managers team.leader).database = Function.update contents key (some data)
  followers : ∀ member ∈ team.members, member ≠ team.leader →
    (s.managers member).database = Function.update contents key (some data) ∨
      (s.managers member).database = contents ∧ ⟨member,.appendData key data⟩ ∈ s.network
  inactive : Inactive team s
  flying : ∀ packet ∈ s.network, packet.message = .appendData key data ∧ packet.receiver ∈ team.members
  votes : ∀ server, s.votes server = none

/-- The transaction is submitted, and nobody has been asked. -/
structure Submitted (team : Team) (contents : String → Option String) (poll : Poll) (s : State) : Prop where
  stores : Stores team contents s
  value : contents poll.key = some poll.data
  active : ∀ member ∈ team.members, ∀ transactionId, (s.managers member).activeVoting transactionId =
    if member = team.leader ∧ transactionId = poll.transactionId then some poll.owner else none
  network : s.network = 0
  votes : ∀ server, s.votes server = none

/-- Where the call of an operation stands at the leader. -/
inductive Phase (team : Team) (contents : String → Option String) (s : State) (w : Nat) (call : Call) : Prop
  | early (resting : Resting team contents s) (early : Early contents call.request call.pc) (answer : call.answer = none)
      (completed : call.completed = false)
  | absent {key} (read : call.request = .read key) (absent : contents key = none) (resting : Resting team contents s)
      (pc : call.pc = .finished) (answer : call.answer = some .unknown)
  | written {key data} (write : call.request = .write key data) (written : Written team contents key data s)
      (pc : call.pc = .answerWrite ∧ call.answer = none ∨ (call.pc = .testAppend ∨ call.pc = .sendAppend) ∧ call.answer = some .void)
  | spreading {key data} (write : call.request = .write key data) (spreading : Spreading team contents key data s)
      (pc : call.pc = .finished) (answer : call.answer = some .void)
  | submitted {key transactionId data} (read : call.request = .read key)
      (submitted : Submitted team contents ⟨transactionId,w,key,data⟩ s) (pc : call.pc = .sendVoting transactionId data)
      (object : call.voting = some (.new team.members.length)) (answer : call.answer = none) (completed : call.completed = false)
  | polling {key transactionId data voting} (read : call.request = .read key)
      (polling : Polling team ⟨transactionId,w,key,data⟩ contents s call voting)
      (pc : call.pc = .spin transactionId data ∨
        (call.pc = .isResult transactionId data ∨ call.pc = .remove transactionId data true) ∧ call.completed = true)
      (answer : call.answer = none)
  | polled {key transactionId data} (read : call.request = .read key) (value : contents key = some data)
      (polled : Polled team ⟨transactionId,w,key,data⟩ contents s)
      (pc : call.pc = .answerRead data true ∧ call.answer = none ∨ call.pc = .finished ∧ call.answer = some (.data key data))

/-- The call at the leader that does the work of an operation. -/
structure Working (team : Team) (contents : String → Option String) (request : Request) (s : State) (w : Nat) (call : Call) : Prop where
  called : s.calls w = some call
  server : call.server = team.leader
  request : call.request = request
  phase : Phase team contents s w call

section
variable {team : Team} {contents : String → Option String} {request : Request} {s t : State} {w fresh : Nat} {call : Call}

theorem Early.unfinished {pc : Pc} (early : Early contents request pc) : pc ≠ .finished := by
  cases early <;> simp

theorem Resting.frame (resting : Resting team contents s) (network : t.network = s.network) (votes : t.votes = s.votes)
    (managers : t.managers = s.managers) : Resting team contents t where
  stores := by rw [Stores,managers]; exact resting.stores
  inactive := by rw [Inactive,managers]; exact resting.inactive
  network := network.trans resting.network
  votes := votes ▸ resting.votes

/-- Another call does not disturb it. -/
theorem Working.frame (working : Working team contents request s w call) (called : t.calls w = s.calls w)
    (network : t.network = s.network) (votes : t.votes = s.votes) (managers : t.managers = s.managers) :
    Working team contents request t w call := by
  have now : t.calls w = some call := called.trans working.called
  refine ⟨now,working.server,working.request,?_⟩
  cases working.phase with
  | early resting early answer completed => exact .early (resting.frame network votes managers) early answer completed
  | absent read absent resting pc answer => exact .absent read absent (resting.frame network votes managers) pc answer
  | written write written pc =>
    refine .written write ⟨?_,?_,?_,network.trans written.network,votes ▸ written.votes⟩ pc
    · rw [managers]; exact written.leader
    · rw [managers]; exact written.followers
    · rw [Inactive,managers]; exact written.inactive
  | spreading write spreading pc answer =>
    refine .spreading write ⟨?_,?_,?_,network ▸ spreading.flying,votes ▸ spreading.votes⟩ pc answer
    · rw [managers]; exact spreading.leader
    · rw [managers,network]; exact spreading.followers
    · rw [Inactive,managers]; exact spreading.inactive
  | submitted read submitted pc object answer completed =>
    refine .submitted read ⟨?_,submitted.value,?_,network.trans submitted.network,votes ▸ submitted.votes⟩ pc object answer completed
    · rw [Stores,managers]; exact submitted.stores
    · rw [managers]; exact submitted.active
  | polling read polling pc answer => exact .polling read (polling.frame now rfl rfl network votes managers) pc answer
  | polled read value polled pc => exact .polled read value (polled.frame network votes managers) pc

/-- The answer is the map's, -/
theorem Working.answer (working : Working team contents request s w call) {answer : Answer} (answered : call.answer = some answer) :
    answer = answerTo contents request := by
  have requested := working.request
  cases working.phase with
  | early _ _ none => cases none.symm.trans answered
  | absent read absent _ _ unknown =>
    cases unknown.symm.trans answered
    rw [← requested,read,answerTo,absent]
  | written write _ pc =>
    rcases pc with ⟨_,none⟩ | ⟨_,void⟩
    · cases none.symm.trans answered
    · cases void.symm.trans answered
      rw [← requested,write,answerTo]
  | spreading write _ _ void =>
    cases void.symm.trans answered
    rw [← requested,write,answerTo]
  | submitted _ _ _ _ none => cases none.symm.trans answered
  | polling _ _ _ none => cases none.symm.trans answered
  | polled read value _ pc =>
    rcases pc with ⟨_,none⟩ | ⟨_,found⟩
    · cases none.symm.trans answered
    · cases found.symm.trans answered
      rw [← requested,read,answerTo,value]

/-- and there is one when the call is over. -/
theorem Working.answered (working : Working team contents request s w call) (ends : call.pc = .finished) :
    call.answer = some (answerTo contents request) := by
  suffices given : call.answer.isSome = true by
    obtain ⟨answer,answered⟩ := Option.isSome_iff_exists.mp given
    rw [answered,working.answer answered]
  cases working.phase with
  | early _ early => exact absurd ends early.unfinished
  | absent _ _ _ _ unknown => rw [unknown]; rfl
  | written _ _ pc => rcases pc with ⟨pc,_⟩ | ⟨pc | pc,_⟩ <;> cases ends.symm.trans pc
  | spreading _ _ _ void => rw [void]; rfl
  | submitted _ _ pc => cases ends.symm.trans pc
  | polling _ _ pc => rcases pc with pc | ⟨pc | pc,_⟩ <;> cases ends.symm.trans pc
  | polled _ _ _ pc =>
    rcases pc with ⟨pc,_⟩ | ⟨_,found⟩
    · cases ends.symm.trans pc
    · rw [found]; rfl

/-- Every message in flight goes to a member. -/
theorem Working.addressed (working : Working team contents request s w call) {packet : Packet} (flying : packet ∈ s.network) :
    packet.receiver ∈ team.members := by
  have none (network : s.network = 0) : packet.receiver ∈ team.members := by simp [network] at flying
  cases working.phase with
  | early resting => exact none resting.network
  | absent _ _ resting => exact none resting.network
  | written _ written => exact none written.network
  | spreading _ spreading => exact (spreading.flying packet flying).2
  | submitted _ submitted => exact none submitted.network
  | polling _ polling => exact (polling.flying packet flying).2
  | polled _ _ polled =>
    rw [polled.flying packet flying]
    exact team.inside

/-- Every vote is a member's. -/
theorem Working.voter (working : Working team contents request s w call) {server : Nat} {vote : VoteCall}
    (here : s.votes server = some vote) : server ∈ team.members := by
  have none (votes : ∀ server, s.votes server = none) : server ∈ team.members := by cases (votes server).symm.trans here
  cases working.phase with
  | early resting => exact none resting.votes
  | absent _ _ resting => exact none resting.votes
  | written _ written => exact none written.votes
  | spreading _ spreading => exact none spreading.votes
  | submitted _ submitted => exact none submitted.votes
  | polling _ polling => exact (polling.cast server vote here).member
  | polled _ _ polled => exact polled.member server vote here

/-! A step of the call brings it nearer to its end. -/

def Advances (team : Team) (contents : String → Option String) (request : Request) (s : State) (w : Nat) (call : Call) (t : State) :
    Prop :=
  ∃ call', Working team contents request t w call' ∧ left call'.pc < left call.pc ∧
    flight team t ≤ flight team s + 10 * team.members.length ∧ ∀ j, j ≠ w → t.calls j = s.calls j

theorem Working.advance (working : Working team contents request s w call) {u : State} (calls : u.calls = s.calls) (call' : Call)
    (server : call'.server = call.server) (requested : call'.request = call.request)
    (phase : Phase team contents (u.setCall w call') w call') (less : left call'.pc < left call.pc)
    (flight' : flight team u ≤ flight team s + 10 * team.members.length) :
    Advances team contents request s w call (u.setCall w call') := by
  refine ⟨call',⟨Function.update_self ..,server.trans working.server,requested.trans working.request,phase⟩,less,flight',?_⟩
  intro j other
  rw [← calls]
  exact Function.update_of_ne other ..

theorem Working.early_thread (working : Working team contents request s w call) (led : Led team s) (resting : Resting team contents s)
    (early : Early contents call.request call.pc) (answer : call.answer = none) (completed : call.completed = false)
    (moved : stepCall team.reach s w fresh call = some t) : Advances team contents request s w call t := by
  have leads : (s.managers call.server).amILeader = true := working.server ▸ led.leader
  have stored (key : String) : (s.managers call.server).database key = contents key := by
    rw [working.server,resting.stores _ team.inside]
  have goes {pc : Pc} (early : Early contents call.request pc) (less : left pc < left call.pc) :
      Advances team contents request s w call (s.setCall w (call.goto pc)) :=
    working.advance rfl (call.goto pc) rfl rfl
      (.early ⟨resting.stores,resting.inactive,resting.network,resting.votes⟩ early answer completed) less (Nat.le_add_right ..)
  generalize at_pc : call.pc = pc at early
  generalize asks : call.request = asked at early
  rw [at_pc,asks] at goes
  cases early with
  | start =>
    cases asked with
    | read key =>
      simp only [stepCall,at_pc,asks,leads,if_true] at moved
      cases moved
      exact goes .get (by simp [left])
    | write key data =>
      simp only [stepCall,at_pc,asks,leads,if_true] at moved
      cases moved
      exact goes .put (by simp [left])
  | @put key data =>
    simp only [stepCall,at_pc,asks] at moved
    cases moved
    have written : Written team contents key data
        ((s.setManager call.server ((s.managers call.server).put key data)).setCall w (call.goto .answerWrite)) := by
      refine ⟨?_,?_,?_,resting.network,resting.votes⟩
      · simp [State.setCall,State.setManager,LeaderManager.put,working.server,resting.stores _ team.inside]
      · intro member inside other
        simp [State.setCall,State.setManager,working.server,Function.update_of_ne other,resting.stores _ inside]
      · intro member inside transactionId
        by_cases here : member = team.leader
        · subst here
          simp [State.setCall,State.setManager,LeaderManager.put,working.server,resting.inactive _ team.inside]
        · simp [State.setCall,State.setManager,working.server,Function.update_of_ne here,resting.inactive _ inside]
    exact working.advance (u := s.setManager call.server ((s.managers call.server).put key data)) rfl (call.goto .answerWrite) rfl rfl
      (.written asks written (.inl ⟨rfl,answer⟩)) (by simp [at_pc,left,Call.goto]) (Nat.le_add_right ..)
  | @get key =>
    simp only [stepCall,at_pc,asks,stored] at moved
    cases found : contents key with
    | some data =>
      simp only [found] at moved
      cases moved
      exact goes (.testVote found) (by simp [left])
    | none =>
      simp only [found] at moved
      cases moved
      exact working.advance rfl (call.finish .unknown) rfl rfl
        (.absent asks found ⟨resting.stores,resting.inactive,resting.network,resting.votes⟩ rfl rfl)
        (by simp [at_pc,left,Call.finish]) (Nat.le_add_right ..)
  | testVote found =>
    simp only [stepCall,at_pc,asks,leads,if_true] at moved
    cases moved
    exact goes (.submitVote found) (by simp [left])
  | @submitVote key data found =>
    have unused : (s.managers call.server).activeVoting fresh = none := by
      rw [working.server]
      exact resting.inactive _ team.inside fresh
    have size : (s.managers call.server).spreadMembersSize = team.members.length := working.server ▸ led.size
    let u : State := s.setManager call.server { s.managers call.server with
      activeVoting := Function.update (s.managers call.server).activeVoting fresh (some w) }
    let call' : Call := { call with pc := .sendVoting fresh data, voting := some (.new team.members.length) }
    have next : stepCall team.reach s w fresh call = some (u.setCall w call') := by
      simp [stepCall,at_pc,asks,unused,size,u,call']
    cases moved.symm.trans next
    refine working.advance (u := u) rfl call' rfl rfl
      (.submitted asks ⟨?_,found,?_,resting.network,resting.votes⟩ rfl rfl answer completed) (by simp [at_pc,left,call'])
      (Nat.le_add_right ..)
    · intro member inside
      by_cases here : member = team.leader
      · subst here; simp [u,State.setCall,State.setManager,working.server,resting.stores _ team.inside]
      · simp [u,State.setCall,State.setManager,working.server,Function.update_of_ne here,resting.stores _ inside]
    · intro member inside transactionId
      by_cases here : member = team.leader
      · subst here
        by_cases same : transactionId = fresh
        · subst same; simp [u,State.setCall,State.setManager,working.server]
        · simp [u,State.setCall,State.setManager,working.server,same,resting.inactive _ team.inside]
      · simp [u,State.setCall,State.setManager,working.server,here,resting.inactive _ inside]

theorem stepCall_finished {reach : Nat → Option Nat} {i : Nat} (ends : call.pc = .finished) : stepCall reach s i fresh call = none := by
  simp [stepCall,ends]

theorem Written.sent {key data : String} (written : Written team contents key data s) (led : Led team s) :
    Spreading team contents key data (s.multicast team.leader [.appendData key data]) := by
  have sent : s.multicast team.leader [.appendData key data] =
      { s with network := (team.members.map fun member => ⟨member,.appendData key data⟩ : List Packet) } := by
    rw [State.multicast,if_pos (led.members ▸ team.inside),written.network,zero_add,led.members]
    simp [packets]
  rw [sent]
  refine ⟨written.leader,fun member inside other => .inr ⟨written.followers member inside other,?_⟩,written.inactive,?_,
    written.votes⟩
  · exact Multiset.mem_coe.mpr (List.mem_map.mpr ⟨member,inside,rfl⟩)
  · intro packet flies
    obtain ⟨member,inside,rfl⟩ := List.mem_map.mp (Multiset.mem_coe.mp flies)
    exact ⟨rfl,inside⟩

theorem Working.written_thread (working : Working team contents request s w call) (led : Led team s) {key data : String}
    (write : call.request = .write key data) (written : Written team contents key data s)
    (pc : call.pc = .answerWrite ∧ call.answer = none ∨ (call.pc = .testAppend ∨ call.pc = .sendAppend) ∧ call.answer = some .void)
    (moved : stepCall team.reach s w fresh call = some t) : Advances team contents request s w call t := by
  have leads : (s.managers call.server).amILeader = true := working.server ▸ led.leader
  have kept (call' : Call) : Written team contents key data (s.setCall w call') :=
    ⟨written.leader,written.followers,written.inactive,written.network,written.votes⟩
  rcases pc with ⟨at_pc,_⟩ | ⟨at_pc | at_pc,void⟩
  · simp only [stepCall,at_pc,write] at moved
    cases moved
    exact working.advance rfl _ rfl write.symm (.written rfl (kept _) (.inr ⟨.inl rfl,rfl⟩)) (by simp [at_pc,left])
      (Nat.le_add_right ..)
  · simp only [stepCall,at_pc,write,leads,if_true] at moved
    cases moved
    exact working.advance rfl (call.goto .sendAppend) rfl rfl (.written write (kept _) (.inr ⟨.inr rfl,void⟩))
      (by simp [at_pc,left,Call.goto]) (Nat.le_add_right ..)
  · simp only [stepCall,at_pc,write,working.server] at moved
    cases moved
    obtain ⟨leader,followers,inactive,flying,votes⟩ := written.sent led
    exact working.advance (multicast_calls ..) (call.goto .finished) rfl rfl
      (.spreading write ⟨leader,followers,inactive,flying,votes⟩ rfl void) (by simp [at_pc,left,Call.goto])
      (flight_multicast led ..)

/-- A step of the working call. -/
theorem Working.thread (working : Working team contents request s w call) (led : Led team s)
    (undisturbed : removing call.pc = true → ∀ server vote, s.votes server = some vote → uncommitted vote.pc = false)
    (moved : stepCall team.reach s w fresh call = some t) : Advances team contents request s w call t := by
  cases working.phase with
  | early resting early answer completed => exact working.early_thread led resting early answer completed moved
  | absent _ _ _ pc => cases (stepCall_finished pc).symm.trans moved
  | written write written pc => exact working.written_thread led write written pc moved
  | spreading _ _ pc => cases (stepCall_finished pc).symm.trans moved
  | @submitted key transactionId data read submitted at_pc object answer completed =>
    simp only [stepCall,at_pc,read,working.server] at moved
    cases moved
    have polling := Polling.opens ⟨transactionId,w,key,data⟩ led object completed submitted.stores submitted.value submitted.active
      submitted.network submitted.votes (.spin transactionId data)
    exact working.advance (multicast_calls ..) (call.goto (.spin transactionId data)) rfl rfl
      (.polling read polling (.inl rfl) answer) (by simp [at_pc,left,Call.goto]) (flight_multicast led ..)
  | @polling key transactionId data voting read polling pc answer =>
    have goes {pc : Pc} (next : pc = .isResult transactionId data ∨ pc = .remove transactionId data true)
        (completed : call.completed = true) (less : left pc < left call.pc) :
        Advances team contents request s w call (s.setCall w (call.goto pc)) :=
      working.advance rfl (call.goto pc) rfl rfl
        (.polling read (polling.frame (Function.update_self ..) rfl rfl rfl rfl rfl) (.inr ⟨next,completed⟩) answer) less
        (Nat.le_add_right ..)
    rcases pc with at_pc | ⟨at_pc | at_pc,completed⟩
    · simp only [stepCall,at_pc,read] at moved
      split at moved
      case isFalse => cases moved
      case isTrue completed =>
        cases moved
        exact goes (.inl rfl) completed (by simp [at_pc,left])
    · have active : (s.managers call.server).activeVoting transactionId = some w := by
        rw [working.server,polling.active _ team.inside]
        simp
      have result := (polling.completed completed).2
      simp only [stepCall,at_pc,read,active,Option.bind_some,working.called,polling.object,result] at moved
      cases moved
      exact goes (.inr rfl) completed (by simp [at_pc,left])
    · simp only [stepCall,at_pc,read,working.server] at moved
      cases moved
      have polled := polling.removed completed (undisturbed (by rw [at_pc]; rfl)) (call.goto (.answerRead data true))
      exact working.advance (u := s.setManager team.leader { s.managers team.leader with
          activeVoting := Function.update (s.managers team.leader).activeVoting transactionId none }) rfl
        (call.goto (.answerRead data true)) rfl rfl (.polled read polling.value polled (.inl ⟨rfl,answer⟩))
        (by simp [at_pc,left,Call.goto]) (Nat.le_add_right ..)
  | polled read value polled pc =>
    rcases pc with ⟨at_pc,_⟩ | ⟨at_pc,_⟩
    · simp only [stepCall,at_pc,read,if_true] at moved
      cases moved
      exact working.advance rfl _ rfl rfl (.polled read value (polled.frame rfl rfl rfl) (.inr ⟨rfl,rfl⟩))
        (by simp [at_pc,left,Call.finish]) (Nat.le_add_right ..)
    · cases (stepCall_finished at_pc).symm.trans moved

/-- A step of a vote leaves the call where it is. -/
theorem Working.vote (working : Working team contents request s w call) (led : Led team s) {server : Nat} {vote : VoteCall}
    (here : s.votes server = some vote)
    (undisturbed : loading vote.pc = true → ∀ other vote', s.votes other = some vote' → counting vote'.pc = false) :
    ∃ call', Working team contents request (stepVote s server vote) w call' ∧ call'.pc = call.pc ∧
      ∀ j, j ≠ w → (stepVote s server vote).calls j = s.calls j := by
  have nobody {goal : Prop} (votes : ∀ server, s.votes server = none) : goal := by cases (votes server).symm.trans here
  cases working.phase with
  | early resting => exact nobody resting.votes
  | absent _ _ resting => exact nobody resting.votes
  | written _ written => exact nobody written.votes
  | spreading _ spreading => exact nobody spreading.votes
  | submitted _ submitted => exact nobody submitted.votes
  | polling read polling pc answer =>
    obtain ⟨call',voting',recounted,polling',others⟩ := polling.vote led here fun owner at_pc other vote' owner' counted there stores => by
      have free := undisturbed (by rw [at_pc]; rfl) other vote' there
      rw [stores] at free
      cases free
    refine ⟨call',⟨polling'.called,recounted.server.trans working.server,recounted.request.trans working.request,?_⟩,recounted.pc,others⟩
    refine .polling (recounted.request.trans read) polling' ?_ (recounted.answer.trans answer)
    rw [recounted.pc]
    exact pc.imp_right (And.imp_right recounted.completed)
  | polled read value polled pc =>
    obtain ⟨call',recounted,called,polled',others⟩ := polled.vote here working.called
    refine ⟨call',⟨called,recounted.server.trans working.server,recounted.request.trans working.request,?_⟩,recounted.pc,others⟩
    refine .polled (recounted.request.trans read) value polled' ?_
    rwa [recounted.pc,recounted.answer]

/-- An APPEND_DATA comes to a server. -/
theorem Spreading.delivered {key data : String} (spreading : Spreading team contents key data s) (led : Led team s) {packet : Packet}
    (flying : packet ∈ s.network) :
    Spreading team contents key data ({ s with network := s.network.erase packet }.handled team.reach packet.receiver
      (messageReceived (s.managers packet.receiver) packet.message)) := by
  obtain ⟨told,inside⟩ := spreading.flying packet flying
  have next : { s with network := s.network.erase packet }.handled team.reach packet.receiver
      (messageReceived (s.managers packet.receiver) packet.message) =
      { s with network := s.network.erase packet }.setManager packet.receiver
        (appendDataReceived (s.managers packet.receiver) key data) := by
    simp only [told,State.handled,messageReceived,multicast_nil]
  rw [next]
  have still : ∀ flies ∈ s.network.erase packet, flies.message = .appendData key data ∧ flies.receiver ∈ team.members :=
    fun flies member => spreading.flying flies (Multiset.mem_of_mem_erase member)
  have voting : (appendDataReceived (s.managers packet.receiver) key data).activeVoting =
      (s.managers packet.receiver).activeVoting := by
    unfold appendDataReceived
    split <;> rfl
  refine ⟨?_,?_,?_,still,spreading.votes⟩
  · by_cases here : team.leader = packet.receiver
    · have leads : (s.managers packet.receiver).amILeader = true := here ▸ led.leader
      simp only [State.setManager,here,Function.update_self,appendDataReceived,leads,if_true]
      rw [← here]
      exact spreading.leader
    · simp only [State.setManager,Function.update_of_ne here]
      exact spreading.leader
  · intro member inside' other
    by_cases here : member = packet.receiver
    · subst here
      left
      have follows := led.follows inside other
      simp only [State.setManager,Function.update_self,appendDataReceived,follows,LeaderManager.put]
      rcases spreading.followers _ inside other with has | ⟨before,_⟩
      · simp [has]
      · simp [before]
    · simp only [State.setManager,Function.update_of_ne here]
      refine (spreading.followers member inside' other).imp_right (And.imp_right fun flies => ?_)
      exact (Multiset.mem_erase_of_ne fun same => here (congrArg Packet.receiver same)).mpr flies
  · intro member inside' transactionId
    by_cases here : member = packet.receiver
    · subst here
      simp only [State.setManager,Function.update_self,voting]
      exact spreading.inactive _ inside' transactionId
    · simp only [State.setManager,Function.update_of_ne here]
      exact spreading.inactive _ inside' transactionId

/-- A message that comes to a server leaves the call where it is. -/
theorem Working.delivered (working : Working team contents request s w call) (led : Led team s) {packet : Packet}
    (flying : packet ∈ s.network) (free : s.votes packet.receiver = none) :
    Working team contents request ({ s with network := s.network.erase packet }.handled team.reach packet.receiver
      (messageReceived (s.managers packet.receiver) packet.message)) w call := by
  have nothing {goal : Prop} (network : s.network = 0) : goal := by simp [network] at flying
  have called : ({ s with network := s.network.erase packet }.handled team.reach packet.receiver
      (messageReceived (s.managers packet.receiver) packet.message)).calls w = some call := by
    rw [handled_calls]
    exact working.called
  refine ⟨called,working.server,working.request,?_⟩
  cases working.phase with
  | early resting => exact nothing resting.network
  | absent _ _ resting => exact nothing resting.network
  | written _ written => exact nothing written.network
  | spreading write spreading pc answer => exact .spreading write (spreading.delivered led flying) pc answer
  | submitted _ submitted => exact nothing submitted.network
  | polling read polling pc answer => exact .polling read (polling.delivered led flying free) pc answer
  | polled read value polled pc =>
    obtain ⟨next,polled'⟩ := polled.delivered led flying
    rw [next]
    exact .polled read value polled' pc

/-- When no message and no vote is under way the call can go on, or is over. -/
theorem Working.enabled (working : Working team contents request s w call) (led : Led team s) (network : s.network = 0)
    (votes : ∀ server, s.votes server = none) :
    call.pc = .finished ∨ ∃ fresh, (stepCall team.reach s w fresh call).isSome = true := by
  have leads : (s.managers call.server).amILeader = true := working.server ▸ led.leader
  cases working.phase with
  | early resting early _ _ =>
    right
    generalize at_pc : call.pc = pc at early
    generalize asks : call.request = asked at early
    cases early with
    | start => cases asked <;> exact ⟨0,by simp only [stepCall,at_pc,asks,Option.isSome_some]⟩
    | put => exact ⟨0,by simp only [stepCall,at_pc,asks,Option.isSome_some]⟩
    | @get key =>
      cases found : (s.managers call.server).database key with
      | some data => exact ⟨0,by simp only [stepCall,at_pc,asks,found,Option.isSome_some]⟩
      | none => exact ⟨0,by simp only [stepCall,at_pc,asks,found,Option.isSome_some]⟩
    | testVote => exact ⟨0,by simp only [stepCall,at_pc,asks,Option.isSome_some]⟩
    | submitVote =>
      have unused : (s.managers call.server).activeVoting 0 = none := by
        rw [working.server]
        exact resting.inactive _ team.inside 0
      exact ⟨0,by simp only [stepCall,at_pc,asks,unused,if_true,Option.isSome_some]⟩
  | absent _ _ _ pc => exact .inl pc
  | written write _ pc =>
    right
    rcases pc with ⟨at_pc,_⟩ | ⟨at_pc | at_pc,_⟩ <;> exact ⟨0,by simp only [stepCall,at_pc,write,Option.isSome_some]⟩
  | spreading _ _ pc => exact .inl pc
  | submitted read _ at_pc => exact .inr ⟨0,by simp only [stepCall,at_pc,read,Option.isSome_some]⟩
  | @polling key transactionId data voting read polling pc _ =>
    right
    rcases pc with at_pc | ⟨at_pc | at_pc,_⟩
    · have counted : outstanding team ⟨transactionId,w,key,data⟩ s = ∅ := by
        refine Finset.filter_false_of_mem fun server _ => ?_
        simp [stillToCount,network,votes]
      have whole := polling.tally
      rw [counted,Finset.card_empty,add_zero] at whole
      have completed : call.completed = true := by
        rcases polling.finishing whole with done | ⟨server,vote,there,_⟩
        · exact done
        · cases (votes server).symm.trans there
      exact ⟨0,by simp only [stepCall,at_pc,read,completed,if_true,Option.isSome_some]⟩
    · have active : (s.managers call.server).activeVoting transactionId = some w := by
        rw [working.server,polling.active _ team.inside]
        simp
      exact ⟨0,by simp only [stepCall,at_pc,read,active,Option.bind_some,working.called,polling.object,Option.isSome_some]⟩
    · exact ⟨0,by simp only [stepCall,at_pc,read,Option.isSome_some]⟩
  | polled read _ _ pc =>
    rcases pc with ⟨at_pc,_⟩ | ⟨at_pc,_⟩
    · exact .inr ⟨0,by simp only [stepCall,at_pc,read,Option.isSome_some]⟩
    · exact .inl at_pc

/-- When the call is over and nothing is under way, the servers are as the map is. -/
theorem Working.done (working : Working team contents request s w call) (ends : call.pc = .finished) (network : s.network = 0) :
    Stores team (perform contents request) s ∧ Inactive team s := by
  have requested := working.request
  cases working.phase with
  | early _ early => exact absurd ends early.unfinished
  | absent read _ resting =>
    rw [← requested,read]
    exact ⟨resting.stores,resting.inactive⟩
  | written _ _ pc => rcases pc with ⟨pc,_⟩ | ⟨pc | pc,_⟩ <;> cases ends.symm.trans pc
  | spreading write spreading =>
    rw [← requested,write]
    refine ⟨fun member inside => ?_,spreading.inactive⟩
    by_cases here : member = team.leader
    · rw [here]
      exact spreading.leader
    · rcases spreading.followers member inside here with has | ⟨_,flies⟩
      · exact has
      · simp [network] at flies
  | submitted _ _ pc => cases ends.symm.trans pc
  | polling _ _ pc => rcases pc with pc | ⟨pc | pc,_⟩ <;> cases ends.symm.trans pc
  | polled read _ polled =>
    rw [← requested,read]
    exact ⟨polled.stores,polled.inactive⟩

end

end CdPraticas.Serving
