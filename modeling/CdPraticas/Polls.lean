import CdPraticas.Copies

/-!
# A read and its votes

The leader answers a read when every other server has voted for the value. Here
is what holds from the CONSENSUS_VOTING to the end of the last vote: the votes
counted and those still outstanding make up the group.
-/

namespace CdPraticas.Polls
open Groups Replicas Transactions ReplicaGroup Elections Copies Runs

/-- The servers of the group, their leader, and where their channels lead. -/
structure Team where
  members : List Nat
  leader : Nat
  reach : Nat → Option Nat
  nodup : members.Nodup
  inside : leader ∈ members
  several : 2 ≤ members.length
  reaches : ∀ member ∈ members, member ≠ leader → reach member = some leader

/-- The servers agree on the leader, and nothing about it is going on. -/
structure Led (team : Team) (s : State) : Prop where
  members : s.members = team.members
  handled : s.unhandled = []
  calm : (election s).network = 0
  leads : ∀ member ∈ team.members, (s.managers member).amILeader = true ↔ member = team.leader
  channel : ∀ member ∈ team.members, member ≠ team.leader → (s.managers member).channel = true
  size : (s.managers team.leader).spreadMembersSize = team.members.length

/-- Every server stores `contents`. -/
def Stores (team : Team) (contents : String → Option String) (s : State) : Prop :=
  ∀ member ∈ team.members, (s.managers member).database = contents

/-- No voting transaction is active. -/
def Inactive (team : Team) (s : State) : Prop :=
  ∀ member ∈ team.members, ∀ transactionId, (s.managers member).activeVoting transactionId = none

/-- A vote that the leader has not counted yet. -/
def uncounted : VotePc → Bool
  | .vote | .get | .load _ | .store _ _ => true
  | _ => false

/-- A vote that is counted, and puts the transaction once more. -/
def uncommitted : VotePc → Bool
  | .test _ | .setResult _ _ | .put _ _ => true
  | _ => false

section
variable {team : Team} {s t : State} {a : Action}

theorem turn_settings {reach : Nat → Option Nat} {i fresh : Nat} {call : Call} (turn : Turn reach s i fresh call t) (server : Nat) :
    (t.managers server).channel = (s.managers server).channel ∧
      (t.managers server).spreadMembersSize = (s.managers server).spreadMembersSize := by
  cases turn with
  | put | submitVote | remove =>
    by_cases same : server = call.server
    · subst same; simp [State.setCall,State.setManager,LeaderManager.put]
    · simp [State.setCall,State.setManager,Function.update_of_ne same]
  | sendAppend | sendVoting =>
    simp only [State.setCall]
    rw [multicast_managers]
    exact ⟨rfl,rfl⟩
  | _ => exact ⟨rfl,rfl⟩

theorem stepVote_settings (other : Nat) (call : VoteCall) (server : Nat) :
    ((stepVote s other call).managers server).channel = (s.managers server).channel ∧
      ((stepVote s other call).managers server).spreadMembersSize = (s.managers server).spreadMembersSize := by
  unfold stepVote
  cases call.pc with
  | put owner last =>
    dsimp only
    by_cases same : server = call.target
    · subst same; simp [State.setVote,State.setManager]
    · simp [State.setVote,State.setManager,Function.update_of_ne same]
  | _ =>
    dsimp only
    repeat' split
    all_goals exact ⟨rfl,rfl⟩

/-- Every message in flight is about a key. -/
theorem Led.about_key (led : Led team s) {packet : Packet} (flying : packet ∈ s.network) : elective packet.message = false := by
  by_contra about
  have seen : packet ∈ (election s).network := Multiset.mem_filter.mpr ⟨flying,by simpa using about⟩
  rw [led.calm] at seen
  simp at seen

theorem Led.settings (led : Led team s) (stays : Stays a) (move : step team.reach a s = some t) (server : Nat) :
    (t.managers server).channel = (s.managers server).channel ∧
      (t.managers server).spreadMembersSize = (s.managers server).spreadMembersSize := by
  cases stepped move with
  | join | depart => exact stays.elim
  | handle due _ =>
    rw [led.handled] at due
    cases due
  | @deliver packet flying _ =>
    have about := led.about_key flying
    rw [handled_managers]
    by_cases same : server = packet.receiver
    · subst same
      rw [Function.update_self]
      cases message : packet.message with
      | newLeader | whoIsLeader => simp [message,elective] at about
      | appendData key data =>
        simp only [messageReceived,appendDataReceived]
        split <;> exact ⟨rfl,rfl⟩
      | consensusVoting transactionId key data =>
        simp only [messageReceived,handleVoteRequest]
        repeat' split
        all_goals exact ⟨rfl,rfl⟩
    · rw [Function.update_of_ne same]
      exact ⟨rfl,rfl⟩
  | @vote other vote => exact stepVote_settings other vote server
  | call => exact ⟨rfl,rfl⟩
  | thread _ moved => exact turn_settings (stepCall_turn moved) server

theorem Led.step (led : Led team s) (stays : Stays a) (move : step team.reach a s = some t) : Led team t := by
  have still := election_still led.handled led.calm stays move
  refine ⟨(congrArg Election.members still).trans led.members,(congrArg Election.unhandled still).trans led.handled,
    by rw [still]; exact led.calm,?_,?_,?_⟩
  · intro member inside
    rw [amILeader_of_election still]
    exact led.leads member inside
  · intro member inside other
    rw [(led.settings stays move member).1]
    exact led.channel member inside other
  · rw [(led.settings stays move team.leader).2]
    exact led.size

theorem Led.leader (led : Led team s) : (s.managers team.leader).amILeader = true := (led.leads _ team.inside).mpr rfl

theorem Led.follows (led : Led team s) {member : Nat} (inside : member ∈ team.members) (other : member ≠ team.leader) :
    (s.managers member).amILeader = false := by
  simpa [other] using led.leads member inside

end

/-! ### The count -/

/-- The vote that a read has the servers take: the transaction, the call that
    made it, the key and the value it found. -/
structure Poll where
  transactionId : Nat
  owner : Nat
  key : String
  data : String

def Poll.question (poll : Poll) : Message := .consensusVoting poll.transactionId poll.key poll.data

/-- Whether a server is still to be counted. -/
def stillToCount (poll : Poll) (s : State) (server : Nat) : Bool :=
  decide (⟨server,poll.question⟩ ∈ s.network) || (s.votes server).any fun vote => uncounted vote.pc

/-- The servers that are still to be counted. -/
def outstanding (team : Team) (poll : Poll) (s : State) : Finset Nat :=
  (team.members.toFinset.erase team.leader).filter fun server => stillToCount poll s server = true

/-- Everybody is counted, and the result is set. -/
def Decided (team : Team) (voting : Voting) : Prop := voting.votesReceived = team.members.length ∧ voting.result = true

/-- Where a vote stands at the leader, and what it has found there. -/
inductive Stage (team : Team) (poll : Poll) (voting : Voting) : VotePc → Prop
  | vote : Stage team poll voting .vote
  | get : Stage team poll voting .get
  | load : Stage team poll voting (.load poll.owner)
  | store : Stage team poll voting (.store poll.owner voting.votesReceived)
  | test : Stage team poll voting (.test poll.owner)
  | setResult (full : voting.votesReceived = team.members.length) : Stage team poll voting (.setResult poll.owner true)
  | put {last : Bool} (decided : last = true → Decided team voting) : Stage team poll voting (.put poll.owner last)
  | complete (decided : Decided team voting) : Stage team poll voting (.complete poll.owner)
  | returned : Stage team poll voting .returned

/-- The votes one of which completes the call when everybody is counted. -/
def closing : VotePc → Bool
  | .test _ | .setResult _ true | .put _ true | .complete _ => true
  | _ => false

/-- A vote over the channel of a server that has taken the question. -/
structure Cast (team : Team) (poll : Poll) (s : State) (server : Nat) (vote : VoteCall) : Prop where
  member : server ∈ team.members
  follower : server ≠ team.leader
  taken : ⟨server,poll.question⟩ ∉ s.network
  target : vote.target = team.leader
  transactionId : vote.transactionId = poll.transactionId
  agrees : vote.vote = true

/-- While the votes are taken. -/
structure Polling (team : Team) (poll : Poll) (contents : String → Option String) (s : State) (call : Call) (voting : Voting) :
    Prop where
  called : s.calls poll.owner = some call
  object : call.voting = some voting
  stores : Stores team contents s
  value : contents poll.key = some poll.data
  active : ∀ member ∈ team.members, ∀ transactionId, (s.managers member).activeVoting transactionId =
    if member = team.leader ∧ transactionId = poll.transactionId then some poll.owner else none
  flying : ∀ packet ∈ s.network, packet.message = poll.question ∧ packet.receiver ∈ team.members
  once : s.network.Nodup
  cast : ∀ server vote, s.votes server = some vote → Cast team poll s server vote
  expected : voting.expectedVotes = team.members.length
  tally : voting.votesReceived + (outstanding team poll s).card = team.members.length
  stage : ∀ server vote, s.votes server = some vote → Stage team poll voting vote.pc
  alone : ∀ server other vote vote' read read', s.votes server = some vote → s.votes other = some vote' →
    vote.pc = .store poll.owner read → vote'.pc = .store poll.owner read' → server = other
  completed : call.completed = true → Decided team voting
  finishing : voting.votesReceived = team.members.length → call.completed = true ∨
    ∃ server vote, s.votes server = some vote ∧ closing vote.pc = true

section
variable {team : Team} {poll : Poll} {contents : String → Option String} {s t : State} {call call' : Call}
  {voting voting' : Voting}

/-- One server's standing changes. -/
theorem outstanding_changed (poll : Poll) (s t : State) {server : Nat} (member : server ∈ team.members) (follower : server ≠ team.leader)
    (same : ∀ other, other ≠ server → stillToCount poll t other = stillToCount poll s other) :
    (outstanding team poll t).card + (stillToCount poll s server).toNat =
      (outstanding team poll s).card + (stillToCount poll t server).toNat := by
  have inside : server ∈ team.members.toFinset.erase team.leader :=
    Finset.mem_erase.mpr ⟨follower,List.mem_toFinset.mpr member⟩
  have split (u : State) : (outstanding team poll u).card =
      (((team.members.toFinset.erase team.leader).erase server).filter fun other => stillToCount poll u other = true).card +
        (stillToCount poll u server).toNat := by
    have whole := Finset.insert_erase inside
    rw [outstanding,← whole,Finset.filter_insert]
    cases here : stillToCount poll u server with
    | true =>
      rw [if_pos rfl,Finset.card_insert_of_notMem (by simp),whole]
      rfl
    | false =>
      rw [if_neg (by simp),whole]
      rfl
  have rest : ((team.members.toFinset.erase team.leader).erase server).filter (fun other => stillToCount poll t other = true) =
      ((team.members.toFinset.erase team.leader).erase server).filter fun other => stillToCount poll s other = true :=
    Finset.filter_congr fun other others => by rw [same other (Finset.ne_of_mem_erase others)]
  rw [split t,split s,rest]
  omega

/-- A vote goes on to `pc`. -/
theorem Polling.moved (polling : Polling team poll contents s call voting) {server : Nat} {vote : VoteCall} {pc : VotePc}
    (here : s.votes server = some vote) (votes : t.votes = Function.update s.votes server (some { vote with pc := pc }))
    (network : t.network = s.network)
    (databases : ∀ member, (t.managers member).database = (s.managers member).database)
    (active : ∀ member ∈ team.members, (t.managers member).activeVoting = (s.managers member).activeVoting)
    (called : t.calls poll.owner = some call') (object : call'.voting = some voting')
    (expected : voting'.expectedVotes = voting.expectedVotes)
    (counted : voting'.votesReceived + (uncounted pc).toNat = voting.votesReceived + (uncounted vote.pc).toNat)
    (stage : Stage team poll voting' pc)
    (others : ∀ other vote', other ≠ server → s.votes other = some vote' → Stage team poll voting' vote'.pc)
    (alone : ∀ read, pc = .store poll.owner read → ∀ other vote' read', s.votes other = some vote' →
      vote'.pc ≠ .store poll.owner read')
    (completed : call'.completed = true → Decided team voting')
    (finishing : voting'.votesReceived = team.members.length → call'.completed = true ∨ closing pc = true ∨
      ∃ other vote', other ≠ server ∧ s.votes other = some vote' ∧ closing vote'.pc = true) :
    Polling team poll contents t call' voting' := by
  have cast := polling.cast server vote here
  have self : t.votes server = some { vote with pc := pc } := by rw [votes,Function.update_self]
  have elsewhere {other : Nat} (different : other ≠ server) : t.votes other = s.votes other := by
    rw [votes,Function.update_of_ne different]
  have found {other : Nat} {vote' : VoteCall} (there : t.votes other = some vote') :
      other = server ∧ vote' = { vote with pc := pc } ∨ other ≠ server ∧ s.votes other = some vote' := by
    by_cases same : other = server
    · subst same
      exact .inl ⟨rfl,(Option.some.inj (self.symm.trans there)).symm⟩
    · exact .inr ⟨same,(elsewhere same).symm.trans there⟩
  have tally := outstanding_changed poll s t cast.member cast.follower fun other different => by
    rw [stillToCount,stillToCount,elsewhere different,network]
  have before : stillToCount poll s server = uncounted vote.pc := by simp [stillToCount,cast.taken,here]
  have after : stillToCount poll t server = uncounted pc := by simp [stillToCount,network,cast.taken,self]
  rw [before,after] at tally
  refine ⟨called,object,fun member inside => (databases member).trans (polling.stores member inside),polling.value,?_,
    network ▸ polling.flying,network ▸ polling.once,?_,expected.trans polling.expected,?_,?_,?_,completed,?_⟩
  · intro member inside transactionId
    rw [active member inside]
    exact polling.active member inside transactionId
  · intro other vote' there
    rcases found there with ⟨rfl,rfl⟩ | ⟨_,old⟩
    · exact ⟨cast.member,cast.follower,network ▸ cast.taken,cast.target,cast.transactionId,cast.agrees⟩
    · obtain ⟨member,follower,taken,target,transactionId,agrees⟩ := polling.cast other vote' old
      exact ⟨member,follower,network ▸ taken,target,transactionId,agrees⟩
  · have whole := polling.tally
    omega
  · intro other vote' there
    rcases found there with ⟨rfl,rfl⟩ | ⟨different,old⟩
    · exact stage
    · exact others other vote' different old
  · intro one two vote₁ vote₂ read read' there there' at_store at_store'
    rcases found there with ⟨rfl,rfl⟩ | ⟨_,old⟩ <;> rcases found there' with ⟨rfl,rfl⟩ | ⟨_,old'⟩
    · rfl
    · exact absurd at_store' (alone read at_store two vote₂ read' old')
    · exact absurd at_store (alone read' at_store' one vote₁ read old)
    · exact polling.alone one two vote₁ vote₂ read read' old old' at_store at_store'
  · intro full
    rcases finishing full with done | here | ⟨other,vote',different,old,closes⟩
    · exact .inl done
    · exact .inr ⟨server,_,self,here⟩
    · exact .inr ⟨other,vote',(elsewhere different).trans old,closes⟩

/-- A vote goes on and counts nothing. -/
theorem Polling.goes (polling : Polling team poll contents s call voting) {server : Nat} {vote : VoteCall} {pc : VotePc}
    (here : s.votes server = some vote) (votes : t.votes = Function.update s.votes server (some { vote with pc := pc }))
    (network : t.network = s.network) (calls : t.calls = s.calls)
    (databases : ∀ member, (t.managers member).database = (s.managers member).database)
    (active : ∀ member ∈ team.members, (t.managers member).activeVoting = (s.managers member).activeVoting)
    (counts : uncounted pc = uncounted vote.pc) (stage : Stage team poll voting pc)
    (alone : ∀ read, pc = .store poll.owner read → ∀ other vote' read', s.votes other = some vote' →
      vote'.pc ≠ .store poll.owner read')
    (closes : voting.votesReceived = team.members.length → closing vote.pc = true → closing pc = true) :
    Polling team poll contents t call voting := by
  refine polling.moved here votes network databases active (calls ▸ polling.called) polling.object rfl (by rw [counts]) stage
    (fun other vote' _ there => polling.stage other vote' there) alone polling.completed fun full => ?_
  rcases polling.finishing full with done | ⟨other,vote',there,closing'⟩
  · exact .inl done
  · by_cases same : other = server
    · subst same
      cases here.symm.trans there
      exact .inr (.inl (closes full closing'))
    · exact .inr (.inr ⟨other,vote',same,there,closing'⟩)

/-- A vote is over. -/
theorem Polling.returned (polling : Polling team poll contents s call voting) {server : Nat} {vote : VoteCall}
    (here : s.votes server = some vote) (at_pc : vote.pc = .returned) :
    Polling team poll contents (s.setVote server none) call voting := by
  have cast := polling.cast server vote here
  have found {other : Nat} {vote' : VoteCall} (there : (s.setVote server none).votes other = some vote') :
      other ≠ server ∧ s.votes other = some vote' := by
    by_cases same : other = server
    · subst same
      simp [State.setVote] at there
    · exact ⟨same,(Function.update_of_ne same ..).symm.trans there⟩
  have tally := outstanding_changed poll s (s.setVote server none) cast.member cast.follower fun other different => by
    rw [stillToCount,stillToCount]
    simp only [State.setVote]
    rw [Function.update_of_ne different]
    rfl
  have before : stillToCount poll s server = false := by simp [stillToCount,cast.taken,here,at_pc,uncounted]
  have after : stillToCount poll (s.setVote server none) server = false := by simp [stillToCount,State.setVote,cast.taken]
  rw [before,after] at tally
  refine ⟨polling.called,polling.object,polling.stores,polling.value,polling.active,polling.flying,polling.once,
    fun other vote' there => ?_,polling.expected,?_,fun other vote' there => polling.stage other vote' (found there).2,?_,
    polling.completed,fun full => ?_⟩
  · obtain ⟨member,follower,taken,target,transactionId,agrees⟩ := polling.cast other vote' (found there).2
    exact ⟨member,follower,taken,target,transactionId,agrees⟩
  · have whole := polling.tally
    simp only [Bool.toNat_false,add_zero] at tally
    rw [tally]
    exact whole
  · intro one two vote₁ vote₂ read read' there there'
    exact polling.alone one two vote₁ vote₂ read read' (found there).2 (found there').2
  · rcases polling.finishing full with done | ⟨other,vote',there,closes⟩
    · exact .inl done
    · have different : other ≠ server := by
        rintro rfl
        cases here.symm.trans there
        rw [at_pc] at closes
        cases closes
      exact .inr ⟨other,vote',(Function.update_of_ne different ..).trans there,closes⟩

/-- With a server still to be counted not everybody is. -/
theorem Polling.not_full (polling : Polling team poll contents s call voting) {server : Nat} {vote : VoteCall}
    (here : s.votes server = some vote) (counting : uncounted vote.pc = true) :
    voting.votesReceived < team.members.length := by
  have cast := polling.cast server vote here
  have inside : server ∈ outstanding team poll s := by
    refine Finset.mem_filter.mpr ⟨Finset.mem_erase.mpr ⟨cast.follower,List.mem_toFinset.mpr cast.member⟩,?_⟩
    simp [stillToCount,here,counting]
  have positive := Finset.card_pos.mpr ⟨server,inside⟩
  have whole := polling.tally
  omega

/-- A vote changes nothing of a call but its `Voting` object, and sets its flag. -/
structure Recounted (call call' : Call) : Prop where
  server : call'.server = call.server
  request : call'.request = call.request
  pc : call'.pc = call.pc
  answer : call'.answer = call.answer
  completed : call.completed = true → call'.completed = true

theorem Recounted.refl (call : Call) : Recounted call call := ⟨rfl,rfl,rfl,rfl,id⟩

/-- What a step of a vote leaves. -/
theorem Polling.vote (polling : Polling team poll contents s call voting) (led : Led team s) {server : Nat} {vote : VoteCall}
    (here : s.votes server = some vote)
    (undisturbed : ∀ owner, vote.pc = .load owner → ∀ other vote' owner' read, s.votes other = some vote' →
      vote'.pc ≠ .store owner' read) :
    ∃ call' voting', Recounted call call' ∧ Polling team poll contents (stepVote s server vote) call' voting' ∧
      ∀ j, j ≠ poll.owner → (stepVote s server vote).calls j = s.calls j := by
  have cast := polling.cast server vote here
  have active : (s.managers team.leader).activeVoting poll.transactionId = some poll.owner := by
    rw [polling.active _ team.inside,if_pos ⟨rfl,rfl⟩]
  have object : (s.calls poll.owner).bind Call.voting = some voting := by simp [polling.called,polling.object]
  have stage := polling.stage server vote here
  generalize at_pc : vote.pc = pc at stage
  cases stage with
  | vote =>
    have next : stepVote s server vote = s.setVote server (some { vote with pc := .get }) := by
      simp [stepVote,at_pc,cast.target,led.leader]
    rw [next]
    exact ⟨call,voting,.refl call,polling.goes here rfl rfl rfl (fun _ => rfl) (fun _ _ => rfl) (by simp [at_pc,uncounted]) .get
      (by simp) (by simp [at_pc,closing]),fun _ _ => rfl⟩
  | get =>
    have next : stepVote s server vote = s.setVote server (some { vote with pc := .load poll.owner }) := by
      simp [stepVote,at_pc,cast.target,cast.transactionId,active]
    rw [next]
    exact ⟨call,voting,.refl call,polling.goes here rfl rfl rfl (fun _ => rfl) (fun _ _ => rfl) (by simp [at_pc,uncounted]) .load
      (by simp) (by simp [at_pc,closing]),fun _ _ => rfl⟩
  | load =>
    have next : stepVote s server vote = s.setVote server (some { vote with pc := .store poll.owner voting.votesReceived }) := by
      simp only [stepVote,at_pc,object]
    rw [next]
    refine ⟨call,voting,.refl call,polling.goes here rfl rfl rfl (fun _ => rfl) (fun _ _ => rfl) (by simp [at_pc,uncounted]) .store
      (fun _ _ other vote' read' there => undisturbed _ at_pc other vote' _ read' there) (by simp [at_pc,closing]),fun _ _ => rfl⟩
  | store =>
    let counted : Voting := { voting with votesReceived := voting.votesReceived + 1 }
    let recounted : State := { s with calls := Function.update s.calls poll.owner (some { call with voting := some counted }) }
    have next : stepVote s server vote = recounted.setVote server (some { vote with pc := .test poll.owner }) := by
      simp [stepVote,at_pc,polling.called,polling.object,counted,recounted]
    have few := polling.not_full here (by rw [at_pc]; rfl)
    rw [next]
    refine ⟨{ call with voting := some counted },counted,⟨rfl,rfl,rfl,rfl,id⟩,polling.moved here rfl rfl (fun _ => rfl) (fun _ _ => rfl)
      (Function.update_self ..) rfl rfl (by simp [at_pc,uncounted,counted]) .test ?_ (by simp) ?_ fun _ => .inr (.inl rfl),
      fun j other => Function.update_of_ne other ..⟩
    · intro other vote' different there
      have stage' := polling.stage other vote' there
      generalize there_pc : vote'.pc = pc at stage'
      cases stage' with
      | vote => exact .vote
      | get => exact .get
      | load => exact .load
      | store => exact absurd (polling.alone _ _ _ _ _ _ there here there_pc at_pc) different
      | test => exact .test
      | setResult full => exact absurd full few.ne
      | put decided => exact .put fun last => absurd (decided last).1 few.ne
      | complete decided => exact absurd decided.1 few.ne
      | returned => exact .returned
    · exact fun done => absurd (polling.completed done).1 few.ne
  | test =>
    by_cases full : voting.votesReceived = team.members.length
    · have next : stepVote s server vote = s.setVote server (some { vote with pc := .setResult poll.owner true }) := by
        simp [stepVote,at_pc,object,cast.agrees,polling.expected,full]
      rw [next]
      exact ⟨call,voting,.refl call,polling.goes here rfl rfl rfl (fun _ => rfl) (fun _ _ => rfl) (by simp [at_pc,uncounted])
        (.setResult full) (by simp) (fun _ _ => rfl),fun _ _ => rfl⟩
    · have next : stepVote s server vote = s.setVote server (some { vote with pc := .put poll.owner false }) := by
        simp [stepVote,at_pc,object,cast.agrees,polling.expected,Ne.symm full]
      rw [next]
      exact ⟨call,voting,.refl call,polling.goes here rfl rfl rfl (fun _ => rfl) (fun _ _ => rfl) (by simp [at_pc,uncounted])
        (.put (by simp)) (by simp) (fun all => absurd all full),fun _ _ => rfl⟩
  | setResult full =>
    let decided : Voting := { voting with result := true }
    let resolved : State := { s with calls := Function.update s.calls poll.owner (some { call with voting := some decided }) }
    have next : stepVote s server vote = resolved.setVote server (some { vote with pc := .put poll.owner true }) := by
      simp [stepVote,at_pc,polling.called,polling.object,decided,resolved]
    rw [next]
    refine ⟨{ call with voting := some decided },decided,⟨rfl,rfl,rfl,rfl,id⟩,polling.moved here rfl rfl (fun _ => rfl) (fun _ _ => rfl)
      (Function.update_self ..) rfl rfl (by simp [at_pc,uncounted,decided]) (.put fun _ => ⟨full,rfl⟩) ?_ (by simp)
      (fun _ => ⟨full,rfl⟩) fun _ => .inr (.inl rfl),fun j other => Function.update_of_ne other ..⟩
    intro other vote' _ there
    have stage' := polling.stage other vote' there
    generalize vote'.pc = pc at stage'
    cases stage' with
    | vote => exact .vote
    | get => exact .get
    | load => exact .load
    | store => exact .store
    | test => exact .test
    | setResult full => exact .setResult full
    | put _ => exact .put fun _ => ⟨full,rfl⟩
    | complete _ => exact .complete ⟨full,rfl⟩
    | returned => exact .returned
  | @put last decided =>
    let after : VotePc := if last then .complete poll.owner else .returned
    have next : stepVote s server vote = (s.setManager team.leader { s.managers team.leader with
        activeVoting := Function.update (s.managers team.leader).activeVoting poll.transactionId (some poll.owner) }).setVote
          server (some { vote with pc := after }) := by
      simp only [stepVote,at_pc,cast.target,cast.transactionId]
      rfl
    rw [next]
    refine ⟨call,voting,.refl call,polling.goes here rfl rfl rfl ?_ ?_ ?_ ?_ ?_ ?_,fun _ _ => rfl⟩
    · intro member
      by_cases same : member = team.leader
      · subst same; simp [State.setVote,State.setManager]
      · simp [State.setVote,State.setManager,Function.update_of_ne same]
    · intro member _
      by_cases same : member = team.leader
      · subst same
        simp only [State.setVote,State.setManager,Function.update_self]
        rw [← active,Function.update_eq_self]
      · simp [State.setVote,State.setManager,Function.update_of_ne same]
    · cases last <;> simp [after,at_pc,uncounted]
    · cases last with
      | true => exact .complete (decided rfl)
      | false => exact .returned
    · cases last <;> simp [after]
    · cases last <;> simp [after,at_pc,closing]
  | complete decided =>
    let completed : State := { s with calls := Function.update s.calls poll.owner (some { call with completed := true }) }
    have next : stepVote s server vote = completed.setVote server (some { vote with pc := .returned }) := by
      simp [stepVote,at_pc,polling.called,completed]
    rw [next]
    exact ⟨{ call with completed := true },voting,⟨rfl,rfl,rfl,rfl,fun _ => rfl⟩,polling.moved here rfl rfl (fun _ => rfl) (fun _ _ => rfl)
      (Function.update_self ..) polling.object rfl (by simp [at_pc,uncounted]) .returned
      (fun other vote' _ there => polling.stage other vote' there) (by simp) (fun _ => decided) fun _ => .inl rfl,
      fun j other => Function.update_of_ne other ..⟩
  | returned =>
    have next : stepVote s server vote = s.setVote server none := by simp only [stepVote,at_pc]
    rw [next]
    exact ⟨call,voting,.refl call,polling.returned here at_pc,fun _ _ => rfl⟩

/-- Polling is about the call, the votes, the messages and the servers only. -/
theorem Polling.frame (polling : Polling team poll contents s call voting) (called : t.calls poll.owner = some call')
    (object : call'.voting = call.voting) (completed : call'.completed = call.completed) (network : t.network = s.network)
    (votes : t.votes = s.votes) (managers : t.managers = s.managers) : Polling team poll contents t call' voting where
  called := called
  object := object.trans polling.object
  stores := by rw [Stores,managers]; exact polling.stores
  value := polling.value
  active := managers ▸ polling.active
  flying := network ▸ polling.flying
  once := network ▸ polling.once
  cast server vote there := by
    obtain ⟨member,follower,taken,target,transactionId,agrees⟩ := polling.cast server vote (votes ▸ there)
    exact ⟨member,follower,network ▸ taken,target,transactionId,agrees⟩
  expected := polling.expected
  tally := by
    have same : outstanding team poll t = outstanding team poll s :=
      Finset.filter_congr fun server _ => by rw [stillToCount,stillToCount,network,votes]
    rw [same]
    exact polling.tally
  stage := votes ▸ polling.stage
  alone := votes ▸ polling.alone
  completed done := polling.completed (completed ▸ done)
  finishing full := by
    rw [completed,votes]
    exact polling.finishing full

/-- The leader passes its own question over, and a follower casts its vote. -/
theorem Polling.question (polling : Polling team poll contents s call voting) (led : Led team s) {packet : Packet}
    (flying : packet ∈ s.network) :
    ({ s with network := s.network.erase packet }.handled team.reach packet.receiver
        (messageReceived (s.managers packet.receiver) packet.message)) =
      if packet.receiver = team.leader then { s with network := s.network.erase packet }
      else { s with network := s.network.erase packet }.setVote packet.receiver
        (some ⟨team.leader,poll.transactionId,true,.vote⟩) := by
  obtain ⟨asked,member⟩ := polling.flying packet flying
  have kept : Function.update s.managers packet.receiver (s.managers packet.receiver) = s.managers := Function.update_eq_self ..
  rw [asked]
  split
  case isTrue here =>
    have leads : (s.managers packet.receiver).amILeader = true := here ▸ led.leader
    simp only [State.handled,messageReceived,Poll.question,handleVoteRequest,leads,if_true,multicast_nil,State.setManager,kept]
  case isFalse other =>
    have follows := led.follows member other
    have stored : (s.managers packet.receiver).database poll.key = some poll.data := by
      rw [polling.stores _ member]
      exact polling.value
    have outcome : messageReceived (s.managers packet.receiver) poll.question =
        ⟨s.managers packet.receiver,[],some (poll.transactionId,true)⟩ := by
      simp [messageReceived,Poll.question,handleVoteRequest,follows,stored,led.channel _ member other]
    rw [outcome]
    simp only [State.handled,team.reaches _ member other,multicast_nil,State.setManager,kept]

/-- The question comes to a server. -/
theorem Polling.delivered (polling : Polling team poll contents s call voting) (led : Led team s) {packet : Packet}
    (flying : packet ∈ s.network) (free : s.votes packet.receiver = none) :
    Polling team poll contents ({ s with network := s.network.erase packet }.handled team.reach packet.receiver
        (messageReceived (s.managers packet.receiver) packet.message)) call voting := by
  obtain ⟨asked,member⟩ := polling.flying packet flying
  have still {other : Nat} (different : other ≠ packet.receiver) :
      ⟨other,poll.question⟩ ∈ s.network.erase packet ↔ ⟨other,poll.question⟩ ∈ s.network :=
    Multiset.mem_erase_of_ne fun same => different (congrArg Packet.receiver same)
  rw [polling.question led flying]
  split
  case isTrue here =>
    refine ⟨polling.called,polling.object,polling.stores,polling.value,polling.active,
      fun other flies => polling.flying other (Multiset.mem_of_mem_erase flies),polling.once.erase _,?_,polling.expected,?_,
      polling.stage,polling.alone,polling.completed,polling.finishing⟩
    · intro server vote there
      obtain ⟨member,follower,taken,target,transactionId,agrees⟩ := polling.cast server vote there
      exact ⟨member,follower,fun flies => taken (Multiset.mem_of_mem_erase flies),target,transactionId,agrees⟩
    · have same : outstanding team poll { s with network := s.network.erase packet } = outstanding team poll s := by
        refine Finset.filter_congr fun server inside => ?_
        have different : server ≠ packet.receiver := here ▸ Finset.ne_of_mem_erase inside
        simp only [stillToCount,still different]
      rw [same]
      exact polling.tally
  case isFalse other =>
    have elsewhere {server : Nat} (different : server ≠ packet.receiver) (vote : Option VoteCall) :
        Function.update s.votes packet.receiver vote server = s.votes server := Function.update_of_ne different ..
    have here : packet = ⟨packet.receiver,poll.question⟩ := by rw [← asked]
    have found {server : Nat} {vote vote' : VoteCall}
        (there : Function.update s.votes packet.receiver (some vote') server = some vote) :
        server = packet.receiver ∧ vote = vote' ∨ server ≠ packet.receiver ∧ s.votes server = some vote := by
      by_cases same : server = packet.receiver
      · subst same
        rw [Function.update_self] at there
        exact .inl ⟨rfl,(Option.some.inj there).symm⟩
      · exact .inr ⟨same,(elsewhere same _).symm.trans there⟩
    let t := { s with network := s.network.erase packet }.setVote packet.receiver
      (some ⟨team.leader,poll.transactionId,true,.vote⟩)
    have tally := outstanding_changed poll s t member other fun server different => by
      simp only [stillToCount,t,State.setVote,still different,elsewhere different]
    have before : stillToCount poll s packet.receiver = true := by simp [stillToCount,← here,flying]
    have after : stillToCount poll t packet.receiver = true := by simp [stillToCount,t,State.setVote,uncounted]
    rw [before,after] at tally
    refine ⟨polling.called,polling.object,polling.stores,polling.value,polling.active,
      fun other flies => polling.flying other (Multiset.mem_of_mem_erase flies),polling.once.erase _,?_,polling.expected,?_,
      ?_,?_,polling.completed,fun full => ?_⟩
    · intro server vote there
      rcases found there with ⟨rfl,rfl⟩ | ⟨_,old⟩
      · exact ⟨member,other,by rw [← here]; exact polling.once.notMem_erase,rfl,rfl,rfl⟩
      · obtain ⟨member,follower,taken,target,transactionId,agrees⟩ := polling.cast server vote old
        exact ⟨member,follower,fun flies => taken (Multiset.mem_of_mem_erase flies),target,transactionId,agrees⟩
    · have whole := polling.tally
      have equal : (outstanding team poll t).card = (outstanding team poll s).card := Nat.add_right_cancel tally
      rw [equal]
      exact whole
    · intro server vote there
      rcases found there with ⟨rfl,rfl⟩ | ⟨_,old⟩
      · exact .vote
      · exact polling.stage server vote old
    · intro one two vote₁ vote₂ read read' there there' at_store at_store'
      rcases found there with ⟨_,rfl⟩ | ⟨_,old⟩
      · cases at_store
      rcases found there' with ⟨_,rfl⟩ | ⟨_,old'⟩
      · cases at_store'
      exact polling.alone one two vote₁ vote₂ read read' old old' at_store at_store'
    · rcases polling.finishing full with done | ⟨server,vote,there,closes⟩
      · exact .inl done
      · have different : server ≠ packet.receiver := by
          rintro rfl
          cases free.symm.trans there
        exact .inr ⟨server,vote,(elsewhere different _).trans there,closes⟩

/-- The question goes out. -/
theorem Polling.opens (poll : Poll) (led : Led team s) (object : call.voting = some (.new team.members.length))
    (fresh : call.completed = false) (stores : Stores team contents s) (value : contents poll.key = some poll.data)
    (active : ∀ member ∈ team.members, ∀ transactionId, (s.managers member).activeVoting transactionId =
      if member = team.leader ∧ transactionId = poll.transactionId then some poll.owner else none)
    (network : s.network = 0) (votes : ∀ server, s.votes server = none) (pc : Pc) :
    Polling team poll contents ((s.multicast team.leader [poll.question]).setCall poll.owner (call.goto pc)) (call.goto pc)
      (.new team.members.length) := by
  have sent : s.multicast team.leader [poll.question] =
      { s with network := (team.members.map fun member => ⟨member,poll.question⟩ : List Packet) } := by
    rw [State.multicast,if_pos (led.members ▸ team.inside),network,zero_add,led.members]
    simp [packets]
  have tally : 1 + (outstanding team poll ((s.multicast team.leader [poll.question]).setCall poll.owner (call.goto pc))).card =
      team.members.length := by
    have everybody : outstanding team poll ((s.multicast team.leader [poll.question]).setCall poll.owner (call.goto pc)) =
        team.members.toFinset.erase team.leader := by
      refine Finset.filter_true_of_mem fun server inside => ?_
      have member := List.mem_toFinset.mp (Finset.mem_of_mem_erase inside)
      rw [sent]
      simp [stillToCount,State.setCall,member]
    rw [everybody,Finset.card_erase_of_mem (List.mem_toFinset.mpr team.inside),List.toFinset_card_of_nodup team.nodup]
    have := team.several
    omega
  refine ⟨Function.update_self ..,object,?_,value,?_,?_,?_,?_,rfl,tally,?_,?_,?_,?_⟩
  · rw [sent]; exact stores
  · rw [sent]; exact active
  · rw [sent]
    intro packet flies
    obtain ⟨member,inside,rfl⟩ := List.mem_map.mp (Multiset.mem_coe.mp flies)
    exact ⟨rfl,inside⟩
  · rw [sent]
    refine Multiset.coe_nodup.mpr (team.nodup.map ?_)
    exact fun one two same => congrArg Packet.receiver same
  · rw [sent]
    intro server vote there
    cases (votes server).symm.trans there
  · rw [sent]
    intro server vote there
    cases (votes server).symm.trans there
  · rw [sent]
    intro server other vote vote' read read' there
    cases (votes server).symm.trans there
  · intro done
    cases fresh.symm.trans done
  · intro full
    have := team.several
    simp only [Voting.new] at full
    omega

/-- When the result has been taken: the leader's own question and the ends of
    votes are all that is left. -/
structure Polled (team : Team) (poll : Poll) (contents : String → Option String) (s : State) : Prop where
  stores : Stores team contents s
  inactive : Inactive team s
  flying : ∀ packet ∈ s.network, packet = ⟨team.leader,poll.question⟩
  member : ∀ server vote, s.votes server = some vote → server ∈ team.members
  ending : ∀ server vote, s.votes server = some vote → vote.pc = .complete poll.owner ∨ vote.pc = .returned

/-- The result is taken when no vote puts the transaction any more. -/
theorem Polling.removed (polling : Polling team poll contents s call voting) (decided : call.completed = true)
    (undisturbed : ∀ server vote, s.votes server = some vote → uncommitted vote.pc = false) (call' : Call) :
    Polled team poll contents ((s.setManager team.leader { s.managers team.leader with
      activeVoting := Function.update (s.managers team.leader).activeVoting poll.transactionId none }).setCall poll.owner call') := by
  have full := (polling.completed decided).1
  have counted : outstanding team poll s = ∅ := by
    have whole := polling.tally
    exact Finset.card_eq_zero.mp (by omega)
  have nobody {server : Nat} (member : server ∈ team.members) (follower : server ≠ team.leader) :
      stillToCount poll s server = false := by
    by_contra still
    have inside : server ∈ outstanding team poll s :=
      Finset.mem_filter.mpr ⟨Finset.mem_erase.mpr ⟨follower,List.mem_toFinset.mpr member⟩,by simpa using still⟩
    rw [counted] at inside
    simp at inside
  refine ⟨?_,?_,?_,fun server vote there => (polling.cast server vote there).member,?_⟩
  · intro member inside
    rw [← polling.stores member inside]
    by_cases here : member = team.leader
    · subst here; simp [State.setCall,State.setManager]
    · simp [State.setCall,State.setManager,Function.update_of_ne here]
  · intro member inside transactionId
    have before := polling.active member inside transactionId
    by_cases here : member = team.leader
    · subst here
      by_cases same : transactionId = poll.transactionId
      · subst same; simp [State.setCall,State.setManager]
      · simpa [State.setCall,State.setManager,Function.update_of_ne same,same] using before
    · simpa [State.setCall,State.setManager,Function.update_of_ne here,here] using before
  · intro packet flies
    obtain ⟨asked,member⟩ := polling.flying packet flies
    have here : packet = ⟨packet.receiver,poll.question⟩ := by rw [← asked]
    by_cases receiver : packet.receiver = team.leader
    · rw [here,receiver]
    · have gone := nobody member receiver
      rw [stillToCount,← here] at gone
      exact absurd flies (of_decide_eq_false (Bool.or_eq_false_iff.mp gone).1)
  · intro server vote there
    have cast := polling.cast server vote there
    have settled : uncounted vote.pc = false := by
      have gone := (Bool.or_eq_false_iff.mp (nobody cast.member cast.follower)).2
      have now : s.votes server = some vote := there
      rwa [now,Option.any_some] at gone
    have committed := undisturbed server vote there
    have stage := polling.stage server vote there
    generalize vote.pc = pc at stage settled committed
    cases stage with
    | vote | get | load | store => cases settled
    | test | setResult | put => cases committed
    | complete => exact .inl rfl
    | returned => exact .inr rfl

/-- What is left of the votes changes no more than the flag of the call. -/
theorem Polled.vote (polled : Polled team poll contents s) {server : Nat} {vote : VoteCall} (here : s.votes server = some vote)
    (called : s.calls poll.owner = some call) : ∃ call', Recounted call call' ∧
      (stepVote s server vote).calls poll.owner = some call' ∧ Polled team poll contents (stepVote s server vote) ∧
      ∀ j, j ≠ poll.owner → (stepVote s server vote).calls j = s.calls j := by
  have found {after : Option VoteCall} (ended : ∀ vote', after = some vote' → vote'.pc = .returned) {other : Nat} {vote' : VoteCall}
      (there : Function.update s.votes server after other = some vote') :
      other ∈ team.members ∧ (vote'.pc = .complete poll.owner ∨ vote'.pc = .returned) := by
    by_cases same : other = server
    · subst same
      rw [Function.update_self] at there
      exact ⟨polled.member other vote here,.inr (ended vote' there)⟩
    · rw [Function.update_of_ne same] at there
      exact ⟨polled.member other vote' there,polled.ending other vote' there⟩
  rcases polled.ending server vote here with at_pc | at_pc
  · let completed : State := { s with calls := Function.update s.calls poll.owner (some { call with completed := true }) }
    have next : stepVote s server vote = completed.setVote server (some { vote with pc := .returned }) := by
      simp [stepVote,at_pc,called,completed]
    have ended : ∀ vote', some { vote with pc := VotePc.returned } = some vote' → vote'.pc = .returned := by
      rintro _ ⟨⟩
      rfl
    rw [next]
    exact ⟨{ call with completed := true },⟨rfl,rfl,rfl,rfl,fun _ => rfl⟩,Function.update_self ..,
      ⟨polled.stores,polled.inactive,polled.flying,fun _ _ there => (found ended there).1,fun _ _ there => (found ended there).2⟩,
      fun j other => Function.update_of_ne other ..⟩
  · have next : stepVote s server vote = s.setVote server none := by simp only [stepVote,at_pc]
    have ended : ∀ vote' : VoteCall, none = some vote' → vote'.pc = .returned := by
      rintro _ ⟨⟩
    rw [next]
    exact ⟨call,.refl call,called,
      ⟨polled.stores,polled.inactive,polled.flying,fun _ _ there => (found ended there).1,fun _ _ there => (found ended there).2⟩,
      fun _ _ => rfl⟩

/-- The leader passes its own question over. -/
theorem Polled.delivered (polled : Polled team poll contents s) (led : Led team s) {packet : Packet} (flying : packet ∈ s.network) :
    { s with network := s.network.erase packet }.handled team.reach packet.receiver
        (messageReceived (s.managers packet.receiver) packet.message) = { s with network := s.network.erase packet } ∧
      Polled team poll contents { s with network := s.network.erase packet } := by
  obtain rfl := polled.flying packet flying
  have kept : Function.update s.managers team.leader (s.managers team.leader) = s.managers := Function.update_eq_self ..
  constructor
  · simp only [State.handled,messageReceived,Poll.question,handleVoteRequest,led.leader,if_true,multicast_nil,State.setManager,kept]
  · exact ⟨polled.stores,polled.inactive,fun other flies => polled.flying other (Multiset.mem_of_mem_erase flies),polled.member,
      polled.ending⟩

theorem Polled.frame (polled : Polled team poll contents s) (network : t.network = s.network) (votes : t.votes = s.votes)
    (managers : t.managers = s.managers) : Polled team poll contents t where
  stores := by rw [Stores,managers]; exact polled.stores
  inactive := by rw [Inactive,managers]; exact polled.inactive
  flying := network ▸ polled.flying
  member := votes ▸ polled.member
  ending := votes ▸ polled.ending

end

end CdPraticas.Polls
