import CdPraticas.Consensus

/-!
# Votes one access at a time

`appendVote` and `getResultAndRemove` cut into their accesses, for any number of
votes on one transaction. The votes run on the threads of the remote calls, and
they go on when the leader has taken the result.
-/

namespace CdPraticas.LateVotes
open Transactions Consensus Runs

/-- Where an `appendVote` call stands. -/
inductive Stand
  | running (pc : VotePc)
  | threw
  deriving DecidableEq

/-- The next access of `appendVote`. -/
def appendStep (self : ConsensusModule) (transactionId : Nat) (vote : Bool) : VotePc → ConsensusModule × Stand
  | .vote => (self,.running .get)
  -- `get` of a transaction that is not there gives null, and the call on it throws.
  | .get =>
    match self.activeVoting transactionId with
    | some owner => (self,.running (.load owner))
    | none => (self,.threw)
  | .load owner =>
    match self.ballots owner with
    | some ballot => (self,.running (.store owner ballot.voting.votesReceived))
    | none => (self,.threw)
  | .store owner votesReceived => (self.modify owner (Ballot.setVotesReceived (votesReceived + 1)),.running (.test owner))
  | .test owner =>
    match self.ballots owner with
    | some ballot =>
      (self,.running (if vote = false then .setResult owner false
        else if ballot.voting.expectedVotes = ballot.voting.votesReceived then .setResult owner true
        else .put owner false))
    | none => (self,.threw)
  | .setResult owner result =>
    (self.modify owner (Ballot.setResult result),.running (if result then .put owner true else .complete owner))
  | .put owner last => (self.put transactionId owner,.running (if last then .complete owner else .returned))
  | .complete owner => (self.modify owner Ballot.complete,.running .returned)
  | .returned => (self,.running .returned)

/-- `n` accesses of a call that is not interrupted. -/
def appendSteps (transactionId : Nat) (vote : Bool) : Nat → ConsensusModule × Stand → ConsensusModule × Stand
  | n + 1, (self,.running pc) => appendSteps transactionId vote n (appendStep self transactionId vote pc)
  | _, stands => stands

/-- A call that is not interrupted does what `appendVote` as one step does. -/
theorem appendVote_steps (self : ConsensusModule) (transactionId : Nat) (vote : Bool)
    (made : ∀ owner, self.activeVoting transactionId = some owner → self.ballots owner ≠ none) :
    appendSteps transactionId vote 8 (self,.running .get) =
      match appendVote self transactionId vote with
      | some appended => (appended,.running .returned)
      | none => (self,.threw) := by
  cases active : self.activeVoting transactionId with
  | none => simp [appendSteps,appendStep,active,appendVote]
  | some owner =>
    obtain ⟨ballot,object⟩ := Option.ne_none_iff_exists'.mp (made owner active)
    have kept : Function.update self.activeVoting transactionId (some owner) = self.activeVoting := by
      rw [← active,Function.update_eq_self]
    rw [appendVote_active active object]
    cases vote with
    | false =>
      simp [appendSteps,appendStep,active,object,ConsensusModule.modify,Ballot.append,Ballot.appendVote,Ballot.setVotesReceived]
    | true =>
      by_cases full : ballot.voting.expectedVotes = ballot.voting.votesReceived + 1
      · simp [appendSteps,appendStep,active,object,ConsensusModule.modify,ConsensusModule.put,Ballot.append,Ballot.appendVote,
          Ballot.setVotesReceived,full,kept]
      · simp [appendSteps,appendStep,active,object,ConsensusModule.modify,ConsensusModule.put,Ballot.append,Ballot.appendVote,
          Ballot.setVotesReceived,full,kept]

/-! The votes of the whole group take the same accesses. -/

/-- The module of a server. -/
def consensusModule (s : ReplicaGroup.State) (server : Nat) : ConsensusModule where
  activeVoting := (s.managers server).activeVoting
  ballots owner := (s.calls owner).bind fun call => call.voting.map fun voting => ⟨voting,call.completed⟩

/-- Where the remote call stands when its `appendVote` stands there. -/
def Stand.pc : Stand → VotePc
  | .running pc => pc
  | .threw => .returned

theorem consensusModule_modify (s : ReplicaGroup.State) (server owner : Nat) (change : Call → Call) (same : Ballot → Ballot)
    (changes : ∀ call : Call, ((change call).voting.map fun voting => (⟨voting,(change call).completed⟩ : Ballot)) =
      (call.voting.map fun voting => ⟨voting,call.completed⟩).map same) :
    consensusModule { s with calls := Function.update s.calls owner ((s.calls owner).map change) } server =
      (consensusModule s server).modify owner same := by
  have ballots : (fun key => (Function.update s.calls owner ((s.calls owner).map change) key).bind fun call =>
      call.voting.map fun voting => (⟨voting,call.completed⟩ : Ballot)) =
      Function.update (consensusModule s server).ballots owner (((consensusModule s server).ballots owner).map same) := by
    funext key
    by_cases here : key = owner
    · subst here
      rw [Function.update_self,Function.update_self]
      cases called : s.calls key with
      | none => simp [consensusModule,called]
      | some call => simpa [consensusModule,called] using changes call
    · rw [Function.update_of_ne here,Function.update_of_ne here]
      rfl
  exact congrArg (ConsensusModule.mk _) ballots

theorem consensusModule_ballot (s : ReplicaGroup.State) (server owner : Nat) :
    ((consensusModule s server).ballots owner).map Ballot.voting = (s.calls owner).bind Call.voting := by
  cases called : s.calls owner with
  | none => simp [consensusModule,called]
  | some call => simp [consensusModule,called,Function.comp_def]

theorem stepVote_appendStep (s : ReplicaGroup.State) (server : Nat) (call : VoteCall) (tested : call.pc ≠ .vote)
    (going : call.pc ≠ .returned) :
    consensusModule (ReplicaGroup.stepVote s server call) call.target =
        (appendStep (consensusModule s call.target) call.transactionId call.vote call.pc).1 ∧
      (ReplicaGroup.stepVote s server call).votes server =
        some { call with pc := (appendStep (consensusModule s call.target) call.transactionId call.vote call.pc).2.pc } := by
  have object (owner : Nat) := consensusModule_ballot s call.target owner
  cases at_pc : call.pc with
  | vote => exact absurd at_pc tested
  | returned => exact absurd at_pc going
  | get =>
    have active : (consensusModule s call.target).activeVoting = (s.managers call.target).activeVoting := rfl
    cases found : (s.managers call.target).activeVoting call.transactionId with
    | none =>
      simp only [ReplicaGroup.stepVote,appendStep,at_pc,active,found]
      exact ⟨rfl,Function.update_self ..⟩
    | some owner =>
      simp only [ReplicaGroup.stepVote,appendStep,at_pc,active,found]
      exact ⟨rfl,Function.update_self ..⟩
  | load owner =>
    cases found : (consensusModule s call.target).ballots owner with
    | none =>
      have nobody : (s.calls owner).bind Call.voting = none := by rw [← object,found,Option.map_none]
      simp only [ReplicaGroup.stepVote,appendStep,at_pc,found,nobody]
      exact ⟨rfl,Function.update_self ..⟩
    | some ballot =>
      have voting : (s.calls owner).bind Call.voting = some ballot.voting := by rw [← object,found,Option.map_some]
      simp only [ReplicaGroup.stepVote,appendStep,at_pc,found,voting]
      exact ⟨rfl,Function.update_self ..⟩
  | store owner votesReceived =>
    simp only [ReplicaGroup.stepVote,appendStep,at_pc]
    refine ⟨consensusModule_modify s call.target owner _ _ fun call => ?_,Function.update_self ..⟩
    simp [Ballot.setVotesReceived,Function.comp_def]
  | test owner =>
    cases found : (consensusModule s call.target).ballots owner with
    | none =>
      have nobody : (s.calls owner).bind Call.voting = none := by rw [← object,found,Option.map_none]
      simp only [ReplicaGroup.stepVote,appendStep,at_pc,found,nobody]
      exact ⟨rfl,Function.update_self ..⟩
    | some ballot =>
      have voting : (s.calls owner).bind Call.voting = some ballot.voting := by rw [← object,found,Option.map_some]
      simp only [ReplicaGroup.stepVote,appendStep,at_pc,found,voting]
      split_ifs <;> exact ⟨rfl,Function.update_self ..⟩
  | setResult owner result =>
    simp only [ReplicaGroup.stepVote,appendStep,at_pc]
    refine ⟨consensusModule_modify s call.target owner _ _ fun call => ?_,Function.update_self ..⟩
    simp [Ballot.setResult,Function.comp_def]
  | put owner last =>
    simp only [ReplicaGroup.stepVote,appendStep,at_pc]
    refine ⟨?_,Function.update_self ..⟩
    simp [consensusModule,ReplicaGroup.State.setVote,ReplicaGroup.State.setManager,ConsensusModule.put]
  | complete owner =>
    simp only [ReplicaGroup.stepVote,appendStep,at_pc]
    refine ⟨consensusModule_modify s call.target owner _ _ fun call => ?_,Function.update_self ..⟩
    simp [Ballot.complete,Function.comp_def]

/-! ### One transaction with its votes -/

structure AppendVote where
  vote : Bool
  stand : Stand
  deriving DecidableEq

/-- Where `requestVote` stands when the transaction is submitted. -/
inductive LeaderPc
  /-- the loop on `completed` -/
  | spin
  /-- `getResultAndRemove` -/
  | isResult
  | remove (result : Bool)
  | returned (result : Bool)
  | threw
  deriving DecidableEq

/-- The module, the votes that have come in and the leader. -/
structure State where
  self : ConsensusModule
  votes : Nat → Option AppendVote
  leader : LeaderPc

inductive Action
  /-- a vote comes in -/
  | appendVote (j : Nat) (vote : Bool)
  | vote (j : Nat)
  | requestVote
  deriving DecidableEq

def step (owner transactionId : Nat) : Action → State → Option State
  | .appendVote j vote, s =>
    if s.votes j = none then some { s with votes := Function.update s.votes j (some ⟨vote,.running .get⟩) } else none
  | .vote j, s =>
    match s.votes j with
    | some ⟨vote,.running pc⟩ =>
      if pc = .returned then none
      else
        let next := appendStep s.self transactionId vote pc
        some { s with self := next.1, votes := Function.update s.votes j (some ⟨vote,next.2⟩) }
    | _ => none
  | .requestVote, s =>
    match s.leader with
    | .spin => if (s.self.ballots owner).any Ballot.completed then some { s with leader := .isResult } else none
    | .isResult =>
      match (s.self.activeVoting transactionId).bind s.self.ballots with
      | some ballot => some { s with leader := .remove ballot.voting.result }
      | none => some { s with leader := .threw }
    | .remove result => some { s with self := s.self.remove transactionId, leader := .returned result }
    | .returned _ | .threw => none

/-- The steps, one constructor for each branch. -/
inductive Stepped (owner transactionId : Nat) (s : State) : Action → State → Prop
  | appendVote {j vote} (new : s.votes j = none) :
      Stepped owner transactionId s (.appendVote j vote)
        { s with votes := Function.update s.votes j (some ⟨vote,.running .get⟩) }
  | vote {j vote pc} (here : s.votes j = some ⟨vote,.running pc⟩) (going : pc ≠ .returned) :
      Stepped owner transactionId s (.vote j)
        { s with self := (appendStep s.self transactionId vote pc).1
                 votes := Function.update s.votes j (some ⟨vote,(appendStep s.self transactionId vote pc).2⟩) }
  | spin (spins : s.leader = .spin) (completed : (s.self.ballots owner).any Ballot.completed = true) :
      Stepped owner transactionId s .requestVote { s with leader := .isResult }
  | isResult {ballot : Ballot} (reads : s.leader = .isResult)
      (active : (s.self.activeVoting transactionId).bind s.self.ballots = some ballot) :
      Stepped owner transactionId s .requestVote { s with leader := .remove ballot.voting.result }
  | noResult (reads : s.leader = .isResult) (gone : (s.self.activeVoting transactionId).bind s.self.ballots = none) :
      Stepped owner transactionId s .requestVote { s with leader := .threw }
  | remove {result} (removes : s.leader = .remove result) :
      Stepped owner transactionId s .requestVote { s with self := s.self.remove transactionId, leader := .returned result }

theorem stepped {owner transactionId : Nat} {s t : State} {a : Action} (move : step owner transactionId a s = some t) :
    Stepped owner transactionId s a t := by
  cases a with
  | appendVote j vote =>
    simp only [step] at move
    split_ifs at move with new
    cases move
    exact .appendVote new
  | vote j =>
    simp only [step] at move
    split at move
    · next here =>
      split_ifs at move with going
      cases move
      exact .vote here going
    · cases move
  | requestVote =>
    simp only [step] at move
    split at move
    · next spins =>
      split_ifs at move with completed
      cases move
      exact .spin spins completed
    · next reads =>
      split at move
      · next active => cases move; exact .isResult reads active
      · next gone => cases move; exact .noResult reads gone
    · next removes => cases move; exact .remove removes
    · cases move
    · cases move

/-- The transaction has just been submitted, to a module that may have others. -/
def start (self : ConsensusModule) (owner transactionId expectedVotes : Nat) : State :=
  ⟨submitVote self owner transactionId expectedVotes,fun _ => none,.spin⟩

/-- Where a vote can stand that has looked up the object of `owner`, and has not
    put or decided it yet. -/
inductive Holds (owner : Nat) : Bool → VotePc → Prop
  | load {vote} : Holds owner vote (.load owner)
  | store {vote} (votesReceived : Nat) : Holds owner vote (.store owner votesReceived)
  | test {vote} : Holds owner vote (.test owner)
  | setResult {vote} : Holds owner vote (.setResult owner vote)
  | put (last : Bool) : Holds owner true (.put owner last)

/-- Where a vote can stand. -/
inductive Stands (owner : Nat) (vote : Bool) : Stand → Prop
  | get : Stands owner vote (.running .get)
  | holds {pc} (holds : Holds owner vote pc) : Stands owner vote (.running pc)
  | complete : Stands owner vote (.running (.complete owner))
  | returned : Stands owner vote (.running .returned)
  | threw : Stands owner vote .threw

/-- A negative vote has set the result. -/
def Against (s : State) : Prop :=
  ∃ j, s.votes j = some ⟨false,.running .returned⟩ ∨ ∃ owner, s.votes j = some ⟨false,.running (.complete owner)⟩

/-- What every step keeps. -/
structure Polled (owner transactionId : Nat) (s : State) : Prop where
  object : ∃ ballot, s.self.ballots owner = some ballot
  active : ∀ other, s.self.activeVoting transactionId = some other → other = owner
  stands : ∀ j vote, s.votes j = some vote → Stands owner vote.vote vote.stand
  waits : s.leader = .spin ∨ s.leader = .isResult ∨ (∃ result, s.leader = .remove result) →
    s.self.activeVoting transactionId = some owner

section
variable {self : ConsensusModule} {owner transactionId expectedVotes : Nat} {s t : State} {a : Action}

theorem polled_start (self : ConsensusModule) (owner transactionId expectedVotes : Nat) :
    Polled owner transactionId (start self owner transactionId expectedVotes) where
  object := ⟨_,Function.update_self ..⟩
  active other here := by
    have there : (start self owner transactionId expectedVotes).self.activeVoting transactionId = some owner :=
      Function.update_self ..
    exact Option.some.inj (here.symm.trans there)
  stands j vote here := by cases here
  waits _ := Function.update_self ..

/-- What an access of a vote leaves of the module. -/
structure Accessed (owner transactionId : Nat) (s : State) (left : ConsensusModule) : Prop where
  object : ∃ ballot, left.ballots owner = some ballot
  active : left.activeVoting transactionId = s.self.activeVoting transactionId ∨ left.activeVoting transactionId = some owner

theorem accessed_same (polled : Polled owner transactionId s) : Accessed owner transactionId s s.self := ⟨polled.object,.inl rfl⟩

theorem accessed_modify (polled : Polled owner transactionId s) (change : Ballot → Ballot) :
    Accessed owner transactionId s (s.self.modify owner change) := by
  obtain ⟨ballot,object⟩ := polled.object
  exact ⟨⟨change ballot,by simp [ConsensusModule.modify,object]⟩,.inl rfl⟩

theorem Polled.access (polled : Polled owner transactionId s) {vote : Bool} {pc : VotePc} (stands : Stands owner vote (.running pc)) :
    Accessed owner transactionId s (appendStep s.self transactionId vote pc).1 ∧
      Stands owner vote (appendStep s.self transactionId vote pc).2 := by
  obtain ⟨ballot,object⟩ := polled.object
  cases stands with
  | get =>
    simp only [appendStep]
    cases active : s.self.activeVoting transactionId with
    | none => exact ⟨accessed_same polled,.threw⟩
    | some other =>
      obtain rfl := polled.active other active
      exact ⟨accessed_same polled,.holds .load⟩
  | returned => exact ⟨accessed_same polled,.returned⟩
  | complete => exact ⟨accessed_modify polled _,.returned⟩
  | holds holds =>
    cases holds with
    | load =>
      simp only [appendStep,object]
      exact ⟨accessed_same polled,.holds (.store _)⟩
    | store => exact ⟨accessed_modify polled _,.holds .test⟩
    | test =>
      simp only [appendStep,object]
      refine ⟨accessed_same polled,.holds ?_⟩
      cases vote with
      | false => exact .setResult
      | true =>
        rw [if_neg (by simp)]
        split_ifs
        · exact .setResult
        · exact .put false
    | setResult =>
      refine ⟨accessed_modify polled _,?_⟩
      cases vote with
      | false => exact .complete
      | true => exact .holds (.put true)
    | put last =>
      refine ⟨⟨⟨ballot,object⟩,.inr (Function.update_self ..)⟩,?_⟩
      cases last with
      | false => exact .returned
      | true => exact .complete

theorem Polled.step (polled : Polled owner transactionId s) (move : step owner transactionId a s = some t) :
    Polled owner transactionId t := by
  cases stepped move with
  | @appendVote j vote =>
    refine ⟨polled.object,polled.active,fun k vote' here => ?_,polled.waits⟩
    by_cases same : k = j
    · subst same
      cases (Function.update_self ..).symm.trans here
      exact .get
    · exact polled.stands k vote' ((Function.update_of_ne same ..).symm.trans here)
  | @vote j vote pc here _ =>
    obtain ⟨accessed,stands⟩ := polled.access (polled.stands j _ here)
    refine ⟨accessed.object,fun other active => ?_,fun k vote' there => ?_,fun waits => ?_⟩
    · rcases accessed.active with same | set
      · exact polled.active other (same.symm.trans active)
      · exact Option.some.inj (active.symm.trans set)
    · by_cases same : k = j
      · subst same
        cases (Function.update_self ..).symm.trans there
        exact stands
      · exact polled.stands k vote' ((Function.update_of_ne same ..).symm.trans there)
    · rcases accessed.active with same | set
      · exact same.trans (polled.waits waits)
      · exact set
  | spin spins => exact ⟨polled.object,polled.active,polled.stands,fun _ => polled.waits (.inl spins)⟩
  | isResult reads => exact ⟨polled.object,polled.active,polled.stands,fun _ => polled.waits (.inr (.inl reads))⟩
  | noResult => exact ⟨polled.object,polled.active,polled.stands,fun waits => by simp at waits⟩
  | remove =>
    refine ⟨polled.object,fun other active => ?_,polled.stands,fun waits => by simp at waits⟩
    cases (Function.update_self ..).symm.trans active

theorem polled_run {allowed : State → Action → Prop} {acts : List Action}
    (run : Run (Restrict allowed (Steps (step owner transactionId))) (start self owner transactionId expectedVotes) acts s) :
    Polled owner transactionId s :=
  run.always (polled_start self owner transactionId expectedVotes) fun _ _ _ polled move => polled.step move.2

/-! ### A negative vote -/

/-- The vote is about to set the result to true. -/
def ruling : Stand → Bool
  | .running (.setResult _ true) => true
  | _ => false

/-- The positive vote at which the count is full sets its result only while no
    negative vote has set its own. -/
def NotOverruled (s : State) : Action → Prop
  | .vote j => (s.votes j).any (fun vote => ruling vote.stand) = true → ¬ Against s
  | _ => True

/-- Once a negative vote has set the result, it stays. -/
def Negated (owner : Nat) (s : State) : Prop :=
  Against s → ∀ ballot, s.self.ballots owner = some ballot → ballot.voting.result = false

theorem against_of (stand : Stand) {vote : Bool} {j : Nat} (self : ConsensusModule)
    (against : Against { s with self := self, votes := Function.update s.votes j (some ⟨vote,stand⟩) }) :
    Against s ∨ vote = false ∧ (stand = .running .returned ∨ ∃ owner, stand = .running (.complete owner)) := by
  obtain ⟨k,there⟩ := against
  by_cases same : k = j
  · subst same
    rcases there with there | ⟨owner,there⟩
    · cases (Function.update_self ..).symm.trans there
      exact .inr ⟨rfl,.inl rfl⟩
    · cases (Function.update_self ..).symm.trans there
      exact .inr ⟨rfl,.inr ⟨_,rfl⟩⟩
  · simp only [Function.update_of_ne same] at there
    exact .inl ⟨k,there⟩

theorem modified {change : Ballot → Ballot} {ballot : Ballot} (object : (s.self.modify owner change).ballots owner = some ballot) :
    ∃ before, s.self.ballots owner = some before ∧ change before = ballot := by
  simpa [ConsensusModule.modify] using object

theorem Negated.vote (negated : Negated owner s) (polled : Polled owner transactionId s) {j : Nat} (allowed : NotOverruled s (.vote j))
    (move : LateVotes.step owner transactionId (.vote j) s = some t) : Negated owner t := by
  cases stepped move with
  | @vote _ vote pc here going =>
    have stands : Stands owner vote (.running pc) := polled.stands j _ here
    intro against ballot object
    have before := against_of _ _ against
    cases stands with
    | get =>
      simp only [appendStep] at before object
      cases active : s.self.activeVoting transactionId <;> simp only [active] at before object <;>
        exact negated (by simpa using before) ballot object
    | returned => exact absurd rfl going
    | complete =>
      obtain ⟨earlier,found,rfl⟩ := modified object
      have already : Against s := by
        rcases before with old | ⟨rfl,_⟩
        · exact old
        · exact ⟨j,.inr ⟨owner,here⟩⟩
      exact negated already earlier found
    | holds holds =>
      cases holds with
      | load =>
        obtain ⟨held,found⟩ := polled.object
        simp only [appendStep,found] at before object
        exact negated (by simpa using before) ballot (found.trans object)
      | store =>
        obtain ⟨earlier,found,rfl⟩ := modified object
        simp only [appendStep] at before
        exact negated (by simpa using before) earlier found
      | test =>
        obtain ⟨held,found⟩ := polled.object
        simp only [appendStep,found] at before object
        refine negated ?_ ballot (found.trans object)
        rcases before with old | ⟨_,stand | ⟨_,stand⟩⟩
        · exact old
        · split_ifs at stand
          simp at stand
        · split_ifs at stand
          simp at stand
      | setResult =>
        obtain ⟨earlier,found,rfl⟩ := modified object
        cases vote with
        | false => rfl
        | true =>
          simp only [appendStep] at before
          exact absurd (by simpa using before) (allowed (by rw [here]; rfl))
      | put last =>
        simp only [appendStep] at before
        exact negated (by simpa using before) ballot object

theorem Negated.step (negated : Negated owner s) (polled : Polled owner transactionId s) (allowed : NotOverruled s a)
    (move : LateVotes.step owner transactionId a s = some t) : Negated owner t := by
  cases stepped move with
  | vote => exact negated.vote polled allowed move
  | appendVote => exact fun against => negated (by simpa using against_of _ s.self against)
  | spin | isResult | noResult | remove => exact negated

/-- What the leader has read it returns. -/
theorem returns_read {result : Bool} (read : s.leader = .remove result ∨ s.leader = .returned result)
    (move : LateVotes.step owner transactionId a s = some t) : t.leader = .remove result ∨ t.leader = .returned result := by
  cases stepped move with
  | appendVote | vote => exact read
  | spin here | isResult here | noResult here => simp [here] at read
  | @remove other removes =>
    rcases read with here | here
    · cases removes.symm.trans here
      exact .inr rfl
    · cases removes.symm.trans here

end

/-- In every run whose steps meet the condition: where a negative vote has set the
    result when the leader reads it, `getResultAndRemove` returns false. -/
theorem negative_vote_final (self : ConsensusModule) (owner transactionId expectedVotes : Nat) (acts : List Action) (s : State)
    (run : Run (Restrict NotOverruled (Steps (step owner transactionId))) (start self owner transactionId expectedVotes) acts s)
    (against : Against s) (reads : s.leader = .isResult) :
    ∃ t, step owner transactionId .requestVote s = some t ∧ ∀ more u, Run (Steps (step owner transactionId)) t more u →
      u.leader = .remove false ∨ u.leader = .returned false := by
  have polled := polled_run run
  have negated : Negated owner s := by
    obtain ⟨_,negated⟩ := run.always (P := fun s => Polled owner transactionId s ∧ Negated owner s)
      ⟨polled_start self owner transactionId expectedVotes,fun ⟨_,there⟩ => by simp [start] at there⟩
      fun _ _ _ held move => ⟨held.1.step move.2,held.2.step held.1 move.1 move.2⟩
    exact negated
  obtain ⟨ballot,object⟩ := polled.object
  have active := polled.waits (.inr (.inl reads))
  refine ⟨{ s with leader := .remove ballot.voting.result },by simp [step,reads,active,object],fun more u rest => ?_⟩
  rw [negated against ballot object] at rest
  exact rest.always (P := fun u => u.leader = .remove false ∨ u.leader = .returned false) (.inl rfl)
    fun _ _ _ read move => returns_read read move

/-- A stronger condition that can be computed: no vote sets the result to true. -/
def Unruled (s : State) : Action → Prop
  | .vote j => (s.votes j).any (fun vote => ruling vote.stand) = false
  | _ => True

instance (s : State) : DecidablePred (Unruled s)
  | .vote j => inferInstanceAs (Decidable ((s.votes j).any (fun vote => ruling vote.stand) = false))
  | .appendVote _ _ | .requestVote => isTrue trivial

theorem Unruled.notOverruled {s : State} {a : Action} (unruled : Unruled s a) : NotOverruled s a := by
  cases a with
  | vote j => exact fun rules => absurd (unruled.symm.trans rules) (by simp)
  | _ => trivial

/-- A voting of three, begun by the call 0. -/
def three : State := start .initial 0 7 3

/-- A positive vote, then a negative one; the leader sees that they are complete. -/
def rejected : List Action :=
  Action.appendVote 1 true :: List.replicate 5 (Action.vote 1) ++ Action.appendVote 2 false :: List.replicate 6 (Action.vote 2) ++
    [Action.requestVote]

theorem negative_vote_final_three : ∃ s, Run (Restrict NotOverruled (Steps (step 0 7))) three rejected s ∧
    ∃ t, step 0 7 .requestVote s = some t ∧ ∀ more u, Run (Steps (step 0 7)) t more u →
      u.leader = .remove false ∨ u.leader = .returned false := by
  obtain ⟨s,run,against,reads⟩ := exists_run_of_exec (step 0 7) Unruled
    (fun s => s.votes 2 = some ⟨false,.running .returned⟩ ∧ s.leader = .isResult) three rejected (by decide)
  have notOverruled : Run (Restrict NotOverruled (Steps (step 0 7))) three rejected s :=
    run.mono fun _ _ _ move => ⟨move.1.notOverruled,move.2⟩
  exact ⟨s,notOverruled,negative_vote_final .initial 0 7 3 rejected s notOverruled ⟨2,.inl against⟩ reads⟩

/-- The negative vote comes first, and the positive one makes the count full. -/
def overruled : List Action :=
  Action.appendVote 1 false :: List.replicate 6 (Action.vote 1) ++ [Action.requestVote,.appendVote 2 true] ++
    List.replicate 5 (Action.vote 2)

/-- The leader reads true. -/
theorem negative_vote_overruled :
    ¬ ∀ (self : ConsensusModule) (owner transactionId expectedVotes : Nat), 2 ≤ expectedVotes → ∀ (acts : List Action) (s : State),
      Run (Steps (step owner transactionId)) (start self owner transactionId expectedVotes) acts s → Against s →
      s.leader = .isResult → ∃ t, step owner transactionId .requestVote s = some t ∧ t.leader = .remove false := by
  intro final
  obtain ⟨s,run,against,reads,told⟩ := exists_run_of_exec (step 0 7) (fun _ _ => True)
    (fun s => s.votes 1 = some ⟨false,.running .returned⟩ ∧ s.leader = .isResult ∧
      (step 0 7 .requestVote s).map State.leader = some (.remove true)) three overruled (by decide)
  obtain ⟨t,move,denied⟩ := final .initial 0 7 3 (by decide) overruled s run.unrestrict ⟨1,.inl against⟩ reads
  rw [move,Option.map_some,denied] at told
  cases told

/-! ### Late votes -/

/-- Between its look-up and the put that may follow. -/
def storing : Stand → Bool
  | .running (.load _) | .running (.store _ _) | .running (.test _) | .running (.setResult _ _) | .running (.put _ _) => true
  | _ => false

/-- A vote looks the transaction up while it is active, and the leader removes it
    when no positive vote has looked it up and may still put it. -/
def InTime (transactionId : Nat) (s : State) : Action → Prop
  | .vote j => (s.votes j).any (fun vote => decide (vote.stand = .running .get)) = true → s.self.activeVoting transactionId ≠ none
  | .requestVote => (∃ result, s.leader = .remove result) → ∀ j stand, s.votes j = some ⟨true,stand⟩ → storing stand = false
  | _ => True

/-- No vote has thrown, and once the leader is done nobody puts the transaction. -/
structure Harmless (transactionId : Nat) (s : State) : Prop where
  runs : ∀ j vote, s.votes j = some vote → vote.stand ≠ .threw
  returned : ∀ result, s.leader = .returned result → s.self.activeVoting transactionId = none ∧
    ∀ j stand, s.votes j = some ⟨true,stand⟩ → storing stand = false

section
variable {self : ConsensusModule} {owner transactionId expectedVotes : Nat} {s t : State} {a : Action}

theorem harmless_start (self : ConsensusModule) (owner transactionId expectedVotes : Nat) :
    Harmless transactionId (start self owner transactionId expectedVotes) where
  runs j vote here := by simp [start] at here
  returned result done := by simp [start] at done

theorem Holds.storing {vote : Bool} {pc : VotePc} (holds : Holds owner vote pc) : storing (.running pc) = true := by
  cases holds <;> rfl

theorem Harmless.vote (harmless : Harmless transactionId s) (polled : Polled owner transactionId s) {j : Nat}
    (inTime : InTime transactionId s (.vote j)) (move : step owner transactionId (.vote j) s = some t) : Harmless transactionId t := by
  cases stepped move with
  | @vote _ vote pc here going =>
    have stands : Stands owner vote (.running pc) := polled.stands j _ here
    obtain ⟨held,found⟩ := polled.object
    have fine : (appendStep s.self transactionId vote pc).2 ≠ .threw := by
      cases stands with
      | get =>
        obtain ⟨other,active⟩ := Option.ne_none_iff_exists'.mp (inTime (by rw [here]; rfl))
        simp [appendStep,active]
      | holds holds => cases holds <;> simp [appendStep,found]
      | complete | returned => simp [appendStep]
    refine ⟨fun k vote' there => ?_,fun result done => ?_⟩
    · by_cases same : k = j
      · subst same
        cases (Function.update_self ..).symm.trans there
        exact fine
      · exact harmless.runs k vote' ((Function.update_of_ne same ..).symm.trans there)
    · obtain ⟨gone,settled⟩ := harmless.returned result done
      have still (kept : (appendStep s.self transactionId vote pc).1.activeVoting = s.self.activeVoting)
          (silent : vote = true → storing (appendStep s.self transactionId vote pc).2 = false) :
          (appendStep s.self transactionId vote pc).1.activeVoting transactionId = none ∧ ∀ k stand,
            Function.update s.votes j (some ⟨vote,(appendStep s.self transactionId vote pc).2⟩) k = some ⟨true,stand⟩ →
              storing stand = false := by
        refine ⟨by rw [kept]; exact gone,fun k stand there => ?_⟩
        by_cases same : k = j
        · subst same
          cases (Function.update_self ..).symm.trans there
          exact silent rfl
        · exact settled k stand ((Function.update_of_ne same ..).symm.trans there)
      cases stands with
      | get => exact absurd gone (inTime (by rw [here]; rfl))
      | returned => exact absurd rfl going
      | complete => exact still rfl fun _ => rfl
      | holds holds =>
        cases vote with
        | true => cases holds.storing.symm.trans (settled j _ here)
        | false => cases holds <;> exact still (by simp [appendStep,found,ConsensusModule.modify]) (by simp)

theorem Harmless.step (harmless : Harmless transactionId s) (polled : Polled owner transactionId s) (inTime : InTime transactionId s a)
    (move : step owner transactionId a s = some t) : Harmless transactionId t := by
  cases stepped move with
  | vote => exact harmless.vote polled inTime move
  | @appendVote j vote =>
    have found {k : Nat} {vote' : AppendVote} (there : Function.update s.votes j (some ⟨vote,.running .get⟩) k = some vote') :
        vote' = ⟨vote,.running .get⟩ ∨ s.votes k = some vote' := by
      by_cases same : k = j
      · subst same
        exact .inl (Option.some.inj (there.symm.trans (Function.update_self ..)))
      · exact .inr ((Function.update_of_ne same ..).symm.trans there)
    refine ⟨fun k vote' there => ?_,fun result done => ⟨(harmless.returned result done).1,fun k stand there => ?_⟩⟩
    · rcases found there with rfl | old
      · simp
      · exact harmless.runs k vote' old
    · rcases found there with new | old
      · cases new
        rfl
      · exact (harmless.returned result done).2 k stand old
  | spin | isResult | noResult => exact ⟨harmless.runs,fun _ done => by simp at done⟩
  | @remove result removes => exact ⟨harmless.runs,fun _ _ => ⟨Function.update_self ..,inTime ⟨result,removes⟩⟩⟩

end

/-- In every run whose steps meet the condition: no vote throws, and once
    `getResultAndRemove` has returned the transaction is not active. -/
theorem late_votes_harmless (self : ConsensusModule) (owner transactionId expectedVotes : Nat) (acts : List Action) (s : State)
    (run : Run (Restrict (InTime transactionId) (Steps (step owner transactionId)))
      (start self owner transactionId expectedVotes) acts s) :
    (∀ j vote, s.votes j = some vote → vote.stand ≠ .threw) ∧
      ∀ result, s.leader = .returned result → s.self.activeVoting transactionId = none := by
  obtain ⟨_,harmless⟩ := run.always (P := fun s => Polled owner transactionId s ∧ Harmless transactionId s)
    ⟨polled_start self owner transactionId expectedVotes,harmless_start self owner transactionId expectedVotes⟩
    fun _ _ _ held move => ⟨held.1.step move.2,held.2.step held.1 move.1 move.2⟩
  exact ⟨harmless.runs,fun result done => (harmless.returned result done).1⟩

/-- A stronger condition that can be computed: the transaction is removed when no
    vote of the first `n` may still put it. -/
def InTimeFor (n transactionId : Nat) (s : State) : Action → Prop
  | .vote j => (s.votes j).any (fun vote => decide (vote.stand = .running .get)) = true → s.self.activeVoting transactionId ≠ none
  | .requestVote => ∀ j ∈ List.range n, (s.votes j).all (fun vote => !storing vote.stand) = true
  | .appendVote j _ => j < n

instance (n transactionId : Nat) (s : State) : DecidablePred (InTimeFor n transactionId s)
  | .vote _ => inferInstanceAs (Decidable (_ → _))
  | .requestVote => inferInstanceAs (Decidable (∀ j ∈ List.range n, _))
  | .appendVote j _ => inferInstanceAs (Decidable (j < n))

/-- Only the first `n` votes come in. -/
def Few (n : Nat) (s : State) : Prop := ∀ j, n ≤ j → s.votes j = none

theorem Few.step {n owner transactionId : Nat} {s t : State} {a : Action} (few : Few n s) (allowed : InTimeFor n transactionId s a)
    (move : LateVotes.step owner transactionId a s = some t) : Few n t := by
  intro k large
  cases stepped move with
  | @appendVote j =>
    have small : j < n := allowed
    exact (Function.update_of_ne (by omega) ..).trans (few k large)
  | @vote j _ _ here _ =>
    have other : k ≠ j := by
      rintro rfl
      cases here.symm.trans (few k large)
    exact (Function.update_of_ne other ..).trans (few k large)
  | spin | isResult | noResult | remove => exact few k large

theorem InTimeFor.inTime {n transactionId : Nat} {s : State} {a : Action} (few : Few n s) (allowed : InTimeFor n transactionId s a) :
    InTime transactionId s a := by
  cases a with
  | vote j => exact allowed
  | appendVote j vote => trivial
  | requestVote =>
    intro _ j stand there
    have small : j < n := by
      by_contra large
      cases there.symm.trans (few j (by omega))
    have settled : (s.votes j).all (fun vote => !storing vote.stand) = true := allowed j (List.mem_range.mpr small)
    rw [there] at settled
    simpa using settled

theorem run_inTime {n owner transactionId : Nat} {s t : State} {acts : List Action} (few : Few n s)
    (run : Run (Restrict (InTimeFor n transactionId) (Steps (step owner transactionId))) s acts t) :
    Run (Restrict (InTime transactionId) (Steps (step owner transactionId))) s acts t :=
  run.weaken few (fun _ _ _ few allowed move => few.step allowed move) fun _ _ few allowed => allowed.inTime few

theorem late_votes_harmless_three : ∃ s, Run (Restrict (InTime 7) (Steps (step 0 7))) three
      (rejected ++ [.requestVote,.requestVote]) s ∧
    (∀ j vote, s.votes j = some vote → vote.stand ≠ .threw) ∧
      ∀ result, s.leader = .returned result → s.self.activeVoting 7 = none := by
  obtain ⟨s,run,_⟩ := exists_run_of_exec (step 0 7) (InTimeFor 3 7) (fun s => s.leader = .returned false) three
    (rejected ++ [.requestVote,.requestVote]) (by decide)
  have inTime := run_inTime (fun _ _ => rfl) run
  exact ⟨s,inTime,late_votes_harmless .initial 0 7 3 _ s inTime⟩

/-- A negative vote ends the voting of three, and the other comes later. -/
def belated : List Action :=
  Action.appendVote 1 false :: List.replicate 6 (Action.vote 1) ++ List.replicate 3 Action.requestVote ++
    [Action.appendVote 2 true,.vote 2]

/-- The later vote throws. -/
theorem late_vote_throws :
    ¬ ∀ (self : ConsensusModule) (owner transactionId expectedVotes : Nat) (acts : List Action) (s : State),
      Run (Steps (step owner transactionId)) (start self owner transactionId expectedVotes) acts s →
      (∀ j vote, s.votes j = some vote → vote.stand ≠ .threw) ∧
        ∀ result, s.leader = .returned result → s.self.activeVoting transactionId = none := by
  intro harmless
  obtain ⟨s,run,threw⟩ := exists_run_of_exec (step 0 7) (fun _ _ => True) (fun s => s.votes 2 = some ⟨true,.threw⟩) three belated
    (by decide)
  exact (harmless .initial 0 7 3 belated s run.unrestrict).1 2 _ threw rfl

end CdPraticas.LateVotes
