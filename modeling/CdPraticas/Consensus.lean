import CdPraticas.ReplicaGroup

/-!
# The votings of a leader

`ConsensusModule`: the map `activeVoting` and the `Voting` objects in it, each
with the flag its callback sets. Its methods run as one step each here, over any
number of transactions.
-/

namespace CdPraticas.Consensus
open Transactions ReplicaGroup Runs

/-- A `Voting` object with the flag that its callback sets. -/
structure Ballot where
  voting : Voting
  completed : Bool
  deriving DecidableEq

def Ballot.new (expectedVotes : Nat) : Ballot := ⟨.new expectedVotes,false⟩
/-- `Voting.appendVote`. -/
def Ballot.appendVote (ballot : Ballot) : Ballot :=
  { ballot with voting := { ballot.voting with votesReceived := ballot.voting.votesReceived + 1 } }
def Ballot.setVotesReceived (votesReceived : Nat) (ballot : Ballot) : Ballot :=
  { ballot with voting := { ballot.voting with votesReceived := votesReceived } }
def Ballot.setResult (result : Bool) (ballot : Ballot) : Ballot :=
  { ballot with voting := { ballot.voting with result := result } }
/-- `getCallBack().completed(true)`. -/
def Ballot.complete (ballot : Ballot) : Ballot := { ballot with completed := true }

/-- A `Voting` object is known by the call of `requestVote` that made it. -/
structure ConsensusModule where
  activeVoting : Nat → Option Nat
  ballots : Nat → Option Ballot

def ConsensusModule.initial : ConsensusModule := ⟨fun _ => none,fun _ => none⟩
def ConsensusModule.put (self : ConsensusModule) (transactionId owner : Nat) : ConsensusModule :=
  { self with activeVoting := Function.update self.activeVoting transactionId (some owner) }
def ConsensusModule.remove (self : ConsensusModule) (transactionId : Nat) : ConsensusModule :=
  { self with activeVoting := Function.update self.activeVoting transactionId none }
def ConsensusModule.modify (self : ConsensusModule) (owner : Nat) (change : Ballot → Ballot) : ConsensusModule :=
  { self with ballots := Function.update self.ballots owner ((self.ballots owner).map change) }

/-- `submitVote` under the id that it draws. -/
def submitVote (self : ConsensusModule) (owner transactionId expectedVotes : Nat) : ConsensusModule :=
  { self with ballots := Function.update self.ballots owner (some (.new expectedVotes)) }.put transactionId owner

/-- `appendVote`; `none` where the look-up gives null and the call on it throws. -/
def appendVote (self : ConsensusModule) (transactionId : Nat) (vote : Bool) : Option ConsensusModule :=
  match self.activeVoting transactionId with
  | none => none
  | some owner =>
    let appended := self.modify owner Ballot.appendVote
    match appended.ballots owner with
    | none => none
    | some ballot =>
      if !vote then some ((appended.modify owner (.setResult false)).modify owner .complete)
      else if ballot.voting.expectedVotes = ballot.voting.votesReceived then
        some (((appended.modify owner (.setResult true)).put transactionId owner).modify owner .complete)
      else some (appended.put transactionId owner)

/-- `getResultAndRemove`: what it returns and what it leaves. -/
def getResultAndRemove (self : ConsensusModule) (transactionId : Nat) : Option (Bool × ConsensusModule) :=
  match (self.activeVoting transactionId).bind self.ballots with
  | none => none
  | some ballot => some (ballot.voting.result,self.remove transactionId)

/-- What one vote makes of the object. -/
def Ballot.append (ballot : Ballot) (vote : Bool) : Ballot :=
  if !vote then (ballot.appendVote.setResult false).complete
  else if ballot.voting.expectedVotes = ballot.voting.votesReceived + 1 then (ballot.appendVote.setResult true).complete
  else ballot.appendVote

section
variable {self : ConsensusModule} {transactionId owner : Nat} {ballot : Ballot}

/-- A vote changes the one object, and puts it where it is already. -/
theorem appendVote_active (active : self.activeVoting transactionId = some owner) (object : self.ballots owner = some ballot)
    (vote : Bool) : appendVote self transactionId vote =
      some { self with ballots := Function.update self.ballots owner (some (ballot.append vote)) } := by
  have kept : Function.update self.activeVoting transactionId (some owner) = self.activeVoting := by
    rw [← active,Function.update_eq_self]
  cases vote with
  | false => simp [appendVote,active,object,ConsensusModule.modify,Ballot.append]
  | true =>
    by_cases full : ballot.voting.expectedVotes = ballot.voting.votesReceived + 1
    · simp [appendVote,active,object,ConsensusModule.modify,ConsensusModule.put,Ballot.append,Ballot.appendVote,full,kept]
    · simp [appendVote,active,object,ConsensusModule.modify,ConsensusModule.put,Ballot.append,Ballot.appendVote,full,kept]

theorem appendVote_inactive (inactive : self.activeVoting transactionId = none) (vote : Bool) :
    appendVote self transactionId vote = none := by
  simp only [appendVote,inactive]

theorem getResultAndRemove_active (active : self.activeVoting transactionId = some owner)
    (object : self.ballots owner = some ballot) :
    getResultAndRemove self transactionId = some (ballot.voting.result,self.remove transactionId) := by
  simp only [getResultAndRemove,active,Option.bind_some,object]

theorem getResultAndRemove_inactive (inactive : self.activeVoting transactionId = none) :
    getResultAndRemove self transactionId = none := by
  simp only [getResultAndRemove,inactive,Option.bind_none]

end

/-! ### Many transactions -/

inductive Invocation
  | submitVote (owner transactionId expectedVotes : Nat)
  | appendVote (transactionId : Nat) (vote : Bool)
  | getResultAndRemove (transactionId : Nat)
  deriving DecidableEq

def Invocation.transactionId : Invocation → Nat
  | .submitVote _ transactionId _ | .appendVote transactionId _ | .getResultAndRemove transactionId => transactionId

/-- The module, and what has been returned for each transaction. -/
structure State where
  self : ConsensusModule
  returned : Nat → Option Bool

def initial : State := ⟨.initial,fun _ => none⟩

/-- A call. Ids are drawn fresh, and one that throws is no step. -/
def step : Invocation → State → Option State
  | .submitVote owner transactionId expectedVotes, s =>
    if s.self.activeVoting transactionId = none ∧ s.returned transactionId = none ∧ s.self.ballots owner = none then
      some { s with self := submitVote s.self owner transactionId expectedVotes }
    else none
  | .appendVote transactionId vote, s => (appendVote s.self transactionId vote).map fun self => { s with self := self }
  | .getResultAndRemove transactionId, s =>
    (getResultAndRemove s.self transactionId).map fun (result,self) =>
      ⟨self,Function.update s.returned transactionId (some result)⟩

/-- The objects are those of the transactions submitted, one for each. -/
structure Submitted (acts : List Invocation) (s : State) : Prop where
  active : ∀ transactionId owner, s.self.activeVoting transactionId = some owner →
    ∃ expectedVotes, .submitVote owner transactionId expectedVotes ∈ acts
  made : ∀ owner, s.self.ballots owner ≠ none ↔ ∃ transactionId expectedVotes, .submitVote owner transactionId expectedVotes ∈ acts
  once : ∀ owner transactionId expectedVotes other expectedVotes', .submitVote owner transactionId expectedVotes ∈ acts →
    .submitVote owner other expectedVotes' ∈ acts → transactionId = other

section
variable {s t : State} {acts : List Invocation} {a : Invocation} {transactionId owner : Nat}

theorem Submitted.object (submitted : Submitted acts s) (active : s.self.activeVoting transactionId = some owner) :
    ∃ ballot, s.self.ballots owner = some ballot := by
  obtain ⟨expectedVotes,inside⟩ := submitted.active transactionId owner active
  exact Option.ne_none_iff_exists'.mp ((submitted.made owner).mpr ⟨_,_,inside⟩)

/-- What a call does, one constructor for each method. -/
inductive Move (s : State) : Invocation → State → Prop
  | submitVote {owner transactionId expectedVotes} (inactive : s.self.activeVoting transactionId = none)
      (fresh : s.returned transactionId = none) (unused : s.self.ballots owner = none) :
      Move s (.submitVote owner transactionId expectedVotes) { s with self := submitVote s.self owner transactionId expectedVotes }
  | appendVote {transactionId owner ballot} (vote : Bool) (active : s.self.activeVoting transactionId = some owner)
      (object : s.self.ballots owner = some ballot) : Move s (.appendVote transactionId vote)
        { s with self := { s.self with ballots := Function.update s.self.ballots owner (some (ballot.append vote)) } }
  | getResultAndRemove {transactionId owner ballot} (active : s.self.activeVoting transactionId = some owner)
      (object : s.self.ballots owner = some ballot) : Move s (.getResultAndRemove transactionId)
        ⟨s.self.remove transactionId,Function.update s.returned transactionId (some ballot.voting.result)⟩

theorem step_move (submitted : Submitted acts s) : step a s = some t ↔ Move s a t := by
  constructor
  · intro move
    cases a with
    | submitVote owner transactionId expectedVotes =>
      simp only [step] at move
      split at move
      case isFalse => cases move
      case isTrue free =>
        cases move
        exact .submitVote free.1 free.2.1 free.2.2
    | appendVote transactionId vote =>
      simp only [step] at move
      cases active : s.self.activeVoting transactionId with
      | none => simp [appendVote_inactive active] at move
      | some owner =>
        obtain ⟨ballot,object⟩ := submitted.object active
        rw [appendVote_active active object,Option.map_some] at move
        cases move
        exact .appendVote vote active object
    | getResultAndRemove transactionId =>
      simp only [step] at move
      cases active : s.self.activeVoting transactionId with
      | none => simp [getResultAndRemove_inactive active] at move
      | some owner =>
        obtain ⟨ballot,object⟩ := submitted.object active
        rw [getResultAndRemove_active active object,Option.map_some] at move
        cases move
        exact .getResultAndRemove active object
  · intro move
    cases move with
    | submitVote inactive fresh unused => simp only [step]; rw [if_pos ⟨inactive,fresh,unused⟩]
    | appendVote vote active object => simp only [step,appendVote_active active object,Option.map_some]
    | getResultAndRemove active object => simp only [step,getResultAndRemove_active active object,Option.map_some]

theorem Submitted.step (submitted : Submitted acts s) (move : Move s a t) : Submitted (acts ++ [a]) t := by
  cases move with
  | @submitVote owner transactionId expectedVotes inactive fresh unused =>
    have first : ∀ other expectedVotes', .submitVote owner other expectedVotes' ∉ acts := fun other expectedVotes' inside =>
      (submitted.made owner).mpr ⟨other,expectedVotes',inside⟩ unused
    refine ⟨?_,?_,?_⟩
    · intro other owner' active
      by_cases same : other = transactionId
      · subst same
        cases (Function.update_self ..).symm.trans active
        exact ⟨expectedVotes,by simp⟩
      · obtain ⟨expectedVotes',inside⟩ := submitted.active other owner' ((Function.update_of_ne same ..).symm.trans active)
        exact ⟨expectedVotes',List.mem_append_left _ inside⟩
    · intro owner'
      by_cases same : owner' = owner
      · subst same
        refine ⟨fun _ => ⟨transactionId,expectedVotes,by simp⟩,fun _ => ?_⟩
        simp [Consensus.submitVote,ConsensusModule.put]
      · have kept := submitted.made owner'
        simp only [Consensus.submitVote,ConsensusModule.put,Function.update_of_ne same,kept,List.mem_append,List.mem_singleton,
          Invocation.submitVote.injEq,same,false_and,or_false]
    · intro owner' one expectedVotes₁ two expectedVotes₂ inside inside'
      simp only [List.mem_append,List.mem_singleton,Invocation.submitVote.injEq] at inside inside'
      rcases inside with old | ⟨rfl,rfl,_⟩ <;> rcases inside' with old' | ⟨same,other,_⟩
      · exact submitted.once _ _ _ _ _ old old'
      · exact absurd (same ▸ old) (first one expectedVotes₁)
      · exact absurd old' (first two expectedVotes₂)
      · exact other.symm
  | @appendVote transactionId owner ballot vote active object =>
    have still (owner' : Nat) : Function.update s.self.ballots owner (some (ballot.append vote)) owner' ≠ none ↔
        s.self.ballots owner' ≠ none := by
      by_cases same : owner' = owner
      · subst same; simp [object]
      · rw [Function.update_of_ne same]
    refine ⟨fun other owner' active' => ?_,fun owner' => ?_,fun owner' one _ two _ inside inside' => ?_⟩
    · simpa using submitted.active other owner' active'
    · rw [still,submitted.made]
      simp
    · exact submitted.once owner' one _ two _ (by simpa using inside) (by simpa using inside')
  | @getResultAndRemove transactionId owner ballot active object =>
    refine ⟨fun other owner' active' => ?_,fun owner' => ?_,fun owner' one _ two _ inside inside' => ?_⟩
    · by_cases same : other = transactionId
      · subst same
        cases (Function.update_self ..).symm.trans active'
      · simpa using submitted.active other owner' ((Function.update_of_ne same ..).symm.trans active')
    · have made := submitted.made owner'
      simpa [ConsensusModule.remove] using made
    · exact submitted.once owner' one _ two _ (by simpa using inside) (by simpa using inside')

theorem submitted_run (run : Run (Steps step) initial acts s) : Submitted acts s := by
  refine run.invariant (P := Submitted) ⟨?_,?_,?_⟩ fun _ _ _ _ _ submitted move => submitted.step ((step_move submitted).mp move)
  · intro transactionId owner active
    cases active
  · intro owner
    simp [initial,ConsensusModule.initial]
  · intro owner transactionId _ other _ inside
    simp at inside

/-- The transaction stands in `t` as it does in `s`. -/
structure Alike (transactionId : Nat) (acts : List Invocation) (s t : State) : Prop where
  active : t.self.activeVoting transactionId = s.self.activeVoting transactionId
  returned : t.returned transactionId = s.returned transactionId
  ballots : ∀ owner expectedVotes, .submitVote owner transactionId expectedVotes ∈ acts → t.self.ballots owner = s.self.ballots owner

/-- The calls of one transaction. -/
def own (transactionId : Nat) (acts : List Invocation) : List Invocation :=
  acts.filter fun a => a.transactionId = transactionId

theorem mem_own : a ∈ own transactionId acts ↔ a ∈ acts ∧ a.transactionId = transactionId := by
  simp [own]

theorem own_snoc (transactionId : Nat) (acts : List Invocation) (a : Invocation) :
    own transactionId (acts ++ [a]) = own transactionId acts ++ if a.transactionId = transactionId then [a] else [] := by
  by_cases about : a.transactionId = transactionId <;> simp [own,about]

/-- A call of another transaction changes nothing of this one. -/
theorem Alike.other (alike : Alike transactionId acts s t) (submitted : Submitted acts s) {s' : State} (move : Move s a s')
    (other : a.transactionId ≠ transactionId) : Alike transactionId (acts ++ [a]) s' t := by
  have older {owner expectedVotes : Nat} (inside : .submitVote owner transactionId expectedVotes ∈ acts ++ [a]) :
      .submitVote owner transactionId expectedVotes ∈ acts := by
    rcases List.mem_append.mp inside with old | new
    · exact old
    · rw [← List.mem_singleton.mp new] at other
      exact absurd rfl other
  cases move with
  | @submitVote owner other' expectedVotes inactive fresh unused =>
    refine ⟨?_,alike.returned,?_⟩
    · rw [alike.active]
      exact (Function.update_of_ne (Ne.symm other) ..).symm
    · intro owner' expectedVotes' inside
      have different : owner' ≠ owner := by
        rintro rfl
        exact (submitted.made owner').mpr ⟨_,_,older inside⟩ unused
      rw [alike.ballots owner' expectedVotes' (older inside)]
      exact (Function.update_of_ne different ..).symm
  | @appendVote other' owner ballot vote active object =>
    refine ⟨alike.active,alike.returned,?_⟩
    intro owner' expectedVotes' inside
    have different : owner' ≠ owner := by
      rintro rfl
      obtain ⟨_,its⟩ := submitted.active other' owner' active
      exact other (submitted.once owner' _ _ _ _ its (older inside))
    rw [alike.ballots owner' expectedVotes' (older inside)]
    exact (Function.update_of_ne different ..).symm
  | @getResultAndRemove other' owner ballot active object =>
    refine ⟨?_,?_,fun owner' expectedVotes' inside => alike.ballots owner' expectedVotes' (older inside)⟩
    · rw [alike.active]
      exact (Function.update_of_ne (Ne.symm other) ..).symm
    · rw [alike.returned]
      exact (Function.update_of_ne (Ne.symm other) ..).symm

/-- The same update of two functions leaves them alike where they were. -/
theorem update_alike {α : Type} {f g : Nat → α} {key here : Nat} (value : α) (alike : here ≠ key → f here = g here) :
    Function.update f key value here = Function.update g key value here := by
  by_cases same : here = key
  · subst same
    rw [Function.update_self,Function.update_self]
  · rw [Function.update_of_ne same,Function.update_of_ne same,alike same]

/-- A call of the transaction does the same in both. -/
theorem Alike.own (alike : Alike transactionId acts s t) (submitted : Submitted acts s) (submitted' : Submitted (own transactionId acts) t)
    {s' : State} (move : Move s a s') (about : a.transactionId = transactionId) :
    ∃ t', Move t a t' ∧ Alike transactionId (acts ++ [a]) s' t' := by
  have object {owner : Nat} (active : s.self.activeVoting transactionId = some owner) :
      t.self.ballots owner = s.self.ballots owner := by
    obtain ⟨expectedVotes,inside⟩ := submitted.active transactionId owner active
    exact alike.ballots owner expectedVotes inside
  cases move with
  | @submitVote owner transactionId' expectedVotes inactive fresh unused =>
    obtain rfl : transactionId' = transactionId := about
    have unused' : t.self.ballots owner = none := by
      by_contra used
      obtain ⟨other,expectedVotes',inside⟩ := (submitted'.made owner).mp used
      exact (submitted.made owner).mpr ⟨other,expectedVotes',(mem_own.mp inside).1⟩ unused
    refine ⟨_,.submitVote (alike.active.trans inactive) (alike.returned.trans fresh) unused',?_,alike.returned,?_⟩
    · exact update_alike _ fun other => absurd rfl other
    · intro owner' expectedVotes' inside
      refine update_alike _ fun different => alike.ballots owner' expectedVotes' ?_
      simpa [different] using inside
  | @appendVote transactionId' owner ballot vote active found =>
    obtain rfl : transactionId' = transactionId := about
    refine ⟨_,.appendVote vote (alike.active.trans active) ((object active).trans found),alike.active,alike.returned,?_⟩
    intro owner' expectedVotes' inside
    exact update_alike _ fun _ => alike.ballots owner' expectedVotes' (by simpa using inside)
  | @getResultAndRemove transactionId' owner ballot active found =>
    obtain rfl : transactionId' = transactionId := about
    refine ⟨_,.getResultAndRemove (alike.active.trans active) ((object active).trans found),?_,?_,?_⟩
    · exact update_alike _ fun other => absurd rfl other
    · exact update_alike _ fun other => absurd rfl other
    · intro owner' expectedVotes' inside
      exact alike.ballots owner' expectedVotes' (by simpa using inside)

/-- The calls of one transaction are a run of their own, and it leads to the same. -/
theorem run_own (run : Run (Steps step) initial acts s) (transactionId : Nat) :
    ∃ t, Run (Steps step) initial (own transactionId acts) t ∧ Alike transactionId acts s t := by
  refine run.invariant (P := fun acts s => ∃ t, Run (Steps step) initial (Consensus.own transactionId acts) t ∧
    Alike transactionId acts s t) ⟨initial,.start,rfl,rfl,fun _ _ _ => rfl⟩ ?_
  rintro acts s a s' before ⟨t,alone,alike⟩ move
  have submitted := submitted_run before
  have move := (step_move submitted).mp move
  rw [own_snoc]
  by_cases about : a.transactionId = transactionId
  · rw [if_pos about]
    have submitted' := submitted_run alone
    obtain ⟨t',move',alike'⟩ := alike.own submitted submitted' move about
    exact ⟨t',alone.next ((step_move submitted').mpr move'),alike'⟩
  · rw [if_neg about,List.append_nil]
    exact ⟨t,alone,alike.other submitted move about⟩

end

/-! ### One transaction -/

theorem append_expectedVotes (ballot : Ballot) (vote : Bool) :
    (ballot.append vote).voting.expectedVotes = ballot.voting.expectedVotes := by
  unfold Ballot.append
  split_ifs <;> rfl

theorem append_votesReceived (ballot : Ballot) (vote : Bool) :
    (ballot.append vote).voting.votesReceived = ballot.voting.votesReceived + 1 := by
  unfold Ballot.append
  split_ifs <;> rfl

/-- The object after some votes. -/
def ballotAfter (expectedVotes : Nat) (votes : List Bool) : Ballot := votes.foldl Ballot.append (.new expectedVotes)

theorem ballotAfter_snoc (expectedVotes : Nat) (votes : List Bool) (vote : Bool) :
    ballotAfter expectedVotes (votes ++ [vote]) = (ballotAfter expectedVotes votes).append vote := by
  rw [ballotAfter,List.foldl_append]
  rfl

theorem ballotAfter_counts (expectedVotes : Nat) (votes : List Bool) :
    (ballotAfter expectedVotes votes).voting.expectedVotes = expectedVotes ∧
      (ballotAfter expectedVotes votes).voting.votesReceived = votes.length + 1 := by
  induction votes using List.reverseRecOn with
  | nil => exact ⟨rfl,rfl⟩
  | append_singleton votes vote ih =>
    rw [ballotAfter_snoc,append_expectedVotes,append_votesReceived,ih.1,ih.2,List.length_append]
    exact ⟨rfl,rfl⟩

/-- The callback is invoked by a negative vote, and by the positive one at which
    the count is full. -/
theorem ballotAfter_completed (expectedVotes : Nat) (votes : List Bool) : (ballotAfter expectedVotes votes).completed = true ↔
    false ∈ votes ∨ 2 ≤ expectedVotes ∧ expectedVotes ≤ votes.length + 1 := by
  induction votes using List.reverseRecOn with
  | nil =>
    have fresh : (ballotAfter expectedVotes []).completed = false := rfl
    rw [fresh]
    simp
    omega
  | append_singleton votes vote ih =>
    obtain ⟨expected,received⟩ := ballotAfter_counts expectedVotes votes
    rw [ballotAfter_snoc,List.length_append,List.length_singleton]
    cases vote with
    | false => simp [Ballot.append,Ballot.complete]
    | true =>
      unfold Ballot.append
      rw [expected,received,if_neg (by simp)]
      split_ifs with full
      · simp [Ballot.complete]
        omega
      · have later : 2 ≤ expectedVotes ∧ expectedVotes ≤ votes.length + 1 ↔
            2 ≤ expectedVotes ∧ expectedVotes ≤ votes.length + 1 + 1 := by omega
        rw [Ballot.appendVote,ih,later]
        simp

/-- The positive vote at which the count is full sets the result. -/
theorem ballotAfter_result {expectedVotes : Nat} (votes : List Bool) (full : votes.length + 2 = expectedVotes) :
    (ballotAfter expectedVotes (votes ++ [true])).voting.result = true := by
  obtain ⟨expected,received⟩ := ballotAfter_counts expectedVotes votes
  rw [ballotAfter_snoc,Ballot.append,expected,received,if_neg (by simp),if_pos (by omega)]
  rfl

section
variable {s t : State} {acts : List Invocation} {transactionId owner expectedVotes : Nat}

/-- A transaction that is submitted and voted on. -/
def votedOn (owner transactionId expectedVotes : Nat) (votes : List Bool) : List Invocation :=
  .submitVote owner transactionId expectedVotes :: votes.map (.appendVote transactionId)

theorem votedOn_snoc (owner transactionId expectedVotes : Nat) (votes : List Bool) (vote : Bool) :
    votedOn owner transactionId expectedVotes (votes ++ [vote]) =
      votedOn owner transactionId expectedVotes votes ++ [.appendVote transactionId vote] := by
  simp [votedOn]

/-- What a run of its calls alone leads to. -/
theorem run_votedOn {votes : List Bool} (run : Run (Steps step) initial (votedOn owner transactionId expectedVotes votes) t) :
    t.self.activeVoting transactionId = some owner ∧ t.self.ballots owner = some (ballotAfter expectedVotes votes) := by
  induction votes using List.reverseRecOn generalizing t with
  | nil =>
    have move := run.one
    have submitted := submitted_run Run.start
    cases (step_move submitted).mp move
    exact ⟨Function.update_self ..,Function.update_self ..⟩
  | append_singleton votes vote ih =>
    rw [votedOn_snoc] at run
    obtain ⟨s,before,move⟩ := run.snoc
    obtain ⟨active,object⟩ := ih before
    have submitted := submitted_run before
    rw [ballotAfter_snoc]
    cases (step_move submitted).mp move with
    | appendVote _ active' object' =>
      cases active.symm.trans active'
      cases object.symm.trans object'
      exact ⟨active,Function.update_self ..⟩

/-- What any run with these calls leads to. -/
theorem run_ballot {votes : List Bool} (run : Run (Steps step) initial acts s)
    (calls : own transactionId acts = votedOn owner transactionId expectedVotes votes) :
    s.self.activeVoting transactionId = some owner ∧ s.self.ballots owner = some (ballotAfter expectedVotes votes) := by
  obtain ⟨t,alone,alike⟩ := run_own run transactionId
  rw [calls] at alone
  obtain ⟨active,object⟩ := run_votedOn alone
  have inside : .submitVote owner transactionId expectedVotes ∈ own transactionId acts := by simp [calls,votedOn]
  exact ⟨alike.active.symm.trans active,(alike.ballots owner expectedVotes (mem_own.mp inside).1).symm.trans object⟩

end

/-- In every run, of a transaction that has been submitted and voted on: its
    callback has been invoked just when the voting is decided if and only if more
    than the leader is expected to vote, or somebody has voted against it. -/
theorem completed_when_decided (owner transactionId expectedVotes : Nat) (positive : 1 ≤ expectedVotes) (votes : List Bool)
    (acts : List Invocation) (s : State) (run : Run (Steps step) initial acts s)
    (calls : own transactionId acts = votedOn owner transactionId expectedVotes votes) :
    ∃ ballot, s.self.ballots owner = some ballot ∧
      ((ballot.completed = true ↔ false ∈ votes ∨ expectedVotes ≤ ballot.voting.votesReceived) ↔
        2 ≤ expectedVotes ∨ false ∈ votes) := by
  refine ⟨_,(run_ballot run calls).2,?_⟩
  rw [ballotAfter_completed,(ballotAfter_counts expectedVotes votes).2]
  by_cases against : false ∈ votes
  · simp [against]
  · simp only [against,false_or,or_false]
    omega

/-- Two votings at once. -/
def interleaved : List Invocation :=
  [.submitVote 0 7 2,.submitVote 1 8 3,.appendVote 8 true,.appendVote 7 true,.appendVote 8 true,.getResultAndRemove 8]

theorem completed_when_decided_pair : ∃ s, Run (Steps step) initial interleaved s ∧
    ∃ ballot, s.self.ballots 0 = some ballot ∧
      ((ballot.completed = true ↔ false ∈ [true] ∨ 2 ≤ ballot.voting.votesReceived) ↔ 2 ≤ 2 ∨ false ∈ [true]) := by
  obtain ⟨s,run,_⟩ := exists_run_of_exec step (fun _ _ => True) (fun _ => True) initial interleaved (by decide)
  exact ⟨s,run.unrestrict,completed_when_decided 0 7 2 (by decide) [true] interleaved s run.unrestrict (by decide)⟩

/-- A leader that is alone waits for a vote that nobody casts. -/
theorem completed_too_late :
    ¬ ∀ (owner transactionId expectedVotes : Nat), 1 ≤ expectedVotes → ∀ (votes : List Bool) (acts : List Invocation) (s : State),
      Run (Steps step) initial acts s → own transactionId acts = votedOn owner transactionId expectedVotes votes →
      ∀ ballot, s.self.ballots owner = some ballot →
        (ballot.completed = true ↔ false ∈ votes ∨ expectedVotes ≤ ballot.voting.votesReceived) := by
  intro decided
  obtain ⟨s,run,object⟩ := exists_run_of_exec step (fun _ _ => True) (fun s => s.self.ballots 0 = some (.new 1)) initial
    [.submitVote 0 7 1] (by decide)
  have completed := (decided 0 7 1 (by decide) [] _ s run.unrestrict (by decide) _ object).mpr (by decide)
  cases completed

/-- In every run, over any number of transactions: the calls of one transaction
    are a run of their own, which leaves it as it is here. And where its votes are
    all positive, its callback is invoked at the vote that makes the count full and
    not before, and the result read before another vote is true. -/
theorem transactions_apart (acts : List Invocation) (s : State) (run : Run (Steps step) initial acts s) (transactionId : Nat) :
    (∃ t, Run (Steps step) initial (own transactionId acts) t ∧ Alike transactionId acts s t) ∧
    ∀ owner expectedVotes, 2 ≤ expectedVotes →
      (∀ n, own transactionId acts = votedOn owner transactionId expectedVotes (List.replicate n true) →
        ∃ ballot, s.self.ballots owner = some ballot ∧ (ballot.completed = true ↔ expectedVotes - 1 ≤ n)) ∧
      (own transactionId acts = votedOn owner transactionId expectedVotes (List.replicate (expectedVotes - 1) true) ++
          [.getResultAndRemove transactionId] → s.returned transactionId = some true) := by
  refine ⟨run_own run transactionId,fun owner expectedVotes more => ⟨fun n calls => ?_,fun calls => ?_⟩⟩
  · refine ⟨_,(run_ballot run calls).2,?_⟩
    rw [ballotAfter_completed,List.length_replicate]
    simp [more]
  · obtain ⟨t,alone,alike⟩ := run_own run transactionId
    rw [calls] at alone
    obtain ⟨u,before,move⟩ := alone.snoc
    obtain ⟨active,object⟩ := run_votedOn before
    obtain ⟨n,rfl⟩ : ∃ n, expectedVotes = n + 2 := ⟨expectedVotes - 2,by omega⟩
    have count : (List.replicate n true).length + 2 = n + 2 := by rw [List.length_replicate]
    have set := ballotAfter_result (List.replicate n true) count
    have votes : List.replicate (n + 2 - 1) true = List.replicate n true ++ [true] := List.replicate_succ'
    rw [← alike.returned]
    cases (step_move (submitted_run before)).mp move with
    | getResultAndRemove active' object' =>
      cases active.symm.trans active'
      cases object.symm.trans object'
      rw [votes,set]
      exact Function.update_self ..

theorem transactions_apart_pair : ∃ s, Run (Steps step) initial interleaved s ∧ s.returned 8 = some true ∧
    ∃ ballot, s.self.ballots 0 = some ballot ∧ ballot.completed = true := by
  obtain ⟨s,run,_⟩ := exists_run_of_exec step (fun _ _ => True) (fun _ => True) initial interleaved (by decide)
  obtain ⟨_,eight⟩ := transactions_apart interleaved s run.unrestrict 8
  obtain ⟨_,seven⟩ := transactions_apart interleaved s run.unrestrict 7
  obtain ⟨ballot,object,completed⟩ := (seven 0 2 (by decide)).1 1 (by decide)
  exact ⟨s,run.unrestrict,(eight 1 3 (by decide)).2 (by decide),ballot,object,completed.mpr (by decide)⟩

end CdPraticas.Consensus
