import CdPraticas.Copies
import CdPraticas.Agreement

/-!
# Databases that become equal

Writes of one key put their values into the leader's database in one order, and
their APPEND_DATA messages reach each follower in another. The databases agree
in the end when none comes to a follower as the last one with a value that the
leader no longer has.
-/

namespace CdPraticas.Convergence
open Groups Replicas Transactions ReplicaGroup Elections Agreement Copies Runs

/-- Where a write of the leader stands before it is multicast. -/
def unsent : List Pc := [.start,.put,.answerWrite,.testAppend,.sendAppend]

/-- The members agree on `leader` and store the same, and nothing is going on. -/
structure Settled (leader : Nat) (s : State) : Prop where
  member : leader ∈ s.members
  leads : ∀ member ∈ s.members, (s.managers member).amILeader = true ↔ member = leader
  equal : ∀ member ∈ s.members, (s.managers member).database = (s.managers leader).database
  handled : s.unhandled = []
  quiet : s.network = 0
  idle : ∀ i call, s.calls i = some call → call.pc = .finished

/-- The value that an APPEND_DATA brings to a follower is the leader's, or another
    APPEND_DATA of the key is on its way to it or still to be sent. -/
def InOrder (leader : Nat) (s : State) : Action → Prop
  | .deliver ⟨server,.appendData key data⟩ =>
    server = leader ∨ (s.managers leader).database key = some data ∨
      (∃ later, ⟨server,.appendData key later⟩ ∈ s.network.erase ⟨server,.appendData key data⟩) ∨
      ∃ later, Underway unsent leader (.write key later) s
  | _ => True

/-- `follower` has what the leader has, or is still to be told. -/
inductive Owed (leader follower : Nat) (key : String) (s : State) : Prop
  | equal (equal : (s.managers follower).database key = (s.managers leader).database key)
  | flying {data : String} (flying : ⟨follower,.appendData key data⟩ ∈ s.network)
  | unsent {data : String} (underway : Underway unsent leader (.write key data) s)

/-- What holds while the leader stays. -/
structure Converging (leader : Nat) (s : State) : Prop where
  member : leader ∈ s.members
  leads : ∀ member ∈ s.members, (s.managers member).amILeader = true ↔ member = leader
  handled : s.unhandled = []
  calm : (election s).network = 0
  placed : ∀ i call, s.calls i = some call → call.pc = .put → call.server ∈ s.members → call.server = leader
  owed : ∀ follower ∈ s.members, ∀ key, Owed leader follower key s

section
variable {s t : State} {reach : Nat → Option Nat} {leader : Nat} {a : Action}

theorem Settled.converging (settled : Settled leader s) : Converging leader s where
  member := settled.member
  leads := settled.leads
  handled := settled.handled
  calm := by simp [election,settled.quiet]
  placed i call here put := by simp [settled.idle i call here] at put
  owed follower inside key := .equal (by rw [settled.equal follower inside])

/-- A write of the leader goes on until it is multicast. -/
theorem Converging.unsent_step (converging : Converging leader s) {follower : Nat} (inside : follower ∈ s.members)
    {key data : String} (move : step reach a s = some t) (underway : Underway unsent leader (.write key data) s) :
    Owed leader follower key t := by
  rcases underway_step move underway with later | ⟨i,fresh,call,-,-,at_leader,write,stage,turn⟩
  · exact .unsent later
  have leads : (s.managers call.server).amILeader = true := by
    rw [at_leader]
    exact (converging.leads leader converging.member).mpr rfl
  have goes {call' : Call} (now : t.calls i = some call') (server : call'.server = call.server)
      (request : call'.request = call.request) (next : call'.pc ∈ unsent) : Owed leader follower key t :=
    .unsent ⟨i,call',now,server.trans at_leader,request.trans write,next⟩
  cases turn with
  | leadsWrite | put | answerWrite | stillLeads => exact goes (Function.update_self ..) rfl rfl (by simp [Call.goto,unsent])
  | refers _ follows => simp [leads] at follows
  | noLongerLeads _ _ follows => simp [leads] at follows
  | sendAppend write' =>
    cases write.symm.trans write'
    have sender : call.server ∈ s.members := by
      rw [at_leader]
      exact converging.member
    exact .flying (append_sent sender inside)
  | forward here | nowhere here | passesOn here => simp [here,unsent] at stage
  | leadsRead read | get read | absent read | mayVote read | mayNotVote read | submitVote read | sendVoting read
  | spin read | isResult read | noResult read | remove read | answerRead read => cases write.symm.trans read

/-- A follower takes over what an APPEND_DATA brings, -/
theorem Converging.delivered (converging : Converging leader s) {follower : Nat} (inside : follower ∈ s.members)
    (other : follower ≠ leader) {key data : String} (order : InOrder leader s (.deliver ⟨follower,.appendData key data⟩))
    (move : step reach (.deliver ⟨follower,.appendData key data⟩) s = some t) : Owed leader follower key t := by
  rcases order with same | current | ⟨later,flies⟩ | ⟨later,underway⟩
  · exact absurd same other
  · have follows : (s.managers follower).amILeader = false := by
      simpa [other] using converging.leads follower inside
    have stores : stored s (.deliver ⟨follower,.appendData key data⟩) = some ⟨follower,key,data⟩ := by
      simp [stored,follows]
    apply Owed.equal
    rw [step_database move (by simp),step_database move (by simp),stores]
    simp [after,other,current]
  · exact .flying (Multiset.mem_of_le (step_network move) flies)
  · exact converging.unsent_step inside move underway

/-- and every other step leaves it to be told. -/
theorem Converging.owed_step (converging : Converging leader s) (stays : Stays a) (order : InOrder leader s a)
    (move : step reach a s = some t) {follower : Nat} (inside : follower ∈ s.members) (key : String) :
    Owed leader follower key t := by
  by_cases other : follower = leader
  · subst other
    exact .equal rfl
  by_cases delivered : ∃ data, a = .deliver ⟨follower,.appendData key data⟩
  · obtain ⟨data,rfl⟩ := delivered
    exact converging.delivered inside other order move
  cases converging.owed follower inside key with
  | @flying data flies =>
    suffices stays : ⟨follower,.appendData key data⟩ ∈ leftover s a from .flying (Multiset.mem_of_le (step_network move) stays)
    cases a with
    | join | depart => exact stays.elim
    | deliver packet =>
      refine (Multiset.mem_erase_of_ne ?_).mpr flies
      rintro rfl
      exact delivered ⟨data,rfl⟩
    | _ => exact flies
  | unsent underway => exact converging.unsent_step inside move underway
  | equal equal =>
    have here : ∀ server name host, a = .join name host → server ≠ s.started := by
      rintro server name host rfl
      exact stays.elim
    rcases stores : stored s a with _ | entry
    · exact .equal (by rw [step_database move (here _),step_database move (here _),stores,after_none,after_none,equal])
    by_cases aside : entry.key = key ∧ (entry.server = follower ∨ entry.server = leader)
    · obtain ⟨rfl,one⟩ := aside
      have member : entry.server ∈ s.members := by
        rcases one with rfl | rfl
        · exact inside
        · exact converging.member
      rcases stored_cases stores with ⟨rfl,follows⟩ | ⟨i,fresh,call,rfl,called,server,write,put⟩
      · have notLeader : entry.server ≠ leader := by
          simpa [follows] using converging.leads entry.server member
        obtain rfl := one.resolve_right notLeader
        exact absurd ⟨entry.data,rfl⟩ delivered
      · have at_leader := converging.placed i call called put (server ▸ member)
        exact converging.unsent_step inside move ⟨i,call,called,at_leader,write,by simp [put,unsent]⟩
    · have aside (server : Nat) (one : server = follower ∨ server = leader) : ¬ (entry.server = server ∧ entry.key = key) := by
        rintro ⟨rfl,same⟩
        exact aside ⟨same,one⟩
      apply Owed.equal
      rw [step_database move (here _),step_database move (here _),stores]
      simp only [after]
      rw [if_neg (aside follower (.inl rfl)),if_neg (aside leader (.inr rfl)),equal]

theorem Converging.step (converging : Converging leader s) (stays : Stays a) (order : InOrder leader s a)
    (move : step reach a s = some t) : Converging leader t := by
  have still := election_still converging.handled converging.calm stays move
  have members : t.members = s.members := congrArg Election.members still
  have unhandled : t.unhandled = s.unhandled := congrArg Election.unhandled still
  refine ⟨members ▸ converging.member,?_,unhandled ▸ converging.handled,by rw [still]; exact converging.calm,?_,?_⟩
  · intro member inside
    rw [amILeader_of_election still]
    exact converging.leads member (members ▸ inside)
  · intro i call called put inside
    rw [members] at inside
    cases step_callMove move i with
    | begins _ _ new => cases called.symm.trans new; cases put
    | stays same =>
      rw [called,Option.map_some] at same
      obtain ⟨call',called',kept⟩ := Option.map_eq_some_iff.mp same.symm
      obtain ⟨server,-,pc⟩ := place_eq kept
      rw [← server] at inside ⊢
      exact converging.placed i call' called' (pc.trans put) inside
    | @thread fresh call' thread called' turn =>
      cases turn with
      | leadsWrite _ _ leads =>
        cases called.symm.trans (Function.update_self ..)
        exact (converging.leads _ inside).mp leads
      | forward _ _ _ unused =>
        have new : i ≠ fresh := by
          rintro rfl
          cases called'.symm.trans unused
        cases called.symm.trans ((Function.update_of_ne new ..).trans (Function.update_self ..))
        cases put
      | _ => cases called.symm.trans (Function.update_self ..); cases put
  · intro follower inside key
    exact converging.owed_step stays order move (members ▸ inside) key

end

/-- In every run without a change of the group whose steps meet the condition:
    whenever no write runs and no message is in flight, the databases are equal. -/
theorem replicas_converge (reach : Nat → Option Nat) (leader : Nat) (s₀ : State) (settled : Settled leader s₀)
    (acts : List Action) (s : State)
    (run : Run (Restrict (fun s a => Stays a ∧ InOrder leader s a) (Steps (step reach))) s₀ acts s)
    (done : ∀ i call key data, s.calls i = some call → call.request = .write key data → call.pc = .finished)
    (quiet : s.network = 0) : ∀ member ∈ s.members, (s.managers member).database = (s.managers leader).database := by
  have converging : Converging leader s := run.always settled.converging
    fun _ _ _ converging move => converging.step move.1.1 move.1.2 move.2
  intro member inside
  funext key
  cases converging.owed member inside key with
  | equal equal => exact equal
  | flying flies => simp [quiet] at flies
  | unsent underway =>
    obtain ⟨i,call,called,-,write,stage⟩ := underway
    rw [done i call _ _ called write] at stage
    simp [unsent] at stage

/-- A stronger condition that can be computed: what comes to a follower is what
    the leader has. -/
def UpToDate (leader : Nat) (s : State) : Action → Prop
  | .deliver ⟨server,.appendData key data⟩ => server = leader ∨ (s.managers leader).database key = some data
  | _ => True

instance (leader : Nat) (s : State) : DecidablePred (UpToDate leader s)
  | .deliver ⟨_,.appendData _ _⟩ => inferInstanceAs (Decidable (_ ∨ _))
  | .deliver ⟨_,.newLeader _⟩ | .deliver ⟨_,.whoIsLeader⟩ | .deliver ⟨_,.consensusVoting _ _ _⟩ => isTrue trivial
  | .join _ _ | .depart _ _ | .handle _ | .vote _ | .call _ _ _ | .thread _ _ => isTrue trivial

theorem UpToDate.inOrder {leader : Nat} {s : State} {a : Action} (current : UpToDate leader s a) : InOrder leader s a := by
  unfold InOrder
  split
  · exact current.imp_right .inl
  · trivial

/-- Server1 leads, and Server9 has joined and been told. -/
def together : State := endOf (step fun _ => none) initial introduced

theorem together_reached : Run (Steps (step fun _ => none)) initial introduced together :=
  run_endOf _ _ _ (by decide)

theorem together_calls (i : Nat) : together.calls i = none :=
  calls_unmade together_reached rfl fun a taken => by
    revert a
    simp [introduced,Makes]

theorem together_settled : Settled 0 together where
  member := by decide
  leads := by decide
  equal member inside := by
    have members : together.members = [0,1] := by decide
    rw [members,List.mem_pair] at inside
    rcases inside with rfl | rfl <;> rfl
  handled := by decide
  quiet := by decide
  idle i call called := by cases (together_calls i).symm.trans called

/-- The first `n` calls are all there are, and they are done. -/
theorem all_done {s : State} {acts : List Action} (run : Run (Steps (step fun _ => none)) together acts s) (n : Nat)
    (unmade : ∀ i ≥ n, ∀ a ∈ acts, ¬ Makes i a)
    (done : ∀ i ∈ List.range n, (s.calls i).all (fun call => decide (call.pc = .finished)) = true) (i : Nat) (call : Call)
    (called : s.calls i = some call) : call.pc = .finished := by
  rcases Nat.lt_or_ge i n with small | large
  · simpa [called] using done i (List.mem_range.mpr small)
  · cases (calls_unmade run (together_calls i) (unmade i large)).symm.trans called

/-- Two writes of different keys at a time, whose APPEND_DATA messages come to the follower
    in the other order, and then another write of the first key. -/
def replicated : List Action :=
  Action.call 0 0 (.write "k" "a") :: Action.call 1 0 (.write "j" "c") ::
    List.replicate 5 (Action.thread 0 0) ++ List.replicate 5 (Action.thread 1 0) ++
    [Action.deliver ⟨1,.appendData "j" "c"⟩,.deliver ⟨0,.appendData "k" "a"⟩,.deliver ⟨1,.appendData "k" "a"⟩] ++
    Action.call 2 0 (.write "k" "b") :: List.replicate 5 (Action.thread 2 0) ++
    [Action.deliver ⟨1,.appendData "k" "b"⟩,.deliver ⟨0,.appendData "k" "b"⟩,.deliver ⟨0,.appendData "j" "c"⟩]

theorem replicas_converge_pair :
    ∃ s, Run (Restrict (fun s a => Stays a ∧ InOrder 0 s a) (Steps (step fun _ => none))) together replicated s ∧
      (s.managers 1).database "k" = some "b" ∧ (s.managers 1).database "j" = some "c" ∧
      ∀ member ∈ s.members, (s.managers member).database = (s.managers 0).database := by
  obtain ⟨s,run,quiet,done,first,second⟩ := exists_run_of_exec (step fun _ => none) (fun s a => Stays a ∧ UpToDate 0 s a)
    (fun s => s.network = 0 ∧ (∀ i ∈ List.range 3, (s.calls i).all (fun call => decide (call.pc = .finished)) = true) ∧
      (s.managers 1).database "k" = some "b" ∧ (s.managers 1).database "j" = some "c") together replicated (by decide)
  have ordered : Run (Restrict (fun s a => Stays a ∧ InOrder 0 s a) (Steps (step fun _ => none))) together replicated s :=
    run.mono fun _ _ _ move => ⟨⟨move.1.1,move.1.2.inOrder⟩,move.2⟩
  have finished : ∀ i call, s.calls i = some call → call.pc = .finished :=
    all_done run.unrestrict 3 (fun i large a taken => by revert a; simp [replicated,Makes]; omega) done
  exact ⟨s,ordered,first,second,replicas_converge _ 0 together together_settled replicated s ordered
    (fun i call _ _ called _ => finished i call called) quiet⟩

/-- Two writes of one key, whose APPEND_DATA messages come to the follower in the
    other order. -/
def overtaken : List Action :=
  Action.call 0 0 (.write "k" "a") :: Action.call 1 0 (.write "k" "b") ::
    List.replicate 5 (Action.thread 0 0) ++ List.replicate 5 (Action.thread 1 0) ++
    [Action.deliver ⟨0,.appendData "k" "a"⟩,.deliver ⟨0,.appendData "k" "b"⟩,
     .deliver ⟨1,.appendData "k" "b"⟩,.deliver ⟨1,.appendData "k" "a"⟩]

/-- The leader ends with the second value and the follower with the first. -/
theorem replicas_diverge :
    ¬ ∀ (reach : Nat → Option Nat) (leader : Nat) (s₀ : State), (∃ before, Run (Steps (step reach)) initial before s₀) →
      Settled leader s₀ → ∀ (acts : List Action) (s : State),
      Run (Restrict (fun _ a => Stays a) (Steps (step reach))) s₀ acts s →
      (∀ i call key data, s.calls i = some call → call.request = .write key data → call.pc = .finished) →
      s.network = 0 → ∀ member ∈ s.members, (s.managers member).database = (s.managers leader).database := by
  intro equal
  obtain ⟨s,run,quiet,done,inside,follower,leader⟩ := exists_run_of_exec (step fun _ => none) (fun _ a => Stays a)
    (fun s => s.network = 0 ∧ (∀ i ∈ List.range 2, (s.calls i).all (fun call => decide (call.pc = .finished)) = true) ∧ 1 ∈ s.members ∧
      (s.managers 1).database "k" = some "a" ∧ (s.managers 0).database "k" = some "b") together overtaken (by decide)
  have finished : ∀ i call, s.calls i = some call → call.pc = .finished :=
    all_done run.unrestrict 2 (fun i large a taken => by revert a; simp [overtaken,Makes]; omega) done
  have same := equal _ 0 together ⟨_,together_reached⟩ together_settled overtaken s run
    (fun i call _ _ called _ => finished i call called) quiet 1 inside
  rw [same,leader] at follower
  exact absurd (Option.some.inj follower) (by decide)

end CdPraticas.Convergence
