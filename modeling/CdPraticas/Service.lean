import CdPraticas.Serving

/-!
# Operations one after the other

Clients write and read at any of the servers, each when everything that the one
before has caused is over. The group then answers as one map does, as long as
the votes of a read do not get into each other's way.
-/

namespace CdPraticas.Service
open Replicas Transactions ReplicaGroup Elections Copies Polls Serving Runs

/-- The step with which an operation begins. -/
def Begins : Action → Prop
  | .call _ _ _ => True
  | _ => False

instance : DecidablePred Begins
  | .call _ _ _ => isTrue trivial
  | .join _ _ | .depart _ _ | .handle _ | .deliver _ | .vote _ | .thread _ _ => isFalse id

/-- A call that is over, if there is one. -/
def Over (s : State) (i : Nat) : Prop := ∀ call, s.calls i = some call → call.pc = .finished

/-- Nothing is under way. -/
structure Quiet (s : State) : Prop where
  network : s.network = 0
  votes : ∀ server, s.votes server = none
  finished : ∀ i, Over s i

/-- The group stays, and an operation begins at a member when nothing is under way. -/
def Sequentially (s : State) : Action → Prop
  | .call _ server _ => Quiet s ∧ server ∈ s.members
  | a => Stays a

/-- How the call of the client waits for the working one. -/
inductive Asked (contents : String → Option String) (request : Request) (s : State) (i w : Nat) : Nat → Prop
  | itself (same : i = w) : Asked contents request s i w 0
  | waits {caller} (other : i ≠ w) (called : s.calls i = some caller) (asks : caller.request = request)
      (pc : caller.pc = .awaits w) : Asked contents request s i w 1
  | answered {caller} (other : i ≠ w) (called : s.calls i = some caller) (pc : caller.pc = .finished)
      (answer : caller.answer = some (answerTo contents request)) : Asked contents request s i w 0

/-- More than one step of a call puts in flight. -/
def span (team : Team) : Nat := 10 * team.members.length + 1

/-- An operation is under way, and how much it has still to do. -/
inductive Operating (team : Team) (contents : String → Option String) (request : Request) (s : State) (i : Nat) : Nat → Prop
  | start {caller} (called : s.calls i = some caller) (asks : caller.request = request) (member : caller.server ∈ team.members)
      (follower : caller.server ≠ team.leader) (pc : caller.pc = .start) (resting : Resting team contents s)
      (others : ∀ j, j ≠ i → Over s j) : Operating team contents request s i (span team * 12)
  | forward {caller} (called : s.calls i = some caller) (asks : caller.request = request) (member : caller.server ∈ team.members)
      (follower : caller.server ≠ team.leader) (pc : caller.pc = .forward) (resting : Resting team contents s)
      (others : ∀ j, j ≠ i → Over s j) : Operating team contents request s i (span team * 11)
  | works {w call waiting} (working : Working team contents request s w call) (asked : Asked contents request s i w waiting)
      (others : ∀ j, j ≠ i → j ≠ w → Over s j) :
      Operating team contents request s i (span team * (left call.pc + waiting) + flight team s)

section
variable {team : Team} {contents : String → Option String} {request : Request} {s t : State} {i w n fresh : Nat} {a : Action}
  {call : Call}

theorem Over.frame {j : Nat} (finished : Over s j) (same : t.calls j = s.calls j) : Over t j :=
  fun call called => finished call (same ▸ called)

theorem Over.stuck {j : Nat} (finished : Over s j) (called : s.calls j = some call) {reach : Nat → Option Nat} :
    stepCall reach s j fresh call = none := stepCall_finished (finished call called)

theorem Asked.frame {waiting : Nat} (asked : Asked contents request s i w waiting) (same : i ≠ w → t.calls i = s.calls i) :
    Asked contents request t i w waiting := by
  cases asked with
  | itself here => exact .itself here
  | waits other called asks pc => exact .waits other ((same other).trans called) asks pc
  | answered other called pc answer => exact .answered other ((same other).trans called) pc answer

/-- The servers rest when nothing is in flight. -/
theorem resting_flight (resting : Resting team contents s) : flight team s = 0 := by
  simp [flight,resting.network,resting.votes,voteWork]

/-- Where nothing is under way nothing happens but for the next operation. -/
theorem Quiet.stuck (quiet : Quiet s) (led : Led team s) (stays : Stays a) (going : ¬ Begins a) : step team.reach a s = none := by
  cases a with
  | join | depart => exact stays.elim
  | handle server => simp only [step,led.handled,List.not_mem_nil,false_and,if_false]
  | deliver packet => simp [step,quiet.network]
  | vote server => simp only [step,quiet.votes,Option.map_none]
  | call => exact absurd trivial going
  | thread j fresh =>
    cases called : s.calls j with
    | none => simp only [step,called,Option.bind_none]
    | some call => simp only [step,called,Option.bind_some,stepCall_finished (quiet.finished j call called)]

/-- An operation begins. -/
theorem Operating.begins (resting : Resting team contents s) (finished : ∀ j, Over s j) {server : Nat}
    (member : server ∈ team.members) (move : step team.reach (.call i server request) s = some t) :
    ∃ n, Operating team contents request t i n := by
  cases stepped move with
  | call =>
    have others : ∀ j, j ≠ i → Over (s.setCall i (.new server request)) j := fun j other =>
      (finished j).frame (Function.update_of_ne other ..)
    have rests : Resting team contents (s.setCall i (.new server request)) := resting.frame rfl rfl rfl
    by_cases leads : server = team.leader
    · exact ⟨_,.works ⟨Function.update_self ..,leads,rfl,.early rests .start rfl rfl⟩ (.itself rfl)
        fun j other _ => others j other⟩
    · exact ⟨_,.start (Function.update_self ..) rfl member leads rfl rests others⟩

/-- The step of a call that goes on. -/
theorem Operating.thread (serving : Operating team contents request s i n) (led : Led team s) {j : Nat} (called : s.calls j = some call)
    (undisturbed : removing call.pc = true → ∀ server vote, s.votes server = some vote → uncommitted vote.pc = false)
    (moved : stepCall team.reach s j fresh call = some t) : ∃ m < n, Operating team contents request t i m := by
  have positive : 0 < span team := Nat.succ_pos _
  cases serving with
  | start called' asks member follower pc resting others =>
    by_cases same : j = i
    · subst same
      cases called.symm.trans called'
      have follows := led.follows member follower
      have next : stepCall team.reach s j fresh call = some (s.setCall j (call.goto .forward)) := by
        cases asks : call.request <;> simp [stepCall,pc,asks,follows]
      cases moved.symm.trans next
      exact ⟨span team * 11,by omega,.forward (Function.update_self ..) asks member follower rfl (resting.frame rfl rfl rfl)
        fun k other => (others k other).frame (Function.update_of_ne other ..)⟩
    · cases ((others j same).stuck called).symm.trans moved
  | forward called' asks member follower pc resting others =>
    by_cases same : j = i
    · subst same
      cases called.symm.trans called'
      have next : stepCall team.reach s j fresh call = if s.calls fresh = none then
          some ((s.setCall j (call.goto (.awaits fresh))).setCall fresh (.new team.leader call.request)) else none := by
        cases asks : call.request <;>
          simp [stepCall,pc,asks,led.channel _ member follower,team.reaches _ member follower]
      rw [next] at moved
      split at moved
      case isFalse => cases moved
      case isTrue unused =>
        cases moved
        have new : j ≠ fresh := by
          rintro rfl
          cases called.symm.trans unused
        have working : Working team contents request
            ((s.setCall j (call.goto (.awaits fresh))).setCall fresh (.new team.leader call.request)) fresh
            (.new team.leader call.request) :=
          ⟨Function.update_self ..,rfl,asks,.early (resting.frame rfl rfl rfl) .start rfl rfl⟩
        have asked : Asked contents request
            ((s.setCall j (call.goto (.awaits fresh))).setCall fresh (.new team.leader call.request)) j fresh 1 :=
          .waits new ((Function.update_of_ne new ..).trans (Function.update_self ..)) asks rfl
        refine ⟨_,?_,.works working asked fun k other others' => ?_⟩
        · have nothing : flight team ((s.setCall j (call.goto (.awaits fresh))).setCall fresh (.new team.leader call.request)) = 0 :=
            resting_flight (resting.frame rfl rfl rfl)
          rw [nothing]
          simp only [Call.new,left]
          omega
        · exact (others k other).frame ((Function.update_of_ne others' ..).trans (Function.update_of_ne other ..))
    · cases ((others j same).stuck called).symm.trans moved
  | @works w worker waiting working asked others =>
    by_cases works : j = w
    · subst works
      cases called.symm.trans working.called
      obtain ⟨call',working',less,flight',elsewhere⟩ := working.thread led undisturbed moved
      refine ⟨_,?_,.works working' (asked.frame fun other => elsewhere i other) fun k other other' =>
        (others k other other').frame (elsewhere k other')⟩
      have fewer : span team * (left call'.pc + waiting) + span team ≤ span team * (left call.pc + waiting) := by
        rw [← Nat.mul_succ]
        exact Nat.mul_le_mul_left _ (by omega)
      have wide : 10 * team.members.length < span team := Nat.lt_succ_self _
      omega
    by_cases same : j = i
    · subst same
      cases asked with
      | itself here => exact absurd here works
      | waits other called' asks pc =>
        cases called.symm.trans called'
        have next : stepCall team.reach s j fresh call =
            worker.answer.bind fun answer => some (s.setCall j (call.finish (passOn call.request answer))) := by
          cases asks : call.request <;> cases given : worker.answer <;> simp [stepCall,pc,asks,working.called,given]
        rw [next] at moved
        obtain ⟨answer,given,moved⟩ := Option.bind_eq_some_iff.mp moved
        cases moved
        have elsewhere {k : Nat} (other : k ≠ j) (call' : Call) : (s.setCall j call').calls k = s.calls k :=
          Function.update_of_ne other ..
        refine ⟨_,?_,.works (working.frame (elsewhere other.symm _) rfl rfl rfl)
          (.answered other (Function.update_self ..) rfl ?_) fun k other' apart => (others k other' apart).frame (elsewhere other' _)⟩
        · have same : flight team (s.setCall j (call.finish (passOn call.request answer))) = flight team s := rfl
          have fewer : span team * (left worker.pc + 0) < span team * (left worker.pc + 1) :=
            Nat.mul_lt_mul_of_pos_left (Nat.lt_succ_self _) positive
          omega
        · rw [asks,working.answer given]
          exact congrArg some (passOn_answerTo ..)
      | answered _ called' pc =>
        cases called.symm.trans called'
        cases (stepCall_finished pc).symm.trans moved
    · cases ((others j same works).stuck called).symm.trans moved

theorem Operating.voter (operating : Operating team contents request s i n) {server : Nat} {vote : VoteCall}
    (here : s.votes server = some vote) : server ∈ team.members := by
  cases operating with
  | start _ _ _ _ _ resting => cases (resting.votes server).symm.trans here
  | forward _ _ _ _ _ resting => cases (resting.votes server).symm.trans here
  | works working => exact working.voter here

/-- Every step of an operation leaves less to do. -/
theorem Operating.step (operating : Operating team contents request s i n) (led : Led team s) (stays : Stays a) (going : ¬ Begins a)
    (undisturbed : Undisturbed s a) (move : step team.reach a s = some t) : ∃ m < n, Operating team contents request t i m := by
  cases stepped move with
  | join | depart => exact stays.elim
  | call => exact absurd trivial going
  | handle due _ =>
    rw [led.handled] at due
    cases due
  | thread called moved =>
    refine operating.thread led called (fun removes server vote there => ?_) moved
    have settled := undisturbed (by rw [called]; exact removes) server (led.members ▸ operating.voter there)
    rwa [there,Option.any_some] at settled
  | @deliver packet flying free =>
    cases operating with
    | start _ _ _ _ _ resting => simp [resting.network] at flying
    | forward _ _ _ _ _ resting => simp [resting.network] at flying
    | works working asked others =>
      have elsewhere (k : Nat) : ({ s with network := s.network.erase packet }.handled team.reach packet.receiver
          (messageReceived (s.managers packet.receiver) packet.message)).calls k = s.calls k := by rw [handled_calls]
      refine ⟨_,?_,.works (working.delivered led flying free) (asked.frame fun _ => elsewhere i) fun k other other' =>
        (others k other other').frame (elsewhere k)⟩
      exact Nat.add_lt_add_left (flight_delivered flying (working.addressed flying) free (led.about_key flying)) _
  | @vote server vote here =>
    cases operating with
    | start _ _ _ _ _ resting => cases (resting.votes server).symm.trans here
    | forward _ _ _ _ _ resting => cases (resting.votes server).symm.trans here
    | works working asked others =>
      have free : loading vote.pc = true → ∀ other vote', s.votes other = some vote' → counting vote'.pc = false := by
        intro loads other vote' there
        have alone := undisturbed (by rw [here]; exact loads) other (led.members ▸ working.voter there)
        rwa [there,Option.any_some] at alone
      obtain ⟨call',working',same,elsewhere⟩ := working.vote led here free
      refine ⟨_,?_,.works working' (asked.frame fun other => elsewhere i other) fun k other other' =>
        (others k other other').frame (elsewhere k other')⟩
      rw [same]
      exact Nat.add_lt_add_left (flight_stepVote (working.voter here) here) _

/-- When nothing is under way any more, the operation has been performed. -/
theorem Operating.performed (operating : Operating team contents request s i n) (quiet : Quiet s) :
    Stores team (perform contents request) s ∧ Inactive team s ∧
      ∃ call, s.calls i = some call ∧ call.pc = .finished ∧ call.answer = some (answerTo contents request) := by
  cases operating with
  | start called _ _ _ pc => cases pc.symm.trans (quiet.finished i _ called)
  | forward called _ _ _ pc => cases pc.symm.trans (quiet.finished i _ called)
  | @works w worker _ working asked =>
    have ends := quiet.finished w worker working.called
    obtain ⟨stores,inactive⟩ := working.done ends quiet.network
    refine ⟨stores,inactive,?_⟩
    cases asked with
    | itself here => exact here ▸ ⟨worker,working.called,ends,working.answered ends⟩
    | waits _ called _ pc => cases pc.symm.trans (quiet.finished i _ called)
    | answered _ called pc answer => exact ⟨_,called,pc,answer⟩

/-- Calls are numbered, and only so many have been made. -/
def FewCalls (s : State) : Prop := ∃ bound, ∀ i ≥ bound, s.calls i = none

theorem FewCalls.step {reach : Nat → Option Nat} (few : FewCalls s) (move : step reach a s = some t) : FewCalls t := by
  obtain ⟨bound,unused⟩ := few
  obtain ⟨more,unmade⟩ : ∃ more, ∀ i ≥ more, ¬ Makes i a := by
    cases a with
    | call made => exact ⟨made + 1,fun i large same => by cases same; omega⟩
    | thread _ fresh => exact ⟨fresh + 1,fun i large same => by cases same; omega⟩
    | _ => exact ⟨0,fun _ _ made => made⟩
  refine ⟨max bound more,fun i large => ?_⟩
  have before := unused i (le_trans (le_max_left ..) large)
  cases step_callMove move i with
  | thread _ called => cases before.symm.trans called
  | begins makes => exact absurd makes (unmade i (le_trans (le_max_right ..) large))
  | stays same => simpa [before] using same

/-- While something is under way a step can be taken that disturbs nothing. -/
theorem Operating.goes_on (operating : Operating team contents request s i n) (led : Led team s) (few : FewCalls s) :
    Quiet s ∨ ∃ a t, Stays a ∧ ¬ Begins a ∧ Undisturbed s a ∧ ReplicaGroup.step team.reach a s = some t := by
  by_cases voting : ∃ server vote, s.votes server = some vote
  · -- The votes go first, and among them the one that has read the count.
    right
    have next (server : Nat) (vote : VoteCall) (here : s.votes server = some vote) :
        ReplicaGroup.step team.reach (.vote server) s = some (stepVote s server vote) := by
      simp only [ReplicaGroup.step,here,Option.map_some]
    by_cases counts : ∃ server vote, s.votes server = some vote ∧ counting vote.pc = true
    · obtain ⟨server,vote,here,counts⟩ := counts
      refine ⟨.vote server,_,trivial,id,fun loads => ?_,next server vote here⟩
      rw [here,Option.any_some] at loads
      cases at_pc : vote.pc <;> simp [at_pc,loading,counting] at loads counts
    · obtain ⟨server,vote,here⟩ := voting
      refine ⟨.vote server,_,trivial,id,fun _ other _ => ?_,next server vote here⟩
      cases there : s.votes other with
      | none => rfl
      | some vote' => simpa using fun counts' => counts ⟨other,vote',there,counts'⟩
  have votes (server : Nat) : s.votes server = none := by
    cases here : s.votes server with
    | none => rfl
    | some vote => exact absurd ⟨server,vote,here⟩ voting
  by_cases network : s.network = 0
  · have thread (j fresh : Nat) (call : Call) (called : s.calls j = some call)
        (enabled : (stepCall team.reach s j fresh call).isSome = true) :
        Quiet s ∨ ∃ a t, Stays a ∧ ¬ Begins a ∧ Undisturbed s a ∧ ReplicaGroup.step team.reach a s = some t := by
      obtain ⟨t,moved⟩ := Option.isSome_iff_exists.mp enabled
      refine .inr ⟨.thread j fresh,t,trivial,id,fun _ other _ => by rw [votes]; rfl,?_⟩
      simpa only [ReplicaGroup.step,called,Option.bind_some] using moved
    cases operating with
    | @start caller called _ member follower pc =>
      refine thread i 0 _ called ?_
      cases asks : caller.request <;> simp only [stepCall,pc,asks,Option.isSome_some]
    | @forward caller called _ member follower pc =>
      obtain ⟨bound,unused⟩ := few
      refine thread i bound _ called ?_
      cases asks : caller.request <;>
        simp [stepCall,pc,asks,led.channel _ member follower,team.reaches _ member follower,unused bound le_rfl]
    | @works w worker _ working asked others =>
      rcases working.enabled led network votes with ends | ⟨fresh,enabled⟩
      · cases asked with
        | @waits caller other called _ pc =>
          refine thread i 0 _ called ?_
          have given := working.answered ends
          cases asks : caller.request <;> simp [stepCall,pc,asks,working.called,given]
        | itself here =>
          refine .inl ⟨network,votes,fun j call called => ?_⟩
          by_cases works : j = w
          · subst works
            cases called.symm.trans working.called
            exact ends
          · exact others j (here ▸ works) works call called
        | answered other called' pc =>
          refine .inl ⟨network,votes,fun j call called => ?_⟩
          by_cases works : j = w
          · subst works
            cases called.symm.trans working.called
            exact ends
          by_cases same : j = i
          · subst same
            cases called.symm.trans called'
            exact pc
          · exact others j same works call called
      · exact thread w fresh worker working.called enabled
  · right
    obtain ⟨packet,flying⟩ := Multiset.exists_mem_of_ne_zero network
    exact ⟨.deliver packet,_,trivial,id,trivial,by simp only [ReplicaGroup.step]; rw [if_pos ⟨flying,votes _⟩]⟩

/-! ### Whole runs -/

/-- The contents of the map after the operations that `acts` begins. -/
def contentsAfter (contents : String → Option String) (acts : List Action) : String → Option String :=
  acts.foldl (fun contents a =>
    match a with
    | .call _ _ request => perform contents request
    | _ => contents) contents

theorem contentsAfter_begun (contents : String → Option String) (front : List Action) (i server : Nat) (request : Request)
    {back : List Action} (rest : ∀ a ∈ back, ¬ Begins a) :
    contentsAfter contents (front ++ .call i server request :: back) = perform (contentsAfter contents front) request := by
  have still (acts : List Action) (rest : ∀ a ∈ acts, ¬ Begins a) (contents : String → Option String) :
      contentsAfter contents acts = contents := by
    induction acts generalizing contents with
    | nil => rfl
    | cons a acts ih =>
      have later := ih (fun b member => rest b (List.mem_cons_of_mem _ member)) contents
      cases a with
      | call => exact absurd trivial (rest _ List.mem_cons_self)
      | _ => exact later
  rw [contentsAfter,List.foldl_append,List.foldl_cons]
  exact still back rest _

/-- Every operation that `acts` begins has the answer of the map. -/
def Answered (contents : String → Option String) (acts : List Action) (s : State) : Prop :=
  ∀ front i server request back, acts = front ++ .call i server request :: back →
    ∃ call, s.calls i = some call ∧ call.pc = .finished ∧ call.answer = some (answerTo (contentsAfter contents front) request)

/-- A call that is over keeps its answer. -/
theorem finished_step {reach : Nat → Option Nat} {answer : Answer} (move : step reach a s = some t) (called : s.calls i = some call)
    (ends : call.pc = .finished) (answered : call.answer = some answer) :
    ∃ call', t.calls i = some call' ∧ call'.pc = .finished ∧ call'.answer = some answer := by
  have kept (same : t.calls i = s.calls i) : ∃ call', t.calls i = some call' ∧ call'.pc = .finished ∧ call'.answer = some answer :=
    ⟨call,same.trans called,ends,answered⟩
  cases stepped move with
  | join | depart => exact kept rfl
  | handle | deliver => exact kept (by simp only [handled_calls])
  | @vote server vote =>
    have same := stepVote_calls (s := s) (fun call => (call.pc,call.answer)) (fun _ _ _ => rfl) server vote i
    rw [called,Option.map_some] at same
    obtain ⟨call',now,pair⟩ := Option.map_eq_some_iff.mp same
    obtain ⟨pc,answer'⟩ := Prod.mk.inj pair
    exact ⟨call',now,pc.trans ends,answer'.trans answered⟩
  | @call j _ _ unused _ =>
    have other : i ≠ j := by
      rintro rfl
      cases called.symm.trans unused
    exact kept (Function.update_of_ne other ..)
  | @thread j fresh call' _ here moved =>
    have other : i ≠ j := by
      rintro rfl
      cases called.symm.trans here
      cases (stepCall_finished ends).symm.trans moved
    rcases turn_others (stepCall_turn moved) other with same | ⟨_,unused,_⟩
    · exact kept same
    · cases called.symm.trans unused

theorem Answered.step {reach : Nat → Option Nat} {acts : List Action} (answered : Answered contents acts s)
    (move : step reach a s = some t) : Answered contents acts t := by
  intro front i server request back split
  obtain ⟨call,called,ends,answer⟩ := answered front i server request back split
  exact finished_step move called ends answer

/-- Between two operations, or in one. -/
inductive Served (team : Team) (contents : String → Option String) (acts : List Action) (s : State) : Prop
  | quiet (quiet : Quiet s) (stores : Stores team (contentsAfter contents acts) s) (inactive : Inactive team s)
      (answered : Answered contents acts s)
  | operating {front i server request back n} (begun : acts = front ++ .call i server request :: back)
      (rest : ∀ a ∈ back, ¬ Begins a) (answered : Answered contents front s)
      (operating : Operating team (contentsAfter contents front) request s i n)

/-- The servers form the group of `team`, store `contents` and do nothing. -/
structure Formed (team : Team) (contents : String → Option String) (s : State) : Prop where
  led : Led team s
  numbered : ∀ member ∈ team.members, member < s.started
  few : FewCalls s
  quiet : Quiet s
  stores : Stores team contents s
  inactive : Inactive team s

/-- What holds in every run. -/
structure Serves (team : Team) (contents : String → Option String) (acts : List Action) (s : State) : Prop where
  led : Led team s
  numbered : ∀ member ∈ team.members, member < s.started
  few : FewCalls s
  served : Served team contents acts s

theorem Formed.serves (formed : Formed team contents s) : Serves team contents [] s :=
  ⟨formed.led,formed.numbered,formed.few,.quiet formed.quiet formed.stores formed.inactive
    fun _ _ _ _ _ split => absurd split (by simp)⟩

/-- Whenever nothing is under way every operation has been performed and answered. -/
theorem Served.performed {acts : List Action} (served : Served team contents acts s) (quiet : Quiet s) :
    Stores team (contentsAfter contents acts) s ∧ Inactive team s ∧ Answered contents acts s := by
  cases served with
  | quiet _ stores inactive answered => exact ⟨stores,inactive,answered⟩
  | @operating front i server request back n begun rest answered operating =>
    subst begun
    obtain ⟨stores,inactive,last⟩ := operating.performed quiet
    rw [contentsAfter_begun contents front i server request rest]
    refine ⟨stores,inactive,?_⟩
    intro front' j server' request' back' split
    rcases List.append_eq_append_iff.mp split with ⟨between,rfl,whole⟩ | ⟨between,rfl,whole⟩
    · cases between with
      | nil =>
        cases whole
        rw [List.append_nil]
        exact last
      | cons b between =>
        cases whole
        exact absurd trivial (rest (.call j server' request') (by simp))
    · cases between with
      | nil =>
        cases whole
        rw [List.append_nil] at last
        exact last
      | cons b between =>
        cases whole
        exact answered front' j server' request' between rfl

theorem Sequentially.stays (sequentially : Sequentially s a) : Stays a := by
  cases a with
  | call => trivial
  | _ => exact sequentially

theorem Serves.step {acts : List Action} (serves : Serves team contents acts s) (sequentially : Sequentially s a)
    (undisturbed : Undisturbed s a) (move : step team.reach a s = some t) : Serves team contents (acts ++ [a]) t := by
  have stays := sequentially.stays
  have started := started_le move
  refine ⟨serves.led.step stays move,fun member inside => (serves.numbered member inside).trans_le started,serves.few.step move,?_⟩
  by_cases begins : Begins a
  · cases a with
    | call i server request =>
      obtain ⟨quiet,member⟩ := sequentially
      obtain ⟨stores,inactive,answered⟩ := serves.served.performed quiet
      obtain ⟨n,operating⟩ := Operating.begins ⟨stores,inactive,quiet.network,quiet.votes⟩ quiet.finished
        (serves.led.members ▸ member) move
      have begun : acts ++ [.call i server request] = acts ++ .call i server request :: [] := rfl
      exact .operating begun (by simp) (answered.step move) operating
    | _ => exact begins.elim
  · cases serves.served with
    | quiet quiet => cases (quiet.stuck serves.led stays begins).symm.trans move
    | @operating front i server request back n begun rest answered operating =>
      obtain ⟨m,_,operating'⟩ := operating.step serves.led stays begins undisturbed move
      have begun' : acts ++ [a] = front ++ .call i server request :: (back ++ [a]) := by rw [begun,List.append_assoc,List.cons_append]
      refine .operating begun' ?_ (answered.step move) operating'
      intro b member
      rcases List.mem_append.mp member with old | new
      · exact rest b old
      · exact List.mem_singleton.mp new ▸ begins

/-- What is under way has at most `n` more steps to take. -/
inductive Remains (team : Team) (s : State) (n : Nat) : Prop
  | quiet (quiet : Quiet s) : Remains team s n
  | operating {contents : String → Option String} {request : Request} {i : Nat}
      (operating : Operating team contents request s i n) : Remains team s n

theorem Remains.step {n : Nat} (remains : Remains team s n) (led : Led team s) (sequentially : Sequentially s a)
    (undisturbed : Undisturbed s a) (going : ¬ Begins a) (move : step team.reach a s = some t) : ∃ m < n, Remains team t m := by
  have stays := sequentially.stays
  cases remains with
  | quiet quiet => cases (quiet.stuck led stays going).symm.trans move
  | operating operating =>
    obtain ⟨m,less,operating'⟩ := operating.step led stays going undisturbed move
    exact ⟨m,less,.operating operating'⟩

theorem Remains.goes_on {n : Nat} (remains : Remains team s n) (led : Led team s) (few : FewCalls s) :
    Quiet s ∨ ∃ a u, Sequentially s a ∧ Undisturbed s a ∧ ¬ Begins a ∧ ReplicaGroup.step team.reach a s = some u := by
  cases remains with
  | quiet quiet => exact .inl quiet
  | operating operating =>
    refine (operating.goes_on led few).imp_right ?_
    rintro ⟨a,u,stays,going,undisturbed,move⟩
    refine ⟨a,u,?_,undisturbed,going,move⟩
    cases a with
    | call => exact absurd trivial going
    | _ => exact stays

end

/-- In every run in which the operations come one after the other and no vote is
    disturbed: whenever nothing is under way, every operation so far is answered
    as one map answers it, every server stores that map, no transaction is active
    and the next operation can begin at any server. And from every state of it
    what is under way comes to its end, after boundedly many steps in any order. -/
theorem sequential_service (team : Team) (contents : String → Option String) (s₀ : State) (formed : Formed team contents s₀)
    (acts : List Action) (s : State)
    (run : Run (Restrict (fun s a => Sequentially s a ∧ Undisturbed s a) (Steps (step team.reach))) s₀ acts s) :
    (Quiet s → Stores team (contentsAfter contents acts) s ∧ Inactive team s ∧ Answered contents acts s ∧
      ∀ i server request, server ∈ team.members → s.calls i = none →
        Sequentially s (.call i server request) ∧ (step team.reach (.call i server request) s).isSome = true) ∧
    ∃ bound, ∀ more t,
      Run (Restrict (fun s a => (Sequentially s a ∧ Undisturbed s a) ∧ ¬ Begins a) (Steps (step team.reach))) s more t →
      more.length ≤ bound ∧
        (Quiet t ∨ ∃ a u, Sequentially t a ∧ Undisturbed t a ∧ ¬ Begins a ∧ step team.reach a t = some u) := by
  have serves : Serves team contents acts s := run.invariant (P := fun acts s => Serves team contents acts s) formed.serves
    fun _ _ _ _ _ serves move => serves.step move.1.1 move.1.2 move.2
  refine ⟨fun quiet => ?_,?_⟩
  · obtain ⟨stores,inactive,answered⟩ := serves.served.performed quiet
    refine ⟨stores,inactive,answered,fun i server request member unused => ?_⟩
    refine ⟨⟨quiet,serves.led.members.symm ▸ member⟩,?_⟩
    simp only [step]
    rw [if_pos ⟨unused,serves.numbered server member⟩]
    rfl
  · obtain ⟨bound,remains⟩ : ∃ bound, Remains team s bound := by
      cases serves.served with
      | quiet quiet => exact ⟨0,.quiet quiet⟩
      | operating _ _ _ operating => exact ⟨_,.operating operating⟩
    refine ⟨bound,fun more t later => ?_⟩
    obtain ⟨led,few,n,spent,remains'⟩ := later.invariant
      (P := fun more t => Led team t ∧ FewCalls t ∧ ∃ n, more.length + n ≤ bound ∧ Remains team t n)
      ⟨serves.led,serves.few,bound,by simp,remains⟩ (by
        rintro more s a t _ ⟨led,few,n,spent,remains⟩ ⟨⟨⟨sequentially,undisturbed⟩,going⟩,move⟩
        obtain ⟨m,less,remains'⟩ := remains.step led sequentially undisturbed going move
        refine ⟨led.step sequentially.stays move,few.step move,m,?_,remains'⟩
        rw [List.length_append,List.length_singleton]
        omega)
    exact ⟨by omega,remains'.goes_on led few⟩

/-! Three servers, where each channel leads to the first. -/

/-- Where a run is about so many servers and calls only. -/
def within (servers calls : Nat) : Action → Bool
  | .handle server | .vote server => server < servers
  | .deliver packet => packet.receiver < servers
  | .call i _ _ => i < calls
  | .thread _ fresh => fresh < calls
  | .join _ _ | .depart _ _ => true

/-- What is checked of a state to see that nothing is under way in it. -/
def Rests (servers calls : Nat) (s : State) : Prop :=
  s.network = 0 ∧ (∀ server ∈ List.range servers, s.votes server = none) ∧
    ∀ i ∈ List.range calls, (s.calls i).all (fun call => decide (call.pc = .finished)) = true

instance (servers calls : Nat) : DecidablePred (Rests servers calls) := fun _ => inferInstanceAs (Decidable (_ ∧ _ ∧ _))

theorem votes_step {reach : Nat → Option Nat} {s t : State} {a : Action} (move : step reach a s = some t) {servers calls server : Nat}
    (small : within servers calls a = true) (large : servers ≤ server) : t.votes server = s.votes server := by
  have apart {other : Nat} (less : other < servers) : server ≠ other := by omega
  have handled (s : State) (other : Nat) (outcome : Outcome) (less : other < servers) :
      (s.handled reach other outcome).votes server = s.votes server := by
    unfold State.handled
    dsimp only
    have sent : ((s.setManager other outcome.manager).multicast other outcome.sends).votes = s.votes := by
      unfold State.multicast
      split <;> rfl
    split
    · rw [State.setVote,sent]
      exact Function.update_of_ne (apart less) ..
    · rw [sent]
  cases stepped move with
  | join | depart | call => rfl
  | @handle other => exact handled s other _ (of_decide_eq_true small)
  | @deliver packet => exact handled _ packet.receiver _ (of_decide_eq_true small)
  | @vote other vote =>
    obtain ⟨vote',votes,_⟩ := stepVote_votes (s := s) other vote
    rw [votes]
    exact Function.update_of_ne (apart (of_decide_eq_true small)) ..
  | thread _ moved =>
    cases stepCall_turn moved with
    | sendAppend | sendVoting =>
      simp only [State.setCall,State.multicast]
      split <;> rfl
    | _ => rfl

theorem rests_quiet {reach : Nat → Option Nat} {s : State} {acts : List Action} (servers calls : Nat)
    (run : Run (Steps (step reach)) initial acts s) (small : acts.all (within servers calls) = true) (rests : Rests servers calls s) :
    Quiet s ∧ FewCalls s := by
  obtain ⟨network,votes,done⟩ := rests
  have small (a : Action) (taken : a ∈ acts) : within servers calls a = true := List.all_eq_true.mp small a taken
  have unused (i : Nat) (large : i ≥ calls) : s.calls i = none := by
    refine calls_unmade run rfl fun a taken makes => ?_
    have less := small a taken
    cases a with
    | call made => cases makes; exact absurd (of_decide_eq_true less) (by omega)
    | thread j fresh => cases makes; exact absurd (of_decide_eq_true less) (by omega)
    | _ => exact makes
  refine ⟨⟨network,fun server => ?_,fun i call called => ?_⟩,calls,unused⟩
  · rcases Nat.lt_or_ge server servers with less | large
    · exact votes server (List.mem_range.mpr less)
    · refine run.invariant (P := fun acts s => (∀ a ∈ acts, within servers calls a = true) → s.votes server = none)
        (fun _ => rfl) ?_ small
      intro acts s a t _ ih move small
      rw [votes_step move (small a (by simp)) large]
      exact ih fun b earlier => small b (List.mem_append_left _ earlier)
  · rcases Nat.lt_or_ge i calls with less | large
    · simpa [called] using done i (List.mem_range.mpr less)
    · cases (unused i large).symm.trans called

def trio : Team where
  members := [0,1,2]
  leader := 0
  reach := fun _ => some 0
  nodup := by decide
  inside := by decide
  several := by decide
  reaches := by decide

/-- The servers join and are told who leads, and the leader takes a write. -/
def gathering : List Action :=
  [Action.join (serverName 1) ['h'],.handle 0,
   .join (serverName 2) ['h'],.handle 0,.handle 1,.deliver ⟨0,.whoIsLeader⟩,.deliver ⟨1,.whoIsLeader⟩,
   .deliver ⟨0,.newLeader (serverName 1)⟩,.deliver ⟨1,.newLeader (serverName 1)⟩,
   .join (serverName 3) ['h'],.handle 0,.handle 1,.handle 2,
   .deliver ⟨0,.whoIsLeader⟩,.deliver ⟨1,.whoIsLeader⟩,.deliver ⟨2,.whoIsLeader⟩,
   .deliver ⟨0,.newLeader (serverName 1)⟩,.deliver ⟨1,.newLeader (serverName 1)⟩,.deliver ⟨2,.newLeader (serverName 1)⟩,
   .call 0 0 (.write "k" "a")] ++ List.replicate 5 (Action.thread 0 0) ++
  [Action.deliver ⟨0,.appendData "k" "a"⟩,.deliver ⟨1,.appendData "k" "a"⟩,.deliver ⟨2,.appendData "k" "a"⟩]

def gathered : State := endOf (step trio.reach) initial gathering

theorem gathered_reached : Run (Steps (step trio.reach)) initial gathering gathered := run_endOf _ _ _ (by decide +kernel)

def storesA : String → Option String := Function.update (fun _ => none) "k" (some "a")

theorem gathered_formed : Formed trio storesA gathered := by
  obtain ⟨quiet,few⟩ := rests_quiet 3 1 gathered_reached (by decide) (by decide +kernel)
  refine ⟨⟨by decide +kernel,by decide +kernel,by decide +kernel,by decide +kernel,by decide +kernel,by decide +kernel⟩,
    by decide +kernel,few,quiet,?_,?_⟩
  · intro member inside
    have inside : member ∈ [0,1,2] := inside
    simp only [List.mem_cons,List.not_mem_nil,or_false] at inside
    rcases inside with rfl | rfl | rfl <;> rfl
  · intro member inside transactionId
    have inside : member ∈ [0,1,2] := inside
    simp only [List.mem_cons,List.not_mem_nil,or_false] at inside
    rcases inside with rfl | rfl | rfl <;> rfl

/-- An operation that begins where nothing is under way, and its steps found by
    executing them. -/
theorem run_operation (reach : Nat → Option Nat) (allowed : State → Action → Prop) [∀ s, DecidablePred (allowed s)] {s : State}
    (quiet : Quiet s) (i server : Nat) (request : Request) (member : server ∈ s.members)
    (begins : allowed s (.call i server request)) (rest : List Action)
    (done : ((step reach (.call i server request) s).bind fun t =>
      exec (step reach) (fun s a => decide (Stays a ∧ ¬ Begins a ∧ allowed s a)) t rest).isSome = true) :
    Run (Restrict (fun s a => Sequentially s a ∧ allowed s a) (Steps (step reach))) s (.call i server request :: rest)
      (endOf (step reach) s (.call i server request :: rest)) := by
  obtain ⟨u,executed⟩ := Option.isSome_iff_exists.mp done
  obtain ⟨t,first,later⟩ := Option.bind_eq_some_iff.mp executed
  have going : Run (Restrict (fun s a => Sequentially s a ∧ allowed s a) (Steps (step reach))) t rest u := by
    refine (run_of_exec rest t u later).mono fun s a _ move => ?_
    obtain ⟨stays,going,allows⟩ := of_decide_eq_true move.1
    refine ⟨⟨?_,allows⟩,move.2⟩
    cases a with
    | call => exact absurd trivial going
    | _ => exact stays
  have sequentially : Sequentially s (.call i server request) := ⟨quiet,member⟩
  have opens : Restrict (fun s a => Sequentially s a ∧ allowed s a) (Steps (step reach)) s (.call i server request) t :=
    ⟨⟨sequentially,begins⟩,first⟩
  have whole := (Run.single opens).append going
  have same := whole.unrestrict.endOf_eq
  rw [List.singleton_append] at whole same
  rw [same]
  exact whole

/-- A write at the second server, -/
def writing : List Action :=
  List.replicate 2 (Action.thread 1 2) ++ List.replicate 5 (Action.thread 2 0) ++
    [Action.deliver ⟨0,.appendData "k" "b"⟩,.thread 1 0,.deliver ⟨2,.appendData "k" "b"⟩,.deliver ⟨1,.appendData "k" "b"⟩]

/-- and a read at the third. -/
def reading : List Action :=
  List.replicate 2 (Action.thread 3 4) ++ List.replicate 5 (Action.thread 4 0) ++
    [Action.deliver ⟨2,.consensusVoting 0 "k" "b"⟩,.deliver ⟨1,.consensusVoting 0 "k" "b"⟩] ++ List.replicate 7 (Action.vote 1) ++
    List.replicate 9 (Action.vote 2) ++ List.replicate 4 (Action.thread 4 0) ++ [Action.thread 3 0,.deliver ⟨0,.consensusVoting 0 "k" "b"⟩]

def written : State := endOf (step trio.reach) gathered (.call 1 1 (.write "k" "b") :: writing)

def consulted : State := endOf (step trio.reach) written (.call 3 2 (.read "k") :: reading)

theorem written_run : Run (Restrict (fun s a => Sequentially s a ∧ Undisturbed s a) (Steps (step trio.reach))) gathered
    (.call 1 1 (.write "k" "b") :: writing) written :=
  run_operation trio.reach Undisturbed gathered_formed.quiet 1 1 (.write "k" "b") (by decide +kernel) trivial writing (by decide +kernel)

theorem written_quiet : Quiet written :=
  (rests_quiet 3 3 (gathered_reached.append written_run.unrestrict) (by decide) (by decide +kernel)).1

theorem consulted_run : Run (Restrict (fun s a => Sequentially s a ∧ Undisturbed s a) (Steps (step trio.reach))) written
    (.call 3 2 (.read "k") :: reading) consulted :=
  run_operation trio.reach Undisturbed written_quiet 3 2 (.read "k") (by decide +kernel) trivial reading (by decide +kernel)

theorem sequential_service_trio : ∃ call, consulted.calls 3 = some call ∧ call.answer = some (.data "k" "b") ∧
    Inactive trio consulted := by
  have run := written_run.append consulted_run
  obtain ⟨quiet,_⟩ := rests_quiet 3 5 (gathered_reached.append run.unrestrict) (by decide) (by decide +kernel)
  obtain ⟨_,inactive,answered,_⟩ := (sequential_service trio storesA gathered gathered_formed _ consulted run).1 quiet
  obtain ⟨call,called,_,answer⟩ := answered (.call 1 1 (.write "k" "b") :: writing) 3 2 (.read "k") reading rfl
  exact ⟨call,called,answer,inactive⟩

/-- A read at the leader, whose first vote puts the transaction once more after
    the result has been taken. -/
def outrun : List Action :=
  List.replicate 5 (Action.thread 1 0) ++
    [Action.deliver ⟨0,.consensusVoting 0 "k" "a"⟩,.deliver ⟨1,.consensusVoting 0 "k" "a"⟩,.deliver ⟨2,.consensusVoting 0 "k" "a"⟩] ++
    List.replicate 5 (Action.vote 1) ++ List.replicate 9 (Action.vote 2) ++ List.replicate 4 (Action.thread 1 0) ++
    List.replicate 2 (Action.vote 1)

def lingering : State := endOf (step trio.reach) gathered (.call 1 0 (.read "k") :: outrun)

/-- The transaction stays active. -/
theorem sequential_service_fails :
    ¬ ∀ (team : Team) (contents : String → Option String) (s₀ : State),
      (∃ before, Run (Steps (step team.reach)) initial before s₀) → Formed team contents s₀ →
      ∀ (acts : List Action) (s : State), Run (Restrict Sequentially (Steps (step team.reach))) s₀ acts s →
      Quiet s → Stores team (contentsAfter contents acts) s ∧ Inactive team s ∧ Answered contents acts s := by
  intro holds
  have run := run_operation trio.reach (fun _ _ => True) gathered_formed.quiet 1 0 (.read "k") (by decide +kernel) trivial outrun
    (by decide +kernel)
  obtain ⟨quiet,_⟩ := rests_quiet 3 2 (gathered_reached.append run.unrestrict) (by decide) (by decide +kernel)
  obtain ⟨_,inactive,_⟩ := holds trio storesA gathered ⟨_,gathered_reached⟩ gathered_formed _ lingering
    (run.mono fun _ _ _ move => ⟨move.1.1,move.2⟩) quiet
  have gone := inactive 0 (by decide) 0
  have active : (lingering.managers 0).activeVoting 0 = some 1 := by decide +kernel
  cases gone.symm.trans active

end CdPraticas.Service
