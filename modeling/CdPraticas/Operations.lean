import CdPraticas.Serial

/-!
# One operation at a time

The map that the cluster stands for, and an operation run to quiescence: a call
comes in, nothing else is going on, and all the messages it causes are delivered
while the caller waits.
-/

namespace CdPraticas.Operations
open Groups Store Messages Handlers Calls Cluster Keys Runs Rounds

/-! ### What the cluster is for -/

/-- A map from keys to values. -/
abbrev Contents := String → Option String

/-- The answer to a request and the map after it. A key without a value reads as
    the empty string. -/
def Contents.perform (contents : Contents) : Request → Answer × Contents
  | .read key => (.data key ((contents key).getD ""),contents)
  | .write dataDto => (.void,Function.update contents dataDto.key (some dataDto.data))

/-- The answers to a list of requests and the map after them. -/
def Contents.performAll (contents : Contents) : List Request → List Answer × Contents
  | [] => ([],contents)
  | request :: rest =>
    let (answer,after) := contents.perform request
    let (answers,final) := after.performAll rest
    (answer :: answers,final)

theorem performAll_append (contents : Contents) (first second : List Request) :
    contents.performAll (first ++ second) =
      ((contents.performAll first).1 ++ ((contents.performAll first).2.performAll second).1,
        ((contents.performAll first).2.performAll second).2) := by
  induction first generalizing contents with
  | nil => rfl
  | cons request rest ih =>
    simp only [List.cons_append,Contents.performAll]
    rw [ih]

/-! ### Databases that hold a map -/

/-- All stored copies of a key are valid and have its value, and a value has a copy. -/
structure Holds (group : Group) (rows : SpreadGroup → Option DataEntity) (value : Option String) : Prop where
  copies : ∀ server ∈ group.servers, ∀ entity, rows server = some entity → entity.Valid ∧ value = some entity.data
  stored : ∀ data, value = some data → ∃ server ∈ group.servers, ∃ entity, rows server = some entity

/-- Nothing is going on: every call has returned, nothing is in flight or
    registered, and startup is over. -/
structure Settled (group : Group) (s : State) : Prop where
  members : s.members = group.members
  participants : ∀ server ∈ group.servers, (s.servers server).numberOfParticipants = group.members.length
  startedUp : ∀ server ∈ group.servers, group.startingUp server = false ∧ (s.servers server).waitStartupDataUpdate = false
  returned : ∀ i call, s.calls i = some call → call.pc.Done
  noMessages : s.network = 0
  noReaders : ∀ server key, (s.servers server).waitingData key = none
  noWriters : ∀ server key, (s.servers server).wantToWriteData key = none

/-- A settled cluster that holds the map. -/
structure Represents (group : Group) (contents : Contents) (s : State) : Prop where
  settled : Settled group s
  holds : ∀ key, Holds group (fun server => (s.servers server).database.findById key) (contents key)

/-! ### An operation and its run -/

/-- Nobody answers the read `call`: no answer has come, none is on its way, and
    none of the servers that are still to be asked has a valid copy. -/
def NobodyAnswers (v : KeyView) (call : Call) : Prop :=
  call.responseReceived = false ∧ ∀ packet ∈ v.network,
    match packet.body with
    | .regular (.askDataResponse _) => False
    | .regular (.askData _) => ∀ entity ∈ (v.held packet.receiver).row, ¬ entity.Valid
    | _ => True

/-- The steps while call `i` is alone: its wait expires only if it is a read that
    nobody answers, no send fails, and an answer to a read is delivered once its
    callback is registered. -/
def Attended (i : Nat) (v : KeyView) : Action → Prop
  | .thread j choice => j = i ∧ (choice = .go ∨ choice = .expires ∧
      ∃ call ∈ v.calls i, call.request = .read call.request.key ∧ NobodyAnswers v call)
  | .deliver packet sent => sent = true ∧
      ((∃ dataDto, packet.body = .regular (.askDataResponse dataDto)) → ∀ call ∈ v.calls i, call.pc ≠ .putWaiting)
  | _ => False

/-- `request` has come in at `server` as call `i`, and `t` is reached since. -/
def Underway (settings : Settings) (group : Group) (s : State) (i : Nat) (server : SpreadGroup) (request : Request)
    (t : State) : Prop :=
  server ∈ group.servers ∧ ∃ s₁ acts, step settings (.call i server request) s = some s₁ ∧
    Run (group.Steps settings request.key (Attended i)) s₁ acts t

/-- At `t` it has run to quiescence. -/
structure Performed (settings : Settings) (group : Group) (s : State) (i : Nat) (server : SpreadGroup) (request : Request)
    (t : State) : Prop where
  underway : Underway settings group s i server request t
  delivered : t.network = 0
  returned : ∃ call, t.calls i = some call ∧ call.pc.Done

/-! ### Calls that have returned can be forgotten -/

section
variable {settings : Settings} {group : Group} {s t : State} {old : Nat → Option Call}

def forget (old : Nat → Option Call) (s : State) : State :=
  { s with calls := fun i => if (old i).isSome then none else s.calls i }

/-- The old calls are there and have returned. -/
def Returned (old : Nat → Option Call) (s : State) : Prop :=
  ∀ i, (old i).isSome → ∃ call, s.calls i = some call ∧ call.pc.Done

theorem forget_same {i : Nat} (new : (old i).isSome = false) : (forget old s).calls i = s.calls i := by
  simp [forget,new]

/-- A change of a call that is not old. -/
theorem forget_update {i : Nat} (new : (old i).isSome = false) (call : Call) :
    Function.update (forget old s).calls i (some call) =
      fun j => if (old j).isSome then none else Function.update s.calls i (some call) j := by
  funext j
  by_cases same : j = i
  · subst same
    simp [new]
  · simp [forget,same]

theorem next_done {participants : Int} {stored : Option DataEntity} {call : Call} {choice : Choice} (done : call.pc.Done) :
    next settings participants stored call choice = none := by
  cases result : next settings participants stored call choice with
  | none => rfl
  | some moved => exact absurd done (next_move result).not_done

/-- A call that has returned takes no part in a step. -/
theorem forget_step {a : Action} (returned : Returned old s) (permitted : group.Permits a)
    (move : step settings a s = some t) : step settings a (forget old s) = some (forget old t) ∧ Returned old t := by
  cases a with
  | view _ | boot _ => cases permitted
  | call i server request =>
    obtain ⟨fresh,plain,rfl⟩ := step_started move
    have new : (old i).isSome = false := by
      by_contra isOld
      obtain ⟨call,found,_⟩ := returned i (Bool.not_eq_false _ ▸ isOld)
      rw [fresh] at found
      cases found
    refine ⟨?_,fun j isOld => ?_⟩
    · simp only [step]
      rw [if_pos ⟨(forget_same new).trans fresh,plain⟩,forget_update new]
      rfl
    · have different : j ≠ i := by
        rintro rfl
        rw [new] at isOld
        cases isOld
      simpa [different] using returned j isOld
  | thread i choice =>
    obtain ⟨call,effect,pc,found,nexts,rfl⟩ := step_moved move
    have new : (old i).isSome = false := by
      by_contra isOld
      obtain ⟨call',found',done⟩ := returned i (Bool.not_eq_false _ ▸ isOld)
      rw [found] at found'
      cases found'
      rw [next_done done] at nexts
      cases nexts
    refine ⟨?_,fun j isOld => ?_⟩
    · have same : (forget old s).calls i = some call := (forget_same new).trans found
      have sameNext : next settings ((forget old s).servers call.server).numberOfParticipants
          (((forget old s).servers call.server).database.findById call.request.key) call choice = some (effect,pc) := nexts
      simp only [step,same,sameNext]
      rw [forget_update new]
      rfl
    · have different : j ≠ i := by
        rintro rfl
        rw [new] at isOld
        cases isOld
      simpa [different] using returned j isOld
  | deliver packet sent =>
    cases service : isService packet.receiver with
    | true =>
      obtain ⟨flying,rfl⟩ := step_service service move
      refine ⟨?_,returned⟩
      simp only [step]
      rw [if_pos (show packet ∈ (forget old s).network from flying),if_pos service]
      rfl
    | false =>
      obtain ⟨flying,outcome,rfl,rfl⟩ := step_handled service move
      refine ⟨?_,fun j isOld => ?_⟩
      · simp only [step,service]
        rw [if_pos (show packet ∈ (forget old s).network from flying)]
        simp only [Bool.false_eq_true,if_false,Option.some.injEq]
        unfold forget
        congr 1
        funext j
        by_cases isOld : (old j).isSome = true
        · simp [isOld]
        · simp [isOld]
      · obtain ⟨call,found,done⟩ := returned j isOld
        exact ⟨_,congrArg (Option.map _) found,by rw [notify_pc]; exact done⟩

/-- A settled cluster without its old calls is quiet. -/
theorem Settled.quiet (settled : Settled group s) : Quiet group (forget s.calls s) := by
  refine ⟨settled.members,settled.participants,?_,fun i => ?_,settled.noMessages,settled.noReaders,settled.noWriters⟩
  · intro server member
    obtain ⟨known,flag⟩ := settled.startedUp server member
    exact flag.trans known.symm
  · cases found : s.calls i <;> simp [forget,found]

theorem Settled.returned_old (settled : Settled group s) : Returned s.calls s := by
  intro i isOld
  obtain ⟨call,found⟩ := Option.isSome_iff_exists.mp isOld
  exact ⟨call,found,settled.returned i call found⟩

theorem attended_forget {key : String} {i : Nat} {a : Action} (new : (old i).isSome = false)
    (attended : Attended i (view key s) a) : Attended i (view key (forget old s)) a := by
  have same : (view key (forget old s)).calls i = (view key s).calls i := by simp [view,forget,new]
  cases a with
  | thread j choice =>
    obtain ⟨rfl,choices⟩ := attended
    refine ⟨rfl,choices.imp_right ?_⟩
    rintro ⟨expires,call,found,read,nobody⟩
    exact ⟨expires,call,by rw [same]; exact found,read,nobody⟩
  | deliver packet sent =>
    refine ⟨attended.1,fun answer call found => attended.2 answer call ?_⟩
    rwa [same] at found
  | _ => exact attended

theorem Underway.next {i : Nat} {server : SpreadGroup} {request : Request} {u : State} {a : Action}
    (underway : Underway settings group s i server request t)
    (move : group.Steps settings request.key (Attended i) t a u) : Underway settings group s i server request u := by
  obtain ⟨member,s₁,acts,called,run⟩ := underway
  exact ⟨member,s₁,_,called,run.next move⟩

/-- An operation does not depend on the calls that have returned. -/
theorem Underway.forget (settled : Settled group s) {i : Nat} {server : SpreadGroup} {request : Request}
    (underway : Underway settings group s i server request t) :
    Underway settings group (forget s.calls s) i server request (forget s.calls t) ∧ Returned s.calls t ∧
      (s.calls i).isSome = false := by
  obtain ⟨member,s₁,acts,called,run⟩ := underway
  have new : (s.calls i).isSome = false := by
    simp [(step_started called).1]
  have permitted : group.Permits (.call i server request) := member
  obtain ⟨called',returned₁⟩ := forget_step settled.returned_old permitted called
  have simulated : Run (group.Steps settings request.key (Attended i)) (Operations.forget s.calls s₁) acts
      (Operations.forget s.calls t) ∧ Returned s.calls t := by
    refine run.simulate (Operations.forget s.calls) returned₁ (fun _ _ _ returned move => ?_) fun u a w returned move => ?_
    · exact (forget_step returned move.1.1 move.2).2
    · exact ⟨⟨move.1.1,attended_forget new move.1.2⟩,(forget_step returned move.1.1 move.2).1⟩
  exact ⟨⟨member,_,acts,called',simulated.1⟩,simulated.2,new⟩

theorem Performed.forget (settled : Settled group s) {i : Nat} {server : SpreadGroup} {request : Request}
    (performed : Performed settings group s i server request t) :
    Performed settings group (forget s.calls s) i server request (forget s.calls t) ∧ Returned s.calls t := by
  obtain ⟨underway,returned,new⟩ := performed.underway.forget settled
  obtain ⟨call,found,done⟩ := performed.returned
  exact ⟨⟨underway,performed.delivered,call,(forget_same new).trans found,done⟩,returned⟩

end

/-! ### Answers -/

section
variable {settings : Settings} {group : Group} {key : String} {v v' : KeyView} {s t : State}

/-- A call at a server that has started up is answered at its end. -/
def Answered (group : Group) (v : KeyView) : Prop :=
  ∀ i call, v.calls i = some call → group.startingUp call.server = false → call.answer = call.pc.answer? call.request

theorem answer_running {pc : Pc} {request : Request} (running : ¬ pc.Done) : pc.answer? request = none := by
  cases pc <;> first | rfl | exact absurd trivial running

theorem Answered.step {a : Action} (answered : Answered group v) (step : KeyStep settings group key v a v') :
    Answered group v' := by
  intro i call found startedUp
  cases step with
  | elsewhere _ => exact answered i call found startedUp
  | @call _ server request _ _ _ =>
    rcases started_cases found with ⟨rfl,rfl⟩ | ⟨_,found⟩
    · rw [start_server] at startedUp
      rw [startedUp]
      cases request <;> rfl
    · exact answered i call found startedUp
  | @thread _ choice running effect pc was move =>
    rcases moved_cases found with ⟨rfl,rfl⟩ | ⟨_,found⟩
    · have before := answered i running was startedUp
      rw [answer_running move.not_done] at before
      simp [Call.goto,before]
    · exact answered i call found startedUp
  | service _ _ => exact answered i call found startedUp
  | deliver _ _ _ _ =>
    obtain ⟨before,was,rfl⟩ := handled_cases found
    rw [notify_answer,notify_pc,notify_request]
    rw [notify_server] at startedUp
    exact answered i before was startedUp

/-! ### An operation, seen from a key -/

/-- Nothing about the key is going on. -/
structure Blank (v : KeyView) : Prop where
  calls : ∀ i, v.calls i = none
  network : v.network = 0
  waiting : ∀ server, (v.held server).waiting = none
  slot : ∀ server, (v.held server).slot = none

theorem quiet_blank (quiet : Quiet group s) (key : String) : Blank (view key s) :=
  ⟨fun i => by simp [view,quiet.noCalls],by simp [view,quiet.noMessages],fun server => quiet.noReaders server key,
    fun server => quiet.noWriters server key⟩

/-- Seen from its key, an operation is a call and the run that it causes. -/
theorem underway_view {i : Nat} {server : SpreadGroup} {request : Request} (quiet : Quiet group s)
    (underway : Underway settings group s i server request t) (about : request.key = key) :
    (∃ acts, Run (KeySteps settings group key (Attended i))
        ((view key s).started i (.start (group.startingUp server) server request)) acts (view key t)) ∧
      Fixed group t ∧ ∃ call, (view key t).calls i = some call ∧ call.request = request := by
  subst about
  obtain ⟨member,s₁,acts,called,run⟩ := underway
  have permitted : group.Permits (.call i server request) := member
  have first : KeyStep settings group request.key (view request.key s) (.call i server request) (view request.key s₁) :=
    view_step quiet.fixed permitted called
  have fixed₁ := quiet.fixed.step permitted called
  obtain ⟨keyRun,fixed⟩ := view_run fixed₁ run
  generalize view request.key s₁ = v₁ at first keyRun
  cases first with
  | elsewhere away => exact absurd rfl away
  | call fresh _ _ =>
    refine ⟨⟨acts,keyRun⟩,fixed,?_⟩
    refine keyRun.always (P := fun v => ∃ call, v.calls i = some call ∧ call.request = request)
      ⟨_,started_self ..,by simp⟩ ?_
    rintro v a v' ⟨before,was,same⟩ ⟨sound,_,step⟩
    obtain ⟨after,now,later⟩ := step_later sound step was
    exact ⟨after,now,later.request.trans same⟩

theorem performed_view {i : Nat} {server : SpreadGroup} {request : Request} (quiet : Quiet group s)
    (performed : Performed settings group s i server request t) (about : request.key = key) :
    ∃ acts, Run (KeySteps settings group key (Attended i))
        ((view key s).started i (.start (group.startingUp server) server request)) acts (view key t) ∧
      Fixed group t ∧ (view key t).network = 0 ∧ ∃ call, (view key t).calls i = some call ∧ call.pc.Done := by
  obtain ⟨⟨acts,run⟩,fixed,call,found,_⟩ := underway_view quiet performed.underway about
  obtain ⟨call',found',done⟩ := performed.returned
  have same := (view_calls.mp found).1
  rw [found'] at same
  cases same
  exact ⟨acts,run,fixed,by simp [view,performed.delivered],_,found,done⟩

/-- The other keys are left alone. -/
theorem underway_elsewhere {i : Nat} {server : SpreadGroup} {request : Request} (quiet : Quiet group s)
    (underway : Underway settings group s i server request t) {other : String} (different : other ≠ request.key) :
    view other t = view other s := by
  obtain ⟨member,s₁,acts,called,run⟩ := underway
  have permitted : group.Permits (.call i server request) := member
  have blank := quiet_blank quiet other
  have first : KeyStep settings group other (view other s) (.call i server request) (view other s₁) :=
    view_step quiet.fixed permitted called
  have same₁ : view other s₁ = view other s := by
    generalize view other s₁ = v₁ at first
    cases first with
    | elsewhere _ => rfl
    | call _ _ about => exact absurd about.symm different
  have loose : Run (group.Steps settings other fun _ a => ∀ j g r, a ≠ .call j g r) s₁ acts t := by
    refine run.mono fun u a w move => ⟨⟨move.1.1,?_⟩,move.2⟩
    rintro j g r rfl
    exact move.1.2
  obtain ⟨keyRun,_⟩ := view_run (quiet.fixed.step permitted called) loose
  refine keyRun.always (P := fun v => v = view other s) same₁ ?_
  rintro v a v' rfl ⟨_,noCall,step⟩
  cases step with
  | elsewhere _ => rfl
  | call _ _ _ => exact absurd rfl (noCall _ _ _)
  | thread found _ => rw [blank.calls] at found; cases found
  | service flying _ | deliver flying _ _ _ => rw [blank.network] at flying; simp at flying

theorem Answered.of_started (blank : Blank v) {i : Nat} {server : SpreadGroup} {request : Request} :
    Answered group (v.started i (.start (group.startingUp server) server request)) := by
  intro j other found up
  rcases started_cases found with ⟨_,rfl⟩ | ⟨_,found⟩
  · rw [start_server] at up
    rw [up]
    cases request <;> rfl
  · rw [blank.calls] at found
    cases found

/-- What an operation on the key leaves: the answer, the value and nothing else. -/
structure Leaves (group : Group) (v : KeyView) (i : Nat) (answer : Answer) (value : Option String) : Prop where
  answered : ∃ call, v.calls i = some call ∧ call.answer = some answer
  returned : ∀ j call, v.calls j = some call → j = i ∧ call.pc.Done
  holds : Holds group (fun server => (v.held server).row) value
  waiting : ∀ server, (v.held server).waiting = none
  slot : ∀ server, (v.held server).slot = none

end

end CdPraticas.Operations
