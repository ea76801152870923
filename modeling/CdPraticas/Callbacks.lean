import CdPraticas.Keys

/-!
# Whose callback is registered

A client call registers its own callback, under its own key and at its own
server. So a callback that a message invokes is that of a call of this server
about the key of the message, in every run and whatever happens to the group.
-/

namespace CdPraticas.Callbacks
open Runs Groups Store Messages Handlers Calls Cluster Keys

/-- No client call is under way and no callback registered. -/
structure Idle (s : State) : Prop where
  calls : ∀ i, s.calls i = none
  readers : ∀ server key, (s.servers server).waitingData key = none
  writers : ∀ server key, (s.servers server).wantToWriteData key = none

/-- The write has not registered its callback yet. -/
def Unregistered : Pc → Prop
  | .writeData | .saveAlone | .putWantToWrite => True
  | _ => False

/-- A callback of the call `i` is registered. -/
def Registered (held : Fields) (i : Nat) : Prop :=
  held.waiting = some i ∨ ∃ wanted, held.slot = some wanted ∧ wanted.callback = i

/-- Every callback that is registered is one of a call of its key and server, and
    no write has heard of responses before it registered. -/
structure Belonging (s : State) : Prop where
  registered : ∀ server key i, Registered (fields (s.servers server) key) i →
    ∃ call, s.calls i = some call ∧ call.server = server ∧ call.request.key = key ∧ ¬ Unregistered call.pc
  unheard : ∀ i call, s.calls i = some call → Unregistered call.pc → call.responseReceived = false

theorem Idle.belonging {s : State} (idle : Idle s) : Belonging s where
  registered server key i here := by
    rcases here with reading | ⟨_,writing,_⟩
    · cases (idle.readers server key).symm.trans reading
    · cases (idle.writers server key).symm.trans writing
  unheard i call here := by cases (idle.calls i).symm.trans here

/-- The call of a callback. -/
def Callback.call : Callback → Nat
  | .dataReceived call _ | .allResponsesReceived call | .conflict call _ => call

/-- A callback of another call does nothing to a call. -/
theorem invoke_other {i : Nat} {callback : Callback} (other : Callback.call callback ≠ i) (call : Call) :
    invoke i call callback = call := by
  cases callback <;> exact if_neg other

theorem invoked_uncalled {callbacks : List Callback} {i : Nat} (other : ∀ callback ∈ callbacks, Callback.call callback ≠ i)
    (call : Call) : callbacks.foldl (invoke i) call = call := by
  induction callbacks generalizing call with
  | nil => rfl
  | cons callback rest ih =>
    rw [List.foldl_cons,invoke_other (other callback List.mem_cons_self)]
    exact ih (fun callback inside => other callback (List.mem_cons_of_mem _ inside)) call

theorem notify_uncalled {callbacks : List Callback} {i : Nat} (other : ∀ callback ∈ callbacks, Callback.call callback ≠ i)
    (sends : List Send) (packet : Packet) (sent : Bool) (call : Call) :
    (notify sends callbacks packet sent i call).responseReceived = call.responseReceived := by
  rw [(notify_references ..).1,invoked_uncalled other]

/-! ### What a handler does to the registered callbacks -/

section
variable (settings : Settings) (self : LeaderManager) (me sender : SpreadGroup)

/-- A handler of a message about a key invokes only what is registered under it. -/
theorem Handled.invokes {participants : Int} {held held' : Fields} {message : Message} {sends : List Send}
    {callbacks : List Callback} (handled : Handled settings participants me sender held message held' sends callbacks) :
    ∀ callback ∈ callbacks, Registered held (Callback.call callback) := by
  intro callback invoked
  cases handled with
  | received waiting =>
    rw [List.mem_singleton.mp invoked]
    exact .inl waiting
  | refused _ writing | disturbed _ writing =>
    rw [List.mem_singleton.mp invoked]
    exact .inr ⟨_,writing,rfl⟩
  | counted writing =>
    split_ifs at invoked
    · rw [List.mem_singleton.mp invoked]
      exact .inr ⟨_,writing,rfl⟩
    · cases invoked
  | _ => cases invoked

/-- A view or a message of a startup leaves the callbacks alone. -/
theorem keyless_handler {body : Body} (keyless : body.key? = none) :
    (messageReceived settings self me sender body).callbacks = [] ∧
      (messageReceived settings self me sender body).manager.waitingData = self.waitingData ∧
      (messageReceived settings self me sender body).manager.wantToWriteData = self.wantToWriteData := by
  cases body with
  | membership info =>
    simp only [messageReceived,checkStartup]
    repeat' split
    all_goals exact ⟨rfl,rfl,rfl⟩
  | regular message =>
    cases message with
    | startupRequestUpdate _ | startupResponseUpdate _ => exact ⟨rfl,rfl,rfl⟩
    | _ => cases keyless

/-- What is registered after a handler was registered before, -/
theorem handler_registered (body : Body) {key : String} {i : Nat}
    (here : Registered (fields (messageReceived settings self me sender body).manager key) i) :
    Registered (fields self key) i := by
  cases about : body.key? with
  | none =>
    obtain ⟨_,readers,writers⟩ := keyless_handler settings self me sender about
    simp only [Registered,fields,readers,writers] at here
    exact here
  | some other =>
    cases body with
    | membership => cases about
    | regular message =>
      by_cases same : key = other
      · subst same
        obtain ⟨_,readers,writers⟩ := (messageReceived_handled settings self me sender about).fields_kept
        rcases here with reading | ⟨wanted,writing,rfl⟩
        · exact .inl (readers i reading)
        · obtain ⟨before,writing,same⟩ := writers wanted writing
          exact .inr ⟨before,writing,same.symm⟩
      · rwa [messageReceived_elsewhere settings self me sender about same] at here

/-- and so is what it invokes. -/
theorem handler_invokes (body : Body) :
    ∀ callback ∈ (messageReceived settings self me sender body).callbacks,
      ∃ key, Registered (fields self key) (Callback.call callback) := by
  intro callback invoked
  cases about : body.key? with
  | none =>
    rw [(keyless_handler settings self me sender about).1] at invoked
    cases invoked
  | some key =>
    cases body with
    | membership => cases about
    | regular message =>
      exact ⟨key,Handled.invokes settings me sender (messageReceived_handled settings self me sender about) callback invoked⟩

end

/-! ### Callbacks belong to calls in every run -/

section
variable {settings : Settings} {participants : Int} {stored : Option DataEntity} {call : Call} {choice : Choice}
  {effect : Effect} {pc : Pc}

/-- Only a write that has just come in has not registered yet. -/
theorem Move.unregistered (move : Move settings participants stored call choice effect pc) (later : Unregistered pc) :
    Unregistered call.pc := by
  cases move with
  | isAlone _ here _ | notAlone _ here _ => rw [here]; trivial
  | _ => cases later

/-- A call that registers has the key, and is past that point. -/
theorem Move.registers {key : String} (move : Move settings participants stored call choice effect pc)
    (puts : effect = .putWaiting key ∨ effect = .putWantToWrite key) : call.request.key = key ∧ ¬ Unregistered pc := by
  cases move with
  | putWantToWrite write _ | putWaiting write _ =>
    rw [write]
    rcases puts with puts | puts <;> cases puts
    exact ⟨rfl,id⟩
  | _ => rcases puts with puts | puts <;> cases puts

/-- A step of a call registers nothing but the call. -/
theorem apply_registered {self : LeaderManager} {i j : Nat} {key : String}
    (here : Registered (fields (effect.apply i self) key) j) :
    Registered (fields self key) j ∨ j = i ∧ (effect = .putWaiting key ∨ effect = .putWantToWrite key) := by
  cases effect with
  | putWantToWrite put | putWaiting put | removeWantToWrite put | removeWaiting put =>
    by_cases same : key = put
    · subst same
      rw [fields_apply i self (.inr rfl)] at here
      rcases here with reading | ⟨wanted,writing,rfl⟩
      · rcases access_waiting reading with reading | ⟨own,_,puts⟩
        · exact .inl (.inl reading)
        · cases puts <;> exact .inr ⟨own,.inl rfl⟩
      · rcases access_slot writing with writing | ⟨rfl,_,puts⟩
        · exact .inl (.inr ⟨wanted,writing,rfl⟩)
        · cases puts <;> exact .inr ⟨rfl,.inr rfl⟩
    · rw [fields_apply_elsewhere i self (.inr rfl) same] at here
      exact .inl here
  | _ => exact .inl here

end

section
variable {settings : Settings} {s t : State}

theorem Belonging.of_booted (belonging : Belonging s) {server : SpreadGroup}
    (move : Cluster.step settings (.boot server) s = some t) : Belonging t := by
  cases move
  constructor
  · intro other key i here
    by_cases same : other = server
    · subst same
      simp only [Function.update_self] at here
      rcases here with reading | ⟨_,writing,_⟩
      · cases reading
      · cases writing
    · simp only [Function.update_of_ne same] at here
      obtain ⟨call,found,own,rest⟩ := belonging.registered other key i here
      refine ⟨call,?_,own,rest⟩
      show (s.calls i).filter _ = _
      simp [found,own,same]
  · intro i call found
    exact belonging.unheard i call (Option.filter_eq_some_iff.mp found).1

theorem Belonging.of_started (belonging : Belonging s) {i : Nat} {server : SpreadGroup} {request : Request}
    (move : Cluster.step settings (.call i server request) s = some t) : Belonging t := by
  obtain ⟨new,_,rfl⟩ := step_started move
  constructor
  · intro other key j here
    obtain ⟨call,found,rest⟩ := belonging.registered other key j here
    have different : j ≠ i := by
      rintro rfl
      cases new.symm.trans found
    exact ⟨call,by simpa [different] using found,rest⟩
  · intro j call found
    by_cases same : j = i
    · subst same
      cases (Function.update_self ..).symm.trans found
      intro _
      cases request <;> rfl
    · exact belonging.unheard j call ((Function.update_of_ne same ..).symm.trans found)

theorem Belonging.of_moved (belonging : Belonging s) {i : Nat} {choice : Choice}
    (move : Cluster.step settings (.thread i choice) s = some t) : Belonging t := by
  obtain ⟨call,effect,pc,found,moved,rfl⟩ := step_moved move
  have moves := next_move moved
  constructor
  · intro server key j here
    have cases : Registered (fields (s.servers server) key) j ∨ j = i ∧ server = call.server ∧
        (effect = .putWaiting key ∨ effect = .putWantToWrite key) := by
      by_cases same : server = call.server
      · subst same
        simp only [Function.update_self] at here
        exact (apply_registered here).imp_right fun puts => ⟨puts.1,rfl,puts.2⟩
      · simp only [Function.update_of_ne same] at here
        exact .inl here
    by_cases own : j = i
    · subst own
      refine ⟨_,Function.update_self ..,?_⟩
      rcases cases with earlier | ⟨_,rfl,puts⟩
      · obtain ⟨before,there,located,about,past⟩ := belonging.registered server key j earlier
        cases found.symm.trans there
        exact ⟨located,about,fun later => past (Move.unregistered moves later)⟩
      · have registers := Move.registers moves puts
        exact ⟨rfl,registers.1,registers.2⟩
    · rcases cases with earlier | ⟨same,_⟩
      · obtain ⟨before,there,rest⟩ := belonging.registered server key j earlier
        exact ⟨before,(Function.update_of_ne own ..).trans there,rest⟩
      · exact absurd same own
  · intro j after there unregistered
    by_cases own : j = i
    · subst own
      cases (Function.update_self ..).symm.trans there
      exact belonging.unheard j call found (Move.unregistered moves unregistered)
    · exact belonging.unheard j after ((Function.update_of_ne own ..).symm.trans there) unregistered

theorem Belonging.of_handled (belonging : Belonging s) {packet : Packet} {sent : Bool} (server : isService packet.receiver = false)
    (move : Cluster.step settings (.deliver packet sent) s = some t) : Belonging t := by
  obtain ⟨_,outcome,rfl,rfl⟩ := step_handled server move
  have invoked := handler_invokes settings (s.servers packet.receiver) packet.receiver packet.sender packet.body
  constructor
  · intro server key i here
    have earlier : Registered (fields (s.servers server) key) i := by
      by_cases same : server = packet.receiver
      · subst same
        simp only [Function.update_self] at here
        exact handler_registered settings _ _ _ packet.body here
      · simp only [Function.update_of_ne same] at here
        exact here
    obtain ⟨call,found,located,about,past⟩ := belonging.registered server key i earlier
    refine ⟨_,congrArg (Option.map _) found,?_,?_,?_⟩
    · rwa [notify_server]
    · rwa [notify_request]
    · rwa [notify_pc]
  · intro i after there unregistered
    obtain ⟨call,found,rfl⟩ := Option.map_eq_some_iff.mp there
    rw [notify_pc] at unregistered
    rw [notify_uncalled ?_,belonging.unheard i call found unregistered]
    -- Only a call past that point has a callback registered.
    rintro callback inside rfl
    obtain ⟨key,registered⟩ := invoked callback inside
    obtain ⟨call',found',_,_,past⟩ := belonging.registered packet.receiver key _ registered
    cases found.symm.trans found'
    exact past unregistered

theorem Belonging.step {a : Action} (belonging : Belonging s) (move : Cluster.step settings a s = some t) : Belonging t := by
  cases a with
  | view info =>
    cases move
    exact ⟨belonging.registered,belonging.unheard⟩
  | boot server => exact belonging.of_booted move
  | call i server request => exact belonging.of_started move
  | thread i choice => exact belonging.of_moved move
  | deliver packet sent =>
    cases service : isService packet.receiver with
    | true =>
      obtain ⟨_,rfl⟩ := step_service service move
      exact ⟨belonging.registered,belonging.unheard⟩
    | false => exact belonging.of_handled service move

end

theorem Belonging.run {settings : Settings} {s t : State} {acts : List Action} (idle : Idle s)
    (run : Run (Steps (Cluster.step settings)) s acts t) : Belonging t :=
  run.always idle.belonging fun _ _ _ belonging move => belonging.step move

end CdPraticas.Callbacks
