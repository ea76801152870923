import CdPraticas.Rivals
import CdPraticas.OneWriter

/-!
# What is left of a committed value

Concurrent writes of one key: which of them stand, in that they can still succeed
or their server holds what they saved, and that one always does.
-/

namespace CdPraticas.Contenders
open Groups Store Messages Handlers Calls Cluster Keys Runs Rounds Rivals Stages KeyThreads OneWriter
open Listeners (Threads Event Listening)

/-- The write has saved its value, and its server holds it. -/
def Holding (v : KeyView) (call : Call) : Prop :=
  call.pc.Saved ∧ ∃ entity ∈ (v.held call.server).row, entity.Valid ∧ call.request = .write entity.toDto

def Stands (v : KeyView) (call : Call) : Prop := Undecided call.pc ∨ Holding v call

instance (v : KeyView) : DecidablePred (Stands v) := fun call =>
  inferInstanceAs (Decidable (_ ∨ _ ∧ ∃ entity ∈ (v.held call.server).row, _))

/-- A write at another server stands. -/
def StandsElsewhere (v : KeyView) (server : SpreadGroup) : Prop :=
  ∃ i, ∃ call ∈ v.calls i, call.server ≠ server ∧ Stands v call

def HasSaved (v : KeyView) : Prop := ∃ i, ∃ call ∈ v.calls i, call.pc.Saved

/-- The next access of a handler saves the row of the key or deletes it. -/
def ChangesRow (key : String) (busy : Listening) : Prop :=
  (∃ entity ∈ savesNext busy.handler, entity.key = key) ∨ deletesNext busy.handler = some key

instance (key : String) : DecidablePred (ChangesRow key) := fun busy =>
  inferInstanceAs (Decidable ((∃ entity ∈ savesNext busy.handler, _) ∨ _))

/-- A server registers one write at a time. Once a write has saved its value, a write
    fails only while a write at another server stands. No wait expires. -/
def GuardedMove (isLocal : Bool) (v : KeyView) (i : Nat) : Choice → Prop
  | .go => ∀ call ∈ v.calls i,
      (call.pc = .putWantToWrite → NoneRegistered v call.server) ∧
      (call.pc = .handleConflict → ¬ Winning isLocal call → HasSaved v → StandsElsewhere v call.server)
  | .fails => ∀ call ∈ v.calls i, call.pc = .sendWantToWrite → HasSaved v → StandsElsewhere v call.server
  | .expires => v.calls i = none

/-- The key is only written, as above, and a handler saves or deletes the row of a server
    that holds what a write has saved only while a write at another server stands. -/
def Guarded (isLocal : Bool) (key : String) (s : Threads) : Event → Prop
  | .call _ _ request => request ≠ .read key
  | .thread i choice => GuardedMove isLocal (view key s.cluster) i choice
  | .listen server _ => ∀ busy ∈ s.listening server, ChangesRow key busy →
      (∃ i, ∃ call ∈ (view key s.cluster).calls i, call.server = server ∧ Holding (view key s.cluster) call) →
        StandsElsewhere (view key s.cluster) server
  | _ => True

/-- What holds in every state of a guarded run. -/
structure Contended (v : KeyView) : Prop where
  single : SingleWrites v
  writes : ∀ i call, v.calls i = some call → ∃ dataDto, call.request = .write dataDto
  patient : ∀ i call, v.calls i = some call → call.pc ≠ .sendRevalidate
  noRevalidate : ∀ packet ∈ v.network, ∀ key, packet.body ≠ .regular (.revalidateData key)
  stands : HasSaved v → ∃ i call, v.calls i = some call ∧ Stands v call

section
variable {settings : Settings} {group : Group} {key : String} {v : KeyView} {w w' : ThreadView} {event : Event} {participants : Int}

/-! ### Somebody stands -/

/-- What a step of call `i` leaves of another call that stands. -/
theorem Stands.moved {i j : Nat} {call other : Call} {effect : Effect} {pc : Pc} (different : j ≠ i)
    (was : v.calls j = some other) (stands : Stands v other)
    (kept : other.server = call.server → Holding v other →
      (access i (v.held call.server) effect).row = (v.held call.server).row) :
    ∃ j after, (v.moved group i call effect pc).calls j = some after ∧ Stands (v.moved group i call effect pc) after := by
  refine ⟨j,other,by rw [moved_ne _ _ _ different]; exact was,stands.imp_right fun holding => ?_⟩
  obtain ⟨saved,entity,row,rest⟩ := holding
  refine ⟨saved,entity,?_,rest⟩
  by_cases here : other.server = call.server
  · rw [here,moved_held_self,kept here ⟨saved,entity,row,rest⟩,← here]
    exact row
  · rw [moved_held_ne _ _ _ here]
    exact row

/-- and a step of a handler. -/
theorem Stands.listened {j : Nat} {other : Call} {packet : Packet} {stage next : Stage} {sent : Bool} {held : Fields}
    {sends : List Send} {callbacks : List Callback} (was : w.shared.calls j = some other) (stands : Stands w.shared other)
    (kept : other.server = packet.receiver → Holding w.shared other → held.row = (w.shared.held packet.receiver).row) :
    ∃ j after, (w.listened group packet stage sent held sends callbacks next).shared.calls j = some after ∧
      Stands (w.listened group packet stage sent held sends callbacks next).shared after := by
  refine ⟨j,_,by rw [listened_calls,was]; rfl,?_⟩
  unfold Stands Holding
  rw [notify_pc,notify_server,notify_request]
  refine stands.imp_right fun holding => ?_
  obtain ⟨saved,entity,row,rest⟩ := holding
  refine ⟨saved,entity,?_,rest⟩
  by_cases here : other.server = packet.receiver
  · rw [here,listened_held_self,kept here ⟨saved,entity,row,rest⟩,← here]
    exact row
  · rw [listened_held_ne _ _ _ _ _ _ _ here]
    exact row

/-- What a step of a write does to its own standing. -/
inductive Standing (isLocal : Bool) (i : Nat) (held : Fields) (call : Call) (choice : Choice) (effect : Effect) (pc : Pc) : Prop
  | undecided (now : Undecided pc)
  | saved {dataDto : DataDto} (write : call.request = .write dataDto) (now : pc.Saved)
      (row : (access i held effect).row = some (.ofDto dataDto))
  | yields (here : call.pc = .handleConflict) (loses : ¬ Winning isLocal call) (go : choice = .go) (unsaved : ¬ pc.Saved)
      (row : (access i held effect).row = held.row)
  | fails (here : call.pc = .sendWantToWrite) (fails : choice = .fails) (unsaved : ¬ pc.Saved)
      (row : (access i held effect).row = held.row)
  | deletes (here : call.pc = .deleteById) (unsaved : ¬ pc.Saved)
  | other (before : ¬ Undecided call.pc) (same : pc.Saved ↔ call.pc.Saved) (row : (access i held effect).row = held.row)

theorem move_standing {i : Nat} {held : Fields} {call : Call} {choice : Choice} {effect : Effect} {pc : Pc}
    {dataDto : DataDto} (move : Move settings participants held.row call choice effect pc)
    (write : call.request = .write dataDto) (fits : call.pc.Fits call.request) (expires : choice ≠ .expires)
    (together : call.pc ≠ .saveAlone) : Standing settings.isLocal i held call choice effect pc := by
  cases move with
  | putWantToWrite _ _ | foundRow _ _ _ | noRow _ _ _ | saveInvalidate _ _ | sendWantToWrite _ _ | allResponses _ _ _
  | noResponses _ _ _ | wakeWrite _ _ | conflict _ _ _ | noConflict _ _ _ | wins _ _ _ _ => exact .undecided trivial
  | saveData write here => exact .saved write trivial rfl
  | wantToWriteFails _ here => exact .fails here rfl (fun saved => by cases saved) rfl
  | timeoutWrite _ _ => exact absurd rfl expires
  | yields _ here noted elected =>
    refine .yields here (fun winning => ?_) rfl id rfl
    have won := winning.2
    rw [noted,Option.bind_some,elected] at won
    cases won
  | throws _ here nobody =>
    refine .yields here (fun winning => ?_) rfl (fun saved => by cases saved) rfl
    have won := winning.2
    rw [nobody] at won
    cases won
  | deleteById _ here _ => exact .deletes here (fun saved => by cases saved)
  | saveAlone _ here => exact absurd here together
  | localCopy read _ _ | noCopy read _ _ | sendAskData read _ | askDataFails read _ | putWaiting read _ | dataArrived read _ _
  | noData read _ _ | wakeRead read _ | timeoutRead read _ | saveCopy read _ _ | nothingToSave read _ _ | removeWaiting read _ =>
    rw [read] at write
    cases write
  | sendDataWritten write here | dataWrittenFails write here =>
    rw [here,write] at fits
    refine .other (by rw [here]; exact id) ?_ rfl
    rw [here]
    rcases fits with rfl | rfl <;> exact ⟨fun _ => trivial,fun _ => rfl⟩
  | removeWantToWrite _ here => exact .other (by rw [here]; exact id) (by rw [here]; exact Iff.rfl) rfl
  | isAlone _ here _ | notAlone _ here _ => exact .other (by rw [here]; exact id) (by rw [here]; exact Iff.rfl) rfl
  | findDelete _ here _ => exact .other (by rw [here]; exact id) (by rw [here]; exact Iff.rfl) rfl
  | nothingToDelete _ here _ | deleteThrows _ here _ | sendRevalidate _ here | revalidateFails _ here =>
    exact .other (by rw [here]; exact id) (by rw [here]; exact ⟨fun saved => (by cases saved),False.elim⟩) rfl

theorem HasSaved.before_move {i : Nat} {call : Call} {effect : Effect} {pc : Pc}
    (saved : HasSaved (v.moved group i call effect pc)) (found : v.calls i = some call) (own : pc.Saved → call.pc.Saved) :
    HasSaved v := by
  obtain ⟨j,after,now,saved⟩ := saved
  rcases moved_cases now with ⟨rfl,rfl⟩ | ⟨_,was⟩
  · exact ⟨j,call,found,own saved⟩
  · exact ⟨j,after,was,saved⟩

/-- A write elsewhere that stands is not the one that takes the step. -/
theorem StandsElsewhere.moved {i : Nat} {call : Call} {effect : Effect} {pc : Pc} (found : v.calls i = some call)
    (stands : StandsElsewhere v call.server) :
    ∃ j after, (v.moved group i call effect pc).calls j = some after ∧ Stands (v.moved group i call effect pc) after := by
  obtain ⟨j,other,was,away,stands⟩ := stands
  have different : j ≠ i := by
    rintro rfl
    rw [Option.mem_def,found] at was
    cases was
    exact away rfl
  exact stands.moved different was fun here => absurd here away

theorem Contended.moved_stands (contended : Contended v) (sound : Sound group key v) {i : Nat} {choice : Choice}
    {call : Call} {effect : Effect} {pc : Pc} (guarded : GuardedMove settings.isLocal v i choice)
    (found : v.calls i = some call)
    (move : Move settings group.members.length (v.held call.server).row call choice effect pc)
    (saved : HasSaved (v.moved group i call effect pc)) :
    ∃ j after, (v.moved group i call effect pc).calls j = some after ∧ Stands (v.moved group i call effect pc) after := by
  obtain ⟨dataDto,write⟩ := contended.writes i call found
  have waits : choice ≠ .expires := by
    rintro rfl
    have none : v.calls i = none := guarded
    rw [none] at found
    cases found
  cases move_standing (i := i) move write (sound.fits i call found) waits (contended.single.together i call found) with
  | undecided now => exact ⟨i,_,moved_self ..,.inl now⟩
  | saved write now row =>
    refine ⟨i,_,moved_self ..,.inr ⟨now,_,?_,valid_ofDto _,write⟩⟩
    rw [goto_server,moved_held_self]
    exact row
  | yields here loses go unsaved _ =>
    subst go
    have before := saved.before_move found fun now => absurd now unsaved
    exact ((guarded call found).2 here loses before).moved found
  | fails here fails unsaved _ =>
    subst fails
    have before := saved.before_move found fun now => absurd now unsaved
    exact (guarded call found here before).moved found
  | deletes here unsaved =>
    have before := saved.before_move found fun now => absurd now unsaved
    obtain ⟨j,other,was,stands⟩ := contended.stands before
    have different : j ≠ i := by
      rintro rfl
      rw [found] at was
      cases was
      rcases stands with undecided | ⟨saved,_⟩
      · rw [here] at undecided
        exact undecided
      · rw [here] at saved
        exact saved
    refine stands.moved different was fun same holding => ?_
    obtain ⟨_,entity,row,valid,_⟩ := holding
    rw [same] at row
    exact absurd valid (contended.single.cleared i call found (by rw [here]; trivial) entity row)
  | other notUndecided same row =>
    have before := saved.before_move found same.mp
    obtain ⟨j,other,was,stands⟩ := contended.stands before
    by_cases own : j = i
    · subst own
      rw [found] at was
      cases was
      obtain ⟨saved,entity,stored,rest⟩ := stands.resolve_left notUndecided
      refine ⟨j,_,moved_self ..,.inr ⟨same.mpr saved,entity,?_,rest⟩⟩
      rw [goto_server,moved_held_self,row]
      exact stored
    · exact stands.moved own was fun _ _ => row

/-! ### A step of a handler -/

/-- No handler of a REVALIDATE_DATA is at work. -/
theorem Contended.turn_row (contended : Contended w.shared) (threaded : Threaded group key w) {packet : Packet}
    {stage next : Stage} {held : Fields} {sends : List Send} {callbacks : List Callback}
    (busy : w.listening packet.receiver = some (packet,stage))
    (turn : Turn settings group.members.length key packet.receiver packet.sender (w.shared.held packet.receiver) stage held
      sends callbacks next) :
    held.row = (w.shared.held packet.receiver).row ∨ stage = .deleteById ∨ ∃ entity, stage = .saveInvalidate entity := by
  rcases turn_copy threaded busy turn with same | ⟨changes,_⟩ | ⟨entity,rfl,_⟩
  · exact .inl same
  · exact .inr changes
  · have handling := threaded.handling _ _ _ busy
    obtain ⟨message,body,_,fits⟩ := handling.fits
    cases message with
    | revalidateData about => exact absurd body (contended.noRevalidate packet (handling.pending trivial) about)
    | _ => exact fits.elim

theorem turn_sends {packet new : Packet} {stage next : Stage} {held held' : Fields} {sends : List Send}
    {callbacks : List Callback}
    (turn : Turn settings participants key packet.receiver packet.sender held stage held' sends callbacks next)
    (sent : new ∈ packets group.members packet.receiver packet.call sends) (about : String) :
    new.body ≠ .regular (.revalidateData about) := by
  obtain ⟨_,send,inside,body⟩ := packets_carry sent
  rw [body]
  cases turn with
  | looks _ _ quiet _ =>
    rw [quiet] at inside
    cases inside
  | acts acts =>
    cases acts with
    | answers | grants | refuses =>
      rw [List.mem_singleton.mp inside]
      intro same
      cases same
    | _ => cases inside

theorem Contended.of_listened (contended : Contended w.shared) (threaded : Threaded group key w) {packet : Packet}
    {stage next : Stage} {sent : Bool} {held : Fields} {sends : List Send} {callbacks : List Callback}
    (guarded : (stage = .deleteById ∨ ∃ entity, stage = .saveInvalidate entity) →
      (∃ i, ∃ call ∈ w.shared.calls i, call.server = packet.receiver ∧ Holding w.shared call) →
        StandsElsewhere w.shared packet.receiver)
    (busy : w.listening packet.receiver = some (packet,stage))
    (turn : Turn settings group.members.length key packet.receiver packet.sender (w.shared.held packet.receiver) stage held
      sends callbacks next) : Contended (w.listened group packet stage sent held sends callbacks next).shared := by
  have row := contended.turn_row threaded busy turn
  refine ⟨contended.single.of_listened threaded (fun entity renews _ => ?_) busy turn,?_,?_,?_,?_⟩
  · have handling := threaded.handling _ _ _ busy
    obtain ⟨message,body,_,fits⟩ := handling.fits
    subst renews
    cases message with
    | revalidateData about => exact absurd body (contended.noRevalidate packet (handling.pending trivial) about)
    | _ => exact fits.elim
  · intro i after now
    obtain ⟨before,was,rfl⟩ := listened_cases _ _ _ _ _ _ _ now
    rw [notify_request]
    exact contended.writes i before was
  · intro i after now
    obtain ⟨before,was,rfl⟩ := listened_cases _ _ _ _ _ _ _ now
    rw [notify_pc]
    exact contended.patient i before was
  · intro new flying about
    rcases Multiset.mem_add.mp flying with old | new'
    · exact contended.noRevalidate new (Multiset.mem_of_le (kept_le ..) old) about
    · split_ifs at new'
      · exact turn_sends turn new' about
      · exact absurd new' (Multiset.notMem_zero new)
  · rintro ⟨i,after,now,saved⟩
    obtain ⟨before,was,rfl⟩ := listened_cases _ _ _ _ _ _ _ now
    rw [notify_pc] at saved
    obtain ⟨j,other,found,stands⟩ := contended.stands ⟨i,before,was,saved⟩
    rcases row with same | changes
    · exact stands.listened found fun _ _ => same
    · by_cases holds : ∃ i, ∃ call ∈ w.shared.calls i, call.server = packet.receiver ∧ Holding w.shared call
      · obtain ⟨k,third,found',away,stands'⟩ := guarded changes holds
        exact stands'.listened found' fun here => absurd here away
      · exact stands.listened found fun here holding => absurd ⟨j,other,found,here,holding⟩ holds

/-! ### Every step -/

theorem Contended.of_started (contended : Contended v) {i : Nat} {server : SpreadGroup} {request : Request}
    (startingUp : Bool) (fresh : v.calls i = none) (about : request.key = key) (written : request ≠ .read key) :
    Contended (v.started i (.start startingUp server request)) := by
  have write : ∃ dataDto, request = .write dataDto := by
    cases request with
    | write dataDto => exact ⟨dataDto,rfl⟩
    | read other =>
      cases about
      exact absurd rfl written
  obtain ⟨dataDto,rfl⟩ := write
  have all : ∀ {P : Nat → Call → Prop}, P i (.start startingUp server (.write dataDto)) →
      (∀ j call, v.calls j = some call → P j call) →
      ∀ j call, (v.started i (.start startingUp server (.write dataDto))).calls j = some call → P j call := by
    intro P start others j call found
    rcases started_cases found with ⟨rfl,rfl⟩ | ⟨_,was⟩
    · exact start
    · exact others j call was
  refine ⟨contended.single.of_started _,all ⟨dataDto,rfl⟩ contended.writes,all (fun same => by cases same) contended.patient,
    contended.noRevalidate,?_⟩
  rintro ⟨j,call,found,saved⟩
  rcases started_cases found with ⟨_,rfl⟩ | ⟨_,was⟩
  · exact saved.elim
  · obtain ⟨k,other,found',stands⟩ := contended.stands ⟨j,call,was,saved⟩
    have different : k ≠ i := by
      rintro rfl
      rw [fresh] at found'
      cases found'
    exact ⟨k,other,by rw [started_ne different]; exact found',stands⟩

theorem Contended.of_moved (contended : Contended v) (sound : Sound group key v) (more : group.members.length ≠ 2)
    {i : Nat} {choice : Choice} {call : Call} {effect : Effect} {pc : Pc}
    (guarded : GuardedMove settings.isLocal v i choice) (found : v.calls i = some call)
    (move : Move settings group.members.length (v.held call.server).row call choice effect pc) :
    Contended (v.moved group i call effect pc) := by
  obtain ⟨dataDto,write⟩ := contended.writes i call found
  have all : ∀ {P : Call → Prop}, P (call.goto pc) → (∀ j call, v.calls j = some call → P call) →
      ∀ j other, (v.moved group i call effect pc).calls j = some other → P other := by
    intro P moved others j other now
    rcases moved_cases now with ⟨rfl,rfl⟩ | ⟨_,was⟩
    · exact moved
    · exact others j other was
  have single : SingleWrites (v.moved group i call effect pc) := by
    refine contended.single.of_moved sound more found (fun putting goes => ?_) (fun saves _ => ?_) move
    · subst goes
      exact (guarded call found).1 putting
    · have fits := sound.fits i call found
      rw [saves,write] at fits
      exact fits.elim
  refine ⟨single,all ⟨dataDto,write⟩ contended.writes,all ?_ contended.patient,?_,contended.moved_stands sound guarded found move⟩
  · intro here
    rw [goto_pc] at here
    subst here
    cases move with
    | timeoutWrite _ _ =>
      have none : v.calls i = none := guarded
      rw [none] at found
      cases found
  · intro packet flying key
    rcases Multiset.mem_add.mp flying with old | new
    · exact contended.noRevalidate packet old key
    · obtain ⟨_,send,inside,body⟩ := packets_carry new
      rw [body]
      cases move with
      | sendRevalidate _ here => exact absurd here (contended.patient i call found)
      | sendWantToWrite _ _ | sendDataWritten _ _ | sendAskData _ _ =>
        rw [List.mem_singleton.mp inside]
        intro same
        cases same
      | _ => cases inside

theorem Contended.step {s : Threads} {staging : Staging} (fixed : FixedThreads settings group s staging)
    (contended : Contended (threadView group key s staging).shared) (more : group.members.length ≠ 2)
    (guarded : Guarded settings.isLocal key s event)
    (step : ThreadStep settings group key (threadView group key s staging) event w') : Contended w'.shared := by
  have threaded := fixed.threaded key
  cases step with
  | elsewhere _ => exact contended
  | call fresh _ about => exact contended.of_started _ fresh about guarded
  | thread found move => exact contended.of_moved threaded.sound more guarded found move
  | ignored _ _ =>
    have single := contended.single
    exact ⟨⟨single.together,single.registered,single.marked,single.cleared⟩,contended.writes,contended.patient,
      fun packet flying => contended.noRevalidate packet (Multiset.mem_of_mem_erase flying),contended.stands⟩
  | receive _ _ _ _ _ => exact contended
  | listen busy turn =>
    refine contended.of_listened threaded (fun changes => ?_) busy turn
    refine guarded _ (busy_of_staged fixed.stands busy) ?_
    rcases changes with rfl | ⟨entity,rfl⟩
    · exact .inr rfl
    · exact .inl ⟨entity,rfl,(threaded.handling _ _ _ busy).keyed⟩

/-- The write of `dataDto` returned success. -/
def Wrote (s : State) (dataDto : DataDto) : Prop :=
  ∃ i call exit, s.calls i = some call ∧ call.request = .write dataDto ∧ call.pc = .wrote exit ∧ exit.success = some true

theorem Contended.start {s : State} (quiet : Quiet group s) : Contended (view key s) := by
  have nobody : ∀ i call, (view key s).calls i ≠ some call := fun i call found => by simp [view,quiet.noCalls] at found
  refine ⟨.start quiet,fun i call found => absurd found (nobody i call),fun i call found => absurd found (nobody i call),?_,?_⟩
  · intro packet flying
    simp [view,quiet.noMessages] at flying
  · rintro ⟨i,call,found,_⟩
    exact absurd found (nobody i call)

variable {s t : Threads} {events : List Event}

/-- In a guarded run, once a write of the key has returned success and no server has a
    write of it registered, some server holds a valid copy of a value that a write has
    returned success for. -/
theorem committed_value_kept {dataDto : DataDto} (idle : Idle group s) (several : 2 ≤ group.servers.length)
    (run : Run (GroupSteps settings group (Guarded settings.isLocal key)) s events t)
    (free : ∀ server ∈ group.servers, (t.cluster.servers server).wantToWriteData key = none) (about : dataDto.key = key)
    (wrote : Wrote t.cluster dataDto) :
    ∃ server ∈ group.servers, ∃ entity, (t.cluster.servers server).database.findById key = some entity ∧ entity.Valid ∧
      Wrote t.cluster entity.toDto := by
  have more : group.members.length ≠ 2 := by
    have size := group.servers_length
    omega
  obtain ⟨staging,fixed,contended⟩ := run_view (P := fun w => Contended w.shared) idle
    (Contended.start idle.quiet) (fun _ _ _ _ fixed guarded contended step => contended.step fixed more guarded step) run
  have sound := (fixed.threaded key).sound
  have unregistered : ∀ i call, (threadView group key t staging).shared.calls i = some call → ¬ call.pc.Registered := by
    intro i call found registered
    have mine := contended.single.registered i call found registered
    have none : ((threadView group key t staging).shared.held call.server).slot = none := free _ (sound.located i call found)
    rw [none] at mine
    cases mine
  obtain ⟨i,call,exit,found,request,returned,success⟩ := wrote
  have inView : (threadView group key t staging).shared.calls i = some call :=
    view_calls.mpr ⟨found,by rw [request]; exact about⟩
  obtain ⟨j,other,there,stands⟩ := contended.stands ⟨i,call,inView,by rw [returned]; exact success⟩
  have done := unregistered j other there
  rcases stands with undecided | ⟨saved,entity,row,valid,write⟩
  · exact absurd (undecided_registered undecided) done
  · refine ⟨other.server,sound.located j other there,entity,row,valid,j,other,?_⟩
    cases pc : other.pc with
    | wrote exit =>
      rw [pc] at saved
      exact ⟨exit,(view_calls.mp there).1,write,rfl,saved⟩
    | sendDataWritten _ | removeWantToWrite _ => exact absurd (by rw [pc]; trivial) done
    | _ =>
      rw [pc] at saved
      exact saved.elim

end

/-! ### Two servers -/

/-- `Guarded`, as far as the calls below `bound` show. -/
def GuardedBelow (bound : Nat) (key : String) (s : Threads) : Event → Prop
  | .call _ _ request => request ≠ .read key
  | .thread i choice => choice = .go ∧ ∀ call ∈ (view key s.cluster).calls i,
      (call.pc = .putWantToWrite →
        ∀ j ∈ List.range bound, ∀ other ∈ (view key s.cluster).calls j, other.server = call.server → ¬ other.pc.Registered) ∧
      (call.pc = .handleConflict → ¬ Winning true call →
        ∃ j ∈ List.range bound, ∃ other ∈ (view key s.cluster).calls j, other.server ≠ call.server ∧ Stands (view key s.cluster) other)
  | .listen server _ => ∀ busy ∈ s.listening server, ChangesRow key busy →
      ∃ j ∈ List.range bound, ∃ other ∈ (view key s.cluster).calls j, other.server ≠ server ∧ Stands (view key s.cluster) other
  | _ => True

instance (bound : Nat) (key : String) (s : Threads) : DecidablePred (GuardedBelow bound key s)
  | .call _ _ _ => inferInstanceAs (Decidable (_ ≠ _))
  | .thread i _ => inferInstanceAs (Decidable (_ ∧ ∀ call ∈ (view key s.cluster).calls i, _ ∧ _))
  | .listen server _ => inferInstanceAs (Decidable (∀ busy ∈ s.listening server, ChangesRow key busy →
      ∃ j ∈ List.range bound, ∃ other ∈ (view key s.cluster).calls j, other.server ≠ server ∧ Stands (view key s.cluster) other))
  | .view _ | .boot _ | .receive _ => isTrue trivial

theorem guarded_of_below {bound : Nat} {key : String} {s : Threads} {event : Event} (below : Below bound s.cluster.calls)
    (checked : GuardedBelow bound key s event) : Guarded true key s event := by
  cases event with
  | call _ _ _ => exact checked
  | thread i choice =>
    obtain ⟨rfl,checked⟩ := checked
    intro call found
    obtain ⟨alone,yields⟩ := checked call found
    refine ⟨fun here j other was => ?_,fun here loses _ => ?_⟩
    · have small : j < bound := by
        by_contra large
        have none := below j (not_lt.mp large)
        simp [view,none] at was
      exact alone here j (List.mem_range.mpr small) other was
    · obtain ⟨j,_,rest⟩ := yields here loses
      exact ⟨j,rest⟩
  | listen server sent =>
    intro busy there changes _
    obtain ⟨j,_,rest⟩ := checked busy there changes
    exact ⟨j,rest⟩
  | _ => trivial

/-- Both servers write and ask each other; server 1 refuses server 2, which wins on that. -/
def secondWins : List Event := List.flatten
  [[.call 0 server1 (.write ⟨"k","old"⟩),.call 1 server2 (.write ⟨"k","new"⟩)],goes 0 4,goes 1 4,
   handles ⟨server1,server2,.regular (.wantToWrite ⟨"k","new"⟩),some 1⟩ 4,
   handles ⟨server2,server1,.regular (.writeConflict ⟨"k","new"⟩),some 1⟩ 3,goes 1 7]

/-- Server 1 yields, and writes again: server 2 invalidates what it has saved, and deletes it. -/
def firstAgain : List Event := List.flatten
  [goes 0 6,[.call 2 server1 (.write ⟨"k","newer"⟩)],goes 2 4,
   handles ⟨server2,server1,.regular (.wantToWrite ⟨"k","newer"⟩),some 2⟩ 4,
   handles ⟨server1,server2,.regular (.wantToWriteResponse "k"),some 2⟩ 5,goes 2 4,
   handles ⟨server2,server1,.regular (.dataWritten "k"),some 2⟩ 2]

theorem committed_value_kept_pair : ∃ t : Threads, (t.cluster.servers server2).database.findById "k" = none ∧
    ∃ server ∈ pair.servers, ∃ entity, (t.cluster.servers server).database.findById "k" = some entity ∧ entity.Valid ∧
      Wrote t.cluster entity.toDto := by
  obtain ⟨t,run,free,gone,call,found,write,won⟩ := run_of_events .properties pair 3 (Guarded true "k") (GuardedBelow 3 "k")
    (fun _ _ => guarded_of_below) (idleThreads pair fun _ => ∅) (fun _ _ => rfl) (secondWins ++ firstAgain)
    (fun t => (∀ server ∈ pair.servers, (t.cluster.servers server).wantToWriteData "k" = none) ∧
      (t.cluster.servers server2).database.findById "k" = none ∧
      ∃ call ∈ t.cluster.calls 1, call.request = .write ⟨"k","new"⟩ ∧ call.pc = .wrote .conflictWon) (by decide +kernel)
  have wrote : Wrote t.cluster ⟨"k","new"⟩ := ⟨1,call,_,found,write,won,rfl⟩
  exact ⟨t,gone,committed_value_kept (idleThreads_idle pair _) (by decide) run free rfl wrote⟩

/-- The loser's WANT_TO_WRITE comes after the winner's end, and the loser yields. -/
def bothLose : List Event := List.flatten
  [secondWins,handles ⟨server2,server1,.regular (.wantToWrite ⟨"k","old"⟩),some 0⟩ 4,goes 0 6,
   handles ⟨server1,server2,.regular (.wantToWriteResponse "k"),some 0⟩ 1,
   handles ⟨server1,server1,.regular (.wantToWrite ⟨"k","old"⟩),some 0⟩ 0,
   handles ⟨server2,server2,.regular (.wantToWrite ⟨"k","new"⟩),some 1⟩ 0,
   handles ⟨server1,server1,.regular (.writeConflict ⟨"k","new"⟩),some 1⟩ 0,
   handles ⟨server1,server2,.regular (.dataWritten "k"),some 1⟩ 1,
   handles ⟨server2,server2,.regular (.dataWritten "k"),some 1⟩ 0,
   [.receive ⟨service,server1,.regular (.wantToWrite ⟨"k","old"⟩),some 0⟩,
    .receive ⟨service,server2,.regular (.wantToWrite ⟨"k","new"⟩),some 1⟩,
    .receive ⟨service,server1,.regular (.writeConflict ⟨"k","new"⟩),some 1⟩,
    .receive ⟨service,server2,.regular (.dataWritten "k"),some 1⟩]]

/-- Clients only write, and no wait expires. -/
def OnlyWrites (_ : Threads) : Event → Prop
  | .call _ _ (.read _) | .thread _ .expires => False
  | _ => True

instance (s : Threads) : DecidablePred (OnlyWrites s)
  | .call _ _ (.read _) | .thread _ .expires => isFalse id
  | .call _ _ (.write _) | .thread _ .go | .thread _ .fails | .receive _ | .listen _ _ | .view _ | .boot _ => isTrue trivial

/-- The loser's WANT_TO_WRITE, delivered after the winner's end, takes the only copy. -/
theorem committed_value_lost : ¬ ∀ (s t : Threads) (events : List Event) (dataDto : DataDto), Idle pair s →
    Run (GroupSteps .properties pair OnlyWrites) s events t →
    (∀ server ∈ pair.servers, (t.cluster.servers server).wantToWriteData "k" = none) → t.cluster.network = 0 →
    dataDto.key = "k" → Wrote t.cluster dataDto →
    ∃ server ∈ pair.servers, ∃ entity, (t.cluster.servers server).database.findById "k" = some entity ∧ entity.Valid ∧
      Wrote t.cluster entity.toDto := by
  intro kept
  obtain ⟨t,run,free,delivered,⟨call,found,write,won⟩,lost⟩ := run_of_events .properties pair 2 OnlyWrites OnlyWrites
    (fun _ _ _ allowed => allowed) (idleThreads pair fun _ => ∅) (fun _ _ => rfl) bothLose
    (fun t => (∀ server ∈ pair.servers, (t.cluster.servers server).wantToWriteData "k" = none) ∧ t.cluster.network = 0 ∧
      (∃ call ∈ t.cluster.calls 1, call.request = .write ⟨"k","new"⟩ ∧ call.pc = .wrote .conflictWon) ∧
      ∀ server ∈ pair.servers, ∀ entity ∈ (t.cluster.servers server).database.findById "k", ¬ entity.Valid) (by decide +kernel)
  have wrote : Wrote t.cluster ⟨"k","new"⟩ := ⟨1,call,_,found,write,won,rfl⟩
  obtain ⟨server,member,entity,stored,valid,_⟩ := kept _ t _ _ (idleThreads_idle pair _) run free delivered rfl wrote
  exact lost server member entity stored valid

end CdPraticas.Contenders
