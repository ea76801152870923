import CdPraticas.FlagUpdates
import CdPraticas.Operations
import CdPraticas.Registrations

/-!
# What a writer is told

A server in startup answers a write with success and goes on with it. The first
terminal event is the one the client sees.
-/

namespace CdPraticas.Answers
open Groups Store Messages Calls Runs Programs Listeners Provenance Registrations
open Handlers (Settings)
open FlagUpdates (row thread_save)

/-- A step of call `i` among `events` saves the value of its write. -/
def SavedIn (settings : Settings) (s : Threads) (events : List Event) (i : Nat) (dataDto : DataDto) : Prop :=
  ∃ front back t call, events = front ++ .thread i .go :: back ∧ Run (Runs.Steps (Listeners.step settings)) s front t ∧
    t.cluster.calls i = some call ∧ call.request = .write dataDto ∧ Saving call.pc

/-- A write is not turned off the ways that end with a save: its question goes out, its
    wait does not expire, and it wins where it looks at a conflict. -/
def Unfailed (settings : Settings) (i : Nat) (s : Threads) : Event → Prop
  | .thread j choice => j = i → ∀ call, s.cluster.calls i = some call →
    match call.pc with
    | .sendWantToWrite => choice ≠ .fails
    | .sleepWrite => choice ≠ .expires
    | .handleConflict => call.conflict.bind (electLeader settings.isLocal call.server) = some true
    | _ => True
  | _ => True

section
variable {settings : Settings} {s t u : Threads} {events : List Event} {i : Nat} {dataDto : DataDto}

/-- The value has been stored. -/
theorem SavedIn.row (saved : SavedIn settings s events i dataDto) (run : Run (Runs.Steps (Listeners.step settings)) s events t) :
    ∃ front back u server, events = front ++ .thread i .go :: back ∧
      Run (Runs.Steps (Listeners.step settings)) s (front ++ [.thread i .go]) u ∧
      FlagUpdates.row u server dataDto.key = some (.ofDto dataDto) := by
  obtain ⟨front,back,w,call,rfl,first,found,request,saving⟩ := saved
  rw [List.append_cons] at run
  obtain ⟨u,whole,_⟩ := run.split
  obtain ⟨w',first',save⟩ := whole.snoc
  obtain rfl := first.unique first'
  obtain ⟨_,stored,_⟩ := thread_save ⟨call,found,rfl,.inl ⟨saving,request⟩⟩ save
  exact ⟨front,back,u,call.server,rfl,whole,stored⟩

/-- One more event saves only if it is such a step itself. -/
theorem savedIn_snoc {event : Event} (run : Run (Runs.Steps (Listeners.step settings)) s events t) :
    SavedIn settings s (events ++ [event]) i dataDto ↔ SavedIn settings s events i dataDto ∨
      event = .thread i .go ∧ ∃ call, t.cluster.calls i = some call ∧ call.request = .write dataDto ∧ Saving call.pc := by
  constructor
  · rintro ⟨front,back,w,call,split,first,rest⟩
    rcases List.eq_nil_or_concat back with rfl | ⟨back',last,rfl⟩
    · obtain ⟨rfl,same⟩ := List.append_inj' split rfl
      cases same
      obtain rfl := first.unique run
      exact .inr ⟨rfl,call,rest⟩
    · rw [List.concat_eq_append,← List.cons_append,← List.append_assoc] at split
      obtain ⟨rfl,same⟩ := List.append_inj' split rfl
      exact .inl ⟨front,back',w,call,rfl,first,rest⟩
  · rintro (⟨front,back,w,call,rfl,rest⟩ | ⟨rfl,call,rest⟩)
    · exact ⟨front,back ++ [event],w,call,by simp,rest⟩
    · exact ⟨events,[],t,call,rfl,run,rest⟩

end

section
variable {settings : Settings} {participants : Int} {stored : Option DataEntity} {call : Call} {choice : Choice} {effect : Effect}
  {pc : Pc} {dataDto : DataDto}

/-- Saving is what makes a write a saved one. -/
theorem move_saved (move : Move settings participants stored call choice effect pc) (request : call.request = .write dataDto)
    (fits : call.pc.Fits call.request) : pc.Saved ↔ call.pc.Saved ∨ choice = .go ∧ Saving call.pc := by
  constructor
  · intro saved
    cases move <;> simp_all [Pc.Saved,Saving,Exit.success]
  · rintro (saved | ⟨_,saving⟩)
    · exact move.saved saved fits
    · exact saves_saved move saving

/-- A write fails where it is turned off. -/
theorem move_failed {s : Threads} {i : Nat} (move : Move settings participants stored call choice effect pc)
    (request : call.request = .write dataDto) (fits : call.pc.Fits call.request) (found : s.cluster.calls i = some call) :
    ¬ pc.Failed ↔ ¬ call.pc.Failed ∧ Unfailed settings i s (.thread i choice) := by
  constructor
  · intro lives
    refine ⟨fun failed => lives (move.failed failed),fun _ call' found' => ?_⟩
    cases found.symm.trans found'
    cases move <;> simp_all [Pc.Failed,Exit.success]
  · rintro ⟨lives,unfailed⟩
    have way := unfailed rfl call found
    cases move with
    | sendDataWritten write here | dataWrittenFails write here =>
      rw [here,write] at fits
      rcases fits with rfl | rfl <;> simp [Pc.Failed,Exit.success]
    | throws write here nobody =>
      simp only [here] at way
      cases nobody.symm.trans way
    | _ => simp_all [Pc.Failed,Exit.success]

/-- A write that has returned has saved or failed. -/
theorem done_saved_or_failed (request : call.request = .write dataDto) (fits : call.pc.Fits call.request) (done : call.pc.Done) :
    (call.pc.Saved ↔ ¬ call.pc.Failed) ∧ (call.pc.answer? call.request = some .void ↔ call.pc.Saved) := by
  cases here : call.pc with
  | wrote exit => cases exit <;> simp [Pc.Saved,Pc.Failed,Pc.answer?,Exit.success]
  | answered response =>
    rw [here,request] at fits
    exact fits.elim
  | _ =>
    rw [here] at done
    exact done.elim

theorem goto_answer (move : Move settings participants stored call choice effect pc) (startingUp : Bool)
    (answer : call.answer = if startingUp then some .void else call.pc.answer? call.request) :
    (call.goto pc).answer = if startingUp then some .void else pc.answer? call.request := by
  have silent : call.pc.answer? call.request = none := Operations.answer_running move.not_done
  cases startingUp <;> simp [Call.goto,answer,silent]

end

/-! ### A write from its request on -/

/-- What is known of write `i` of `dataDto` after the events since it came in. -/
structure Tracked (settings : Settings) (s : Threads) (startingUp : Bool) (i : Nat) (dataDto : DataDto) (events : List Event)
    (t : Threads) (call : Call) : Prop where
  request : call.request = .write dataDto
  fits : call.pc.Fits call.request
  answer : call.answer = if startingUp then some .void else call.pc.answer? call.request
  saved : SavedIn settings s events i dataDto ↔ call.pc.Saved
  unfailed : Run (Restrict (Unfailed settings i) (Runs.Steps (Listeners.step settings))) s events t ↔ ¬ call.pc.Failed

section
variable {settings : Settings} {s t u : Threads} {startingUp : Bool} {events : List Event} {i : Nat} {dataDto : DataDto}

theorem restrict_snoc {allowed : Threads → Event → Prop} {event : Event} (run : Run (Runs.Steps (Listeners.step settings)) s events t)
    (move : Listeners.step settings event t = some u) :
    Run (Restrict allowed (Runs.Steps (Listeners.step settings))) s (events ++ [event]) u ↔
      Run (Restrict allowed (Runs.Steps (Listeners.step settings))) s events t ∧ allowed t event := by
  constructor
  · intro whole
    obtain ⟨t',first,holds,_⟩ := whole.snoc
    obtain rfl := first.unrestrict.unique run
    exact ⟨first,holds⟩
  · rintro ⟨first,holds⟩
    exact first.next ⟨holds,move⟩

/-- A call that is left where it is stays tracked, -/
theorem Tracked.stays {event : Event} {call after : Call} (tracked : Tracked settings s startingUp i dataDto events t call)
    (run : Run (Runs.Steps (Listeners.step settings)) s events t) (move : Listeners.step settings event t = some u)
    (other : ∀ choice, event ≠ .thread i choice) (request : after.request = call.request) (pc : after.pc = call.pc)
    (answer : after.answer = call.answer) : Tracked settings s startingUp i dataDto (events ++ [event]) u after := by
  have allowed : Unfailed settings i t event := by
    cases event with
    | thread j choice =>
      rintro rfl
      exact absurd rfl (other choice)
    | _ => trivial
  refine ⟨request.trans tracked.request,by rw [request,pc]; exact tracked.fits,by rw [answer,request,pc]; exact tracked.answer,?_,?_⟩
  · rw [savedIn_snoc run,pc,tracked.saved]
    exact or_iff_left fun step => other .go step.1
  · rw [restrict_snoc run move,pc,tracked.unfailed]
    exact and_iff_left allowed

/-- and so does one that goes a step on. -/
theorem Tracked.moves {choice : Choice} {call : Call} {participants : Int} {stored : Option DataEntity} {effect : Effect} {pc : Pc}
    (tracked : Tracked settings s startingUp i dataDto events t call) (found : t.cluster.calls i = some call)
    (run : Run (Runs.Steps (Listeners.step settings)) s events t) (move : Listeners.step settings (.thread i choice) t = some u)
    (moved : Move settings participants stored call choice effect pc) :
    Tracked settings s startingUp i dataDto (events ++ [.thread i choice]) u (call.goto pc) := by
  refine ⟨tracked.request,moved.fits tracked.fits,goto_answer moved startingUp tracked.answer,?_,?_⟩
  · rw [savedIn_snoc run,tracked.saved,goto_pc,move_saved moved tracked.request tracked.fits]
    refine or_congr_right ⟨?_,?_⟩
    · rintro ⟨same,other,there,_,saving⟩
      cases found.symm.trans there
      cases same
      exact ⟨rfl,saving⟩
    · rintro ⟨rfl,saving⟩
      exact ⟨rfl,call,found,tracked.request,saving⟩
  · rw [restrict_snoc run move,tracked.unfailed,goto_pc,move_failed moved tracked.request tracked.fits found]

theorem run_tracked {server : SpreadGroup} (request : Listeners.step settings (.call i server (.write dataDto)) u = some s)
    (run : Run (Runs.Steps (Listeners.step settings)) s events t) (same : ∀ server request, .call i server request ∉ events) :
    ∀ call, t.cluster.calls i = some call →
      Tracked settings s (u.cluster.servers server).waitStartupDataUpdate i dataDto events t call := by
  refine run.invariant (P := fun events t => (∀ server request, .call i server request ∉ events) → ∀ call,
    t.cluster.calls i = some call → Tracked settings s (u.cluster.servers server).waitStartupDataUpdate i dataDto events t call)
    (fun _ call found => ?_) ?_ same
  · obtain ⟨_,rfl⟩ := step_call request
    simp only [Function.update_self,Option.some.injEq] at found
    subst found
    refine ⟨rfl,trivial,?_,⟨?_,fun saved => saved.elim⟩,⟨fun _ failed => failed,fun _ => .start⟩⟩
    · cases (u.cluster.servers server).waitStartupDataUpdate <;> rfl
    · rintro ⟨front,back,_,_,split,_⟩
      simp at split
  · intro events t event w run ih move same call found
    have earlier := ih fun server request member => same server request (List.mem_append_left _ member)
    cases slotStep move with
    | @call j _ _ _ _ _ calls =>
      have different : i ≠ j := by
        rintro rfl
        exact same _ _ (List.mem_append_right _ List.mem_cons_self)
      rw [calls,Function.update_of_ne different] at found
      exact (earlier call found).stays run move (by simp) rfl rfl rfl
    | @thread j choice mover participants stored effect pc _ there moved calls =>
      by_cases here : i = j
      · subst here
        rw [calls,Function.update_self] at found
        cases found
        exact (earlier mover there).moves there run move moved
      · rw [calls,Function.update_of_ne here] at found
        exact (earlier call found).stays run move (by simp [Ne.symm here]) rfl rfl rfl
    | view calls | receive calls =>
      rw [calls] at found
      exact (earlier call found).stays run move (by simp) rfl rfl rfl
    | boot calls =>
      rw [calls] at found
      exact (earlier call (Option.filter_eq_some_iff.mp found).1).stays run move (by simp) rfl rfl rfl
    | listen told calls stay =>
      rw [calls] at found
      obtain ⟨before,was,rfl⟩ := Option.map_eq_some_iff.mp found
      obtain ⟨_,request,pc,answer,_⟩ := stay i before
      exact (earlier before was).stays run move (by simp) request pc answer

/-- A write is told the truth, success exactly when its value was saved, exactly when
    the server was not in startup or the write goes a way that saves. -/
theorem told_truth_iff {server : SpreadGroup} {call : Call}
    (request : Listeners.step settings (.call i server (.write dataDto)) u = some s)
    (run : Run (Runs.Steps (Listeners.step settings)) s events t) (same : ∀ server request, .call i server request ∉ events)
    (found : t.cluster.calls i = some call) (done : call.pc.Done) :
    (call.answer = some .void ↔ SavedIn settings s events i dataDto) ↔
      (u.cluster.servers server).waitStartupDataUpdate = false ∨
        Run (Restrict (Unfailed settings i) (Runs.Steps (Listeners.step settings))) s events t := by
  have tracked := run_tracked request run same call found
  obtain ⟨either,told⟩ := done_saved_or_failed tracked.request tracked.fits done
  rw [tracked.answer,tracked.saved,tracked.unfailed,← either]
  cases (u.cluster.servers server).waitStartupDataUpdate with
  | false => simp [told]
  | true => simp

end

/-- Two servers without data, in startup or not. -/
def empty (startingUp : Bool) : Threads where
  cluster :=
    { members := Keys.pair.members
      servers := fun _ => ⟨∅,fun _ => none,fun _ => none,3,startingUp⟩
      calls := fun _ => none
      network := 0 }
  listening := fun _ => none

/-- A write whose question cannot be sent. -/
def unsent : List Event := List.replicate 3 (.thread 0 .go) ++ [.thread 0 .fails]

theorem unsent_returns (startingUp : Bool) : ∃ s t call,
    Listeners.step .properties (.call 0 Keys.server1 (.write ⟨"k","v"⟩)) (empty startingUp) = some s ∧
    Run (Runs.Steps (Listeners.step .properties)) s unsent t ∧ (∀ server request, .call 0 server request ∉ unsent) ∧
    t.cluster.calls 0 = some call ∧ call.pc = .wrote .sendFailed ∧ (startingUp = true → call.answer = some .void) := by
  obtain ⟨t,run,found⟩ := exists_run_of_exec (Listeners.step .properties) (fun _ _ => True)
    (fun t => (t.cluster.calls 0).any (fun call => decide (call.pc = .wrote .sendFailed ∧
      (startingUp = true → call.answer = some .void))) = true)
    (endOf (Listeners.step .properties) (empty startingUp) [.call 0 Keys.server1 (.write ⟨"k","v"⟩)]) unsent
    (by revert startingUp; decide)
  obtain ⟨call,there,holds⟩ := (Option.any_eq_true ..).mp found
  obtain ⟨returned,answer⟩ := of_decide_eq_true holds
  exact ⟨_,t,call,rfl,run.unrestrict,by simp [unsent],there,returned,answer⟩

theorem told_truth_iff_unsent : ∃ s t call,
    Listeners.step .properties (.call 0 Keys.server1 (.write ⟨"k","v"⟩)) (empty false) = some s ∧
    Run (Runs.Steps (Listeners.step .properties)) s unsent t ∧ t.cluster.calls 0 = some call ∧ call.pc.Done ∧
    ((call.answer = some .void ↔ SavedIn .properties s unsent 0 ⟨"k","v"⟩) ↔
      ((empty false).cluster.servers Keys.server1).waitStartupDataUpdate = false ∨
        Run (Restrict (Unfailed .properties 0) (Runs.Steps (Listeners.step .properties))) s unsent t) := by
  obtain ⟨s,t,call,request,run,same,found,returned,_⟩ := unsent_returns false
  have done : call.pc.Done := by rw [returned]; trivial
  exact ⟨s,t,call,request,run,found,done,told_truth_iff request run same found done⟩

/-- In startup the client is told that it has succeeded. -/
theorem told_success_unsaved :
    ¬ ∀ (settings : Settings) (u s t : Threads) (events : List Event) (i : Nat) (dataDto : DataDto) (server : SpreadGroup) (call : Call),
      Listeners.step settings (.call i server (.write dataDto)) u = some s → Run (Runs.Steps (Listeners.step settings)) s events t →
      (∀ server request, .call i server request ∉ events) → t.cluster.calls i = some call → call.pc.Done →
      (call.answer = some .void ↔ SavedIn settings s events i dataDto) := by
  intro truth
  obtain ⟨s,t,call,request,run,same,found,returned,answer⟩ := unsent_returns true
  have saved := (truth _ _ _ _ _ _ _ _ _ request run same found (by rw [returned]; trivial)).mp (answer rfl)
  have failed := (run_tracked request run same call found).saved.mp saved
  rw [returned] at failed
  cases failed

end CdPraticas.Answers
