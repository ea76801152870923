import CdPraticas.Serial
import CdPraticas.Rivals

/-!
# Writes that yield

Whether a write that gives way in a conflict gives way to one that succeeds while
it runs.
-/

namespace CdPraticas.Losers
open Groups Store Messages Handlers Calls Cluster Keys Runs Rounds Serial Rivals

/-- The key after `n` of the actions. -/
def viewAt (settings : Settings) (key : String) (s : State) (acts : List Action) (n : Nat) : KeyView :=
  view key (endOf (step settings) s (acts.take n))

def Running (v : KeyView) (i : Nat) : Prop := ∃ call ∈ v.calls i, ¬ call.pc.Done

instance (v : KeyView) (i : Nat) : Decidable (Running v i) := inferInstanceAs (Decidable (∃ call ∈ v.calls i, _))

/-- There is a moment at which both calls run. -/
def Overlap (settings : Settings) (key : String) (s : State) (acts : List Action) (i j : Nat) : Prop :=
  ∃ n ∈ List.range (acts.length + 1), Running (viewAt settings key s acts n) i ∧ Running (viewAt settings key s acts n) j

instance (settings : Settings) (key : String) (s : State) (acts : List Action) (i j : Nat) :
    Decidable (Overlap settings key s acts i j) := inferInstanceAs (Decidable (∃ n ∈ List.range (acts.length + 1), _ ∧ _))

/-- The write has given way in a conflict. -/
def HasYielded : Pc → Prop
  | .findDelete | .deleteById => True
  | .removeWantToWrite exit | .wrote exit => exit = .conflictLost
  | _ => False

instance : DecidablePred HasYielded
  | .removeWantToWrite exit | .wrote exit => inferInstanceAs (Decidable (exit = .conflictLost))
  | .findDelete | .deleteById => isTrue trivial
  | .writeData | .saveAlone | .putWantToWrite | .findInvalidate | .saveInvalidate _ | .sendWantToWrite | .testResponse
  | .sleepWrite | .testConflict | .saveData _ | .sendDataWritten _ | .sendRevalidate | .handleConflict | .findLocal
  | .sendAskData | .putWaiting | .testData | .sleepRead | .saveCopy | .removeWaiting _ | .answered _ => isFalse id

def IsWrite : Request → Prop
  | .write _ => True
  | .read _ => False

instance : DecidablePred IsWrite
  | .write _ => isTrue trivial
  | .read _ => isFalse id

/-- Call `j` is a write that has not failed, at a server that outranks `server`. -/
def Prevails (isLocal : Bool) (v : KeyView) (server : SpreadGroup) (j : Nat) : Prop :=
  ∃ other ∈ v.calls j, IsWrite other.request ∧ ¬ other.pc.Failed ∧ Outranks isLocal other.server server

instance (isLocal : Bool) (v : KeyView) (server : SpreadGroup) (j : Nat) : Decidable (Prevails isLocal v server j) :=
  inferInstanceAs (Decidable (∃ other ∈ v.calls j, _ ∧ _ ∧ _))

/-- No wait on the key expires and every WANT_TO_WRITE can be sent. -/
def Steady (v : KeyView) : Action → Prop
  | .thread i .expires => v.calls i = none
  | .thread i .fails => ∀ call ∈ v.calls i, call.pc ≠ .sendWantToWrite
  | _ => True

instance (v : KeyView) : DecidablePred (Steady v)
  | .thread i .expires => inferInstanceAs (Decidable (v.calls i = none))
  | .thread i .fails => inferInstanceAs (Decidable (∀ call ∈ v.calls i, _))
  | .thread _ .go | .call _ _ _ | .deliver _ _ | .view _ | .boot _ => isTrue trivial

/-- Call `i` leaves handleConflict without winning. -/
def Yielding (isLocal : Bool) (v : KeyView) (i : Nat) (call : Call) : Action → Prop
  | .thread j .go => j = i ∧ v.calls i = some call ∧ call.pc = .handleConflict ∧ ¬ Winning isLocal call
  | _ => False

instance (isLocal : Bool) (v : KeyView) (i : Nat) (call : Call) : DecidablePred (Yielding isLocal v i call)
  | .thread j .go => inferInstanceAs (Decidable (j = i ∧ _ ∧ _ ∧ _))
  | .thread _ .fails | .thread _ .expires | .call _ _ _ | .deliver _ _ | .view _ | .boot _ => isFalse id

/-- Whenever a write yields, some write at a server of larger cardinality has not
    failed and overlaps it, and every write that has yielded before and overlaps it. -/
def YieldsToOne (settings : Settings) (key : String) (s : State) (acts : List Action) : Prop :=
  ∀ n, ∀ a ∈ acts[n]?, ∀ i call, Yielding settings.isLocal (viewAt settings key s acts n) i call a →
    ∃ j, Prevails settings.isLocal (viewAt settings key s acts n) call.server j ∧
      Overlap settings key s (acts.take n) i j ∧
      ∀ l loser, (viewAt settings key s acts n).calls l = some loser → HasYielded loser.pc →
        Overlap settings key s (acts.take n) l i → Overlap settings key s (acts.take n) l j

/-- Every write that has yielded overlaps one that prevails. -/
def Outdone (settings : Settings) (key : String) (s : State) (acts : List Action) (v : KeyView) : Prop :=
  ∀ l loser, v.calls l = some loser → HasYielded loser.pc →
    ∃ j, Prevails settings.isLocal v loser.server j ∧ Overlap settings key s acts l j

section
variable {settings : Settings} {group : Group} {key : String} {s t : State} {v v' : KeyView} {acts more : List Action}
  {a : Action} {participants : Int}

/-! ### Moments of a run -/

theorem viewAt_append {n : Nat} (early : n ≤ acts.length) :
    viewAt settings key s (acts ++ more) n = viewAt settings key s acts n := by
  rw [viewAt,List.take_append_of_le_length early,viewAt]

theorem viewAt_end (run : Run (Steps (step settings)) s acts t) :
    viewAt settings key s (acts ++ more) acts.length = view key t := by
  rw [viewAt_append le_rfl,viewAt,List.take_length,run.endOf_eq]

theorem Overlap.append {i j : Nat} (overlap : Overlap settings key s acts i j) :
    Overlap settings key s (acts ++ more) i j := by
  obtain ⟨n,inside,one,two⟩ := overlap
  have early : n ≤ acts.length := Nat.lt_succ_iff.mp (List.mem_range.mp inside)
  refine ⟨n,List.mem_range.mpr ?_,?_,?_⟩
  · rw [List.length_append]
    omega
  · rwa [viewAt_append early]
  · rwa [viewAt_append early]

theorem YieldsToOne.earlier (yields : YieldsToOne settings key s (acts ++ [a])) : YieldsToOne settings key s acts := by
  intro n b at_ i call yielding
  have early : n < acts.length := (List.getElem?_eq_some_iff.mp at_).1
  have later : b ∈ (acts ++ [a])[n]? := by rwa [List.getElem?_append_left early]
  have now := yields n b later i call (by rwa [viewAt_append early.le])
  rwa [viewAt_append early.le,List.take_append_of_le_length early.le] at now

/-- What is known when the last action makes a write yield. -/
theorem YieldsToOne.last {i : Nat} {call : Call} (yields : YieldsToOne settings key s (acts ++ [a]))
    (run : Run (Steps (step settings)) s acts t) (yielding : Yielding settings.isLocal (view key t) i call a) :
    ∃ j, Prevails settings.isLocal (view key t) call.server j ∧ Overlap settings key s acts i j ∧
      ∀ l loser, (view key t).calls l = some loser → HasYielded loser.pc → Overlap settings key s acts l i →
        Overlap settings key s acts l j := by
  have now := yields acts.length a (by simp) i call (by rwa [viewAt_end run])
  rwa [viewAt_end run,List.take_left' rfl] at now

/-! ### One step -/

theorem Prevails.step {isLocal : Bool} {server : SpreadGroup} {j : Nat} {other : Call} (sound : Sound group key v)
    (found : v.calls j = some other) (write : IsWrite other.request) (outranks : Outranks isLocal other.server server)
    (step : KeyStep settings group key v a v')
    (stays : ∀ after, v'.calls j = some after → ¬ after.pc.Failed) : Prevails isLocal v' server j := by
  obtain ⟨after,now,later⟩ := step_later sound step found
  exact ⟨after,now,by rwa [later.request],stays after now,by rwa [later.server]⟩

theorem move_yielded {stored : Option DataEntity} {call : Call} {choice : Choice} {effect : Effect} {pc : Pc}
    (move : Move settings participants stored call choice effect pc) (fits : call.pc.Fits call.request)
    (yielded : HasYielded pc) :
    HasYielded call.pc ∨ choice = .go ∧ call.pc = .handleConflict ∧ ¬ Winning settings.isLocal call := by
  cases move with
  | yields _ here noted elected =>
    refine .inr ⟨rfl,here,fun winning => ?_⟩
    have won := winning.2
    rw [noted,Option.bind_some,elected] at won
    cases won
  | sendDataWritten write here | dataWrittenFails write here =>
    rw [here,write] at fits
    rcases fits with rfl | rfl <;> cases yielded
  | _ => simp_all [HasYielded]

/-- How a steady write can fail. -/
theorem move_fails {i : Nat} {stored : Option DataEntity} {call : Call} {choice : Choice} {effect : Effect} {pc : Pc}
    (move : Move settings participants stored call choice effect pc) (found : v.calls i = some call)
    (fits : call.pc.Fits call.request) (steady : Steady v (.thread i choice))
    (failed : pc.Failed) :
    call.pc.Failed ∨ choice = .go ∧ call.pc = .handleConflict ∧ ¬ Winning settings.isLocal call := by
  cases move with
  | yields _ here noted elected =>
    refine .inr ⟨rfl,here,fun winning => ?_⟩
    have won := winning.2
    rw [noted,Option.bind_some,elected] at won
    cases won
  | throws _ here nobody =>
    refine .inr ⟨rfl,here,fun winning => ?_⟩
    have won := winning.2
    rw [nobody] at won
    cases won
  | timeoutWrite _ _ =>
    have none : v.calls i = none := steady
    rw [none] at found
    cases found
  | wantToWriteFails _ here => exact absurd here (steady call found)
  | sendDataWritten write here | dataWrittenFails write here =>
    rw [here,write] at fits
    rcases fits with rfl | rfl <;> exact absurd rfl failed
  | _ => simp_all [Pc.Failed,Exit.success]

/-- A call that a step does not move stands as before. -/
theorem failed_before {j : Nat} {other after : Call} (step : KeyStep settings group key v a v')
    (elsewhere : ∀ choice, a ≠ .thread j choice) (found : v.calls j = some other) (now : v'.calls j = some after)
    (failed : after.pc.Failed) : other.pc.Failed := by
  cases step with
  | elsewhere _ | service _ _ =>
    have same : other = after := Option.some.inj (found.symm.trans now)
    rwa [same]
  | call fresh _ _ =>
    rcases started_cases now with ⟨rfl,_⟩ | ⟨_,was⟩
    · rw [fresh] at found
      cases found
    · rw [found] at was
      cases was
      exact failed
  | @thread i choice _ _ _ _ _ =>
    rcases moved_cases now with ⟨rfl,_⟩ | ⟨_,was⟩
    · exact absurd rfl (elsewhere choice)
    · rw [found] at was
      cases was
      exact failed
  | deliver _ _ _ _ =>
    obtain ⟨before,was,rfl⟩ := handled_cases now
    rw [found] at was
    cases was
    rwa [notify_pc] at failed

/-- A write that has yielded had done so before, unless it yields now. -/
theorem yielded_before (sound : Sound group key v) {l : Nat} {after : Call} (step : KeyStep settings group key v a v')
    (now : v'.calls l = some after) (yielded : HasYielded after.pc) :
    ∃ before, v.calls l = some before ∧ before.server = after.server ∧
      (HasYielded before.pc ∨ Yielding settings.isLocal v l before a) := by
  cases step with
  | elsewhere _ | service _ _ => exact ⟨after,now,rfl,.inl yielded⟩
  | @call _ _ request _ _ _ =>
    rcases started_cases now with ⟨_,rfl⟩ | ⟨_,was⟩
    · cases request <;> exact yielded.elim
    · exact ⟨after,was,rfl,.inl yielded⟩
  | @thread i choice call _ _ found move =>
    rcases moved_cases now with ⟨rfl,rfl⟩ | ⟨_,was⟩
    · refine ⟨call,found,rfl,(move_yielded move (sound.fits l call found) yielded).imp_right ?_⟩
      rintro ⟨rfl,here,loses⟩
      exact ⟨rfl,found,here,loses⟩
    · exact ⟨after,was,rfl,.inl yielded⟩
  | deliver _ _ _ _ =>
    obtain ⟨before,was,rfl⟩ := handled_cases now
    rw [notify_pc] at yielded
    exact ⟨before,was,(notify_server ..).symm,.inl yielded⟩

/-- A write that has not failed and does not yield now does not fail. -/
theorem stays_unfailed (sound : Sound group key v) (steady : Steady v a) {j : Nat} {other after : Call}
    (step : KeyStep settings group key v a v') (found : v.calls j = some other) (standing : ¬ other.pc.Failed)
    (firm : ¬ Yielding settings.isLocal v j other a) (now : v'.calls j = some after) : ¬ after.pc.Failed := by
  intro failed
  by_cases own : ∃ choice, a = .thread j choice
  · obtain ⟨choice,rfl⟩ := own
    cases step with
    | elsewhere away =>
      have none : v.calls j = none := away
      rw [none] at found
      cases found
    | thread running move =>
      rw [found] at running
      cases running
      rw [moved_self] at now
      cases now
      rcases move_fails move found (sound.fits j _ found) steady failed with before | ⟨rfl,here,loses⟩
      · exact standing before
      · exact firm ⟨rfl,found,here,loses⟩
  · exact standing (failed_before step (fun choice same => own ⟨choice,same⟩) found now failed)

theorem Outdone.step (outdone : Outdone settings key s acts (view key t)) (run : Run (Steps (step settings)) s acts t)
    (sound : Sound group key (view key t)) (steady : Steady (view key t) a)
    (yields : YieldsToOne settings key s (acts ++ [a])) (step : KeyStep settings group key (view key t) a v') :
    Outdone settings key s (acts ++ [a]) v' := by
  intro l after now yielded
  obtain ⟨loser,found,same,before⟩ := yielded_before sound step now yielded
  rw [← same]
  -- the write that prevailed over the loser, unless it yields now itself
  have kept : ∀ {j}, Prevails settings.isLocal (view key t) loser.server j → Overlap settings key s acts l j →
      (∀ other, ¬ Yielding settings.isLocal (view key t) j other a) →
      ∃ j, Prevails settings.isLocal v' loser.server j ∧ Overlap settings key s (acts ++ [a]) l j := by
    rintro j ⟨other,was,write,standing,outranks⟩ overlap firm
    exact ⟨j,Prevails.step sound was write outranks step
      fun _ now => stays_unfailed sound steady step was standing (firm other) now,overlap.append⟩
  have fresh : ∀ {j call i yielder}, Yielding settings.isLocal (view key t) i yielder a →
      Prevails settings.isLocal (view key t) yielder.server j → ¬ Yielding settings.isLocal (view key t) j call a := by
    rintro j call i yielder one ⟨other,was,_,_,outranks⟩ two
    cases a with
    | thread k choice =>
      cases choice with
      | go =>
        obtain ⟨mine,foundOne,_⟩ := one
        obtain ⟨its,_⟩ := two
        subst mine its
        rw [Option.mem_def,foundOne] at was
        cases was
        exact outranks.irrefl
      | _ => exact one
    | _ => exact one
  rcases before with before | yielding
  · obtain ⟨j,prevails,overlap⟩ := outdone l loser found before
    by_cases firm : ∃ other, Yielding settings.isLocal (view key t) j other a
    · obtain ⟨other,yielding⟩ := firm
      obtain ⟨k,higher,_,rest⟩ := yields.last run yielding
      obtain ⟨same',was,_,_,outranks⟩ := prevails
      have higherStill : Prevails settings.isLocal (view key t) loser.server k := by
        obtain ⟨third,found',write,standing,above⟩ := higher
        have equal : other = same' := by
          cases a with
          | thread i choice =>
            cases choice with
            | go => exact Option.some.inj (yielding.2.1.symm.trans was)
            | _ => exact yielding.elim
          | _ => exact yielding.elim
        subst equal
        exact ⟨third,found',write,standing,above.trans outranks⟩
      exact kept higherStill (rest l loser found before overlap) fun _ => fresh yielding higher
    · exact kept prevails overlap fun other yielding => firm ⟨other,yielding⟩
  · obtain ⟨j,prevails,overlap,_⟩ := yields.last run yielding
    exact kept prevails overlap fun _ => fresh yielding prevails

/-! ### A whole run -/

/-- In a steady run in which every write yields to one, a write that returned false
    after a conflict overlaps a write at another server that returned success, once
    every call on the key has returned. -/
theorem loser_implies_winner {l : Nat} {loser : Call} (quiet : Quiet group s)
    (run : Run (group.Steps settings key Steady) s acts t) (yields : YieldsToOne settings key s acts)
    (idle : Idle (view key t)) (found : t.calls l = some loser) (about : loser.request.key = key)
    (lost : loser.pc = .wrote .conflictLost) :
    ∃ j other exit, t.calls j = some other ∧ other.server ≠ loser.server ∧ other.request.key = key ∧
      IsWrite other.request ∧ other.pc = .wrote exit ∧ exit.success = some true ∧ Overlap settings key s acts l j := by
  have outdone : (YieldsToOne settings key s acts → Outdone settings key s acts (view key t)) ∧ Fixed group t := by
    refine run.invariant (P := fun acts t =>
      (YieldsToOne settings key s acts → Outdone settings key s acts (view key t)) ∧ Fixed group t)
      ⟨fun _ l loser found => ?_,quiet.fixed⟩ ?_
    · simp [view,quiet.noCalls] at found
    · intro acts m a t before holds move
      obtain ⟨outdone,fixed⟩ := holds
      refine ⟨fun yields => ?_,fixed.step move.1.1 move.2⟩
      exact (outdone yields.earlier).step before.unrestrict (fixed.sound key) move.1.2 yields
        (view_step fixed move.1.1 move.2)
  have inView : (view key t).calls l = some loser := view_calls.mpr ⟨found,about⟩
  obtain ⟨j,⟨other,was,write,standing,outranks⟩,overlap⟩ := outdone.1 yields l loser inView (by rw [lost]; rfl)
  obtain ⟨there,onKey⟩ := view_calls.mp was
  have done := idle j other was
  have apart : other.server ≠ loser.server := by
    intro same
    rw [same] at outranks
    exact outranks.irrefl
  cases pc : other.pc with
  | wrote exit =>
    rw [pc] at standing
    exact ⟨j,other,exit,there,apart,onKey,write,pc,not_not.mp standing,overlap⟩
  | answered _ =>
    have fits := (outdone.2.sound key).fits j other was
    rw [pc] at fits
    cases request : other.request with
    | write _ =>
      rw [request] at fits
      exact fits.elim
    | read _ =>
      rw [request] at write
      exact write.elim
  | _ =>
    rw [pc] at done
    exact done.elim

end

/-! ### Two servers -/

/-- `YieldsToOne`, as far as the calls below `bound` show. -/
def YieldsBelow (bound : Nat) (settings : Settings) (key : String) (s : State) (acts : List Action) : Prop :=
  ∀ n ∈ List.range acts.length, ∀ a ∈ acts[n]?, ∀ i ∈ List.range bound, ∀ call ∈ (viewAt settings key s acts n).calls i,
    Yielding settings.isLocal (viewAt settings key s acts n) i call a →
    ∃ j ∈ List.range bound, Prevails settings.isLocal (viewAt settings key s acts n) call.server j ∧
      Overlap settings key s (acts.take n) i j ∧
      ∀ l ∈ List.range bound, ∀ loser ∈ (viewAt settings key s acts n).calls l, HasYielded loser.pc →
        Overlap settings key s (acts.take n) l i → Overlap settings key s (acts.take n) l j

instance (bound : Nat) (settings : Settings) (key : String) (s : State) (acts : List Action) :
    Decidable (YieldsBelow bound settings key s acts) :=
  inferInstanceAs (Decidable (∀ n ∈ List.range acts.length, ∀ a ∈ acts[n]?, ∀ i ∈ List.range bound,
    ∀ call ∈ (viewAt settings key s acts n).calls i, Yielding settings.isLocal (viewAt settings key s acts n) i call a →
      ∃ j ∈ List.range bound, Prevails settings.isLocal (viewAt settings key s acts n) call.server j ∧
        Overlap settings key s (acts.take n) i j ∧
        ∀ l ∈ List.range bound, ∀ loser ∈ (viewAt settings key s acts n).calls l, HasYielded loser.pc →
          Overlap settings key s (acts.take n) l i → Overlap settings key s (acts.take n) l j))

theorem run_below {settings : Settings} {bound : Nat} {s t : State} {acts : List Action}
    (run : Run (Steps (step settings)) s acts t) (none : Below bound s.calls) (numbered : ∀ a ∈ acts, Numbered bound a) :
    Below bound t.calls := by
  induction run with
  | start => exact none
  | next _ move ih =>
    exact below_step (ih fun a inside => numbered a (List.mem_append_left _ inside)) (numbered _ (by simp)) move

theorem view_small {bound : Nat} {key : String} {s : State} {i : Nat} {call : Call} (below : Below bound s.calls)
    (found : (view key s).calls i = some call) : i ∈ List.range bound := by
  refine List.mem_range.mpr (Nat.lt_of_not_le fun large => ?_)
  have there := (view_calls.mp found).1
  rw [below i large] at there
  cases there

theorem yields_of_below {settings : Settings} {bound : Nat} {key : String} {s t : State} {acts : List Action}
    (run : Run (Steps (step settings)) s acts t) (none : Below bound s.calls) (numbered : ∀ a ∈ acts, Numbered bound a)
    (checked : YieldsBelow bound settings key s acts) : YieldsToOne settings key s acts := by
  intro n a at_ i call yielding
  have early : n < acts.length := (List.getElem?_eq_some_iff.mp at_).1
  have small : ∀ {l other}, (viewAt settings key s acts n).calls l = some other → l ∈ List.range bound := by
    intro l other found
    have whole := run
    rw [← List.take_append_drop n acts] at whole
    obtain ⟨m,first,_⟩ := whole.split
    rw [viewAt,first.endOf_eq] at found
    exact view_small (run_below first none fun b inside => numbered b (List.mem_of_mem_take inside)) found
  have found : (viewAt settings key s acts n).calls i = some call := by
    cases a with
    | thread j choice =>
      cases choice with
      | go => exact yielding.2.1
      | _ => exact yielding.elim
    | _ => exact yielding.elim
  obtain ⟨j,_,prevails,overlap,rest⟩ := checked n (List.mem_range.mpr early) a at_ i (small found) call found yielding
  exact ⟨j,prevails,overlap,fun l loser was => rest l (small was) loser was⟩

theorem loser_implies_winner_pair : ∃ (t : State) (j : Nat) (other : Call) (exit : Exit), t.calls j = some other ∧ other.server ≠ server1 ∧
    other.request.key = "k" ∧ IsWrite other.request ∧ other.pc = .wrote exit ∧ exit.success = some true ∧
    Overlap .properties "k" (pair.initial fun _ => ∅) (allWrite 2 ++ oneWinner) 0 j := by
  obtain ⟨t,run,⟨loser,found,about,here,lost⟩,done⟩ := run_of_checked .properties pair "k" 2 Steady Steady
    (fun _ _ _ steady => steady) (pair.initial fun _ => ∅) (fun _ _ => rfl) (allWrite 2 ++ oneWinner)
    (fun t => (∃ call ∈ t.calls 0, call.request.key = "k" ∧ call.server = server1 ∧ call.pc = .wrote .conflictLost) ∧
      ∀ i ∈ List.range 2, ∀ call ∈ t.calls i, call.pc.Done) (by decide +kernel)
  have numbered : ∀ a ∈ allWrite 2 ++ oneWinner, Numbered 2 a := by decide +kernel
  have none : Below 2 (pair.initial fun _ => ∅).calls := fun _ _ => rfl
  have idle : Idle (view "k" t) := fun i call there =>
    done i (view_small (run_below run.unrestrict none numbered) there) call (view_calls.mp there).1
  have yields : YieldsToOne .properties "k" (pair.initial fun _ => ∅) (allWrite 2 ++ oneWinner) :=
    yields_of_below run.unrestrict none numbered (by decide +kernel)
  obtain ⟨j,other,exit,there,apart,rest⟩ := loser_implies_winner (initial_quiet pair _) run yields idle found about lost
  exact ⟨t,j,other,exit,there,here ▸ apart,rest⟩

/-- After the fight server 1 writes again, alone; the conflict message of server 2
    reaches it only now. -/
def staleConflict : List Action := List.flatten
  [allWrite 2,meets 1 6,[.deliver ⟨server1,server2,.regular (.wantToWrite ⟨"k","new"⟩),some 1⟩ true],goOn 0 5,
   [.call 2 server1 (.write ⟨"k","newer"⟩)],goOn 2 5,
   [.deliver ⟨server1,server2,.regular (.writeConflict ⟨"k","new"⟩),some 0⟩ true],goOn 2 5]

/-- A lone write loses to the conflict message of an earlier fight. -/
theorem loser_alone : ¬ ∀ (s t : State) (acts : List Action) (l : Nat) (loser : Call), Quiet pair s →
    Run (pair.Steps .properties "k" Steady) s acts t → Idle (view "k" t) → t.calls l = some loser →
    loser.request.key = "k" → loser.pc = .wrote .conflictLost →
    ∃ (j : Nat) (other : Call) (exit : Exit), t.calls j = some other ∧ other.server ≠ loser.server ∧ other.request.key = "k" ∧
      IsWrite other.request ∧ other.pc = .wrote exit ∧ exit.success = some true ∧ Overlap .properties "k" s acts l j := by
  intro won
  obtain ⟨t,run,⟨loser,found,about,here,lost⟩,done,alone⟩ := run_of_checked .properties pair "k" 3 Steady Steady
    (fun _ _ _ steady => steady) (pair.initial fun _ => ∅) (fun _ _ => rfl) staleConflict
    (fun t => (∃ call ∈ t.calls 2, call.request.key = "k" ∧ call.server = server1 ∧ call.pc = .wrote .conflictLost) ∧
      (∀ i ∈ List.range 3, ∀ call ∈ t.calls i, call.pc.Done) ∧
      ∀ i ∈ List.range 3, ∀ call ∈ t.calls i, call.server ≠ server1 →
        ¬ Overlap .properties "k" (pair.initial fun _ => ∅) staleConflict 2 i) (by decide +kernel)
  have numbered : ∀ a ∈ staleConflict, Numbered 3 a := by decide +kernel
  have none : Below 3 (pair.initial fun _ => ∅).calls := fun _ _ => rfl
  have below := run_below run.unrestrict none numbered
  have idle : Idle (view "k" t) := fun i call there => done i (view_small below there) call (view_calls.mp there).1
  obtain ⟨j,other,_,there,apart,onKey,_,_,_,overlap⟩ := won _ t _ 2 loser (initial_quiet pair _) run idle found about lost
  rw [here] at apart
  exact alone j (view_small below (view_calls.mpr ⟨there,onKey⟩)) other there apart overlap

end CdPraticas.Losers
