import Mathlib

/-!
# Runs of a labelled transition system

Runs with their list of actions, the induction rules for properties of every
run, simulation between two systems, and execution of a list of actions when
the system is a function.
-/

namespace CdPraticas.Runs

universe u v w
variable {State : Type u} {Act : Type v} {Other : Type w}

/-- The actions taken from `s₀`, in order, and the state they lead to. -/
inductive Run (step : State → Act → State → Prop) (s₀ : State) : List Act → State → Prop
  | start : Run step s₀ [] s₀
  | next {acts : List Act} {s t : State} {a : Act} (before : Run step s₀ acts s) (move : step s a t) :
      Run step s₀ (acts ++ [a]) t

/-- The steps of `step` that are `allowed` in the state they start from. -/
def Restrict (allowed : State → Act → Prop) (step : State → Act → State → Prop) : State → Act → State → Prop :=
  fun s a t => allowed s a ∧ step s a t

/-- The step relation of a partial step function. -/
def Steps (step : Act → State → Option State) : State → Act → State → Prop := fun s a t => step a s = some t

variable {step step' : State → Act → State → Prop} {s₀ s t : State} {acts more : List Act}

/-- A property of the actions taken and the state reached holds of every run
    when it holds at the start and every step keeps it. -/
theorem Run.invariant {P : List Act → State → Prop} (run : Run step s₀ acts s) (init : P [] s₀)
    (keep : ∀ acts s a t, Run step s₀ acts s → P acts s → step s a t → P (acts ++ [a]) t) : P acts s := by
  induction run with
  | start => exact init
  | next before move ih => exact keep _ _ _ _ before ih move

/-- The same for a property of the state alone. -/
theorem Run.always {P : State → Prop} (run : Run step s₀ acts s) (init : P s₀)
    (keep : ∀ s a t, P s → step s a t → P t) : P s :=
  run.invariant (P := fun _ s => P s) init (fun _ s a t _ held move => keep s a t held move)

theorem Run.mono (run : Run step s₀ acts s) (weaker : ∀ s a t, step s a t → step' s a t) : Run step' s₀ acts s := by
  induction run with
  | start => exact .start
  | next _ move ih => exact ih.next (weaker _ _ _ move)

/-- The steps of a restricted run are steps of the system. -/
theorem Run.unrestrict {allowed : State → Act → Prop} (run : Run (Restrict allowed step) s₀ acts s) :
    Run step s₀ acts s :=
  run.mono fun _ _ _ move => move.2

/-- A run that keeps to one condition keeps to another that follows from it along the run. -/
theorem Run.weaken {allowed allowed' : State → Act → Prop} {inv : State → Prop} (run : Run (Restrict allowed step) s₀ acts s)
    (init : inv s₀) (keep : ∀ s a t, inv s → allowed s a → step s a t → inv t)
    (weaker : ∀ s a, inv s → allowed s a → allowed' s a) : Run (Restrict allowed' step) s₀ acts s := by
  suffices both : Run (Restrict allowed' step) s₀ acts s ∧ inv s from both.1
  induction run with
  | start => exact ⟨.start,init⟩
  | next _ move ih => exact ⟨ih.1.next ⟨weaker _ _ ih.2 move.1,move.2⟩,keep _ _ _ ih.2 move.1 move.2⟩

theorem Run.append (run : Run step s₀ acts s) (rest : Run step s more t) : Run step s₀ (acts ++ more) t := by
  induction rest with
  | start => simpa using run
  | next _ move ih => rw [← List.append_assoc]; exact ih.next move

theorem Run.nil (run : Run step s₀ [] s) : s = s₀ := by
  generalize none : [] = acts at run
  cases run with
  | start => rfl
  | next => simp at none

theorem Run.single {a : Act} (move : step s a t) : Run step s [a] t := Run.start.next move

/-- A run can be cut after any number of its actions. -/
theorem Run.split (run : Run step s₀ (acts ++ more) t) : ∃ s, Run step s₀ acts s ∧ Run step s more t := by
  generalize whole : acts ++ more = all at run
  induction run generalizing more with
  | start =>
    obtain ⟨rfl,rfl⟩ := List.append_eq_nil_iff.mp whole
    exact ⟨s₀,.start,.start⟩
  | @next before s t a earlier move ih =>
    rcases List.eq_nil_or_concat more with rfl | ⟨front,last,rfl⟩
    · rw [List.append_nil] at whole
      subst whole
      exact ⟨t,earlier.next move,.start⟩
    · rw [List.concat_eq_append,← List.append_assoc] at whole
      obtain ⟨same,lastSame⟩ := List.append_inj' whole rfl
      cases lastSame
      obtain ⟨u,first,second⟩ := ih same
      exact ⟨u,first,by simpa using second.next move⟩

theorem Run.snoc {a : Act} (run : Run step s₀ (acts ++ [a]) t) : ∃ s, Run step s₀ acts s ∧ step s a t := by
  generalize whole : acts ++ [a] = all at run
  cases run with
  | start => simp at whole
  | next before move =>
    obtain ⟨rfl,same⟩ := List.append_inj' whole rfl
    cases same
    exact ⟨_,before,move⟩

theorem Run.one {a : Act} (run : Run step s₀ [a] t) : step s₀ a t := by
  rw [← List.nil_append [a]] at run
  obtain ⟨s,none,move⟩ := run.snoc
  obtain rfl := none.nil
  exact move

/-- The actions decide where a run of a function leads. -/
theorem Run.unique {step : Act → State → Option State} {u : State} (one : Run (Steps step) s₀ acts t)
    (two : Run (Steps step) s₀ acts u) : t = u := by
  induction one generalizing u with
  | start =>
    generalize none : [] = more at two
    cases two with
    | start => rfl
    | next => simp at none
  | next before move ih =>
    obtain ⟨w,first,last⟩ := two.snoc
    obtain rfl := ih first
    exact Option.some.inj (move.symm.trans last)

/-- A run keeps to a condition when every step of it does. -/
theorem Run.restrict_iff {step : Act → State → Option State} {allowed : State → Act → Prop} (run : Run (Steps step) s₀ acts t) :
    Run (Restrict allowed (Steps step)) s₀ acts t ↔
      ∀ front a back u, acts = front ++ a :: back → Run (Steps step) s₀ front u → allowed u a := by
  constructor
  · rintro kept front a back u rfl run'
    obtain ⟨u',first,rest⟩ := kept.split
    obtain rfl := first.unrestrict.unique run'
    obtain ⟨_,single,_⟩ := Run.split (show Run (Restrict allowed (Steps step)) u' ([a] ++ back) t from rest)
    exact single.one.1
  · intro every
    induction run with
    | start => exact .start
    | @next acts s t a before move ih =>
      have earlier := ih fun front b back u whole => every front b (back ++ [a]) u (by simp [whole])
      exact earlier.next ⟨every acts a [] s rfl before,move⟩

/-- A run of one system is a run of another along `f`, when every step from a
    state with the invariant `inv` is one there. -/
theorem Run.simulate {step' : Other → Act → Other → Prop} {inv : State → Prop} (f : State → Other)
    (run : Run step s₀ acts s) (init : inv s₀) (keep : ∀ s a t, inv s → step s a t → inv t)
    (sim : ∀ s a t, inv s → step s a t → step' (f s) a (f t)) : Run step' (f s₀) acts (f s) ∧ inv s := by
  induction run with
  | start => exact ⟨.start,init⟩
  | next _ move ih => exact ⟨ih.1.next (sim _ _ _ ih.2 move),keep _ _ _ ih.2 move⟩

/-- Where every step that is needed makes a measure smaller, the goal is reached. -/
theorem Run.reach {inv goal : State → Prop} (measure : State → Nat)
    (progress : ∀ s, inv s → ¬ goal s → ∃ a t, step s a t ∧ inv t ∧ measure t < measure s) (holds : inv s) :
    ∃ acts t, Run step s acts t ∧ inv t ∧ goal t := by
  generalize size : measure s = n
  induction n using Nat.strong_induction_on generalizing s with
  | _ n ih =>
    by_cases reached : goal s
    · exact ⟨[],s,.start,holds,reached⟩
    obtain ⟨a,t,move,held,less⟩ := progress s holds reached
    obtain ⟨acts,u,run,rest⟩ := ih (measure t) (size ▸ less) held rfl
    exact ⟨_,u,(Run.single move).append run,rest⟩

/-- What the last action that `f` reads something from gives. -/
def lastOf {β : Type w} (f : Act → Option β) (acts : List Act) : Option β := acts.foldl (fun last a => (f a).or last) none

theorem lastOf_snoc {β : Type w} (f : Act → Option β) (acts : List Act) (a : Act) :
    lastOf f (acts ++ [a]) = (f a).or (lastOf f acts) := by
  rw [lastOf,List.foldl_append]
  rfl

theorem lastOf_congr {β : Type w} {f g : Act → Option β} {acts : List Act} (same : ∀ a ∈ acts, f a = g a) :
    lastOf f acts = lastOf g acts := by
  induction acts using List.reverseRecOn with
  | nil => rfl
  | append_singleton front a ih =>
    rw [lastOf_snoc,lastOf_snoc,same a (by simp),ih fun b member => same b (List.mem_append_left _ member)]

/-- The state after a list of actions of a partial step function, each of
    which passes the check `ok` where it is taken. -/
def exec (step : Act → State → Option State) (ok : State → Act → Bool) : State → List Act → Option State
  | s, [] => some s
  | s, a :: rest => if ok s a then (step a s).bind fun t => exec step ok t rest else none

theorem run_of_exec {step : Act → State → Option State} {ok : State → Act → Bool} (acts : List Act) (s t : State)
    (done : exec step ok s acts = some t) : Run (Restrict (fun s a => ok s a = true) (Steps step)) s acts t := by
  induction acts generalizing s with
  | nil =>
    cases done
    exact .start
  | cons a rest ih =>
    simp only [exec] at done
    split at done
    next passed =>
      obtain ⟨u,first,later⟩ := Option.bind_eq_some_iff.mp done
      exact (Run.single ⟨passed,first⟩).append (ih u later)
    next => cases done

/-- Where the actions lead that can be taken from `s`. -/
def endOf (step : Act → State → Option State) (s : State) (acts : List Act) : State :=
  (exec step (fun _ _ => true) s acts).getD s

theorem run_endOf (step : Act → State → Option State) (s : State) (acts : List Act)
    (done : (exec step (fun _ _ => true) s acts).isSome = true) : Run (Steps step) s acts (endOf step s acts) := by
  obtain ⟨t,executed⟩ := Option.isSome_iff_exists.mp done
  have same : endOf step s acts = t := by rw [endOf,executed,Option.getD_some]
  rw [same]
  exact (run_of_exec acts s t executed).unrestrict

theorem exec_append (step : Act → State → Option State) (ok : State → Act → Bool) (s : State) (acts more : List Act) :
    exec step ok s (acts ++ more) = (exec step ok s acts).bind fun t => exec step ok t more := by
  induction acts generalizing s with
  | nil => rfl
  | cons a rest ih =>
    rw [List.cons_append,exec,exec]
    split
    · cases step a s with
      | none => rfl
      | some t => exact ih t
    · rfl

/-- A run leads to what executing its actions gives. -/
theorem Run.endOf_eq {step : Act → State → Option State} (run : Run (Steps step) s₀ acts t) : endOf step s₀ acts = t := by
  suffices executed : exec step (fun _ _ => true) s₀ acts = some t by rw [endOf,executed,Option.getD_some]
  induction run with
  | start => rfl
  | @next acts s t a before move ih =>
    have move : step a s = some t := move
    rw [exec_append,ih,Option.bind_some,exec,if_pos rfl,move]
    rfl

/-- A run found by executing its actions, with what is checked of its end. -/
theorem exists_run_of_exec (step : Act → State → Option State) (allowed : State → Act → Prop)
    [∀ s, DecidablePred (allowed s)] (P : State → Prop) [DecidablePred P] (s : State) (acts : List Act)
    (done : (exec step (fun s a => decide (allowed s a)) s acts).any (fun t => decide (P t)) = true) :
    ∃ t, Run (Restrict allowed (Steps step)) s acts t ∧ P t := by
  obtain ⟨t,executed,holds⟩ := (Option.any_eq_true ..).mp done
  refine ⟨t,(run_of_exec acts s t executed).mono fun _ _ _ move => ?_,of_decide_eq_true holds⟩
  exact ⟨of_decide_eq_true move.1,move.2⟩

/-- Taking a message out of what is in flight, seen through a filter. -/
theorem filter_erase {α : Type u} [DecidableEq α] {p : α → Prop} [DecidablePred p] {flight : Multiset α} {a : α}
    (flying : a ∈ flight) :
    (flight.erase a).filter p = if p a then (flight.filter p).erase a else flight.filter p := by
  obtain ⟨rest,rfl⟩ := Multiset.exists_cons_of_mem flying
  rw [Multiset.erase_cons_head]
  split_ifs with seen
  · rw [Multiset.filter_cons_of_pos _ seen,Multiset.erase_cons_head]
  · rw [Multiset.filter_cons_of_neg _ seen]

end CdPraticas.Runs
