import CdPraticas.Logs
import CdPraticas.Runs

/-!
# Broadcast in one order

What a broadcast is to do, without saying how: everything sent is in one log, and each
member takes entries of it, none twice. Early entries are taken at any time, and the others
in the order of the log.
-/

namespace CdPraticas.Broadcast
open Runs Logs

universe u v
variable {ι : Type u} {α : Type v} {early : α → Bool}

structure State (ι : Type u) (α : Type v) where
  log : List α
  taken : ι → List α

inductive Action (ι : Type u) (α : Type v)
  | send (entry : α)
  | take (member : ι) (entry : α)

/-- A member may take an entry of the log that it has not taken, if it is early or the next in order. -/
def MayTake (early : α → Bool) (log taken : List α) (entry : α) : Prop :=
  entry ∈ log ∧ entry ∉ taken ∧ (early entry = false → ordered early taken ++ [entry] <+: ordered early log)

section
variable [DecidableEq ι]

def State.take (s : State ι α) (member : ι) (entries : List α) : State ι α :=
  { s with taken := Function.update s.taken member (s.taken member ++ entries) }

inductive Step (early : α → Bool) : State ι α → Action ι α → State ι α → Prop
  | send (s : State ι α) (entry : α) (new : entry ∉ s.log) : Step early s (.send entry) { s with log := s.log ++ [entry] }
  | take (s : State ι α) (member : ι) (entry : α) (may : MayTake early s.log (s.taken member) entry) :
      Step early s (.take member entry) (s.take member [entry])

/-- Nothing is sent yet. -/
def start : State ι α := ⟨[],fun _ => []⟩

/-- What holds in every run. -/
structure Orderly (early : α → Bool) (s : State ι α) : Prop where
  inOrder : ∀ member, ordered early (s.taken member) <+: ordered early s.log
  once : ∀ member, (s.taken member).Nodup
  sent : ∀ member, ∀ entry ∈ s.taken member, entry ∈ s.log

variable {s t : State ι α}

theorem taken_take (s : State ι α) (member : ι) (entries : List α) (other : ι) :
    (s.take member entries).taken other = if other = member then s.taken member ++ entries else s.taken other :=
  Function.update_apply ..

theorem Orderly.step {a : Action ι α} (orderly : Orderly early s) (move : Step early s a t) : Orderly early t := by
  cases move with
  | send entry new =>
    refine ⟨fun member => (orderly.inOrder member).trans ?_,orderly.once,fun member other mem => ?_⟩
    · rw [ordered_append]
      exact List.prefix_append ..
    · exact List.mem_append_left _ (orderly.sent member other mem)
  | take member entry may =>
    obtain ⟨mem,fresh,next⟩ := may
    refine ⟨fun other => ?_,fun other => ?_,fun other => ?_⟩ <;> rw [taken_take] <;> split
    · cases late : early entry with
      | true =>
        rw [ordered_append,ordered_early late,List.append_nil]
        exact orderly.inOrder member
      | false =>
        rw [ordered_append,ordered_late late]
        exact next late
    · exact orderly.inOrder other
    · refine List.nodup_append.mpr ⟨orderly.once member,List.nodup_singleton entry,?_⟩
      intro old taken new here same
      exact fresh (List.mem_singleton.mp here ▸ same ▸ taken)
    · exact orderly.once other
    · intro x here
      rcases List.mem_append.mp here with old | new
      · exact orderly.sent member x old
      · rw [List.mem_singleton.mp new]
        exact mem
    · exact orderly.sent other

theorem orderly_run {acts : List (Action ι α)} (run : Run (Step early) start acts s) : Orderly early s :=
  run.always ⟨fun _ => List.prefix_rfl,fun _ => List.nodup_nil,by simp [start]⟩ fun _ _ _ held move => held.step move

omit [DecidableEq ι] in
/-- What one of two members took in order is a beginning of what the other one took. -/
theorem Orderly.agree (orderly : Orderly early s) (member other : ι) :
    ordered early (s.taken member) <+: ordered early (s.taken other) ∨
      ordered early (s.taken other) <+: ordered early (s.taken member) :=
  List.prefix_or_prefix_of_prefix (orderly.inOrder member) (orderly.inOrder other)

/-- Nothing sent or taken is taken back. -/
theorem run_grows {acts : List (Action ι α)} (run : Run (Step early) s acts t) :
    s.log <+: t.log ∧ ∀ member, s.taken member <+: t.taken member := by
  induction run with
  | start => exact ⟨List.prefix_rfl,fun _ => List.prefix_rfl⟩
  | next _ move ih =>
    obtain ⟨log,taken⟩ := ih
    cases move with
    | send entry _ => exact ⟨log.trans (List.prefix_append ..),taken⟩
    | take member entry _ =>
      refine ⟨log,fun other => (taken other).trans ?_⟩
      rw [taken_take]
      split
      next here => rw [here]; exact List.prefix_append ..
      next => exact List.prefix_rfl

/-! ### Many entries at once -/

/-- New entries are sent one after the other. -/
theorem run_send (early : α → Bool) (s : State ι α) (entries : List α) (once : (s.log ++ entries).Nodup) :
    ∃ acts, Run (Step early) s acts { s with log := s.log ++ entries } := by
  induction entries using List.reverseRecOn with
  | nil => exact ⟨[],by simpa using Run.start⟩
  | append_singleton front entry ih =>
    rw [← List.append_assoc] at once ⊢
    obtain ⟨acts,run⟩ := ih (List.nodup_append.mp once).1
    refine ⟨acts ++ [.send entry],run.next ?_⟩
    exact .send _ entry fun old => (List.nodup_append.mp once).2.2 entry old entry (List.mem_singleton_self _) rfl

/-- Entries are taken one after the other, if all of them are in order. -/
theorem run_take (early : α → Bool) (s : State ι α) (member : ι) (entries : List α) (once : (s.taken member ++ entries).Nodup)
    (sent : ∀ entry ∈ entries, entry ∈ s.log) (inOrder : ordered early (s.taken member ++ entries) <+: ordered early s.log) :
    ∃ acts, Run (Step early) s acts (s.take member entries) := by
  induction entries using List.reverseRecOn with
  | nil =>
    have same : s.take member [] = s := by simp [State.take]
    exact ⟨[],same.symm ▸ .start⟩
  | append_singleton front entry ih =>
    rw [← List.append_assoc] at once inOrder
    have before : ordered early (s.taken member ++ front) <+: ordered early s.log := by
      rw [ordered_append] at inOrder
      exact (List.prefix_append ..).trans inOrder
    obtain ⟨acts,run⟩ := ih (List.nodup_append.mp once).1 (fun x mem => sent x (List.mem_append_left _ mem)) before
    have here : (s.take member front).taken member = s.taken member ++ front := Function.update_self ..
    refine ⟨acts ++ [.take member entry],?_⟩
    have join : s.take member (front ++ [entry]) = (s.take member front).take member [entry] := by
      simp [State.take,List.append_assoc]
    rw [join]
    refine run.next (.take _ member entry ⟨sent entry (by simp),?_,fun late => ?_⟩)
    · rw [here]
      exact fun old => (List.nodup_append.mp once).2.2 entry old entry (List.mem_singleton_self _) rfl
    · rw [here,← ordered_late late,← ordered_append]
      exact inOrder

end

end CdPraticas.Broadcast
