import Mathlib

/-!
# Readers of one log

Everything sent is in one log, and each reader takes the entries up to a place of its
own. Some entries may be taken early, ahead of that place; the others are taken in the
order of the log. Whatever two readers took, the orders agree, and nothing is taken
twice.
-/

namespace CdPraticas.Logs

variable {α : Type*} {early : α → Bool} {log more history history' : List α} {place place' : ℕ} {x : α}

/-- The entries that must be taken in order. -/
def ordered (early : α → Bool) (entries : List α) : List α := entries.filter fun x => !early x

@[simp] theorem ordered_append (early : α → Bool) (entries more : List α) :
    ordered early (entries ++ more) = ordered early entries ++ ordered early more := List.filter_append ..

theorem ordered_early (isEarly : early x = true) : ordered early [x] = [] := by simp [ordered,isEarly]

theorem ordered_late (late : early x = false) : ordered early [x] = [x] := by simp [ordered,late]

theorem mem_ordered {entries : List α} : x ∈ ordered early entries ↔ x ∈ entries ∧ early x = false := by
  simp [ordered]

/-- A reader that is at `place` has taken `history`. -/
structure Reader (early : α → Bool) (log : List α) (place : ℕ) (history : List α) : Prop where
  inOrder : ordered early history = ordered early (log.take place)
  logged : ∀ x ∈ history, x ∈ log
  once : history.Nodup
  complete : ∀ x ∈ log.take place, x ∈ history

theorem reader_start (early : α → Bool) (log : List α) : Reader early log 0 [] :=
  ⟨by simp [ordered],by simp,List.nodup_nil,by simp⟩

theorem take_succ (found : log[place]? = some x) : log.take (place + 1) = log.take place ++ [x] := by
  rw [List.take_add_one,found]
  rfl

theorem not_mem_take (once : log.Nodup) (found : log[place]? = some x) : x ∉ log.take place := by
  intro mem
  obtain ⟨inside,rfl⟩ := List.getElem?_eq_some_iff.mp found
  obtain ⟨i,before,same⟩ := List.mem_take_iff_getElem.mp mem
  have := (once.getElem_inj_iff).mp same
  omega

/-- The entry at the place of the reader is taken. -/
theorem Reader.next (reader : Reader early log place history) (found : log[place]? = some x) (fresh : x ∉ history) :
    Reader early log (place + 1) (history ++ [x]) where
  inOrder := by rw [take_succ found,ordered_append,ordered_append,reader.inOrder]
  logged := by
    intro y mem
    rcases List.mem_append.mp mem with old | new
    · exact reader.logged y old
    · rw [List.mem_singleton.mp new]
      exact List.mem_of_getElem? found
  once := List.nodup_append.mpr ⟨reader.once,List.nodup_singleton x,by
    intro y old z new same
    exact fresh (List.mem_singleton.mp new ▸ same ▸ old)⟩
  complete := by
    intro y mem
    rw [take_succ found] at mem
    rcases List.mem_append.mp mem with before | here
    · exact List.mem_append_left _ (reader.complete y before)
    · exact List.mem_append_right _ here

/-- An entry that was taken before the reader came to it was taken early. -/
theorem Reader.takenEarly (reader : Reader early log place history) (once : log.Nodup) (found : log[place]? = some x)
    (taken : x ∈ history) : early x = true := by
  by_contra late
  have mine : x ∈ ordered early history := mem_ordered.mpr ⟨taken,by simpa using late⟩
  rw [reader.inOrder] at mine
  exact not_mem_take once found (mem_ordered.mp mine).1

theorem Reader.skip (reader : Reader early log place history) (once : log.Nodup) (found : log[place]? = some x)
    (taken : x ∈ history) : Reader early log (place + 1) history where
  inOrder := by
    rw [take_succ found,ordered_append,ordered_early (reader.takenEarly once found taken),List.append_nil,reader.inOrder]
  logged := reader.logged
  once := reader.once
  complete := by
    intro y mem
    rw [take_succ found] at mem
    rcases List.mem_append.mp mem with before | here
    · exact reader.complete y before
    · rw [List.mem_singleton.mp here]
      exact taken

/-- An entry is taken early. -/
theorem Reader.ahead (reader : Reader early log place history) (mem : x ∈ log) (isEarly : early x = true)
    (fresh : x ∉ history) : Reader early log place (history ++ [x]) where
  inOrder := by rw [ordered_append,ordered_early isEarly,List.append_nil,reader.inOrder]
  logged := by
    intro y taken
    rcases List.mem_append.mp taken with old | new
    · exact reader.logged y old
    · rw [List.mem_singleton.mp new]
      exact mem
  once := List.nodup_append.mpr ⟨reader.once,List.nodup_singleton x,by
    intro y old z new same
    exact fresh (List.mem_singleton.mp new ▸ same ▸ old)⟩
  complete y before := List.mem_append_left _ (reader.complete y before)

/-- The log grows behind the reader. -/
theorem Reader.append (reader : Reader early log place history) (more : List α) (inside : place ≤ log.length) :
    Reader early (log ++ more) place history where
  inOrder := by rw [List.take_append_of_le_length inside,reader.inOrder]
  logged x taken := List.mem_append_left _ (reader.logged x taken)
  once := reader.once
  complete := by
    rw [List.take_append_of_le_length inside]
    exact reader.complete

/-- What a reader took in order is a beginning of the log. -/
theorem Reader.prefix_log (reader : Reader early log place history) : ordered early history <+: ordered early log := by
  rw [reader.inOrder]
  exact (List.take_prefix place log).filter _

/-- A late entry was taken only if all late entries before it were. -/
theorem Reader.mem_iff (reader : Reader early log place history) (late : early x = false) :
    x ∈ history ↔ x ∈ log.take place := by
  constructor
  · intro taken
    have mine : x ∈ ordered early history := mem_ordered.mpr ⟨taken,late⟩
    rw [reader.inOrder] at mine
    exact (mem_ordered.mp mine).1
  · exact reader.complete x

/-- As a late entry was taken, all late entries before it were, and no others. -/
theorem Reader.before (reader : Reader early log place history) (unique : log.Nodup) {front back : List α} {i : ℕ}
    (split : history = front ++ x :: back) (late : early x = false) (found : log[i]? = some x) :
    ordered early front = ordered early (log.take i) := by
  obtain ⟨inside,here⟩ := List.getElem?_eq_some_iff.mp found
  have taken : x ∈ log.take place := (reader.mem_iff late).mp (by simp [split])
  obtain ⟨j,below,same⟩ := List.mem_take_iff_getElem.mp taken
  have within : i < place := by
    have := (unique.getElem_inj_iff).mp (same.trans here.symm)
    omega
  have parts : log.take place = log.take i ++ x :: (log.drop (i + 1)).take (place - (i + 1)) := by
    rw [List.append_cons,← take_succ found,← List.take_add,Nat.add_sub_cancel' within]
  have orders := reader.inOrder
  have apart := reader.once
  have listed := unique.sublist (List.take_sublist place log)
  rw [split] at orders apart
  rw [parts] at orders listed
  have cons (rest : List α) : ordered early (x :: rest) = x :: ordered early rest := by simp [ordered,late]
  rw [ordered_append,ordered_append,cons,cons] at orders
  rw [List.nodup_append,List.nodup_cons] at apart listed
  have fresh : x ∉ ordered early front := fun mem => apart.2.2 x (mem_ordered.mp mem).1 x (by simp) rfl
  have last : x ∉ ordered early back := fun mem => apart.2.1.1 (mem_ordered.mp mem).1
  exact ((List.append_cons_inj_of_notMem fresh last).mp orders).1

/-- At the end of the log, everything was taken once. -/
theorem Reader.perm (reader : Reader early log place history) (once : log.Nodup) (last : log.length ≤ place) :
    history.Perm log := by
  refine (List.perm_ext_iff_of_nodup reader.once once).mpr fun x => ⟨reader.logged x,fun mem => ?_⟩
  refine reader.complete x ?_
  rwa [List.take_of_length_le last]

end CdPraticas.Logs
