import Mathlib

/-!
# Programs of accesses

A program makes accesses to a shared state, one at a time, and may be
interrupted between any two of them. What it does without interruption is a
function of the state; what it does when others run in between is bounded by
what each access requires and by what it may return.
-/

namespace CdPraticas.Programs

universe u v w

/-- A program that ends with a result. The type of an access is that of what it returns. -/
inductive Program (Access : Type → Type u) (α : Type) : Type (max 1 u)
  | result (value : α)
  | make {β : Type} (access : Access β) (next : β → Program Access α)

variable {Access : Type → Type u} {α β : Type} {State : Type v} {World : Type w}

def Program.bind : Program Access α → (α → Program Access β) → Program Access β
  | .result value, next => next value
  | .make access rest, next => .make access fun returned => (rest returned).bind next

instance : Monad (Program Access) where
  pure := .result
  bind := .bind

/-- The program of one access. -/
def Program.single (access : Access α) : Program Access α := .make access .result

/-! ### Without interruption -/

/-- The state after a program that runs without interruption, and its result. -/
def Program.run (perform : {β : Type} → Access β → State → State × β) : Program Access α → State → State × α
  | .result value, s => (s,value)
  | .make access next, s => (next (perform access s).2).run perform (perform access s).1

section
variable (perform : {β : Type} → Access β → State → State × β) (s : State)

@[simp] theorem run_pure (value : α) : (pure value : Program Access α).run perform s = (s,value) := rfl
@[simp] theorem run_single (access : Access α) : (Program.single access).run perform s = perform access s := rfl
@[simp] theorem run_bind (program : Program Access α) (next : α → Program Access β) : (program >>= next).run perform s =
    (next (program.run perform s).2).run perform (program.run perform s).1 := by
  change (program.bind next).run perform s = _
  induction program generalizing s with
  | result value => rfl
  | make access rest ih => exact ih _ _
end

/-! ### With interruption -/

/-- What is known of the others: how the world may change, what an access needs,
    and what it may return. -/
structure Rely (Access : Type → Type u) (World : Type w) where
  later : World → World → Prop
  refl : ∀ world, later world world
  trans : ∀ {first second third}, later first second → later second third → later first third
  requires : World → {β : Type} → Access β → Prop
  returns : World → {β : Type} → Access β → β → Prop
  stays : ∀ {world after} {β : Type} {access : Access β}, later world after → requires world access →
    requires after access

/-- Every access that the program makes has what it needs, and the result has
    `goal`, whatever happens between the accesses. -/
def Program.Safe (rely : Rely Access World) (world : World) : Program Access α → (World → α → Prop) → Prop
  | .result value, goal => goal world value
  | .make access next, goal => rely.requires world access ∧
      ∀ after, rely.later world after → ∀ returned, rely.returns after access returned → (next returned).Safe rely after goal

section
variable {rely : Rely Access World} {world after : World} {program : Program Access α} {goal weaker : World → α → Prop}

/-- A safe program stays safe as the world changes. -/
theorem Program.Safe.later (safe : program.Safe rely world goal) (change : rely.later world after)
    (kept : ∀ value, goal world value → goal after value) : program.Safe rely after goal := by
  cases program with
  | result value => exact kept value safe
  | make access next =>
    exact ⟨rely.stays change safe.1,fun final change' => safe.2 final (rely.trans change change')⟩

theorem Program.Safe.single {access : Access α} (needs : rely.requires world access)
    (gives : ∀ after, rely.later world after → ∀ returned, rely.returns after access returned → goal after returned) :
    (Program.single access).Safe rely world goal := ⟨needs,gives⟩

theorem Program.Safe.bind {next : α → Program Access β} {final : World → β → Prop} (safe : program.Safe rely world goal)
    (rest : ∀ after, rely.later world after → ∀ value, goal after value → (next value).Safe rely after final) :
    (program >>= next).Safe rely world final := by
  change (program.bind next).Safe rely world final
  induction program generalizing world with
  | result value => exact rest world (rely.refl world) value safe
  | make access more ih =>
    refine ⟨safe.1,fun after change returned gives => ?_⟩
    exact ih returned (safe.2 after change returned gives) fun last change' =>
      rest last (rely.trans change change')
end

end CdPraticas.Programs
