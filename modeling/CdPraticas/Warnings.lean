import CdPraticas.Runs

/-!
# Warnings on a toll road

Clients of the control service send warnings and observe those of all. The warnings
wait in a deque; the loop of `MessageBroadCast` takes one after another and hands it
to the observers of that moment, and an observer whose client is gone is dropped.
-/

namespace CdPraticas.Warnings
open Runs

structure WarnMsg where
  id : String
  warning : String
  deriving DecidableEq

/-- The loop's fields. The id of an observer is the number of the call of `warning` that
    registered it. `taken` lists the warnings that have been taken from the deque, and
    `received` what each observer has been handed; no step reads them. -/
structure State where
  messages : List WarnMsg
  clientsObservers : List Nat
  issued : Nat
  taken : List WarnMsg
  received : Nat → List WarnMsg

def State.initial : State := ⟨[],[],0,[],fun _ => []⟩

inductive Action
  | onNext (warnMsg : WarnMsg)
  | warning
  | onCompleted (observerId : Nat)
  /-- an iteration of the loop that finds a warning; `throws` are the observers whose
      `onNext` throws a `StatusRuntimeException` -/
  | broadcast (throws : Nat → Bool)
  /-- an iteration that finds none -/
  | idle

/-- The body of the loop over the observers. -/
def hand (throws : Nat → Bool) (warnMsg : WarnMsg) (s : State) (observer : Nat) : State :=
  if throws observer then { s with clientsObservers := s.clientsObservers.erase observer }
  else { s with received := Function.update s.received observer (s.received observer ++ [warnMsg]) }

def step : Action → State → Option State
  | .onNext warnMsg, s => some { s with messages := s.messages ++ [warnMsg] }
  | .warning, s => some { s with clientsObservers := s.clientsObservers ++ [s.issued], issued := s.issued + 1 }
  | .onCompleted observerId, s =>
    if observerId < s.issued then some { s with clientsObservers := s.clientsObservers.erase observerId } else none
  | .broadcast throws, s =>
    match s.messages with
    | warnMsg :: rest =>
      some (s.clientsObservers.foldl (hand throws warnMsg) { s with messages := rest, taken := s.taken ++ [warnMsg] })
    | [] => none
  | .idle, s => if s.messages = [] then some s else none

/-- The warnings that arrive, in order. -/
def queued (acts : List Action) : List WarnMsg :=
  acts.filterMap fun
    | .onNext warnMsg => some warnMsg
    | _ => none

/-- How many warnings are taken, -/
def takes (acts : List Action) : Nat :=
  acts.countP fun
    | .broadcast _ => true
    | _ => false

/-- and how many observers registered. -/
def registered (acts : List Action) : Nat :=
  acts.countP fun
    | .warning => true
    | _ => false

/-- The observer stays registered: it does not complete, and what it is handed does not
    throw. -/
def stays (observer : Nat) : Action → Bool
  | .onCompleted observerId => observerId ≠ observer
  | .broadcast throws => ! throws observer
  | _ => true

/-! ### The loop over the observers -/

section
variable (throws : Nat → Bool) (warnMsg : WarnMsg)

theorem hand_same (s : State) (observer : Nat) : (hand throws warnMsg s observer).messages = s.messages ∧
    (hand throws warnMsg s observer).issued = s.issued ∧ (hand throws warnMsg s observer).taken = s.taken := by
  unfold hand
  split_ifs <;> exact ⟨rfl,rfl,rfl⟩

theorem handed_same (observers : List Nat) (s : State) : (observers.foldl (hand throws warnMsg) s).messages = s.messages ∧
    (observers.foldl (hand throws warnMsg) s).issued = s.issued ∧ (observers.foldl (hand throws warnMsg) s).taken = s.taken := by
  induction observers generalizing s with
  | nil => exact ⟨rfl,rfl,rfl⟩
  | cons observer rest ih =>
    obtain ⟨messages,issued,taken⟩ := hand_same throws warnMsg s observer
    rw [← messages,← issued,← taken]
    exact ih _

/-- Those that throw are dropped, and nobody else. -/
theorem handed_observers (observers : List Nat) (s : State) (distinct : s.clientsObservers.Nodup) :
    (observers.foldl (hand throws warnMsg) s).clientsObservers.Nodup ∧
      ∀ observer, observer ∈ (observers.foldl (hand throws warnMsg) s).clientsObservers ↔
        observer ∈ s.clientsObservers ∧ ¬ (observer ∈ observers ∧ throws observer = true) := by
  induction observers generalizing s with
  | nil => exact ⟨distinct,by simp⟩
  | cons first rest ih =>
    rw [List.foldl_cons]
    by_cases fails : throws first = true
    · have dropped : hand throws warnMsg s first = { s with clientsObservers := s.clientsObservers.erase first } := if_pos fails
      obtain ⟨kept,left⟩ := ih (hand throws warnMsg s first) (by rw [dropped]; exact distinct.erase first)
      refine ⟨kept,fun observer => ?_⟩
      rw [left observer,dropped]
      by_cases same : observer = first
      · simp [same,fails,distinct.mem_erase_iff]
      · simp [same,distinct.mem_erase_iff]
    · have handed : (hand throws warnMsg s first).clientsObservers = s.clientsObservers := by
        unfold hand
        rw [if_neg fails]
      obtain ⟨kept,left⟩ := ih (hand throws warnMsg s first) (by rw [handed]; exact distinct)
      refine ⟨kept,fun observer => ?_⟩
      rw [left observer,handed]
      by_cases same : observer = first
      · simp [same,fails]
      · simp [same]

/-- The others are handed the warning once. -/
theorem handed_received (observers : List Nat) (distinct : observers.Nodup) (s : State) (observer : Nat) :
    (observers.foldl (hand throws warnMsg) s).received observer =
      if observer ∈ observers ∧ throws observer = false then s.received observer ++ [warnMsg] else s.received observer := by
  induction observers generalizing s with
  | nil => simp
  | cons first rest ih =>
    obtain ⟨other,distinct⟩ := List.nodup_cons.mp distinct
    rw [List.foldl_cons,ih distinct]
    by_cases same : observer = first
    · subst same
      cases fails : throws observer <;> simp [hand,fails,other]
    · cases fails : throws first <;> simp [hand,fails,same]

end

/-! ### Runs -/

@[simp] theorem takes_append (acts more : List Action) : takes (acts ++ more) = takes acts + takes more := List.countP_append
@[simp] theorem registered_append (acts more : List Action) : registered (acts ++ more) = registered acts + registered more :=
  List.countP_append
@[simp] theorem queued_append (acts more : List Action) : queued (acts ++ more) = queued acts ++ queued more := List.filterMap_append ..

/-- What the observer that registers between the two has been handed: of the warnings
    taken since then, those taken before it completed or threw. -/
structure Served (s : State) (front back : List Action) : Prop where
  received : s.received (registered front) = (s.taken.drop (takes front)).take (takes (back.takeWhile (stays (registered front))))
  present : registered front ∈ s.clientsObservers ↔ ∀ a ∈ back, stays (registered front) a = true

/-- One step more: the observer is handed what is taken, if it is registered and stays. -/
theorem Served.snoc {s t : State} {front back : List Action} {a : Action} {new : List WarnMsg} (served : Served s front back)
    (size : s.taken.length = takes front + takes back) (taken : t.taken = s.taken ++ new) (one : new.length = takes [a])
    (observers : registered front ∈ t.clientsObservers ↔
      registered front ∈ s.clientsObservers ∧ stays (registered front) a = true)
    (received : t.received (registered front) =
      if registered front ∈ s.clientsObservers ∧ stays (registered front) a = true then s.received (registered front) ++ new
      else s.received (registered front)) : Served t front (back ++ [a]) := by
  have since : (s.taken.drop (takes front)).length = takes back := by
    rw [List.length_drop]
    omega
  have later : t.taken.drop (takes front) = s.taken.drop (takes front) ++ new := by
    rw [taken,List.drop_append_of_le_length (by omega)]
  constructor
  · rw [received,served.received,later]
    by_cases present : registered front ∈ s.clientsObservers
    · have all := served.present.mp present
      have whole : back.takeWhile (stays (registered front)) = back := List.takeWhile_eq_self_iff.mpr all
      rw [List.takeWhile_append_of_pos all,whole,takes_append,← since,List.take_length]
      cases staying : stays (registered front) a with
      | true =>
        have last : [a].takeWhile (stays (registered front)) = [a] := by simp [staying]
        rw [if_pos ⟨present,rfl⟩,last,← one,← List.length_append,List.take_length]
      | false =>
        have last : [a].takeWhile (stays (registered front)) = [] := by simp [staying]
        rw [if_neg (by simp),last]
        exact (List.take_left' rfl).symm
    · have some : ¬ ∀ a ∈ back, stays (registered front) a = true := fun all => present (served.present.mpr all)
      have shorter : (back.takeWhile (stays (registered front))).length ≠ back.length :=
        fun same => some (List.takeWhile_eq_self_iff.mp (List.takeWhile_prefix _ |>.eq_of_length same))
      have within : takes (back.takeWhile (stays (registered front))) ≤ takes back :=
        (List.takeWhile_sublist _).countP_le
      rw [if_neg (fun both => present both.1),List.takeWhile_append,if_neg shorter,
        List.take_append_of_le_length (by omega)]
  · rw [observers,served.present]
    simp [or_imp,forall_and]

structure Books (acts : List Action) (s : State) : Prop where
  queue : s.taken ++ s.messages = queued acts
  taken : s.taken.length = takes acts
  issued : s.issued = registered acts
  distinct : s.clientsObservers.Nodup
  known : ∀ observer ∈ s.clientsObservers, observer < s.issued
  unknown : ∀ observer, s.issued ≤ observer → s.received observer = []
  served : ∀ front back, acts = front ++ .warning :: back → Served s front back

theorem books_initial : Books [] .initial where
  queue := rfl
  taken := rfl
  issued := rfl
  distinct := List.nodup_nil
  known _ none := by cases none
  unknown _ _ := rfl
  served front back whole := by simp at whole

/-- The last action comes after a registration, or is it. -/
theorem snoc_cases {acts front back : List Action} {a : Action} (whole : acts ++ [a] = front ++ .warning :: back) :
    (∃ rest, back = rest ++ [a] ∧ acts = front ++ .warning :: rest) ∨ back = [] ∧ a = .warning ∧ acts = front := by
  rcases List.eq_nil_or_concat back with rfl | ⟨rest,last,rfl⟩
  · obtain ⟨same,lastSame⟩ := List.append_inj' whole rfl
    cases lastSame
    exact .inr ⟨rfl,rfl,same⟩
  · rw [List.concat_eq_append,← List.cons_append,← List.append_assoc] at whole
    obtain ⟨same,lastSame⟩ := List.append_inj' whole rfl
    cases lastSame
    exact .inl ⟨rest,List.concat_eq_append,same⟩

section
variable {acts : List Action} {s t : State} {a : Action}

/-- A step takes the warnings `new` and hands them to the observers that stay. -/
theorem Books.next (books : Books acts s) (new : List WarnMsg) (one : new.length = takes [a]) (taken : t.taken = s.taken ++ new)
    (queue : new ++ t.messages = s.messages ++ queued [a]) (issued : t.issued = s.issued + registered [a])
    (distinct : t.clientsObservers.Nodup) (known : ∀ observer ∈ t.clientsObservers, observer < t.issued)
    (observers : ∀ observer < s.issued, observer ∈ t.clientsObservers ↔ observer ∈ s.clientsObservers ∧ stays observer a = true)
    (received : ∀ observer, t.received observer =
      if observer ∈ s.clientsObservers ∧ stays observer a = true then s.received observer ++ new else s.received observer)
    (fresh : a = .warning → s.issued ∈ t.clientsObservers) : Books (acts ++ [a]) t where
  queue := by rw [taken,List.append_assoc,queue,← List.append_assoc,books.queue,queued_append]
  taken := by rw [taken,List.length_append,books.taken,one,takes_append]
  issued := by rw [issued,books.issued,registered_append]
  distinct := distinct
  known := known
  unknown observer above := by
    have absent : observer ∉ s.clientsObservers := fun inside => by
      have below := books.known observer inside
      omega
    rw [received,if_neg (fun both => absent both.1)]
    exact books.unknown observer (by omega)
  served front back whole := by
    rcases snoc_cases whole with ⟨rest,rfl,rfl⟩ | ⟨rfl,rfl,rfl⟩
    · have size : s.taken.length = takes front + takes rest := by
        rw [books.taken]
        simp [takes]
      have earlier : registered front < s.issued := by
        rw [books.issued]
        simp [registered]
      exact (books.served front rest rfl).snoc size taken one (observers _ earlier) (received _)
    · have absent : registered acts ∉ s.clientsObservers := fun inside => by
        have below := books.known _ inside
        rw [books.issued] at below
        exact lt_irrefl _ below
      constructor
      · rw [received,if_neg (fun both => absent both.1)]
        exact books.unknown _ books.issued.le
      · exact iff_of_true (books.issued ▸ fresh rfl) (by simp)

theorem Books.step (books : Books acts s) (move : Warnings.step a s = some t) : Books (acts ++ [a]) t := by
  cases a with
  | onNext warnMsg =>
    cases move
    exact books.next [] rfl (List.append_nil _).symm rfl rfl books.distinct books.known (by simp [stays]) (by simp) (by simp)
  | idle =>
    simp only [Warnings.step] at move
    split_ifs at move with empty
    cases move
    exact books.next [] rfl (List.append_nil _).symm (by simp [queued]) rfl books.distinct books.known (by simp [stays])
      (by simp) (by simp)
  | warning =>
    cases move
    have absent : s.issued ∉ s.clientsObservers := fun inside => lt_irrefl _ (books.known _ inside)
    refine books.next [] rfl (List.append_nil _).symm (by simp [queued]) rfl ?_ ?_ ?_ (by simp) (by simp)
    · exact books.distinct.append (List.nodup_singleton _) (List.disjoint_singleton.mpr absent)
    · intro observer inside
      rcases List.mem_append.mp inside with old | new
      · exact Nat.lt_succ_of_lt (books.known observer old)
      · rw [List.mem_singleton.mp new]
        exact Nat.lt_succ_self _
    · intro observer below
      simp [stays,below.ne]
  | onCompleted observerId =>
    simp only [Warnings.step] at move
    split_ifs at move
    cases move
    refine books.next [] rfl (List.append_nil _).symm (by simp [queued]) rfl (books.distinct.erase _) ?_ ?_ (by simp) (by simp)
    · exact fun observer inside => books.known observer (List.mem_of_mem_erase inside)
    · intro observer _
      have other : stays observer (.onCompleted observerId) = true ↔ observer ≠ observerId := by
        rw [stays,decide_eq_true_eq]
        exact ne_comm
      rw [books.distinct.mem_erase_iff,other]
      exact and_comm
  | broadcast throws =>
    simp only [Warnings.step] at move
    split at move
    case h_2 => cases move
    next warnMsg rest waiting =>
    obtain ⟨messages,issued,taken⟩ := handed_same throws warnMsg s.clientsObservers
      { s with messages := rest, taken := s.taken ++ [warnMsg] }
    obtain ⟨distinct,left⟩ := handed_observers throws warnMsg s.clientsObservers
      { s with messages := rest, taken := s.taken ++ [warnMsg] } books.distinct
    cases move
    refine books.next [warnMsg] rfl taken ?_ issued distinct ?_ ?_ ?_ (by simp)
    · rw [messages,waiting]
      simp [queued]
    · intro observer inside
      rw [issued]
      exact books.known observer ((left observer).mp inside).1
    · intro observer _
      rw [left observer]
      cases fails : throws observer <;> simp [stays,fails]
    · intro observer
      rw [handed_received throws warnMsg s.clientsObservers books.distinct]
      simp [stays]

end

/-- In every run, whatever the order of its steps: the warnings are taken in the order
    they arrive, and each observer is handed exactly those taken since it registered, once
    each and in that order, until it completes or one throws. Nothing else drops it. -/
theorem broadcast_in_order (acts : List Action) (s : State) (run : Run (Steps step) .initial acts s) :
    s.taken ++ s.messages = queued acts ∧ s.taken.length = takes acts ∧
      ∀ front back, acts = front ++ .warning :: back → Served s front back := by
  have books : Books acts s := run.invariant books_initial fun acts s a t _ books move => books.step move
  exact ⟨books.queue,books.taken,books.served⟩

/-- Two observers, of which the second is gone when the first warning is handed out. -/
def oneGone : List Action :=
  [.warning,.warning,.onNext ⟨"1","ice"⟩,.onNext ⟨"1","fog"⟩,.broadcast fun observer => observer == 1,.broadcast fun _ => false]

theorem broadcast_in_order_oneGone :
    ∃ s, Run (Steps step) .initial oneGone s ∧ s.received 0 = [⟨"1","ice"⟩,⟨"1","fog"⟩] ∧ s.received 1 = [] := by
  have run := run_endOf step .initial oneGone (by decide)
  obtain ⟨_,_,served⟩ := broadcast_in_order oneGone _ run
  have taken : (endOf step .initial oneGone).taken = [⟨"1","ice"⟩,⟨"1","fog"⟩] := by decide
  have first := (served [] (oneGone.drop 1) rfl).received
  have second := (served [.warning] (oneGone.drop 2) rfl).received
  rw [taken] at first second
  exact ⟨_,run,first,second⟩

end CdPraticas.Warnings
