import CdPraticas.Runs

/-!
# Trips on a toll road

`enter` and `leave` of the control service of a road. A leave looks the entry of the
vehicle up, has the central service charge it, and removes what the vehicle has in
the map then. Calls of other threads can come in between.
-/

namespace CdPraticas.Tolls
open Runs

structure Initial where
  id : String
  inPoint : Int
  deriving DecidableEq

structure FinalPoint where
  id : String
  outPoint : Int
  deriving DecidableEq

/-- What the central service charges for. -/
structure Track where
  group : Int
  inPoint : Int
  outPoint : Int
  deriving DecidableEq

/-- An entry of the map, with the number of the call of `enter` that made it. -/
structure Entry where
  request : Initial
  number : Nat
  deriving DecidableEq

/-- Where a leave that has found an entry stands. The value of the tariff is known by
    its bits. -/
inductive Phase
  | lookedUp
  | paid (value : UInt32)
  /-- the answer to the client threw, and nothing was removed -/
  | thrown
  | ended
  deriving DecidableEq

structure Leave where
  request : FinalPoint
  initialPoint : Entry
  phase : Phase
  deriving DecidableEq

/-- A successful payment: the entry and what was charged for it. -/
structure Charge where
  entry : Entry
  track : Track
  value : UInt32
  deriving DecidableEq

/-- `entered` counts the calls of `enter`, and `charges` lists the successful payments.
    No step reads the charges. -/
structure State where
  veiculosEstrada : String → Option Entry
  leaves : Nat → Option Leave
  entered : Nat
  charges : List Charge

def State.initial : State := ⟨fun _ => none,fun _ => none,0,[]⟩

inductive Action
  | enter (request : Initial)
  /-- leave `i` comes in and looks its vehicle up -/
  | lookUp (i : Nat) (request : FinalPoint)
  /-- `tariff` is none when the payment ends with a `StatusRuntimeException` -/
  | payment (i : Nat) (tariff : Option UInt32)
  /-- the answer to the client and the removal; the answer throws when the client is gone -/
  | remove (i : Nat) (answered : Bool)

def Leave.goto (leave : Leave) (phase : Phase) : Leave := { leave with phase := phase }
def State.put (s : State) (i : Nat) (leave : Leave) : State := { s with leaves := Function.update s.leaves i (some leave) }

def track (groupId : Int) (leave : Leave) : Track := ⟨groupId,leave.initialPoint.request.inPoint,leave.request.outPoint⟩

def step (groupId : Int) : Action → State → Option State
  | .enter request, s =>
    some { s with veiculosEstrada := Function.update s.veiculosEstrada request.id (some ⟨request,s.entered⟩)
                  entered := s.entered + 1 }
  | .lookUp i request, s =>
    if s.leaves i = none then
      match s.veiculosEstrada request.id with
      | some initialPoint => some (s.put i ⟨request,initialPoint,.lookedUp⟩)
      -- "No car": the call ends.
      | none => some s
    else none
  | .payment i tariff, s =>
    match s.leaves i with
    | some leave =>
      if leave.phase = .lookedUp then
        match tariff with
        | some value =>
          some { s.put i (leave.goto (.paid value)) with
                 charges := s.charges ++ [⟨leave.initialPoint,track groupId leave,value⟩] }
        | none => some (s.put i (leave.goto .ended))
      else none
    | none => none
  | .remove i answered, s =>
    match s.leaves i with
    | some leave =>
      match leave.phase with
      | .paid _ =>
        if answered then
          -- Without an id the call has been closed with an error before, and the answer throws.
          if leave.request.id.isEmpty then none
          else some { s.put i (leave.goto .ended) with
                      veiculosEstrada := Function.update s.veiculosEstrada leave.request.id none }
        else some (s.put i (leave.goto .thrown))
      | _ => none
    | none => none

/-- No entry is charged twice, and what a paid leave is about to remove is the entry
    that it has looked up, if there is one. -/
structure Fair (s : State) : Prop where
  once : (s.charges.map Charge.entry).Nodup
  own : ∀ i leave value found, s.leaves i = some leave → leave.phase = .paid value →
    s.veiculosEstrada leave.request.id = some found → found = leave.initialPoint

/-- The leave has been paid for, and its entry has not been removed. -/
def Phase.Charged : Phase → Prop
  | .paid _ | .thrown => True
  | _ => False

/-- A payment succeeds only for an entry that is still in the map and that no other
    leave has been paid for, and a vehicle does not enter between the payment of a leave of
    it and the removal. -/
def Orderly (s : State) : Action → Prop
  | .payment i (some _) => ∀ leave, s.leaves i = some leave →
      s.veiculosEstrada leave.request.id = some leave.initialPoint ∧
        ∀ j other, s.leaves j = some other → other.initialPoint = leave.initialPoint → ¬ other.phase.Charged
  | .enter request => ∀ i leave value, s.leaves i = some leave → leave.phase = .paid value → leave.request.id ≠ request.id
  | _ => True

/-- What holds in an orderly run. -/
structure Tidy (s : State) : Prop where
  recorded : ∀ id entry, s.veiculosEstrada id = some entry → entry.request.id = id ∧ entry.number < s.entered
  found : ∀ i leave, s.leaves i = some leave → leave.initialPoint.request.id = leave.request.id ∧ leave.initialPoint.number < s.entered
  paid : ∀ i leave value, s.leaves i = some leave → leave.phase = .paid value →
    s.veiculosEstrada leave.request.id = some leave.initialPoint
  alone : ∀ i j leave other, s.leaves i = some leave → s.leaves j = some other → leave.phase.Charged → other.phase.Charged →
    leave.initialPoint = other.initialPoint → i = j
  once : (s.charges.map Charge.entry).Nodup
  charged : ∀ charge ∈ s.charges, charge.entry.number < s.entered ∧
    ((∀ id, s.veiculosEstrada id ≠ some charge.entry) ∨
      ∃ i leave, s.leaves i = some leave ∧ leave.phase.Charged ∧ leave.initialPoint = charge.entry)

theorem Tidy.fair {s : State} (tidy : Tidy s) : Fair s where
  once := tidy.once
  own i leave value found here phase stored := by
    have recorded := tidy.paid i leave value here phase
    rw [stored] at recorded
    exact Option.some.inj recorded

theorem tidy_initial : Tidy .initial where
  recorded _ _ none := by cases none
  found _ _ none := by cases none
  paid _ _ _ none := by cases none
  alone _ _ _ _ none := by cases none
  once := List.nodup_nil
  charged _ inside := by cases inside

section
variable {groupId : Int} {s t : State}

theorem put_cases {i j : Nat} {leave found : Leave} (here : (s.put i leave).leaves j = some found) :
    j = i ∧ found = leave ∨ j ≠ i ∧ s.leaves j = some found := by
  by_cases same : j = i
  · subst same
    simp only [State.put,Function.update_self,Option.some.injEq] at here
    exact .inl ⟨rfl,here.symm⟩
  · simp only [State.put,Function.update_of_ne same] at here
    exact .inr ⟨same,here⟩

theorem put_other {i j : Nat} {leave found : Leave} (different : j ≠ i) (here : s.leaves j = some found) :
    (s.put i leave).leaves j = some found := (Function.update_of_ne different ..).trans here

theorem Tidy.enter {request : Initial} (tidy : Tidy s) (orderly : Orderly s (.enter request))
    (move : step groupId (.enter request) s = some t) : Tidy t := by
  cases move
  refine ⟨?_,?_,?_,tidy.alone,tidy.once,?_⟩
  · intro id entry stored
    by_cases same : id = request.id
    · subst same
      cases (Function.update_self ..).symm.trans stored
      exact ⟨rfl,Nat.lt_succ_self _⟩
    · obtain ⟨own,before⟩ := tidy.recorded id entry ((Function.update_of_ne same ..).symm.trans stored)
      exact ⟨own,Nat.lt_succ_of_lt before⟩
  · intro i leave here
    obtain ⟨own,before⟩ := tidy.found i leave here
    exact ⟨own,Nat.lt_succ_of_lt before⟩
  · intro i leave value here phase
    have different := orderly i leave value here phase
    exact (Function.update_of_ne different ..).trans (tidy.paid i leave value here phase)
  · intro charge inside
    obtain ⟨before,gone | pending⟩ := tidy.charged charge inside
    · refine ⟨Nat.lt_succ_of_lt before,.inl fun id stored => ?_⟩
      by_cases same : id = request.id
      · subst same
        -- The new entry has a number that none has had before.
        simp only [Function.update_self,Option.some.injEq] at stored
        rw [← stored] at before
        exact lt_irrefl _ before
      · exact gone id ((Function.update_of_ne same ..).symm.trans stored)
    · exact ⟨Nat.lt_succ_of_lt before,.inr pending⟩

theorem Tidy.lookUp {i : Nat} {request : FinalPoint} (tidy : Tidy s) (move : step groupId (.lookUp i request) s = some t) :
    Tidy t := by
  simp only [step] at move
  split at move
  case isFalse => cases move
  next new =>
  split at move <;> cases move
  · next initialPoint stored =>
    refine ⟨tidy.recorded,?_,?_,?_,tidy.once,?_⟩
    · intro j leave here
      rcases put_cases here with ⟨_,rfl⟩ | ⟨_,earlier⟩
      · exact tidy.recorded _ _ stored
      · exact tidy.found j leave earlier
    · intro j leave value here phase
      rcases put_cases here with ⟨_,rfl⟩ | ⟨_,earlier⟩
      · cases phase
      · exact tidy.paid j leave value earlier phase
    · intro j k leave other here there charged charged' same
      rcases put_cases here with ⟨_,rfl⟩ | ⟨_,earlier⟩
      · cases charged
      rcases put_cases there with ⟨_,rfl⟩ | ⟨_,earlier'⟩
      · cases charged'
      exact tidy.alone j k leave other earlier earlier' charged charged' same
    · intro charge inside
      refine (tidy.charged charge inside).imp_right (Or.imp_right ?_)
      rintro ⟨j,leave,here,rest⟩
      have different : j ≠ i := by
        rintro rfl
        cases new.symm.trans here
      exact ⟨j,leave,put_other different here,rest⟩
  · exact tidy

/-- A leave that goes on, paid for or not as before, and not about to remove. -/
theorem Tidy.goto {i : Nat} {leave : Leave} {phase : Phase} (tidy : Tidy s) (here : s.leaves i = some leave)
    (charged : phase.Charged ↔ leave.phase.Charged) (past : ∀ value, phase ≠ .paid value) : Tidy (s.put i (leave.goto phase)) := by
  -- What is charged after the step was charged before, with the same entry.
  have before {j : Nat} {found : Leave} (there : (s.put i (leave.goto phase)).leaves j = some found) (pays : found.phase.Charged) :
      ∃ earlier, s.leaves j = some earlier ∧ earlier.phase.Charged ∧ earlier.initialPoint = found.initialPoint := by
    rcases put_cases there with ⟨rfl,rfl⟩ | ⟨_,earlier⟩
    · exact ⟨leave,here,charged.mp pays,rfl⟩
    · exact ⟨found,earlier,pays,rfl⟩
  refine ⟨tidy.recorded,?_,?_,?_,tidy.once,?_⟩
  · intro j found there
    rcases put_cases there with ⟨_,rfl⟩ | ⟨_,earlier⟩
    · exact tidy.found i leave here
    · exact tidy.found j found earlier
  · intro j found value there paid
    rcases put_cases there with ⟨_,rfl⟩ | ⟨_,earlier⟩
    · exact absurd paid (past value)
    · exact tidy.paid j found value earlier paid
  · intro j k found other there there' pays pays' same
    obtain ⟨earlier,at_,pays,entry⟩ := before there pays
    obtain ⟨earlier',at_',pays',entry'⟩ := before there' pays'
    exact tidy.alone j k earlier earlier' at_ at_' pays pays' (by rw [entry,entry',same])
  · intro charge inside
    refine (tidy.charged charge inside).imp_right (Or.imp_right ?_)
    rintro ⟨j,found,there,pays,entry⟩
    by_cases same : j = i
    · subst same
      cases here.symm.trans there
      exact ⟨j,_,Function.update_self ..,charged.mpr pays,entry⟩
    · exact ⟨j,found,put_other same there,pays,entry⟩

theorem Tidy.payment {i : Nat} {tariff : Option UInt32} (tidy : Tidy s) (orderly : Orderly s (.payment i tariff))
    (move : step groupId (.payment i tariff) s = some t) : Tidy t := by
  simp only [step] at move
  split at move
  case h_2 => cases move
  next leave here =>
  split at move
  case isFalse => cases move
  next phase =>
  have waits : ¬ leave.phase.Charged := by
    rw [phase]
    exact id
  split at move <;> cases move
  · next value =>
    obtain ⟨stored,unpaid⟩ := orderly leave here
    refine ⟨tidy.recorded,?_,?_,?_,?_,?_⟩
    · intro j found there
      rcases put_cases there with ⟨_,rfl⟩ | ⟨_,earlier⟩
      · exact tidy.found i leave here
      · exact tidy.found j found earlier
    · intro j found value there paid
      rcases put_cases there with ⟨_,rfl⟩ | ⟨_,earlier⟩
      · exact stored
      · exact tidy.paid j found value earlier paid
    · intro j k found other there there' charged charged' same
      rcases put_cases there with ⟨rfl,rfl⟩ | ⟨_,earlier⟩ <;> rcases put_cases there' with ⟨rfl,rfl⟩ | ⟨_,earlier'⟩
      · rfl
      · exact absurd charged' (unpaid k other earlier' same.symm)
      · exact absurd charged (unpaid j found earlier same)
      · exact tidy.alone j k found other earlier earlier' charged charged' same
    · rw [List.map_append]
      refine tidy.once.append (List.nodup_singleton _) ?_
      rw [List.map_singleton,List.disjoint_singleton]
      intro inside
      obtain ⟨charge,earlier,same⟩ := List.mem_map.mp inside
      rcases (tidy.charged charge earlier).2 with gone | ⟨j,other,there,charged,entry⟩
      · exact gone _ (by rw [same]; exact stored)
      · exact unpaid j other there (by rw [entry,same]) charged
    · intro charge inside
      rcases List.mem_append.mp inside with old | new
      · refine (tidy.charged charge old).imp_right (Or.imp_right ?_)
        rintro ⟨j,found,there,charged,rest⟩
        have different : j ≠ i := by
          rintro rfl
          cases here.symm.trans there
          exact waits charged
        exact ⟨j,found,put_other different there,charged,rest⟩
      · rw [List.mem_singleton.mp new]
        exact ⟨(tidy.found i leave here).2,.inr ⟨i,_,Function.update_self ..,trivial,rfl⟩⟩
  · exact tidy.goto here (iff_of_false id waits) (by simp)

theorem Tidy.remove {i : Nat} {answered : Bool} (tidy : Tidy s) (move : step groupId (.remove i answered) s = some t) : Tidy t := by
  simp only [step] at move
  split at move
  case h_2 => cases move
  next leave here =>
  split at move
  case h_2 => cases move
  next value phase =>
  have pays : leave.phase.Charged := by
    rw [phase]
    trivial
  split_ifs at move <;> cases move
  · have stored := tidy.paid i leave value here phase
    have removed {id : String} {entry : Entry} (there : Function.update s.veiculosEstrada leave.request.id none id = some entry) :
        id ≠ leave.request.id ∧ s.veiculosEstrada id = some entry := by
      by_cases same : id = leave.request.id
      · subst same
        cases (Function.update_self ..).symm.trans there
      · exact ⟨same,(Function.update_of_ne same ..).symm.trans there⟩
    -- No other leave that is paid for has the entry, nor the vehicle.
    have alone {j : Nat} {other : Leave} (different : j ≠ i) (there : s.leaves j = some other) (charged : other.phase.Charged) :
        other.initialPoint ≠ leave.initialPoint :=
      fun same => different (tidy.alone j i other leave there here charged pays same)
    refine ⟨?_,?_,?_,?_,tidy.once,?_⟩
    · intro id entry there
      exact tidy.recorded id entry (removed there).2
    · intro j found there
      rcases put_cases there with ⟨_,rfl⟩ | ⟨_,earlier⟩
      · exact tidy.found i leave here
      · exact tidy.found j found earlier
    · intro j found value there paid
      rcases put_cases there with ⟨_,rfl⟩ | ⟨different,earlier⟩
      · cases paid
      · have kept := tidy.paid j found value earlier paid
        have charged : found.phase.Charged := by
          rw [paid]
          trivial
        have elsewhere : found.request.id ≠ leave.request.id := by
          intro same
          rw [same,stored] at kept
          exact alone different earlier charged (Option.some.inj kept).symm
        exact (Function.update_of_ne elsewhere ..).trans kept
    · intro j k found other there there' charged charged' same
      rcases put_cases there with ⟨_,rfl⟩ | ⟨_,earlier⟩
      · cases charged
      rcases put_cases there' with ⟨_,rfl⟩ | ⟨_,earlier'⟩
      · cases charged'
      exact tidy.alone j k found other earlier earlier' charged charged' same
    · intro charge inside
      refine (tidy.charged charge inside).imp_right ?_
      rintro (gone | ⟨j,found,there,charged,entry⟩)
      · exact .inl fun id kept => gone id (removed kept).2
      · by_cases same : j = i
        · subst same
          cases here.symm.trans there
          refine .inl fun id kept => ?_
          obtain ⟨different,kept⟩ := removed kept
          rw [← entry] at kept
          exact different ((tidy.recorded id _ kept).1.symm.trans (tidy.found j leave here).1)
        · exact .inr ⟨j,found,put_other same there,charged,entry⟩
  · exact tidy.goto here (iff_of_true trivial pays) (by simp)

theorem Tidy.step {a : Action} (tidy : Tidy s) (orderly : Orderly s a) (move : Tolls.step groupId a s = some t) : Tidy t := by
  cases a with
  | enter request => exact tidy.enter orderly move
  | lookUp i request => exact tidy.lookUp move
  | payment i tariff => exact tidy.payment orderly move
  | remove i answered => exact tidy.remove move

end

/-- In every orderly run every entry is charged at most once, and every removal takes
    the entry that its leave has looked up. -/
theorem charged_once (groupId : Int) (acts : List Action) (s : State)
    (run : Run (Restrict Orderly (Steps (step groupId))) .initial acts s) : Fair s :=
  (run.always tidy_initial fun _ _ _ tidy move => tidy.step move.1 move.2).fair

instance : DecidablePred Phase.Charged
  | .paid _ | .thrown => isTrue trivial
  | .lookedUp | .ended => isFalse id

/-- A stronger condition that can be computed, for runs of `bound` leaves. -/
def OrderlyBelow (bound : Nat) (s : State) : Action → Prop
  | .lookUp i _ => i < bound
  | .payment i (some _) => ∀ leave ∈ s.leaves i, s.veiculosEstrada leave.request.id = some leave.initialPoint ∧
      ∀ j ∈ List.range bound, ∀ other ∈ s.leaves j, other.initialPoint = leave.initialPoint → ¬ other.phase.Charged
  | .enter request => ∀ i ∈ List.range bound, ∀ leave ∈ s.leaves i, leave.phase.Charged → leave.request.id ≠ request.id
  | _ => True

instance (bound : Nat) (s : State) : DecidablePred (OrderlyBelow bound s)
  | .lookUp i _ => inferInstanceAs (Decidable (i < bound))
  | .payment i (some _) =>
    inferInstanceAs (Decidable (∀ leave ∈ s.leaves i, _ ∧ ∀ j ∈ List.range bound, ∀ other ∈ s.leaves j, _ → ¬ _))
  | .enter _ => inferInstanceAs (Decidable (∀ i ∈ List.range bound, ∀ leave ∈ s.leaves i, _))
  | .payment _ none | .remove _ _ => isTrue trivial

section
variable {bound : Nat} {groupId : Int} {s t : State} {a : Action}

/-- There are no other leaves. -/
theorem below_step (below : ∀ i, bound ≤ i → s.leaves i = none) (checked : OrderlyBelow bound s a)
    (move : Tolls.step groupId a s = some t) : ∀ i, bound ≤ i → t.leaves i = none := by
  intro i large
  have before := below i large
  have kept {j : Nat} {leave : Leave} (other : j ≠ i) : (s.put j leave).leaves i = none :=
    (Function.update_of_ne (Ne.symm other) ..).trans before
  cases a with
  | enter request =>
    cases move
    exact before
  | lookUp j request =>
    have small : j < bound := checked
    simp only [Tolls.step] at move
    split at move
    · split at move <;> cases move
      · exact kept (by omega)
      · exact before
    · cases move
  | payment j tariff =>
    simp only [Tolls.step] at move
    split at move
    next leave found =>
      have other : j ≠ i := by
        rintro rfl
        cases before.symm.trans found
      split at move
      · split at move <;> cases move <;> exact kept other
      · cases move
    next => cases move
  | remove j answered =>
    simp only [Tolls.step] at move
    split at move
    next leave found =>
      have other : j ≠ i := by
        rintro rfl
        cases before.symm.trans found
      split at move
      · split at move
        · split at move <;> cases move
          exact kept other
        · cases move
          exact kept other
      · cases move
    next => cases move

theorem orderly_of_below (below : ∀ i, bound ≤ i → s.leaves i = none) (checked : OrderlyBelow bound s a) : Orderly s a := by
  have small {i : Nat} {leave : Leave} (found : s.leaves i = some leave) : i ∈ List.range bound := by
    by_contra large
    cases (below i (by simpa using large)).symm.trans found
  cases a with
  | payment i tariff =>
    cases tariff with
    | none => trivial
    | some value =>
      intro leave found
      obtain ⟨stored,alone⟩ := checked leave found
      exact ⟨stored,fun j other there => alone j (small there) other there⟩
  | enter request =>
    intro i leave value found paid
    exact checked i (small found) leave found (by rw [paid]; trivial)
  | lookUp | remove => trivial

end

/-- Two vehicles are on the road at a time, and one of them comes back. -/
def trips : List Action :=
  [.enter ⟨"AA-00-AA",1⟩,.enter ⟨"BB-11-BB",3⟩,.lookUp 0 ⟨"AA-00-AA",2⟩,.lookUp 1 ⟨"BB-11-BB",4⟩,.payment 1 (some 9),
   .payment 0 (some 7),.remove 1 true,.remove 0 true,.enter ⟨"AA-00-AA",5⟩,.lookUp 2 ⟨"AA-00-AA",1⟩,.payment 2 (some 3),.remove 2 true]

/-- What each of the three trips costs. -/
def tripCharges : List Charge :=
  [⟨⟨⟨"BB-11-BB",3⟩,1⟩,⟨12,3,4⟩,9⟩,⟨⟨⟨"AA-00-AA",1⟩,0⟩,⟨12,1,2⟩,7⟩,⟨⟨⟨"AA-00-AA",5⟩,2⟩,⟨12,5,1⟩,3⟩]

theorem charged_once_trips :
    ∃ s, Run (Restrict Orderly (Steps (step 12))) .initial trips s ∧ s.charges = tripCharges ∧ Fair s := by
  obtain ⟨s,run,charges⟩ := exists_run_of_exec (step 12) (OrderlyBelow 3) (fun s => s.charges = tripCharges) .initial trips
    (by decide +kernel)
  have orderly : Run (Restrict Orderly (Steps (step 12))) .initial trips s :=
    run.weaken (fun _ _ => rfl) (fun _ _ _ below checked move => below_step below checked move)
      fun _ _ below checked => orderly_of_below below checked
  exact ⟨s,orderly,charges,charged_once 12 trips s orderly⟩

/-- Both leaves of a vehicle look its entry up before either has removed it. -/
def leavesTwice : List Action :=
  [.enter ⟨"AA-00-AA",1⟩,.lookUp 0 ⟨"AA-00-AA",2⟩,.lookUp 1 ⟨"AA-00-AA",2⟩,.payment 0 (some 7),.payment 1 (some 7)]

/-- The one trip is charged twice. -/
theorem trip_charged_twice :
    ¬ ∀ (groupId : Int) (acts : List Action) (s : State), Run (Steps (step groupId)) .initial acts s → Fair s := by
  intro fair
  obtain ⟨s,run,twice⟩ := exists_run_of_exec (step 12) (fun _ _ => True)
    (fun s => ¬ (s.charges.map Charge.entry).Nodup) .initial leavesTwice (by decide)
  exact twice (fair 12 leavesTwice s run.unrestrict).once

end CdPraticas.Tolls
