import Mathlib

/-!
# A bound that goes round

Members pass one value round. Each has a number of its own that only grows, and
a member that is visited may lower the value to its number; only the member that
set the value last, or one that finds it at the top, may raise it again. Then the
smaller one of the values that a member left at two visits in a row is a bound
that no member is below, and that never falls.
-/

namespace CdPraticas.Rotation

/-- `value` goes round with the name of its `setter` and the `top` of all numbers.
    `last` is the value each member left at its last visit, `stable` the bound it
    took there, and `after i j` says that `j` was visited since `i` was. -/
structure Round (ι α : Type*) where
  value : α
  setter : Option ι
  top : α
  last : ι → α
  stable : ι → α
  after : ι → ι → Prop

variable {ι α : Type*} [LinearOrder α]

/-- A visit of `p`, whose number is `mine`. -/
structure Visit (p : ι) (mine : α) (r r' : Round ι α) : Prop where
  turn : ∀ i, ¬ r.after i p
  round : ∀ i, i ≠ p → r.after p i
  grown : r.last p ≤ mine
  below : mine ≤ r'.top
  top : r.top ≤ r'.top
  value : r'.value = r.value ∧ r'.setter = r.setter ∧ r.value ≤ mine ∨
    r'.value = mine ∧ r'.setter = some p ∧ (mine < r.value ∨ r.setter = some p ∨ r.value = r.top)
  here : r'.last p = r'.value ∧ r'.stable p = min r'.value (r.last p)
  elsewhere : ∀ i, i ≠ p → r'.last i = r.last i ∧ r'.stable i = r.stable i
  visited : ∀ i j, r'.after i j ↔ i ≠ p ∧ (j = p ∨ r.after i j)

variable {p : ι} {mine : α} {r r' : Round ι α}

/-- The value that leaves a visit is not above the number of the member visited. -/
theorem Visit.value_le (visit : Visit p mine r r') : r'.value ≤ mine := by
  rcases visit.value with ⟨kept,_,below⟩ | ⟨set,_,_⟩
  · rw [kept]; exact below
  · exact set.le

variable [OrderBot α]

/-- What holds between two visits. -/
structure Steady (r : Round ι α) : Prop where
  /-- no member since `i` left less than both the value and what `i` left -/
  bounded : ∀ i j, r.after i j → min r.value (r.last i) ≤ r.last j
  /-- the value is untouched since its setter was visited -/
  untouched : ∀ i q, r.setter = some q → ¬ r.after i q → r.last i = r.value ∨ r.last i = ⊥
  topped : ∀ i, r.last i ≤ r.top
  stable : ∀ i j, r.stable i ≤ r.last j
  carried : ∀ i, r.stable i ≤ r.value
  grows : ∀ i j, r.after i j → r.stable i ≤ r.stable j

/-- Whoever raises the value knows that all members since `i` were at it. -/
theorem Visit.min_le (visit : Visit p mine r r') (steady : Steady r) (i : ι) :
    min r'.value (r.last i) ≤ min r.value (r.last i) := by
  rcases visit.value with ⟨kept,_,_⟩ | ⟨set,_,lowered | own | full⟩
  · rw [kept]
  · rw [set]; exact min_le_min_right _ lowered.le
  · rcases steady.untouched i p own (visit.turn i) with same | bottom
    · rw [← same]; simp
    · simp [bottom]
  · have low := steady.topped i
    rw [← full] at low
    simp [low]

theorem Visit.stable_le (visit : Visit p mine r r') (steady : Steady r) (i : ι) : r.stable i ≤ r'.value := by
  rcases visit.value with ⟨kept,_,_⟩ | ⟨set,_,_⟩
  · rw [kept]; exact steady.carried i
  · rw [set]; exact (steady.stable i p).trans visit.grown

/-- The bound taken at a visit is below what every member left last. -/
theorem Visit.bound (visit : Visit p mine r r') (steady : Steady r) (j : ι) :
    min r'.value (r.last p) ≤ r'.last j := by
  by_cases same : j = p
  · rw [same,visit.here.1]
    exact min_le_left ..
  · rw [(visit.elsewhere j same).1]
    exact (visit.min_le steady p).trans (steady.bounded p j (visit.round j same))

theorem Steady.visit (steady : Steady r) (visit : Visit p mine r r') : Steady r' where
  bounded := by
    intro i j since
    obtain ⟨other,now | before⟩ := (visit.visited i j).mp since
    · rw [now,visit.here.1]
      exact min_le_left ..
    · have apart : j ≠ p := fun same => visit.turn i (same ▸ before)
      rw [(visit.elsewhere i other).1,(visit.elsewhere j apart).1]
      exact (visit.min_le steady i).trans (steady.bounded i j before)
  untouched := by
    intro i q set since
    by_cases same : i = p
    · rw [same]
      exact .inl visit.here.1
    rw [(visit.elsewhere i same).1]
    rcases visit.value with ⟨kept,setter,_⟩ | ⟨_,setter,_⟩
    · rw [kept]
      exact steady.untouched i q (setter.symm.trans set) fun before =>
        since ((visit.visited i q).mpr ⟨same,.inr before⟩)
    · cases setter.symm.trans set
      exact absurd ((visit.visited i p).mpr ⟨same,.inl rfl⟩) since
  topped := by
    intro i
    by_cases same : i = p
    · rw [same,visit.here.1]
      exact visit.value_le.trans visit.below
    · rw [(visit.elsewhere i same).1]
      exact (steady.topped i).trans visit.top
  stable := by
    intro i j
    by_cases same : i = p
    · rw [same,visit.here.2]
      exact visit.bound steady j
    rw [(visit.elsewhere i same).2]
    by_cases here : j = p
    · rw [here,visit.here.1]
      exact visit.stable_le steady i
    · rw [(visit.elsewhere j here).1]
      exact steady.stable i j
  carried := by
    intro i
    by_cases same : i = p
    · rw [same,visit.here.2]
      exact min_le_left ..
    · rw [(visit.elsewhere i same).2]
      exact visit.stable_le steady i
  grows := by
    intro i j since
    obtain ⟨other,now | before⟩ := (visit.visited i j).mp since
    · rw [now,visit.here.2,(visit.elsewhere i other).2]
      exact le_min (visit.stable_le steady i) (steady.stable i p)
    · have apart : j ≠ p := fun same => visit.turn i (same ▸ before)
      rw [(visit.elsewhere i other).2,(visit.elsewhere j apart).2]
      exact steady.grows i j before

/-- No bound falls. -/
theorem Visit.stable_mono (visit : Visit p mine r r') (steady : Steady r) (i : ι) : r.stable i ≤ r'.stable i := by
  by_cases same : i = p
  · rw [same,visit.here.2]
    exact le_min (visit.stable_le steady p) (steady.stable p p)
  · exact (visit.elsewhere i same).2.ge

/-- The member visited has the oldest bound of all. -/
theorem Visit.oldest (visit : Visit p mine r r') (steady : Steady r) (i : ι) : r.stable p ≤ r.stable i := by
  by_cases same : i = p
  · rw [same]
  · exact steady.grows p i (visit.round i same)

/-- Before the first visit of all. -/
theorem steady_start (last : ∀ i, r.last i = ⊥) (stable : ∀ i, r.stable i = ⊥) : Steady r where
  bounded i _ _ := by simp [last i]
  untouched i _ _ _ := .inr (last i)
  topped i := by simp [last i]
  stable i _ := by simp [stable i]
  carried i := by simp [stable i]
  grows i _ _ := by simp [stable i]

/-! ### Once round

The member that has the turn passes it on to the next one. -/

variable {n : ℕ} [NeZero n]

theorem val_iterate_succ (member : Fin n) (k : ℕ) : (((· + 1)^[k] member).val) = (member.val + k) % n := by
  induction k with
  | zero => exact (Nat.mod_eq_of_lt member.isLt).symm
  | succ k ih =>
    rw [Function.iterate_succ_apply',Fin.val_add,ih]
    simp [Nat.add_assoc]

/-- Every member comes round. -/
theorem exists_iterate_succ (member other : Fin n) : ∃ k < n, (· + 1)^[k] member = other := by
  have inside := member.isLt
  have inside' := other.isLt
  rcases Nat.le_total member.val other.val with before | after
  · refine ⟨other.val - member.val,by omega,Fin.ext ?_⟩
    rw [val_iterate_succ,Nat.add_sub_cancel' before,Nat.mod_eq_of_lt inside']
  · by_cases same : member = other
    · exact ⟨0,by omega,same⟩
    have apart : member.val ≠ other.val := fun same' => same (Fin.ext same')
    refine ⟨other.val + n - member.val,by omega,Fin.ext ?_⟩
    rw [val_iterate_succ,show member.val + (other.val + n - member.val) = other.val + n by omega,Nat.add_mod_right,
      Nat.mod_eq_of_lt inside']

/-- What a visit brings about for the member visited, and keeps for the others, holds of all members after a round,
    unless the round stops. -/
theorem once_round {S : Type*} (reaches : S → S → Prop) (turn : S → Fin n) (Good Stop : S → Prop) (P : S → Fin n → Prop)
    (refl : ∀ s, reaches s s) (trans : ∀ {s t u}, reaches s t → reaches t u → reaches s u)
    (visit : ∀ s, Good s → ∃ t, reaches s t ∧ (Stop t ∨ turn t = turn s + 1 ∧ Good t ∧ P t (turn s) ∧ ∀ p, P s p → P t p))
    {s : S} (good : Good s) : ∃ t, reaches s t ∧ (Stop t ∨ Good t ∧ ∀ p, P t p) := by
  have visits (k : ℕ) : ∃ t, reaches s t ∧
      (Stop t ∨ turn t = (· + 1)^[k] (turn s) ∧ Good t ∧ ∀ i < k, P t ((· + 1)^[i] (turn s))) := by
    induction k with
    | zero => exact ⟨s,refl s,.inr ⟨rfl,good,by simp⟩⟩
    | succ k ih =>
      obtain ⟨t,reached,stop | ⟨turn',good',done⟩⟩ := ih
      · exact ⟨t,reached,.inl stop⟩
      obtain ⟨u,next,stop | ⟨turn'',good'',here,kept⟩⟩ := visit t good'
      · exact ⟨u,trans reached next,.inl stop⟩
      refine ⟨u,trans reached next,.inr ⟨?_,good'',fun i below => ?_⟩⟩
      · rw [turn'',turn',Function.iterate_succ_apply']
      · rcases Nat.lt_succ_iff_lt_or_eq.mp below with before | last
        · exact kept _ (done i before)
        · rw [last,← turn']
          exact here
  obtain ⟨t,reached,stop | ⟨_,good',done⟩⟩ := visits n
  · exact ⟨t,reached,.inl stop⟩
  · refine ⟨t,reached,.inr ⟨good',fun p => ?_⟩⟩
    obtain ⟨k,below,rfl⟩ := exists_iterate_succ (turn s) p
    exact done k below

end CdPraticas.Rotation
