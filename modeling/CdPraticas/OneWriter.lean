import CdPraticas.KeyThreads

/-!
# One registered write at a server

As long as a server registers a write of a key only while no other write of it is
registered there, the copy that a write has invalidated at its own server stays
invalid until the write saves its value.
-/

namespace CdPraticas.OneWriter
open Groups Store Messages Handlers Calls Cluster Keys Rounds Runs Stages KeyThreads

/-- The write is registered and has neither saved its value nor failed. -/
def Undecided : Pc → Prop
  | .findInvalidate | .saveInvalidate _ | .sendWantToWrite | .testResponse | .sleepWrite | .testConflict | .saveData _
  | .handleConflict => True
  | _ => False

instance : DecidablePred Undecided
  | .findInvalidate | .saveInvalidate _ | .sendWantToWrite | .testResponse | .sleepWrite | .testConflict | .saveData _
  | .handleConflict => isTrue trivial
  | .writeData | .saveAlone | .putWantToWrite | .sendDataWritten _ | .sendRevalidate | .findDelete | .deleteById
  | .removeWantToWrite _ | .wrote _ | .findLocal | .sendAskData | .putWaiting | .testData | .sleepRead | .saveCopy
  | .removeWaiting _ | .answered _ => isFalse id

/-- Registered, with its own invalidation done and its value not saved. -/
def Cleared : Pc → Prop
  | .sendWantToWrite | .testResponse | .sleepWrite | .testConflict | .saveData _ | .sendRevalidate | .handleConflict
  | .findDelete | .deleteById => True
  | .removeWantToWrite exit => exit.success ≠ some true
  | _ => False

instance : DecidablePred Cleared
  | .sendWantToWrite | .testResponse | .sleepWrite | .testConflict | .saveData _ | .sendRevalidate | .handleConflict
  | .findDelete | .deleteById => isTrue trivial
  | .removeWantToWrite exit => inferInstanceAs (Decidable (exit.success ≠ some true))
  | .writeData | .saveAlone | .putWantToWrite | .findInvalidate | .saveInvalidate _ | .sendDataWritten _ | .wrote _ | .findLocal
  | .sendAskData | .putWaiting | .testData | .sleepRead | .saveCopy | .removeWaiting _ | .answered _ => isFalse id

/-- No write of the key is registered at the server. -/
def NoneRegistered (v : KeyView) (server : SpreadGroup) : Prop :=
  ∀ j, ∀ other ∈ v.calls j, other.server = server → ¬ other.pc.Registered

/-- What holds in every state while a server registers one write at a time. -/
structure SingleWrites (v : KeyView) : Prop where
  together : ∀ i call, v.calls i = some call → call.pc ≠ .saveAlone
  registered : ∀ i call, v.calls i = some call → call.pc.Registered →
    ((v.held call.server).slot.map WantToWriteData.callback) = some i
  marked : ∀ i call entity, v.calls i = some call → call.pc = .saveInvalidate entity → ¬ entity.Valid
  cleared : ∀ i call, v.calls i = some call → Cleared call.pc → ∀ entity, (v.held call.server).row = some entity →
    ¬ entity.Valid

theorem cleared_registered {pc : Pc} (cleared : Cleared pc) : pc.Registered := by cases pc <;> trivial

theorem undecided_registered {pc : Pc} (undecided : Undecided pc) : pc.Registered := by cases pc <;> trivial

section
variable {settings : Settings} {group : Group} {key : String} {v : KeyView} {w : ThreadView} {participants : Int}
  {stored : Option DataEntity} {call : Call} {choice : Choice} {effect : Effect} {pc : Pc}

theorem SingleWrites.same_call (single : SingleWrites v) {i j : Nat} {one two : Call} (first : v.calls i = some one)
    (second : v.calls j = some two) (registered : one.pc.Registered) (registered' : two.pc.Registered)
    (same : one.server = two.server) : i = j := by
  have mine := single.registered i one first registered
  have its := single.registered j two second registered'
  rw [same,its] at mine
  exact (Option.some.inj mine).symm

/-- Where nothing is registered no write is. -/
theorem SingleWrites.none_registered (single : SingleWrites v) {server : SpreadGroup} (free : (v.held server).slot = none) :
    NoneRegistered v server := by
  rintro j other found rfl registered
  have mine := single.registered j other found registered
  rw [free] at mine
  cases mine

/-! ### Steps of a call -/

/-- What a step makes of the registration at its server. -/
theorem move_slot (i : Nat) (held : Fields) (move : Move settings participants stored call choice effect pc) :
    (access i held effect).slot = held.slot ∨
    (access i held effect).slot = some ⟨0,i⟩ ∧ call.pc = .putWantToWrite ∧ choice = .go ∨ call.pc.Registered ∧ ¬ pc.Registered := by
  cases move with
  | putWantToWrite _ here => exact .inr (.inl ⟨rfl,here,rfl⟩)
  | removeWantToWrite _ here => exact .inr (.inr ⟨by rw [here]; trivial,id⟩)
  | _ => exact .inl rfl

theorem move_registered (move : Move settings participants stored call choice effect pc) (registered : pc.Registered) :
    call.pc.Registered ∨ ∃ key, effect = .putWantToWrite key := by
  cases move <;> simp_all [Pc.Registered]

/-- A call changes the row of its server as a registered write, or as a read that saves a copy. -/
theorem move_row (i : Nat) (held : Fields) (move : Move settings participants stored call choice effect pc)
    (together : call.pc ≠ .saveAlone) :
    (access i held effect).row = held.row ∨ call.pc.Registered ∨ call.pc = .saveCopy ∧ choice = .go := by
  cases move with
  | saveAlone _ here => exact absurd here together
  | saveCopy _ here _ => exact .inr (.inr ⟨here,rfl⟩)
  | saveInvalidate _ here | saveData _ here | deleteById _ here _ => exact .inr (.inl (by rw [here]; trivial))
  | _ => exact .inl rfl

/-- The row under a step that leads a write past its own invalidation. -/
theorem move_cleared {i : Nat} {held : Fields} (move : Move settings participants held.row call choice effect pc)
    (fits : call.pc.Fits call.request) (marked : ∀ entity, call.pc = .saveInvalidate entity → ¬ entity.Valid)
    (before : Cleared call.pc → ∀ entity, held.row = some entity → ¬ entity.Valid) (cleared : Cleared pc) :
    ∀ entity, (access i held effect).row = some entity → ¬ entity.Valid := by
  intro entity row
  cases move with
  | noRow _ _ none =>
    have found : held.row = some entity := row
    rw [none] at found
    cases found
  | saveInvalidate _ here =>
    cases row
    exact marked _ here
  | deleteById _ _ _ => cases row
  | sendWantToWrite _ here | allResponses _ here _ | noResponses _ here _ | wakeWrite _ here | timeoutWrite _ here
  | conflict _ here _ | noConflict _ here _ | wins _ here _ _ | yields _ here _ _ | throws _ here _ | findDelete _ here _
  | nothingToDelete _ here _ | deleteThrows _ here _ | sendRevalidate _ here | revalidateFails _ here =>
    exact before (by rw [here]; trivial) entity row
  | sendDataWritten write here | dataWrittenFails write here =>
    rw [here,write] at fits
    rcases fits with rfl | rfl <;> exact absurd rfl cleared
  | _ => exact cleared.elim

theorem SingleWrites.moved_registered (single : SingleWrites v) {i : Nat} (found : v.calls i = some call)
    (alone : call.pc = .putWantToWrite → choice = .go → NoneRegistered v call.server)
    (move : Move settings group.members.length (v.held call.server).row call choice effect pc) {j : Nat} {after : Call}
    (now : (v.moved group i call effect pc).calls j = some after) (registered : after.pc.Registered) :
    ((v.moved group i call effect pc).held after.server).slot.map WantToWriteData.callback = some j := by
  rcases moved_cases now with ⟨rfl,rfl⟩ | ⟨different,was⟩
  · rw [goto_server,moved_held_self]
    rcases move_slot j (v.held call.server) move with same | ⟨put,_⟩ | ⟨_,left⟩
    · rcases move_registered move registered with before | ⟨_,rfl⟩
      · rw [same]
        exact single.registered j call found before
      · rfl
    · rw [put]
      rfl
    · exact absurd registered left
  · have before := single.registered j after was registered
    by_cases here : after.server = call.server
    · rw [here,moved_held_self]
      rw [here] at before
      rcases move_slot i (v.held call.server) move with same | ⟨_,putting,goes⟩ | ⟨mine,_⟩
      · rw [same]
        exact before
      · exact absurd registered (alone putting goes j after was here)
      · exact absurd (single.same_call was found registered mine here) different
    · rw [moved_held_ne _ _ _ here]
      exact before

theorem SingleWrites.moved_cleared (single : SingleWrites v) (sound : Sound group key v) {i : Nat}
    (found : v.calls i = some call) (copies : call.pc = .saveCopy → choice = .go → NoneRegistered v call.server)
    (move : Move settings group.members.length (v.held call.server).row call choice effect pc) {j : Nat} {after : Call}
    (now : (v.moved group i call effect pc).calls j = some after) (cleared : Cleared after.pc) :
    ∀ entity, ((v.moved group i call effect pc).held after.server).row = some entity → ¬ entity.Valid := by
  rcases moved_cases now with ⟨rfl,rfl⟩ | ⟨different,was⟩
  · rw [goto_server,moved_held_self]
    exact move_cleared move (sound.fits j call found) (fun entity here => single.marked j call entity found here)
      (single.cleared j call found) cleared
  · have before := single.cleared j after was cleared
    by_cases here : after.server = call.server
    · rw [here,moved_held_self]
      rw [here] at before
      rcases move_row i (v.held call.server) move (single.together i call found) with same | mine | ⟨saves,goes⟩
      · rw [same]
        exact before
      · exact absurd (single.same_call was found (cleared_registered cleared) mine here) different
      · exact absurd (cleared_registered cleared) (copies saves goes j after was here)
    · rw [moved_held_ne _ _ _ here]
      exact before

theorem SingleWrites.of_moved (single : SingleWrites v) (sound : Sound group key v) (more : group.members.length ≠ 2)
    {i : Nat} (found : v.calls i = some call)
    (alone : call.pc = .putWantToWrite → choice = .go → NoneRegistered v call.server)
    (copies : call.pc = .saveCopy → choice = .go → NoneRegistered v call.server)
    (move : Move settings group.members.length (v.held call.server).row call choice effect pc) :
    SingleWrites (v.moved group i call effect pc) := by
  refine ⟨?_,fun j after now => single.moved_registered found alone move now,?_,
    fun j after now => single.moved_cleared sound found copies move now⟩
  · intro j after now here
    rcases moved_cases now with ⟨rfl,rfl⟩ | ⟨_,was⟩
    · rw [goto_pc] at here
      subst here
      cases move with
      | isAlone _ _ two => exact more (by exact_mod_cast two)
    · exact single.together j after was here
  · intro j after entity now here
    rcases moved_cases now with ⟨rfl,rfl⟩ | ⟨_,was⟩
    · rw [goto_pc] at here
      subst here
      cases move with
      | foundRow _ _ _ => simp
    · exact single.marked j after entity was here

theorem SingleWrites.of_started (single : SingleWrites v) {i : Nat} {server : SpreadGroup} {request : Request}
    (startingUp : Bool) : SingleWrites (v.started i (.start startingUp server request)) := by
  have all : ∀ {P : Nat → Call → Prop}, P i (.start startingUp server request) → (∀ j call, v.calls j = some call → P j call) →
      ∀ j call, (v.started i (.start startingUp server request)).calls j = some call → P j call := by
    intro P start others j call found
    rcases started_cases found with ⟨rfl,rfl⟩ | ⟨_,was⟩
    · exact start
    · exact others j call was
  have starts : (Call.start startingUp server request).pc = .findLocal ∨ (Call.start startingUp server request).pc = .writeData := by
    cases request
    · exact .inl rfl
    · exact .inr rfl
  refine ⟨all ?_ single.together,all ?_ single.registered,?_,all ?_ single.cleared⟩
  · rcases starts with here | here <;> simp [here]
  · rcases starts with here | here <;> simp [here,Pc.Registered]
  · intro j other entity found here
    rcases started_cases found with ⟨_,rfl⟩ | ⟨_,was⟩
    · rcases starts with start | start <;> simp [start] at here
    · exact single.marked j other entity was here
  · rcases starts with here | here <;> simp [here,Cleared]

/-! ### Steps of a handler -/

/-- A handler leaves the row, an invalid one or none, or a copy that it revalidates. -/
theorem turn_copy (threaded : Threaded group key w) {packet : Packet} {stage next : Stage} {held : Fields} {sends : List Send}
    {callbacks : List Callback} (busy : w.listening packet.receiver = some (packet,stage))
    (turn : Turn settings group.members.length key packet.receiver packet.sender (w.shared.held packet.receiver) stage held
      sends callbacks next) :
    held.row = (w.shared.held packet.receiver).row ∨
      ((stage = .deleteById ∨ ∃ entity, stage = .saveInvalidate entity) ∧ ∀ entity, held.row = some entity → ¬ entity.Valid) ∨
      ∃ entity, stage = .saveRevalidated entity ∧ held.row = some entity := by
  rcases turn.row with same | ⟨entity,row,rfl | rfl⟩ | ⟨none,rfl⟩
  · exact .inl same
  · refine .inr (.inl ⟨.inr ⟨entity,rfl⟩,fun other found => ?_⟩)
    rw [row] at found
    cases found
    exact (threaded.handling _ _ _ busy).marked
  · exact .inr (.inr ⟨entity,rfl,row⟩)
  · refine .inr (.inl ⟨.inl rfl,fun entity found => ?_⟩)
    rw [none] at found
    cases found

theorem SingleWrites.of_listened (single : SingleWrites w.shared) (threaded : Threaded group key w) {packet : Packet}
    {stage next : Stage} {sent : Bool} {held : Fields} {sends : List Send} {callbacks : List Callback}
    (renews : ∀ entity, stage = .saveRevalidated entity → (w.shared.held packet.receiver).row ≠ some entity →
      NoneRegistered w.shared packet.receiver)
    (busy : w.listening packet.receiver = some (packet,stage))
    (turn : Turn settings group.members.length key packet.receiver packet.sender (w.shared.held packet.receiver) stage held
      sends callbacks next) : SingleWrites (w.listened group packet stage sent held sends callbacks next).shared := by
  refine ⟨?_,?_,?_,?_⟩
  · intro i after now
    obtain ⟨before,was,rfl⟩ := listened_cases _ _ _ _ _ _ _ now
    rw [notify_pc]
    exact single.together i before was
  · intro i after now registered
    obtain ⟨before,was,rfl⟩ := listened_cases _ _ _ _ _ _ _ now
    rw [notify_pc] at registered
    rw [notify_server]
    have mine := single.registered i before was registered
    by_cases here : before.server = packet.receiver
    · rw [here,listened_held_self,turn.registered,← here]
      exact mine
    · rw [listened_held_ne _ _ _ _ _ _ _ here]
      exact mine
  · intro i after entity now here
    obtain ⟨before,was,rfl⟩ := listened_cases _ _ _ _ _ _ _ now
    rw [notify_pc] at here
    exact single.marked i before entity was here
  · intro i after now cleared entity
    obtain ⟨before,was,rfl⟩ := listened_cases _ _ _ _ _ _ _ now
    rw [notify_pc] at cleared
    rw [notify_server]
    have invalid := single.cleared i before was cleared
    by_cases here : before.server = packet.receiver
    · rw [here,listened_held_self]
      rw [here] at invalid
      rcases turn_copy threaded busy turn with same | ⟨_,none⟩ | ⟨copy,rfl,row⟩
      · rw [same]
        exact invalid entity
      · exact none entity
      · by_cases same : (w.shared.held packet.receiver).row = some copy
        · rw [row,← same]
          exact invalid entity
        · exact absurd (cleared_registered cleared) (renews copy rfl same i before was here)
    · rw [listened_held_ne _ _ _ _ _ _ _ here]
      exact invalid entity

/-! ### The start -/

/-- Nothing is registered in a quiet group. -/
theorem SingleWrites.start {s : State} (quiet : Quiet group s) : SingleWrites (view key s) := by
  have nobody : ∀ i call, (view key s).calls i ≠ some call := fun i call found => by simp [view,quiet.noCalls] at found
  exact ⟨fun i call found => absurd found (nobody i call),fun i call found => absurd found (nobody i call),
    fun i call _ found => absurd found (nobody i call),fun i call found => absurd found (nobody i call)⟩

end

end CdPraticas.OneWriter
