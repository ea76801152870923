import CdPraticas.OneWriter
import CdPraticas.Tallies

/-!
# Open rounds and the copies they have invalidated

A server that has answered a WANT_TO_WRITE keeps its copy invalid as long as the round
is open, and no two open rounds have each other's answer.
-/

namespace CdPraticas.Exclusion
open Groups Store Messages Handlers Calls Cluster Keys Rounds Runs Stages KeyThreads OneWriter Tallies
open Listeners (Threads Event)

/-- A round that is still open has the answer of `server`. -/
def Awaited (v : KeyView) (server : SpreadGroup) : Prop :=
  ∃ i, ∃ call ∈ v.calls i, Undecided call.pc ∧ server ∈ call.acknowledged

/-- The handler has found no write registered and is going to answer. -/
def Grants : Stage → Prop
  | .findInvalidate | .saveInvalidate _ | .grant => True
  | _ => False

def GrantingAt (w : ThreadView) (server : SpreadGroup) : Prop :=
  ∃ packet stage, w.listening server = some (packet,stage) ∧ Grants stage

/-- A write is registered where no other is and none is being granted, the winner of a
    conflict and a read save, and a REVALIDATE_DATA changes a copy, where no open round has
    been answered; reads and revalidations come while no write is registered; responses are
    counted for their own round. -/
def Separate (w : ThreadView) : Event → Prop
  | .thread i .go => ∀ call ∈ w.shared.calls i,
      (call.pc = .putWantToWrite → NoneRegistered w.shared call.server ∧ ¬ GrantingAt w call.server) ∧
      (call.pc = .saveData .conflictWon → ¬ Awaited w.shared call.server) ∧
      (call.pc = .saveCopy → NoneRegistered w.shared call.server ∧ ¬ GrantingAt w call.server ∧ ¬ Awaited w.shared call.server)
  | .listen server _ => ∀ packet stage, w.listening server = some (packet,stage) →
      (∀ data, stage = .increment data → packet.call = some data.callback) ∧
      ∀ entity, stage = .saveRevalidated entity → (w.shared.held server).row ≠ some entity →
        NoneRegistered w.shared server ∧ ¬ Awaited w.shared server
  | _ => True

/-- What holds in every state. -/
structure Exclusive (w : ThreadView) : Prop where
  single : SingleWrites w.shared
  granting : ∀ server, GrantingAt w server → (w.shared.held server).slot = none
  granted : ∀ server packet, w.listening server = some (packet,.grant) →
    ∀ entity, (w.shared.held server).row = some entity → ¬ entity.Valid
  awaited : ∀ server, Awaited w.shared server → ∀ entity, (w.shared.held server).row = some entity → ¬ entity.Valid
  oneWay : ∀ i j one two, w.shared.calls i = some one → w.shared.calls j = some two → Undecided one.pc → Undecided two.pc →
    two.server ∈ one.acknowledged → one.server ∉ two.acknowledged

section
variable {settings : Settings} {group : Group} {key : String} {v : KeyView} {w w' : ThreadView} {packet : Packet}
  {stage next : Stage} {event : Event} {sent : Bool} {held : Fields} {sends : List Send} {callbacks : List Callback}
  {i : Nat} {choice : Choice} {call : Call} {effect : Effect} {pc : Pc} {server : SpreadGroup}

/-! ### Steps of calls -/

/-- A step of a call leaves a copy that was there, an invalid one or none, or saves one. -/
theorem move_copy (i : Nat) (held : Fields) {stored : Option DataEntity} {participants : Int}
    (move : Move settings participants stored call choice effect pc)
    (together : call.pc ≠ .saveAlone) (marked : ∀ entity, call.pc = .saveInvalidate entity → ¬ entity.Valid) :
    (access i held effect).row = held.row ∨ (∀ entity, (access i held effect).row = some entity → ¬ entity.Valid) ∨
    ∃ dataDto, (access i held effect).row = some (.ofDto dataDto) ∧ choice = .go ∧
      ((∃ exit, call.pc = .saveData exit ∧ call.request = .write dataDto) ∨
        call.pc = .saveCopy ∧ call.response = some dataDto) := by
  cases move with
  | saveAlone _ here => exact absurd here together
  | saveInvalidate _ here =>
    refine .inr (.inl fun entity row => ?_)
    cases row
    exact marked _ here
  | deleteById _ _ _ => exact .inr (.inl fun entity row => by cases row)
  | saveData write here => exact .inr (.inr ⟨_,rfl,rfl,.inl ⟨_,here,write⟩⟩)
  | saveCopy _ here response => exact .inr (.inr ⟨_,rfl,rfl,.inr ⟨here,response⟩⟩)
  | _ => exact .inl rfl

theorem move_undecided {stored : Option DataEntity} {participants : Int}
    (move : Move settings participants stored call choice effect pc) (undecided : Undecided pc) :
    Undecided call.pc ∨ call.pc = .putWantToWrite := by
  cases move <;> simp_all [Undecided]

/-- The server of a write that everybody has answered has answered no open round. -/
theorem Exclusive.answered_free (exclusive : Exclusive w) (counting : Counting group w) (sound : Sound group key w.shared)
    (found : w.shared.calls i = some call) (here : call.pc = .saveData .allResponses) : ¬ Awaited w.shared call.server := by
  have undecided : Undecided call.pc := by
    rw [here]
    trivial
  have everybody := counting.tallied.left i call found (by rw [here]; rfl)
  rintro ⟨j,two,was,open_,acknowledged⟩
  obtain ⟨inside,_⟩ := counting.formed.answering j two was call.server acknowledged
  have apart := (Group.mem_others.mp inside).2
  have answered := everybody.acknowledged (Group.mem_others.mpr ⟨sound.located j two was,Ne.symm apart⟩)
  exact exclusive.oneWay i j call two found was undecided open_ answered acknowledged

/-- A call makes no copy valid where an open round has been answered. -/
theorem Exclusive.moved_copy (exclusive : Exclusive w) (counting : Counting group w) (sound : Sound group key w.shared)
    (found : w.shared.calls i = some call) (separate : Separate w (.thread i choice))
    (move : Move settings group.members.length (w.shared.held call.server).row call choice effect pc) :
    (access i (w.shared.held call.server) effect).row = (w.shared.held call.server).row ∨
    (∀ entity, (access i (w.shared.held call.server) effect).row = some entity → ¬ entity.Valid) ∨
    ¬ Awaited w.shared call.server := by
  rcases move_copy i (w.shared.held call.server) move (exclusive.single.together i call found)
      (fun entity here => exclusive.single.marked i call entity found here) with same | invalid | ⟨dataDto,_,rfl,how⟩
  · exact .inl same
  · exact .inr (.inl invalid)
  · obtain ⟨_,wins,copies⟩ := separate call found
    refine .inr (.inr ?_)
    rcases how with ⟨exit,here,write⟩ | ⟨here,_⟩
    · have fits := sound.fits i call found
      rw [here,write] at fits
      rcases fits with rfl | rfl
      · exact exclusive.answered_free counting sound found here
      · exact wins here
    · exact (copies here).2.2

/-- A call that changes the row of a server is no registered write of a granting one. -/
theorem Exclusive.granting_free (exclusive : Exclusive w) (grants : GrantingAt w server) : NoneRegistered w.shared server :=
  exclusive.single.none_registered (exclusive.granting server grants)

theorem Exclusive.of_moved (exclusive : Exclusive w) (counting : Counting group w) (sound : Sound group key w.shared)
    (more : group.members.length ≠ 2) (found : w.shared.calls i = some call) (separate : Separate w (.thread i choice))
    (move : Move settings group.members.length (w.shared.held call.server).row call choice effect pc) :
    Exclusive { w with shared := w.shared.moved group i call effect pc } := by
  have copy := exclusive.moved_copy counting sound found separate move
  have asked : ∀ {j other}, w.shared.calls j = some other → ∀ server ∈ other.acknowledged, other.pc.Asked :=
    fun was server member => (counting.formed.answering _ _ was server member).2
  -- who is open and answered now was so before
  have before : ∀ j after, (w.shared.moved group i call effect pc).calls j = some after → Undecided after.pc →
      ∀ server ∈ after.acknowledged, ∃ other, w.shared.calls j = some other ∧ Undecided other.pc ∧
        other.server = after.server ∧ other.acknowledged = after.acknowledged := by
    intro j after now undecided server member
    rcases moved_cases now with ⟨rfl,rfl⟩ | ⟨_,was⟩
    · rcases move_undecided move undecided with open_ | put
      · exact ⟨call,found,open_,rfl,rfl⟩
      · have already := asked found server member
        rw [put] at already
        exact already.elim
    · exact ⟨after,was,undecided,rfl,rfl⟩
  refine ⟨?_,?_,?_,?_,?_⟩
  · refine exclusive.single.of_moved sound more found (fun putting goes => ?_) (fun saves goes => ?_) move
    · subst goes
      exact ((separate call found).1 putting).1
    · subst goes
      exact ((separate call found).2.2 saves).1
  · intro server grants
    have free := exclusive.granting server grants
    by_cases here : server = call.server
    · subst here
      rw [moved_held_self]
      rcases move_slot i (w.shared.held call.server) move with same | ⟨_,putting,rfl⟩ | ⟨mine,_⟩
      · rw [same]
        exact free
      · exact absurd grants ((separate call found).1 putting).2
      · exact absurd mine (exclusive.granting_free grants i call found rfl)
    · rw [moved_held_ne _ _ _ here]
      exact free
  · intro server packet grant
    have invalid := exclusive.granted server packet grant
    have grants : GrantingAt w server := ⟨packet,_,grant,trivial⟩
    by_cases here : server = call.server
    · subst here
      rw [moved_held_self]
      rcases move_row i (w.shared.held call.server) move (exclusive.single.together i call found) with same | mine | ⟨saves,goes⟩
      · rw [same]
        exact invalid
      · exact absurd mine (exclusive.granting_free grants i call found rfl)
      · subst goes
        exact absurd grants ((separate call found).2.2 saves).2.1
    · rw [moved_held_ne _ _ _ here]
      exact invalid
  · rintro server ⟨j,after,now,undecided,member⟩
    obtain ⟨other,was,open_,_,same⟩ := before j after now undecided server member
    have awaited : Awaited w.shared server := ⟨j,other,was,open_,by rw [same]; exact member⟩
    have invalid := exclusive.awaited server awaited
    by_cases here : server = call.server
    · subst here
      rw [moved_held_self]
      rcases copy with unchanged | none | free
      · rw [unchanged]
        exact invalid
      · exact none
      · exact absurd awaited free
    · rw [moved_held_ne _ _ _ here]
      exact invalid
  · intro j k one two nowOne nowTwo openOne openTwo member other
    obtain ⟨one',wasOne,openOne',serverOne,ackOne⟩ := before j one nowOne openOne _ member
    obtain ⟨two',wasTwo,openTwo',serverTwo,ackTwo⟩ := before k two nowTwo openTwo _ other
    rw [← ackOne,← serverTwo] at member
    rw [← ackTwo,← serverOne] at other
    exact exclusive.oneWay j k one' two' wasOne wasTwo openOne' openTwo' member other

/-! ### Steps of handlers -/

/-- A server comes to grant only where no write is registered, and to its answer only
    with its copy invalid. -/
theorem turn_grants {participants : Int} {me sender : SpreadGroup} {held held' : Fields}
    (turn : Turn settings participants key me sender held stage held' sends callbacks next) (grants : Grants next) :
    (held'.slot = none ∨ Grants stage) ∧ held'.slot = held.slot := by
  cases turn with
  | looks looks same _ _ =>
    subst same
    cases looks with
    | free none => exact ⟨.inl none,rfl⟩
    | row _ | noRow _ _ => exact ⟨.inr trivial,rfl⟩
    | _ => exact grants.elim
  | acts acts =>
    cases acts with
    | invalidates _ => exact ⟨.inr trivial,rfl⟩
    | _ => exact grants.elim

theorem turn_granted {participants : Int} {me sender : SpreadGroup} {held held' : Fields} (marked : stage.Marked)
    (turn : Turn settings participants key me sender held stage held' sends callbacks .grant) :
    ∀ entity, held'.row = some entity → ¬ entity.Valid := by
  intro entity row
  generalize answers : Stage.grant = next at turn
  cases turn with
  | looks looks same _ _ =>
    subst same
    cases looks with
    | noRow none _ =>
      rw [none] at row
      cases row
    | _ => cases answers
  | acts acts =>
    cases acts with
    | invalidates _ =>
      cases row
      exact marked
    | _ => cases answers

/-- A handler makes no copy valid where an open round has been answered. -/
theorem listened_copy (threaded : Threaded group key w) (separate : Separate w (.listen packet.receiver sent))
    (busy : w.listening packet.receiver = some (packet,stage))
    (turn : Turn settings group.members.length key packet.receiver packet.sender (w.shared.held packet.receiver) stage held
      sends callbacks next) :
    held.row = (w.shared.held packet.receiver).row ∨ (∀ entity, held.row = some entity → ¬ entity.Valid) ∨
      ¬ Awaited w.shared packet.receiver := by
  rcases turn_copy threaded busy turn with same | ⟨_,invalid⟩ | ⟨entity,rfl,row⟩
  · exact .inl same
  · exact .inr (.inl invalid)
  · by_cases same : (w.shared.held packet.receiver).row = some entity
    · exact .inl (row.trans same.symm)
    · exact .inr (.inr ((separate packet _ busy).2 entity rfl same).2)

/-- A server answers a round while no write of its own is registered. -/
theorem Exclusive.acknowledged_cases (exclusive : Exclusive w) (busy : w.listening packet.receiver = some (packet,stage))
    (turn : Turn settings group.members.length key packet.receiver packet.sender (w.shared.held packet.receiver) stage held
      sends callbacks next) {before : Call}
    (member : server ∈ (notify sends callbacks packet sent i before).acknowledged) :
    server ∈ before.acknowledged ∨ server = packet.receiver ∧ stage = .grant ∧ NoneRegistered w.shared server := by
  rw [notify_acknowledged] at member
  split_ifs at member with acknowledging
  · rcases List.mem_cons.mp member with rfl | member
    · obtain ⟨rfl,_⟩ := turn.grants acknowledging.2.2
      exact .inr ⟨rfl,rfl,exclusive.granting_free ⟨packet,_,busy,trivial⟩⟩
    · exact .inl member
  · exact .inl member

theorem Exclusive.of_listened (exclusive : Exclusive w) (threaded : Threaded group key w)
    (separate : Separate w (.listen packet.receiver sent)) (busy : w.listening packet.receiver = some (packet,stage))
    (turn : Turn settings group.members.length key packet.receiver packet.sender (w.shared.held packet.receiver) stage held
      sends callbacks next) : Exclusive (w.listened group packet stage sent held sends callbacks next) := by
  have copy := listened_copy threaded separate busy turn
  refine ⟨?_,?_,?_,?_,?_⟩
  · exact exclusive.single.of_listened threaded
      (fun entity renews changes => ((separate packet stage busy).2 entity renews changes).1) busy turn
  · rintro server ⟨other,there,now,grants⟩
    by_cases here : server = packet.receiver
    · subst here
      rw [listened_listening_self] at now
      by_cases ends : next = .done
      · subst ends
        cases now
      · rw [entry_running ends] at now
        cases now
        rw [listened_held_self]
        obtain ⟨free | granting,same⟩ := turn_grants turn grants
        · exact free
        · rw [same]
          exact exclusive.granting _ ⟨packet,stage,busy,granting⟩
    · rw [listened_listening_ne _ _ _ _ _ _ _ here] at now
      rw [listened_held_ne _ _ _ _ _ _ _ here]
      exact exclusive.granting server ⟨other,there,now,grants⟩
  · intro server other now
    by_cases here : server = packet.receiver
    · subst here
      rw [listened_listening_self] at now
      rw [listened_held_self]
      by_cases ends : next = .done
      · subst ends
        cases now
      · rw [entry_running ends] at now
        cases now
        exact turn_granted (threaded.handling _ _ _ busy).marked turn
    · rw [listened_listening_ne _ _ _ _ _ _ _ here] at now
      rw [listened_held_ne _ _ _ _ _ _ _ here]
      exact exclusive.granted server other now
  · rintro server ⟨j,after,now,undecided,member⟩
    obtain ⟨before,was,rfl⟩ := listened_cases _ _ _ _ _ _ _ now
    rw [notify_pc] at undecided
    rcases exclusive.acknowledged_cases busy turn member with old | ⟨rfl,rfl,_⟩
    · have awaited : Awaited w.shared server := ⟨j,before,was,undecided,old⟩
      have invalid := exclusive.awaited server awaited
      by_cases here : server = packet.receiver
      · subst here
        rw [listened_held_self]
        rcases copy with unchanged | none | free
        · rw [unchanged]
          exact invalid
        · exact none
        · exact absurd awaited free
      · rw [listened_held_ne _ _ _ _ _ _ _ here]
        exact invalid
    · rw [listened_held_self]
      have invalid := exclusive.granted _ packet busy
      rcases turn.row with same | ⟨_,_,saves | saves⟩ | ⟨_,deletes⟩
      · rw [same]
        exact invalid
      · cases saves
      · cases saves
      · cases deletes
  · intro j k one two nowOne nowTwo openOne openTwo member other
    obtain ⟨one',wasOne,rfl⟩ := listened_cases _ _ _ _ _ _ _ nowOne
    obtain ⟨two',wasTwo,rfl⟩ := listened_cases _ _ _ _ _ _ _ nowTwo
    rw [notify_pc] at openOne openTwo
    rw [notify_server] at member other
    rcases exclusive.acknowledged_cases busy turn member with old | ⟨_,_,free⟩
    · rcases exclusive.acknowledged_cases busy turn other with old' | ⟨_,_,free⟩
      · exact exclusive.oneWay j k one' two' wasOne wasTwo openOne openTwo old old'
      · exact free j one' wasOne rfl (undecided_registered openOne)
    · exact free k two' wasTwo rfl (undecided_registered openTwo)

/-! ### Every step -/

theorem Exclusive.of_started (exclusive : Exclusive w) {request : Request} (startingUp : Bool) :
    Exclusive { w with shared := w.shared.started i (.start startingUp server request) } := by
  refine ⟨exclusive.single.of_started _,exclusive.granting,exclusive.granted,?_,?_⟩
  · rintro other ⟨j,after,now,undecided,member⟩
    rcases started_cases now with ⟨_,rfl⟩ | ⟨_,was⟩
    · simp at member
    · exact exclusive.awaited other ⟨j,after,was,undecided,member⟩
  · intro j k one two nowOne nowTwo openOne openTwo member other
    rcases started_cases nowOne with ⟨_,rfl⟩ | ⟨_,wasOne⟩
    · simp at member
    · rcases started_cases nowTwo with ⟨_,rfl⟩ | ⟨_,wasTwo⟩
      · simp at other
      · exact exclusive.oneWay j k one two wasOne wasTwo openOne openTwo member other

theorem Exclusive.step (exclusive : Exclusive w) (threaded : Threaded group key w) (counting : Counting group w)
    (more : group.members.length ≠ 2) (separate : Separate w event) (step : ThreadStep settings group key w event w') :
    Exclusive w' := by
  cases step with
  | elsewhere _ => exact exclusive
  | call _ _ _ => exact exclusive.of_started _
  | thread found move => exact exclusive.of_moved counting threaded.sound more found separate move
  | ignored _ _ =>
    have single := exclusive.single
    exact ⟨⟨single.together,single.registered,single.marked,single.cleared⟩,exclusive.granting,exclusive.granted,
      exclusive.awaited,exclusive.oneWay⟩
  | @receive packet message idle flying server body running =>
    have starts : ¬ Grants (Stage.start packet.receiver packet.sender message) := by
      cases message <;> simp only [Stage.start]
      all_goals try split_ifs
      all_goals exact id
    refine ⟨exclusive.single,?_,?_,exclusive.awaited,exclusive.oneWay⟩
    · rintro other ⟨there,stage,now,grants⟩
      by_cases here : other = packet.receiver
      · subst here
        rw [received_self] at now
        cases now
        exact absurd grants starts
      · rw [received_ne _ here] at now
        exact exclusive.granting other ⟨there,stage,now,grants⟩
    · intro other there now
      by_cases here : other = packet.receiver
      · subst here
        rw [received_self] at now
        have same := (Prod.mk.inj (Option.some.inj now)).2
        rw [same] at starts
        exact absurd trivial starts
      · rw [received_ne _ here] at now
        exact exclusive.granted other there now
  | listen busy turn => exact exclusive.of_listened threaded separate busy turn

theorem Exclusive.start {s : State} (quiet : Quiet group s) : Exclusive ⟨view key s,fun _ => none⟩ := by
  have nobody : ∀ i call, (view key s).calls i ≠ some call := fun i call found => by simp [view,quiet.noCalls] at found
  refine ⟨.start quiet,?_,?_,?_,?_⟩
  · rintro server ⟨_,_,busy,_⟩
    cases busy
  · intro server packet busy
    cases busy
  · rintro server ⟨i,call,found,_⟩
    exact absurd found (nobody i call)
  · intro i j one two found
    exact absurd found (nobody i one)

end

end CdPraticas.Exclusion
