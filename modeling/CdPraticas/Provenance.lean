import CdPraticas.Listeners
import CdPraticas.Serial

/-!
# Where values come from

Every value that is stored, carried by a message or read was stored at the start
or saved by a write of it, in every interleaving of client calls, listener
threads, membership changes and restarts.
-/

namespace CdPraticas.Provenance
open Groups Store Messages Calls Runs Programs Listeners
open Handlers (Settings LeaderManager Outcome Callback WantToWriteData)
open Cluster (notify invoke)
open Keys (notify_server notify_request notify_pc notify_answer notify_references)

/-- The values a message brings into databases and to readers. -/
def carried : Message → List DataDto
  | .askDataResponse dataDto => [dataDto]
  | .startupRequestUpdate dataDtoList | .startupResponseUpdate dataDtoList => dataDtoList
  | _ => []

def carriedBy : Body → List DataDto
  | .regular message => carried message
  | .membership _ => []

/-- Call `i` at `server` is a read of `key`. -/
def Reads (s : Threads) (server : SpreadGroup) (i : Nat) (key : String) : Prop :=
  ∃ call, s.cluster.calls i = some call ∧ call.server = server ∧ call.request = .read key

/-- The save steps of a write. -/
def Saving : Pc → Prop
  | .saveAlone | .saveData _ => True
  | _ => False

section
variable (P : String → String → Prop)

/-- What a listener thread relies on: stored values have `P` and a registered
    callback for data is that of a read of the key. -/
def rely : Rely Access (Nat → String → Prop) where
  later reads after := ∀ i key, reads i key → after i key
  refl _ _ _ := id
  trans first second i key reads := second i key (first i key reads)
  requires reads _ access :=
    match access with
    | .save dataEntity => P dataEntity.key dataEntity.data
    | .multicast send => ∀ dataDto ∈ carried (send.message), P dataDto.key dataDto.data
    | .invoke (.dataReceived reader dataDto) => reads reader dataDto.key ∧ P dataDto.key dataDto.data
    | _ => True
  returns reads _ access returned :=
    match access, returned with
    | .findById key, found => ∀ entity ∈ found, entity.key = key ∧ P key entity.data
    | .findAll, rows => ∀ entity ∈ rows, P entity.key entity.data
    | .getWaiting key, found => ∀ i ∈ found, reads i key
    | _, _ => True
  stays := by
    intro reads after _ access later requires
    cases access with
    | invoke callback =>
      cases callback with
      | dataReceived reader dataDto => exact ⟨later _ _ requires.1,requires.2⟩
      | _ => exact requires
    | _ => exact requires

end

/-! ### The handlers are safe -/

section
variable {P : String → String → Prop} {reads : Nat → String → Prop}

/-- Nothing is asked of the result of a handler. -/
def whatever {World : Type} {α : Type} : World → α → Prop := fun _ _ => True

theorem invalidateRows_safe (rows : List DataEntity) (all : ∀ entity ∈ rows, P entity.key entity.data) :
    (invalidateRows rows).Safe (rely P) reads whatever := by
  induction rows generalizing reads with
  | nil => trivial
  | cons row rest ih =>
    refine Program.Safe.bind (.single (all row List.mem_cons_self) fun _ _ _ _ => trivial) fun _ _ _ _ => ?_
    exact ih fun entity member => all entity (List.mem_cons_of_mem _ member)

theorem findStored_safe (dataDtoList : List DataDto) : (findStored dataDtoList).Safe (rely P) reads
    fun _ response => ∀ dataDto ∈ response, P dataDto.key dataDto.data := by
  induction dataDtoList generalizing reads with
  | nil => exact fun _ member => absurd member List.not_mem_nil
  | cons dataDto rest ih =>
    refine ⟨trivial,fun after _ found known => ih.bind fun _ _ response all => ?_⟩
    intro other member
    rcases List.mem_append.mp member with member | member
    · cases found with
      | none => simp at member
      | some entity =>
        obtain ⟨sameKey,has⟩ := known entity rfl
        obtain rfl : other = entity.toDto := by simpa using member
        rw [toDto_key,toDto_data,sameKey]
        exact has
    · exact all other member

theorem refreshRows_safe (dataDtoList : List DataDto) (all : ∀ dataDto ∈ dataDtoList, P dataDto.key dataDto.data) :
    (refreshRows dataDtoList).Safe (rely P) reads whatever := by
  induction dataDtoList generalizing reads with
  | nil => trivial
  | cons dataDto rest ih =>
    have more := fun other (member : other ∈ rest) => all other (List.mem_cons_of_mem _ member)
    refine ⟨trivial,fun after _ found known => ?_⟩
    cases found with
    | none => exact ih more
    | some entity =>
      obtain ⟨sameKey,_⟩ := known entity rfl
      refine ⟨?_,fun _ _ _ _ => ih more⟩
      change P entity.key dataDto.data
      rw [sameKey]
      exact all dataDto List.mem_cons_self

theorem whenWriting_safe (key : String) {writing : WantToWriteData → Handler Unit}
    (safe : ∀ reads wanted, (writing wanted).Safe (rely P) reads whatever) :
    (whenWriting key writing).Safe (rely P) reads whatever := by
  refine ⟨trivial,fun after _ found _ => ?_⟩
  cases found with
  | none => trivial
  | some _ =>
    refine ⟨trivial,fun after _ found _ => ?_⟩
    cases found with
    | none => trivial
    | some wanted => exact safe _ wanted

/-- A row that is found has a value from somewhere. -/
theorem findById_safe (key : String) {rest : Option DataEntity → Handler Unit}
    (kept : ∀ reads entity, P entity.key entity.data → (rest (some entity)).Safe (rely P) reads whatever)
    (gone : ∀ reads, (rest none).Safe (rely P) reads whatever) :
    (make (.findById key) >>= rest).Safe (rely P) reads whatever := by
  refine ⟨trivial,fun after _ found known => ?_⟩
  cases found with
  | none => exact gone _
  | some entity =>
    obtain ⟨sameKey,has⟩ := known entity rfl
    exact kept _ entity (sameKey ▸ has)

variable (settings : Settings) (me sender : SpreadGroup)

theorem checkStartup_safe (members : List SpreadGroup) : (checkStartup settings me members).Safe (rely P) reads whatever := by
  refine ⟨trivial,fun after _ waiting _ => ?_⟩
  cases waiting with
  | false => trivial
  | true =>
    change (ite _ _ _ : Handler Unit).Safe _ _ _
    split_ifs
    · trivial
    · split
      · refine ⟨trivial,fun after _ dataEntities all => ?_⟩
        refine (invalidateRows_safe dataEntities all).bind fun _ _ _ _ => .single ?_ fun _ _ _ _ => trivial
        intro dataDto member
        obtain ⟨entity,inside,rfl⟩ := List.mem_map.mp member
        exact all entity inside
      · trivial

theorem executeInvalidateData_safe (key : String) : (executeInvalidateData key).Safe (rely P) reads whatever :=
  findById_safe key (fun _ _ has => .single has fun _ _ _ _ => trivial) fun _ => trivial

theorem wantToWriteReceived_safe (data : DataDto) :
    (wantToWriteReceived settings me sender data).Safe (rely P) reads whatever := by
  unfold wantToWriteReceived
  by_cases own : sender = me
  · rw [if_pos own]
    trivial
  · rw [if_neg own]
    refine ⟨trivial,fun after _ wanted _ => ?_⟩
    cases wanted with
    | none =>
      refine (executeInvalidateData_safe data.key).bind fun _ _ _ _ => ?_
      cases settings.testConflict me
      · exact .single (fun _ member => absurd member List.not_mem_nil) fun _ _ _ _ => trivial
      · trivial
    | some _ =>
      refine ⟨fun _ member => absurd member List.not_mem_nil,fun _ _ _ _ => ⟨trivial,fun _ _ wanted _ => ?_⟩⟩
      cases wanted with
      | none => trivial
      | some wanted => exact .single trivial fun _ _ _ _ => trivial

/-- A handler of a message whose values have `P` saves, sends and hands on only such values. -/
theorem messageReceived_safe (body : Body) (all : ∀ dataDto ∈ carriedBy body, P dataDto.key dataDto.data) :
    (messageReceived settings me sender body).Safe (rely P) reads whatever := by
  cases body with
  | membership info =>
    simp only [messageReceived]
    split_ifs
    · exact ⟨trivial,fun _ _ _ _ => checkStartup_safe settings me info.members⟩
    · exact ⟨trivial,fun _ _ _ _ => trivial⟩
    · trivial
  | regular message =>
    cases message with
    | askData key =>
      simp only [messageReceived,askData]
      split_ifs
      · trivial
      · refine findById_safe key (fun _ entity has => ?_) fun _ => trivial
        change (ite _ _ _ : Handler Unit).Safe _ _ _
        split_ifs
        · refine .single (fun dataDto member => ?_) fun _ _ _ _ => trivial
          obtain rfl : dataDto = entity.toDto := by simpa [carried,Send.message] using member
          exact has
        · trivial
    | askDataResponse dataDto =>
      refine ⟨trivial,fun after _ found known => ?_⟩
      cases found with
      | none => trivial
      | some reader =>
        have own := all dataDto (List.mem_singleton.mpr rfl)
        exact ⟨⟨known reader rfl,own⟩,fun _ _ _ _ => ⟨trivial,fun _ _ _ _ => trivial⟩⟩
    | startupRequestUpdate dataDtoList =>
      exact (findStored_safe dataDtoList).bind fun _ _ response has => .single has fun _ _ _ _ => trivial
    | startupResponseUpdate dataDtoList =>
      exact (refreshRows_safe dataDtoList all).bind fun _ _ _ _ => .single trivial fun _ _ _ _ => trivial
    | wantToWrite data => exact wantToWriteReceived_safe settings me sender data
    | wantToWriteResponse key =>
      refine whenWriting_safe key fun _ data => ⟨trivial,fun _ _ _ _ => ⟨trivial,fun _ _ participants _ => ?_⟩⟩
      change (ite _ _ _ : Handler Unit).Safe _ _ _
      split_ifs
      · exact .single trivial fun _ _ _ _ => trivial
      · trivial
    | writeConflict dataDto =>
      simp only [messageReceived,conflictReceived]
      split_ifs
      · trivial
      · exact whenWriting_safe dataDto.key fun _ _ => .single trivial fun _ _ _ _ => trivial
    | dataWritten key =>
      simp only [messageReceived,dataWritten]
      split_ifs
      · trivial
      · refine findById_safe key (fun _ entity _ => ?_) fun _ => trivial
        change (ite _ _ _ : Handler Unit).Safe _ _ _
        split_ifs
        · exact .single trivial fun _ _ _ _ => trivial
        · trivial
    | revalidateData key =>
      simp only [messageReceived,revalidateData]
      split_ifs
      · trivial
      · exact findById_safe key (fun _ entity has => .single has fun _ _ _ _ => trivial) fun _ => trivial

end

/-! ### The calls -/

/-- A call holds on to values of its own key that have `P`, and answers with one. -/
structure Holds (P : String → String → Prop) (call : Call) : Prop where
  fits : call.pc.Fits call.request
  keyed : call.Keyed
  saving : ∀ entity, call.pc = .saveInvalidate entity → P entity.key entity.data
  response : ∀ dataDto, call.response = some dataDto → P dataDto.key dataDto.data
  result : ∀ dataDto, call.pc = .removeWaiting (some dataDto) ∨ call.pc = .answered (some dataDto) →
    dataDto.key = call.request.key ∧ P dataDto.key dataDto.data
  answer : ∀ key data, call.answer = some (.data key data) → data = "" ∨ key = call.request.key ∧ P key data

section
variable {P : String → String → Prop} {settings : Settings} {participants : Int} {stored : Option DataEntity} {call : Call}
  {choice : Choice} {effect : Effect} {pc : Pc}

theorem start_holds (startingUp : Bool) (server : SpreadGroup) (request : Request) :
    Holds P (.start startingUp server request) := by
  refine ⟨by rw [start_request]; exact start_fits ..,start_keyed ..,?_,?_,?_,?_⟩
  · intro entity here
    cases request <;> cases here
  · intro dataDto response
    rw [start_response] at response
    cases response
  · intro dataDto here
    cases request <;> rcases here with here | here <;> cases here
  · intro key data answer
    cases request <;> cases startingUp <;> cases answer
    exact .inl rfl

/-- What a step saves has `P`, when the step that saves a client's value does. -/
theorem move_saves (move : Move settings participants stored call choice effect pc) (holds : Holds P call)
    (own : ∀ dataDto, choice = .go → Saving call.pc → call.request = .write dataDto → P dataDto.key dataDto.data) {entity : DataEntity}
    (saves : effect = .save entity) : P entity.key entity.data := by
  cases move with
  | saveAlone write here | saveData write here =>
    cases saves
    exact own _ rfl (by rw [here]; trivial) write
  | saveInvalidate _ here =>
    cases saves
    exact holds.saving _ here
  | saveCopy _ _ response =>
    cases saves
    exact holds.response _ response
  | _ => cases saves

/-- A step of a call sends no value that could get into a database. -/
theorem move_carries_nothing (move : Move settings participants stored call choice effect pc) :
    ∀ send ∈ effect.sends, carried (send.message) = [] := by
  intro send member
  cases move with
  | sendWantToWrite _ _ | sendDataWritten _ _ | sendRevalidate _ _ | sendAskData _ _ =>
    rw [List.mem_singleton.mp member]
    rfl
  | _ => exact absurd member List.not_mem_nil

theorem Holds.goto (holds : Holds P call) (move : Move settings participants stored call choice effect pc)
    (row : ∀ entity, stored = some entity → entity.key = call.request.key ∧ P entity.key entity.data) :
    Holds P (call.goto pc) := by
  have result : ∀ dataDto, pc = .removeWaiting (some dataDto) ∨ pc = .answered (some dataDto) →
      dataDto.key = call.request.key ∧ P dataDto.key dataDto.data := by
    intro dataDto here
    cases move with
    | @localCopy _ localData _ _ found =>
      rcases here with here | here
      · cases here
      · simp only [Pc.answered.injEq] at here
        split_ifs at here
        cases here
        exact row localData found
    | saveCopy _ _ response =>
      rcases here with here | here <;> cases here
      exact ⟨holds.keyed.response _ response,holds.response _ response⟩
    | removeWaiting _ was =>
      rcases here with here | here <;> cases here
      exact holds.result dataDto (.inl was)
    | _ => rcases here with here | here <;> cases here
  refine ⟨move.fits holds.fits,move.keyed holds.keyed fun entity found => (row entity found).1,?_,holds.response,result,?_⟩
  · intro entity here
    cases move with
    | foundRow _ _ found =>
      cases here
      exact (row _ found).2
    | localCopy _ _ _ => cases here
    | _ => cases here
  · intro key data answer
    simp only [Call.goto] at answer
    cases before : call.answer with
    | some earlier =>
      rw [before] at answer
      exact holds.answer key data (before.trans answer)
    | none =>
      rw [before] at answer
      have here : pc.answer? call.request = some (.data key data) := by simpa using answer
      cases pc with
      | answered response =>
        cases response with
        | none =>
          cases here
          exact .inl rfl
        | some dataDto =>
          cases here
          obtain ⟨sameKey,has⟩ := result dataDto (.inr rfl)
          exact .inr ⟨rfl,sameKey ▸ has⟩
      | wrote exit =>
        simp only [Pc.answer?] at here
        split at here <;> cases here
      | _ => cases here

theorem invoked_response {callbacks : List Callback} {i : Nat} {call : Call} {dataDto : DataDto}
    (response : (callbacks.foldl (invoke i) call).response = some dataDto) :
    call.response = some dataDto ∨ .dataReceived i dataDto ∈ callbacks := by
  induction callbacks generalizing call with
  | nil => exact .inl response
  | cons callback rest ih =>
    rcases ih response with before | later
    · cases callback with
      | dataReceived owner sent =>
        simp only [invoke] at before
        split_ifs at before with own
        · cases before
          exact .inr (by simp [own])
        · exact .inl before
      | _ =>
        simp only [invoke] at before
        split_ifs at before <;> exact .inl before
    · exact .inr (List.mem_cons_of_mem _ later)

/-- A callback hands a read a value of its key. -/
theorem Holds.notified {sends : List Send} {callbacks : List Callback} {packet : Packet} {sent : Bool} {i : Nat}
    (holds : Holds P call) (given : ∀ dataDto, .dataReceived i dataDto ∈ callbacks →
      dataDto.key = call.request.key ∧ P dataDto.key dataDto.data) :
    Holds P (notify sends callbacks packet sent i call) := by
  have response : ∀ dataDto, (notify sends callbacks packet sent i call).response = some dataDto →
      dataDto.key = call.request.key ∧ P dataDto.key dataDto.data := by
    intro dataDto some
    rw [(notify_references ..).2.1] at some
    rcases invoked_response some with before | now
    · exact ⟨holds.keyed.response dataDto before,holds.response dataDto before⟩
    · exact given dataDto now
  refine ⟨?_,⟨?_,?_⟩,?_,fun dataDto some => (response dataDto some).2,?_,?_⟩ <;> simp only [notify_pc,notify_request,notify_answer]
  · exact holds.fits
  · exact holds.keyed.saving
  · exact fun dataDto some => (response dataDto some).1
  · exact holds.saving
  · exact holds.result
  · exact holds.answer

end

/-! ### The whole system -/

/-- Wherever a value can be, it has `P`. -/
structure Kept (P : String → String → Prop) (s : Threads) : Prop where
  stored : ∀ server key entity, (s.cluster.servers server).database.findById key = some entity → P key entity.data
  flying : ∀ packet ∈ s.cluster.network, ∀ dataDto ∈ carriedBy packet.body, P dataDto.key dataDto.data
  calls : ∀ i call, s.cluster.calls i = some call → Holds P call
  waiting : ∀ server key i, (s.cluster.servers server).waitingData key = some i → Reads s server i key
  listening : ∀ server packet handler, s.listening server = some ⟨packet,handler⟩ →
    handler.Safe (rely P) (Reads s server) whatever

section
variable {P : String → String → Prop} {settings : Settings} {s t : Threads}

theorem fresh_kept (fresh : Fresh s)
    (initial : ∀ server key entity, (s.cluster.servers server).database.findById key = some entity → P key entity.data) :
    Kept P s := by
  refine ⟨initial,?_,?_,?_,?_⟩
  · intro packet flying
    rw [fresh.noMessages] at flying
    exact absurd flying (Multiset.notMem_zero _)
  · intro i call found
    rw [fresh.noCalls] at found
    cases found
  · intro server key i waiting
    rw [fresh.noReaders] at waiting
    cases waiting
  · intro server packet handler busy
    rw [fresh.idle] at busy
    cases busy

/-- The effect of a step of a call on the stored rows and the readers. -/
theorem apply_stored {effect : Effect} {i : Nat} {self : LeaderManager} {key : String} {entity : DataEntity}
    (found : (effect.apply i self).database.findById key = some entity) :
    self.database.findById key = some entity ∨ effect = .save entity ∧ entity.key = key := by
  cases effect with
  | save saved =>
    simp only [Effect.apply,LeaderManager.save,Database.findById_save] at found
    split_ifs at found with here
    · cases found
      exact .inr ⟨rfl,here.symm⟩
    · exact .inl found
  | deleteById gone =>
    simp only [Effect.apply,LeaderManager.deleteById,Database.findById_deleteById] at found
    split_ifs at found
    exact .inl found
  | _ => exact .inl found

theorem apply_waiting {effect : Effect} {i j : Nat} {self : LeaderManager} {key : String}
    (waiting : (effect.apply i self).waitingData key = some j) :
    self.waitingData key = some j ∨ j = i ∧ effect = .putWaiting key := by
  cases effect with
  | putWaiting put =>
    simp only [Effect.apply,Function.update_apply] at waiting
    split_ifs at waiting with here
    · cases waiting
      exact .inr ⟨rfl,here ▸ rfl⟩
    · exact .inl waiting
  | removeWaiting gone =>
    simp only [Effect.apply,Function.update_apply] at waiting
    split_ifs at waiting
    exact .inl waiting
  | _ => exact .inl waiting

section
variable {α : Type} {access : Access α} {self : LeaderManager} {reads : Nat → String → Prop}

/-- The same for an access of a listener thread that has what it needs, -/
theorem perform_stored (needs : (rely P).requires reads access)
    (stored : ∀ key entity, self.database.findById key = some entity → P key entity.data) {key : String}
    {entity : DataEntity} (found : (perform access (.unchanged self)).1.manager.database.findById key = some entity) :
    P key entity.data := by
  cases access with
  | save saved =>
    simp only [perform,Outcome.unchanged,LeaderManager.save,Database.findById_save] at found
    split_ifs at found with here
    · cases found
      exact here ▸ needs
    · exact stored key entity found
  | deleteById gone =>
    simp only [perform,Outcome.unchanged,LeaderManager.deleteById,Database.findById_deleteById] at found
    split_ifs at found
    exact stored key entity found
  | increment _ _ =>
    simp only [perform] at found
    split_ifs at found <;> exact stored key entity found
  | _ => exact stored key entity found

theorem perform_waiting {key : String} {j : Nat}
    (waiting : (perform access (.unchanged self)).1.manager.waitingData key = some j) : self.waitingData key = some j := by
  cases access with
  | removeWaiting gone =>
    simp only [perform,Outcome.unchanged,Function.update_apply] at waiting
    split_ifs at waiting
    exact waiting
  | increment _ _ =>
    simp only [perform] at waiting
    split_ifs at waiting <;> exact waiting
  | _ => exact waiting

/-- what it sends -/
theorem perform_sends (needs : (rely P).requires reads access) :
    ∀ send ∈ (perform access (.unchanged self)).1.sends, ∀ dataDto ∈ carried (send.message),
      P dataDto.key dataDto.data := by
  intro send member
  cases access with
  | multicast sent =>
    obtain rfl : send = sent := by simpa [perform,Outcome.unchanged] using member
    exact needs
  | increment _ _ =>
    simp only [perform] at member
    split_ifs at member <;> exact absurd member List.not_mem_nil
  | _ => exact absurd member List.not_mem_nil

/-- the callbacks it invokes -/
theorem perform_callbacks (needs : (rely P).requires reads access) :
    ∀ i dataDto, .dataReceived i dataDto ∈ (perform access (.unchanged self)).1.callbacks →
      reads i dataDto.key ∧ P dataDto.key dataDto.data := by
  intro i dataDto member
  cases access with
  | invoke callback =>
    obtain rfl : .dataReceived i dataDto = callback := by simpa [perform,Outcome.unchanged] using member
    exact needs
  | increment _ _ =>
    simp only [perform] at member
    split_ifs at member <;> exact absurd member List.not_mem_nil
  | _ => exact absurd member List.not_mem_nil

/-- and what it returns. -/
theorem perform_returns (stored : ∀ key entity, self.database.findById key = some entity → P key entity.data)
    (waiting : ∀ key i, self.waitingData key = some i → reads i key) :
    (rely P).returns reads access (perform access (.unchanged self)).2 := by
  cases access with
  | findById key => exact fun entity found => ⟨Database.findById_key found,stored key entity found⟩
  | findAll => exact fun entity member => stored _ entity ((Database.mem_findAll ..).mp member)
  | getWaiting key => exact waiting key
  | _ => trivial
end

/-! ### Every step keeps it -/

/-- What is kept when no call disappears: the handlers at work stay safe. -/
theorem Kept.next (kept : Kept P s)
    (stays : ∀ i call, s.cluster.calls i = some call → ∃ after, t.cluster.calls i = some after ∧
      after.server = call.server ∧ after.request = call.request)
    (stored : ∀ server key entity, (t.cluster.servers server).database.findById key = some entity → P key entity.data)
    (flying : ∀ packet ∈ t.cluster.network, ∀ dataDto ∈ carriedBy packet.body, P dataDto.key dataDto.data)
    (calls : ∀ i call, t.cluster.calls i = some call → Holds P call)
    (waiting : ∀ server key i, (t.cluster.servers server).waitingData key = some i →
      (s.cluster.servers server).waitingData key = some i ∨ Reads t server i key)
    (listening : ∀ server packet handler, t.listening server = some ⟨packet,handler⟩ →
      s.listening server = some ⟨packet,handler⟩ ∨ handler.Safe (rely P) (Reads t server) whatever) : Kept P t := by
  have later : ∀ server i key, Reads s server i key → Reads t server i key := by
    rintro server i key ⟨call,found,here,read⟩
    obtain ⟨after,now,sameServer,sameRequest⟩ := stays i call found
    exact ⟨after,now,sameServer.trans here,sameRequest.trans read⟩
  refine ⟨stored,flying,calls,fun server key i registered => ?_,fun server packet handler busy => ?_⟩
  · rcases waiting server key i registered with before | reads
    · exact later _ _ _ (kept.waiting server key i before)
    · exact reads
  · rcases listening server packet handler busy with before | safe
    · exact (kept.listening server packet handler before).later (later server) fun _ _ => trivial
    · exact safe

theorem Kept.of_call (kept : Kept P s) {i : Nat} {server : SpreadGroup} {request : Request}
    (move : Listeners.step settings (.call i server request) s = some t) : Kept P t := by
  obtain ⟨fresh,rfl⟩ := step_call move
  refine kept.next (fun j call found => ?_) kept.stored kept.flying (fun j call found => ?_) (fun _ _ _ => .inl)
    fun _ _ _ => .inl
  · have different : j ≠ i := by
      rintro rfl
      rw [fresh] at found
      cases found
    exact ⟨call,by simpa [different] using found,rfl,rfl⟩
  · by_cases same : j = i
    · subst same
      simp only [Function.update_self,Option.some.injEq] at found
      subst found
      exact start_holds ..
    · exact kept.calls j call (by simpa [same] using found)

theorem Kept.of_thread (kept : Kept P s) {i : Nat} {choice : Choice}
    (saves : ∀ call dataDto, choice = .go → s.cluster.calls i = some call → Saving call.pc →
      call.request = .write dataDto → P dataDto.key dataDto.data)
    (move : Listeners.step settings (.thread i choice) s = some t) : Kept P t := by
  obtain ⟨call,effect,pc,found,nexts,rfl⟩ := step_thread move
  have moved := next_move nexts
  have holds := kept.calls i call found
  refine kept.next (fun j other was => ?_) (fun g key entity row => ?_) (fun packet flying => ?_)
    (fun j other was => ?_) (fun g key j waiting => ?_) fun _ _ _ => .inl
  · by_cases same : j = i
    · subst same
      rw [found] at was
      cases was
      exact ⟨_,Function.update_self ..,rfl,rfl⟩
    · exact ⟨other,by simpa [same] using was,rfl,rfl⟩
  · by_cases here : g = call.server
    · subst here
      simp only [Function.update_self] at row
      rcases apply_stored row with before | ⟨saved,rfl⟩
      · exact kept.stored _ key entity before
      · exact move_saves moved holds (fun dataDto go => saves call dataDto go found) saved
    · exact kept.stored g key entity (by simpa [here] using row)
  · rcases Multiset.mem_add.mp flying with flying | sent
    · exact kept.flying packet flying
    · obtain ⟨-,send,member,body⟩ := packets_carry sent
      rw [body,carriedBy,move_carries_nothing moved send member]
      exact fun _ member => absurd member List.not_mem_nil
  · by_cases same : j = i
    · subst same
      simp only [Function.update_self,Option.some.injEq] at was
      subst was
      refine holds.goto moved fun entity row => ?_
      have own := Database.findById_key row
      exact ⟨own,own ▸ kept.stored _ _ entity row⟩
    · exact kept.calls j other (by simpa [same] using was)
  · by_cases here : g = call.server
    · subst here
      simp only [Function.update_self] at waiting
      refine (apply_waiting waiting).imp_right ?_
      rintro ⟨rfl,rfl⟩
      exact ⟨_,Function.update_self ..,rfl,moved.putWaiting_read⟩
    · exact .inl (by simpa [here] using waiting)

theorem Kept.of_receive (kept : Kept P s) {packet : Packet} (move : Listeners.step settings (.receive packet) s = some t) :
    Kept P t := by
  simp only [Listeners.step] at move
  split_ifs at move with guard service
  all_goals
    cases move
    obtain ⟨flying,idle⟩ := guard
    have others : ∀ other ∈ s.cluster.network.erase packet, ∀ dataDto ∈ carriedBy other.body, P dataDto.key dataDto.data :=
      fun other member => kept.flying other (Multiset.mem_of_mem_erase member)
  · exact kept.next (fun i call found => ⟨call,found,rfl,rfl⟩) kept.stored others kept.calls (fun _ _ _ => .inl)
      fun _ _ _ => .inl
  · refine kept.next (fun i call found => ⟨call,found,rfl,rfl⟩) kept.stored others kept.calls (fun _ _ _ => .inl)
      fun g other handler busy => ?_
    by_cases here : g = packet.receiver
    · subst here
      simp only [Function.update_self,Option.some.injEq,Listening.mk.injEq] at busy
      obtain ⟨rfl,rfl⟩ := busy
      exact .inr (messageReceived_safe settings _ _ _ (kept.flying packet flying))
    · exact .inl (by simpa [here] using busy)

theorem Kept.of_listen (kept : Kept P s) {server : SpreadGroup} {sent : Bool}
    (move : Listeners.step settings (.listen server sent) s = some t) : Kept P t := by
  rcases step_listen move with ⟨packet,value,_,rfl⟩ | ⟨packet,α,access,rest,busy,rfl⟩
  · refine kept.next (fun i call found => ⟨call,found,rfl,rfl⟩) kept.stored kept.flying kept.calls (fun _ _ _ => .inl)
      fun g other handler busy => ?_
    by_cases here : g = server
    · subst here
      simp at busy
    · exact .inl (by simpa [here] using busy)
  · obtain ⟨needs,safe⟩ := kept.listening server packet _ busy
    have reads := fun key i => kept.waiting server key i
    refine kept.next (fun i call found => ?_) (fun g key entity row => ?_) (fun other flying => ?_)
      (fun i call found => ?_) (fun g key i waiting => ?_) fun g other handler busy => ?_
    · exact ⟨_,by rw [listened_calls,found]; rfl,by simp,by simp⟩
    · by_cases here : g = server
      · subst here
        simp only [listened_servers,Function.update_self] at row
        exact perform_stored needs (kept.stored g) row
      · exact kept.stored g key entity (by simpa [here] using row)
    · rcases Multiset.mem_add.mp flying with flying | new
      · exact kept.flying other flying
      · split_ifs at new
        · obtain ⟨-,send,member,body⟩ := packets_carry new
          rw [body]
          exact perform_sends needs send member
        · exact absurd new (Multiset.notMem_zero _)
    · obtain ⟨before,was,rfl⟩ := Option.map_eq_some_iff.mp found
      refine (kept.calls i before was).notified fun dataDto member => ?_
      obtain ⟨⟨reader,readerFound,_,read⟩,has⟩ := perform_callbacks needs i dataDto member
      rw [was] at readerFound
      cases readerFound
      exact ⟨by rw [read]; rfl,has⟩
    · by_cases here : g = server
      · subst here
        simp only [listened_servers,Function.update_self] at waiting
        exact .inl (perform_waiting waiting)
      · exact .inl (by simpa [here] using waiting)
    · by_cases here : g = server
      · subst here
        simp only [listened_listening,Function.update_self,Option.some.injEq,Listening.mk.injEq] at busy
        obtain ⟨rfl,rfl⟩ := busy
        refine .inr (safe _ ?_ _ ?_)
        · rintro i key ⟨call,found,rest⟩
          exact ⟨_,by rw [listened_calls,found]; rfl,by simpa using rest⟩
        · refine perform_returns (kept.stored g) fun key i waiting => ?_
          obtain ⟨call,found,rest⟩ := kept.waiting g key i waiting
          exact ⟨_,by rw [listened_calls,found]; rfl,by simpa using rest⟩
      · exact .inl (by simpa [here] using busy)

theorem Kept.of_view (kept : Kept P s) {info : MembershipInfo} (move : Listeners.step settings (.view info) s = some t) :
    Kept P t := by
  obtain rfl := step_view move
  refine kept.next (fun i call found => ⟨call,found,rfl,rfl⟩) kept.stored (fun packet flying => ?_) kept.calls
    (fun _ _ _ => .inl) fun _ _ _ => .inl
  rcases Multiset.mem_add.mp flying with flying | new
  · exact kept.flying packet flying
  · obtain ⟨_,_,rfl⟩ := List.mem_map.mp (Multiset.mem_coe.mp new)
    exact fun _ member => absurd member List.not_mem_nil

/-- A server that starts again forgets its callbacks together with its calls. -/
theorem Kept.of_boot (kept : Kept P s) {server : SpreadGroup} (move : Listeners.step settings (.boot server) s = some t) :
    Kept P t := by
  obtain rfl := step_boot move
  have elsewhere : ∀ g i key, g ≠ server → Reads s g i key → ∃ call,
      (s.cluster.calls i).filter (fun call => call.server ≠ server) = some call ∧ call.server = g ∧
        call.request = .read key := by
    rintro g i key different ⟨call,found,rfl,read⟩
    exact ⟨call,by simp [found,Option.filter,different],rfl,read⟩
  refine ⟨fun g key entity row => ?_,kept.flying,fun i call found => ?_,fun g key i waiting => ?_,
    fun g packet handler busy => ?_⟩
  · refine kept.stored g key entity ?_
    by_cases here : g = server
    · subst here
      simpa [LeaderManager.initial] using row
    · simpa [here] using row
  · obtain ⟨found,_⟩ := Option.filter_eq_some_iff.mp found
    exact kept.calls i call found
  · by_cases here : g = server
    · subst here
      simp [LeaderManager.initial] at waiting
    · exact elsewhere g i key here (kept.waiting g key i (by simpa [here] using waiting))
  · by_cases here : g = server
    · subst here
      simp at busy
    · refine (kept.listening g packet handler (by simpa [here] using busy)).later ?_ fun _ _ => trivial
      exact fun i key reads => elsewhere g i key here reads

/-- A step keeps it when the values it saves for clients have `P`. -/
theorem Kept.step (kept : Kept P s) {event : Event}
    (saves : ∀ i call dataDto, event = .thread i .go → s.cluster.calls i = some call → Saving call.pc →
      call.request = .write dataDto → P dataDto.key dataDto.data)
    (move : Listeners.step settings event s = some t) : Kept P t := by
  cases event with
  | call i server request => exact kept.of_call move
  | thread i choice =>
    refine kept.of_thread (fun call dataDto go found saving write => ?_) move
    exact saves i call dataDto (by rw [go]) found saving write
  | view info => exact kept.of_view move
  | boot server => exact kept.of_boot move
  | receive packet => exact kept.of_receive move
  | listen server sent => exact kept.of_listen move

end

/-! ### Provenance -/

/-- After `before`, call `i` is a write of `dataDto` that a client has sent, and is
    about to save it. -/
structure SavedBy (settings : Settings) (s : Threads) (i : Nat) (dataDto : DataDto) (before : List Event) : Prop where
  submitted : ∃ server, .call i server (.write dataDto) ∈ before
  saving : ∃ t call, Run (Runs.Steps (Listeners.step settings)) s before t ∧ t.cluster.calls i = some call ∧
    call.request = .write dataDto ∧ Saving call.pc

/-- A value of a key that some server had stored at the start or a client wrote,
    in a write whose save step has run. -/
def Sourced (settings : Settings) (s : Threads) (events : List Event) (key data : String) : Prop :=
  (∃ server entity, (s.cluster.servers server).database.findById key = some entity ∧ entity.data = data) ∨
  ∃ i before after, events = before ++ .thread i .go :: after ∧ SavedBy settings s i ⟨key,data⟩ before

section
variable {settings : Settings} {s t : Threads} {events : List Event}

/-- What a step leaves of the calls: those there were, with their request, and the
    one that comes in. -/
theorem step_calls {event : Event} (move : Listeners.step settings event s = some t) {i : Nat} {call : Call}
    (found : t.cluster.calls i = some call) :
    (∃ server, event = .call i server call.request ∧ ∃ startingUp, call = .start startingUp server call.request) ∨
    ∃ before, s.cluster.calls i = some before ∧ call.request = before.request ∧
      (call.pc = before.pc ∨ ∃ choice effect stored participants, event = .thread i choice ∧
        Move settings participants stored before choice effect call.pc) := by
  cases event with
  | call j server request =>
    obtain ⟨_,rfl⟩ := step_call move
    by_cases same : i = j
    · subst same
      simp only [Function.update_self,Option.some.injEq] at found
      subst found
      exact .inl ⟨server,by rw [start_request],_,by rw [start_request]⟩
    · exact .inr ⟨call,by simpa [same] using found,rfl,.inl rfl⟩
  | thread j choice =>
    obtain ⟨running,effect,pc,was,nexts,rfl⟩ := step_thread move
    by_cases same : i = j
    · subst same
      simp only [Function.update_self,Option.some.injEq] at found
      subst found
      exact .inr ⟨running,was,rfl,.inr ⟨_,_,_,_,rfl,next_move nexts⟩⟩
    · exact .inr ⟨call,by simpa [same] using found,rfl,.inl rfl⟩
  | view info =>
    obtain rfl := step_view move
    exact .inr ⟨call,found,rfl,.inl rfl⟩
  | boot server =>
    obtain rfl := step_boot move
    exact .inr ⟨call,(Option.filter_eq_some_iff.mp found).1,rfl,.inl rfl⟩
  | receive packet =>
    simp only [Listeners.step] at move
    split_ifs at move <;> cases move <;> exact .inr ⟨call,found,rfl,.inl rfl⟩
  | listen server sent =>
    rcases step_listen move with ⟨_,_,_,rfl⟩ | ⟨packet,_,access,_,_,rfl⟩
    · exact .inr ⟨call,found,rfl,.inl rfl⟩
    · obtain ⟨before,was,rfl⟩ := Option.map_eq_some_iff.mp found
      exact .inr ⟨before,was,by simp,.inl (by simp)⟩

theorem thread_moves {i : Nat} {choice : Choice} {call : Call}
    (move : Listeners.step settings (.thread i choice) s = some t) (found : s.cluster.calls i = some call) :
    ∃ participants stored effect pc, Move settings participants stored call choice effect pc ∧
      t.cluster.calls i = some (call.goto pc) := by
  obtain ⟨running,effect,pc,found',nexts,rfl⟩ := step_thread move
  cases found.symm.trans found'
  exact ⟨_,_,_,_,next_move nexts,Function.update_self ..⟩

/-- Every call has come in. -/
theorem run_submitted (fresh : Fresh s) (run : Run (Runs.Steps (Listeners.step settings)) s events t) :
    ∀ i call, t.cluster.calls i = some call → ∃ server, .call i server call.request ∈ events := by
  refine run.invariant (P := fun events t => ∀ i call, t.cluster.calls i = some call →
    ∃ server, .call i server call.request ∈ events) ?_ ?_
  · intro i call found
    rw [fresh.noCalls] at found
    cases found
  · intro events t event u _ known move i call found
    rcases step_calls move found with ⟨server,rfl,_⟩ | ⟨before,was,request,_⟩
    · exact ⟨server,by simp⟩
    · obtain ⟨server,member⟩ := known i before was
      exact ⟨server,by rw [request]; simp [member]⟩

/-- Whatever is true of the values there were and of those that writes save is true
    of every value. -/
theorem run_kept {P : String → String → Prop} (fresh : Fresh s)
    (sourced : ∀ key data, Sourced settings s events key data → P key data)
    (run : Run (Runs.Steps (Listeners.step settings)) s events t) : Kept P t := by
  induction run with
  | start =>
    refine fresh_kept fresh fun server key entity found => ?_
    exact sourced key entity.data (.inl ⟨server,entity,found,rfl⟩)
  | @next events u t event before move ih =>
    refine (ih fun key data had => sourced key data ?_).step (fun i call dataDto go found saving write => ?_) move
    · rcases had with stored | ⟨i,front,back,rfl,saved⟩
      · exact .inl stored
      · exact .inr ⟨i,front,back ++ [event],by simp,saved⟩
    · subst go
      obtain ⟨server,member⟩ := run_submitted fresh before i call found
      refine sourced _ _ (.inr ⟨i,events,[],rfl,⟨⟨server,write ▸ member⟩,u,call,before,found,write,saving⟩⟩)

/-- A write that has saved keeps to it as long as its number is not given away. -/
theorem run_saved {more : List Event} {i : Nat} {u : Threads} (fresh : Fresh s)
    (before : Run (Runs.Steps (Listeners.step settings)) s events t)
    (saved : ∀ call, t.cluster.calls i = some call → call.pc.Saved)
    (run : Run (Runs.Steps (Listeners.step settings)) t more u)
    (same : ∀ server request, .call i server request ∉ more) :
    ∀ call, u.cluster.calls i = some call → call.pc.Saved := by
  refine run.invariant (P := fun more u => (∀ server request, .call i server request ∉ more) →
    ∀ call, u.cluster.calls i = some call → call.pc.Saved) (fun _ => saved) ?_ same
  intro more w event x later ih move same call found
  have earlier := ih fun server request member => same server request (by simp [member])
  rcases step_calls move found with ⟨server,rfl,_⟩ | ⟨old,was,request,here | ⟨choice,effect,stored,participants,_,moved⟩⟩
  · exact absurd (by simp) (same server call.request)
  · rw [here]
    exact earlier old was
  · have all : Kept (fun _ _ => True) w := run_kept fresh (fun _ _ _ => trivial) (before.append later)
    exact moved.saved (earlier old was) (all.calls i old was).fits

/-- Saving is followed by success. -/
theorem saves_saved {settings : Settings} {participants : Int} {stored : Option DataEntity} {call : Call} {choice : Choice}
    {effect : Effect} {pc : Pc} (move : Move settings participants stored call choice effect pc) (saving : Saving call.pc) :
    pc.Saved := by
  cases move <;> simp_all [Saving,Pc.Saved,Exit.success]

/-- In every run from a fresh start, a value that is stored, carried by an answer or
    a startup message or read by a client was stored at the start or saved by a write
    of that key and value; and a write that has saved does not fail. -/
theorem provenance (fresh : Fresh s) (run : Run (Runs.Steps (Listeners.step settings)) s events t) :
    (∀ server key entity, (t.cluster.servers server).database.findById key = some entity →
      Sourced settings s events key entity.data) ∧
    (∀ packet ∈ t.cluster.network, ∀ dataDto ∈ carriedBy packet.body,
      Sourced settings s events dataDto.key dataDto.data) ∧
    (∀ i call key about data, t.cluster.calls i = some call → call.request = .read key →
      call.answer = some (.data about data) → data ≠ "" → about = key ∧ Sourced settings s events key data) ∧
    ∀ i dataDto before after call exit, events = before ++ .thread i .go :: after → SavedBy settings s i dataDto before →
      (∀ server request, .call i server request ∉ after) → t.cluster.calls i = some call → call.pc = .wrote exit →
      exit.success = some true := by
  have kept : Kept (Sourced settings s events) t := run_kept fresh (fun _ _ sourced => sourced) run
  refine ⟨kept.stored,kept.flying,fun i call key about data found read answer some => ?_,?_⟩
  · rcases (kept.calls i call found).answer about data answer with empty | ⟨own,sourced⟩
    · exact absurd empty some
    · have same : about = key := by rw [own,read]; rfl
      exact ⟨same,same ▸ sourced⟩
  · rintro i dataDto before after call exit rfl ⟨_,u,saver,first,was,_,saving⟩ same found here
    rw [List.append_cons] at run
    obtain ⟨w,front,rest⟩ := run.split
    obtain ⟨u',first',save⟩ := front.snoc
    obtain rfl := first.unique first'
    have saved : ∀ later, w.cluster.calls i = some later → later.pc.Saved := by
      intro later now
      obtain ⟨_,_,_,_,moved,next⟩ := thread_moves save was
      rw [next] at now
      cases now
      exact saves_saved moved saving
    have done := run_saved fresh front saved rest same call found
    rw [here] at done
    exact done

end

/-- Two servers with idle listener threads, of which server 2 has an old value. -/
def atRest : Threads := ⟨Keys.pair.initial Serial.oldValue,fun _ => none⟩

/-- Server 1 reads the value of server 2. -/
def copied : List Event := List.flatten
  [[.call 0 Keys.server1 (.read "k")],List.replicate 3 (.thread 0 .go),
   [.receive ⟨Keys.server2,Keys.server1,.regular (.askData "k"),some 0⟩],List.replicate 3 (.listen Keys.server2 true),
   [.receive ⟨Keys.server1,Keys.server2,.regular (.askDataResponse ⟨"k","old"⟩),some 0⟩],
   List.replicate 4 (.listen Keys.server1 true),List.replicate 3 (.thread 0 .go)]

theorem provenance_pair : ∃ t, Run (Runs.Steps (Listeners.step .properties)) atRest copied t ∧
    (t.cluster.servers Keys.server1).database.findById "k" = some ⟨"k",none,"old"⟩ ∧
    Sourced .properties atRest copied "k" "old" := by
  obtain ⟨t,executed,stored⟩ := (Option.any_eq_true ..).mp (show (exec (Listeners.step .properties) (fun _ _ => true) atRest
    copied).any (fun t => decide ((t.cluster.servers Keys.server1).database.findById "k" = some ⟨"k",none,"old"⟩)) = true by
      decide)
  have run := (run_of_exec copied atRest t executed).unrestrict
  have found := of_decide_eq_true stored
  exact ⟨t,run,found,(provenance ⟨fun _ => rfl,rfl,fun _ _ => rfl,fun _ => rfl⟩ run).1 _ "k" _ found⟩

end CdPraticas.Provenance
