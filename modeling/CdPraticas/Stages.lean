import CdPraticas.Listeners
import CdPraticas.Rounds

/-!
# Handlers stage by stage

The handler of a message about one key stands, between two of its accesses, at one of
a few stages, with what it has found so far. What each access looks at and does is
listed here for the fields of the key; the programs of the handlers are their stages.
-/

namespace CdPraticas.Stages
open Groups Store Messages Calls Cluster Keys Rounds Programs Listeners
open Handlers (Settings LeaderManager Outcome Callback WantToWriteData)

/-- Where the handler of a message about a key stands: before which access, and with what. -/
inductive Stage
  | askData
  | answer (dataDto : DataDto)
  | askDataResponse (dataDto : DataDto)
  | dataReceived (reader : Nat) (dataDto : DataDto)
  | removeWaiting
  | wantToWrite (data : DataDto)
  | findInvalidate
  | saveInvalidate (dataEntity : DataEntity)
  | grant
  | refuse (data : DataDto)
  | refused
  | wantToWriteResponse
  | getData
  | increment (data : WantToWriteData)
  | compare (data : WantToWriteData)
  | allResponses (callback : Nat)
  | writeConflict
  | getConflict
  | conflict (callback : Nat)
  | dataWritten
  | deleteById
  | revalidateData
  | saveRevalidated (dataEntity : DataEntity)
  | done

section
variable (settings : Settings) (key : String) (me sender : SpreadGroup)

/-- A server ignores most of its own messages. -/
def Stage.start : Message → Stage
  | .askData _ => if sender = me then .done else .askData
  | .askDataResponse dataDto => .askDataResponse dataDto
  | .wantToWrite data => if sender = me then .done else .wantToWrite data
  | .wantToWriteResponse _ => .wantToWriteResponse
  | .writeConflict _ => if sender = me then .done else .writeConflict
  | .dataWritten _ => if sender = me then .done else .dataWritten
  | .revalidateData _ => if sender = me then .done else .revalidateData
  | .startupRequestUpdate _ | .startupResponseUpdate _ => .done

/-- The end of `wantToWriteReceived` once the copy is invalid. -/
def respond : Handler Unit :=
  if ! settings.testConflict me then make (.multicast (.unicast (.wantToWriteResponse key) sender)) else pure ()

/-- The end of a refusal or of `conflictReceived`. -/
def disturb : Option WantToWriteData → Handler Unit
  | some wanted => make (.invoke (.conflict wanted.callback sender))
  | none => pure ()

/-- The end of `wantToWriteResponse`. -/
def compareResponses (data : WantToWriteData) : Handler Unit := do
  let numberOfParticipants ← make .getNumberOfParticipants
  if ((data.receivedResponses + 1 : Nat) : Int) ≥ numberOfParticipants - 2 then
    make (.invoke (.allResponsesReceived data.callback))

def countResponse : Option WantToWriteData → Handler Unit
  | some data => do
    make (.increment key data)
    compareResponses data
  | none => pure ()

/-- What is left of a handler. -/
def Stage.program : Stage → Handler Unit
  | .askData => do
    match ← make (.findById key) with
    | some localData =>
      if localData.invalidate = none ∨ localData.invalidate = some false then
        make (.multicast (.unicast (.askDataResponse localData.toDto) sender))
    | none => pure ()
  | .answer dataDto => make (.multicast (.unicast (.askDataResponse dataDto) sender))
  | .askDataResponse dataDto => do
    match ← make (.getWaiting key) with
    | some callback => do
      make (.invoke (.dataReceived callback dataDto))
      make (.removeWaiting key)
    | none => pure ()
  | .dataReceived reader dataDto => do
    make (.invoke (.dataReceived reader dataDto))
    make (.removeWaiting key)
  | .removeWaiting => make (.removeWaiting key)
  | .wantToWrite data => do
    match ← make (.getWantToWrite key) with
    | none => do
      executeInvalidateData key
      respond settings key me sender
    | some _ => do
      make (.multicast (.multicast (.writeConflict data)))
      let wanted ← make (.getWantToWrite key)
      disturb sender wanted
  | .findInvalidate => do
    executeInvalidateData key
    respond settings key me sender
  | .saveInvalidate dataEntity => do
    make (.save dataEntity)
    respond settings key me sender
  | .grant => make (.multicast (.unicast (.wantToWriteResponse key) sender))
  | .refuse data => do
    make (.multicast (.multicast (.writeConflict data)))
    let wanted ← make (.getWantToWrite key)
    disturb sender wanted
  | .refused | .getConflict => do
    let wanted ← make (.getWantToWrite key)
    disturb sender wanted
  | .wantToWriteResponse => Listeners.wantToWriteResponse key
  | .getData => do
    let data ← make (.getWantToWrite key)
    countResponse key data
  | .increment data => countResponse key (some data)
  | .compare data => compareResponses data
  | .allResponses callback => make (.invoke (.allResponsesReceived callback))
  | .writeConflict => whenWriting key fun wanted => make (.invoke (.conflict wanted.callback sender))
  | .conflict callback => make (.invoke (.conflict callback sender))
  | .dataWritten => do
    match ← make (.findById key) with
    | some dataEntity => if dataEntity.invalidate = some true then make (.deleteById key)
    | none => pure ()
  | .deleteById => make (.deleteById key)
  | .revalidateData => do
    match ← make (.findById key) with
    | some data => make (.save (data.setInvalidate false))
    | none => pure ()
  | .saveRevalidated dataEntity => make (.save dataEntity)
  | .done => pure ()

/-- The handler of a message about the key is at its first stage. -/
theorem start_program {message : Message} (about : message.key? = some key) :
    messageReceived settings me sender (.regular message) = (Stage.start me sender message).program settings key me sender := by
  cases message with
  | startupRequestUpdate _ | startupResponseUpdate _ => cases about
  | askDataResponse _ | wantToWriteResponse _ => cases about; rfl
  | wantToWrite data =>
    cases about
    simp only [messageReceived,Stage.start,wantToWriteReceived]
    by_cases own : sender = me
    · rw [if_pos own,if_pos own]
      rfl
    · rw [if_neg own,if_neg own]
      rfl
  | _ =>
    cases about
    simp only [messageReceived,Stage.start,askData,conflictReceived,dataWritten,revalidateData]
    split_ifs <;> rfl

end

/-! ### What an access does to the key -/

section
variable (settings : Settings) (participants : Int) (key : String) (me sender : SpreadGroup) (held : Fields)

/-- Accesses that look at something and change nothing. -/
inductive Looks : Stage → Stage → Prop
  | validCopy {entity : DataEntity} (stored : held.row = some entity) (valid : entity.Valid) : Looks .askData (.answer entity.toDto)
  | noValidCopy (none : ∀ entity, held.row = some entity → ¬ entity.Valid) : Looks .askData .done
  | reader {dataDto : DataDto} {reader : Nat} (waiting : held.waiting = some reader) :
      Looks (.askDataResponse dataDto) (.dataReceived reader dataDto)
  | noReader {dataDto : DataDto} (none : held.waiting = none) : Looks (.askDataResponse dataDto) .done
  | free {data : DataDto} (none : held.slot = none) : Looks (.wantToWrite data) .findInvalidate
  | writing {data : DataDto} {wanted : WantToWriteData} (slot : held.slot = some wanted) : Looks (.wantToWrite data) (.refuse data)
  | row {entity : DataEntity} (stored : held.row = some entity) : Looks .findInvalidate (.saveInvalidate (entity.setInvalidate true))
  | noRow {next : Stage} (none : held.row = none) (ready : next = if settings.testConflict me then .done else .grant) :
      Looks .findInvalidate next
  | stillWriting {stage : Stage} {wanted : WantToWriteData} (here : stage = .refused ∨ stage = .getConflict)
      (slot : held.slot = some wanted) : Looks stage (.conflict wanted.callback)
  | notWriting {stage : Stage} (here : stage ∈ [.refused,.getConflict,.wantToWriteResponse,.getData,.writeConflict])
      (none : held.slot = none) : Looks stage .done
  | responds {wanted : WantToWriteData} (slot : held.slot = some wanted) : Looks .wantToWriteResponse .getData
  | conflicts {wanted : WantToWriteData} (slot : held.slot = some wanted) : Looks .writeConflict .getConflict
  | gets {wanted : WantToWriteData} (slot : held.slot = some wanted) : Looks .getData (.increment wanted)
  | misses {data : WantToWriteData} (other : held.slot ≠ some data) : Looks (.increment data) (.compare data)
  | enough {data : WantToWriteData} (many : ((data.receivedResponses + 1 : Nat) : Int) ≥ participants - 2) :
      Looks (.compare data) (.allResponses data.callback)
  | tooFew {data : WantToWriteData} (few : ¬ ((data.receivedResponses + 1 : Nat) : Int) ≥ participants - 2) :
      Looks (.compare data) .done
  | invalidCopy {entity : DataEntity} (stored : held.row = some entity) (invalid : ¬ entity.Valid) : Looks .dataWritten .deleteById
  | noInvalidCopy (none : ∀ entity, held.row = some entity → entity.Valid) : Looks .dataWritten .done
  | copy {entity : DataEntity} (stored : held.row = some entity) :
      Looks .revalidateData (.saveRevalidated (entity.setInvalidate false))
  | noCopy (none : held.row = none) : Looks .revalidateData .done

/-- Accesses that change the fields, send or invoke a callback. -/
inductive Acts : Stage → Fields → List Send → List Callback → Stage → Prop
  | answers {dataDto : DataDto} : Acts (.answer dataDto) held [.unicast (.askDataResponse dataDto) sender] [] .done
  | hands {reader : Nat} {dataDto : DataDto} :
      Acts (.dataReceived reader dataDto) held [] [.dataReceived reader dataDto] .removeWaiting
  | removes : Acts .removeWaiting { held with waiting := none } [] [] .done
  | invalidates {entity : DataEntity} {next : Stage} (ready : next = if settings.testConflict me then .done else .grant) :
      Acts (.saveInvalidate entity) { held with row := some entity } [] [] next
  | grants : Acts .grant held [.unicast (.wantToWriteResponse key) sender] [] .done
  | refuses {data : DataDto} : Acts (.refuse data) held [.multicast (.writeConflict data)] [] .refused
  | increments {data : WantToWriteData} (same : held.slot = some data) :
      Acts (.increment data) { held with slot := some ⟨data.receivedResponses + 1,data.callback⟩ } [] [] (.compare data)
  | completes {callback : Nat} : Acts (.allResponses callback) held [] [.allResponsesReceived callback] .done
  | tells {callback : Nat} : Acts (.conflict callback) held [] [.conflict callback sender] .done
  | deletes : Acts .deleteById { held with row := none } [] [] .done
  | revalidates {entity : DataEntity} : Acts (.saveRevalidated entity) { held with row := some entity } [] [] .done

/-- What the next access of a handler does, and where it leads. -/
inductive Turn (stage : Stage) (held' : Fields) (sends : List Send) (callbacks : List Callback) (next : Stage) : Prop
  | looks (looks : Looks settings participants me held stage next) (same : held' = held) (quiet : sends = []) (silent : callbacks = [])
  | acts (acts : Acts settings key me sender held stage held' sends callbacks next)

end

section
variable (settings : Settings) (key : String) (me sender : SpreadGroup) (self : LeaderManager)

/-- The entities and values that a handler holds on to are about the key. -/
def Stage.Keyed : Stage → Prop
  | .answer dataDto | .askDataResponse dataDto | .dataReceived _ dataDto | .wantToWrite dataDto | .refuse dataDto =>
    dataDto.key = key
  | .saveInvalidate entity | .saveRevalidated entity => entity.key = key
  | _ => True

/-- What the access at the head of a handler does to a server. -/
structure Made {α : Type} (access : Access α) (stage : Stage) (rest : α → Handler Unit) : Prop where
  turn : ∃ next : Stage, rest (perform access (.unchanged self)).2 = next.program settings key me sender ∧
    Turn settings self.numberOfParticipants key me sender (fields self key) stage
      (fields (perform access (.unchanged self)).1.manager key) (perform access (.unchanged self)).1.sends
      (perform access (.unchanged self)).1.callbacks next
  elsewhere : ∀ other, other ≠ key → fields (perform access (.unchanged self)).1.manager other = fields self other
  participants : (perform access (.unchanged self)).1.manager.numberOfParticipants = self.numberOfParticipants
  startingUp : (perform access (.unchanged self)).1.manager.waitStartupDataUpdate = self.waitStartupDataUpdate

variable {settings key me sender self} {α : Type} {access : Access α} {rest : α → Handler Unit} {returned : α} {stage : Stage}

theorem Made.of_looks (next : Stage) (quiet : perform access (.unchanged self) = (.unchanged self,returned))
    (goes : rest returned = next.program settings key me sender)
    (looks : Looks settings self.numberOfParticipants me (fields self key) stage next) :
    Made settings key me sender self access stage rest := by
  refine ⟨⟨next,?_,.looks looks ?_ ?_ ?_⟩,?_,?_,?_⟩ <;> rw [quiet]
  · exact goes
  · rfl
  · rfl
  · rfl
  · exact fun _ _ => rfl
  · rfl
  · rfl

/-- An access that changes the fields, -/
theorem Made.of_fields (next : Stage) (manager : LeaderManager) (held : Fields)
    (changed : perform access (.unchanged self) = (.unchanged manager,returned)) (same : fields manager key = held)
    (elsewhere : ∀ other, other ≠ key → fields manager other = fields self other)
    (participants : manager.numberOfParticipants = self.numberOfParticipants)
    (startingUp : manager.waitStartupDataUpdate = self.waitStartupDataUpdate)
    (goes : rest returned = next.program settings key me sender)
    (acts : Acts settings key me sender (fields self key) stage held [] [] next) :
    Made settings key me sender self access stage rest := by
  refine ⟨⟨next,?_,.acts ?_⟩,?_,?_,?_⟩ <;> rw [changed]
  · exact goes
  · rw [← same] at acts
    exact acts
  · exact elsewhere
  · exact participants
  · exact startingUp

theorem Made.of_save {entity : DataEntity} {rest : Unit → Handler Unit} (next : Stage) (keyed : entity.key = key)
    (goes : rest () = next.program settings key me sender)
    (acts : Acts settings key me sender (fields self key) stage { fields self key with row := some entity } [] [] next) :
    Made settings key me sender self (.save entity) stage rest := by
  refine .of_fields next (self.save entity) _ rfl ?_ (fun other different => ?_) rfl rfl goes acts
  · rw [fields_save,keyed,if_pos rfl]
  · rw [fields_save,keyed,if_neg different]

/-- and one that only sends or calls back. -/
theorem Made.of_outcome (next : Stage) (sends : List Send) (callbacks : List Callback)
    (made : perform access (.unchanged self) = (⟨self,sends,callbacks⟩,returned))
    (goes : rest returned = next.program settings key me sender)
    (acts : Acts settings key me sender (fields self key) stage (fields self key) sends callbacks next) :
    Made settings key me sender self access stage rest := by
  refine ⟨⟨next,?_,.acts ?_⟩,?_,?_,?_⟩ <;> rw [made]
  · exact goes
  · exact acts
  · exact fun _ _ => rfl

variable (settings key me sender self)

theorem stage_made (stage : Stage) (keyed : stage.Keyed key) (running : stage ≠ .done) :
    ∃ (α : Type) (access : Access α) (rest : α → Handler Unit),
      stage.program settings key me sender = .make access rest ∧ Made settings key me sender self access stage rest := by
  have slot : (fields self key).slot = self.wantToWriteData key := rfl
  have row : (fields self key).row = self.database.findById key := rfl
  cases stage with
  | askData =>
    refine ⟨_,.findById key,_,rfl,?_⟩
    cases stored : self.database.findById key with
    | none => exact .of_looks .done (congrArg (Prod.mk _) stored) rfl (.noValidCopy (by simp [row,stored]))
    | some entity =>
      by_cases valid : entity.Valid
      · have flag : entity.invalidate = none ∨ entity.invalidate = some false := by
          rcases flagged : entity.invalidate with _ | _ | _ <;> simp_all [DataEntity.Valid]
        refine .of_looks (.answer entity.toDto) (congrArg (Prod.mk _) stored) ?_ (.validCopy (row.trans stored) valid)
        exact if_pos flag
      · have flag : ¬ (entity.invalidate = none ∨ entity.invalidate = some false) := by
          rcases flagged : entity.invalidate with _ | _ | _ <;> simp_all [DataEntity.Valid]
        refine .of_looks .done (congrArg (Prod.mk _) stored) ?_ (.noValidCopy fun other found => ?_)
        · exact if_neg flag
        · rw [row,stored] at found
          cases found
          exact valid
  | answer dataDto => exact ⟨_,_,_,rfl,.of_outcome .done _ _ rfl rfl .answers⟩
  | askDataResponse dataDto =>
    refine ⟨_,.getWaiting key,_,rfl,?_⟩
    cases waiting : self.waitingData key with
    | none => exact .of_looks .done (congrArg (Prod.mk _) waiting) rfl (.noReader waiting)
    | some reader => exact .of_looks (.dataReceived reader dataDto) (congrArg (Prod.mk _) waiting) rfl (.reader waiting)
  | dataReceived reader dataDto => exact ⟨_,_,_,rfl,.of_outcome .removeWaiting _ _ rfl rfl .hands⟩
  | removeWaiting =>
    refine ⟨_,.removeWaiting key,_,rfl,.of_fields .done _ _ rfl ?_ (fun other different => ?_) rfl rfl rfl .removes⟩
    · simp [fields,Outcome.unchanged]
    · simp [fields,Outcome.unchanged,different]
  | wantToWrite data =>
    refine ⟨_,.getWantToWrite key,_,rfl,?_⟩
    cases writing : self.wantToWriteData key with
    | none => exact .of_looks .findInvalidate (congrArg (Prod.mk _) writing) rfl (.free writing)
    | some wanted => exact .of_looks (.refuse data) (congrArg (Prod.mk _) writing) rfl (.writing writing)
  | findInvalidate =>
    refine ⟨_,.findById key,_,rfl,?_⟩
    cases stored : self.database.findById key with
    | none =>
      refine .of_looks _ (congrArg (Prod.mk _) stored) ?_ (.noRow stored rfl)
      cases silent : settings.testConflict me <;> simp [respond,silent] <;> rfl
    | some entity => exact .of_looks (.saveInvalidate (entity.setInvalidate true)) (congrArg (Prod.mk _) stored) rfl (.row stored)
  | saveInvalidate entity =>
    refine ⟨_,.save entity,_,rfl,.of_save _ keyed ?_ (.invalidates rfl)⟩
    cases silent : settings.testConflict me <;> simp [respond,silent] <;> rfl
  | grant => exact ⟨_,_,_,rfl,.of_outcome .done _ _ rfl rfl .grants⟩
  | refuse data => exact ⟨_,_,_,rfl,.of_outcome .refused _ _ rfl rfl .refuses⟩
  | refused =>
    refine ⟨_,.getWantToWrite key,_,rfl,?_⟩
    cases writing : self.wantToWriteData key with
    | none => exact .of_looks .done (congrArg (Prod.mk _) writing) rfl (.notWriting (by simp) writing)
    | some wanted => exact .of_looks (.conflict wanted.callback) (congrArg (Prod.mk _) writing) rfl (.stillWriting (.inl rfl) writing)
  | wantToWriteResponse =>
    refine ⟨_,.getWantToWrite key,_,rfl,?_⟩
    cases writing : self.wantToWriteData key with
    | none => exact .of_looks .done (congrArg (Prod.mk _) writing) rfl (.notWriting (by simp) writing)
    | some wanted =>
      refine .of_looks .getData (congrArg (Prod.mk _) writing) ?_ (.responds writing)
      rfl
  | getData =>
    refine ⟨_,.getWantToWrite key,_,rfl,?_⟩
    cases writing : self.wantToWriteData key with
    | none => exact .of_looks .done (congrArg (Prod.mk _) writing) rfl (.notWriting (by simp) writing)
    | some wanted => exact .of_looks (.increment wanted) (congrArg (Prod.mk _) writing) rfl (.gets writing)
  | increment data =>
    refine ⟨_,.increment key data,_,rfl,?_⟩
    by_cases same : self.wantToWriteData key = some data
    · let slots := Function.update self.wantToWriteData key (some ⟨data.receivedResponses + 1,data.callback⟩)
      have counted : perform (.increment key data) (.unchanged self) = (.unchanged { self with wantToWriteData := slots },()) :=
        Prod.ext (if_pos same) rfl
      refine .of_fields (.compare data) _ _ counted ?_ (fun other different => ?_) rfl rfl rfl (.increments same)
      · simp [fields,slots]
      · simp [fields,slots,different]
    · refine .of_looks (.compare data) (Prod.ext ?_ rfl) rfl (.misses same)
      exact if_neg same
  | compare data =>
    refine ⟨_,.getNumberOfParticipants,_,rfl,?_⟩
    by_cases many : ((data.receivedResponses + 1 : Nat) : Int) ≥ self.numberOfParticipants - 2
    · refine .of_looks (.allResponses data.callback) rfl ?_ (.enough many)
      exact if_pos many
    · refine .of_looks .done rfl ?_ (.tooFew many)
      exact if_neg many
  | allResponses callback => exact ⟨_,_,_,rfl,.of_outcome .done _ _ rfl rfl .completes⟩
  | writeConflict =>
    refine ⟨_,.getWantToWrite key,_,rfl,?_⟩
    cases writing : self.wantToWriteData key with
    | none => exact .of_looks .done (congrArg (Prod.mk _) writing) rfl (.notWriting (by simp) writing)
    | some wanted =>
      refine .of_looks .getConflict (congrArg (Prod.mk _) writing) ?_ (.conflicts writing)
      rfl
  | getConflict =>
    refine ⟨_,.getWantToWrite key,_,rfl,?_⟩
    cases writing : self.wantToWriteData key with
    | none => exact .of_looks .done (congrArg (Prod.mk _) writing) rfl (.notWriting (by simp) writing)
    | some wanted => exact .of_looks (.conflict wanted.callback) (congrArg (Prod.mk _) writing) rfl (.stillWriting (.inr rfl) writing)
  | conflict callback => exact ⟨_,_,_,rfl,.of_outcome .done _ _ rfl rfl .tells⟩
  | dataWritten =>
    refine ⟨_,.findById key,_,rfl,?_⟩
    cases stored : self.database.findById key with
    | none => exact .of_looks .done (congrArg (Prod.mk _) stored) rfl (.noInvalidCopy (by simp [row,stored]))
    | some entity =>
      by_cases flag : entity.invalidate = some true
      · refine .of_looks .deleteById (congrArg (Prod.mk _) stored) ?_ (.invalidCopy (row.trans stored) (not_not.mpr flag))
        exact if_pos flag
      · refine .of_looks .done (congrArg (Prod.mk _) stored) ?_ (.noInvalidCopy fun other found => ?_)
        · exact if_neg flag
        · rw [row,stored] at found
          cases found
          exact flag
  | deleteById =>
    refine ⟨_,.deleteById key,_,rfl,.of_fields .done (self.deleteById key) _ rfl ?_ (fun other different => ?_) rfl rfl rfl .deletes⟩
    · rw [fields_deleteById,if_pos rfl]
    · rw [fields_deleteById,if_neg different]
  | revalidateData =>
    refine ⟨_,.findById key,_,rfl,?_⟩
    cases stored : self.database.findById key with
    | none => exact .of_looks .done (congrArg (Prod.mk _) stored) rfl (.noCopy stored)
    | some entity => exact .of_looks (.saveRevalidated (entity.setInvalidate false)) (congrArg (Prod.mk _) stored) rfl (.copy stored)
  | saveRevalidated entity => exact ⟨_,.save entity,_,rfl,.of_save .done keyed rfl .revalidates⟩
  | done => exact absurd rfl running

end

/-! ### What a handler does next -/

/-- The row that an access saves, -/
def saves {α : Type} : Access α → Option DataEntity
  | .save dataEntity => some dataEntity
  | _ => none
/-- the key whose row it deletes, -/
def deletes {α : Type} : Access α → Option String
  | .deleteById key => some key
  | _ => none
/-- and the object it increments, with its key. -/
def increments {α : Type} : Access α → Option (String × WantToWriteData)
  | .increment key found => some (key,found)
  | _ => none

/-- The same for the next access of a handler. -/
def savesNext : Handler Unit → Option DataEntity
  | .make access _ => saves access
  | .result _ => none
def deletesNext : Handler Unit → Option String
  | .make access _ => deletes access
  | .result _ => none
def incrementsNext : Handler Unit → Option (String × WantToWriteData)
  | .make access _ => increments access
  | .result _ => none

/-! ### What a turn leaves -/

/-- The messages whose handler comes to a stage. -/
def Stage.Fits (me sender : SpreadGroup) : Stage → Message → Prop
  | .done, _ => True
  | .askData, .askData _ | .answer _, .askData _ => sender ≠ me
  | .askDataResponse dataDto, .askDataResponse received | .dataReceived _ dataDto, .askDataResponse received => dataDto = received
  | .removeWaiting, .askDataResponse _ => True
  | .wantToWrite data, .wantToWrite received | .refuse data, .wantToWrite received => sender ≠ me ∧ data = received
  | .findInvalidate, .wantToWrite _ | .saveInvalidate _, .wantToWrite _ | .grant, .wantToWrite _ | .refused, .wantToWrite _
  | .conflict _, .wantToWrite _ => sender ≠ me
  | .wantToWriteResponse, .wantToWriteResponse _ | .getData, .wantToWriteResponse _ | .increment _, .wantToWriteResponse _
  | .compare _, .wantToWriteResponse _ | .allResponses _, .wantToWriteResponse _ => True
  | .writeConflict, .writeConflict _ | .getConflict, .writeConflict _ | .conflict _, .writeConflict _ => sender ≠ me
  | .dataWritten, .dataWritten _ | .deleteById, .dataWritten _ => sender ≠ me
  | .revalidateData, .revalidateData _ | .saveRevalidated _, .revalidateData _ => sender ≠ me
  | _, _ => False

/-- A row that is going to be invalidated is no valid one. -/
def Stage.Marked : Stage → Prop
  | .saveInvalidate entity => ¬ entity.Valid
  | _ => True

/-- The message has been neither answered nor counted. -/
def Stage.Pending : Stage → Prop
  | .compare _ | .allResponses _ | .done => False
  | _ => True

instance : DecidablePred Stage.Pending := fun stage => by cases stage <;> simp only [Stage.Pending] <;> infer_instance

/-- The callback that a handler holds on to is one of `readers` or of `writers`. -/
def Stage.Calls (readers writers : Nat → Prop) : Stage → Prop
  | .dataReceived reader _ => readers reader
  | .increment data | .compare data => writers data.callback
  | .allResponses callback | .conflict callback => writers callback
  | _ => True

section
variable {settings : Settings} {participants : Int} {key : String} {me sender : SpreadGroup} {held held' : Fields}
  {stage next : Stage} {message : Message} {sends : List Send} {callbacks : List Callback}

theorem start_keyed (about : message.key? = some key) : (Stage.start me sender message).Keyed key := by
  cases message <;> simp only [Stage.start,Message.key?,Option.some.injEq,reduceCtorEq] at about ⊢
  all_goals try split_ifs
  all_goals first | exact about | trivial

theorem start_fits : (Stage.start me sender message).Fits me sender message := by
  cases message <;> simp only [Stage.start]
  all_goals try split_ifs
  all_goals simp_all [Stage.Fits]

theorem start_marked : (Stage.start me sender message).Marked := by
  cases message <;> simp only [Stage.start]
  all_goals try split_ifs
  all_goals trivial

theorem start_calls (readers writers : Nat → Prop) : (Stage.start me sender message).Calls readers writers := by
  cases message <;> simp only [Stage.start]
  all_goals try split_ifs
  all_goals trivial

theorem start_pending (running : Stage.start me sender message ≠ .done) : (Stage.start me sender message).Pending := by
  cases message <;> simp only [Stage.start] at running ⊢
  all_goals try split_ifs at running ⊢
  all_goals trivial

theorem Turn.keyed (turn : Turn settings participants key me sender held stage held' sends callbacks next)
    (keyed : stage.Keyed key) (own : ∀ entity, held.row = some entity → entity.key = key) : next.Keyed key := by
  cases turn with
  | looks looks _ _ _ =>
    cases looks with
    | validCopy stored _ | row stored | copy stored =>
      have kept := own _ stored
      exact kept
    | noRow _ ready =>
      subst ready
      split_ifs <;> trivial
    | reader _ | writing _ => exact keyed
    | _ => trivial
  | acts acts =>
    cases acts with
    | invalidates ready =>
      subst ready
      split_ifs <;> trivial
    | _ => trivial

theorem Turn.fits (turn : Turn settings participants key me sender held stage held' sends callbacks next)
    (fits : stage.Fits me sender message) : next.Fits me sender message := by
  cases turn with
  | looks looks _ _ _ =>
    cases looks with
    | noRow _ ready =>
      subst ready
      split_ifs <;> cases message <;> trivial
    | stillWriting here _ => rcases here with rfl | rfl <;> cases message <;> first | exact fits | exact fits.elim
    | writing _ | reader _ => cases message <;> exact fits
    | free _ => cases message <;> first | exact fits | exact fits.1
    | _ => cases message <;> trivial
  | acts acts =>
    cases acts with
    | invalidates ready =>
      subst ready
      split_ifs <;> cases message <;> trivial
    | refuses => cases message <;> first | exact fits | exact fits.1
    | _ => cases message <;> trivial

theorem Turn.marked (turn : Turn settings participants key me sender held stage held' sends callbacks next) : next.Marked := by
  cases turn with
  | looks looks _ _ _ =>
    cases looks with
    | row _ => simp [Stage.Marked]
    | noRow _ ready =>
      subst ready
      split_ifs <;> trivial
    | _ => trivial
  | acts acts =>
    cases acts with
    | invalidates ready =>
      subst ready
      split_ifs <;> trivial
    | _ => trivial

theorem Turn.pending (turn : Turn settings participants key me sender held stage held' sends callbacks next)
    (pending : next.Pending) : stage.Pending := by
  cases turn with
  | looks looks _ _ _ =>
    cases looks with
    | stillWriting here _ => rcases here with rfl | rfl <;> trivial
    | _ => trivial
  | acts acts => cases acts <;> trivial

/-- A handler gets hold of a callback only where one is registered. -/
theorem Turn.calls {readers writers : Nat → Prop}
    (turn : Turn settings participants key me sender held stage held' sends callbacks next)
    (holds : stage.Calls readers writers) (reader : ∀ i, held.waiting = some i → readers i)
    (writer : ∀ wanted, held.slot = some wanted → writers wanted.callback) : next.Calls readers writers := by
  cases turn with
  | looks looks _ _ _ =>
    cases looks with
    | reader waiting => exact reader _ waiting
    | stillWriting _ slot | gets slot => exact writer _ slot
    | misses _ | enough _ => exact holds
    | noRow _ ready =>
      subst ready
      split_ifs <;> trivial
    | _ => trivial
  | acts acts =>
    cases acts with
    | increments _ => exact holds
    | invalidates ready =>
      subst ready
      split_ifs <;> trivial
    | _ => trivial

theorem Turn.row (turn : Turn settings participants key me sender held stage held' sends callbacks next) :
    held'.row = held.row ∨ (∃ entity, held'.row = some entity ∧ (stage = .saveInvalidate entity ∨ stage = .saveRevalidated entity)) ∨
      held'.row = none ∧ stage = .deleteById := by
  cases turn with
  | looks _ same _ _ => exact .inl (congrArg Fields.row same)
  | acts acts =>
    cases acts with
    | invalidates _ => exact .inr (.inl ⟨_,rfl,.inl rfl⟩)
    | revalidates => exact .inr (.inl ⟨_,rfl,.inr rfl⟩)
    | deletes => exact .inr (.inr ⟨rfl,rfl⟩)
    | _ => exact .inl rfl

theorem Turn.waiting (turn : Turn settings participants key me sender held stage held' sends callbacks next) {i : Nat}
    (waiting : held'.waiting = some i) : held.waiting = some i := by
  cases turn with
  | looks _ same _ _ =>
    subst same
    exact waiting
  | acts acts =>
    cases acts with
    | removes => cases waiting
    | _ => exact waiting

theorem Turn.slot (turn : Turn settings participants key me sender held stage held' sends callbacks next) :
    held'.slot = held.slot ∨ ∃ data, stage = .increment data ∧ next = .compare data ∧ held.slot = some data ∧
      held'.slot = some ⟨data.receivedResponses + 1,data.callback⟩ := by
  cases turn with
  | looks _ same _ _ => exact .inl (congrArg Fields.slot same)
  | acts acts =>
    cases acts with
    | increments same => exact .inr ⟨_,rfl,rfl,same,rfl⟩
    | _ => exact .inl rfl

/-- The write that is registered stays so. -/
theorem Turn.registered (turn : Turn settings participants key me sender held stage held' sends callbacks next) :
    held'.slot.map WantToWriteData.callback = held.slot.map WantToWriteData.callback := by
  rcases turn.slot with same | ⟨data,_,_,slot,counted⟩
  · rw [same]
  · rw [slot,counted]
    rfl

/-- Only its own callback gives a call a response, -/
theorem Turn.response {packet : Packet} {sent : Bool} {i : Nat} {call : Call} {dataDto : DataDto}
    (turn : Turn settings participants key me sender held stage held' sends callbacks next)
    (response : (notify sends callbacks packet sent i call).response = some dataDto) :
    call.response = some dataDto ∨ stage = .dataReceived i dataDto := by
  rw [(notify_references ..).2.1] at response
  cases turn with
  | looks _ _ _ silent =>
    subst silent
    exact .inl response
  | acts acts =>
    cases acts with
    | hands =>
      simp only [List.foldl_cons,List.foldl_nil,invoke] at response
      split_ifs at response with own
      · cases response
        exact .inr (by rw [own])
      · exact .inl response
    | completes | tells =>
      simp only [List.foldl_cons,List.foldl_nil,invoke] at response
      split_ifs at response <;> exact .inl response
    | _ => exact .inl response

/-- and sets its flag. -/
theorem Turn.flag {packet : Packet} {sent : Bool} {i : Nat} {call : Call}
    (turn : Turn settings participants key me sender held stage held' sends callbacks next)
    (flag : (notify sends callbacks packet sent i call).responseReceived = true) :
    call.responseReceived = true ∨ stage = .allResponses i ∨ ∃ dataDto, stage = .dataReceived i dataDto := by
  rw [(notify_references ..).1] at flag
  cases turn with
  | looks _ _ _ silent =>
    subst silent
    exact .inl flag
  | acts acts =>
    cases acts with
    | @hands _ dataDto =>
      simp only [List.foldl_cons,List.foldl_nil,invoke] at flag
      split_ifs at flag with own
      · exact .inr (.inr ⟨dataDto,by rw [own]⟩)
      · exact .inl flag
    | completes =>
      simp only [List.foldl_cons,List.foldl_nil,invoke] at flag
      split_ifs at flag with own
      · exact .inr (.inl (by rw [own]))
      · exact .inl flag
    | tells =>
      simp only [List.foldl_cons,List.foldl_nil,invoke] at flag
      split_ifs at flag <;> exact .inl flag
    | _ => exact .inl flag

/-- A call whose callback the handler does not hold, and which the message does not go
    back to, is left as it is. -/
theorem Turn.notify_other {packet : Packet} {sent : Bool} {j : Nat} {call : Call}
    (turn : Turn settings participants key me sender held stage held' sends callbacks next)
    (holds : stage.Calls (· ≠ j) (· ≠ j)) (tag : stage.Pending → packet.call ≠ some j) :
    notify sends callbacks packet sent j call = call := by
  cases turn with
  | looks _ _ quiet silent =>
    subst quiet silent
    simp [notify,acknowledges]
  | acts acts =>
    cases acts with
    | hands | completes | tells =>
      have other := holds
      simp only [Stage.Calls] at other
      simp [notify,acknowledges,invoke,other]
    | grants => simp [notify,tag trivial]
    | _ => simp [notify,acknowledges]

theorem Turn.grants (turn : Turn settings participants key me sender held stage held' sends callbacks next)
    (acknowledging : acknowledges sends = true) : stage = .grant ∧ next = .done := by
  cases turn with
  | looks _ _ quiet _ =>
    subst quiet
    cases acknowledging
  | acts acts =>
    cases acts with
    | grants => exact ⟨rfl,rfl⟩
    | _ => simp [acknowledges] at acknowledging

end

section
variable {settings : Settings} {participants : Int} {key : String} {packet : Packet} {held held' : Fields} {stage next : Stage}
  {message : Message} {sends : List Send} {callbacks : List Callback}

theorem Turn.replies (turn : Turn settings participants key packet.receiver packet.sender held stage held' sends callbacks next)
    (fits : stage.Fits packet.receiver packet.sender message) (about : message.key? = some key) :
    Replies packet message sends := by
  cases turn with
  | looks _ _ quiet _ =>
    subst quiet
    exact .nothing
  | acts acts =>
    cases acts with
    | answers =>
      cases message with
      | askData _ => exact .answers fits
      | _ => exact fits.elim
    | grants =>
      cases message with
      | wantToWrite data =>
        cases about
        exact .grants fits
      | _ => exact fits.elim
    | refuses =>
      cases message with
      | wantToWrite data =>
        obtain ⟨foreign,rfl⟩ := fits
        exact .refuses foreign
      | _ => exact fits.elim
    | _ => exact .nothing

/-- What a handler sends is about the key and goes to the group or back. -/
theorem Turn.packets_about {members : List SpreadGroup}
    (turn : Turn settings participants key packet.receiver packet.sender held stage held' sends callbacks next)
    (keyed : stage.Keyed key) :
    ∀ new ∈ packets members packet.receiver packet.call sends, new.sender = packet.receiver ∧ new.call = packet.call ∧
      (new.receiver ∈ members ∨ new.receiver = packet.sender) ∧
      ∃ message, new.body = .regular message ∧ message.key? = some key := by
  intro new member
  cases turn with
  | looks _ _ quiet _ => simp [quiet] at member
  | acts acts =>
    cases acts with
    | answers | grants =>
      rw [packets_unicast,Multiset.mem_singleton] at member
      subst member
      exact ⟨rfl,rfl,.inr rfl,_,rfl,congrArg some (by first | exact keyed | rfl)⟩
    | refuses =>
      rw [packets_multicast] at member
      obtain ⟨receiver,inside,rfl⟩ := List.mem_map.mp (Multiset.mem_coe.mp member)
      exact ⟨rfl,rfl,.inl inside,_,rfl,congrArg some keyed⟩
    | _ => simp at member

end

end CdPraticas.Stages
