import CdPraticas.Handlers

/-!
# Client calls

`ClientService.read` and `write` with `requestData` and `writeData` below them,
cut into the steps between which other threads of the server can run: one
access to the database, to a map, to a flag or to the connection each.
-/

namespace CdPraticas.Calls
open Groups Store Messages Handlers

inductive Request
  | read (key : String)
  | write (dataDto : DataDto)
  deriving DecidableEq

def Request.key : Request → String
  | .read key => key
  | .write dataDto => dataDto.key

/-- The ways out of `writeData`. -/
inductive Exit
  | alone | allResponses | conflictWon | conflictLost | timeout | sendFailed | thrown
  deriving DecidableEq

/-- What `writeData` returns; `none` where an exception leaves it. -/
def Exit.success : Exit → Option Bool
  | .alone | .allResponses | .conflictWon => some true
  | .conflictLost | .timeout | .sendFailed => some false
  | .thrown => none

/-- Where a call stands. -/
inductive Pc
  | writeData
  | saveAlone
  | putWantToWrite
  | findInvalidate
  | saveInvalidate (dataEntity : DataEntity)
  | sendWantToWrite
  /-- the test `responseReceived.get()` of the waiting loop -/
  | testResponse
  /-- asleep, or about to look at the clock -/
  | sleepWrite
  /-- the test `conflict.get() != null` of the waiting loop -/
  | testConflict
  | saveData (exit : Exit)
  | sendDataWritten (exit : Exit)
  | sendRevalidate
  | handleConflict
  | findDelete
  | deleteById
  /-- the finally block -/
  | removeWantToWrite (exit : Exit)
  | wrote (exit : Exit)
  | findLocal
  | sendAskData
  | putWaiting
  | testData
  | sleepRead
  | saveCopy
  | removeWaiting (response : Option DataDto)
  | answered (response : Option DataDto)
  deriving DecidableEq

/-- The first terminal event a client sees. -/
inductive Answer
  | data (key data : String)
  | void
  | dataLoss
  | unknown
  deriving DecidableEq

/-- A client call with its local variables. `responseReceived`, `response` and
    `conflict` are the atomic references its callback sets. `acknowledged` lists
    the servers that have answered its WANT_TO_WRITE; no step reads it. -/
structure Call where
  server : SpreadGroup
  request : Request
  pc : Pc
  responseReceived : Bool
  response : Option DataDto
  conflict : Option SpreadGroup
  answer : Option Answer
  acknowledged : List SpreadGroup
  deriving DecidableEq

/-- A call that has just come in. A server in startup answers it at once, and
    goes on with it all the same. -/
def Call.start (startingUp : Bool) (server : SpreadGroup) : Request → Call
  | .read key =>
    ⟨server,.read key,.findLocal,false,none,none,if startingUp then some (.data "" "") else none,[]⟩
  | .write dataDto =>
    ⟨server,.write dataDto,.writeData,false,none,none,if startingUp then some .void else none,[]⟩

/-- The answer at the end of a call, sent if none was sent before. -/
def Pc.answer? : Pc → Request → Option Answer
  | .wrote exit, _ =>
    match exit.success with
    | some true => some .void
    | some false => some .dataLoss
    | none => some .unknown
  | .answered response, request =>
    some (.data request.key (match response with | some dataDto => dataDto.data | none => ""))
  | _, _ => none

def Call.goto (call : Call) (pc : Pc) : Call :=
  { call with pc := pc, answer := call.answer <|> pc.answer? call.request }

/-- How the environment answers a step: it goes on, the send throws, or the clock
    shows that the wait is over. -/
inductive Choice
  | go | fails | expires
  deriving DecidableEq

/-- The one access to shared state that a step makes. -/
inductive Effect
  | skip
  | save (dataEntity : DataEntity)
  | deleteById (key : String)
  | putWantToWrite (key : String)
  | removeWantToWrite (key : String)
  | putWaiting (key : String)
  | removeWaiting (key : String)
  | multicast (message : Message)
  deriving DecidableEq

/-- Whether this server wins against `conflictSender`; `none` where a name does
    not parse. -/
def electLeader (isLocal : Bool) (me conflictSender : SpreadGroup) : Option Bool :=
  match getServerNameCardinality isLocal me, getServerNameCardinality isLocal conflictSender with
  | some myCardinality, some conflictCardinality => some (conflictCardinality < myCardinality)
  | _, _ => none

/-- The next step of a call: its access and where it goes. `stored` is the row of
    the call's key. -/
def next (settings : Settings) (numberOfParticipants : Int) (stored : Option DataEntity) (call : Call)
    (choice : Choice) : Option (Effect × Pc) :=
  match call.request, call.pc, choice with
  | .write _, .writeData, .go => some (.skip,if numberOfParticipants = 2 then .saveAlone else .putWantToWrite)
  | .write dataDto, .saveAlone, .go => some (.save (.ofDto dataDto),.wrote .alone)
  | .write dataDto, .putWantToWrite, .go => some (.putWantToWrite dataDto.key,.findInvalidate)
  | .write _, .findInvalidate, .go =>
    match stored with
    | some dataEntity => some (.skip,.saveInvalidate (dataEntity.setInvalidate true))
    | none => some (.skip,.sendWantToWrite)
  | .write _, .saveInvalidate dataEntity, .go => some (.save dataEntity,.sendWantToWrite)
  | .write dataDto, .sendWantToWrite, .go => some (.multicast (.wantToWrite dataDto),.testResponse)
  -- The exception leaves the outer try: the finally block is not entered.
  | .write _, .sendWantToWrite, .fails => some (.skip,.wrote .sendFailed)
  | .write _, .testResponse, .go => some (.skip,if call.responseReceived then .saveData .allResponses else .sleepWrite)
  | .write _, .sleepWrite, .go => some (.skip,.testConflict)
  | .write _, .sleepWrite, .expires => some (.skip,.sendRevalidate)
  | .write _, .testConflict, .go => some (.skip,if call.conflict.isSome then .handleConflict else .testResponse)
  | .write dataDto, .saveData exit, .go => some (.save (.ofDto dataDto),.sendDataWritten exit)
  | .write dataDto, .sendDataWritten exit, .go =>
    some (.multicast (.dataWritten dataDto.key),.removeWantToWrite exit)
  | .write _, .sendDataWritten exit, .fails => some (.skip,.removeWantToWrite exit)
  | .write dataDto, .sendRevalidate, .go => some (.multicast (.revalidateData dataDto.key),.removeWantToWrite .timeout)
  | .write _, .sendRevalidate, .fails => some (.skip,.removeWantToWrite .timeout)
  | .write _, .handleConflict, .go =>
    match call.conflict.bind (electLeader settings.isLocal call.server) with
    | some true => some (.skip,.saveData .conflictWon)
    | some false => some (.skip,.findDelete)
    | none => some (.skip,.removeWantToWrite .thrown)
  | .write _, .findDelete, .go => some (.skip,if stored.isSome then .deleteById else .removeWantToWrite .conflictLost)
  -- `deleteById` of an absent row throws.
  | .write dataDto, .deleteById, .go =>
    if stored.isSome then some (.deleteById dataDto.key,.removeWantToWrite .conflictLost)
    else some (.skip,.removeWantToWrite .thrown)
  | .write dataDto, .removeWantToWrite exit, .go => some (.removeWantToWrite dataDto.key,.wrote exit)
  | .read _, .findLocal, .go =>
    match stored with
    | some localData => some (.skip,.answered (if localData.invalidate = some true then none else some localData.toDto))
    | none => some (.skip,.sendAskData)
  | .read key, .sendAskData, .go => some (.multicast (.askData key),.putWaiting)
  | .read _, .sendAskData, .fails => some (.skip,.answered none)
  | .read key, .putWaiting, .go => some (.putWaiting key,.testData)
  | .read _, .testData, .go => some (.skip,if call.responseReceived then .saveCopy else .sleepRead)
  | .read _, .sleepRead, .go => some (.skip,.testData)
  | .read _, .sleepRead, .expires => some (.skip,.removeWaiting none)
  | .read _, .saveCopy, .go =>
    match call.response with
    | some dataDto => some (.save (.ofDto dataDto),.removeWaiting (some dataDto))
    | none => some (.skip,.removeWaiting none)
  | .read key, .removeWaiting response, .go => some (.removeWaiting key,.answered response)
  | _, _, _ => none

/-- The access of call `i` to the fields of its server. -/
def Effect.apply (i : Nat) (self : LeaderManager) : Effect → LeaderManager
  | .skip | .multicast _ => self
  | .save dataEntity => self.save dataEntity
  | .deleteById key => self.deleteById key
  | .putWantToWrite key =>
    { self with wantToWriteData := Function.update self.wantToWriteData key (some ⟨0,i⟩) }
  | .removeWantToWrite key => { self with wantToWriteData := Function.update self.wantToWriteData key none }
  | .putWaiting key => { self with waitingData := Function.update self.waitingData key (some i) }
  | .removeWaiting key => { self with waitingData := Function.update self.waitingData key none }

def Effect.sends : Effect → List Send
  | .multicast message => [.multicast message]
  | _ => []

/-- The key an access is about. -/
def Effect.key? : Effect → Option String
  | .skip => none
  | .save dataEntity => some dataEntity.key
  | .deleteById key | .putWantToWrite key | .removeWantToWrite key | .putWaiting key | .removeWaiting key => some key
  | .multicast message => message.key?

/-! ### Everything a step can do -/

section
variable (settings : Settings) (participants : Int) (stored : Option DataEntity) (call : Call)

/-- The steps of `next`, one constructor for each branch. -/
inductive Move : Choice → Effect → Pc → Prop
  | isAlone {dataDto} (write : call.request = .write dataDto) (here : call.pc = .writeData) (two : participants = 2) :
      Move .go .skip .saveAlone
  | notAlone {dataDto} (write : call.request = .write dataDto) (here : call.pc = .writeData) (more : participants ≠ 2) :
      Move .go .skip .putWantToWrite
  | saveAlone {dataDto} (write : call.request = .write dataDto) (here : call.pc = .saveAlone) :
      Move .go (.save (.ofDto dataDto)) (.wrote .alone)
  | putWantToWrite {dataDto} (write : call.request = .write dataDto) (here : call.pc = .putWantToWrite) :
      Move .go (.putWantToWrite dataDto.key) .findInvalidate
  | foundRow {dataDto dataEntity} (write : call.request = .write dataDto) (here : call.pc = .findInvalidate)
      (row : stored = some dataEntity) : Move .go .skip (.saveInvalidate (dataEntity.setInvalidate true))
  | noRow {dataDto} (write : call.request = .write dataDto) (here : call.pc = .findInvalidate) (row : stored = none) :
      Move .go .skip .sendWantToWrite
  | saveInvalidate {dataDto dataEntity} (write : call.request = .write dataDto)
      (here : call.pc = .saveInvalidate dataEntity) : Move .go (.save dataEntity) .sendWantToWrite
  | sendWantToWrite {dataDto} (write : call.request = .write dataDto) (here : call.pc = .sendWantToWrite) :
      Move .go (.multicast (.wantToWrite dataDto)) .testResponse
  | wantToWriteFails {dataDto} (write : call.request = .write dataDto) (here : call.pc = .sendWantToWrite) :
      Move .fails .skip (.wrote .sendFailed)
  | allResponses {dataDto} (write : call.request = .write dataDto) (here : call.pc = .testResponse)
      (flag : call.responseReceived = true) : Move .go .skip (.saveData .allResponses)
  | noResponses {dataDto} (write : call.request = .write dataDto) (here : call.pc = .testResponse)
      (flag : call.responseReceived = false) : Move .go .skip .sleepWrite
  | wakeWrite {dataDto} (write : call.request = .write dataDto) (here : call.pc = .sleepWrite) :
      Move .go .skip .testConflict
  | timeoutWrite {dataDto} (write : call.request = .write dataDto) (here : call.pc = .sleepWrite) :
      Move .expires .skip .sendRevalidate
  | conflict {dataDto rival} (write : call.request = .write dataDto) (here : call.pc = .testConflict)
      (flag : call.conflict = some rival) : Move .go .skip .handleConflict
  | noConflict {dataDto} (write : call.request = .write dataDto) (here : call.pc = .testConflict)
      (flag : call.conflict = none) : Move .go .skip .testResponse
  | saveData {dataDto exit} (write : call.request = .write dataDto) (here : call.pc = .saveData exit) :
      Move .go (.save (.ofDto dataDto)) (.sendDataWritten exit)
  | sendDataWritten {dataDto exit} (write : call.request = .write dataDto) (here : call.pc = .sendDataWritten exit) :
      Move .go (.multicast (.dataWritten dataDto.key)) (.removeWantToWrite exit)
  | dataWrittenFails {dataDto exit} (write : call.request = .write dataDto) (here : call.pc = .sendDataWritten exit) :
      Move .fails .skip (.removeWantToWrite exit)
  | sendRevalidate {dataDto} (write : call.request = .write dataDto) (here : call.pc = .sendRevalidate) :
      Move .go (.multicast (.revalidateData dataDto.key)) (.removeWantToWrite .timeout)
  | revalidateFails {dataDto} (write : call.request = .write dataDto) (here : call.pc = .sendRevalidate) :
      Move .fails .skip (.removeWantToWrite .timeout)
  | wins {dataDto rival} (write : call.request = .write dataDto) (here : call.pc = .handleConflict)
      (noted : call.conflict = some rival) (elected : electLeader settings.isLocal call.server rival = some true) :
      Move .go .skip (.saveData .conflictWon)
  | yields {dataDto rival} (write : call.request = .write dataDto) (here : call.pc = .handleConflict)
      (noted : call.conflict = some rival) (elected : electLeader settings.isLocal call.server rival = some false) :
      Move .go .skip .findDelete
  | throws {dataDto} (write : call.request = .write dataDto) (here : call.pc = .handleConflict)
      (nobody : call.conflict.bind (electLeader settings.isLocal call.server) = none) :
      Move .go .skip (.removeWantToWrite .thrown)
  | findDelete {dataDto dataEntity} (write : call.request = .write dataDto) (here : call.pc = .findDelete)
      (row : stored = some dataEntity) : Move .go .skip .deleteById
  | nothingToDelete {dataDto} (write : call.request = .write dataDto) (here : call.pc = .findDelete)
      (row : stored = none) : Move .go .skip (.removeWantToWrite .conflictLost)
  | deleteById {dataDto dataEntity} (write : call.request = .write dataDto) (here : call.pc = .deleteById)
      (row : stored = some dataEntity) : Move .go (.deleteById dataDto.key) (.removeWantToWrite .conflictLost)
  | deleteThrows {dataDto} (write : call.request = .write dataDto) (here : call.pc = .deleteById)
      (row : stored = none) : Move .go .skip (.removeWantToWrite .thrown)
  | removeWantToWrite {dataDto exit} (write : call.request = .write dataDto) (here : call.pc = .removeWantToWrite exit) :
      Move .go (.removeWantToWrite dataDto.key) (.wrote exit)
  | localCopy {key localData} (read : call.request = .read key) (here : call.pc = .findLocal)
      (row : stored = some localData) :
      Move .go .skip (.answered (if localData.invalidate = some true then none else some localData.toDto))
  | noCopy {key} (read : call.request = .read key) (here : call.pc = .findLocal) (row : stored = none) :
      Move .go .skip .sendAskData
  | sendAskData {key} (read : call.request = .read key) (here : call.pc = .sendAskData) :
      Move .go (.multicast (.askData key)) .putWaiting
  | askDataFails {key} (read : call.request = .read key) (here : call.pc = .sendAskData) :
      Move .fails .skip (.answered none)
  | putWaiting {key} (read : call.request = .read key) (here : call.pc = .putWaiting) :
      Move .go (.putWaiting key) .testData
  | dataArrived {key} (read : call.request = .read key) (here : call.pc = .testData)
      (flag : call.responseReceived = true) : Move .go .skip .saveCopy
  | noData {key} (read : call.request = .read key) (here : call.pc = .testData)
      (flag : call.responseReceived = false) : Move .go .skip .sleepRead
  | wakeRead {key} (read : call.request = .read key) (here : call.pc = .sleepRead) : Move .go .skip .testData
  | timeoutRead {key} (read : call.request = .read key) (here : call.pc = .sleepRead) :
      Move .expires .skip (.removeWaiting none)
  | saveCopy {key dataDto} (read : call.request = .read key) (here : call.pc = .saveCopy)
      (response : call.response = some dataDto) : Move .go (.save (.ofDto dataDto)) (.removeWaiting (some dataDto))
  | nothingToSave {key} (read : call.request = .read key) (here : call.pc = .saveCopy)
      (response : call.response = none) : Move .go .skip (.removeWaiting none)
  | removeWaiting {key response} (read : call.request = .read key) (here : call.pc = .removeWaiting response) :
      Move .go (.removeWaiting key) (.answered response)
end

section
variable {settings : Settings} {participants : Int} {stored : Option DataEntity} {call : Call} {choice : Choice}
  {effect : Effect} {pc : Pc}

theorem next_move (moved : next settings participants stored call choice = some (effect,pc)) :
    Move settings participants stored call choice effect pc := by
  unfold next at moved
  split at moved
  all_goals try split at moved
  all_goals simp only [Option.some.injEq,Prod.mk.injEq,reduceCtorEq] at moved
  all_goals obtain ⟨rfl,rfl⟩ := moved
  all_goals try split_ifs
  all_goals try (constructor <;> assumption)
  case h_1 => exact .foundRow ‹_› ‹_› rfl
  case h_2 => exact .noRow ‹_› ‹_› rfl
  case h_8.isFalse flag => exact .noResponses ‹_› ‹_› (by simpa using flag)
  case h_11.isTrue flag =>
    obtain ⟨rival,noted⟩ := Option.isSome_iff_exists.mp flag
    exact .conflict ‹_› ‹_› noted
  case h_11.isFalse flag => exact .noConflict ‹_› ‹_› (by simpa using flag)
  case h_16 => exact .revalidateFails ‹_› ‹_›
  case h_1 elected =>
    obtain ⟨rival,noted,elected⟩ := Option.bind_eq_some_iff.mp elected
    exact .wins ‹_› ‹_› noted elected
  case h_2 elected =>
    obtain ⟨rival,noted,elected⟩ := Option.bind_eq_some_iff.mp elected
    exact .yields ‹_› ‹_› noted elected
  case h_18.isTrue row =>
    obtain ⟨dataEntity,row⟩ := Option.isSome_iff_exists.mp row
    exact .findDelete ‹_› ‹_› row
  case h_18.isFalse row => exact .nothingToDelete ‹_› ‹_› (by simpa using row)
  case h_19.isTrue row =>
    obtain ⟨dataEntity,row⟩ := Option.isSome_iff_exists.mp row
    exact .deleteById ‹_› ‹_› row
  case h_19.isFalse row => exact .deleteThrows ‹_› ‹_› (by simpa using row)
  case pos dataEntity flag =>
    have moved : Move settings participants (some dataEntity) call _ _ _ := .localCopy ‹_› ‹_› rfl
    rwa [if_pos flag] at moved
  case neg dataEntity flag =>
    have moved : Move settings participants (some dataEntity) call _ _ _ := .localCopy ‹_› ‹_› rfl
    rwa [if_neg flag] at moved
  case h_2 => exact .noCopy ‹_› ‹_› rfl
  case h_25.isFalse flag => exact .noData ‹_› ‹_› (by simpa using flag)

/-! ### A call keeps to its key -/

/-- The row and the value a call holds on to are about its own key. -/
structure Call.Keyed (call : Call) : Prop where
  saving : ∀ entity, call.pc = .saveInvalidate entity → entity.key = call.request.key
  response : ∀ dataDto, call.response = some dataDto → dataDto.key = call.request.key

theorem start_keyed (startingUp : Bool) (server : SpreadGroup) (request : Request) :
    (Call.start startingUp server request).Keyed := by
  cases request <;> exact ⟨fun _ same => by simp [Call.start] at same,fun _ same => by simp [Call.start] at same⟩

theorem Move.key (move : Move settings participants stored call choice effect pc) (keyed : call.Keyed) :
    effect = .skip ∨ effect.key? = some call.request.key := by
  cases move with
  | saveInvalidate write here => exact .inr (congrArg some (keyed.saving _ here))
  | saveCopy read here response => exact .inr (congrArg some (keyed.response _ response))
  | saveAlone request _ | putWantToWrite request _ | sendWantToWrite request _ | saveData request _
  | sendDataWritten request _ | sendRevalidate request _ | deleteById request _ _ | removeWantToWrite request _
  | sendAskData request _ | putWaiting request _ | removeWaiting request _ =>
    exact .inr (by rw [request]; rfl)
  | _ => exact .inl rfl

theorem Move.keyed (move : Move settings participants stored call choice effect pc) (keyed : call.Keyed)
    (own : ∀ entity, stored = some entity → entity.key = call.request.key) : (call.goto pc).Keyed := by
  refine ⟨?_,keyed.response⟩
  intro entity here
  cases move with
  | foundRow _ _ row =>
    cases here
    have kept := own _ row
    exact kept
  | localCopy _ _ _ => cases here
  | _ => cases here

/-- A callback for data is registered by a read of the key, -/
theorem Move.putWaiting_read {key : String} (move : Move settings participants stored call choice (.putWaiting key) pc) :
    call.request = .read key := by
  cases move with
  | putWaiting read _ => exact read

/-- and one for responses by a write of it. -/
theorem Move.putWantToWrite_write {key : String}
    (move : Move settings participants stored call choice (.putWantToWrite key) pc) :
    ∃ data, call.request = .write ⟨key,data⟩ := by
  cases move with
  | putWantToWrite write _ => exact ⟨_,write⟩

/-! ### The phases of a call -/

/-- Where each request can stand, and with which way out. -/
def Pc.Fits : Pc → Request → Prop
  | .findLocal, .read _ | .sendAskData, .read _ | .putWaiting, .read _ | .testData, .read _ | .sleepRead, .read _
  | .saveCopy, .read _ | .removeWaiting _, .read _ | .answered _, .read _ => True
  | .saveData exit, .write _ | .sendDataWritten exit, .write _ => exit = .allResponses ∨ exit = .conflictWon
  | .removeWantToWrite exit, .write _ => exit ≠ .alone ∧ exit ≠ .sendFailed
  | .writeData, .write _ | .saveAlone, .write _ | .putWantToWrite, .write _ | .findInvalidate, .write _
  | .saveInvalidate _, .write _ | .sendWantToWrite, .write _ | .testResponse, .write _ | .sleepWrite, .write _
  | .testConflict, .write _ | .sendRevalidate, .write _ | .handleConflict, .write _ | .findDelete, .write _
  | .deleteById, .write _ | .wrote _, .write _ => True
  | _, _ => False

/-- The WANT_TO_WRITE of the write has gone out. -/
def Pc.Asked : Pc → Prop
  | .testResponse | .sleepWrite | .testConflict | .saveData _ | .sendDataWritten _ | .sendRevalidate
  | .handleConflict | .findDelete | .deleteById | .removeWantToWrite _ => True
  | .wrote exit => exit ≠ .alone ∧ exit ≠ .sendFailed
  | _ => False

/-- Between the registration of the write in `wantToWriteData` and its removal. -/
def Pc.Registered : Pc → Prop
  | .findInvalidate | .saveInvalidate _ | .sendWantToWrite | .testResponse | .sleepWrite | .testConflict | .saveData _
  | .sendDataWritten _ | .sendRevalidate | .handleConflict | .findDelete | .deleteById | .removeWantToWrite _ => True
  | _ => False

/-- The write has saved its value. -/
def Pc.Saved : Pc → Prop
  | .sendDataWritten _ => True
  | .removeWantToWrite exit | .wrote exit => exit.success = some true
  | _ => False

/-- The write can no longer succeed. -/
def Pc.Failed : Pc → Prop
  | .findDelete | .deleteById | .sendRevalidate => True
  | .removeWantToWrite exit | .wrote exit => exit.success ≠ some true
  | _ => False

/-- The wait of the write has expired and it has told the others so. -/
def Pc.Aborted : Pc → Prop
  | .removeWantToWrite exit | .wrote exit => exit = .timeout
  | _ => False

/-- The way out that the write has taken. -/
def Pc.exit? : Pc → Option Exit
  | .saveData exit | .sendDataWritten exit | .removeWantToWrite exit | .wrote exit => some exit
  | _ => none

/-- The call has returned. -/
def Pc.Done : Pc → Prop
  | .wrote _ | .answered _ => True
  | _ => False

instance : DecidablePred Pc.Registered
  | .findInvalidate | .saveInvalidate _ | .sendWantToWrite | .testResponse | .sleepWrite | .testConflict | .saveData _
  | .sendDataWritten _ | .sendRevalidate | .handleConflict | .findDelete | .deleteById | .removeWantToWrite _ => isTrue trivial
  | .writeData | .saveAlone | .putWantToWrite | .wrote _ | .findLocal | .sendAskData | .putWaiting | .testData | .sleepRead
  | .saveCopy | .removeWaiting _ | .answered _ => isFalse id

instance : DecidablePred Pc.Saved
  | .sendDataWritten _ => isTrue trivial
  | .removeWantToWrite exit | .wrote exit => inferInstanceAs (Decidable (exit.success = some true))
  | .writeData | .saveAlone | .putWantToWrite | .findInvalidate | .saveInvalidate _ | .sendWantToWrite | .testResponse
  | .sleepWrite | .testConflict | .saveData _ | .sendRevalidate | .handleConflict | .findDelete | .deleteById | .findLocal
  | .sendAskData | .putWaiting | .testData | .sleepRead | .saveCopy | .removeWaiting _ | .answered _ => isFalse id

instance : DecidablePred Pc.Failed
  | .removeWantToWrite exit | .wrote exit => inferInstanceAs (Decidable (exit.success ≠ some true))
  | .findDelete | .deleteById | .sendRevalidate => isTrue trivial
  | .writeData | .saveAlone | .putWantToWrite | .findInvalidate | .saveInvalidate _ | .sendWantToWrite | .testResponse
  | .sleepWrite | .testConflict | .saveData _ | .sendDataWritten _ | .handleConflict | .findLocal | .sendAskData
  | .putWaiting | .testData | .sleepRead | .saveCopy | .removeWaiting _ | .answered _ => isFalse id

instance : DecidablePred Pc.Done := fun pc => by cases pc <;> simp only [Pc.Done] <;> infer_instance

theorem start_fits (startingUp : Bool) (server : SpreadGroup) (request : Request) :
    (Call.start startingUp server request).pc.Fits request := by cases request <;> trivial

theorem Move.fits (move : Move settings participants stored call choice effect pc) (fits : call.pc.Fits call.request) :
    pc.Fits call.request := by
  cases move with
  | sendDataWritten write here | dataWrittenFails write here =>
    rw [here,write] at fits
    rw [write]
    rcases fits with rfl | rfl <;> simp [Pc.Fits]
  | _ => simp_all [Pc.Fits]
theorem Move.asked (move : Move settings participants stored call choice effect pc) (asked : call.pc.Asked)
    (fits : call.pc.Fits call.request) : pc.Asked := by
  cases move <;> simp_all [Pc.Asked,Pc.Fits]
theorem Move.saved (move : Move settings participants stored call choice effect pc) (saved : call.pc.Saved)
    (fits : call.pc.Fits call.request) : pc.Saved := by
  cases move with
  | sendDataWritten write here | dataWrittenFails write here =>
    rw [here,write] at fits
    rcases fits with rfl | rfl <;> rfl
  | _ => simp_all [Pc.Saved]
theorem Move.failed (move : Move settings participants stored call choice effect pc) (failed : call.pc.Failed) :
    pc.Failed := by
  cases move <;> simp_all [Pc.Failed,Exit.success]
theorem Move.aborted (move : Move settings participants stored call choice effect pc) (aborted : call.pc.Aborted) :
    pc.Aborted := by
  cases move <;> simp_all [Pc.Aborted]
theorem Move.exit {exit : Exit} (move : Move settings participants stored call choice effect pc)
    (left : call.pc.exit? = some exit) : pc.exit? = some exit := by
  cases move <;> simp_all [Pc.exit?]
/-- Only a set flag lets a write leave its wait with all responses. -/
theorem Move.leaves (move : Move settings participants stored call choice effect pc)
    (left : pc.exit? = some .allResponses) :
    call.pc.exit? = some .allResponses ∨ call.responseReceived = true := by
  cases move <;> simp_all [Pc.exit?]
theorem Move.not_done (move : Move settings participants stored call choice effect pc) : ¬ call.pc.Done := by
  cases move <;> simp_all [Pc.Done]

/-- A call that has not returned can go on. -/
theorem next_go (fits : call.pc.Fits call.request) (running : ¬ call.pc.Done) :
    ∃ moved, next settings participants stored call .go = some moved := by
  cases request : call.request <;> cases pc : call.pc <;> rw [request,pc] at fits <;> rw [pc] at running
  all_goals first
    | exact fits.elim
    | exact absurd trivial running
    | skip
  all_goals
    simp only [next,request,pc]
    first
      | exact ⟨_,rfl⟩
      | split <;> exact ⟨_,rfl⟩

@[simp] theorem goto_server (call : Call) (pc : Pc) : (call.goto pc).server = call.server := rfl
@[simp] theorem goto_request (call : Call) (pc : Pc) : (call.goto pc).request = call.request := rfl
@[simp] theorem goto_pc (call : Call) (pc : Pc) : (call.goto pc).pc = pc := rfl
@[simp] theorem goto_conflict (call : Call) (pc : Pc) : (call.goto pc).conflict = call.conflict := rfl
@[simp] theorem goto_response (call : Call) (pc : Pc) : (call.goto pc).response = call.response := rfl
@[simp] theorem goto_responseReceived (call : Call) (pc : Pc) :
    (call.goto pc).responseReceived = call.responseReceived := rfl
@[simp] theorem goto_acknowledged (call : Call) (pc : Pc) : (call.goto pc).acknowledged = call.acknowledged := rfl

@[simp] theorem start_server (startingUp : Bool) (server : SpreadGroup) (request : Request) :
    (Call.start startingUp server request).server = server := by cases request <;> rfl
@[simp] theorem start_request (startingUp : Bool) (server : SpreadGroup) (request : Request) :
    (Call.start startingUp server request).request = request := by cases request <;> rfl
@[simp] theorem start_acknowledged (startingUp : Bool) (server : SpreadGroup) (request : Request) :
    (Call.start startingUp server request).acknowledged = [] := by cases request <;> rfl
@[simp] theorem start_responseReceived (startingUp : Bool) (server : SpreadGroup) (request : Request) :
    (Call.start startingUp server request).responseReceived = false := by cases request <;> rfl
@[simp] theorem start_response (startingUp : Bool) (server : SpreadGroup) (request : Request) :
    (Call.start startingUp server request).response = none := by cases request <;> rfl
@[simp] theorem start_not_done (startingUp : Bool) (server : SpreadGroup) (request : Request) :
    ¬ (Call.start startingUp server request).pc.Done := by cases request <;> exact id
@[simp] theorem start_conflict (startingUp : Bool) (server : SpreadGroup) (request : Request) :
    (Call.start startingUp server request).conflict = none := by cases request <;> rfl

end

end CdPraticas.Calls
