import CdPraticas.Messages

/-!
# The message handlers of a server

`LeaderManager` as a value, and what each handler of `SpreadMessageListener`
makes of it: the new value, the messages handed to the connection and the
callbacks invoked. A handler runs as one step here.
-/

namespace CdPraticas.Handlers
open Groups Store Messages

/-- The settings `local` and `testConflict` of the servers. -/
structure Settings where
  isLocal : Bool
  testConflict : SpreadGroup → Bool

/-- The settings of `application.properties`. -/
def Settings.properties : Settings := ⟨true,fun _ => false⟩

/-- `WantToWriteData`: the responses counted so far, and the call whose
    `WaitingAllResponses` object is the callback. -/
structure WantToWriteData where
  receivedResponses : Nat
  callback : Nat
  deriving DecidableEq

/-- The fields of `LeaderManager` that change. The two maps hold callbacks, and a
    callback is known by the client call that made it. -/
structure LeaderManager where
  database : Database
  waitingData : String → Option Nat
  wantToWriteData : String → Option WantToWriteData
  numberOfParticipants : Int
  waitStartupDataUpdate : Bool

/-- A server that has just started, with the database it finds. -/
def LeaderManager.initial (database : Database) : LeaderManager := ⟨database,fun _ => none,fun _ => none,-1,true⟩

def LeaderManager.save (self : LeaderManager) (entity : DataEntity) : LeaderManager :=
  { self with database := self.database.save entity }
def LeaderManager.deleteById (self : LeaderManager) (key : String) : LeaderManager :=
  { self with database := self.database.deleteById key }

/-- An invocation of a callback object. -/
inductive Callback
  | dataReceived (call : Nat) (dataDto : DataDto)
  | allResponsesReceived (call : Nat)
  | conflict (call : Nat) (conflictSender : SpreadGroup)
  deriving DecidableEq

structure Outcome where
  manager : LeaderManager
  sends : List Send
  callbacks : List Callback

/-- Nothing happens. -/
def Outcome.unchanged (self : LeaderManager) : Outcome := ⟨self,[],[]⟩

variable (settings : Settings) (self : LeaderManager) (me sender : SpreadGroup)

def askData (key : String) : Outcome :=
  if sender = me then .unchanged self
  else match self.database.findById key with
    | some localData =>
      if localData.invalidate = none ∨ localData.invalidate = some false then
        ⟨self,[.unicast (.askDataResponse localData.toDto) sender],[]⟩
      else .unchanged self
    | none => .unchanged self

def askDataResponse (dataDto : DataDto) : Outcome :=
  match self.waitingData dataDto.key with
  | some callback =>
    ⟨{ self with waitingData := Function.update self.waitingData dataDto.key none },[],[.dataReceived callback dataDto]⟩
  | none => .unchanged self

/-- The election loop of `checkStartup`, from the member at `index` on. A member
    is taken when its cardinality is above the maximum so far and is not this
    server's own; `none` where a name does not parse. -/
def electCoordinator : List SpreadGroup → Nat → Nat → Nat → Option Nat
  | [], _, _, leaderIndex => some leaderIndex
  | member :: rest, index, max, leaderIndex =>
    match getServerName member with
    | none => none
    | some name =>
      if name = "Service".toList then electCoordinator rest (index + 1) max leaderIndex
      else match getServerNameCardinality settings.isLocal member with
        | none => none
        | some cardinality =>
          if max < cardinality then
            match getServerNameCardinality settings.isLocal me with
            | none => none
            | some own =>
              if cardinality ≠ own then electCoordinator rest (index + 1) cardinality index
              else electCoordinator rest (index + 1) max leaderIndex
          else electCoordinator rest (index + 1) max leaderIndex

/-- `findAll().forEach`: every row invalidated and saved. -/
def invalidateAll (database : Database) : Database :=
  database.findAll.foldl (fun database entity => database.save (entity.setInvalidate true)) database

def checkStartup (members : List SpreadGroup) : Outcome :=
  if self.waitStartupDataUpdate then
    if members.length = 2 then .unchanged self
    else match (electCoordinator settings me members 0 0 0).bind (members[·]?) with
      | some leader =>
        ⟨{ self with database := invalidateAll self.database },
          [.unicast (.startupRequestUpdate (self.database.findAll.map DataEntity.toDto)) leader],[]⟩
      | none => .unchanged self
  else .unchanged self

def startupData (dataDtoList : List DataDto) : Outcome :=
  let startupResponse := dataDtoList.filterMap fun dataDto =>
    (self.database.findById dataDto.key).map DataEntity.toDto
  ⟨self,[.unicast (.startupResponseUpdate startupResponse) sender],[]⟩

/-- One element of the loop of `startupDataResponse`. -/
def refresh (database : Database) (dataDto : DataDto) : Database :=
  match database.findById dataDto.key with
  | some entity => database.save { entity with data := dataDto.data, invalidate := some false }
  | none => database

def startupDataResponse (dataDtoList : List DataDto) : Outcome :=
  ⟨{ self with database := dataDtoList.foldl refresh self.database, waitStartupDataUpdate := false },[],[]⟩

def wantToWriteResponse (key : String) : Outcome :=
  match self.wantToWriteData key with
  | some data =>
    let counted : WantToWriteData := { data with receivedResponses := data.receivedResponses + 1 }
    ⟨{ self with wantToWriteData := Function.update self.wantToWriteData key (some counted) },[],
      if (counted.receivedResponses : Int) ≥ self.numberOfParticipants - 2 then [.allResponsesReceived counted.callback]
      else []⟩
  | none => .unchanged self

def executeInvalidateData (key : String) : LeaderManager :=
  match self.database.findById key with
  | some dataEntity => self.save (dataEntity.setInvalidate true)
  | none => self

def wantToWriteReceived (data : DataDto) : Outcome :=
  if sender = me then .unchanged self
  else match self.wantToWriteData data.key with
    | none =>
      ⟨executeInvalidateData self data.key,
        if settings.testConflict me then [] else [.unicast (.wantToWriteResponse data.key) sender],[]⟩
    | some wanted => ⟨self,[.multicast (.writeConflict data)],[.conflict wanted.callback sender]⟩

def conflictReceived (dataDto : DataDto) : Outcome :=
  if sender = me then .unchanged self
  else match self.wantToWriteData dataDto.key with
    | some wanted => ⟨self,[],[.conflict wanted.callback sender]⟩
    | none => .unchanged self

def deleteIfExistsAndIsInvalidated (key : String) : LeaderManager :=
  match self.database.findById key with
  | some dataEntity => if dataEntity.invalidate = some true then self.deleteById key else self
  | none => self

def dataWritten (key : String) : Outcome :=
  if sender = me then .unchanged self else .unchanged (deleteIfExistsAndIsInvalidated self key)

def revalidateData (key : String) : Outcome :=
  if sender = me then .unchanged self
  else match self.database.findById key with
    | some data => .unchanged (self.save (data.setInvalidate false))
    | none => .unchanged self

def updateNumberOfParticipants (numberOfParticipants : Int) : LeaderManager :=
  { self with numberOfParticipants := numberOfParticipants }

/-- The dispatch of `messageReceived`. Without a regular membership the group
    size cannot be read: the exception is logged and nothing has changed. -/
def messageReceived : Body → Outcome
  | .regular (.askData key) => askData self me sender key
  | .regular (.askDataResponse dataDto) => askDataResponse self dataDto
  | .regular (.startupRequestUpdate dataDtoList) => startupData self sender dataDtoList
  | .regular (.startupResponseUpdate dataDtoList) => startupDataResponse self dataDtoList
  | .regular (.wantToWrite data) => wantToWriteReceived settings self me sender data
  | .regular (.wantToWriteResponse key) => wantToWriteResponse self key
  | .regular (.writeConflict dataDto) => conflictReceived self me sender dataDto
  | .regular (.dataWritten key) => dataWritten self me sender key
  | .regular (.revalidateData key) => revalidateData self me sender key
  | .membership info =>
    if info.isRegularMembership then
      let updated := updateNumberOfParticipants self info.members.length
      if info.cause = .join ∧ info.members.length ≥ 2 then checkStartup settings updated me info.members
      else .unchanged updated
    else .unchanged self

/-- The loop of `checkStartup` invalidates every row. -/
theorem findById_invalidateAll (database : Database) (key : String) :
    (invalidateAll database).findById key = (database.findById key).map fun entity => entity.setInvalidate true := by
  have loop (rows : List DataEntity) (stored : ∀ entity ∈ rows, database.findById entity.key = some entity) (now : Database) :
      (rows.foldl (fun database entity => database.save (entity.setInvalidate true)) now).findById key =
        if key ∈ rows.map DataEntity.key then (database.findById key).map (fun entity => entity.setInvalidate true)
        else now.findById key := by
    induction rows generalizing now with
    | nil => simp
    | cons entity rest ih =>
      rw [List.foldl_cons,ih (fun other inside => stored other (List.mem_cons_of_mem _ inside)),Database.findById_save]
      by_cases later : key ∈ rest.map DataEntity.key
      · simp [later]
      · by_cases here : key = entity.key
        · subst here
          simp [later,stored entity List.mem_cons_self]
        · simp [later,here]
  have all := loop database.findAll (fun entity inside => (Database.mem_findAll ..).mp inside) database
  unfold invalidateAll
  rw [all]
  cases found : database.findById key with
  | none => simp
  | some entity =>
    have own : entity.key = key := Database.findById_key found
    have inside : key ∈ database.findAll.map DataEntity.key :=
      List.mem_map.mpr ⟨entity,(Database.mem_findAll ..).mpr (own ▸ found),own⟩
    rw [if_pos inside]

end CdPraticas.Handlers
