import CdPraticas.Cluster
import CdPraticas.Programs

/-!
# Handlers one access at a time

A server has one listener thread for its messages, and between two accesses of
a handler the threads of its client calls can run. Here a handler is the program
of its accesses. Without interruption it does what the handlers as single steps
do; in the cluster with listener threads it is interleaved with everything else.
-/

namespace CdPraticas.Listeners
open Groups Store Messages Handlers Calls Cluster Runs Programs

/-- One access of a listener thread to what it shares with the client calls. -/
inductive Access : Type → Type
  | findById (key : String) : Access (Option DataEntity)
  | findAll : Access (List DataEntity)
  | save (dataEntity : DataEntity) : Access Unit
  | deleteById (key : String) : Access Unit
  | getWaiting (key : String) : Access (Option Nat)
  | removeWaiting (key : String) : Access Unit
  | getWantToWrite (key : String) : Access (Option WantToWriteData)
  /-- `increment` of the object that was found before -/
  | increment (key : String) (found : WantToWriteData) : Access Unit
  | getNumberOfParticipants : Access Int
  | setNumberOfParticipants (numberOfParticipants : Int) : Access Unit
  | getWaitStartupDataUpdate : Access Bool
  | clearWaitStartupDataUpdate : Access Unit
  | multicast (send : Send) : Access Unit
  | invoke (callback : Callback) : Access Unit

abbrev Handler := Program Access

/-- What an access does to the server, with the sends and callbacks before it. An
    object that is no longer registered is incremented unseen. -/
def perform {α : Type} (access : Access α) (before : Outcome) : Outcome × α :=
  let self := before.manager
  match access with
  | .findById key => (before,self.database.findById key)
  | .findAll => (before,self.database.findAll)
  | .save dataEntity => ({ before with manager := self.save dataEntity },())
  | .deleteById key => ({ before with manager := self.deleteById key },())
  | .getWaiting key => (before,self.waitingData key)
  | .removeWaiting key =>
    ({ before with manager := { self with waitingData := Function.update self.waitingData key none } },())
  | .getWantToWrite key => (before,self.wantToWriteData key)
  | .increment key found =>
    let counted := some { found with receivedResponses := found.receivedResponses + 1 }
    (if self.wantToWriteData key = some found then
      { before with manager := { self with wantToWriteData := Function.update self.wantToWriteData key counted } }
    else before,())
  | .getNumberOfParticipants => (before,self.numberOfParticipants)
  | .setNumberOfParticipants numberOfParticipants =>
    ({ before with manager := updateNumberOfParticipants self numberOfParticipants },())
  | .getWaitStartupDataUpdate => (before,self.waitStartupDataUpdate)
  | .clearWaitStartupDataUpdate => ({ before with manager := { self with waitStartupDataUpdate := false } },())
  | .multicast send => ({ before with sends := before.sends ++ [send] },())
  | .invoke callback => ({ before with callbacks := before.callbacks ++ [callback] },())

/-! ### The handlers -/

section
variable (settings : Settings) (me sender : SpreadGroup)

/-- Any access, as a program. -/
def make {α : Type} (access : Access α) : Handler α := Program.single access

def askData (key : String) : Handler Unit :=
  if sender = me then pure ()
  else do
    match ← make (.findById key) with
    | some localData =>
      if localData.invalidate = none ∨ localData.invalidate = some false then
        make (.multicast (.unicast (.askDataResponse localData.toDto) sender))
    | none => pure ()

def askDataResponse (dataDto : DataDto) : Handler Unit := do
  match ← make (.getWaiting dataDto.key) with
  | some callback => do
    make (.invoke (.dataReceived callback dataDto))
    make (.removeWaiting dataDto.key)
  | none => pure ()

/-- The loop of `checkStartup`: every row is invalidated and saved. -/
def invalidateRows : List DataEntity → Handler Unit
  | [] => pure ()
  | dataEntity :: rest => do
    make (.save (dataEntity.setInvalidate true))
    invalidateRows rest

def checkStartup (members : List SpreadGroup) : Handler Unit := do
  match ← make .getWaitStartupDataUpdate with
  | true =>
    if members.length = 2 then pure ()
    else match (electCoordinator settings me members 0 0 0).bind (members[·]?) with
      | some leader => do
        let dataEntities ← make .findAll
        invalidateRows dataEntities
        make (.multicast (.unicast (.startupRequestUpdate (dataEntities.map DataEntity.toDto)) leader))
      | none => pure ()
  | false => pure ()

/-- The loop of `startupData`. -/
def findStored : List DataDto → Handler (List DataDto)
  | [] => pure []
  | dataDto :: rest => do
    let found ← make (.findById dataDto.key)
    let startupResponse ← findStored rest
    pure ((found.map DataEntity.toDto).toList ++ startupResponse)

def startupData (dataDtoList : List DataDto) : Handler Unit := do
  let startupResponse ← findStored dataDtoList
  make (.multicast (.unicast (.startupResponseUpdate startupResponse) sender))

/-- The loop of `startupDataResponse`. -/
def refreshRows : List DataDto → Handler Unit
  | [] => pure ()
  | dataDto :: rest => do
    match ← make (.findById dataDto.key) with
    | some entity => make (.save { entity with data := dataDto.data, invalidate := some false })
    | none => pure ()
    refreshRows rest

def startupDataResponse (dataDtoList : List DataDto) : Handler Unit := do
  refreshRows dataDtoList
  make .clearWaitStartupDataUpdate

/-- `containsKey` and then `get`. Where the entry has gone in between, the
    exception is logged and the handler ends. -/
def whenWriting (key : String) (writing : WantToWriteData → Handler Unit) : Handler Unit := do
  match ← make (.getWantToWrite key) with
  | some _ => do
    match ← make (.getWantToWrite key) with
    | some wanted => writing wanted
    | none => pure ()
  | none => pure ()

def wantToWriteResponse (key : String) : Handler Unit :=
  whenWriting key fun data => do
    make (.increment key data)
    let numberOfParticipants ← make .getNumberOfParticipants
    if ((data.receivedResponses + 1 : Nat) : Int) ≥ numberOfParticipants - 2 then
      make (.invoke (.allResponsesReceived data.callback))

def executeInvalidateData (key : String) : Handler Unit := do
  match ← make (.findById key) with
  | some dataEntity => make (.save (dataEntity.setInvalidate true))
  | none => pure ()

def wantToWriteReceived (data : DataDto) : Handler Unit :=
  if sender = me then pure ()
  else do
    match ← make (.getWantToWrite data.key) with
    | none => do
      executeInvalidateData data.key
      if ! settings.testConflict me then
        make (.multicast (.unicast (.wantToWriteResponse data.key) sender))
    | some _ => do
      make (.multicast (.multicast (.writeConflict data)))
      match ← make (.getWantToWrite data.key) with
      | some wanted => make (.invoke (.conflict wanted.callback sender))
      | none => pure ()

def conflictReceived (dataDto : DataDto) : Handler Unit :=
  if sender = me then pure ()
  else whenWriting dataDto.key fun wanted => make (.invoke (.conflict wanted.callback sender))

def dataWritten (key : String) : Handler Unit :=
  if sender = me then pure ()
  else do
    match ← make (.findById key) with
    | some dataEntity => if dataEntity.invalidate = some true then make (.deleteById key)
    | none => pure ()

def revalidateData (key : String) : Handler Unit :=
  if sender = me then pure ()
  else do
    match ← make (.findById key) with
    | some data => make (.save (data.setInvalidate false))
    | none => pure ()

def messageReceived : Body → Handler Unit
  | .regular (.askData key) => askData me sender key
  | .regular (.askDataResponse dataDto) => askDataResponse dataDto
  | .regular (.startupRequestUpdate dataDtoList) => startupData sender dataDtoList
  | .regular (.startupResponseUpdate dataDtoList) => startupDataResponse dataDtoList
  | .regular (.wantToWrite data) => wantToWriteReceived settings me sender data
  | .regular (.wantToWriteResponse key) => wantToWriteResponse key
  | .regular (.writeConflict dataDto) => conflictReceived me sender dataDto
  | .regular (.dataWritten key) => dataWritten me sender key
  | .regular (.revalidateData key) => revalidateData me sender key
  | .membership info =>
    if info.isRegularMembership then do
      make (.setNumberOfParticipants info.members.length)
      if info.cause = .join ∧ info.members.length ≥ 2 then checkStartup settings me info.members
    else pure ()
end

/-! ### Without interruption -/

section
variable (settings : Settings) (me sender : SpreadGroup)

@[simp] theorem run_make {α : Type} (access : Access α) (before : Outcome) :
    (make access).run perform before = perform access before := rfl

theorem run_invalidateRows (rows : List DataEntity) (before : Outcome) :
    (invalidateRows rows).run perform before =
      let invalidated := rows.foldl (fun database entity => database.save (entity.setInvalidate true)) before.manager.database
      ({ before with manager := { before.manager with database := invalidated } },()) := by
  induction rows generalizing before with
  | nil => rfl
  | cons row rest ih =>
    simp only [invalidateRows,run_bind,run_make,ih]
    rfl

theorem run_findStored (dataDtoList : List DataDto) (before : Outcome) :
    (findStored dataDtoList).run perform before = (before,dataDtoList.filterMap fun dataDto =>
      (before.manager.database.findById dataDto.key).map DataEntity.toDto) := by
  induction dataDtoList generalizing before with
  | nil => rfl
  | cons dataDto rest ih =>
    simp only [findStored,run_bind,run_make,run_pure,ih,perform]
    cases found : before.manager.database.findById dataDto.key <;> simp [found]

theorem run_refreshRows (dataDtoList : List DataDto) (before : Outcome) :
    (refreshRows dataDtoList).run perform before =
      let refreshed := dataDtoList.foldl refresh before.manager.database
      ({ before with manager := { before.manager with database := refreshed } },()) := by
  induction dataDtoList generalizing before with
  | nil => rfl
  | cons dataDto rest ih =>
    simp only [refreshRows,run_bind,run_make,perform,List.foldl_cons,refresh]
    cases found : before.manager.database.findById dataDto.key with
    | none => exact ih before
    | some entity =>
      simp only [run_bind,run_make,perform,ih,LeaderManager.save]

theorem run_whenWriting (key : String) (writing : WantToWriteData → Handler Unit) (before : Outcome) :
    (whenWriting key writing).run perform before =
      match before.manager.wantToWriteData key with
      | some wanted => (writing wanted).run perform before
      | none => (before,()) := by
  simp only [whenWriting,run_bind,run_make,perform]
  rcases found : before.manager.wantToWriteData key with _ | wanted
  · rfl
  · simp only [run_bind,run_make,perform,found]

theorem run_executeInvalidateData (key : String) (before : Outcome) :
    (executeInvalidateData key).run perform before =
      ({ before with manager := Handlers.executeInvalidateData before.manager key },()) := by
  simp only [executeInvalidateData,Handlers.executeInvalidateData,run_bind,run_make,perform]
  cases before.manager.database.findById key <;> rfl

theorem run_checkStartup (members : List SpreadGroup) (self : LeaderManager) :
    (checkStartup settings me members).run perform (.unchanged self) =
      (Handlers.checkStartup settings self me members,()) := by
  obtain ⟨database,waitingData,wantToWriteData,numberOfParticipants,waitStartupDataUpdate⟩ := self
  simp only [checkStartup,Handlers.checkStartup,run_bind,run_make,perform,Outcome.unchanged]
  cases waitStartupDataUpdate with
  | false => rfl
  | true =>
    rw [if_pos rfl]
    by_cases two : members.length = 2
    · rw [if_pos two]
      simp only [if_pos two]
      rfl
    · rw [if_neg two]
      simp only [if_neg two]
      cases (electCoordinator settings me members 0 0 0).bind (members[·]?) with
      | none => rfl
      | some leader =>
        simp only [run_bind,run_make,run_invalidateRows,perform]
        rfl

/-- A handler that is not interrupted does what the handler as one step does. -/
theorem messageReceived_run (self : LeaderManager) (body : Body) :
    (messageReceived settings me sender body).run perform (.unchanged self) =
      (Handlers.messageReceived settings self me sender body,()) := by
  cases body with
  | membership info =>
    simp only [messageReceived,Handlers.messageReceived]
    by_cases isRegular : info.isRegularMembership = true
    · rw [if_pos isRegular,if_pos isRegular]
      simp only [run_bind,run_make,perform,Outcome.unchanged]
      by_cases joined : info.cause = .join ∧ info.members.length ≥ 2
      · rw [if_pos joined,if_pos joined]
        exact run_checkStartup settings me info.members _
      · rw [if_neg joined,if_neg joined]
        rfl
    · rw [if_neg isRegular,if_neg isRegular]
      rfl
  | regular message =>
    cases message with
    | askData key =>
      simp only [messageReceived,askData,Handlers.messageReceived,Handlers.askData]
      split_ifs with own
      · rfl
      · simp only [run_bind,run_make,perform,Outcome.unchanged]
        cases self.database.findById key with
        | none => rfl
        | some localData =>
          dsimp only
          split_ifs <;> rfl
    | askDataResponse dataDto =>
      simp only [messageReceived,askDataResponse,Handlers.messageReceived,Handlers.askDataResponse,run_bind,run_make,
        perform,Outcome.unchanged]
      cases self.waitingData dataDto.key <;> rfl
    | startupRequestUpdate dataDtoList =>
      simp only [messageReceived,startupData,run_bind,run_findStored]
      rfl
    | startupResponseUpdate dataDtoList =>
      simp only [messageReceived,startupDataResponse,run_bind,run_refreshRows]
      rfl
    | wantToWrite data =>
      simp only [messageReceived,wantToWriteReceived,Handlers.messageReceived,Handlers.wantToWriteReceived]
      by_cases own : sender = me
      · rw [if_pos own,if_pos own]
        rfl
      · rw [if_neg own,if_neg own]
        simp only [run_bind,run_make,perform,Outcome.unchanged]
        rcases writing : self.wantToWriteData data.key with _ | wanted
        · simp only [run_bind,run_executeInvalidateData]
          cases settings.testConflict me <;> rfl
        · simp [run_bind,perform,writing]
    | wantToWriteResponse key =>
      simp only [messageReceived,wantToWriteResponse,Handlers.messageReceived,Handlers.wantToWriteResponse,
        run_whenWriting,Outcome.unchanged]
      rcases writing : self.wantToWriteData key with _ | data
      · rfl
      · simp only [run_bind,run_make,perform,writing]
        split_ifs <;> rfl
    | writeConflict dataDto =>
      simp only [messageReceived,conflictReceived,Handlers.messageReceived,Handlers.conflictReceived]
      by_cases own : sender = me
      · rw [if_pos own,if_pos own]
        rfl
      · rw [if_neg own,if_neg own,run_whenWriting]
        simp only [Outcome.unchanged]
        cases self.wantToWriteData dataDto.key <;> rfl
    | dataWritten key =>
      simp only [messageReceived,dataWritten,Handlers.messageReceived,Handlers.dataWritten,
        deleteIfExistsAndIsInvalidated]
      split_ifs with own
      · rfl
      · simp only [run_bind,run_make,perform,Outcome.unchanged]
        cases self.database.findById key with
        | none => rfl
        | some dataEntity =>
          dsimp only
          split_ifs <;> rfl
    | revalidateData key =>
      simp only [messageReceived,revalidateData,Handlers.messageReceived,Handlers.revalidateData]
      split_ifs with own
      · rfl
      · simp only [run_bind,run_make,perform,Outcome.unchanged]
        cases self.database.findById key <;> rfl

end

/-! ### The cluster with listener threads -/

/-- A handler at work on a message. -/
structure Listening where
  packet : Packet
  handler : Handler Unit

/-- The cluster, and what the listener thread of each server is doing. -/
structure Threads where
  cluster : State
  listening : SpreadGroup → Option Listening

inductive Event
  | call (i : Nat) (server : SpreadGroup) (request : Request)
  | thread (i : Nat) (choice : Choice)
  | view (info : MembershipInfo)
  | boot (server : SpreadGroup)
  /-- an idle listener thread takes a message -/
  | receive (packet : Packet)
  /-- a listener thread goes on; `sent` is false when its send throws -/
  | listen (server : SpreadGroup) (sent : Bool)

/-- The listener thread of `server` has made an access, with the given outcome. -/
def Threads.listened (s : Threads) (server : SpreadGroup) (packet : Packet) (sent : Bool) (outcome : Outcome)
    (handler : Handler Unit) : Threads where
  cluster :=
    { s.cluster with
      servers := Function.update s.cluster.servers server outcome.manager
      calls := fun i => (s.cluster.calls i).map (notify outcome.sends outcome.callbacks packet sent i)
      network := s.cluster.network +
        (if sent then packets s.cluster.members server packet.call outcome.sends else 0) }
  listening := Function.update s.listening server (some ⟨packet,handler⟩)

section
variable (s : Threads) (server : SpreadGroup) (packet : Packet) (sent : Bool) (outcome : Outcome) (handler : Handler Unit)

@[simp] theorem listened_servers : (s.listened server packet sent outcome handler).cluster.servers =
    Function.update s.cluster.servers server outcome.manager := rfl
@[simp] theorem listened_calls (i : Nat) : (s.listened server packet sent outcome handler).cluster.calls i =
    (s.cluster.calls i).map (notify outcome.sends outcome.callbacks packet sent i) := rfl
@[simp] theorem listened_network : (s.listened server packet sent outcome handler).cluster.network =
    s.cluster.network + (if sent then packets s.cluster.members server packet.call outcome.sends else 0) := rfl
@[simp] theorem listened_listening : (s.listened server packet sent outcome handler).listening =
    Function.update s.listening server (some ⟨packet,handler⟩) := rfl
end

/-- The listener thread of `server` goes on. -/
def listen (server : SpreadGroup) (sent : Bool) (s : Threads) : Option Threads :=
  match s.listening server with
  | none => none
  | some ⟨_,.result _⟩ => some { s with listening := Function.update s.listening server none }
  | some ⟨packet,.make access next⟩ =>
    let made := perform access (.unchanged (s.cluster.servers server))
    some (s.listened server packet sent made.1 (next made.2))

def step (settings : Settings) : Event → Threads → Option Threads
  | .call i server request, s => (Cluster.step settings (.call i server request) s.cluster).map ({ s with cluster := · })
  | .thread i choice, s => (Cluster.step settings (.thread i choice) s.cluster).map ({ s with cluster := · })
  | .view info, s => (Cluster.step settings (.view info) s.cluster).map ({ s with cluster := · })
  | .boot server, s =>
    (Cluster.step settings (.boot server) s.cluster).map fun cluster =>
      ⟨cluster,Function.update s.listening server none⟩
  | .receive packet, s =>
    if packet ∈ s.cluster.network ∧ s.listening packet.receiver = none then
      let taken := { s.cluster with network := s.cluster.network.erase packet }
      if isService packet.receiver then some { s with cluster := taken }
      else
        let handler := messageReceived settings packet.receiver packet.sender packet.body
        some ⟨taken,Function.update s.listening packet.receiver (some ⟨packet,handler⟩)⟩
    else none
  | .listen server sent, s => listen server sent s

/-! ### What a step does -/

section
variable {settings : Settings} {s t : Threads} {i : Nat} {server : SpreadGroup}

theorem step_call {request : Request} (move : step settings (.call i server request) s = some t) :
    s.cluster.calls i = none ∧
      t = { s with cluster :=
              { s.cluster with calls := Function.update s.cluster.calls i
                                 (some (.start (s.cluster.servers server).waitStartupDataUpdate server request)) } } := by
  obtain ⟨_,taken,rfl⟩ := Option.map_eq_some_iff.mp move
  obtain ⟨fresh,_,rfl⟩ := step_started taken
  exact ⟨fresh,rfl⟩

theorem step_thread {choice : Choice} (move : step settings (.thread i choice) s = some t) :
    ∃ call effect pc, s.cluster.calls i = some call ∧
      next settings (s.cluster.servers call.server).numberOfParticipants
        ((s.cluster.servers call.server).database.findById call.request.key) call choice = some (effect,pc) ∧
      t = { s with cluster :=
              { s.cluster with
                servers := Function.update s.cluster.servers call.server (effect.apply i (s.cluster.servers call.server))
                calls := Function.update s.cluster.calls i (some (call.goto pc))
                network := s.cluster.network + packets s.cluster.members call.server (some i) effect.sends } } := by
  obtain ⟨_,taken,rfl⟩ := Option.map_eq_some_iff.mp move
  obtain ⟨call,effect,pc,found,moved,rfl⟩ := step_moved taken
  exact ⟨call,effect,pc,found,moved,rfl⟩

theorem step_view {info : MembershipInfo} (move : step settings (.view info) s = some t) :
    t = { s with cluster :=
            { s.cluster with
              members := info.members
              network := s.cluster.network +
                (info.members.map fun member => ⟨member,member,.membership info,none⟩ : List Packet) } } := by
  cases move
  rfl

theorem step_boot (move : step settings (.boot server) s = some t) :
    t = { cluster :=
            { s.cluster with
              servers := Function.update s.cluster.servers server (.initial (s.cluster.servers server).database)
              calls := fun i => (s.cluster.calls i).filter fun call => call.server ≠ server }
          listening := Function.update s.listening server none } := by
  cases move
  rfl

/-- A listener thread ends its handler or makes the next access of it. -/
theorem step_listen {sent : Bool} (move : step settings (.listen server sent) s = some t) :
    (∃ packet value, s.listening server = some ⟨packet,.result value⟩ ∧
      t = { s with listening := Function.update s.listening server none }) ∨
    ∃ packet, ∃ (α : Type) (access : Access α) (rest : α → Handler Unit),
      s.listening server = some ⟨packet,.make access rest⟩ ∧
      t = s.listened server packet sent (perform access (.unchanged (s.cluster.servers server))).1
        (rest (perform access (.unchanged (s.cluster.servers server))).2) := by
  change listen server sent s = some t at move
  unfold listen at move
  split at move
  · cases move
  next packet value busy =>
    cases move
    exact .inl ⟨packet,value,busy,rfl⟩
  next packet α access rest busy =>
    cases move
    exact .inr ⟨packet,α,access,rest,busy,rfl⟩

end

/-- Servers that have just started: no calls, no callbacks, nothing in flight. -/
structure Fresh (s : Threads) : Prop where
  noCalls : ∀ i, s.cluster.calls i = none
  noMessages : s.cluster.network = 0
  noReaders : ∀ server key, (s.cluster.servers server).waitingData key = none
  idle : ∀ server, s.listening server = none

end CdPraticas.Listeners
