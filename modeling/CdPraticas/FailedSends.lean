import CdPraticas.Cluster

/-!
# Operations whose send throws

`writeData`, `requestData` and `checkStartup`, each alone on its server, with
one of their sends throwing: what they leave in the database and in the two
maps, and when that is what they found.
-/

namespace CdPraticas.FailedSends
open Groups Store Messages Handlers Calls Runs

/-! ### A call alone on its server -/

/-- The server and one call, with the message whose multicast has thrown. -/
structure Solo where
  self : LeaderManager
  call : Call
  thrown : Option Message

inductive SoloAction
  | thread (choice : Choice)
  /-- callbacks set the references of the call -/
  | notify (responseReceived : Bool) (response : Option DataDto) (conflict : Option SpreadGroup)

/-- The message a call is about to multicast. -/
def sending (call : Call) : Option Message :=
  match call.request, call.pc with
  | .write dataDto, .sendWantToWrite => some (.wantToWrite dataDto)
  | .write dataDto, .sendDataWritten _ => some (.dataWritten dataDto.key)
  | .write dataDto, .sendRevalidate => some (.revalidateData dataDto.key)
  | .read key, .sendAskData => some (.askData key)
  | _, _ => none

def soloStep (settings : Settings) (i : Nat) : SoloAction → Solo → Option Solo
  | .thread choice, s =>
    (next settings s.self.numberOfParticipants (s.self.database.findById s.call.request.key) s.call choice).map fun moved =>
      ⟨moved.1.apply i s.self,s.call.goto moved.2,if choice = .fails then sending s.call else s.thrown⟩
  | .notify responseReceived response conflict, s =>
    some { s with call := { s.call with responseReceived := responseReceived, response := response, conflict := conflict } }

/-- A call is about to multicast what its next step multicasts. -/
theorem next_sending {settings : Settings} {participants : Int} {stored : Option DataEntity} {call : Call} {choice : Choice}
    {message : Message} {pc : Pc} (moved : next settings participants stored call choice = some (.multicast message,pc)) :
    sending call = some message := by
  cases next_move moved with
  | sendWantToWrite request here | sendDataWritten request here | sendRevalidate request here | sendAskData request here =>
    simp only [sending,request,here]

/-- A step of a call in the cluster is one of the call alone. -/
theorem soloStep_thread {settings : Settings} {i : Nat} {choice : Choice} {s t : Cluster.State} {call : Call}
    (found : s.calls i = some call) (move : Cluster.step settings (.thread i choice) s = some t) (thrown : Option Message) :
    ∃ after, soloStep settings i (.thread choice) ⟨s.servers call.server,call,thrown⟩ = some after ∧
      t.servers call.server = after.self ∧ t.calls i = some after.call := by
  simp only [Cluster.step,found] at move
  split at move
  · cases move
  next effect pc nexts =>
  cases move
  exact ⟨_,by simp only [soloStep,nexts]; rfl,Function.update_self ..,Function.update_self ..⟩

/-! ### The operations -/

inductive Operation
  | writeData (dataDto : DataDto)
  | requestData (key : String)
  | checkStartup (members : List SpreadGroup)

/-- `requestData` begins where the local database has been asked. -/
def requestData (startingUp : Bool) (me : SpreadGroup) (key : String) : Call :=
  { Call.start startingUp me (.read key) with pc := .sendAskData }

/-- An operation has run to its end, and its multicast of the message has thrown.
    The callback object of a write is a new one. -/
inductive Failed (settings : Settings) (me : SpreadGroup) (self : LeaderManager) : Operation → Message → LeaderManager → Prop
  | writeData {i dataDto message startingUp acts s}
      (new : ∀ key wanted, self.wantToWriteData key = some wanted → wanted.callback ≠ i)
      (run : Run (Steps (soloStep settings i)) ⟨self,.start startingUp me (.write dataDto),none⟩ acts s) (done : s.call.pc.Done)
      (thrown : s.thrown = some message) : Failed settings me self (.writeData dataDto) message s.self
  | requestData {i key message startingUp acts s}
      (run : Run (Steps (soloStep settings i)) ⟨self,requestData startingUp me key,none⟩ acts s) (done : s.call.pc.Done)
      (thrown : s.thrown = some message) : Failed settings me self (.requestData key) message s.self
  | checkStartup {members send} (sends : (Handlers.checkStartup settings self me members).sends = [send]) :
      Failed settings me self (.checkStartup members) send.message (Handlers.checkStartup settings self me members).manager

/-- The database and the maps are what they were. -/
structure Unchanged (before after : LeaderManager) : Prop where
  database : ∀ key, after.database.findById key = before.database.findById key
  waitingData : after.waitingData = before.waitingData
  wantToWriteData : after.wantToWriteData = before.wantToWriteData

/-- Where the operation leaves what it found, when the multicast of the message throws. -/
def Restores (self : LeaderManager) : Operation → Message → Prop
  | .requestData _, _ => True
  | .checkStartup _, _ => ∀ key entity, self.database.findById key = some entity → entity.invalidate = some true
  | .writeData dataDto, .dataWritten _ =>
    self.database.findById dataDto.key = some (.ofDto dataDto) ∧ self.wantToWriteData dataDto.key = none
  | .writeData dataDto, .revalidateData _ =>
    (∀ entity, self.database.findById dataDto.key = some entity → entity.invalidate = some true) ∧
      self.wantToWriteData dataDto.key = none
  | .writeData _, _ => False

/-- Invalidating changes nothing where everything is invalidated. -/
theorem map_setInvalidate (stored : Option DataEntity) : stored.map (fun entity => entity.setInvalidate true) = stored ↔
    ∀ entity, stored = some entity → entity.invalidate = some true := by
  cases stored with
  | none => simp
  | some entity =>
    obtain ⟨key,invalidate,data⟩ := entity
    simp [DataEntity.setInvalidate,eq_comm]

/-! ### The write -/

section
variable {settings : Settings} {participants : Int} {stored : Option DataEntity} {call : Call} {choice : Choice} {effect : Effect}
  {pc : Pc} {before : LeaderManager} {i : Nat} {dataDto : DataDto} {s t : Solo}

/-- What a write has done to the row and the slot of its key, and what it has thrown,
    where it stands. -/
def Phase (row : Option DataEntity) (slot : Option WantToWriteData) (i : Nat) (dataDto : DataDto) (now : Option DataEntity)
    (wanted : Option WantToWriteData) (thrown : Option Message) : Pc → Prop
  | .writeData | .saveAlone | .putWantToWrite => now = row ∧ wanted = slot ∧ thrown = none
  | .findInvalidate => now = row ∧ wanted = some ⟨0,i⟩ ∧ thrown = none
  | .saveInvalidate entity =>
    row.map (fun entity => entity.setInvalidate true) = some entity ∧ wanted = some ⟨0,i⟩ ∧ thrown = none
  | .sendWantToWrite | .testResponse | .sleepWrite | .testConflict | .saveData _ | .sendRevalidate | .handleConflict | .findDelete
  | .deleteById => now = row.map (fun entity => entity.setInvalidate true) ∧ wanted = some ⟨0,i⟩ ∧ thrown = none
  | .sendDataWritten _ => now = some (.ofDto dataDto) ∧ thrown = none
  | .removeWantToWrite _ => thrown = none ∨ thrown = some (.dataWritten dataDto.key) ∧ now = some (.ofDto dataDto) ∨
      thrown = some (.revalidateData dataDto.key) ∧ now = row.map fun entity => entity.setInvalidate true
  | .wrote _ => thrown = none ∨ thrown = some (.wantToWrite dataDto) ∧ wanted = some ⟨0,i⟩ ∨
      wanted = none ∧ (thrown = some (.dataWritten dataDto.key) ∧ now = some (.ofDto dataDto) ∨
        thrown = some (.revalidateData dataDto.key) ∧ now = row.map fun entity => entity.setInvalidate true)
  | _ => False

/-- A write of `dataDto` on a server that was as `before`. -/
structure Writes (before : LeaderManager) (i : Nat) (dataDto : DataDto) (s : Solo) : Prop where
  request : s.call.request = .write dataDto
  waitingData : s.self.waitingData = before.waitingData
  rows : ∀ key, key ≠ dataDto.key → s.self.database.findById key = before.database.findById key
  slots : ∀ key, key ≠ dataDto.key → s.self.wantToWriteData key = before.wantToWriteData key
  phase : Phase (before.database.findById dataDto.key) (before.wantToWriteData dataDto.key) i dataDto
    (s.self.database.findById dataDto.key) (s.self.wantToWriteData dataDto.key) s.thrown s.call.pc

/-- The four kinds of accesses of a write. -/
theorem Writes.skip {thrown : Option Message} (writes : Writes before i dataDto s)
    (phase : Phase (before.database.findById dataDto.key) (before.wantToWriteData dataDto.key) i dataDto
      (s.self.database.findById dataDto.key) (s.self.wantToWriteData dataDto.key) thrown pc) :
    Writes before i dataDto ⟨s.self,s.call.goto pc,thrown⟩ :=
  ⟨writes.request,writes.waitingData,writes.rows,writes.slots,phase⟩

theorem Writes.save {thrown : Option Message} (writes : Writes before i dataDto s) {entity : DataEntity}
    (own : entity.key = dataDto.key)
    (phase : Phase (before.database.findById dataDto.key) (before.wantToWriteData dataDto.key) i dataDto (some entity)
      (s.self.wantToWriteData dataDto.key) thrown pc) :
    Writes before i dataDto ⟨s.self.save entity,s.call.goto pc,thrown⟩ := by
  refine ⟨writes.request,writes.waitingData,fun key other => ?_,writes.slots,?_⟩
  · simpa [LeaderManager.save,Database.findById_save,own,other] using writes.rows key other
  · simpa [LeaderManager.save,Database.findById_save,own] using phase

theorem Writes.delete {thrown : Option Message} (writes : Writes before i dataDto s)
    (phase : Phase (before.database.findById dataDto.key) (before.wantToWriteData dataDto.key) i dataDto none
      (s.self.wantToWriteData dataDto.key) thrown pc) :
    Writes before i dataDto ⟨s.self.deleteById dataDto.key,s.call.goto pc,thrown⟩ := by
  refine ⟨writes.request,writes.waitingData,fun key other => ?_,writes.slots,?_⟩
  · simpa [LeaderManager.deleteById,Database.findById_deleteById,other] using writes.rows key other
  · simpa [LeaderManager.deleteById,Database.findById_deleteById] using phase

theorem Writes.slot {thrown : Option Message} (writes : Writes before i dataDto s) (wanted : Option WantToWriteData)
    (phase : Phase (before.database.findById dataDto.key) (before.wantToWriteData dataDto.key) i dataDto
      (s.self.database.findById dataDto.key) wanted thrown pc) :
    Writes before i dataDto ⟨{ s.self with wantToWriteData := Function.update s.self.wantToWriteData dataDto.key wanted },
      s.call.goto pc,thrown⟩ := by
  refine ⟨writes.request,writes.waitingData,writes.rows,fun key other => ?_,?_⟩
  · exact (Function.update_of_ne other ..).trans (writes.slots key other)
  · simpa using phase

theorem writes_start (before : LeaderManager) (i : Nat) (dataDto : DataDto) (startingUp : Bool) (me : SpreadGroup) :
    Writes before i dataDto ⟨before,.start startingUp me (.write dataDto),none⟩ :=
  ⟨rfl,rfl,fun _ _ => rfl,fun _ _ => rfl,rfl,rfl,rfl⟩

theorem Writes.step {a : SoloAction} (writes : Writes before i dataDto s) (move : soloStep settings i a s = some t) :
    Writes before i dataDto t := by
  cases a with
  | notify responseReceived response conflict =>
    cases move
    exact ⟨writes.request,writes.waitingData,writes.rows,writes.slots,writes.phase⟩
  | thread choice =>
    simp only [soloStep,Option.map_eq_some_iff] at move
    obtain ⟨⟨effect,pc⟩,nexts,rfl⟩ := move
    have request := writes.request
    have phase := writes.phase
    have stored : ∀ entity, s.self.database.findById dataDto.key = some entity → entity.key = dataDto.key :=
      fun entity found => Database.findById_key found
    cases next_move nexts with
    | isAlone write here | notAlone write here => exact writes.skip (by simpa [Phase,here] using phase)
    | saveAlone write here =>
      cases request.symm.trans write
      refine writes.save rfl (.inl ?_)
      simp only [Phase,here] at phase
      exact phase.2.2
    | putWantToWrite write here =>
      cases request.symm.trans write
      simp only [Phase,here] at phase
      exact writes.slot _ ⟨phase.1,rfl,phase.2.2⟩
    | foundRow write here row =>
      rw [request] at row
      simp only [Phase,here] at phase
      exact writes.skip ⟨by rw [← phase.1]; exact congrArg _ row,phase.2.1,phase.2.2⟩
    | noRow write here row =>
      rw [request] at row
      simp only [Phase,here] at phase
      have absent : s.self.database.findById dataDto.key = none := row
      exact writes.skip ⟨by rw [← phase.1,absent]; rfl,phase.2.1,phase.2.2⟩
    | @saveInvalidate _ dataEntity write here =>
      simp only [Phase,here] at phase
      obtain ⟨found,stood,rfl⟩ := Option.map_eq_some_iff.mp phase.1
      have own : found.key = dataDto.key := Database.findById_key stood
      exact writes.save own ⟨phase.1.symm,phase.2.1,phase.2.2⟩
    | wantToWriteFails write here =>
      cases request.symm.trans write
      have sent : sending s.call = some (.wantToWrite dataDto) := by simp only [sending,write,here]
      simp only [Phase,here] at phase
      exact writes.skip (.inr (.inl ⟨sent,phase.2.1⟩))
    | dataWrittenFails write here =>
      cases request.symm.trans write
      have sent : sending s.call = some (.dataWritten dataDto.key) := by simp only [sending,write,here]
      simp only [Phase,here] at phase
      exact writes.skip (.inr (.inl ⟨sent,phase.1⟩))
    | revalidateFails write here =>
      cases request.symm.trans write
      have sent : sending s.call = some (.revalidateData dataDto.key) := by simp only [sending,write,here]
      simp only [Phase,here] at phase
      exact writes.skip (.inr (.inr ⟨sent,phase.1⟩))
    | saveData write here =>
      cases request.symm.trans write
      simp only [Phase,here] at phase
      exact writes.save rfl ⟨rfl,phase.2.2⟩
    | sendDataWritten write here =>
      simp only [Phase,here] at phase
      exact writes.skip (.inl phase.2)
    | sendRevalidate write here | throws write here | nothingToDelete write here | deleteThrows write here =>
      simp only [Phase,here] at phase
      exact writes.skip (.inl phase.2.2)
    | deleteById write here row =>
      cases request.symm.trans write
      simp only [Phase,here] at phase
      exact writes.delete (.inl phase.2.2)
    | removeWantToWrite write here =>
      cases request.symm.trans write
      simp only [Phase,here] at phase
      refine writes.slot none ?_
      rcases phase with silent | thrown
      · exact .inl silent
      · exact .inr (.inr ⟨rfl,thrown⟩)
    | sendWantToWrite write here | allResponses write here _ | noResponses write here _ | wakeWrite write here
    | timeoutWrite write here | conflict write here _ | noConflict write here _ | wins write here _ _ | yields write here _ _
    | findDelete write here _ => exact writes.skip (by simpa [Phase,here] using phase)
    | localCopy read _ _ | noCopy read _ _ | sendAskData read _ | askDataFails read _ | putWaiting read _ | dataArrived read _ _
    | noData read _ _ | wakeRead read _ | timeoutRead read _ | saveCopy read _ _ | nothingToSave read _ _ | removeWaiting read _ =>
      cases request.symm.trans read

/-- What a write has left whose send of the message has thrown. -/
theorem Writes.left {message : Message} (writes : Writes before i dataDto s) (done : s.call.pc.Done)
    (thrown : s.thrown = some message) :
    message = .wantToWrite dataDto ∧ s.self.wantToWriteData dataDto.key = some ⟨0,i⟩ ∨
      s.self.wantToWriteData dataDto.key = none ∧
        (message = .dataWritten dataDto.key ∧ s.self.database.findById dataDto.key = some (.ofDto dataDto) ∨
          message = .revalidateData dataDto.key ∧ s.self.database.findById dataDto.key =
            (before.database.findById dataDto.key).map fun entity => entity.setInvalidate true) := by
  have phase := writes.phase
  cases here : s.call.pc with
  | wrote exit =>
    simp only [Phase,here,thrown] at phase
    simpa using phase
  | answered response =>
    simp only [Phase,here] at phase
  | _ =>
    rw [here] at done
    exact done.elim

/-- Where the key of a write is as before, everything is. -/
theorem Writes.unchanged (writes : Writes before i dataDto s) : Unchanged before s.self ↔
    s.self.database.findById dataDto.key = before.database.findById dataDto.key ∧
      s.self.wantToWriteData dataDto.key = before.wantToWriteData dataDto.key := by
  constructor
  · intro unchanged
    exact ⟨unchanged.database _,by rw [unchanged.wantToWriteData]⟩
  · rintro ⟨row,slot⟩
    refine ⟨fun key => ?_,writes.waitingData,funext fun key => ?_⟩
    · by_cases same : key = dataDto.key
      · exact same ▸ row
      · exact writes.rows key same
    · by_cases same : key = dataDto.key
      · exact same ▸ slot
      · exact writes.slots key same

end

/-! ### The read and the startup -/

section
variable {settings : Settings} {me : SpreadGroup} {before : LeaderManager} {i : Nat} {key : String} {s t : Solo}

/-- A read of a key the server does not have: where its send throws it ends, and the
    server is as before. -/
structure Asks (before : LeaderManager) (key : String) (s : Solo) : Prop where
  request : s.call.request = .read key
  asked : s.call.pc ≠ .findLocal
  asking : s.call.pc = .sendAskData → s.self = before
  thrown : s.thrown ≠ none → s.self = before ∧ s.call.pc = .answered none

theorem asks_start (before : LeaderManager) (startingUp : Bool) (me : SpreadGroup) (key : String) :
    Asks before key ⟨before,requestData startingUp me key,none⟩ :=
  ⟨rfl,by simp [requestData],fun _ => rfl,fun thrown => absurd rfl thrown⟩

theorem Asks.step {a : SoloAction} (asks : Asks before key s) (move : soloStep settings i a s = some t) : Asks before key t := by
  cases a with
  | notify responseReceived response conflict =>
    cases move
    exact ⟨asks.request,asks.asked,asks.asking,asks.thrown⟩
  | thread choice =>
    simp only [soloStep,Option.map_eq_some_iff] at move
    obtain ⟨⟨effect,pc⟩,nexts,rfl⟩ := move
    have moved := next_move nexts
    have silent : s.thrown = none := by
      by_contra thrown
      have ended := (asks.thrown thrown).2
      exact moved.not_done (by rw [ended]; trivial)
    cases moved with
    | askDataFails read here => exact ⟨asks.request,by simp,by simp,fun _ => ⟨asks.asking here,rfl⟩⟩
    | noCopy read here => exact absurd here asks.asked
    | localCopy read here | sendAskData read here | putWaiting read here | dataArrived read here | noData read here
    | wakeRead read here | timeoutRead read here | saveCopy read here | nothingToSave read here | removeWaiting read here =>
      exact ⟨asks.request,by simp,by simp,fun thrown => absurd silent thrown⟩
    | _ write => cases asks.request.symm.trans write

/-- A server that sends a startup request has invalidated its rows. -/
theorem checkStartup_manager {members : List SpreadGroup} {send : Send}
    (sends : (Handlers.checkStartup settings before me members).sends = [send]) :
    (Handlers.checkStartup settings before me members).manager = { before with database := invalidateAll before.database } := by
  unfold Handlers.checkStartup at sends ⊢
  split_ifs at sends ⊢
  · cases sends
  · split at sends
    · rfl
    · cases sends
  · cases sends

end

/-- An operation whose send throws leaves what it found exactly where `Restores` says so. -/
theorem failed_restores_iff {settings : Settings} {me : SpreadGroup} {before after : LeaderManager} {operation : Operation}
    {message : Message} (failed : Failed settings me before operation message after) :
    Unchanged before after ↔ Restores before operation message := by
  cases failed with
  | @writeData i dataDto message startingUp acts s new run done thrown =>
    have writes : Writes before i dataDto s :=
      run.always (P := Writes before i dataDto) (writes_start ..) fun _ _ _ writes move => writes.step move
    rw [writes.unchanged]
    rcases writes.left done thrown with ⟨rfl,slot⟩ | ⟨slot,⟨rfl,row⟩ | ⟨rfl,row⟩⟩
    · refine ⟨fun same => ?_,fun never => never.elim⟩
      have held : before.wantToWriteData dataDto.key = some ⟨0,i⟩ := same.2.symm.trans slot
      exact absurd rfl (new _ _ held)
    · simp only [Restores,row,slot,eq_comm]
    · simp only [Restores,row,slot]
      exact and_congr (map_setInvalidate _) eq_comm
  | @requestData i key message startingUp acts s run done thrown =>
    have asks : Asks before key s := run.always (P := Asks before key) (asks_start ..) fun _ _ _ asks move => asks.step move
    have same : s.self = before := (asks.thrown (by simp [thrown])).1
    exact ⟨fun _ => trivial,fun _ => ⟨fun _ => by rw [same],by rw [same],by rw [same]⟩⟩
  | @checkStartup members send sends =>
    rw [checkStartup_manager sends]
    constructor
    · intro unchanged key entity found
      have same := unchanged.database key
      rw [findById_invalidateAll] at same
      exact (map_setInvalidate _).mp same entity found
    · intro all
      refine ⟨fun key => ?_,rfl,rfl⟩
      rw [findById_invalidateAll]
      exact (map_setInvalidate _).mpr (all key)

/-- A server of a group of three, with no data. -/
def blank : LeaderManager := { LeaderManager.initial ∅ with numberOfParticipants := 4 }

/-- Its write of k sends its question in vain. -/
theorem write_fails : ∃ after, Failed .properties ⟨"#Server1#host"⟩ blank (.writeData ⟨"k","v"⟩) (.wantToWrite ⟨"k","v"⟩) after ∧
    after.wantToWriteData "k" = some ⟨0,0⟩ := by
  obtain ⟨s,run,returned,thrown,slot⟩ := exists_run_of_exec (soloStep .properties 0) (fun _ _ => True)
    (fun s => s.call.pc.Done ∧ s.thrown = some (.wantToWrite ⟨"k","v"⟩) ∧ s.self.wantToWriteData "k" = some ⟨0,0⟩)
    ⟨blank,.start false ⟨"#Server1#host"⟩ (.write ⟨"k","v"⟩),none⟩ (List.replicate 3 (.thread .go) ++ [.thread .fails]) (by decide)
  refine ⟨s.self,.writeData (fun key wanted found => ?_) run.unrestrict returned thrown,slot⟩
  simp [blank,LeaderManager.initial] at found

theorem failed_restores_iff_blank : ∃ after,
    Failed .properties ⟨"#Server1#host"⟩ blank (.writeData ⟨"k","v"⟩) (.wantToWrite ⟨"k","v"⟩) after ∧
      (Unchanged blank after ↔ Restores blank (.writeData ⟨"k","v"⟩) (.wantToWrite ⟨"k","v"⟩)) := by
  obtain ⟨after,failed,_⟩ := write_fails
  exact ⟨after,failed,failed_restores_iff failed⟩

/-- The key stays behind in `wantToWriteData`. -/
theorem failed_write_leaves :
    ¬ ∀ (settings : Settings) (me : SpreadGroup) (before after : LeaderManager) (operation : Operation) (message : Message),
      Failed settings me before operation message after → Unchanged before after := by
  intro unchanged
  obtain ⟨after,failed,slot⟩ := write_fails
  have same := (unchanged _ _ _ _ _ _ failed).wantToWriteData
  rw [same] at slot
  cases slot

end CdPraticas.FailedSends
