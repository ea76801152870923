import CdPraticas.Cluster

/-!
# One key at a time

In a group whose membership stays fixed, what happens to one key is a system of
its own: its row, its callbacks, the calls and the messages about it. A step of
the cluster is a step of this system or does not touch the key at all.
-/

namespace CdPraticas.Keys
open Groups Store Messages Handlers Calls Cluster Runs

/-! ### A fixed group -/

/-- A group of some servers and one configuration service, and the servers that
    still wait for startup data. -/
structure Group where
  members : List SpreadGroup
  distinct : members.Nodup
  service : SpreadGroup
  isMember : service ∈ members
  service_iff : ∀ member ∈ members, isService member = true ↔ member = service
  startingUp : SpreadGroup → Bool

def Group.servers (group : Group) : List SpreadGroup := group.members.filter (fun member => isService member = false)
/-- The servers other than `server`. -/
def Group.others (group : Group) (server : SpreadGroup) : List SpreadGroup :=
  group.servers.filter (fun member => member ≠ server)

theorem Group.mem_servers {group : Group} {server : SpreadGroup} :
    server ∈ group.servers ↔ server ∈ group.members ∧ isService server = false := by
  simp [Group.servers]
theorem Group.mem_others {group : Group} {server other : SpreadGroup} :
    other ∈ group.others server ↔ other ∈ group.servers ∧ other ≠ server := by
  simp [Group.others]

theorem Group.servers_length (group : Group) : group.servers.length + 1 = group.members.length := by
  have split := List.length_eq_length_filter_add (l := group.members) (fun member => isService member = false)
  have one : group.members.filter (fun member => ! decide (isService member = false)) = [group.service] := by
    have same : group.members.filter (fun member => ! decide (isService member = false)) =
        group.members.filter (fun member => member = group.service) := by
      apply List.filter_congr
      intro member inside
      have reading := group.service_iff member inside
      cases flag : isService member <;> simp_all
    rw [same,List.filter_eq,List.count_eq_one_of_mem group.distinct group.isMember]
    rfl
  rw [split,one]
  rfl
theorem Group.others_length {group : Group} {server : SpreadGroup} (member : server ∈ group.servers) :
    (group.others server).length + 2 = group.members.length := by
  have split := List.length_eq_length_filter_add (l := group.servers) (fun other => other ≠ server)
  have one : group.servers.filter (fun other => ! decide (other ≠ server)) = [server] := by
    have same : group.servers.filter (fun other => ! decide (other ≠ server)) =
        group.servers.filter (fun other => other = server) := by
      apply List.filter_congr
      intro other _
      simp
    have once : group.servers.count server = 1 := List.count_eq_one_of_mem (group.distinct.filter _) member
    rw [same,List.filter_eq,once]
    rfl
  have all := group.servers_length
  rw [one] at split
  simp only [List.length_cons,List.length_nil] at split
  have unfolded : (group.others server).length = (group.servers.filter (fun other => other ≠ server)).length := rfl
  omega

/-! ### What one server holds for a key -/

/-- The row of a key and the callbacks registered under it. -/
structure Fields where
  row : Option DataEntity
  waiting : Option Nat
  slot : Option WantToWriteData

def fields (self : LeaderManager) (key : String) : Fields :=
  ⟨self.database.findById key,self.waitingData key,self.wantToWriteData key⟩

/-- When a message changes nothing at the server `me`. -/
def Ignores (me sender : SpreadGroup) (held : Fields) : Message → Prop
  | .askData _ => sender = me ∨ ∀ entity, held.row = some entity → ¬ entity.Valid
  | .askDataResponse _ => held.waiting = none
  | .wantToWrite _ => sender = me
  | .wantToWriteResponse _ => held.slot = none
  | .writeConflict _ => sender = me ∨ held.slot = none
  | .dataWritten _ => sender = me ∨ ∀ entity, held.row = some entity → entity.Valid
  | .revalidateData _ => sender = me ∨ held.row = none
  | .startupRequestUpdate _ | .startupResponseUpdate _ => False

/-- Everything a handler can do with a message about one key: the fields after
    it, its sends and the callbacks it invokes. -/
inductive Handled (settings : Settings) (participants : Int) (me sender : SpreadGroup) (held : Fields) :
    Message → Fields → List Send → List Callback → Prop
  | ignored {message : Message} (why : Ignores me sender held message) :
      Handled settings participants me sender held message held [] []
  | answered {key : String} {entity : DataEntity} (foreign : sender ≠ me) (stored : held.row = some entity)
      (valid : entity.Valid) :
      Handled settings participants me sender held (.askData key) held
        [.unicast (.askDataResponse entity.toDto) sender] []
  | received {dataDto : DataDto} {reader : Nat} (waiting : held.waiting = some reader) :
      Handled settings participants me sender held (.askDataResponse dataDto) { held with waiting := none } []
        [.dataReceived reader dataDto]
  | granted {data : DataDto} (foreign : sender ≠ me) (free : held.slot = none) :
      Handled settings participants me sender held (.wantToWrite data)
        { held with row := held.row.map (DataEntity.setInvalidate · true) }
        (if settings.testConflict me then [] else [.unicast (.wantToWriteResponse data.key) sender]) []
  | refused {data : DataDto} {wanted : WantToWriteData} (foreign : sender ≠ me) (writing : held.slot = some wanted) :
      Handled settings participants me sender held (.wantToWrite data) held [.multicast (.writeConflict data)]
        [.conflict wanted.callback sender]
  | counted {key : String} {wanted : WantToWriteData} (writing : held.slot = some wanted) :
      Handled settings participants me sender held (.wantToWriteResponse key)
        { held with slot := some ⟨wanted.receivedResponses + 1,wanted.callback⟩ } []
        (if ((wanted.receivedResponses + 1 : Nat) : Int) ≥ participants - 2 then [.allResponsesReceived wanted.callback]
          else [])
  | disturbed {data : DataDto} {wanted : WantToWriteData} (foreign : sender ≠ me) (writing : held.slot = some wanted) :
      Handled settings participants me sender held (.writeConflict data) held [] [.conflict wanted.callback sender]
  | deleted {key : String} {entity : DataEntity} (foreign : sender ≠ me) (stored : held.row = some entity)
      (invalid : ¬ entity.Valid) :
      Handled settings participants me sender held (.dataWritten key) { held with row := none } [] []
  | revalidated {key : String} {entity : DataEntity} (foreign : sender ≠ me) (stored : held.row = some entity) :
      Handled settings participants me sender held (.revalidateData key)
        { held with row := some (entity.setInvalidate false) } [] []

section
variable (settings : Settings) (self : LeaderManager) (me sender : SpreadGroup)

theorem fields_save (entity : DataEntity) (key : String) : fields (self.save entity) key =
    if key = entity.key then { fields self key with row := some entity } else fields self key := by
  simp only [fields,LeaderManager.save,Database.findById_save]
  split <;> rfl
theorem fields_deleteById (gone key : String) : fields (self.deleteById gone) key =
    if key = gone then { fields self key with row := none } else fields self key := by
  simp only [fields,LeaderManager.deleteById,Database.findById_deleteById]
  split <;> rfl

theorem fields_executeInvalidateData (gone key : String) : fields (executeInvalidateData self gone) key =
    if key = gone then { fields self key with row := (fields self key).row.map (DataEntity.setInvalidate · true) }
    else fields self key := by
  unfold executeInvalidateData
  cases stored : self.database.findById gone with
  | none =>
    dsimp only
    split_ifs with same
    · subst same; simp [fields,stored]
    · rfl
  | some entity =>
    dsimp only
    rw [fields_save,setInvalidate_key,Database.findById_key stored]
    split_ifs with same
    · subst same; simp [fields,stored]
    · rfl

/-- A handler of a message about `key` does one of these things to that key. -/
theorem messageReceived_handled {message : Message} {key : String} (about : message.key? = some key) :
    Handled settings self.numberOfParticipants me sender (fields self key) message
      (fields (messageReceived settings self me sender (.regular message)).manager key)
      (messageReceived settings self me sender (.regular message)).sends
      (messageReceived settings self me sender (.regular message)).callbacks := by
  cases message with
  | startupRequestUpdate _ | startupResponseUpdate _ => cases about
  | askData key =>
    cases about
    simp only [messageReceived,askData]
    split_ifs with same
    · exact .ignored (.inl same)
    cases stored : self.database.findById key with
    | none => exact .ignored (.inr (by simp [fields,stored]))
    | some entity =>
      dsimp only
      split_ifs with flag
      · exact .answered same stored (by rcases flag with flag | flag <;> simp [DataEntity.Valid,flag])
      · refine .ignored (.inr fun other found => ?_)
        rw [show (fields self key).row = some entity from stored] at found
        cases found
        obtain ⟨notNull,notFalse⟩ := not_or.mp flag
        rcases flagged : entity.invalidate with _ | value
        · exact absurd flagged notNull
        · cases value
          · exact absurd flagged notFalse
          · simp [DataEntity.Valid,flagged]
  | askDataResponse dataDto =>
    cases about
    simp only [messageReceived,askDataResponse]
    cases waiting : self.waitingData dataDto.key with
    | none => exact .ignored waiting
    | some reader => simpa [fields] using (.received waiting : Handled _ _ _ _ (fields self dataDto.key) _ _ _ _)
  | wantToWrite data =>
    cases about
    simp only [messageReceived,wantToWriteReceived]
    by_cases same : sender = me
    · rw [if_pos same]
      exact .ignored same
    rw [if_neg same]
    cases writing : self.wantToWriteData data.key with
    | none => simpa [fields_executeInvalidateData] using
        (.granted same writing : Handled _ _ _ _ (fields self data.key) _ _ _ _)
    | some wanted => exact .refused same writing
  | wantToWriteResponse key =>
    cases about
    simp only [messageReceived,wantToWriteResponse]
    cases writing : self.wantToWriteData key with
    | none => exact .ignored writing
    | some wanted => simpa [fields] using (.counted writing : Handled _ _ _ _ (fields self key) _ _ _ _)
  | writeConflict dataDto =>
    cases about
    simp only [messageReceived,conflictReceived]
    split_ifs with same
    · exact .ignored (.inl same)
    cases writing : self.wantToWriteData dataDto.key with
    | none => exact .ignored (.inr writing)
    | some wanted => exact .disturbed same writing
  | dataWritten key =>
    cases about
    simp only [messageReceived,dataWritten]
    split_ifs with same
    · exact .ignored (.inl same)
    unfold deleteIfExistsAndIsInvalidated
    cases stored : self.database.findById key with
    | none => exact .ignored (.inr (by simp [fields,stored]))
    | some entity =>
      dsimp only
      split_ifs with flag
      · simpa [Outcome.unchanged,fields_deleteById] using
          (.deleted same stored (by simp [DataEntity.Valid,flag]) : Handled _ _ _ _ (fields self key) _ _ _ _)
      · refine .ignored (.inr fun other found => ?_)
        rw [show (fields self key).row = some entity from stored] at found
        cases found
        exact flag
  | revalidateData key =>
    cases about
    simp only [messageReceived,revalidateData]
    split_ifs with same
    · exact .ignored (.inl same)
    cases stored : self.database.findById key with
    | none => exact .ignored (.inr stored)
    | some entity =>
      have sameKey := Database.findById_key stored
      simpa [Outcome.unchanged,fields_save,sameKey] using
        (.revalidated same stored : Handled _ _ _ _ (fields self key) _ _ _ _)

/-- It leaves the other keys alone, -/
theorem messageReceived_elsewhere {message : Message} {key other : String} (about : message.key? = some key)
    (different : other ≠ key) :
    fields (messageReceived settings self me sender (.regular message)).manager other = fields self other := by
  cases message with
  | startupRequestUpdate _ | startupResponseUpdate _ => cases about
  | askData _ | wantToWriteResponse _ | writeConflict _ | askDataResponse _ =>
    cases about
    simp only [messageReceived,askData,wantToWriteResponse,conflictReceived,askDataResponse]
    repeat' split
    all_goals simp [Outcome.unchanged,fields,different]
  | wantToWrite data =>
    cases about
    simp only [messageReceived,wantToWriteReceived]
    repeat' split
    all_goals simp [Outcome.unchanged,fields_executeInvalidateData,different]
  | dataWritten key =>
    cases about
    simp only [messageReceived,dataWritten,deleteIfExistsAndIsInvalidated]
    repeat' split
    all_goals simp [Outcome.unchanged,fields_deleteById,different]
  | revalidateData key =>
    cases about
    simp only [messageReceived,revalidateData]
    repeat' split
    all_goals simp [Outcome.unchanged]
    next stored => rw [fields_save,setInvalidate_key,Database.findById_key stored,if_neg different]

/-- and the size of the group and the startup flag. -/
theorem messageReceived_participants {message : Message} {key : String} (about : message.key? = some key) :
    (messageReceived settings self me sender (.regular message)).manager.numberOfParticipants =
      self.numberOfParticipants ∧
    (messageReceived settings self me sender (.regular message)).manager.waitStartupDataUpdate =
      self.waitStartupDataUpdate := by
  cases message with
  | startupRequestUpdate _ | startupResponseUpdate _ => cases about
  | _ =>
    simp only [messageReceived,askData,askDataResponse,wantToWriteReceived,executeInvalidateData,wantToWriteResponse,
      conflictReceived,dataWritten,deleteIfExistsAndIsInvalidated,revalidateData]
    repeat' split
    all_goals exact ⟨rfl,rfl⟩
/-- What a handler sends is about the key of the message and goes to the group or
    to the sender of the message. -/
theorem Handled.packets_about {settings : Settings} {participants : Int} {me sender : SpreadGroup} {held held' : Fields}
    {message : Message} {sends : List Send} {callbacks : List Callback} {key : String} {members : List SpreadGroup}
    {call : Option Nat} (handled : Handled settings participants me sender held message held' sends callbacks)
    (about : message.key? = some key) (own : ∀ entity, held.row = some entity → entity.key = key) :
    ∀ packet ∈ packets members me call sends, packet.sender = me ∧ packet.call = call ∧
      (packet.receiver ∈ members ∨ packet.receiver = sender) ∧
      ∃ message, packet.body = .regular message ∧ message.key? = some key := by
  intro packet member
  cases handled with
  | answered _ stored _ =>
    rw [packets_unicast,Multiset.mem_singleton] at member
    subst member
    exact ⟨rfl,rfl,.inr rfl,_,rfl,congrArg some (own _ stored)⟩
  | granted =>
    split_ifs at member
    · simp at member
    rw [packets_unicast,Multiset.mem_singleton] at member
    subst member
    exact ⟨rfl,rfl,.inr rfl,_,rfl,about⟩
  | refused =>
    rw [packets_multicast] at member
    obtain ⟨receiver,inside,rfl⟩ := List.mem_map.mp (Multiset.mem_coe.mp member)
    exact ⟨rfl,rfl,.inl inside,_,rfl,about⟩
  | _ => simp at member
end

/-! ### The fields of a key under the access of a call -/

/-- The access of call `i` to the fields of its key. -/
def access (i : Nat) (held : Fields) : Effect → Fields
  | .skip | .multicast _ => held
  | .save dataEntity => { held with row := some dataEntity }
  | .deleteById _ => { held with row := none }
  | .putWantToWrite _ => { held with slot := some ⟨0,i⟩ }
  | .removeWantToWrite _ => { held with slot := none }
  | .putWaiting _ => { held with waiting := some i }
  | .removeWaiting _ => { held with waiting := none }

section
variable {effect : Effect} {key : String}

theorem fields_apply (i : Nat) (self : LeaderManager) (about : effect = .skip ∨ effect.key? = some key) :
    fields (effect.apply i self) key = access i (fields self key) effect := by
  rcases about with rfl | about
  · rfl
  cases effect with
  | skip => cases about
  | save entity => cases about; simp [Effect.apply,access,fields_save]
  | deleteById gone => cases about; simp [Effect.apply,access,fields_deleteById]
  | multicast message => rfl
  | _ => cases about; simp [Effect.apply,access,fields]

theorem fields_apply_elsewhere (i : Nat) (self : LeaderManager) {other : String}
    (about : effect = .skip ∨ effect.key? = some key) (different : other ≠ key) :
    fields (effect.apply i self) other = fields self other := by
  rcases about with rfl | about
  · rfl
  cases effect with
  | skip => cases about
  | save entity => cases about; simp [Effect.apply,fields_save,different]
  | deleteById gone => cases about; simp [Effect.apply,fields_deleteById,different]
  | multicast message => rfl
  | _ => cases about; simp [Effect.apply,fields,different]

theorem apply_participants (i : Nat) (self : LeaderManager) :
    (effect.apply i self).numberOfParticipants = self.numberOfParticipants ∧
    (effect.apply i self).waitStartupDataUpdate = self.waitStartupDataUpdate := by
  cases effect <;> exact ⟨rfl,rfl⟩
end

/-! ### The system of one key -/

/-- All there is about one key: what each server holds for it, the calls on it
    and the messages about it. -/
structure KeyView where
  held : SpreadGroup → Fields
  calls : Nat → Option Call
  network : Multiset Packet

def view (key : String) (s : State) : KeyView where
  held server := fields (s.servers server) key
  calls i := (s.calls i).filter fun call => call.request.key = key
  network := s.network.filter (Packet.About key)

/-- A call comes in. -/
def KeyView.started (v : KeyView) (i : Nat) (call : Call) : KeyView :=
  { v with calls := Function.update v.calls i (some call) }
/-- Call `i` makes the access `effect` and goes to `pc`. -/
def KeyView.moved (v : KeyView) (group : Group) (i : Nat) (call : Call) (effect : Effect) (pc : Pc) : KeyView where
  held := Function.update v.held call.server (access i (v.held call.server) effect)
  calls := Function.update v.calls i (some (call.goto pc))
  network := v.network + packets group.members call.server (some i) effect.sends
/-- A message is delivered and ignored. -/
def KeyView.dropped (v : KeyView) (packet : Packet) : KeyView := { v with network := v.network.erase packet }
/-- A message is delivered and handled with the given result. -/
def KeyView.handled (v : KeyView) (group : Group) (packet : Packet) (sent : Bool) (held : Fields) (sends : List Send)
    (callbacks : List Callback) : KeyView where
  held := Function.update v.held packet.receiver held
  calls i := (v.calls i).map (notify sends callbacks packet sent i)
  network := v.network.erase packet + (if sent then packets group.members packet.receiver packet.call sends else 0)

section
variable (v : KeyView) (group : Group) (i : Nat) (call : Call) (effect : Effect) (pc : Pc) (packet : Packet) (sent : Bool)
  (held : Fields) (sends : List Send) (callbacks : List Callback)

@[simp] theorem started_held : (v.started i call).held = v.held := rfl
@[simp] theorem started_network : (v.started i call).network = v.network := rfl
@[simp] theorem started_self : (v.started i call).calls i = some call := Function.update_self ..
@[simp] theorem moved_held_self :
    (v.moved group i call effect pc).held call.server = access i (v.held call.server) effect := Function.update_self ..
@[simp] theorem moved_self : (v.moved group i call effect pc).calls i = some (call.goto pc) := Function.update_self ..
@[simp] theorem moved_network : (v.moved group i call effect pc).network =
    v.network + packets group.members call.server (some i) effect.sends := rfl
@[simp] theorem dropped_held : (v.dropped packet).held = v.held := rfl
@[simp] theorem dropped_calls : (v.dropped packet).calls = v.calls := rfl
@[simp] theorem dropped_network : (v.dropped packet).network = v.network.erase packet := rfl
@[simp] theorem handled_held_self : (v.handled group packet sent held sends callbacks).held packet.receiver = held :=
  Function.update_self ..
@[simp] theorem handled_calls (j : Nat) : (v.handled group packet sent held sends callbacks).calls j =
    (v.calls j).map (notify sends callbacks packet sent j) := rfl
@[simp] theorem handled_network : (v.handled group packet sent held sends callbacks).network = v.network.erase packet +
    (if sent then packets group.members packet.receiver packet.call sends else 0) := rfl

variable {v i call packet}
theorem started_ne {j : Nat} (different : j ≠ i) : (v.started i call).calls j = v.calls j :=
  Function.update_of_ne different ..
theorem moved_held_ne {server : SpreadGroup} (different : server ≠ call.server) :
    (v.moved group i call effect pc).held server = v.held server := Function.update_of_ne different ..
theorem moved_ne {j : Nat} (different : j ≠ i) : (v.moved group i call effect pc).calls j = v.calls j :=
  Function.update_of_ne different ..
theorem handled_held_ne {server : SpreadGroup} (different : server ≠ packet.receiver) :
    (v.handled group packet sent held sends callbacks).held server = v.held server := Function.update_of_ne different ..
end

/-- The actions that do not touch the key. -/
def KeyView.Elsewhere (key : String) (v : KeyView) : Action → Prop
  | .call _ _ request => request.key ≠ key
  | .thread i _ => v.calls i = none
  | .deliver packet _ => packet.body.key? ≠ some key
  | .view _ | .boot _ => False

inductive KeyStep (settings : Settings) (group : Group) (key : String) : KeyView → Action → KeyView → Prop
  | elsewhere {v : KeyView} {a : Action} (away : v.Elsewhere key a) : KeyStep settings group key v a v
  | call {v : KeyView} {i : Nat} {server : SpreadGroup} {request : Request} (fresh : v.calls i = none)
      (member : server ∈ group.servers) (about : request.key = key) :
      KeyStep settings group key v (.call i server request) (v.started i (.start (group.startingUp server) server request))
  | thread {v : KeyView} {i : Nat} {choice : Choice} {call : Call} {effect : Effect} {pc : Pc}
      (found : v.calls i = some call)
      (move : Move settings group.members.length (v.held call.server).row call choice effect pc) :
      KeyStep settings group key v (.thread i choice) (v.moved group i call effect pc)
  | service {v : KeyView} {packet : Packet} {sent : Bool} (flying : packet ∈ v.network)
      (ignoring : isService packet.receiver = true) :
      KeyStep settings group key v (.deliver packet sent) (v.dropped packet)
  | deliver {v : KeyView} {packet : Packet} {sent : Bool} {message : Message} {held : Fields} {sends : List Send}
      {callbacks : List Callback} (flying : packet ∈ v.network) (server : isService packet.receiver = false)
      (body : packet.body = .regular message)
      (handled : Handled settings group.members.length packet.receiver packet.sender (v.held packet.receiver) message held
        sends callbacks) :
      KeyStep settings group key v (.deliver packet sent) (v.handled group packet sent held sends callbacks)

/-- Any two valid copies have the same value. -/
def Coherent (group : Group) (v : KeyView) : Prop :=
  ∀ one ∈ group.servers, ∀ two ∈ group.servers, ∀ first second, (v.held one).row = some first → first.Valid →
    (v.held two).row = some second → second.Valid → first.data = second.data

theorem coherent_of_value {group : Group} {v : KeyView} (value : String)
    (all : ∀ server entity, (v.held server).row = some entity → entity.data = value) : Coherent group v := by
  intro one _ two _ first second rowOne _ rowTwo _
  rw [all one first rowOne,all two second rowTwo]

/-- What every state of a fixed group satisfies for each key. -/
structure Sound (group : Group) (key : String) (v : KeyView) : Prop where
  located : ∀ i call, v.calls i = some call → call.server ∈ group.servers
  about : ∀ i call, v.calls i = some call → call.request.key = key
  keyed : ∀ i call, v.calls i = some call → call.Keyed
  fits : ∀ i call, v.calls i = some call → call.pc.Fits call.request
  row : ∀ server entity, (v.held server).row = some entity → entity.key = key
  waiting : ∀ server i, (v.held server).waiting = some i →
    ∃ call, v.calls i = some call ∧ call.server = server ∧ call.request = .read key
  wanting : ∀ server wanted, (v.held server).slot = some wanted →
    ∃ call, v.calls wanted.callback = some call ∧ call.server = server ∧ ∃ data, call.request = .write ⟨key,data⟩
  flying : ∀ packet ∈ v.network, packet.receiver ∈ group.members ∧ packet.sender ∈ group.servers ∧
    (∃ message, packet.body = .regular message ∧ message.key? = some key) ∧
    ∃ i call, packet.call = some i ∧ v.calls i = some call

/-! ### What a delivery leaves of a call -/

section
variable (sends : List Send) (callbacks : List Callback) (packet : Packet) (sent : Bool) (i : Nat) (call : Call)

theorem invoke_same (callback : Callback) : (invoke i call callback).server = call.server ∧
    (invoke i call callback).request = call.request ∧ (invoke i call callback).pc = call.pc ∧
    (invoke i call callback).answer = call.answer ∧ (invoke i call callback).acknowledged = call.acknowledged := by
  cases callback <;> simp only [invoke] <;> split_ifs <;> exact ⟨rfl,rfl,rfl,rfl,rfl⟩

theorem invoked_same : (callbacks.foldl (invoke i) call).server = call.server ∧
    (callbacks.foldl (invoke i) call).request = call.request ∧ (callbacks.foldl (invoke i) call).pc = call.pc ∧
    (callbacks.foldl (invoke i) call).answer = call.answer ∧
    (callbacks.foldl (invoke i) call).acknowledged = call.acknowledged := by
  induction callbacks generalizing call with
  | nil => exact ⟨rfl,rfl,rfl,rfl,rfl⟩
  | cons callback rest ih =>
    obtain ⟨server,request,pc,answer,acknowledged⟩ := invoke_same i call callback
    rw [List.foldl_cons,← server,← request,← pc,← answer,← acknowledged]
    exact ih _

@[simp] theorem notify_server : (notify sends callbacks packet sent i call).server = call.server := by
  simp only [notify]; split_ifs <;> exact (invoked_same callbacks i call).1
@[simp] theorem notify_request : (notify sends callbacks packet sent i call).request = call.request := by
  simp only [notify]; split_ifs <;> exact (invoked_same callbacks i call).2.1
@[simp] theorem notify_pc : (notify sends callbacks packet sent i call).pc = call.pc := by
  simp only [notify]; split_ifs <;> exact (invoked_same callbacks i call).2.2.1
@[simp] theorem notify_answer : (notify sends callbacks packet sent i call).answer = call.answer := by
  simp only [notify]; split_ifs <;> exact (invoked_same callbacks i call).2.2.2.1

theorem notify_acknowledged : (notify sends callbacks packet sent i call).acknowledged =
    if packet.call = some i ∧ sent = true ∧ acknowledges sends = true then packet.receiver :: call.acknowledged
    else call.acknowledged := by
  simp only [notify]
  split_ifs <;> simp [(invoked_same callbacks i call).2.2.2.2]

/-- The references of a call after a delivery are those its callbacks leave. -/
theorem notify_references :
    (notify sends callbacks packet sent i call).responseReceived = (callbacks.foldl (invoke i) call).responseReceived ∧
    (notify sends callbacks packet sent i call).response = (callbacks.foldl (invoke i) call).response ∧
    (notify sends callbacks packet sent i call).conflict = (callbacks.foldl (invoke i) call).conflict := by
  simp only [notify]
  split_ifs <;> exact ⟨rfl,rfl,rfl⟩

/-- What a call has been told it stays told. -/
theorem notify_flag (flag : call.responseReceived = true) :
    (notify sends callbacks packet sent i call).responseReceived = true := by
  rw [(notify_references ..).1]
  induction callbacks generalizing call with
  | nil => exact flag
  | cons callback rest ih =>
    refine ih _ ?_
    cases callback <;> simp only [invoke] <;> split_ifs <;> first | rfl | exact flag
end

/-- A handler gives a call only data about the key of its message. -/
theorem Handled.response {settings : Settings} {participants : Int} {me sender : SpreadGroup} {held held' : Fields}
    {message : Message} {sends : List Send} {callbacks : List Callback} {packet : Packet} {sent : Bool} {i : Nat}
    {call : Call} {dataDto : DataDto}
    (handled : Handled settings participants me sender held message held' sends callbacks)
    (response : (notify sends callbacks packet sent i call).response = some dataDto) :
    call.response = some dataDto ∨ message = .askDataResponse dataDto ∧ held.waiting = some i := by
  rw [(notify_references _ _ _ _ _ _).2.1] at response
  cases handled with
  | @received sentDto reader waiting =>
    simp only [List.foldl_cons,List.foldl_nil,invoke] at response
    split_ifs at response with own
    · cases response
      exact .inr ⟨rfl,own ▸ waiting⟩
    · exact .inl response
  | refused _ _ | disturbed _ _ =>
    simp only [List.foldl_cons,List.foldl_nil,invoke] at response
    split_ifs at response <;> exact .inl response
  | counted _ =>
    split_ifs at response
    · simp only [List.foldl_cons,List.foldl_nil,invoke] at response
      split_ifs at response <;> exact .inl response
    · exact .inl response
  | _ => exact .inl response

/-- The calls that the receiver has no callback of and the message does not go
    back to are left as they are. -/
theorem Handled.notify_other {settings : Settings} {participants : Int} {me sender : SpreadGroup} {held held' : Fields}
    {message : Message} {sends : List Send} {callbacks : List Callback} {packet : Packet} {sent : Bool} {j : Nat}
    {call : Call} (handled : Handled settings participants me sender held message held' sends callbacks)
    (reader : held.waiting ≠ some j) (writer : ∀ wanted, held.slot = some wanted → wanted.callback ≠ j)
    (tag : packet.call ≠ some j) : notify sends callbacks packet sent j call = call := by
  have uncalled : callbacks.foldl (invoke j) call = call := by
    cases handled with
    | received waiting =>
      have different := fun same => reader (waiting.trans (congrArg some same))
      simp only [List.foldl_cons,List.foldl_nil,invoke]
      rw [if_neg different]
    | refused _ writing | disturbed _ writing => simp [invoke,writer _ writing]
    | counted writing => split_ifs <;> simp [invoke,writer _ writing]
    | _ => rfl
  simp only [notify]
  rw [if_neg (fun own => tag own.1),uncalled]

/-! ### Soundness is kept -/

section
variable {settings : Settings} {group : Group} {key : String}

theorem Sound.of_started {v : KeyView} (sound : Sound group key v) {i : Nat} {server : SpreadGroup} {request : Request}
    (startingUp : Bool) (fresh : v.calls i = none) (member : server ∈ group.servers) (about : request.key = key) :
    Sound group key (v.started i (.start startingUp server request)) := by
  have old : ∀ {j call}, v.calls j = some call → (v.started i (.start startingUp server request)).calls j = some call := by
    intro j call found
    have different : j ≠ i := by rintro rfl; rw [fresh] at found; cases found
    rw [started_ne different]
    exact found
  have all : ∀ {P : Call → Prop}, P (.start startingUp server request) → (∀ j call, v.calls j = some call → P call) →
      ∀ j call, (v.started i (.start startingUp server request)).calls j = some call → P call := by
    intro P start others j call found
    by_cases same : j = i
    · subst same
      rw [started_self] at found
      cases found
      exact start
    · rw [started_ne same] at found
      exact others j call found
  refine ⟨all (by simpa using member) sound.located,all (by simpa using about) sound.about,
    all (start_keyed ..) sound.keyed,all (by rw [start_request]; exact start_fits ..) sound.fits,sound.row,?_,?_,?_⟩
  · intro g j waiting
    obtain ⟨call,found,rest⟩ := sound.waiting g j waiting
    exact ⟨call,old found,rest⟩
  · intro g wanted wanting
    obtain ⟨call,found,rest⟩ := sound.wanting g wanted wanting
    exact ⟨call,old found,rest⟩
  · intro packet flying
    obtain ⟨receiver,sender,body,j,call,tag,found⟩ := sound.flying packet flying
    exact ⟨receiver,sender,body,j,call,tag,old found⟩

/-- What an access leaves registered was registered before, or is the call's own
    callback, and the row it leaves is about the key. -/
theorem access_row {held : Fields} {i : Nat} {effect : Effect} {entity : DataEntity}
    (about : effect = .skip ∨ effect.key? = some key) (row : (access i held effect).row = some entity)
    (own : ∀ entity, held.row = some entity → entity.key = key) : entity.key = key := by
  rcases about with rfl | about
  · exact own entity row
  cases effect with
  | save saved =>
    cases row
    exact Option.some.inj about
  | deleteById _ => cases row
  | _ => exact own entity row
theorem access_waiting {held : Fields} {i j : Nat} {effect : Effect} (waiting : (access i held effect).waiting = some j) :
    held.waiting = some j ∨ j = i ∧ ∃ key, effect = .putWaiting key := by
  cases effect with
  | putWaiting key =>
    cases waiting
    exact .inr ⟨rfl,key,rfl⟩
  | removeWaiting _ => cases waiting
  | _ => exact .inl waiting
theorem access_slot {held : Fields} {i : Nat} {wanted : WantToWriteData} {effect : Effect}
    (writing : (access i held effect).slot = some wanted) :
    held.slot = some wanted ∨ wanted = ⟨0,i⟩ ∧ ∃ key, effect = .putWantToWrite key := by
  cases effect with
  | putWantToWrite key =>
    cases writing
    exact .inr ⟨rfl,key,rfl⟩
  | removeWantToWrite _ => cases writing
  | _ => exact .inl writing

/-- A step of a call sends to the whole group, about its key. -/
theorem sends_about {members : List SpreadGroup} {sender : SpreadGroup} {call : Option Nat} {effect : Effect}
    (about : effect = .skip ∨ effect.key? = some key) :
    ∀ packet ∈ packets members sender call effect.sends, packet.sender = sender ∧ packet.call = call ∧
      packet.receiver ∈ members ∧ ∃ message, packet.body = .regular message ∧ message.key? = some key := by
  intro packet member
  cases effect with
  | multicast message =>
    simp only [Effect.sends,packets_multicast] at member
    obtain ⟨receiver,inside,rfl⟩ := List.mem_map.mp (Multiset.mem_coe.mp member)
    rcases about with about | about
    · cases about
    · exact ⟨rfl,rfl,inside,message,rfl,about⟩
  | _ => simp [Effect.sends] at member

theorem Sound.of_moved {v : KeyView} (sound : Sound group key v) {i : Nat} {choice : Choice} {call : Call}
    {effect : Effect} {pc : Pc} (found : v.calls i = some call)
    (move : Move settings group.members.length (v.held call.server).row call choice effect pc) :
    Sound group key (v.moved group i call effect pc) := by
  have keyIs := sound.about i call found
  have about := move.key (sound.keyed i call found)
  rw [keyIs] at about
  have old : ∀ {j other}, v.calls j = some other → ∃ other', (v.moved group i call effect pc).calls j = some other' ∧
      other'.server = other.server ∧ other'.request = other.request := by
    intro j other was
    by_cases same : j = i
    · subst same
      rw [found] at was
      cases was
      exact ⟨_,moved_self ..,rfl,rfl⟩
    · exact ⟨other,by rw [moved_ne _ _ _ same]; exact was,rfl,rfl⟩
  have all : ∀ {P : Call → Prop}, P (call.goto pc) → (∀ j other, v.calls j = some other → P other) →
      ∀ j other, (v.moved group i call effect pc).calls j = some other → P other := by
    intro P moved others j other was
    by_cases same : j = i
    · subst same
      rw [moved_self] at was
      cases was
      exact moved
    · rw [moved_ne _ _ _ same] at was
      exact others j other was
  refine ⟨all (sound.located i call found) sound.located,all keyIs sound.about,
    all (move.keyed (sound.keyed i call found) (fun entity row => keyIs ▸ sound.row _ entity row)) sound.keyed,
    all (move.fits (sound.fits i call found)) sound.fits,?_,?_,?_,?_⟩
  · intro g entity row
    by_cases same : g = call.server
    · subst same
      rw [moved_held_self] at row
      exact access_row about row (sound.row call.server)
    · rw [moved_held_ne _ _ _ same] at row
      exact sound.row g entity row
  · intro g j waiting
    have before : (v.held g).waiting = some j ∨ j = i ∧ g = call.server ∧ ∃ key, effect = .putWaiting key := by
      by_cases same : g = call.server
      · subst same
        rw [moved_held_self] at waiting
        exact (access_waiting waiting).imp_right fun own => ⟨own.1,rfl,own.2⟩
      · rw [moved_held_ne _ _ _ same] at waiting
        exact .inl waiting
    rcases before with before | ⟨rfl,rfl,put,rfl⟩
    · obtain ⟨other,was,server,request⟩ := sound.waiting g j before
      obtain ⟨other',now,sameServer,sameRequest⟩ := old was
      exact ⟨other',now,sameServer.trans server,sameRequest.trans request⟩
    · have read := move.putWaiting_read
      rw [read] at keyIs
      cases keyIs
      exact ⟨_,moved_self ..,rfl,read⟩
  · intro g wanted writing
    have before : (v.held g).slot = some wanted ∨ wanted = ⟨0,i⟩ ∧ g = call.server ∧ ∃ key, effect = .putWantToWrite key := by
      by_cases same : g = call.server
      · subst same
        rw [moved_held_self] at writing
        exact (access_slot writing).imp_right fun own => ⟨own.1,rfl,own.2⟩
      · rw [moved_held_ne _ _ _ same] at writing
        exact .inl writing
    rcases before with before | ⟨rfl,rfl,put,rfl⟩
    · obtain ⟨other,was,server,data,request⟩ := sound.wanting g wanted before
      obtain ⟨other',now,sameServer,sameRequest⟩ := old was
      exact ⟨other',now,sameServer.trans server,data,sameRequest.trans request⟩
    · obtain ⟨data,write⟩ := move.putWantToWrite_write
      rw [write] at keyIs
      cases keyIs
      exact ⟨_,moved_self ..,rfl,data,write⟩
  · intro packet flying
    rcases Multiset.mem_add.mp flying with flying | flying
    · obtain ⟨receiver,sender,body,j,other,tag,was⟩ := sound.flying packet flying
      obtain ⟨other',now,_⟩ := old was
      exact ⟨receiver,sender,body,j,other',tag,now⟩
    · obtain ⟨sender,tag,receiver,body⟩ := sends_about about packet flying
      exact ⟨receiver,sender ▸ sound.located i call found,body,i,_,tag,moved_self ..⟩

theorem Sound.of_dropped {v : KeyView} (sound : Sound group key v) (packet : Packet) :
    Sound group key (v.dropped packet) :=
  ⟨sound.located,sound.about,sound.keyed,sound.fits,sound.row,sound.waiting,sound.wanting,
    fun other flying => sound.flying other (Multiset.mem_of_mem_erase flying)⟩

/-- What a handler leaves in the fields: an own row, and callbacks that were
    registered before. -/
theorem Handled.fields_kept {participants : Int} {me sender : SpreadGroup} {held held' : Fields} {message : Message}
    {sends : List Send} {callbacks : List Callback}
    (handled : Handled settings participants me sender held message held' sends callbacks) :
    (∀ entity, held'.row = some entity → ∃ before, held.row = some before ∧ entity.key = before.key) ∧
    (∀ i, held'.waiting = some i → held.waiting = some i) ∧
    (∀ wanted, held'.slot = some wanted → ∃ before, held.slot = some before ∧ wanted.callback = before.callback) := by
  cases handled with
  | received _ => exact ⟨fun entity row => ⟨entity,row,rfl⟩,fun _ waiting => (by cases waiting),fun wanted slot => ⟨wanted,slot,rfl⟩⟩
  | granted _ _ =>
    refine ⟨?_,fun _ waiting => waiting,fun wanted slot => ⟨wanted,slot,rfl⟩⟩
    intro entity row
    obtain ⟨before,stored,rfl⟩ := Option.map_eq_some_iff.mp row
    exact ⟨before,stored,rfl⟩
  | counted writing =>
    refine ⟨fun entity row => ⟨entity,row,rfl⟩,fun _ waiting => waiting,?_⟩
    intro wanted slot
    cases slot
    exact ⟨_,writing,rfl⟩
  | deleted _ _ _ => exact ⟨fun _ row => (by cases row),fun _ waiting => waiting,fun wanted slot => ⟨wanted,slot,rfl⟩⟩
  | revalidated _ stored =>
    refine ⟨?_,fun _ waiting => waiting,fun wanted slot => ⟨wanted,slot,rfl⟩⟩
    intro entity row
    cases row
    exact ⟨_,stored,rfl⟩
  | _ => exact ⟨fun entity row => ⟨entity,row,rfl⟩,fun _ waiting => waiting,fun wanted slot => ⟨wanted,slot,rfl⟩⟩

theorem Sound.of_handled {v : KeyView} (sound : Sound group key v) {packet : Packet} {sent : Bool} {message : Message}
    {held : Fields} {sends : List Send} {callbacks : List Callback} (flying : packet ∈ v.network)
    (server : isService packet.receiver = false) (body : packet.body = .regular message)
    (handled : Handled settings group.members.length packet.receiver packet.sender (v.held packet.receiver) message held
      sends callbacks) : Sound group key (v.handled group packet sent held sends callbacks) := by
  obtain ⟨receiverIn,senderIn,⟨message',body',about⟩,origin,originCall,tag,originFound⟩ := sound.flying packet flying
  rw [body] at body'
  cases body'
  obtain ⟨rowKept,waitingKept,slotKept⟩ := handled.fields_kept
  have old : ∀ {j other}, v.calls j = some other →
      ∃ other', (v.handled group packet sent held sends callbacks).calls j = some other' ∧
        other'.server = other.server ∧ other'.request = other.request := by
    intro j other was
    exact ⟨_,by rw [handled_calls,was]; rfl,by simp,by simp⟩
  have back : ∀ {j other}, (v.handled group packet sent held sends callbacks).calls j = some other →
      ∃ before, v.calls j = some before ∧ other = notify sends callbacks packet sent j before := by
    intro j other now
    obtain ⟨before,was,rfl⟩ := Option.map_eq_some_iff.mp now
    exact ⟨before,was,rfl⟩
  refine ⟨?_,?_,?_,?_,?_,?_,?_,?_⟩
  · intro j other now
    obtain ⟨before,was,rfl⟩ := back now
    simpa using sound.located j before was
  · intro j other now
    obtain ⟨before,was,rfl⟩ := back now
    simpa using sound.about j before was
  · intro j other now
    obtain ⟨before,was,rfl⟩ := back now
    refine ⟨fun entity here => ?_,fun dataDto response => ?_⟩
    · simpa using (sound.keyed j before was).saving entity (by simpa using here)
    · rw [notify_request]
      rcases handled.response response with response | ⟨rfl,_⟩
      · exact (sound.keyed j before was).response dataDto response
      · rw [sound.about j before was]
        exact Option.some.inj about
  · intro j other now
    obtain ⟨before,was,rfl⟩ := back now
    simpa using sound.fits j before was
  · intro g entity row
    by_cases same : g = packet.receiver
    · subst same
      rw [handled_held_self] at row
      obtain ⟨before,stored,sameKey⟩ := rowKept entity row
      rw [sameKey]
      exact sound.row _ before stored
    · rw [handled_held_ne _ _ _ _ _ same] at row
      exact sound.row g entity row
  · intro g j waiting
    have before : (v.held g).waiting = some j := by
      by_cases same : g = packet.receiver
      · subst same
        rw [handled_held_self] at waiting
        exact waitingKept j waiting
      · rwa [handled_held_ne _ _ _ _ _ same] at waiting
    obtain ⟨other,was,sameServer,request⟩ := sound.waiting g j before
    obtain ⟨other',now,nowServer,nowRequest⟩ := old was
    exact ⟨other',now,nowServer.trans sameServer,nowRequest.trans request⟩
  · intro g wanted writing
    have before : ∃ before, (v.held g).slot = some before ∧ wanted.callback = before.callback := by
      by_cases same : g = packet.receiver
      · subst same
        rw [handled_held_self] at writing
        exact slotKept wanted writing
      · rw [handled_held_ne _ _ _ _ _ same] at writing
        exact ⟨wanted,writing,rfl⟩
    obtain ⟨before,slot,sameCallback⟩ := before
    obtain ⟨other,was,sameServer,data,request⟩ := sound.wanting g before slot
    obtain ⟨other',now,nowServer,nowRequest⟩ := old was
    rw [sameCallback]
    exact ⟨other',now,nowServer.trans sameServer,data,nowRequest.trans request⟩
  · intro other flying'
    rcases Multiset.mem_add.mp flying' with flying' | flying'
    · obtain ⟨receiver,sender,otherBody,j,call,otherTag,was⟩ := sound.flying other (Multiset.mem_of_mem_erase flying')
      obtain ⟨call',now,_⟩ := old was
      exact ⟨receiver,sender,otherBody,j,call',otherTag,now⟩
    · split_ifs at flying'
      · obtain ⟨sender,otherTag,receiver,otherBody⟩ := handled.packets_about about (sound.row _) other flying'
        obtain ⟨call',now,_⟩ := old originFound
        refine ⟨?_,?_,otherBody,origin,call',otherTag.trans tag,now⟩
        · rcases receiver with receiver | receiver
          · exact receiver
          · rw [receiver]
            exact (Group.mem_servers.mp senderIn).1
        · rw [sender]
          exact Group.mem_servers.mpr ⟨receiverIn,server⟩
      · simp at flying'

/-- A step of the system of one key keeps it sound. -/
theorem Sound.step {v v' : KeyView} {a : Action} (sound : Sound group key v) (step : KeyStep settings group key v a v') :
    Sound group key v' := by
  cases step with
  | elsewhere _ => exact sound
  | call fresh member about => exact sound.of_started _ fresh member about
  | thread found move => exact sound.of_moved found move
  | service _ _ => exact sound.of_dropped _
  | deliver flying server body handled => exact sound.of_handled flying server body handled
end

/-! ### The cluster, seen from one key -/

/-- In a fixed group clients call the servers of the group and nobody joins,
    leaves or starts. -/
def Group.Permits (group : Group) : Action → Prop
  | .call _ server _ => server ∈ group.servers
  | .thread _ _ | .deliver _ _ => True
  | .view _ | .boot _ => False

instance (group : Group) : DecidablePred group.Permits := fun a => by
  cases a <;> simp only [Group.Permits] <;> infer_instance

/-- What holds in every state of a fixed group after startup. -/
structure Fixed (group : Group) (s : State) : Prop where
  members : s.members = group.members
  participants : ∀ server ∈ group.servers, (s.servers server).numberOfParticipants = group.members.length
  startingUp : ∀ server ∈ group.servers, (s.servers server).waitStartupDataUpdate = group.startingUp server
  plain : ∀ packet ∈ s.network, ∃ key, packet.body.key? = some key
  sound : ∀ key, Sound group key (view key s)

/-- A quiet start: no calls, no callbacks, nothing in flight. -/
structure Quiet (group : Group) (s : State) : Prop where
  members : s.members = group.members
  participants : ∀ server ∈ group.servers, (s.servers server).numberOfParticipants = group.members.length
  startingUp : ∀ server ∈ group.servers, (s.servers server).waitStartupDataUpdate = group.startingUp server
  noCalls : ∀ i, s.calls i = none
  noMessages : s.network = 0
  noReaders : ∀ server key, (s.servers server).waitingData key = none
  noWriters : ∀ server key, (s.servers server).wantToWriteData key = none

theorem Quiet.fixed {group : Group} {s : State} (quiet : Quiet group s) : Fixed group s := by
  refine ⟨quiet.members,quiet.participants,quiet.startingUp,by simp [quiet.noMessages],fun key => ?_⟩
  refine ⟨?_,?_,?_,?_,?_,?_,?_,?_⟩
  · intro i call found; simp [view,quiet.noCalls] at found
  · intro i call found; simp [view,quiet.noCalls] at found
  · intro i call found; simp [view,quiet.noCalls] at found
  · intro i call found; simp [view,quiet.noCalls] at found
  · intro server entity row; exact Database.findById_key row
  · intro server i waiting; simp [view,fields,quiet.noReaders] at waiting
  · intro server wanted writing; simp [view,fields,quiet.noWriters] at writing
  · intro packet flying; simp [view,quiet.noMessages] at flying

section
variable {settings : Settings} {group : Group} {s t : State} {key : String}

/-- New messages about one key, seen from another or from the same. -/
theorem filter_about {network : Multiset Packet} {other : String} (all : ∀ packet ∈ network, packet.About other) :
    network.filter (Packet.About key) = if other = key then network else 0 := by
  split_ifs with same
  · exact Multiset.filter_eq_self.mpr fun packet member => same ▸ all packet member
  · refine Multiset.filter_eq_nil.mpr fun packet member about => same ?_
    exact Option.some.inj ((all packet member).symm.trans about)

theorem view_calls {i : Nat} {call : Call} :
    (view key s).calls i = some call ↔ s.calls i = some call ∧ call.request.key = key := by
  simp [view,Option.filter_eq_some_iff]

/-- Two views that agree on everything are equal. -/
theorem KeyView.eq_of {v w : KeyView} (held : ∀ server, v.held server = w.held server)
    (calls : ∀ i, v.calls i = w.calls i) (network : v.network = w.network) : v = w := by
  obtain ⟨heldV,callsV,networkV⟩ := v
  obtain ⟨heldW,callsW,networkW⟩ := w
  obtain rfl : heldV = heldW := funext held
  obtain rfl : callsV = callsW := funext calls
  obtain rfl : networkV = networkW := network
  rfl

theorem view_step_call {i : Nat} {server : SpreadGroup} {request : Request} (fixed : Fixed group s)
    (member : server ∈ group.servers) (move : step settings (.call i server request) s = some t) :
    KeyStep settings group key (view key s) (.call i server request) (view key t) := by
  obtain ⟨fresh,_,rfl⟩ := step_started move
  by_cases about : request.key = key
  · have viewFresh : (view key s).calls i = none := by simp [view,fresh]
    convert KeyStep.call viewFresh member about using 1
    refine KeyView.eq_of (fun _ => rfl) (fun j => ?_) rfl
    by_cases same : j = i
    · subst same; simp [view,about,fixed.startingUp server member]
    · simp [view,same,started_ne same]
  · have away : (view key s).Elsewhere key (.call i server request) := about
    convert KeyStep.elsewhere away using 1
    refine KeyView.eq_of (fun _ => rfl) (fun j => ?_) rfl
    by_cases same : j = i
    · subst same; simp [view,about,fresh]
    · simp [view,same]

theorem view_step_thread {i : Nat} {choice : Choice} (fixed : Fixed group s)
    (move : step settings (.thread i choice) s = some t) :
    KeyStep settings group key (view key s) (.thread i choice) (view key t) := by
  obtain ⟨call,effect,pc,found,nexts,rfl⟩ := step_moved move
  have own := view_calls.mpr ⟨found,rfl⟩
  have sound := fixed.sound call.request.key
  have moves := next_move nexts
  rw [fixed.participants _ (sound.located i call own)] at moves
  have about := moves.key (sound.keyed i call own)
  have sendsAbout : ∀ packet ∈ packets s.members call.server (some i) effect.sends,
      packet.About call.request.key := by
    intro packet member
    obtain ⟨_,_,_,message,body,aboutMessage⟩ := sends_about about packet member
    simp [Packet.About,body,Body.key?,aboutMessage]
  by_cases same : call.request.key = key
  · subst same
    convert KeyStep.thread own moves using 1
    refine KeyView.eq_of (fun server => ?_) (fun j => ?_) ?_
    · by_cases here : server = call.server
      · subst here; simp [view,fields_apply _ _ about]
      · simp [view,here,moved_held_ne _ _ _ here]
    · by_cases here : j = i
      · subst here; simp [view]
      · simp [view,here,moved_ne _ _ _ here]
    · rw [moved_network]
      simp only [view,Multiset.filter_add]
      rw [filter_about sendsAbout,if_pos rfl,fixed.members]
  · have away : (view key s).Elsewhere key (.thread i choice) := by
      simp [KeyView.Elsewhere,view,found,same]
    convert KeyStep.elsewhere away using 1
    refine KeyView.eq_of (fun server => ?_) (fun j => ?_) ?_
    · by_cases here : server = call.server
      · subst here; simp [view,fields_apply_elsewhere _ _ about (Ne.symm same)]
      · simp [view,here]
    · by_cases here : j = i
      · subst here; simp [view,found,same,Option.filter]
      · simp [view,here]
    · simp only [view,Multiset.filter_add]
      rw [filter_about sendsAbout,if_neg same,add_zero]

theorem view_step_service {packet : Packet} {sent : Bool} (service : isService packet.receiver = true)
    (move : step settings (.deliver packet sent) s = some t) :
    KeyStep settings group key (view key s) (.deliver packet sent) (view key t) := by
  obtain ⟨flying,rfl⟩ := step_service service move
  by_cases about : packet.About key
  · have inView : packet ∈ (view key s).network := Multiset.mem_filter.mpr ⟨flying,about⟩
    convert KeyStep.service inView service using 1
    refine KeyView.eq_of (fun _ => rfl) (fun _ => rfl) ?_
    rw [dropped_network]
    simp only [view]
    rw [filter_erase flying,if_pos about]
  · have away : (view key s).Elsewhere key (.deliver packet sent) := about
    convert KeyStep.elsewhere away using 1
    refine KeyView.eq_of (fun _ => rfl) (fun _ => rfl) ?_
    simp only [view]
    rw [filter_erase flying,if_neg about]

/-- A message tells a call on another key nothing. -/
theorem Fixed.notify_elsewhere (fixed : Fixed group s) {packet : Packet} (sent : Bool) {other : String} {participants : Int}
    {message : Message} {held' : Fields} {sends : List Send} {callbacks : List Callback}
    (inView : packet ∈ (view other s).network)
    (handled : Handled settings participants packet.receiver packet.sender (fields (s.servers packet.receiver) other) message held'
      sends callbacks)
    {j : Nat} {call : Call} (found : s.calls j = some call) (different : call.request.key ≠ other) :
    notify sends callbacks packet sent j call = call := by
  have notHere : ∀ {i call'}, (view other s).calls i = some call' → i ≠ j := by
    rintro i call' here rfl
    obtain ⟨found',about⟩ := view_calls.mp here
    cases found.symm.trans found'
    exact different about
  obtain ⟨_,_,_,origin,originCall,tag,originFound⟩ := (fixed.sound other).flying packet inView
  have reader : (fields (s.servers packet.receiver) other).waiting ≠ some j := by
    intro waiting
    obtain ⟨_,found',_⟩ := (fixed.sound other).waiting _ _ waiting
    exact notHere found' rfl
  have writer : ∀ wanted, (fields (s.servers packet.receiver) other).slot = some wanted → wanted.callback ≠ j := by
    intro wanted writing
    obtain ⟨_,found',_⟩ := (fixed.sound other).wanting _ _ writing
    exact notHere found'
  have foreign : packet.call ≠ some j := by
    rw [tag]
    intro own
    exact notHere originFound (Option.some.inj own)
  exact handled.notify_other reader writer foreign

theorem view_step_handled {packet : Packet} {sent : Bool} (fixed : Fixed group s) (server : isService packet.receiver = false)
    (move : step settings (.deliver packet sent) s = some t) :
    KeyStep settings group key (view key s) (.deliver packet sent) (view key t) := by
  obtain ⟨flying,outcome,handles,rfl⟩ := step_handled server move
  obtain ⟨other,otherAbout⟩ := fixed.plain packet flying
  have otherAbout : packet.About other := otherAbout
  have inView : packet ∈ (view other s).network := Multiset.mem_filter.mpr ⟨flying,otherAbout⟩
  obtain ⟨receiverIn,_,⟨message,body,about⟩,_⟩ := (fixed.sound other).flying packet inView
  rw [body] at handles
  subst handles
  have handled := messageReceived_handled settings (s.servers packet.receiver) packet.receiver packet.sender about
  rw [fixed.participants _ (Group.mem_servers.mpr ⟨receiverIn,server⟩)] at handled
  have newAbout : ∀ new ∈ packets s.members packet.receiver packet.call
      (messageReceived settings (s.servers packet.receiver) packet.receiver packet.sender (.regular message)).sends,
      new.About other := by
    intro new member
    have own := (fixed.sound other).row packet.receiver
    obtain ⟨_,_,_,newMessage,newBody,newKey⟩ := handled.packets_about about own new member
    simp [Packet.About,newBody,Body.key?,newKey]
  by_cases same : other = key
  · subst same
    convert KeyStep.deliver inView server body handled using 1
    refine KeyView.eq_of (fun g => ?_) (fun j => ?_) ?_
    · by_cases here : g = packet.receiver
      · subst here; simp [view]
      · rw [handled_held_ne _ _ _ _ _ here]; simp [view,here]
    · cases found : s.calls j with
      | none => simp [view,found]
      | some call => by_cases on : call.request.key = other <;> simp [view,found,on,Option.filter]
    · rw [handled_network]
      simp only [view,Multiset.filter_add]
      rw [filter_erase flying,if_pos otherAbout]
      split_ifs
      · rw [filter_about newAbout,if_pos rfl,fixed.members]
      · rfl
  · have notAbout : ¬ packet.About key := fun here => same (Option.some.inj (otherAbout.symm.trans here))
    have away : (view key s).Elsewhere key (.deliver packet sent) := notAbout
    convert KeyStep.elsewhere away using 1
    refine KeyView.eq_of (fun g => ?_) (fun j => ?_) ?_
    · by_cases here : g = packet.receiver
      · subst here
        simp [view,messageReceived_elsewhere settings _ _ _ about (Ne.symm same)]
      · simp [view,here]
    · cases found : s.calls j with
      | none => simp [view,found]
      | some call =>
        by_cases on : call.request.key = key
        · have kept := fixed.notify_elsewhere sent inView handled found (on.trans_ne (Ne.symm same))
          simp [view,found,kept]
        · simp [view,found,on,Option.filter]
    · simp only [view,Multiset.filter_add]
      rw [filter_erase flying,if_neg notAbout]
      split_ifs
      · rw [filter_about newAbout,if_neg same,add_zero]
      · simp

/-- Seen from one key, a step of a fixed group is a step of the key's system. -/
theorem view_step {a : Action} (fixed : Fixed group s) (permitted : group.Permits a) (move : step settings a s = some t) :
    KeyStep settings group key (view key s) a (view key t) := by
  cases a with
  | call i server request => exact view_step_call fixed permitted move
  | thread i choice => exact view_step_thread fixed move
  | deliver packet sent =>
    cases service : isService packet.receiver with
    | true => exact view_step_service service move
    | false => exact view_step_handled fixed service move
  | view _ | boot _ => cases permitted

theorem Fixed.step {a : Action} (fixed : Fixed group s) (permitted : group.Permits a)
    (move : Cluster.step settings a s = some t) : Fixed group t := by
  have sound : ∀ key, Sound group key (view key t) :=
    fun key => (fixed.sound key).step (view_step fixed permitted move)
  cases a with
  | view _ | boot _ => cases permitted
  | call i server request =>
    obtain ⟨_,_,rfl⟩ := step_started move
    exact ⟨fixed.members,fixed.participants,fixed.startingUp,fixed.plain,sound⟩
  | thread i choice =>
    obtain ⟨call,effect,pc,found,nexts,rfl⟩ := step_moved move
    have own := view_calls.mpr ⟨found,rfl⟩
    have about := (next_move nexts).key ((fixed.sound call.request.key).keyed i call own)
    refine ⟨fixed.members,fun server member => ?_,fun server member => ?_,fun packet flying => ?_,sound⟩
    · by_cases here : server = call.server
      · subst here; simpa [apply_participants] using fixed.participants _ member
      · simpa [here] using fixed.participants _ member
    · by_cases here : server = call.server
      · subst here; simpa [apply_participants] using fixed.startingUp _ member
      · simpa [here] using fixed.startingUp _ member
    · rcases Multiset.mem_add.mp flying with flying | flying
      · exact fixed.plain packet flying
      · obtain ⟨_,_,_,message,body,aboutMessage⟩ := sends_about about packet flying
        exact ⟨_,by rw [body]; exact aboutMessage⟩
  | deliver packet sent =>
    have before : ∀ {other}, other ∈ s.network.erase packet → ∃ key, other.body.key? = some key :=
      fun inside => fixed.plain _ (Multiset.mem_of_mem_erase inside)
    cases service : isService packet.receiver with
    | true =>
      obtain ⟨_,rfl⟩ := step_service service move
      exact ⟨fixed.members,fixed.participants,fixed.startingUp,fun other inside => before inside,sound⟩
    | false =>
      obtain ⟨flying,outcome,handles,rfl⟩ := step_handled service move
      obtain ⟨key,about⟩ := fixed.plain packet flying
      obtain ⟨_,_,⟨message,body,messageAbout⟩,_⟩ :=
        (fixed.sound key).flying packet (Multiset.mem_filter.mpr ⟨flying,about⟩)
      rw [body] at handles
      subst handles
      have handled := messageReceived_handled settings (s.servers packet.receiver) packet.receiver packet.sender messageAbout
      have kept := messageReceived_participants settings (s.servers packet.receiver) packet.receiver packet.sender messageAbout
      refine ⟨fixed.members,fun server member => ?_,fun server member => ?_,fun other inside => ?_,sound⟩
      · by_cases here : server = packet.receiver
        · subst here; simpa [kept.1] using fixed.participants _ member
        · simpa [here] using fixed.participants _ member
      · by_cases here : server = packet.receiver
        · subst here; simpa [kept.2] using fixed.startingUp _ member
        · simpa [here] using fixed.startingUp _ member
      · rcases Multiset.mem_add.mp inside with inside | inside
        · exact before inside
        · split_ifs at inside
          · obtain ⟨_,_,_,newMessage,newBody,newKey⟩ :=
              handled.packets_about messageAbout ((fixed.sound key).row packet.receiver) other inside
            exact ⟨key,by rw [newBody]; exact newKey⟩
          · simp at inside

/-- The steps of a fixed group that are allowed for `key`. -/
def Group.Steps (settings : Settings) (group : Group) (key : String) (allowed : KeyView → Action → Prop) :
    State → Action → State → Prop :=
  Restrict (fun s a => group.Permits a ∧ allowed (view key s) a) (Runs.Steps (step settings))

/-- The steps of the key's system from sound states that are allowed. -/
def KeySteps (settings : Settings) (group : Group) (key : String) (allowed : KeyView → Action → Prop)
    (v : KeyView) (a : Action) (v' : KeyView) : Prop :=
  Sound group key v ∧ allowed v a ∧ KeyStep settings group key v a v'

/-- A run of a fixed group is, for each key, a run of the key's system. -/
theorem view_run {allowed : KeyView → Action → Prop} {acts : List Action} (fixed : Fixed group s)
    (run : Run (group.Steps settings key allowed) s acts t) :
    Run (KeySteps settings group key allowed) (view key s) acts (view key t) ∧ Fixed group t :=
  run.simulate (view key) fixed (fun _ _ _ fixed move => fixed.step move.1.1 move.2)
    fun _ _ _ fixed move => ⟨fixed.sound key,move.1.2,view_step fixed move.1.1 move.2⟩

/-- Any step at all. -/
def Anything : KeyView → Action → Prop := fun _ _ => True

instance (v : KeyView) : DecidablePred (Anything v) := fun _ => instDecidableTrue

end

/-- No call has a number from `bound` on. -/
def Below (bound : Nat) (calls : Nat → Option Call) : Prop := ∀ i, bound ≤ i → calls i = none

/-- A new call has a number below `bound`. -/
def Numbered (bound : Nat) : Action → Prop
  | .call i _ _ => i < bound
  | _ => True

instance (bound : Nat) : DecidablePred (Numbered bound) := fun a => by
  cases a <;> simp only [Numbered] <;> infer_instance

theorem below_step {settings : Settings} {bound : Nat} {s t : State} {a : Action} (below : Below bound s.calls)
    (numbered : Numbered bound a) (move : step settings a s = some t) : Below bound t.calls := by
  intro i large
  have none := below i large
  cases a with
  | call j server request =>
    obtain ⟨_,_,rfl⟩ := step_started move
    have different : i ≠ j := (lt_of_lt_of_le numbered large).ne'
    simpa [different] using none
  | thread j choice =>
    obtain ⟨call,_,_,found,_,rfl⟩ := step_moved move
    have different : i ≠ j := by
      rintro rfl
      rw [none] at found
      cases found
    simpa [different] using none
  | deliver packet sent =>
    simp only [step] at move
    split_ifs at move <;> cases move <;> simp [none]
  | view info =>
    cases move
    exact none
  | boot server =>
    cases move
    simp [none]

/-- A run that was executed, each action checked where it is taken, and its end.
    The check may look at the calls below `bound` alone. -/
theorem run_of_checked (settings : Settings) (group : Group) (key : String) (bound : Nat)
    (allowed checked : KeyView → Action → Prop) [∀ v, DecidablePred (checked v)]
    (enough : ∀ v a, Below bound v.calls → checked v a → allowed v a) (s : State) (none : Below bound s.calls)
    (acts : List Action) (P : State → Prop) [DecidablePred P]
    (done : (exec (step settings) (fun s a => decide (group.Permits a ∧ Numbered bound a ∧ checked (view key s) a)) s
      acts).any (fun t => decide (P t)) = true) :
    ∃ t, Run (group.Steps settings key allowed) s acts t ∧ P t := by
  obtain ⟨t,executed,reached⟩ := (Option.any_eq_true ..).mp done
  have run := run_of_exec acts s t executed
  have keep : ∀ {s a t}, Restrict (fun s a => decide (group.Permits a ∧ Numbered bound a ∧ checked (view key s) a) = true)
      (Runs.Steps (step settings)) s a t → Below bound s.calls → Below bound t.calls :=
    fun move below => below_step below (of_decide_eq_true move.1).2.1 move.2
  have simulated : Run (group.Steps settings key allowed) (id s) acts (id t) ∧ Below bound t.calls := by
    refine run.simulate id none (fun _ _ _ below move => keep move below) fun s a t below move => ?_
    obtain ⟨permitted,_,passed⟩ := of_decide_eq_true move.1
    refine ⟨⟨permitted,enough _ a (fun i large => ?_) passed⟩,move.2⟩
    simp [view,below i large]
  exact ⟨t,simulated.1,of_decide_eq_true reached⟩

/-! ### Small groups -/

/-- The group with the given databases and nothing going on. -/
def Group.initial (group : Group) (databases : SpreadGroup → Database) : State where
  members := group.members
  servers server := ⟨databases server,fun _ => none,fun _ => none,group.members.length,group.startingUp server⟩
  calls _ := none
  network := 0

theorem initial_quiet (group : Group) (databases : SpreadGroup → Database) : Quiet group (group.initial databases) :=
  ⟨rfl,fun _ _ => rfl,fun _ _ => rfl,fun _ => rfl,rfl,fun _ _ => rfl,fun _ _ => rfl⟩

/-- Call `i` goes on for some steps. -/
def goOn (i steps : Nat) : List Action := List.replicate steps (.thread i .go)

def service : SpreadGroup := ⟨"#Service#host"⟩
def server1 : SpreadGroup := ⟨"#Server1#host"⟩
def server2 : SpreadGroup := ⟨"#Server2#host"⟩
def server3 : SpreadGroup := ⟨"#Server3#host"⟩

def pair : Group := ⟨[service,server1,server2],by decide,service,by decide,by decide,fun _ => false⟩
def trio : Group := ⟨[service,server1,server2,server3],by decide,service,by decide,by decide,fun _ => false⟩

end CdPraticas.Keys
