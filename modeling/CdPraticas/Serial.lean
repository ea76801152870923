import CdPraticas.Rounds

/-!
# Serialised writes

Writes of one key that never overlap, with DATA_WRITTEN messages of earlier
writes arriving at any time. The last writer keeps the only valid copy.
-/

namespace CdPraticas.Serial
open Groups Store Messages Handlers Calls Cluster Keys Runs Rounds

/-- The value of a write of `key` and the server it is sent to. -/
def writeOf (key : String) : Action → Option (SpreadGroup × String)
  | .call _ server (.write dataDto) => if dataDto.key = key then some (server,dataDto.data) else none
  | _ => none

def lastWrite (key : String) : List Action → Option (SpreadGroup × String) := lastOf (writeOf key)

/-- A write of `key` that has returned, by the calls there are now. -/
def finishedWriteOf (key : String) (calls : Nat → Option Call) (a : Action) : Option (SpreadGroup × String) :=
  match a with
  | .call i _ _ => if (calls i).any (fun call => call.pc.Done) then writeOf key a else none
  | _ => none

/-- The last of the writes of `key` that have returned. -/
def lastFinished (key : String) (calls : Nat → Option Call) : List Action → Option (SpreadGroup × String) :=
  lastOf (finishedWriteOf key calls)

/-- No call on the key is under way. -/
def Idle (v : KeyView) : Prop := ∀ i call, v.calls i = some call → call.pc.Done

/-- A write of the key begins when no other call on it is under way, there are no
    reads of it, no send of a call fails and no wait expires. -/
def Serially (key : String) (v : KeyView) : Action → Prop
  | .call _ _ request => request.key = key → request ≠ .read key ∧ Idle v
  | .thread i choice => v.calls i ≠ none → choice = .go
  | _ => True

theorem is_write {key : String} {request : Request} (about : request.key = key) (notRead : request ≠ .read key) :
    ∃ data, request = .write ⟨key,data⟩ := by
  cases request with
  | read _ => exact absurd (congrArg Request.read about) notRead
  | write dataDto =>
    obtain ⟨_,data⟩ := dataDto
    cases about
    exact ⟨data,rfl⟩

/-- Where a write can stand that meets no conflict and no failure. -/
def Ordinary : Pc → Prop
  | .writeData | .putWantToWrite | .findInvalidate | .saveInvalidate _ | .sendWantToWrite | .testResponse | .sleepWrite
  | .testConflict => True
  | .saveData exit | .sendDataWritten exit | .removeWantToWrite exit | .wrote exit => exit = .allResponses
  | _ => False

/-- A write that has not registered yet. -/
def Pending : Pc → Prop
  | .writeData | .putWantToWrite => True
  | _ => False

/-- The messages that such writes cause. -/
def Serving : Message → Prop
  | .wantToWrite _ | .wantToWriteResponse _ | .dataWritten _ => True
  | _ => False

section
variable {settings : Settings} {group : Group} {key : String} {v v' : KeyView} {previous last : Option (SpreadGroup × String)}

/-- `server` has the only valid copy. -/
structure OnlyCopy (group : Group) (key : String) (v : KeyView) (server : SpreadGroup) (data : String) : Prop where
  row : (v.held server).row = some (.ofDto ⟨key,data⟩)
  others : ∀ other ∈ group.others server, ∀ entity, (v.held other).row = some entity → ¬ entity.Valid

/-- What holds between serialised writes and during each of them. `last` is the
    last write so far and `previous` the one before it. -/
structure Orderly (group : Group) (key : String) (previous last : Option (SpreadGroup × String)) (v : KeyView) :
    Prop where
  single : ∀ i j call other, v.calls i = some call → v.calls j = some other → ¬ call.pc.Done → ¬ other.pc.Done → i = j
  ordinary : ∀ i call, v.calls i = some call → Ordinary call.pc ∧ call.conflict = none
  slot : ∀ server wanted call, (v.held server).slot = some wanted → v.calls wanted.callback = some call →
    call.pc.Registered
  registered : ∀ i call, v.calls i = some call → call.pc.Registered → (v.held call.server).slot ≠ none
  serving : ∀ packet ∈ v.network, ∀ message, packet.body = .regular message → Serving message
  asking : ∀ packet ∈ v.network, ∀ i call, v.calls i = some call →
    (∃ server ∈ group.others call.server, Asking i server packet) ∨ Answering i packet → ¬ call.pc.Done
  writer : ∀ i call data, v.calls i = some call → ¬ call.pc.Done → call.request = .write ⟨key,data⟩ →
    last = some (call.server,data)
  invalid : ∀ i call, v.calls i = some call → ¬ call.pc.Done → ∀ server ∈ call.acknowledged, ∀ entity,
    (v.held server).row = some entity → ¬ entity.Valid
  copy : ∀ server data, last = some (server,data) →
    (∀ i call, v.calls i = some call → call.pc.Done ∨ call.pc.Saved) → OnlyCopy group key v server data
  before : ∀ server data, previous = some (server,data) → (∃ i call, v.calls i = some call ∧ Pending call.pc) →
    OnlyCopy group key v server data

theorem ordinary_pending {pc : Pc} (ordinary : Ordinary pc) (running : ¬ pc.Done) (unregistered : ¬ pc.Registered) :
    Pending pc := by
  cases pc <;> simp_all [Ordinary,Pc.Registered,Pc.Done,Pending]
theorem ordinary_saved {pc : Pc} (ordinary : Ordinary pc) (saved : pc.Saved) : pc.exit? = some .allResponses := by
  cases pc <;> simp_all [Ordinary,Pc.Saved,Pc.exit?]
theorem done_saved {pc : Pc} (done : pc.Done) (left : pc.exit? = some .allResponses) : pc.Saved := by
  cases pc <;> simp_all [Pc.Done,Pc.Saved,Pc.exit?,Exit.success]
theorem pending_not_asked {pc : Pc} (pending : Pending pc) : ¬ pc.Asked := by
  cases pc <;> simp_all [Pending,Pc.Asked]
theorem registered_not_done {pc : Pc} (registered : pc.Registered) : ¬ pc.Done := by
  cases pc <;> simp_all [Pc.Registered,Pc.Done]

/-- While writes are orderly, a response in flight answers the round that its
    receiver has registered. -/
theorem Orderly.countsOwn (orderly : Orderly group key previous last v) (sound : Sound group key v) {packet : Packet}
    {sent : Bool} (flying : packet ∈ v.network) : CountsOwn key v (.deliver packet sent) := by
  obtain ⟨_,_,⟨message,body,_⟩,i,call,tag,found⟩ := sound.flying packet flying
  simp only [CountsOwn,body]
  cases message with
  | wantToWriteResponse _ =>
    cases slot : (v.held packet.receiver).slot with
    | none => trivial
    | some wanted =>
      obtain ⟨owner,ownerFound,_⟩ := sound.wanting _ wanted slot
      have answering : Answering i packet := ⟨tag,by rw [body]; trivial⟩
      have open' := orderly.asking packet flying i call found (.inr answering)
      have registered := orderly.slot _ wanted owner slot ownerFound
      have same := orderly.single i _ call owner found ownerFound open' (registered_not_done registered)
      exact fun _ => tag.trans (congrArg some same)
  | _ => trivial

theorem Orderly.of_started (orderly : Orderly group key previous last v) (sound : Sound group key v) {i : Nat}
    {server : SpreadGroup} {data : String} (startingUp : Bool) (fresh : v.calls i = none) (idle : Idle v) :
    Orderly group key last (some (server,data)) (v.started i (.start startingUp server (.write ⟨key,data⟩))) := by
  have started : (Call.start startingUp server (.write ⟨key,data⟩)).pc = .writeData := rfl
  refine ⟨?_,?_,?_,?_,orderly.serving,?_,?_,?_,?_,?_⟩
  · intro j k call other foundJ foundK openJ openK
    rcases started_cases foundJ with ⟨rfl,rfl⟩ | ⟨_,foundJ⟩
    · rcases started_cases foundK with ⟨rfl,rfl⟩ | ⟨_,foundK⟩
      · rfl
      · exact absurd (idle k other foundK) openK
    · exact absurd (idle j call foundJ) openJ
  · intro j call found
    rcases started_cases found with ⟨rfl,rfl⟩ | ⟨_,found⟩
    · exact ⟨trivial,rfl⟩
    · exact orderly.ordinary j call found
  · intro g wanted call slot found
    rcases started_cases found with ⟨same,rfl⟩ | ⟨_,found⟩
    · obtain ⟨_,found',_⟩ := sound.wanting g wanted slot
      rw [same,fresh] at found'
      cases found'
    · exact orderly.slot g wanted call slot found
  · intro j call found registered
    rcases started_cases found with ⟨rfl,rfl⟩ | ⟨_,found⟩
    · simp [started,Pc.Registered] at registered
    · exact orderly.registered j call found registered
  · intro packet flying j call found asks
    rcases started_cases found with ⟨rfl,rfl⟩ | ⟨_,found⟩
    · simp [started,Pc.Done]
    · exact orderly.asking packet flying j call found asks
  · intro j call other found running request
    rcases started_cases found with ⟨rfl,rfl⟩ | ⟨_,found⟩
    · cases request
      rfl
    · exact absurd (idle j call found) running
  · intro j call found running other member
    rcases started_cases found with ⟨rfl,rfl⟩ | ⟨_,found⟩
    · simp at member
    · exact absurd (idle j call found) running
  · intro g value _ settled
    have now := settled i _ (started_self ..)
    simp [started,Pc.Done,Pc.Saved] at now
  · intro g value isLast _
    obtain ⟨row,others⟩ := orderly.copy g value isLast fun j call found => .inl (idle j call found)
    exact ⟨row,others⟩

theorem ordinary_move {participants : Int} {stored : Option DataEntity} {call : Call} {effect : Effect} {pc : Pc}
    (move : Move settings participants stored call .go effect pc) (ordinary : Ordinary call.pc)
    (more : participants ≠ 2) (calm : call.conflict = none) : Ordinary pc := by
  cases move <;> simp_all [Ordinary]

theorem ordinary_sends {participants : Int} {stored : Option DataEntity} {call : Call} {choice : Choice}
    {effect : Effect} {pc : Pc} {i : Nat} (move : Move settings participants stored call choice effect pc)
    (ordinary : Ordinary call.pc) {packet : Packet}
    (sent : packet ∈ packets group.members call.server (some i) effect.sends) {message : Message}
    (body : packet.body = .regular message) : Serving message := by
  cases move with
  | sendWantToWrite _ _ | sendDataWritten _ _ =>
    obtain ⟨_,_,rfl⟩ := List.mem_map.mp (Multiset.mem_coe.mp (by simpa [Effect.sends] using sent))
    cases body
    trivial
  | sendRevalidate _ here | sendAskData _ here => simp [here,Ordinary] at ordinary
  | _ => simp [Effect.sends] at sent

/-- The steps at which an ordinary write changes its server's row. -/
theorem ordinary_row {participants : Int} {held : Fields} {call : Call} {effect : Effect} {pc : Pc} {i : Nat}
    (move : Move settings participants held.row call .go effect pc) (ordinary : Ordinary call.pc)
    (more : participants ≠ 2) (calm : call.conflict = none) :
    (access i held effect).row = held.row ∧ (call.pc.Saved ↔ pc.Saved) ∨
    ¬ pc.Saved ∧ ¬ pc.Done ∧ ¬ call.pc.Asked ∨
    call.pc.exit? = some .allResponses ∧ ¬ call.pc.Done ∧ pc.Saved ∧ ∃ dataDto, call.request = .write dataDto ∧
      (access i held effect).row = some (.ofDto dataDto) := by
  cases move with
  | isAlone _ _ two => exact absurd two more
  | saveAlone _ here | findDelete _ here _ | deleteById _ here _ | saveCopy _ here _ => simp [here,Ordinary] at ordinary
  | saveInvalidate _ here => exact .inr (.inl ⟨by simp [Pc.Saved],by simp [Pc.Done],by simp [here,Pc.Asked]⟩)
  | @saveData dataDto exit write here =>
    rw [here] at ordinary
    exact .inr (.inr ⟨by rw [here,show exit = .allResponses from ordinary]; rfl,by simp [here,Pc.Done],trivial,
      dataDto,write,rfl⟩)
  | removeWantToWrite _ here => exact .inl ⟨rfl,by simp [here,Pc.Saved]⟩
  | @sendDataWritten _ exit _ here =>
    rw [here] at ordinary
    cases (show exit = .allResponses from ordinary)
    exact .inl ⟨rfl,by simp [here,Pc.Saved,Exit.success]⟩
  | conflict _ _ noted => rw [calm] at noted; cases noted
  | wins _ here _ _ | yields _ here _ _ | throws _ here _ => simp [here,Ordinary] at ordinary
  | _ => exact .inl ⟨rfl,by simp_all [Pc.Saved,Ordinary]⟩

/-- An ordinary write returns with all responses, and with a step that sends nothing. -/
theorem ordinary_done {participants : Int} {stored : Option DataEntity} {call : Call} {effect : Effect} {pc : Pc}
    (move : Move settings participants stored call .go effect pc) (ordinary : Ordinary call.pc) (done : pc.Done) :
    call.pc.exit? = some .allResponses ∧ effect.sends = [] := by
  cases move with
  | removeWantToWrite _ here =>
    rw [here] at ordinary
    exact ⟨by rw [here]; exact congrArg some ordinary,rfl⟩
  | saveAlone _ here => simp [here,Ordinary] at ordinary
  | localCopy _ here _ | removeWaiting _ here => simp [here,Ordinary] at ordinary
  | _ => simp [Pc.Done] at done

/-- A registered write stays registered until it removes its registration. -/
theorem move_registered {participants : Int} {stored : Option DataEntity} {call : Call} {effect : Effect} {pc : Pc}
    (move : Move settings participants stored call .go effect pc) (registered : call.pc.Registered) :
    pc.Registered ∨ ∃ key, effect = .removeWantToWrite key := by
  cases move <;> simp_all [Pc.Registered]

/-- A registered write has an entry. -/
theorem move_slot {participants : Int} {held : Fields} {call : Call} {effect : Effect} {pc : Pc} {i : Nat}
    (move : Move settings participants held.row call .go effect pc) (registered : pc.Registered)
    (before : call.pc.Registered → held.slot ≠ none) : (access i held effect).slot ≠ none := by
  cases move <;> simp_all [Pc.Registered,access]

theorem pending_not_done {pc : Pc} (pending : Pending pc) : ¬ pc.Done := by
  cases pc <;> simp_all [Pending,Pc.Done]

theorem move_pending {participants : Int} {stored : Option DataEntity} {call : Call} {effect : Effect} {pc : Pc}
    (move : Move settings participants stored call .go effect pc) (ordinary : Ordinary call.pc)
    (more : participants ≠ 2) (pending : Pending pc) : effect = .skip ∧ Pending call.pc := by
  cases move <;> simp_all [Pending,Ordinary]

theorem Orderly.of_moved (orderly : Orderly group key previous last v) (sound : Sound group key v) (tallied : Tallied group v)
    (formed : Formed group v) (more : (group.members.length : Int) ≠ 2) {i : Nat} {call : Call} {effect : Effect} {pc : Pc}
    (found : v.calls i = some call)
    (move : Move settings group.members.length (v.held call.server).row call .go effect pc) :
    Orderly group key previous last (v.moved group i call effect pc) := by
  obtain ⟨ordinary,calm⟩ := orderly.ordinary i call found
  have running : ¬ call.pc.Done := move.not_done
  have ordinary' := ordinary_move move ordinary more calm
  have only : ∀ {j other}, v.calls j = some other → ¬ other.pc.Done → j = i :=
    fun foundJ openJ => orderly.single _ i _ call foundJ found openJ running
  refine ⟨?_,?_,?_,?_,?_,?_,?_,?_,?_,?_⟩
  · intro j k one two foundJ foundK openJ openK
    rcases moved_cases foundJ with ⟨rfl,_⟩ | ⟨different,foundJ⟩
    · rcases moved_cases foundK with ⟨rfl,_⟩ | ⟨different,foundK⟩
      · rfl
      · exact absurd (only foundK openK) different
    · exact absurd (only foundJ openJ) different
  · intro j other was
    rcases moved_cases was with ⟨rfl,rfl⟩ | ⟨_,was⟩
    · exact ⟨ordinary',calm⟩
    · exact orderly.ordinary j other was
  · intro g wanted other slot was
    have before : (v.held g).slot = some wanted ∨ wanted = ⟨0,i⟩ ∧ ∃ key, effect = .putWantToWrite key := by
      by_cases here : g = call.server
      · subst here
        rw [moved_held_self] at slot
        exact access_slot slot
      · rw [moved_held_ne _ _ _ here] at slot
        exact .inl slot
    rcases before with before | ⟨rfl,_,rfl⟩
    · rcases moved_cases was with ⟨same,rfl⟩ | ⟨_,was⟩
      · obtain ⟨owner,ownerFound,here,_⟩ := sound.wanting g wanted before
        rw [same,found] at ownerFound
        cases ownerFound
        rcases move_registered move (orderly.slot g wanted call before (same ▸ found)) with registered | ⟨_,rfl⟩
        · exact registered
        · rw [← here,moved_held_self] at slot
          cases slot
      · exact orderly.slot g wanted other before was
    · rw [moved_self] at was
      cases was
      cases move
      trivial
  · intro j other was registered
    rcases moved_cases was with ⟨rfl,rfl⟩ | ⟨different,was⟩
    · rw [goto_server,moved_held_self]
      refine move_slot move registered fun before => ?_
      exact orderly.registered j call found before
    · exact absurd (only was (registered_not_done registered)) different
  · intro packet inside message body
    rcases Multiset.mem_add.mp inside with flying | sent
    · exact orderly.serving packet flying message body
    · exact ordinary_sends move ordinary sent body
  · intro packet inside j other was asks
    rcases moved_cases was with ⟨rfl,rfl⟩ | ⟨different,was⟩
    · intro done
      obtain ⟨left,silent⟩ := ordinary_done move ordinary done
      rw [moved_network,silent,packets_nil,add_zero] at inside
      have all := tallied.left j call found left
      rcases asks with ⟨server,other,asking⟩ | answering
      · exact all.unasked formed found inside other asking
      · exact Multiset.countP_eq_zero.mp all.noAnswers packet inside answering
    · rcases Multiset.mem_add.mp inside with flying | sent
      · exact orderly.asking packet flying j other was asks
      · obtain ⟨_,tag,_⟩ := sends_about (move.key (sound.keyed i call found)) packet sent
        have ownTag : packet.call = some j := by
          rcases asks with ⟨_,_,asking⟩ | answering
          · exact asking.1
          · exact answering.1
        rw [tag] at ownTag
        exact absurd (Option.some.inj ownTag).symm different
  · intro j other data was openJ request
    rcases moved_cases was with ⟨rfl,rfl⟩ | ⟨different,was⟩
    · exact orderly.writer j call data found running request
    · exact absurd (only was openJ) different
  · intro j other was openJ server member entity row
    rcases moved_cases was with ⟨rfl,rfl⟩ | ⟨different,was⟩
    · have elsewhere := (Group.mem_others.mp (formed.answering j call found server member).1).2
      rw [moved_held_ne _ _ _ elsewhere] at row
      exact orderly.invalid j call found running server member entity row
    · exact absurd (only was openJ) different
  · intro server data isLast settled
    have others : ∀ {j other}, j ≠ i → v.calls j = some other → other.pc.Done ∨ other.pc.Saved := by
      intro j other different was
      exact settled j other (by rw [moved_ne _ _ _ different]; exact was)
    have own := settled i _ (moved_self ..)
    rcases ordinary_row (i := i) move ordinary more calm with ⟨sameRow,saved⟩ | ⟨notSaved,notDone,_⟩ | write
    · have before : call.pc.Saved := by
        refine saved.mpr (own.elim (fun done => ?_) id)
        obtain ⟨left,_⟩ := ordinary_done move ordinary done
        exact done_saved done (move.exit left)
      have rows : ∀ g, ((v.moved group i call effect pc).held g).row = (v.held g).row := by
        intro g
        by_cases here : g = call.server
        · subst here
          rw [moved_held_self,sameRow]
        · rw [moved_held_ne _ _ _ here]
      obtain ⟨copy,rest⟩ := orderly.copy server data isLast fun j other was => by
        by_cases same : j = i
        · subst same
          rw [found] at was
          cases was
          exact .inr before
        · exact others same was
      exact ⟨by rw [rows]; exact copy,fun other member entity row => rest other member entity (by rwa [rows] at row)⟩
    · exact (own.elim notDone notSaved).elim
    · obtain ⟨left,_,_,dataDto,request,row⟩ := write
      have sameKey : dataDto.key = key := by
        have about := sound.about i call found
        rwa [request] at about
      obtain ⟨dtoKey,value⟩ := dataDto
      cases sameKey
      have ownLast := orderly.writer i call value found running request
      rw [isLast] at ownLast
      cases ownLast
      refine ⟨by rw [moved_held_self]; exact row,fun other member entity otherRow => ?_⟩
      rw [moved_held_ne _ _ _ (Group.mem_others.mp member).2] at otherRow
      have answered := (tallied.left i call found left).acknowledged member
      exact orderly.invalid i call found running other answered entity otherRow
  · rintro server data isPrevious ⟨j,other,was,pending⟩
    rcases moved_cases was with ⟨rfl,rfl⟩ | ⟨different,was⟩
    · obtain ⟨rfl,before⟩ := move_pending move ordinary more pending
      obtain ⟨row,others⟩ := orderly.before server data isPrevious ⟨j,call,found,before⟩
      have rows : ∀ g, ((v.moved group j call .skip pc).held g).row = (v.held g).row := by
        intro g
        by_cases here : g = call.server
        · subst here
          rw [moved_held_self]
          rfl
        · rw [moved_held_ne _ _ _ here]
      exact ⟨by rw [rows]; exact row,fun other member entity row => others other member entity (by rwa [rows] at row)⟩
    · exact absurd (only was (pending_not_done pending)) different

theorem Orderly.of_dropped (orderly : Orderly group key previous last v) (packet : Packet) :
    Orderly group key previous last (v.dropped packet) :=
  ⟨orderly.single,orderly.ordinary,orderly.slot,orderly.registered,
    fun other flying => orderly.serving other (Multiset.mem_of_mem_erase flying),
    fun other flying => orderly.asking other (Multiset.mem_of_mem_erase flying),orderly.writer,orderly.invalid,
    fun server data isLast settled => ⟨(orderly.copy server data isLast settled).row,(orderly.copy server data isLast settled).others⟩,
    fun server data isPrevious pending =>
      ⟨(orderly.before server data isPrevious pending).row,(orderly.before server data isPrevious pending).others⟩⟩

/-- The four things a delivery can be while writes are orderly: the message is
    ignored, a WANT_TO_WRITE of the write under way is granted, a response is
    counted, an invalidated copy is deleted. -/
inductive Delivery (settings : Settings) (me sender : SpreadGroup) (held : Fields) :
    Message → Fields → List Send → List Callback → Prop
  | ignored {message : Message} : Delivery settings me sender held message held [] []
  | granted {data : DataDto} (foreign : sender ≠ me) (free : held.slot = none) :
      Delivery settings me sender held (.wantToWrite data)
        { held with row := held.row.map (DataEntity.setInvalidate · true) }
        (if settings.testConflict me then [] else [.unicast (.wantToWriteResponse data.key) sender]) []
  | counted {key : String} {wanted : WantToWriteData} {callbacks : List Callback} (writing : held.slot = some wanted)
      (calls : ∀ callback ∈ callbacks, callback = .allResponsesReceived wanted.callback) :
      Delivery settings me sender held (.wantToWriteResponse key)
        { held with slot := some ⟨wanted.receivedResponses + 1,wanted.callback⟩ } [] callbacks
  | deleted {key : String} {entity : DataEntity} (stored : held.row = some entity) (invalid : ¬ entity.Valid) :
      Delivery settings me sender held (.dataWritten key) { held with row := none } [] []

theorem Orderly.delivery (orderly : Orderly group key previous last v) (sound : Sound group key v) (formed : Formed group v)
    {packet : Packet} {message : Message} {held : Fields} {sends : List Send} {callbacks : List Callback}
    (flying : packet ∈ v.network) (server : isService packet.receiver = false) (body : packet.body = .regular message)
    (handled : Handled settings group.members.length packet.receiver packet.sender (v.held packet.receiver) message held
      sends callbacks) :
    Delivery settings packet.receiver packet.sender (v.held packet.receiver) message held sends callbacks := by
  have serving := orderly.serving packet flying message body
  cases handled with
  | ignored _ => exact .ignored
  | granted foreign free => exact .granted foreign free
  | counted writing =>
    refine .counted writing fun callback member => ?_
    split_ifs at member
    · exact List.mem_singleton.mp member
    · cases member
  | deleted _ stored invalid => exact .deleted stored invalid
  | @refused data wanted foreign writing =>
    -- The registered write would be the one that asks, at its own server.
    obtain ⟨receiverIn,_,_,i,call,tag,found⟩ := sound.flying packet flying
    obtain ⟨_,sender,_⟩ := formed.owned packet flying _ i call body tag found
    have other : packet.receiver ∈ group.others call.server :=
      Group.mem_others.mpr ⟨Group.mem_servers.mpr ⟨receiverIn,server⟩,sender ▸ Ne.symm foreign⟩
    have asking : Asking i packet.receiver packet := ⟨tag,rfl,by rw [body]; trivial⟩
    obtain ⟨owner,ownerFound,here,_⟩ := sound.wanting _ wanted writing
    have registered := orderly.slot _ wanted owner writing ownerFound
    have same := orderly.single _ _ _ _ found ownerFound
      (orderly.asking packet flying i call found (.inl ⟨_,other,asking⟩)) (registered_not_done registered)
    rw [same,ownerFound] at found
    cases found
    exact absurd (sender.trans here) foreign
  | answered _ _ _ | received _ | disturbed _ _ | revalidated _ _ => exact serving.elim

section
variable {me sender : SpreadGroup} {held held' : Fields} {message : Message} {sends : List Send}
  {callbacks : List Callback}

theorem Delivery.calm (delivery : Delivery settings me sender held message held' sends callbacks) (packet : Packet)
    (sent : Bool) (i : Nat) (call : Call) : (notify sends callbacks packet sent i call).conflict = call.conflict := by
  rw [(notify_references ..).2.2]
  cases delivery with
  | counted writing calls =>
    clear writing
    induction callbacks generalizing call with
    | nil => rfl
    | cons callback rest ih =>
      rw [List.foldl_cons,ih _ fun other member => calls other (List.mem_cons_of_mem _ member),
        calls callback List.mem_cons_self]
      simp only [invoke]
      split_ifs <;> rfl
  | _ => rfl

/-- No delivery makes a row valid. -/
theorem Delivery.row (delivery : Delivery settings me sender held message held' sends callbacks) {entity : DataEntity}
    (row : held'.row = some entity) (valid : entity.Valid) : held.row = some entity := by
  cases delivery with
  | granted _ _ =>
    obtain ⟨before,_,rfl⟩ := Option.map_eq_some_iff.mp row
    simp at valid
  | deleted _ _ => cases row
  | _ => exact row

/-- Only a WANT_TO_WRITE makes a valid row invalid. -/
theorem Delivery.kept (delivery : Delivery settings me sender held message held' sends callbacks) {entity : DataEntity}
    (row : held.row = some entity) (valid : entity.Valid) :
    held'.row = some entity ∨ sender ≠ me ∧ ∃ data, message = .wantToWrite data := by
  cases delivery with
  | granted foreign _ => exact .inr ⟨foreign,_,rfl⟩
  | deleted stored invalid =>
    rw [stored] at row
    cases row
    exact absurd valid invalid
  | _ => exact .inl row

theorem Delivery.slot (delivery : Delivery settings me sender held message held' sends callbacks)
    {wanted : WantToWriteData} (slot : held'.slot = some wanted) :
    ∃ before, held.slot = some before ∧ wanted.callback = before.callback := by
  cases delivery with
  | counted writing _ =>
    cases slot
    exact ⟨_,writing,rfl⟩
  | _ => exact ⟨wanted,slot,rfl⟩

theorem Delivery.slot_kept (delivery : Delivery settings me sender held message held' sends callbacks)
    (slot : held.slot ≠ none) : held'.slot ≠ none := by
  cases delivery with
  | counted _ _ => simp
  | _ => exact slot

/-- An acknowledgement leaves no valid row. -/
theorem Delivery.acknowledged (delivery : Delivery settings me sender held message held' sends callbacks)
    (grants : acknowledges sends = true) : ∀ entity, held'.row = some entity → ¬ entity.Valid := by
  cases delivery with
  | granted _ _ =>
    intro entity row
    obtain ⟨before,_,rfl⟩ := Option.map_eq_some_iff.mp row
    simp
  | _ => simp [acknowledges] at grants

/-- A delivery sends nothing but a response, to the sender of a WANT_TO_WRITE. -/
theorem Delivery.replies (delivery : Delivery settings me sender held message held' sends callbacks)
    {members : List SpreadGroup} {call : Option Nat} {new : Packet} (sent : new ∈ packets members me call sends) :
    sender ≠ me ∧ (∃ data, message = .wantToWrite data) ∧ ∃ key, new.body = .regular (.wantToWriteResponse key) := by
  cases delivery with
  | granted foreign _ =>
    split_ifs at sent
    · simp at sent
    rw [packets_unicast,Multiset.mem_singleton] at sent
    subst sent
    exact ⟨foreign,⟨_,rfl⟩,_,rfl⟩
  | _ => simp at sent
end

theorem Orderly.of_handled (orderly : Orderly group key previous last v) (sound : Sound group key v) (formed : Formed group v)
    (tallied : Tallied group v) {packet : Packet} {sent : Bool} {message : Message} {held : Fields} {sends : List Send}
    {callbacks : List Callback} (flying : packet ∈ v.network) (server : isService packet.receiver = false)
    (body : packet.body = .regular message)
    (handled : Handled settings group.members.length packet.receiver packet.sender (v.held packet.receiver) message held
      sends callbacks) : Orderly group key previous last (v.handled group packet sent held sends callbacks) := by
  have delivery := orderly.delivery sound formed flying server body handled
  obtain ⟨receiverIn,_,⟨_,body',about⟩,origin,originCall,tag,originFound⟩ := sound.flying packet flying
  rw [body] at body'
  cases body'
  -- A WANT_TO_WRITE that another server grants is one of the write under way, which has not saved.
  have asks : packet.sender ≠ packet.receiver → (∃ data, message = .wantToWrite data) →
      ¬ originCall.pc.Done ∧ ¬ originCall.pc.Saved ∧ originCall.pc.Asked := by
    rintro foreign ⟨data,rfl⟩
    obtain ⟨_,sender,asked⟩ := formed.owned packet flying _ origin originCall body tag originFound
    have other : packet.receiver ∈ group.others originCall.server :=
      Group.mem_others.mpr ⟨Group.mem_servers.mpr ⟨receiverIn,server⟩,sender ▸ Ne.symm foreign⟩
    have asking : Asking origin packet.receiver packet := ⟨tag,rfl,by rw [body]; trivial⟩
    refine ⟨orderly.asking packet flying origin originCall originFound (.inl ⟨_,other,asking⟩),fun saved => ?_,asked⟩
    have left := ordinary_saved (orderly.ordinary origin originCall originFound).1 saved
    exact (tallied.left origin originCall originFound left).unasked formed originFound flying other asking
  -- The only copy stays, unless a WANT_TO_WRITE is granted.
  have kept : ∀ {g data}, ¬ (packet.sender ≠ packet.receiver ∧ ∃ data, message = .wantToWrite data) →
      OnlyCopy group key v g data → OnlyCopy group key (v.handled group packet sent held sends callbacks) g data := by
    rintro g data calm ⟨row,others⟩
    refine ⟨?_,fun other member entity otherRow valid => others other member entity ?_ valid⟩
    · by_cases here : g = packet.receiver
      · subst here
        rw [handled_held_self]
        exact (delivery.kept row (valid_ofDto _)).resolve_right calm
      · rw [handled_held_ne _ _ _ _ _ here]
        exact row
    · by_cases here : other = packet.receiver
      · subst here
        rw [handled_held_self] at otherRow
        exact delivery.row otherRow valid
      · rwa [handled_held_ne _ _ _ _ _ here] at otherRow
  refine ⟨?_,?_,?_,?_,?_,?_,?_,?_,?_,?_⟩
  · intro j k one two foundJ foundK openJ openK
    obtain ⟨one,wasJ,rfl⟩ := handled_cases foundJ
    obtain ⟨two,wasK,rfl⟩ := handled_cases foundK
    rw [notify_pc] at openJ openK
    exact orderly.single j k one two wasJ wasK openJ openK
  · intro j other was
    obtain ⟨before,found,rfl⟩ := handled_cases was
    rw [notify_pc,delivery.calm]
    exact orderly.ordinary j before found
  · intro g wanted other slot was
    obtain ⟨before,found,rfl⟩ := handled_cases was
    rw [notify_pc]
    by_cases here : g = packet.receiver
    · subst here
      rw [handled_held_self] at slot
      obtain ⟨old,oldSlot,same⟩ := delivery.slot slot
      exact orderly.slot _ old before oldSlot (same ▸ found)
    · rw [handled_held_ne _ _ _ _ _ here] at slot
      exact orderly.slot g wanted before slot found
  · intro j other was registered
    obtain ⟨before,found,rfl⟩ := handled_cases was
    rw [notify_pc] at registered
    rw [notify_server]
    have slot := orderly.registered j before found registered
    by_cases here : before.server = packet.receiver
    · rw [here,handled_held_self]
      exact delivery.slot_kept (here ▸ slot)
    · rwa [handled_held_ne _ _ _ _ _ here]
  · intro other inside reply replyBody
    rcases Multiset.mem_add.mp inside with old | new
    · exact orderly.serving other (Multiset.mem_of_mem_erase old) reply replyBody
    · split_ifs at new
      · obtain ⟨_,_,_,newBody⟩ := delivery.replies new
        rw [newBody] at replyBody
        cases replyBody
        trivial
      · simp at new
  · intro other inside j call was asking
    obtain ⟨before,found,rfl⟩ := handled_cases was
    rw [notify_pc]
    rw [notify_server] at asking
    rcases Multiset.mem_add.mp inside with old | new
    · exact orderly.asking other (Multiset.mem_of_mem_erase old) j before found asking
    · split_ifs at new
      · obtain ⟨foreign,request,_⟩ := delivery.replies new
        have newTag : other.call = packet.call := (handled.packets_about about (sound.row _) other new).2.1
        have ownTag : other.call = some j := by
          rcases asking with ⟨_,_,asking⟩ | answering
          · exact asking.1
          · exact answering.1
        rw [newTag,tag] at ownTag
        cases ownTag
        rw [originFound] at found
        cases found
        exact (asks foreign request).1
      · simp at new
  · intro j call data was running request
    obtain ⟨before,found,rfl⟩ := handled_cases was
    rw [notify_pc] at running
    rw [notify_request] at request
    rw [notify_server]
    exact orderly.writer j before data found running request
  · intro j call was running other member entity row
    obtain ⟨before,found,rfl⟩ := handled_cases was
    rw [notify_pc] at running
    rw [notify_acknowledged] at member
    intro valid
    have old : other ∈ before.acknowledged → False := by
      intro member
      refine orderly.invalid j before found running other member entity ?_ valid
      by_cases here : other = packet.receiver
      · subst here
        rw [handled_held_self] at row
        exact delivery.row row valid
      · rwa [handled_held_ne _ _ _ _ _ here] at row
    split_ifs at member with acknowledging
    · rcases List.mem_cons.mp member with rfl | member
      · rw [handled_held_self] at row
        exact delivery.acknowledged acknowledging.2.2 entity row valid
      · exact old member
    · exact old member
  · intro g data isLast settled
    have before : ∀ j call, v.calls j = some call → call.pc.Done ∨ call.pc.Saved := by
      intro j call found
      have after := settled j _ (by rw [handled_calls,found]; rfl)
      rwa [notify_pc] at after
    refine kept ?_ (orderly.copy g data isLast before)
    rintro ⟨foreign,request⟩
    obtain ⟨notDone,notSaved,_⟩ := asks foreign request
    exact (before origin originCall originFound).elim notDone notSaved
  · rintro g data isPrevious ⟨j,other,was,pending⟩
    obtain ⟨before,found,rfl⟩ := handled_cases was
    rw [notify_pc] at pending
    refine kept ?_ (orderly.before g data isPrevious ⟨j,before,found,pending⟩)
    rintro ⟨foreign,request⟩
    obtain ⟨notDone,_,asked⟩ := asks foreign request
    have same := orderly.single origin j originCall before originFound found notDone (pending_not_done pending)
    subst same
    rw [originFound] at found
    cases found
    exact pending_not_asked pending asked

/-- What the actions taken say of the calls: each is known, and while a write is
    under way the last that has returned is the one before it. -/
structure History (key : String) (acts : List Action) (previous : Option (SpreadGroup × String)) (v : KeyView) : Prop where
  known : ∀ i server request, .call i server request ∈ acts → request.key = key → ∃ call, v.calls i = some call
  running : ¬ Idle v → lastFinished key v.calls acts = previous

/-- Once no write is under way, the last that has returned is the last of all. -/
theorem History.idle {acts : List Action} (history : History key acts previous v) (idle : Idle v) :
    lastFinished key v.calls acts = lastWrite key acts := by
  refine lastOf_congr fun a member => ?_
  cases a with
  | call i server request =>
    cases request with
    | read _ => simp [finishedWriteOf,writeOf]
    | write dataDto =>
      by_cases same : dataDto.key = key
      · obtain ⟨call,found⟩ := history.known i server _ member same
        have done := idle i call found
        simp [finishedWriteOf,found,done]
      · simp [finishedWriteOf,writeOf,same]
  | _ => rfl

/-- The calls that have returned decide which write was the last of them. -/
theorem lastFinished_congr {acts : List Action} {calls calls' : Nat → Option Call}
    (same : ∀ i, (calls i).any (fun call => call.pc.Done) = (calls' i).any (fun call => call.pc.Done)) :
    lastFinished key calls acts = lastFinished key calls' acts := by
  refine lastOf_congr fun a _ => ?_
  cases a with
  | call i _ _ => simp only [finishedWriteOf,same i]
  | _ => rfl

theorem History.step {acts : List Action} {a : Action} (history : History key acts previous v)
    (orderly : Orderly group key previous last v) (sound : Sound group key v) (serially : Serially key v a)
    (step : KeyStep settings group key v a v') :
    History key (acts ++ [a]) (if (writeOf key a).isSome then lastWrite key acts else previous) v' := by
  refine ⟨?_,?_⟩
  · intro i server request member about
    rcases List.mem_append.mp member with member | member
    · obtain ⟨call,found⟩ := history.known i server request member about
      obtain ⟨after,now,_⟩ := step_later sound step found
      exact ⟨after,now⟩
    · obtain rfl := List.mem_singleton.mp member
      cases step with
      | elsewhere away => exact absurd about away
      | call _ _ _ => exact ⟨_,started_self ..⟩
  · intro busy
    rw [lastFinished,lastOf_snoc]
    cases step with
    | elsewhere away =>
      have other : writeOf key a = none := by
        cases a with
        | call _ _ request =>
          cases request with
          | read _ => rfl
          | write _ => exact if_neg away
        | _ => rfl
      have nothing : finishedWriteOf key v.calls a = none := by
        cases a <;> simp [finishedWriteOf,other]
      rw [nothing,other]
      exact history.running busy
    | @call i server _ fresh _ about =>
      obtain ⟨notRead,idle⟩ := serially about
      obtain ⟨data,rfl⟩ := is_write about notRead
      have isWrite : writeOf key (.call i server (.write ⟨key,data⟩)) = some (server,data) := if_pos rfl
      have nothing : finishedWriteOf key (v.started i (.start (group.startingUp server) server (.write ⟨key,data⟩))).calls
          (.call i server (.write ⟨key,data⟩)) = none := by
        simp [finishedWriteOf]
      rw [nothing,isWrite,Option.none_or,← history.idle idle]
      refine lastFinished_congr fun j => ?_
      by_cases same : j = i
      · subst same
        simp [fresh]
      · rw [started_ne same]
    | @thread i choice call effect pc found move =>
      have running : ¬ Idle v := fun idle => move.not_done (idle i call found)
      have unfinished : ¬ pc.Done := by
        intro done
        refine busy fun j other was => ?_
        rcases moved_cases was with ⟨_,rfl⟩ | ⟨different,was⟩
        · exact done
        · by_contra open'
          exact different (orderly.single j i other call was found open' move.not_done)
      rw [show writeOf key (.thread i choice) = none from rfl]
      refine Eq.trans ?_ (history.running running)
      refine lastFinished_congr fun j => ?_
      by_cases same : j = i
      · subst same
        simp [found,unfinished,move.not_done]
      · rw [moved_ne _ _ _ same]
    | service _ _ => exact history.running busy
    | deliver _ _ _ _ =>
      have running : ¬ Idle v := by
        refine fun idle => busy fun j call was => ?_
        obtain ⟨before,found,rfl⟩ := handled_cases was
        rw [notify_pc]
        exact idle j before found
      refine Eq.trans ?_ (history.running running)
      refine lastFinished_congr fun j => ?_
      rw [handled_calls]
      cases v.calls j <;> simp

/-- A step of serialised writes. -/
theorem Orderly.step {a : Action} (orderly : Orderly group key previous last v) (sound : Sound group key v)
    (inRound : InRound group v) (more : 3 ≤ group.members.length) (serially : Serially key v a)
    (step : KeyStep settings group key v a v') :
    Orderly group key (if (writeOf key a).isSome then last else previous) ((writeOf key a).or last) v' ∧
      InRound group v' := by
  have size : (group.members.length : Int) ≠ 2 := by omega
  have own : CountsOwn key v a := by
    cases step with
    | service flying _ => exact orderly.countsOwn sound flying
    | deliver flying _ _ _ => exact orderly.countsOwn sound flying
    | elsewhere away => exact elsewhere_countsOwn away
    | _ => trivial
  refine ⟨?_,inRound.formed.step sound step,inRound.tallied.step inRound.formed sound step own⟩
  cases step with
  | elsewhere away =>
    cases a with
    | call _ _ request =>
      cases request with
      | read _ => exact orderly
      | write dataDto =>
        have different : dataDto.key ≠ key := away
        simpa [writeOf,different] using orderly
    | _ => exact orderly
  | @call i server _ fresh _ about =>
    obtain ⟨notRead,idle⟩ := serially about
    obtain ⟨data,rfl⟩ := is_write about notRead
    have isWrite : writeOf key (.call i server (.write ⟨key,data⟩)) = some (server,data) := if_pos rfl
    rw [isWrite]
    exact orderly.of_started sound _ fresh idle
  | thread found move =>
    have go := serially (by simp [found])
    subst go
    exact orderly.of_moved sound inRound.tallied inRound.formed size found move
  | service _ _ => exact orderly.of_dropped _
  | deliver flying server body handled =>
    exact orderly.of_handled sound inRound.formed inRound.tallied flying server body handled

theorem quiet_orderly {s : State} (quiet : Quiet group s) : Orderly group key none none (view key s) := by
  have noCalls : ∀ {i call}, (view key s).calls i = some call → False := by
    intro i call found
    simp [view,quiet.noCalls] at found
  have noMessages : ∀ packet, packet ∉ (view key s).network := by
    intro packet
    simp [view,quiet.noMessages]
  refine ⟨?_,?_,?_,?_,?_,?_,?_,?_,?_,?_⟩
  · intro i j call other found
    exact (noCalls found).elim
  · intro i call found
    exact (noCalls found).elim
  · intro server wanted call _ found
    exact (noCalls found).elim
  · intro i call found
    exact (noCalls found).elim
  · intro packet flying
    exact absurd flying (noMessages packet)
  · intro packet flying
    exact absurd flying (noMessages packet)
  · intro i call data found
    exact (noCalls found).elim
  · intro i call found
    exact (noCalls found).elim
  · intro server data isLast
    cases isLast
  · intro server data isPrevious
    cases isPrevious

theorem run_orderly {acts : List Action} {s : State} (quiet : Quiet group s) (more : 3 ≤ group.members.length)
    (run : Run (KeySteps settings group key (Serially key)) (view key s) acts v) :
    ∃ previous, Orderly group key previous (lastWrite key acts) v ∧ InRound group v ∧ History key acts previous v := by
  refine run.invariant (P := fun acts v =>
    ∃ previous, Orderly group key previous (lastWrite key acts) v ∧ InRound group v ∧ History key acts previous v)
    ⟨none,quiet_orderly quiet,⟨quiet_formed quiet,quiet_tallied quiet⟩,⟨?_,fun _ => rfl⟩⟩ ?_
  · intro i server request member
    cases member
  · rintro acts v a v' _ ⟨previous,orderly,inRound,history⟩ ⟨sound,serially,step⟩
    obtain ⟨orderly',inRound'⟩ := orderly.step sound inRound more serially step
    refine ⟨_,?_,inRound',history.step orderly sound serially step⟩
    rw [lastWrite,lastOf_snoc]
    exact orderly'

/-- After serialised writes of a key and while no round is open, the server of the
    last finished write has its value and is the only one with a valid copy. -/
theorem last_writer_only {s t : State} {acts : List Action} {server : SpreadGroup} {data : String}
    (quiet : Quiet group s) (more : 3 ≤ group.members.length)
    (run : Run (group.Steps settings key (Serially key)) s acts t)
    (noRound : ∀ other ∈ group.servers, (t.servers other).wantToWriteData key = none)
    (last : lastFinished key t.calls acts = some (server,data)) :
    (t.servers server).database.findById key = some (.ofDto ⟨key,data⟩) ∧
    ∀ other ∈ group.servers, other ≠ server → ∀ entity, (t.servers other).database.findById key = some entity →
      ¬ entity.Valid := by
  obtain ⟨keyRun,fixed⟩ := view_run quiet.fixed run
  obtain ⟨previous,orderly,_,history⟩ := run_orderly quiet more keyRun
  have sameLast : lastFinished key (view key t).calls acts = some (server,data) := by
    rw [← last]
    refine lastOf_congr fun a member => ?_
    cases a with
    | call i g request =>
      by_cases about : request.key = key
      · obtain ⟨call,found⟩ := history.known i g request member about
        simp only [finishedWriteOf,found,(view_calls.mp found).1]
      · cases request with
        | read _ => simp [finishedWriteOf,writeOf]
        | write dataDto =>
          have different : dataDto.key ≠ key := about
          simp [finishedWriteOf,writeOf,different]
    | _ => rfl
  have only : OnlyCopy group key (view key t) server data := by
    by_cases idle : Idle (view key t)
    · refine orderly.copy server data ?_ fun i call found => .inl (idle i call found)
      rw [← history.idle idle]
      exact sameLast
    · obtain ⟨i,call,found,running⟩ : ∃ i call, (view key t).calls i = some call ∧ ¬ call.pc.Done := by
        simpa [Idle] using idle
      refine orderly.before server data (by rw [← history.running idle]; exact sameLast) ⟨i,call,found,?_⟩
      have unregistered : ¬ call.pc.Registered := fun registered =>
        orderly.registered i call found registered (noRound _ ((fixed.sound key).located i call found))
      exact ordinary_pending (orderly.ordinary i call found).1 running unregistered
  exact ⟨only.row,fun other member different entity row =>
    only.others other (Group.mem_others.mpr ⟨member,different⟩) entity row⟩

end

/-- `Serially`, as far as the calls below `bound` show. -/
def SeriallyBelow (bound : Nat) (key : String) (v : KeyView) : Action → Prop
  | .call _ _ request => request.key = key → request ≠ .read key ∧
      ∀ i < bound, (v.calls i).all (fun call => call.pc.Done) = true
  | .thread _ choice => choice = .go
  | _ => True

instance (bound : Nat) (key : String) (v : KeyView) : DecidablePred (SeriallyBelow bound key v)
  | .call _ _ _ => inferInstanceAs (Decidable (_ → _))
  | .thread _ choice => inferInstanceAs (Decidable (choice = .go))
  | .deliver _ _ | .view _ | .boot _ => isTrue trivial

theorem serially_of_below {bound : Nat} {key : String} {v : KeyView} {a : Action} (below : Below bound v.calls)
    (checked : SeriallyBelow bound key v a) : Serially key v a := by
  cases a with
  | call _ _ request =>
    intro about
    obtain ⟨notRead,done⟩ := checked about
    refine ⟨notRead,fun i call found => ?_⟩
    have small : i < bound := by
      by_contra large
      rw [below i (not_lt.mp large)] at found
      cases found
    simpa [found] using done i small
  | thread _ _ => exact fun _ => checked
  | _ => trivial

/-- Server 1 writes, then server 2, which hears of the end of the first write last. -/
def writtenTwice : List Action := List.flatten
  [[.call 0 server1 (.write ⟨"k","a"⟩)],goOn 0 4,
   [.deliver ⟨server2,server1,.regular (.wantToWrite ⟨"k","a"⟩),some 0⟩ true,
    .deliver ⟨server1,server2,.regular (.wantToWriteResponse "k"),some 0⟩ true],goOn 0 4,
   [.call 1 server2 (.write ⟨"k","b"⟩)],goOn 1 5,
   [.deliver ⟨server1,server2,.regular (.wantToWrite ⟨"k","b"⟩),some 1⟩ true,
    .deliver ⟨server2,server1,.regular (.dataWritten "k"),some 0⟩ true,
    .deliver ⟨server2,server1,.regular (.wantToWriteResponse "k"),some 1⟩ true],goOn 1 4]

/-- The databases before: server 2 has an old value. -/
def oldValue (server : SpreadGroup) : Database :=
  if server = server2 then (∅ : Database).save ⟨"k",none,"old"⟩ else ∅

theorem last_writer_only_pair : ∃ t, Run (pair.Steps .properties "k" (Serially "k")) (pair.initial oldValue) writtenTwice t ∧
    (t.servers server2).database.findById "k" = some (.ofDto ⟨"k","b"⟩) ∧
    ∀ other ∈ pair.servers, other ≠ server2 → ∀ entity, (t.servers other).database.findById "k" = some entity →
      ¬ entity.Valid := by
  obtain ⟨t,run,noRound,last⟩ := run_of_checked .properties pair "k" 2 (Serially "k") (SeriallyBelow 2 "k")
    (fun _ _ => serially_of_below) (pair.initial oldValue) (fun _ _ => rfl) writtenTwice
    (fun t => (∀ other ∈ pair.servers, (t.servers other).wantToWriteData "k" = none) ∧
      lastFinished "k" t.calls writtenTwice = some (server2,"b")) (by decide)
  exact ⟨t,run,last_writer_only (initial_quiet pair _) (by decide) run noRound last⟩

end CdPraticas.Serial
