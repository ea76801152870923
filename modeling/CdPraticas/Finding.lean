import CdPraticas.Startup

/-!
# What a read finds

A read asks the group only when its own server has no row for the key. With
an invalidated row there it answers at once, with nothing.
-/

namespace CdPraticas.Finding
open Groups Store Messages Handlers Calls Cluster Keys Startup Runs

/-- A server of the group holds `data` under `key`, and not invalidated. -/
def Found (s : State) (key data : String) : Prop :=
  ∃ server ∈ s.members, isService server = false ∧
    ∃ entity, (s.servers server).database.findById key = some entity ∧ entity.Valid ∧ entity.data = data

/-- Before the callback of a read is registered. -/
def Unregistered : Pc → Prop
  | .findLocal | .sendAskData | .putWaiting => True
  | _ => False

/-- Read `i` of `key` at `reader` is alone, no message is delivered before its
    callback is registered and its wait does not expire. -/
def Lone (i : Nat) (reader : SpreadGroup) (key : String) (s : State) : Action → Prop
  | .call j server request => j = i ∧ server = reader ∧ request = .read key
  | .thread j choice => j = i ∧ choice = .go
  | .deliver _ sent => sent = true ∧ ∃ call, s.calls i = some call ∧ ¬ Unregistered call.pc
  | .view _ | .boot _ => False

/-- No message is in flight, and `reader` is a server that has finished startup. -/
structure Resting (i : Nat) (reader : SpreadGroup) (s : State) : Prop where
  quiet : s.network = 0
  unused : s.calls i = none
  member : reader ∈ s.members
  server : isService reader = false
  startedUp : (s.servers reader).waitStartupDataUpdate = false

abbrev LoneRun (settings : Settings) (i : Nat) (reader : SpreadGroup) (key : String) : State → List Action → State → Prop :=
  Run (Restrict (Lone i reader key) (Steps (step settings)))

/-- A read that has answered has answered with a value that is found, and
    however far a read has come, it can go on to answer. -/
structure Finds (settings : Settings) (i : Nat) (reader : SpreadGroup) (key : String) (b : State) : Prop where
  right : ∀ acts s call answer, LoneRun settings i reader key b acts s → s.calls i = some call →
    call.answer = some answer → ∃ data, answer = .data key data ∧ Found b key data
  answers : ∀ acts s, LoneRun settings i reader key b acts s → ∃ more t call answer,
    LoneRun settings i reader key s more t ∧ t.calls i = some call ∧ call.answer = some answer

/-- A message that brings the reader a value, or asks a server that will. -/
inductive Promising (b : State) (reader : SpreadGroup) (key : String) (packet : Packet) : Prop
  | ask {entity : DataEntity} (body : packet.body = .regular (.askData key)) (sender : packet.sender = reader)
      (server : isService packet.receiver = false) (other : packet.receiver ≠ reader)
      (stored : (b.servers packet.receiver).database.findById key = some entity) (valid : entity.Valid)
  | response {dataDto : DataDto} (body : packet.body = .regular (.askDataResponse dataDto)) (receiver : packet.receiver = reader)

/-- What can be in flight. -/
inductive Carried (b : State) (reader : SpreadGroup) (key : String) (packet : Packet) : Prop
  | ask (body : packet.body = .regular (.askData key)) (sender : packet.sender = reader) (member : packet.receiver ∈ b.members)
  | response {dataDto : DataDto} (body : packet.body = .regular (.askDataResponse dataDto))
      (receiver : packet.receiver = reader) (same : dataDto.key = key) (found : Found b key dataDto.data)

/-- Where the read stands. -/
inductive Stage (b : State) (i : Nat) (reader : SpreadGroup) (key : String) (s : State) (call : Call) : Prop
  | looking (here : call.pc = .findLocal) (same : s.servers reader = b.servers reader) (quiet : s.network = 0)
  | asking (here : call.pc = .sendAskData) (none : (b.servers reader).database.findById key = none) (quiet : s.network = 0)
  | asked (here : call.pc = .putWaiting) (hope : ∃ packet ∈ s.network, Promising b reader key packet)
  | waiting (here : call.pc = .testData ∨ call.pc = .sleepRead)
      (hope : call.responseReceived = false → (s.servers reader).waitingData key = some i ∧
        ∃ packet ∈ s.network, Promising b reader key packet)
  | saving (here : call.pc = .saveCopy) (received : call.responseReceived = true)
  | removing {dataDto : DataDto} (here : call.pc = .removeWaiting (some dataDto)) (same : dataDto.key = key)
      (found : Found b key dataDto.data)
  | answered {response : Option DataDto} (here : call.pc = .answered response)
      (found : Found b key ((response.map DataDto.data).getD ""))

/-- The read has begun, and this is where it stands. -/
structure Going (b : State) (i : Nat) (reader : SpreadGroup) (key : String) (s : State) (call : Call) : Prop where
  server : call.server = reader
  read : call.request = .read key
  answer : call.answer = call.pc.answer? call.request
  response : ∀ dataDto, call.response = some dataDto → dataDto.key = key ∧ Found b key dataDto.data
  received : call.responseReceived = true → call.response ≠ none
  stage : Stage b i reader key s call

/-- What holds while the read is alone. -/
structure Seeking (b : State) (i : Nat) (reader : SpreadGroup) (key : String) (s : State) : Prop where
  members : s.members = b.members
  others : ∀ server, server ≠ reader → s.servers server = b.servers server
  carried : ∀ packet ∈ s.network, Carried b reader key packet
  call : s = b ∨ ∃ call, s.calls i = some call ∧ Going b i reader key s call

section
variable {settings : Settings} {b s t : State} {i : Nat} {reader : SpreadGroup} {key : String}

theorem seeking_start (rest : Resting i reader b) : Seeking b i reader key b :=
  ⟨rfl,fun _ _ => rfl,by simp [rest.quiet],.inl rfl⟩

theorem step_thread {call : Call} {effect : Effect} {pc : Pc} (here : s.calls i = some call)
    (moved : next settings (s.servers call.server).numberOfParticipants
      ((s.servers call.server).database.findById call.request.key) call .go = some (effect,pc)) :
    step settings (.thread i .go) s =
      some { s with servers := Function.update s.servers call.server (effect.apply i (s.servers call.server))
                    calls := Function.update s.calls i (some (call.goto pc))
                    network := s.network + packets s.members call.server (some i) effect.sends } := by
  simp only [step,here,moved]

/-- A step of the read that leaves it at `pc`. -/
theorem Seeking.goes (seeking : Seeking b i reader key s) {call : Call} (here : s.calls i = some call)
    (going : Going b i reader key s call) (running : call.answer = none) (effect : Effect) (pc : Pc)
    (moved : next settings (s.servers reader).numberOfParticipants
      ((s.servers reader).database.findById key) call .go = some (effect,pc))
    (carries : ∀ packet ∈ packets b.members reader (some i) effect.sends, Carried b reader key packet)
    (move : step settings (.thread i .go) s = some t)
    (stage : t.servers reader = effect.apply i (s.servers reader) →
      t.network = s.network + packets b.members reader (some i) effect.sends → Stage b i reader key t (call.goto pc)) :
    Seeking b i reader key t := by
  obtain ⟨server,read,_,response,received,_⟩ := going
  have key_eq : call.request.key = key := by rw [read]; rfl
  rw [← server,← key_eq] at moved
  cases (step_thread here moved).symm.trans move
  refine ⟨seeking.members,?_,?_,.inr ⟨_,Function.update_self ..,server,read,?_,response,received,stage ?_ ?_⟩⟩
  · intro other different
    rw [← seeking.others other different]
    exact Function.update_of_ne (server ▸ different) ..
  · intro packet flying
    rcases Multiset.mem_add.mp flying with before | new
    · exact seeking.carried packet before
    · rw [seeking.members,server] at new
      exact carries packet new
  · simp [Call.goto,running]
  · rw [← server]
    exact Function.update_self ..
  · rw [← server,← seeking.members]

/-- Nobody is asked but the servers of the group. -/
theorem asked_carried (packet : Packet) (flying : packet ∈ packets b.members reader (some i) (Effect.multicast (.askData key)).sends) :
    Carried b reader key packet := by
  simp only [Effect.sends,packets_multicast,Multiset.mem_coe,List.mem_map] at flying
  obtain ⟨member,inside,rfl⟩ := flying
  exact .ask rfl rfl inside

theorem found_here (rest : Resting i reader b) {entity : DataEntity}
    (row : (b.servers reader).database.findById key = some entity) (valid : entity.Valid) : Found b key entity.data :=
  ⟨reader,rest.member,rest.server,entity,row,valid,rfl⟩

/-- Whoever has the value is asked for it. -/
theorem asked_promising (lacks : (b.servers reader).database.findById key = none) (exist : ∃ data, Found b key data) :
    ∃ packet ∈ packets b.members reader (some i) (Effect.multicast (.askData key)).sends, Promising b reader key packet := by
  obtain ⟨_,holder,inside,server,entity,stored,valid,_⟩ := exist
  have different : holder ≠ reader := by
    rintro rfl
    cases lacks.symm.trans stored
  refine ⟨⟨holder,reader,.regular (.askData key),some i⟩,?_,.ask rfl rfl server different stored valid⟩
  simp only [Effect.sends,packets_multicast,Multiset.mem_coe,List.mem_map]
  exact ⟨holder,inside,rfl⟩

theorem Seeking.thread (seeking : Seeking b i reader key s) (rest : Resting i reader b)
    (clean : (∀ entity, (b.servers reader).database.findById key = some entity → entity.Valid) ∨ Found b key "")
    (exist : ∃ data, Found b key data) (move : step settings (.thread i .go) s = some t) : Seeking b i reader key t := by
  rcases seeking.call with rfl | ⟨call,here,going⟩
  · simp [step,rest.unused] at move
  have nothing {effect : Effect} (silent : effect.sends = []) (packet : Packet)
      (flying : packet ∈ packets b.members reader (some i) effect.sends) : Carried b reader key packet := by
    simp [silent] at flying
  have read := going.read
  have answer := going.answer
  cases going.stage with
  | looking at_pc same quiet =>
    rw [at_pc] at answer
    cases row : (b.servers reader).database.findById key with
    | none =>
      refine seeking.goes here going answer .skip .sendAskData ?_ (nothing rfl) move fun _ network => ?_
      · simp only [next,read,at_pc,same,row]
      · exact .asking rfl row (by simp [network,quiet,Effect.sends])
    | some entity =>
      by_cases valid : entity.Valid
      · refine seeking.goes here going answer .skip (.answered (some entity.toDto)) ?_ (nothing rfl) move
          fun _ _ => .answered rfl (found_here rest row valid)
        simp only [next,read,at_pc,same,row]
        rw [if_neg valid]
      · refine seeking.goes here going answer .skip (.answered none) ?_ (nothing rfl) move
          fun _ _ => .answered rfl (clean.resolve_left fun all => valid (all entity row))
        simp only [next,read,at_pc,same,row]
        rw [if_pos (Classical.not_not.mp valid)]
  | asking at_pc lacks quiet =>
    rw [at_pc] at answer
    refine seeking.goes here going answer (.multicast (.askData key)) .putWaiting ?_ asked_carried move fun _ network => ?_
    · simp only [next,read,at_pc]
    · obtain ⟨packet,sent,promising⟩ := asked_promising lacks exist
      exact .asked rfl ⟨packet,network ▸ Multiset.mem_add.mpr (.inr sent),promising⟩
  | asked at_pc hope =>
    rw [at_pc] at answer
    refine seeking.goes here going answer (.putWaiting key) .testData ?_ (nothing rfl) move fun servers network => ?_
    · simp only [next,read,at_pc]
    · obtain ⟨packet,flying,promising⟩ := hope
      refine .waiting (.inl rfl) fun _ => ⟨?_,packet,?_,promising⟩
      · simp [servers,Effect.apply]
      · rw [network]
        exact Multiset.mem_add.mpr (.inl flying)
  | waiting at_pc hope =>
    have kept (servers : t.servers reader = Effect.skip.apply i (s.servers reader))
        (network : t.network = s.network + packets b.members reader (some i) Effect.skip.sends)
        (waits : call.responseReceived = false) :
        (t.servers reader).waitingData key = some i ∧ ∃ packet ∈ t.network, Promising b reader key packet := by
      obtain ⟨registered,packet,flying,promising⟩ := hope waits
      exact ⟨by rw [servers]; exact registered,packet,by simpa [network,Effect.sends] using flying,promising⟩
    rcases at_pc with at_pc | at_pc
    · rw [at_pc] at answer
      cases flag : call.responseReceived with
      | true =>
        refine seeking.goes here going answer .skip .saveCopy ?_ (nothing rfl) move fun _ _ => .saving rfl flag
        simp [next,read,at_pc,flag]
      | false =>
        refine seeking.goes here going answer .skip .sleepRead ?_ (nothing rfl) move fun servers network => ?_
        · simp [next,read,at_pc,flag]
        · exact .waiting (.inr rfl) fun waits => kept servers network waits
    · rw [at_pc] at answer
      refine seeking.goes here going answer .skip .testData ?_ (nothing rfl) move fun servers network => ?_
      · simp only [next,read,at_pc]
      · exact .waiting (.inl rfl) fun waits => kept servers network waits
  | saving at_pc flag =>
    rw [at_pc] at answer
    cases response : call.response with
    | none => exact absurd response (going.received flag)
    | some dataDto =>
      refine seeking.goes here going answer (.save (.ofDto dataDto)) (.removeWaiting (some dataDto)) ?_ (nothing rfl) move
        fun _ _ => .removing rfl (going.response _ response).1 (going.response _ response).2
      simp only [next,read,at_pc,response]
  | @removing dataDto at_pc same found =>
    rw [at_pc] at answer
    refine seeking.goes here going answer (.removeWaiting key) (.answered (some dataDto)) ?_ (nothing rfl) move
      fun _ _ => .answered rfl found
    simp only [next,read,at_pc]
  | answered at_pc found =>
    have stuck : next settings (s.servers call.server).numberOfParticipants
        ((s.servers call.server).database.findById call.request.key) call .go = none := by
      simp [next,read,at_pc]
    simp [step,here,stuck] at move

/-! ### Deliveries -/

/-- Whether the reader still waits, and what for. -/
def Hope (b : State) (i : Nat) (reader : SpreadGroup) (key : String) (s : State) : Prop :=
  (s.servers reader).waitingData key = some i ∧ ∃ packet ∈ s.network, Promising b reader key packet

/-- A delivery leaves a read where it stands. -/
theorem Going.delivered {call call' : Call} (going : Going b i reader key s call) (registered : ¬ Unregistered call.pc)
    (server : call'.server = call.server) (request : call'.request = call.request) (pc : call'.pc = call.pc)
    (answer : call'.answer = call.answer)
    (response : ∀ dataDto, call'.response = some dataDto → dataDto.key = key ∧ Found b key dataDto.data)
    (received : call'.responseReceived = true → call'.response ≠ none)
    (kept : call.responseReceived = true → call'.responseReceived = true)
    (hope : call'.responseReceived = false → Hope b i reader key s → Hope b i reader key t) :
    Going b i reader key t call' := by
  refine ⟨server.trans going.server,request.trans going.read,by rw [answer,pc,request]; exact going.answer,response,received,?_⟩
  cases going.stage with
  | looking here | asking here | asked here => exact absurd (by simp [here,Unregistered]) registered
  | waiting here hopes =>
    refine .waiting (by rw [pc]; exact here) fun waits => hope waits (hopes ?_)
    rw [Bool.eq_false_iff]
    intro flag
    rw [kept flag] at waits
    cases waits
  | saving here flag => exact .saving (pc.trans here) (kept flag)
  | removing here same found => exact .removing (pc.trans here) same found
  | answered here found => exact .answered (pc.trans here) found

theorem notify_silent (sends : List Send) (silent : acknowledges sends = false) (packet : Packet) (call : Call) :
    notify sends [] packet true i call = call := by
  simp [notify,silent]

/-- The delivery of an ASK_DATA. -/
theorem Seeking.asked {packet : Packet} {outcome : Outcome} {call : Call} (seeking : Seeking b i reader key s)
    (here : s.calls i = some call) (going : Going b i reader key s call) (registered : ¬ Unregistered call.pc)
    (body : packet.body = .regular (.askData key)) (sender : packet.sender = reader) (member : packet.receiver ∈ b.members)
    (server : isService packet.receiver = false) (delivered : Delivered settings packet outcome s t) :
    Seeking b i reader key t := by
  obtain ⟨flying,handles,members,at_receiver,elsewhere,calls,network⟩ := delivered
  rw [body] at handles
  -- The handler changes nothing, and answers where it has a valid row.
  have does : outcome.manager = s.servers packet.receiver ∧ outcome.callbacks = [] ∧
      (outcome.sends = [] ∧ (packet.receiver ≠ reader → ∀ entity,
          (s.servers packet.receiver).database.findById key = some entity → ¬ entity.Valid) ∨
        packet.receiver ≠ reader ∧ ∃ entity, (s.servers packet.receiver).database.findById key = some entity ∧ entity.Valid ∧
          outcome.sends = [.unicast (.askDataResponse entity.toDto) reader]) := by
    subst handles
    simp only [messageReceived,askData,sender]
    split
    case isTrue own => exact ⟨rfl,rfl,.inl ⟨rfl,fun other => absurd own.symm other⟩⟩
    case isFalse foreign =>
      split
      next entity row =>
        split
        case isTrue fits =>
          have valid : entity.Valid := by rcases fits with fits | fits <;> simp [DataEntity.Valid,fits]
          exact ⟨rfl,rfl,.inr ⟨Ne.symm foreign,entity,row,valid,rfl⟩⟩
        case isFalse unfit =>
          refine ⟨rfl,rfl,.inl ⟨rfl,fun _ other same => ?_⟩⟩
          cases row.symm.trans same
          intro valid
          rcases flag : entity.invalidate with _ | _ | _ <;> simp_all [DataEntity.Valid]
      next row => exact ⟨rfl,rfl,.inl ⟨rfl,fun _ _ same => by cases row.symm.trans same⟩⟩
  obtain ⟨unchanged,callbacks,sends⟩ := does
  have servers (other : SpreadGroup) : t.servers other = s.servers other := by
    by_cases same : other = packet.receiver
    · rw [same,at_receiver,unchanged]
    · exact elsewhere other same
  have silent : acknowledges outcome.sends = false := by
    rcases sends with ⟨none,_⟩ | ⟨_,entity,_,_,one⟩
    · rw [none]; rfl
    · rw [one]; rfl
  have still : t.calls i = some call := by
    rw [calls,here,callbacks,Option.map_some,notify_silent _ silent]
  refine ⟨members.trans seeking.members,fun other different => (servers other).trans (seeking.others other different),?_,
    .inr ⟨call,still,going.delivered registered rfl rfl rfl rfl going.response going.received id fun _ hope => ?_⟩⟩
  · intro other flies
    rw [network] at flies
    rcases Multiset.mem_add.mp flies with before | new
    · exact seeking.carried other (Multiset.mem_of_mem_erase before)
    · rcases sends with ⟨none,_⟩ | ⟨different,entity,row,valid,one⟩
      · simp [none] at new
      · rw [one,packets_unicast,Multiset.mem_singleton] at new
        subst new
        rw [seeking.others _ different] at row
        exact .response rfl rfl (Database.findById_key row) ⟨_,member,server,entity,row,valid,rfl⟩
  · obtain ⟨waits,other,flies,promising⟩ := hope
    refine ⟨by rw [servers]; exact waits,?_⟩
    rw [network]
    by_cases same : other = packet
    · subst same
      cases promising with
      | @ask entity _ _ _ different stored valid =>
        rw [← seeking.others _ different] at stored
        rcases sends with ⟨_,nobody⟩ | ⟨_,entity',row,_,one⟩
        · exact absurd valid (nobody different entity stored)
        · refine ⟨⟨reader,other.receiver,.regular (.askDataResponse entity'.toDto),other.call⟩,?_,.response rfl rfl⟩
          rw [one,packets_unicast]
          exact Multiset.mem_add.mpr (.inr (Multiset.mem_singleton_self _))
      | response response => cases body.symm.trans response
    · exact ⟨other,Multiset.mem_add.mpr (.inl ((Multiset.mem_erase_of_ne same).mpr flies)),promising⟩

/-- The delivery of an ASK_DATA_RESPONSE. -/
theorem Seeking.responded {packet : Packet} {outcome : Outcome} {call : Call} {dataDto : DataDto}
    (seeking : Seeking b i reader key s) (here : s.calls i = some call) (going : Going b i reader key s call)
    (registered : ¬ Unregistered call.pc) (body : packet.body = .regular (.askDataResponse dataDto))
    (receiver : packet.receiver = reader) (same : dataDto.key = key) (found : Found b key dataDto.data)
    (delivered : Delivered settings packet outcome s t) : Seeking b i reader key t := by
  obtain ⟨flying,handles,members,at_receiver,elsewhere,calls,network⟩ := delivered
  rw [body,receiver] at handles
  have silent : outcome.sends = [] := by
    subst handles
    simp only [messageReceived,askDataResponse]
    split <;> rfl
  have others (other : SpreadGroup) (different : other ≠ reader) : t.servers other = b.servers other := by
    rw [elsewhere other (receiver ▸ different),seeking.others other different]
  have carried (other : Packet) (flies : other ∈ t.network) : Carried b reader key other := by
    rw [network,silent,packets_nil,add_zero] at flies
    exact seeking.carried other (Multiset.mem_of_mem_erase flies)
  by_cases mine : (s.servers reader).waitingData key = some i
  · -- The reader takes the value.
    have callbacks : outcome.callbacks = [.dataReceived i dataDto] := by
      subst handles
      simp only [messageReceived,askDataResponse,same,mine]
    have now : t.calls i = some { call with response := some dataDto, responseReceived := true } := by
      rw [calls,here,callbacks,silent]
      simp [notify,invoke,acknowledges]
    refine ⟨members.trans seeking.members,others,carried,.inr ⟨_,now,going.delivered registered rfl rfl rfl rfl ?_ ?_ ?_ ?_⟩⟩
    · intro dataDto' response
      cases response
      exact ⟨same,found⟩
    · exact fun _ => Option.some_ne_none _
    · exact fun _ => rfl
    · intro waits
      cases waits
  · have now : t.calls i = some call := by
      rw [calls,here,silent]
      subst handles
      simp only [messageReceived,askDataResponse,same]
      split
      next owner waiting =>
        have other : owner ≠ i := by
          rintro rfl
          exact mine waiting
        simp [notify,invoke,acknowledges,other]
      next => simp [notify,acknowledges,Outcome.unchanged]
    refine ⟨members.trans seeking.members,others,carried,.inr ⟨_,now,?_⟩⟩
    exact going.delivered registered rfl rfl rfl rfl going.response going.received id fun _ hope => absurd hope.1 mine

theorem Seeking.deliver (seeking : Seeking b i reader key s) (rest : Resting i reader b) {packet : Packet}
    (registered : ∃ call, s.calls i = some call ∧ ¬ Unregistered call.pc)
    (move : step settings (.deliver packet true) s = some t) : Seeking b i reader key t := by
  obtain ⟨call,here,notAsking⟩ := registered
  have going : Going b i reader key s call := by
    rcases seeking.call with rfl | ⟨call',here',going⟩
    · cases rest.unused.symm.trans here
    · cases here.symm.trans here'
      exact going
  cases service : isService packet.receiver with
  | false =>
    obtain ⟨outcome,delivered⟩ := step_delivered service move
    cases seeking.carried packet delivered.flying with
    | ask body sender member => exact seeking.asked here going notAsking body sender member service delivered
    | response body receiver same found => exact seeking.responded here going notAsking body receiver same found delivered
  | true =>
    obtain ⟨_,rfl⟩ := step_service service move
    refine ⟨seeking.members,seeking.others,fun other flies => seeking.carried other (Multiset.mem_of_mem_erase flies),
      .inr ⟨call,here,going.delivered notAsking rfl rfl rfl rfl going.response going.received id fun _ hope => ?_⟩⟩
    obtain ⟨waits,other,flies,promising⟩ := hope
    refine ⟨waits,other,(Multiset.mem_erase_of_ne ?_).mpr flies,promising⟩
    rintro rfl
    cases promising with
    | ask _ _ server => simp [service] at server
    | response _ receiver => simp [receiver,rest.server] at service

theorem Seeking.step {a : Action} (seeking : Seeking b i reader key s) (rest : Resting i reader b)
    (clean : (∀ entity, (b.servers reader).database.findById key = some entity → entity.Valid) ∨ Found b key "")
    (exist : ∃ data, Found b key data) (lone : Lone i reader key s a) (move : step settings a s = some t) :
    Seeking b i reader key t := by
  cases a with
  | call j server request =>
    obtain ⟨rfl,rfl,rfl⟩ := lone
    obtain ⟨unused,_,rfl⟩ := step_started move
    rcases seeking.call with rfl | ⟨call,here,_⟩
    · refine ⟨rfl,fun _ _ => rfl,seeking.carried,.inr ⟨_,Function.update_self ..,rfl,rfl,?_,?_,?_,?_⟩⟩
      · simp [Call.start,rest.startedUp,Pc.answer?]
      · intro dataDto response
        cases response
      · intro flag
        cases flag
      · exact .looking rfl rfl rest.quiet
    · cases unused.symm.trans here
  | thread j choice =>
    obtain ⟨rfl,rfl⟩ := lone
    exact seeking.thread rest clean exist move
  | deliver packet sent =>
    obtain ⟨rfl,registered⟩ := lone
    exact seeking.deliver rest registered move
  | view | boot => exact lone.elim

/-! ### The read comes to its end -/

/-- A question can become an answer. -/
def weight (packet : Packet) : Nat :=
  match packet.body with
  | .regular (.askData _) => 2
  | _ => 1

/-- The steps of the read that are left when it has what it waits for. -/
def rank : Pc → Nat
  | .putWaiting => 5
  | .sleepRead => 4
  | .testData => 3
  | .saveCopy => 2
  | .removeWaiting _ => 1
  | _ => 0

/-- What is left to be done before the read answers. -/
def effort (b : State) (i : Nat) (s : State) : Nat :=
  match s.calls i with
  | none => 10 * (2 * b.members.length + 1) + 2
  | some call =>
    match call.pc with
    | .findLocal => 10 * (2 * b.members.length + 1) + 1
    | .sendAskData => 10 * (2 * b.members.length + 1)
    | pc => 10 * (s.network.map weight).sum + rank pc

theorem effort_later {call : Call} (here : s.calls i = some call) (later : call.pc ≠ .findLocal ∧ call.pc ≠ .sendAskData) :
    effort b i s = 10 * (s.network.map weight).sum + rank call.pc := by
  simp only [effort,here]
  split
  next first => exact absurd first later.1
  next second => exact absurd second later.2
  next => rfl

/-- The read can take a step when it has one. -/
theorem Going.can_go {call : Call} (here : s.calls i = some call) (going : Going b i reader key s call) {effect : Effect}
    {pc : Pc} (moved : next settings (s.servers reader).numberOfParticipants
      ((s.servers reader).database.findById key) call .go = some (effect,pc)) :
    ∃ t, Restrict (Lone i reader key) (Steps (step settings)) s (.thread i .go) t ∧ t.calls i = some (call.goto pc) ∧
      t.network = s.network + packets s.members reader (some i) effect.sends := by
  have key_eq : call.request.key = key := by rw [going.read]; rfl
  rw [← going.server,← key_eq] at moved
  have move := step_thread here moved
  exact ⟨_,⟨⟨rfl,rfl⟩,move⟩,Function.update_self ..,by rw [← going.server]⟩

theorem sum_erase {network : Multiset Packet} {packet : Packet} (flying : packet ∈ network) :
    ((network.erase packet).map weight).sum + weight packet = (network.map weight).sum := by
  obtain ⟨rest,rfl⟩ := Multiset.exists_cons_of_mem flying
  rw [Multiset.erase_cons_head,Multiset.map_cons,Multiset.sum_cons,Nat.add_comm]

theorem askData_sends (self : LeaderManager) (me sender : SpreadGroup) (key : String) : (askData self me sender key).sends = [] ∨
    ∃ dataDto, (askData self me sender key).sends = [.unicast (.askDataResponse dataDto) sender] := by
  unfold askData
  repeat' split
  all_goals first
    | exact .inl rfl
    | exact .inr ⟨_,rfl⟩

theorem askDataResponse_sends (self : LeaderManager) (dataDto : DataDto) : (askDataResponse self dataDto).sends = [] := by
  unfold askDataResponse
  split <;> rfl

/-- What is delivered to a server weighs more than what is sent back. -/
theorem delivered_weight {packet : Packet} {outcome : Outcome} (carried : Carried b reader key packet)
    (delivered : Delivered settings packet outcome s t) : (t.network.map weight).sum < (s.network.map weight).sum := by
  have before := sum_erase delivered.flying
  rw [delivered.network,Multiset.map_add,Multiset.sum_add,← delivered.handles]
  cases carried with
  | ask body sender member =>
    have heavy : weight packet = 2 := by rw [weight,body]
    rw [body]
    simp only [messageReceived]
    rcases askData_sends (s.servers packet.receiver) packet.receiver packet.sender key with none | ⟨dataDto,one⟩
    · rw [none,packets_nil,Multiset.map_zero,Multiset.sum_zero]
      omega
    · rw [one,packets_unicast,Multiset.map_singleton,Multiset.sum_singleton]
      simp only [weight]
      omega
  | @response dataDto body receiver same found =>
    have light : weight packet = 1 := by rw [weight,body]
    rw [body]
    simp only [messageReceived]
    rw [askDataResponse_sends,packets_nil,Multiset.map_zero,Multiset.sum_zero]
    omega

/-- A read that waits can be brought what it waits for. -/
theorem Seeking.can_hope (seeking : Seeking b i reader key s) (rest : Resting i reader b) {call : Call}
    (here : s.calls i = some call) (waits : call.pc = .testData ∨ call.pc = .sleepRead) (hope : Hope b i reader key s) :
    ∃ a t, Restrict (Lone i reader key) (Steps (Cluster.step settings)) s a t ∧ effort b i t < effort b i s := by
  obtain ⟨-,packet,flying,promising⟩ := hope
  have server : isService packet.receiver = false := by
    cases promising with
    | ask _ _ server => exact server
    | response _ receiver => rw [receiver]; exact rest.server
  obtain ⟨t,move⟩ : ∃ t, Cluster.step settings (.deliver packet true) s = some t := by
    simp only [Cluster.step,if_pos flying,server]
    exact ⟨_,rfl⟩
  obtain ⟨outcome,delivered⟩ := step_delivered server move
  have lighter := delivered_weight (seeking.carried packet flying) delivered
  have lone : Lone i reader key s (.deliver packet true) :=
    ⟨rfl,call,here,by rcases waits with at_pc | at_pc <;> simp [at_pc,Unregistered]⟩
  refine ⟨_,t,⟨lone,move⟩,?_⟩
  have now := delivered.calls i
  rw [here,Option.map_some] at now
  have pc := notify_pc outcome.sends outcome.callbacks packet true i call
  rw [effort_later here (by rcases waits with at_pc | at_pc <;> simp [at_pc]),
    effort_later now (by rw [pc]; rcases waits with at_pc | at_pc <;> simp [at_pc]),pc]
  omega

/-- A read that has not answered has a step that brings it nearer to its end. -/
theorem Seeking.progress (seeking : Seeking b i reader key s) (rest : Resting i reader b)
    (unanswered : ¬ ∃ call answer, s.calls i = some call ∧ call.answer = some answer) :
    ∃ a t, Restrict (Lone i reader key) (Steps (Cluster.step settings)) s a t ∧ effort b i t < effort b i s := by
  rcases seeking.call with rfl | ⟨call,here,going⟩
  · obtain ⟨t,begins,now⟩ : ∃ t, Cluster.step settings (.call i reader (.read key)) s = some t ∧
        t.calls i = some (Call.start (s.servers reader).waitStartupDataUpdate reader (.read key)) := by
      rw [Cluster.step,if_pos ⟨rest.unused,rest.server⟩]
      exact ⟨_,rfl,Function.update_self ..⟩
    refine ⟨.call i reader (.read key),t,⟨⟨rfl,rfl,rfl⟩,begins⟩,?_⟩
    simp [effort,rest.unused,now,Call.start]
  have goes (effect : Effect) (pc : Pc) (moved : next settings (s.servers reader).numberOfParticipants
      ((s.servers reader).database.findById key) call .go = some (effect,pc))
      (less : ∀ t : State, t.calls i = some (call.goto pc) →
        t.network = s.network + packets s.members reader (some i) effect.sends → effort b i t < effort b i s) :
      ∃ a t, Restrict (Lone i reader key) (Steps (Cluster.step settings)) s a t ∧ effort b i t < effort b i s := by
    obtain ⟨t,move,now,network⟩ := going.can_go here moved
    exact ⟨_,t,move,less t now network⟩
  have later (effect : Effect) (pc : Pc) (silent : effect.sends = []) (first : call.pc ≠ .findLocal ∧ call.pc ≠ .sendAskData)
      (second : pc ≠ .findLocal ∧ pc ≠ .sendAskData) (lower : rank pc < rank call.pc) (t : State)
      (now : t.calls i = some (call.goto pc))
      (network : t.network = s.network + packets s.members reader (some i) effect.sends) : effort b i t < effort b i s := by
    rw [effort_later here first,effort_later now second,network,silent]
    simpa using lower
  have read := going.read
  cases going.stage with
  | looking at_pc same quiet =>
    cases row : (b.servers reader).database.findById key with
    | none =>
      refine goes .skip .sendAskData (by simp only [next,read,at_pc,same,row]) fun t now _ => ?_
      simp [effort,here,at_pc,now]
    | some entity =>
      refine goes .skip (.answered _) (by simp only [next,read,at_pc,same,row]; rfl) fun t now network => ?_
      rw [effort_later now (by simp),network]
      simp [effort,here,at_pc,quiet,Effect.sends,rank]
  | asking at_pc _ quiet =>
    refine goes (.multicast (.askData key)) .putWaiting (by simp only [next,read,at_pc]) fun t now network => ?_
    rw [effort_later now (by simp),network,quiet]
    have questions : ((packets s.members reader (some i) (Effect.multicast (.askData key)).sends).map weight).sum =
        2 * b.members.length := by
      simp [Effect.sends,weight,seeking.members,Function.comp_def,Nat.mul_comm]
    simp only [effort,here,at_pc,rank,goto_pc,zero_add,questions]
    omega
  | asked at_pc _ =>
    refine goes (.putWaiting key) .testData (by simp only [next,read,at_pc]) (later _ _ rfl (by simp [at_pc]) (by simp) ?_)
    simp [at_pc,rank]
  | waiting at_pc hope =>
    cases flag : call.responseReceived with
    | false => exact seeking.can_hope rest here at_pc (hope flag)
    | true =>
      rcases at_pc with at_pc | at_pc
      · refine goes .skip .saveCopy (by simp [next,read,at_pc,flag]) (later _ _ rfl (by simp [at_pc]) (by simp) ?_)
        simp [at_pc,rank]
      · refine goes .skip .testData (by simp only [next,read,at_pc]) (later _ _ rfl (by simp [at_pc]) (by simp) ?_)
        simp [at_pc,rank]
  | saving at_pc flag =>
    cases response : call.response with
    | none => exact absurd response (going.received flag)
    | some dataDto =>
      refine goes (.save (.ofDto dataDto)) (.removeWaiting (some dataDto)) (by simp only [next,read,at_pc,response])
        (later _ _ rfl (by simp [at_pc]) (by simp) ?_)
      simp [at_pc,rank]
  | @removing dataDto at_pc _ _ =>
    refine goes (.removeWaiting key) (.answered (some dataDto)) (by simp only [next,read,at_pc])
      (later _ _ rfl (by simp [at_pc]) (by simp) ?_)
    simp [at_pc,rank]
  | @answered response at_pc _ =>
    exact absurd ⟨call,_,here,by rw [going.answer,at_pc,read]; rfl⟩ unanswered

/-- With an invalidated row of its own the reader answers at once. -/
theorem answers_nothing (rest : Resting i reader b) {entity : DataEntity}
    (row : (b.servers reader).database.findById key = some entity) (invalid : ¬ entity.Valid) :
    ∃ t call, LoneRun settings i reader key b [.call i reader (.read key),.thread i .go] t ∧ t.calls i = some call ∧
      call.answer = some (.data key "") := by
  let call := Call.start (b.servers reader).waitStartupDataUpdate reader (.read key)
  let s : State := { b with calls := Function.update b.calls i (some call) }
  have begins : Cluster.step settings (.call i reader (.read key)) b = some s := by
    rw [Cluster.step,if_pos ⟨rest.unused,rest.server⟩]
  have here : s.calls i = some call := Function.update_self ..
  have moved : next settings (s.servers call.server).numberOfParticipants
      ((s.servers call.server).database.findById call.request.key) call .go = some (.skip,.answered none) := by
    have same : (s.servers call.server).database.findById call.request.key = some entity := row
    rw [same]
    simp only [next,call,Call.start]
    rw [if_pos (Classical.not_not.mp invalid)]
  have goes := step_thread here moved
  refine ⟨_,call.goto (.answered none),(Run.single ⟨⟨rfl,rfl,rfl⟩,begins⟩).append (Run.single ⟨⟨rfl,rfl⟩,goes⟩),
    Function.update_self ..,?_⟩
  simp [Call.goto,call,Call.start,rest.startedUp,Pc.answer?,Request.key]

end

/-- In every state without a message in flight, for a key that some server of the
    group holds: a read of it that is issued alone at a server that has finished
    startup finds a value that is held exactly as long as that server has no
    invalidated row of the key (or the empty value is held itself). -/
theorem reads_find (settings : Settings) (i : Nat) (reader : SpreadGroup) (key : String) (b : State) (rest : Resting i reader b)
    (exist : ∃ data, Found b key data) : Finds settings i reader key b ↔
      (∀ entity, (b.servers reader).database.findById key = some entity → entity.Valid) ∨ Found b key "" := by
  constructor
  · intro finds
    by_contra neither
    push Not at neither
    obtain ⟨⟨entity,row,invalid⟩,empty⟩ := neither
    obtain ⟨t,call,run,here,answer⟩ : ∃ t call, LoneRun settings i reader key b [.call i reader (.read key),.thread i .go] t ∧
        t.calls i = some call ∧ call.answer = some (.data key "") := answers_nothing rest row invalid
    obtain ⟨data,same,found⟩ := finds.right _ t call _ run here answer
    cases same
    exact empty found
  · intro clean
    have seeking {acts : List Action} {s : State} (run : LoneRun settings i reader key b acts s) : Seeking b i reader key s :=
      run.always (seeking_start rest) fun _ _ _ seeking move => seeking.step rest clean exist move.1 move.2
    constructor
    · intro acts s call answer run here answered
      rcases (seeking run).call with rfl | ⟨call',here',going⟩
      · cases rest.unused.symm.trans here
      cases here.symm.trans here'
      cases going.stage with
      | @answered response at_pc found =>
        have same := going.answer.symm.trans answered
        rw [at_pc,going.read] at same
        cases response with
        | none => exact ⟨_,(Option.some.inj same).symm,found⟩
        | some dataDto => exact ⟨_,(Option.some.inj same).symm,found⟩
      | looking at_pc | asking at_pc | asked at_pc | saving at_pc | removing at_pc =>
        have none := going.answer
        rw [at_pc,answered] at none
        cases none
      | waiting at_pc =>
        have none := going.answer
        rcases at_pc with at_pc | at_pc <;> rw [at_pc,answered] at none <;> cases none
    · intro acts s run
      let goal := fun t : State => ∃ call answer, t.calls i = some call ∧ call.answer = some answer
      have progress : ∀ s, Seeking b i reader key s → ¬ goal s → ∃ a t,
          Restrict (Lone i reader key) (Steps (step settings)) s a t ∧ Seeking b i reader key t ∧ effort b i t < effort b i s := by
        intro s seeking unanswered
        obtain ⟨a,t,move,less⟩ : ∃ a t, Restrict (Lone i reader key) (Steps (step settings)) s a t ∧ effort b i t < effort b i s :=
          seeking.progress rest unanswered
        exact ⟨a,t,move,seeking.step rest clean exist move.1 move.2,less⟩
      obtain ⟨more,t,finishes,_,call,answer,here,answered⟩ := Run.reach _ progress (seeking run)
      exact ⟨more,t,call,answer,finishes,here,answered⟩

/-- Packets to both servers and the configuration service. -/
def toAll (sender : SpreadGroup) (i : Nat) (message : Message) : List Action :=
  [service,server1,server2].map fun member => .deliver ⟨member,sender,.regular message,some i⟩ true

/-- Server1 writes a value, and Server2 reads it. -/
def shared : List Action :=
  helpedEachOther ++ .call 0 server1 (.write ⟨"k","a"⟩) :: goOn 0 4 ++ toAll server1 0 (.wantToWrite ⟨"k","a"⟩) ++
    [.deliver ⟨server1,server2,.regular (.wantToWriteResponse "k"),some 0⟩ true] ++ goOn 0 4 ++
    toAll server1 0 (.dataWritten "k") ++
    .call 1 server2 (.read "k") :: goOn 1 3 ++ toAll server2 1 (.askData "k") ++
    [.deliver ⟨server2,server1,.regular (.askDataResponse ⟨"k","a"⟩),some 1⟩ true] ++ goOn 1 3

/-- The wait of a second write at Server1 expires before anybody has handled its
    WANT_TO_WRITE. -/
def aborted : List Action :=
  shared ++ .call 2 server1 (.write ⟨"k","b"⟩) :: goOn 2 6 ++ .thread 2 .expires :: goOn 2 2 ++
    toAll server1 2 (.wantToWrite ⟨"k","b"⟩) ++ toAll server1 2 (.revalidateData "k") ++
    [.deliver ⟨server1,server2,.regular (.wantToWriteResponse "k"),some 2⟩ true]

theorem reads_find_shared :
    ∃ b, Run (Restrict (Joins .properties) (Steps (step .properties))) vacant shared b ∧ Finds .properties 3 server1 "k" b := by
  obtain ⟨b,run,quiet,unused,members,started,row⟩ := exists_run_of_exec (step .properties) (JoinsLast .properties)
    (fun b => b.network = 0 ∧ b.calls 3 = none ∧ b.members = [service,server1,server2] ∧
      (b.servers server1).waitStartupDataUpdate = false ∧
      (b.servers server1).database.findById "k" = some ⟨"k",none,"a"⟩) vacant shared (by decide +kernel)
  have rest : Resting 3 server1 b := ⟨quiet,unused,by simp [members],by decide,started⟩
  have found : Found b "k" "a" := ⟨server1,rest.member,rest.server,_,row,by decide,rfl⟩
  refine ⟨b,run.mono fun _ _ _ move => ⟨move.1.joins,move.2⟩,(reads_find .properties 3 server1 "k" b rest ⟨_,found⟩).mpr ?_⟩
  refine .inl fun entity same => ?_
  cases row.symm.trans same
  decide

/-- Server1 keeps its own row invalidated, and a read there finds nothing
    although Server2 holds the value. -/
theorem reads_miss :
    ¬ ∀ (settings : Settings) (i : Nat) (reader : SpreadGroup) (key : String) (start b : State) (acts : List Action),
      Vacant start → Run (Restrict (Joins settings) (Steps (step settings))) start acts b →
      (∀ j call, b.calls j = some call → call.pc.Done) → Resting i reader b → (∃ data, Found b key data) →
      Finds settings i reader key b := by
  intro finds
  obtain ⟨b,run,quiet,finished,members,started,own,others⟩ := exists_run_of_exec (step .properties)
    (fun s a => JoinsLast .properties s a ∧ Numbered 3 a)
    (fun b => b.network = 0 ∧ (∀ j ∈ List.range 3, ∀ call ∈ (b.calls j).toList, call.pc.Done) ∧
      b.members = [service,server1,server2] ∧ (b.servers server1).waitStartupDataUpdate = false ∧
      (b.servers server1).database.findById "k" = some ⟨"k",some true,"a"⟩ ∧
      (b.servers server2).database.findById "k" = some ⟨"k",some false,"a"⟩) vacant aborted (by decide +kernel)
  have below : Below 3 b.calls := run.always (P := fun s => Below 3 s.calls) (fun _ _ => rfl)
    fun _ _ _ below move => below_step below move.1.2 move.2
  have rest : Resting 3 server1 b := ⟨quiet,below 3 le_rfl,by simp [members],by decide,started⟩
  have exist : ∃ data, Found b "k" data := ⟨"a",server2,by simp [members],by decide,_,others,by decide,rfl⟩
  have done : ∀ j call, b.calls j = some call → call.pc.Done := by
    intro j call here
    rcases Nat.lt_or_ge j 3 with small | large
    · exact finished j (List.mem_range.mpr small) call (by simp [here])
    · cases (below j large).symm.trans here
  have joining := run.mono fun s a t (move : Restrict _ _ s a t) => (⟨move.1.1.joins,move.2⟩ : Restrict (Joins _) _ s a t)
  have found := finds .properties 3 server1 "k" vacant b aborted vacant_vacant joining done rest exist
  obtain ⟨t,call,missed,here,answer⟩ : ∃ t call, LoneRun .properties 3 server1 "k" b _ t ∧ t.calls 3 = some call ∧
    call.answer = some (.data "k" "") := answers_nothing rest own (by decide)
  obtain ⟨data,same,server,inside,isServer,entity,row,valid,rfl⟩ := found.right _ t call _ missed here answer
  -- What is held is not the empty value.
  rw [members] at inside
  have held : entity.data = "a" := by
    rcases List.mem_cons.mp inside with rfl | inside
    · exact absurd isServer (by decide)
    rcases List.mem_pair.mp inside with rfl | rfl
    · cases own.symm.trans row
      rfl
    · cases others.symm.trans row
      rfl
  rw [held] at same
  exact absurd same (by decide)

end CdPraticas.Finding
