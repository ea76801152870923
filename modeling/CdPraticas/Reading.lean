import CdPraticas.Operations

/-!
# A read on its own

A read that runs alone answers with the value of the map and leaves copies of
no other value.
-/

namespace CdPraticas.Reading
open Groups Store Messages Handlers Calls Cluster Keys Runs Rounds Operations

/-- The reader has no copy of its own. -/
def Lacking : Pc → Prop
  | .sendAskData | .putWaiting | .testData | .sleepRead => True
  | _ => False
/-- The reader has asked the others. -/
def Awaiting : Pc → Prop
  | .putWaiting | .testData | .sleepRead => True
  | _ => False
/-- The reader waits for an answer. -/
def Listening : Pc → Prop
  | .testData | .sleepRead => True
  | _ => False
/-- The callback of the reader may be registered. -/
def Registered : Pc → Prop
  | .testData | .sleepRead | .saveCopy | .removeWaiting _ => True
  | _ => False
/-- The result of the read, once it has one. -/
def result? : Pc → Option (Option DataDto)
  | .removeWaiting response | .answered response => some response
  | _ => none

section
variable {settings : Settings} {group : Group} {key : String} {value : Option String} {i : Nat} {v v' : KeyView}

/-- While read `i` is alone. -/
structure Alone (group : Group) (key : String) (value : Option String) (i : Nat) (v : KeyView) : Prop where
  holds : Holds group (fun server => (v.held server).row) value
  only : ∀ j call, v.calls j = some call → j = i
  request : ∀ call, v.calls i = some call → call.request = .read key
  current : ∀ packet ∈ v.network, ∀ dataDto, packet.body = .regular (.askDataResponse dataDto) → value = some dataDto.data
  response : ∀ call dataDto, v.calls i = some call → call.response = some dataDto → value = some dataDto.data
  flag : ∀ call, v.calls i = some call → call.responseReceived = true → call.response ≠ none
  lacking : ∀ call, v.calls i = some call → Lacking call.pc → (v.held call.server).row = none
  awaited : ∀ call, v.calls i = some call → Awaiting call.pc → ∀ other ∈ group.others call.server, ∀ entity,
    (v.held other).row = some entity → call.responseReceived = true ∨
      ∃ packet ∈ v.network, packet.body = .regular (.askData key) ∧ packet.receiver = other ∨
        ∃ dataDto, packet.body = .regular (.askDataResponse dataDto)
  listening : ∀ call, v.calls i = some call → Listening call.pc → call.responseReceived = false →
    (v.held call.server).waiting = some i
  registered : ∀ call server j, v.calls i = some call → (v.held server).waiting = some j → Registered call.pc
  saving : ∀ call, v.calls i = some call → call.pc = .saveCopy → call.responseReceived = true
  result : ∀ call response, v.calls i = some call → result? call.pc = some response →
    value = response.map DataDto.data

theorem Alone.of_started (blank : Blank v) (holds : Holds group (fun server => (v.held server).row) value)
    (startingUp : Bool) (server : SpreadGroup) :
    Alone group key value i (v.started i (.start startingUp server (.read key))) := by
  have start : ∀ {call}, (v.started i (.start startingUp server (.read key))).calls i = some call →
      call = .start startingUp server (.read key) := by
    intro call found
    rw [started_self] at found
    exact (Option.some.inj found).symm
  refine ⟨holds,?_,?_,?_,?_,?_,?_,?_,?_,?_,?_,?_⟩
  · intro j call found
    rcases started_cases found with ⟨same,_⟩ | ⟨_,found⟩
    · exact same
    · rw [blank.calls] at found
      cases found
  · intro call found
    rw [start found]
    rfl
  · intro packet flying
    rw [started_network,blank.network] at flying
    simp at flying
  · intro call dataDto found response
    rw [start found] at response
    cases response
  · intro call found flag
    rw [start found] at flag
    cases flag
  · intro call found lacking
    rw [start found] at lacking
    exact lacking.elim
  · intro call found awaiting
    rw [start found] at awaiting
    exact awaiting.elim
  · intro call found listening
    rw [start found] at listening
    exact listening.elim
  · intro call g j found waiting
    rw [started_held,blank.waiting] at waiting
    cases waiting
  · intro call found here
    rw [start found] at here
    cases here
  · intro call response found result
    rw [start found] at result
    cases result

/-! ### The steps of a read -/

section
variable {participants : Int} {stored : Option DataEntity} {call : Call} {choice : Choice} {effect : Effect} {pc : Pc}

theorem move_lacking (move : Move settings participants stored call choice effect pc) (lacking : Lacking pc) :
    Lacking call.pc ∨ stored = none := by
  cases move <;> simp_all [Lacking]
theorem move_awaiting (move : Move settings participants stored call choice effect pc) (read : call.request = .read key)
    (awaiting : Awaiting pc) : Awaiting call.pc ∨ effect = .multicast (.askData key) := by
  cases move <;> simp_all [Awaiting]
theorem move_listening (move : Move settings participants stored call choice effect pc)
    (listening : Listening pc) : (Listening call.pc ∧ effect = .skip) ∨ ∃ key, effect = .putWaiting key := by
  cases move <;> simp_all [Listening]
theorem move_registered (move : Move settings participants stored call choice effect pc) (registered : Registered call.pc) :
    Registered pc ∨ ∃ key, effect = .removeWaiting key := by
  cases move <;> simp_all [Registered]
theorem move_saving (move : Move settings participants stored call choice effect pc) (saving : pc = .saveCopy) :
    call.responseReceived = true := by
  cases move <;> simp_all

/-- The only row that a read changes is its server's, when it saves the answer. -/
theorem move_row (move : Move settings participants stored call choice effect pc) (read : call.request = .read key)
    (i : Nat) (held : Fields) : (access i held effect).row = held.row ∨
      ∃ dataDto, call.response = some dataDto ∧ (access i held effect).row = some (.ofDto dataDto) ∧
        pc = .removeWaiting (some dataDto) := by
  cases move with
  | saveCopy _ _ response => exact .inr ⟨_,response,rfl,rfl⟩
  | saveAlone write _ | saveInvalidate write _ | saveData write _ | deleteById write _ _ => rw [read] at write; cases write
  | _ => exact .inl rfl

/-- A read sends nothing but its ASK_DATA. -/
theorem move_sends (move : Move settings participants stored call choice effect pc) (read : call.request = .read key) :
    effect.sends = [] ∨ effect = .multicast (.askData key) := by
  cases move <;> simp_all [Effect.sends]

/-- Where the result of a read comes from. -/
theorem move_result (move : Move settings participants stored call choice effect pc) (read : call.request = .read key)
    (sent : choice ≠ .fails) {response : Option DataDto} (result : result? pc = some response) :
    result? call.pc = some response ∨
    (∃ localData, stored = some localData ∧
      response = if localData.invalidate = some true then none else some localData.toDto) ∨
    (call.pc = .sleepRead ∧ choice = .expires ∧ response = none) ∨
    (call.pc = .saveCopy ∧ response = call.response) := by
  cases move <;> simp_all [result?]
end

/-- When nobody answers, there is nothing to answer with. -/
theorem Alone.nothing (alone : Alone group key value i v) {call : Call}
    (found : v.calls i = some call) (here : call.pc = .sleepRead) (nobody : NobodyAnswers v call) : value = none := by
  obtain ⟨silent,none⟩ := nobody
  have noOwn := alone.lacking call found (by rw [here]; trivial)
  by_contra some
  obtain ⟨data,stored⟩ := Option.ne_none_iff_exists'.mp some
  obtain ⟨server,member,entity,row⟩ := alone.holds.stored data stored
  have elsewhere : server ≠ call.server := by
    rintro rfl
    rw [noOwn] at row
    cases row
  have other := Group.mem_others.mpr ⟨member,elsewhere⟩
  rcases alone.awaited call found (by rw [here]; trivial) server other entity row with flag | ⟨packet,flying,asked⟩
  · rw [silent] at flag
    cases flag
  · have kind := none packet flying
    rcases asked with ⟨body,rfl⟩ | ⟨dataDto,body⟩
    · rw [body] at kind
      exact kind entity row (alone.holds.copies _ member entity row).1
    · rw [body] at kind
      exact kind

theorem Alone.of_moved (alone : Alone group key value i v) (sound : Sound group key v) {call : Call} {choice : Choice}
    {effect : Effect} {pc : Pc} (found : v.calls i = some call)
    (move : Move settings group.members.length (v.held call.server).row call choice effect pc)
    (attended : Attended i v (.thread i choice)) : Alone group key value i (v.moved group i call effect pc) := by
  have read := alone.request call found
  have located := sound.located i call found
  have now : ∀ {other}, (v.moved group i call effect pc).calls i = some other → other = call.goto pc := by
    intro other was
    rw [moved_self] at was
    exact (Option.some.inj was).symm
  have kept : ∀ {packet}, packet ∈ v.network → packet ∈ (v.moved group i call effect pc).network :=
    fun flying => Multiset.mem_add.mpr (.inl flying)
  have sent : choice ≠ .fails := by
    rintro rfl
    rcases attended.2 with wrong | ⟨wrong,_⟩ <;> cases wrong
  -- The rows are those of before, or the reader has just saved the value.
  have holds : Holds group (fun server => ((v.moved group i call effect pc).held server).row) value := by
    rcases move_row move read i (v.held call.server) with same | ⟨dataDto,response,row,_⟩
    · have rows : ∀ server, ((v.moved group i call effect pc).held server).row = (v.held server).row := by
        intro server
        by_cases here : server = call.server
        · subst here
          rw [moved_held_self,same]
        · rw [moved_held_ne _ _ _ here]
      simpa [rows] using alone.holds
    · have current := alone.response call dataDto found response
      have own : ((v.moved group i call effect pc).held call.server).row = some (.ofDto dataDto) := by
        rw [moved_held_self,row]
      refine ⟨fun server member entity stored => ?_,fun data _ => ⟨call.server,located,_,own⟩⟩
      by_cases here : server = call.server
      · subst here
        rw [own] at stored
        cases stored
        exact ⟨valid_ofDto dataDto,current⟩
      · rw [moved_held_ne _ _ _ here] at stored
        exact alone.holds.copies server member entity stored
  refine ⟨holds,?_,?_,?_,?_,?_,?_,?_,?_,?_,?_,?_⟩
  · intro j other was
    rcases moved_cases was with ⟨same,_⟩ | ⟨_,was⟩
    · exact same
    · exact alone.only j other was
  · intro other was
    rw [now was]
    exact read
  · intro packet inside dataDto body
    rcases Multiset.mem_add.mp inside with flying | new
    · exact alone.current packet flying dataDto body
    · rcases move_sends move read with silent | rfl
      · rw [silent] at new
        simp at new
      · obtain ⟨_,_,rfl⟩ := List.mem_map.mp (Multiset.mem_coe.mp (by simpa [Effect.sends] using new))
        cases body
  · intro other dataDto was response
    rw [now was] at response
    exact alone.response call dataDto found response
  · intro other was flag
    rw [now was] at flag ⊢
    exact alone.flag call found flag
  · intro other was lacking
    rw [now was] at lacking ⊢
    rw [goto_server,moved_held_self]
    have noRow : (v.held call.server).row = none :=
      (move_lacking move lacking).elim (alone.lacking call found) id
    rcases move_row move read i (v.held call.server) with same | ⟨_,_,_,done⟩
    · rw [same,noRow]
    · rw [goto_pc,done] at lacking
      exact lacking.elim
  · intro other was awaiting server member entity row
    rw [now was] at awaiting member ⊢
    rw [goto_server] at member
    obtain ⟨serverIn,elsewhere⟩ := Group.mem_others.mp member
    rw [moved_held_ne _ _ _ elsewhere] at row
    rcases move_awaiting move read awaiting with before | rfl
    · rcases alone.awaited call found before server member entity row with flag | ⟨packet,flying,asked⟩
      · exact .inl flag
      · exact .inr ⟨packet,kept flying,asked⟩
    · refine .inr ⟨⟨server,call.server,.regular (.askData key),some i⟩,?_,.inl ⟨rfl,rfl⟩⟩
      rw [moved_network,Effect.sends,packets_multicast]
      refine Multiset.mem_add.mpr (.inr ?_)
      exact Multiset.mem_coe.mpr (List.mem_map.mpr ⟨server,(Group.mem_servers.mp serverIn).1,rfl⟩)
  · intro other was listening flag
    rw [now was] at listening flag ⊢
    rw [goto_server,moved_held_self]
    rcases move_listening move listening with ⟨before,rfl⟩ | ⟨_,rfl⟩
    · exact alone.listening call found before flag
    · rfl
  · intro other server j was waiting
    rw [now was]
    have before : (v.held server).waiting = some j → ∃ owner, v.calls j = some owner ∧ owner.server = server := by
      intro waiting
      obtain ⟨owner,ownerFound,here,_⟩ := sound.waiting server j waiting
      exact ⟨owner,ownerFound,here⟩
    by_cases here : server = call.server
    · subst here
      rw [moved_held_self] at waiting
      rcases access_waiting waiting with old | ⟨_,_,rfl⟩
      · rcases move_registered move (alone.registered call _ j found old) with registered | ⟨_,rfl⟩
        · exact registered
        · cases waiting
      · cases move
        trivial
    · rw [moved_held_ne _ _ _ here] at waiting
      obtain ⟨owner,ownerFound,there⟩ := before waiting
      rw [alone.only j owner ownerFound,found] at ownerFound
      cases ownerFound
      exact absurd there.symm here
  · intro other was here
    rw [now was] at here ⊢
    have flag := move_saving move here
    exact flag
  · intro other response was result
    rw [now was] at result
    rcases move_result move read sent result with before | ⟨localData,stored,rfl⟩ | ⟨here,rfl,rfl⟩ | ⟨here,rfl⟩
    · exact alone.result call response found before
    · obtain ⟨valid,current⟩ := alone.holds.copies _ located localData stored
      rw [if_neg valid,current]
      rfl
    · obtain ⟨caller,callerFound,_,nobody⟩ := (attended.2.resolve_left (by simp)).2
      rw [found] at callerFound
      cases callerFound
      exact alone.nothing found here nobody
    · have some := alone.flag call found (alone.saving call found here)
      obtain ⟨dataDto,response⟩ := Option.ne_none_iff_exists'.mp some
      rw [response,alone.response call dataDto found response]
      rfl

theorem Alone.of_dropped (alone : Alone group key value i v) {packet : Packet}
    (service : isService packet.receiver = true) (formed : Formed group v) (sound : Sound group key v)
    (flying : packet ∈ v.network) : Alone group key value i (v.dropped packet) := by
  refine ⟨alone.holds,alone.only,alone.request,fun other inside => alone.current other (Multiset.mem_of_mem_erase inside),
    alone.response,alone.flag,alone.lacking,?_,alone.listening,alone.registered,alone.saving,alone.result⟩
  intro call found awaiting server member entity row
  refine (alone.awaited call found awaiting server member entity row).imp_right ?_
  rintro ⟨other,inside,asked⟩
  refine ⟨other,(Multiset.mem_erase_of_ne ?_).mpr inside,asked⟩
  rintro rfl
  have answering : isService other.receiver = false := by
    rcases asked with ⟨_,rfl⟩ | ⟨dataDto,body⟩
    · exact (Group.mem_servers.mp (Group.mem_others.mp member).1).2
    · obtain ⟨_,_,_,j,caller,tag,callerFound⟩ := sound.flying other flying
      obtain ⟨_,receiver,_⟩ := formed.owned other flying _ j caller body tag callerFound
      rw [receiver]
      exact (Group.mem_servers.mp (sound.located j caller callerFound)).2
  rw [service] at answering
  cases answering

/-- Only ASK_DATA and its answers are in flight. -/
theorem Alone.kinds (alone : Alone group key value i v) (formed : Formed group v) (sound : Sound group key v)
    {packet : Packet} {message : Message} (flying : packet ∈ v.network) (body : packet.body = .regular message) :
    ∃ call, v.calls i = some call ∧ packet.call = some i ∧
      (message = .askData key ∧ packet.sender = call.server ∨
        ∃ dataDto, message = .askDataResponse dataDto ∧ packet.receiver = call.server) := by
  obtain ⟨_,_,⟨_,body',about⟩,j,call,tag,found⟩ := sound.flying packet flying
  rw [body] at body'
  cases body'
  obtain rfl := alone.only j call found
  have read := alone.request call found
  have fits := sound.fits j call found
  have owned := formed.owned packet flying message j call body tag found
  refine ⟨call,found,tag,?_⟩
  cases message with
  | askData _ =>
    cases about
    exact .inl ⟨rfl,owned.2⟩
  | askDataResponse dataDto => exact .inr ⟨dataDto,rfl,owned.2.1⟩
  | wantToWrite _ | writeConflict _ =>
    have write := owned.1
    rw [read] at write
    cases write
  | wantToWriteResponse _ =>
    obtain ⟨_,write⟩ := owned.1
    rw [read] at write
    cases write
  | dataWritten _ =>
    have saved := owned.2
    rw [read] at fits
    cases pc : call.pc <;> simp [pc,Pc.Saved,Pc.Fits] at saved fits
  | revalidateData _ =>
    have aborted := owned.2
    rw [read] at fits
    cases pc : call.pc <;> simp [pc,Pc.Aborted,Pc.Fits] at aborted fits
  | startupRequestUpdate _ | startupResponseUpdate _ => exact owned.elim

/-- What a delivery does while a read is alone: it only tells the read something. -/
theorem Alone.delivery (alone : Alone group key value i v) (formed : Formed group v) (sound : Sound group key v)
    {packet : Packet} {message : Message} {held : Fields} {sends : List Send} {callbacks : List Callback}
    (flying : packet ∈ v.network) (body : packet.body = .regular message)
    (handled : Handled settings group.members.length packet.receiver packet.sender (v.held packet.receiver) message held
      sends callbacks) :
    (message = .askData key ∧ held = v.held packet.receiver ∧ callbacks = [] ∧
      (sends = [] ∧ (packet.sender = packet.receiver ∨
          ∀ entity, (v.held packet.receiver).row = some entity → ¬ entity.Valid) ∨
        ∃ entity, (v.held packet.receiver).row = some entity ∧
          sends = [.unicast (.askDataResponse entity.toDto) packet.sender])) ∨
    ∃ dataDto, message = .askDataResponse dataDto ∧ sends = [] ∧
      ((v.held packet.receiver).waiting = none ∧ held = v.held packet.receiver ∧ callbacks = [] ∨
        (v.held packet.receiver).waiting = some i ∧ held = { v.held packet.receiver with waiting := none } ∧
          callbacks = [.dataReceived i dataDto]) := by
  obtain ⟨call,found,_,⟨rfl,sender⟩ | ⟨dataDto,rfl,_⟩⟩ := alone.kinds formed sound flying body
  · refine .inl ⟨rfl,?_⟩
    cases handled with
    | ignored why => exact ⟨rfl,rfl,.inl ⟨rfl,why⟩⟩
    | answered _ stored _ => exact ⟨rfl,rfl,.inr ⟨_,stored,rfl⟩⟩
  · refine .inr ⟨dataDto,rfl,?_⟩
    cases handled with
    | ignored why => exact ⟨rfl,.inl ⟨why,rfl,rfl⟩⟩
    | received waiting =>
      obtain ⟨reader,readerFound,_⟩ := sound.waiting _ _ waiting
      obtain rfl := alone.only _ reader readerFound
      exact ⟨rfl,.inr ⟨waiting,rfl,rfl⟩⟩

theorem Alone.of_handled (alone : Alone group key value i v) (formed : Formed group v) (sound : Sound group key v)
    {packet : Packet} {sent : Bool} {message : Message} {held : Fields} {sends : List Send} {callbacks : List Callback}
    (flying : packet ∈ v.network) (server : isService packet.receiver = false) (body : packet.body = .regular message)
    (handled : Handled settings group.members.length packet.receiver packet.sender (v.held packet.receiver) message held
      sends callbacks) (attended : Attended i v (.deliver packet sent)) :
    Alone group key value i (v.handled group packet sent held sends callbacks) := by
  obtain ⟨call,found,tag,kind⟩ := alone.kinds formed sound flying body
  obtain ⟨rfl,ready⟩ := attended
  have receiverIn : packet.receiver ∈ group.servers :=
    Group.mem_servers.mpr ⟨(sound.flying packet flying).1,server⟩
  have delivery := alone.delivery formed sound flying body handled
  have now : ∀ {other}, (v.handled group packet true held sends callbacks).calls i = some other →
      other = notify sends callbacks packet true i call := by
    intro other was
    obtain ⟨before,found',rfl⟩ := handled_cases was
    rw [found] at found'
    cases found'
    rfl
  have rows : ∀ g, ((v.handled group packet true held sends callbacks).held g).row = (v.held g).row := by
    intro g
    by_cases here : g = packet.receiver
    · subst here
      rw [handled_held_self]
      rcases delivery with ⟨_,rfl,_⟩ | ⟨_,_,_,⟨_,rfl,_⟩ | ⟨_,rfl,_⟩⟩ <;> rfl
    · rw [handled_held_ne _ _ _ _ _ here]
  -- The references only gain: the value, and the flag together with it.
  have references : ((notify sends callbacks packet true i call).responseReceived = call.responseReceived ∧
        (notify sends callbacks packet true i call).response = call.response) ∨
      ∃ dataDto, message = .askDataResponse dataDto ∧
        (notify sends callbacks packet true i call).responseReceived = true ∧
        (notify sends callbacks packet true i call).response = some dataDto := by
    obtain ⟨flag,response,_⟩ := notify_references sends callbacks packet true i call
    rw [flag,response]
    rcases delivery with ⟨_,_,rfl,_⟩ | ⟨dataDto,rfl,_,⟨_,_,rfl⟩ | ⟨_,_,rfl⟩⟩
    · exact .inl ⟨rfl,rfl⟩
    · exact .inl ⟨rfl,rfl⟩
    · exact .inr ⟨dataDto,rfl,by simp [invoke],by simp [invoke]⟩
  have flagKept : call.responseReceived = true → (notify sends callbacks packet true i call).responseReceived = true := by
    intro flag
    rcases references with ⟨same,_⟩ | ⟨_,_,set,_⟩
    · rw [same]
      exact flag
    · exact set
  refine ⟨by simpa [rows] using alone.holds,?_,?_,?_,?_,?_,?_,?_,?_,?_,?_,?_⟩
  · intro j other was
    obtain ⟨before,found',_⟩ := handled_cases was
    exact alone.only j before found'
  · intro other was
    rw [now was,notify_request]
    exact alone.request call found
  · intro other inside dataDto otherBody
    rcases Multiset.mem_add.mp inside with old | new
    · exact alone.current other (Multiset.mem_of_mem_erase old) dataDto otherBody
    · rcases delivery with ⟨_,_,_,⟨rfl,_⟩ | ⟨entity,stored,rfl⟩⟩ | ⟨_,_,rfl,_⟩
      · simp at new
      · rw [if_pos rfl,packets_unicast,Multiset.mem_singleton] at new
        subst new
        cases otherBody
        exact (alone.holds.copies _ receiverIn entity stored).2
      · simp at new
  · intro other dataDto was response
    rw [now was] at response
    rcases references with ⟨_,same⟩ | ⟨arrived,rfl,_,set⟩
    · exact alone.response call dataDto found (same ▸ response)
    · rw [set] at response
      cases response
      exact alone.current packet flying dataDto body
  · intro other was flag
    rw [now was] at flag ⊢
    rcases references with ⟨sameFlag,same⟩ | ⟨_,_,_,set⟩
    · rw [same]
      exact alone.flag call found (sameFlag ▸ flag)
    · simp [set]
  · intro other was lacking
    rw [now was] at lacking ⊢
    rw [notify_pc] at lacking
    rw [notify_server,rows]
    exact alone.lacking call found lacking
  · intro other was awaiting g member entity row
    rw [now was] at awaiting member ⊢
    rw [notify_pc] at awaiting
    rw [notify_server] at member
    rw [rows] at row
    rcases alone.awaited call found awaiting g member entity row with flag | ⟨asked,inside,how⟩
    · exact .inl (flagKept flag)
    · by_cases same : asked = packet
      · subst same
        rcases delivery with ⟨rfl,_,_,⟨_,why⟩ | ⟨stored,_,rfl⟩⟩ | ⟨dataDto,rfl,_,listening⟩
        · -- An other server with a copy would not have ignored the question.
          obtain ⟨memberIn,elsewhere⟩ := Group.mem_others.mp member
          rw [body] at how
          rcases how with ⟨_,rfl⟩ | ⟨_,wrong⟩
          · rcases kind with ⟨_,sender⟩ | ⟨_,wrong,_⟩
            · rcases why with own | invalid
              · exact absurd (own.symm.trans sender) elsewhere
              · exact absurd (alone.holds.copies _ memberIn entity row).1 (invalid entity row)
            · cases wrong
          · cases wrong
        · refine .inr ⟨⟨asked.sender,asked.receiver,.regular (.askDataResponse stored.toDto),asked.call⟩,?_,.inr ⟨_,rfl⟩⟩
          rw [handled_network,if_pos rfl,packets_unicast]
          exact Multiset.mem_add.mpr (.inr (Multiset.mem_singleton_self _))
        · refine .inl ?_
          have notPutting := ready ⟨dataDto,body⟩ call found
          have listens : Listening call.pc := by
            cases pc : call.pc <;> simp_all [Awaiting,Listening]
          by_cases flag : call.responseReceived = true
          · exact flagKept flag
          · have waiting := alone.listening call found listens (by simpa using flag)
            rcases kind with ⟨wrong,_⟩ | ⟨_,_,receiver⟩
            · cases wrong
            · rcases listening with ⟨none,_,_⟩ | ⟨_,_,rfl⟩
              · rw [receiver,waiting] at none
                cases none
              · rw [(notify_references _ _ _ _ _ _).1]
                simp [invoke]
      · exact .inr ⟨asked,Multiset.mem_add.mpr (.inl ((Multiset.mem_erase_of_ne same).mpr inside)),how⟩
  · intro other was listening flag
    rw [now was] at listening flag ⊢
    rw [notify_pc] at listening
    rw [notify_server]
    have silent : call.responseReceived = false := by
      by_contra set
      rw [flagKept (by simpa using set)] at flag
      cases flag
    have waiting := alone.listening call found listening silent
    by_cases here : call.server = packet.receiver
    · rw [here,handled_held_self]
      rw [here] at waiting
      rcases delivery with ⟨_,rfl,_⟩ | ⟨_,_,_,⟨_,rfl,_⟩ | ⟨_,_,rfl⟩⟩
      · exact waiting
      · exact waiting
      · rw [(notify_references _ _ _ _ _ _).1] at flag
        simp [invoke] at flag
    · rw [handled_held_ne _ _ _ _ _ here]
      exact waiting
  · intro other g j was waiting
    rw [now was,notify_pc]
    by_cases here : g = packet.receiver
    · subst here
      rw [handled_held_self] at waiting
      exact alone.registered call _ j found (handled.fields_kept.2.1 j waiting)
    · rw [handled_held_ne _ _ _ _ _ here] at waiting
      exact alone.registered call g j found waiting
  · intro other was here
    rw [now was] at here ⊢
    rw [notify_pc] at here
    exact flagKept (alone.saving call found here)
  · intro other response was result
    rw [now was,notify_pc] at result
    exact alone.result call response found result

theorem Alone.step {a : Action} (alone : Alone group key value i v) (formed : Formed group v) (sound : Sound group key v)
    (attended : Attended i v a) (step : KeyStep settings group key v a v') : Alone group key value i v' := by
  cases step with
  | elsewhere _ => exact alone
  | call _ _ _ => exact attended.elim
  | thread found move =>
    obtain rfl := attended.1
    exact alone.of_moved sound found move attended
  | service flying ignoring => exact alone.of_dropped ignoring formed sound flying
  | deliver flying server body handled => exact alone.of_handled formed sound flying server body handled attended

/-- What holds while a read runs on its own. -/
theorem read_underway {s t : State} {server : SpreadGroup} (quiet : Quiet group s)
    (holds : Holds group (fun server => (s.servers server).database.findById key) value)
    (underway : Underway settings group s i server (.read key) t) :
    Alone group key value i (view key t) ∧ Formed group (view key t) ∧ Answered group (view key t) := by
  obtain ⟨⟨acts,run⟩,_⟩ := underway_view quiet underway (show (Request.read key).key = key from rfl)
  have blank := quiet_blank quiet key
  have sound := quiet.fixed.sound key
  refine run.always (P := fun v => Alone group key value i v ∧ Formed group v ∧ Answered group v)
    ⟨.of_started blank holds _ server,(quiet_formed quiet).of_started sound _ (blank.calls i),.of_started blank⟩ ?_
  rintro v a v' ⟨alone,formed,answered⟩ ⟨sound,attended,step⟩
  exact ⟨alone.step formed sound attended step,formed.step sound step,answered.step step⟩

/-- A read that has run alone answers with the value, and the databases still hold it. -/
theorem read_leaves {s t : State} {server : SpreadGroup} (quiet : Quiet group s)
    (startedUp : ∀ server ∈ group.servers, group.startingUp server = false)
    (holds : Holds group (fun server => (s.servers server).database.findById key) value)
    (performed : Performed settings group s i server (.read key) t) :
    Leaves group (view key t) i (.data key (value.getD "")) value := by
  obtain ⟨alone,_,final⟩ := read_underway quiet holds performed.underway
  obtain ⟨_,_,fixed,_,call,found,done⟩ := performed_view quiet performed (show (Request.read key).key = key from rfl)
  have read := alone.request call found
  have fits := (fixed.sound key).fits i call found
  obtain ⟨response,here⟩ : ∃ response, call.pc = .answered response := by
    rw [read] at fits
    cases pc : call.pc <;> simp [pc,Pc.Fits,Pc.Done] at fits done
    exact ⟨_,rfl⟩
  refine ⟨⟨call,found,?_⟩,fun j other was => ?_,alone.holds,fun g => ?_,fun g => ?_⟩
  · rw [final i call found (startedUp _ ((fixed.sound key).located i call found)),here,read,
      alone.result call response found (by rw [here]; rfl)]
    cases response <;> rfl
  · obtain rfl := alone.only j other was
    rw [found] at was
    cases was
    exact ⟨rfl,done⟩
  · by_contra some
    obtain ⟨j,waiting⟩ := Option.ne_none_iff_exists'.mp some
    have registered := alone.registered call g j found waiting
    rw [here] at registered
    exact registered
  · by_contra some
    obtain ⟨wanted,slot⟩ := Option.ne_none_iff_exists'.mp some
    obtain ⟨writer,writerFound,_,_,write⟩ := (fixed.sound key).wanting g wanted slot
    rw [alone.only _ writer writerFound,found] at writerFound
    cases writerFound
    rw [read] at write
    cases write

end

end CdPraticas.Reading
