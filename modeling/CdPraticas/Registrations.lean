import CdPraticas.Provenance

/-!
# Who is registered while a call waits

`waitingData` and `wantToWriteData` have one slot for each key, which the client
threads of a server share. A call that waits finds its answer only through its
own callback in that slot: others that register or clean up under the key while
it waits take the slot from it.
-/

namespace CdPraticas.Registrations
open Groups Store Messages Calls Runs Programs Listeners Provenance
open Handlers (Settings LeaderManager Outcome Callback WantToWriteData)
open Cluster (notify invoke)
open Keys (notify_server notify_request notify_pc notify_answer notify_flag)

/-- The call registered in `waitingData` of a server. -/
def waiting (s : Threads) (server : SpreadGroup) (key : String) : Option Nat := (s.cluster.servers server).waitingData key

/-- The call registered in its `wantToWriteData`. -/
def writing (s : Threads) (server : SpreadGroup) (key : String) : Option Nat :=
  ((s.cluster.servers server).wantToWriteData key).map WantToWriteData.callback

/-- A call has sent its question and has not been handed an answer. -/
def Waits (call : Call) : Prop :=
  call.responseReceived = false ∧ (call.pc = .putWaiting ∨ call.pc = .testData ∨ call.pc = .sleepRead ∨
    call.pc = .testResponse ∨ call.pc = .sleepWrite ∨ call.pc = .testConflict)

/-- The callback registered under its key is its own. -/
def Own (s : Threads) (i : Nat) (call : Call) : Prop :=
  match call.request with
  | .read key => waiting s call.server key = some i
  | .write dataDto => writing s call.server dataDto.key = some i

/-- Read `i` has registered and waits. -/
def Reading (s : Threads) (server : SpreadGroup) (key : String) (i : Nat) : Prop :=
  ∃ call, s.cluster.calls i = some call ∧ call.server = server ∧ call.request = .read key ∧
    call.responseReceived = false ∧ (call.pc = .testData ∨ call.pc = .sleepRead)

/-- Write `i` has sent its WANT_TO_WRITE and waits. -/
def Writing (s : Threads) (server : SpreadGroup) (key : String) (i : Nat) : Prop :=
  ∃ call dataDto, s.cluster.calls i = some call ∧ call.server = server ∧ call.request = .write dataDto ∧ dataDto.key = key ∧
    call.responseReceived = false ∧ (call.pc = .testResponse ∨ call.pc = .sleepWrite ∨ call.pc = .testConflict)

/-- The key whose reader an access removes. -/
def removes {α : Type} : Access α → Option String
  | .removeWaiting key => some key
  | _ => none

/-- The same for the next access of a handler. -/
def removesNext : Handler Unit → Option String
  | .make access _ => removes access
  | .result _ => none

/-- Calls and handlers put and remove callbacks under a key only while no call of
    that kind waits on it, and a write sends its question while it is registered. -/
def Undisturbed (s : Threads) : Event → Prop
  | .thread i choice => ∀ call, s.cluster.calls i = some call →
    match call.request, call.pc with
    | .read key, .putWaiting | .read key, .removeWaiting _ => ∀ j, ¬ Reading s call.server key j
    | .write dataDto, .putWantToWrite | .write dataDto, .removeWantToWrite _ => ∀ j, ¬ Writing s call.server dataDto.key j
    | .write dataDto, .sendWantToWrite => choice = .go → call.responseReceived = false →
      writing s call.server dataDto.key = some i
    | _, _ => True
  | .listen server _ => ∀ key, (s.listening server).bind (fun busy => removesNext busy.handler) = some key →
    ∀ j, ¬ Reading s server key j
  | _ => True

/-! ### What a step does to the slots -/

/-- The slot of the readers of `key` after an access of call `i`, -/
def readerSlot (i : Nat) (key : String) (held : Option Nat) : Effect → Option Nat
  | .putWaiting put => if key = put then some i else held
  | .removeWaiting gone => if key = gone then none else held
  | _ => held

/-- and that of the writers. -/
def writerSlot (i : Nat) (key : String) (held : Option Nat) : Effect → Option Nat
  | .putWantToWrite put => if key = put then some i else held
  | .removeWantToWrite gone => if key = gone then none else held
  | _ => held

theorem apply_waitingData (effect : Effect) (i : Nat) (self : LeaderManager) (key : String) :
    (effect.apply i self).waitingData key = readerSlot i key (self.waitingData key) effect := by
  cases effect <;> simp [Effect.apply,readerSlot,Function.update_apply,LeaderManager.save,LeaderManager.deleteById]

theorem apply_wantToWriteData (effect : Effect) (i : Nat) (self : LeaderManager) (key : String) :
    ((effect.apply i self).wantToWriteData key).map WantToWriteData.callback =
      writerSlot i key ((self.wantToWriteData key).map WantToWriteData.callback) effect := by
  cases effect with
  | putWantToWrite put | removeWantToWrite put =>
    simp only [Effect.apply,writerSlot,Function.update_apply]
    split_ifs <;> rfl
  | _ => rfl

/-- An access of a listener thread leaves the registered writers as they are, -/
theorem perform_writing {α : Type} (access : Access α) (self : LeaderManager) (key : String) :
    ((perform access (.unchanged self)).1.manager.wantToWriteData key).map WantToWriteData.callback =
      (self.wantToWriteData key).map WantToWriteData.callback := by
  cases access with
  | increment counted found =>
    by_cases same : self.wantToWriteData counted = some found
    · by_cases here : key = counted
      · subst here
        simp [perform,Outcome.unchanged,same]
      · simp [perform,Outcome.unchanged,same,here]
    · simp [perform,Outcome.unchanged,same]
  | _ => rfl

/-- and the readers, unless it removes one. -/
theorem perform_reading {α : Type} (access : Access α) (self : LeaderManager) (key : String) :
    (perform access (.unchanged self)).1.manager.waitingData key =
      if removes access = some key then none else self.waitingData key := by
  cases access with
  | removeWaiting gone => simp [perform,Outcome.unchanged,removes,Function.update_apply,eq_comm]
  | increment counted found =>
    by_cases same : self.wantToWriteData counted = some found <;> simp [perform,Outcome.unchanged,same,removes]
  | _ => rfl

/-- What was received is not taken back. -/
theorem notify_received {sends : List Send} {callbacks : List Callback} {packet : Packet} {sent : Bool} {i : Nat} {call : Call}
    (none : (notify sends callbacks packet sent i call).responseReceived = false) : call.responseReceived = false := by
  by_contra set
  rw [notify_flag sends callbacks packet sent i call (by simpa using set)] at none
  cases none

/-- What a step does to the slots and the calls, as far as waiting goes. -/
inductive SlotStep (settings : Settings) (s : Threads) : Event → Threads → Prop
  | call {i server request t} (startingUp : Bool) (new : s.cluster.calls i = none)
      (calls : t.cluster.calls = Function.update s.cluster.calls i (some (.start startingUp server request)))
      (readers : waiting t = waiting s) (writers : writing t = writing s) : SlotStep settings s (.call i server request) t
  | thread {i choice call participants stored effect pc t} (found : s.cluster.calls i = some call)
      (moved : Move settings participants stored call choice effect pc)
      (calls : t.cluster.calls = Function.update s.cluster.calls i (some (call.goto pc)))
      (readers : ∀ server key, waiting t server key =
        if server = call.server then readerSlot i key (waiting s server key) effect else waiting s server key)
      (writers : ∀ server key, writing t server key =
        if server = call.server then writerSlot i key (writing s server key) effect else writing s server key) :
      SlotStep settings s (.thread i choice) t
  | view {info t} (calls : t.cluster.calls = s.cluster.calls) (readers : waiting t = waiting s)
      (writers : writing t = writing s) : SlotStep settings s (.view info) t
  | receive {packet t} (calls : t.cluster.calls = s.cluster.calls) (readers : waiting t = waiting s)
      (writers : writing t = writing s) : SlotStep settings s (.receive packet) t
  | boot {server t} (calls : ∀ i, t.cluster.calls i = (s.cluster.calls i).filter fun call => call.server ≠ server)
      (readers : ∀ other key, waiting t other key = if other = server then none else waiting s other key)
      (writers : ∀ other key, writing t other key = if other = server then none else writing s other key) :
      SlotStep settings s (.boot server) t
  | listen {server sent t} (told : Nat → Call → Call)
      (calls : ∀ i, t.cluster.calls i = (s.cluster.calls i).map (told i))
      (same : ∀ i call, (told i call).server = call.server ∧ (told i call).request = call.request ∧ (told i call).pc = call.pc ∧
        (told i call).answer = call.answer ∧ ((told i call).responseReceived = false → call.responseReceived = false))
      (readers : ∀ other key, waiting t other key =
        if other = server ∧ (s.listening server).bind (fun busy => removesNext busy.handler) = some key then none
        else waiting s other key)
      (writers : writing t = writing s) : SlotStep settings s (.listen server sent) t

section
variable {settings : Settings} {s t : Threads}

theorem slotStep_thread {i : Nat} {choice : Choice} (move : Listeners.step settings (.thread i choice) s = some t) :
    SlotStep settings s (.thread i choice) t := by
  obtain ⟨call,effect,pc,found,nexts,rfl⟩ := step_thread move
  refine .thread found (next_move nexts) rfl (fun server key => ?_) fun server key => ?_
  · by_cases here : server = call.server
    · subst here
      simpa [waiting] using apply_waitingData effect i (s.cluster.servers call.server) key
    · simp [waiting,here]
  · by_cases here : server = call.server
    · subst here
      simpa [writing] using apply_wantToWriteData effect i (s.cluster.servers call.server) key
    · simp [writing,here]

theorem slotStep_boot {server : SpreadGroup} (move : Listeners.step settings (.boot server) s = some t) :
    SlotStep settings s (.boot server) t := by
  obtain rfl := step_boot move
  refine .boot (fun _ => rfl) (fun other key => ?_) fun other key => ?_
  · by_cases here : other = server
    · subst here
      simp [waiting,LeaderManager.initial]
    · simp [waiting,here]
  · by_cases here : other = server
    · subst here
      simp [writing,LeaderManager.initial]
    · simp [writing,here]

theorem slotStep_listen {server : SpreadGroup} {sent : Bool} (move : Listeners.step settings (.listen server sent) s = some t) :
    SlotStep settings s (.listen server sent) t := by
  rcases step_listen move with ⟨packet,value,busy,rfl⟩ | ⟨packet,α,access,rest,busy,rfl⟩
  · exact .listen (fun _ call => call) (fun i => by simp) (fun _ _ => ⟨rfl,rfl,rfl,rfl,id⟩)
      (fun _ _ => by simp [busy,removesNext,waiting]) rfl
  · refine .listen (notify (perform access (.unchanged (s.cluster.servers server))).1.sends
      (perform access (.unchanged (s.cluster.servers server))).1.callbacks packet sent) (fun i => listened_calls ..)
      (fun i call => ⟨notify_server ..,notify_request ..,notify_pc ..,notify_answer ..,notify_received⟩) (fun other key => ?_) ?_
    · by_cases here : other = server
      · subst here
        simpa [waiting,busy,removesNext] using perform_reading access (s.cluster.servers other) key
      · simp [waiting,here]
    · funext other key
      by_cases here : other = server
      · subst here
        simpa [writing] using perform_writing access (s.cluster.servers other) key
      · simp [writing,here]

theorem slotStep {event : Event} (move : Listeners.step settings event s = some t) : SlotStep settings s event t := by
  cases event with
  | call i server request =>
    obtain ⟨fresh,rfl⟩ := step_call move
    exact .call _ fresh rfl rfl rfl
  | thread i choice => exact slotStep_thread move
  | view info =>
    obtain rfl := step_view move
    exact .view rfl rfl rfl
  | boot server => exact slotStep_boot move
  | receive packet =>
    simp only [Listeners.step] at move
    split_ifs at move <;> cases move <;> exact .receive rfl rfl rfl
  | listen server sent => exact slotStep_listen move

end

/-! ### The registrations of those that wait -/

/-- A read has put its callback. -/
def Listed : Pc → Prop
  | .testData | .sleepRead | .saveCopy | .removeWaiting _ | .answered _ => True
  | _ => False

/-- Whoever is registered and waits is in its slot, and only reads that have put
    their callback are. -/
structure Registered (s : Threads) : Prop where
  readers : ∀ server key i, Reading s server key i → waiting s server key = some i
  writers : ∀ server key i, Writing s server key i → writing s server key = some i
  listed : ∀ server key i, waiting s server key = some i →
    ∃ call, s.cluster.calls i = some call ∧ call.server = server ∧ call.request = .read key ∧ Listed call.pc

section
variable {settings : Settings} {s t : Threads} {participants : Int} {stored : Option DataEntity} {call : Call} {choice : Choice}
  {effect : Effect} {pc : Pc}

/-- A read gets to its wait by putting its callback, and stays there without an access. -/
theorem move_reading (move : Move settings participants stored call choice effect pc) (waits : pc = .testData ∨ pc = .sleepRead) :
    (∃ key, call.request = .read key ∧ effect = .putWaiting key) ∨
      effect = .skip ∧ (call.pc = .testData ∨ call.pc = .sleepRead) := by
  cases move with
  | putWaiting read here => exact .inl ⟨_,read,rfl⟩
  | noData read here flag => exact .inr ⟨rfl,.inl here⟩
  | wakeRead read here => exact .inr ⟨rfl,.inr here⟩
  | _ => rcases waits with waits | waits <;> cases waits

/-- A write gets to its wait by sending its question. -/
theorem move_writing (move : Move settings participants stored call choice effect pc)
    (waits : pc = .testResponse ∨ pc = .sleepWrite ∨ pc = .testConflict) :
    (∃ dataDto, call.request = .write dataDto ∧ call.pc = .sendWantToWrite ∧ choice = .go ∧
        effect = .multicast (.wantToWrite dataDto)) ∨
      effect = .skip ∧ (call.pc = .testResponse ∨ call.pc = .sleepWrite ∨ call.pc = .testConflict) := by
  cases move with
  | sendWantToWrite write here => exact .inl ⟨_,write,here,rfl,rfl⟩
  | noResponses write here flag => exact .inr ⟨rfl,.inl here⟩
  | wakeWrite write here => exact .inr ⟨rfl,.inr (.inl here)⟩
  | noConflict write here flag => exact .inr ⟨rfl,.inr (.inr here)⟩
  | _ => rcases waits with waits | waits | waits <;> cases waits

theorem move_listed (move : Move settings participants stored call choice effect pc) (listed : Listed call.pc) : Listed pc := by
  cases move <;> simp_all [Listed]

/-- An access that takes the slot of a reader is a put or a removal under the key. -/
theorem readerSlot_kept {i j : Nat} {key : String} (move : Move settings participants stored call choice effect pc)
    (kept : ∀ other, call.request = .read other → (call.pc = .putWaiting ∨ ∃ response, call.pc = .removeWaiting response) → other ≠ key) :
    readerSlot i key (some j) effect = some j := by
  cases move with
  | putWaiting read here => exact if_neg (kept _ read (.inl here)).symm
  | removeWaiting read here => exact if_neg (kept _ read (.inr ⟨_,here⟩)).symm
  | _ => rfl

theorem writerSlot_kept {i j : Nat} {key : String} (move : Move settings participants stored call choice effect pc)
    (kept : ∀ dataDto, call.request = .write dataDto →
      (call.pc = .putWantToWrite ∨ ∃ exit, call.pc = .removeWantToWrite exit) → dataDto.key ≠ key) :
    writerSlot i key (some j) effect = some j := by
  cases move with
  | putWantToWrite write here => exact if_neg (kept _ write (.inl here)).symm
  | removeWantToWrite write here => exact if_neg (kept _ write (.inr ⟨_,here⟩)).symm
  | _ => rfl

theorem registered_fresh (fresh : Fresh s) : Registered s where
  readers := by
    rintro server key i ⟨call,found,_⟩
    cases (fresh.noCalls i).symm.trans found
  writers := by
    rintro server key i ⟨call,dataDto,found,_⟩
    cases (fresh.noCalls i).symm.trans found
  listed := by
    intro server key i here
    cases (fresh.noReaders server key).symm.trans here

/-- Where the calls that wait and the slots are as before, so are the registrations. -/
theorem Registered.same (registered : Registered s) (calls : t.cluster.calls = s.cluster.calls) (readers : waiting t = waiting s)
    (writers : writing t = writing s) : Registered t := by
  refine ⟨fun server key i reads => ?_,fun server key i writes => ?_,fun server key i here => ?_⟩
  · simp only [Reading,calls] at reads
    exact readers ▸ registered.readers server key i reads
  · simp only [Writing,calls] at writes
    exact writers ▸ registered.writers server key i writes
  · rw [calls]
    exact registered.listed server key i (readers ▸ here)

theorem Registered.of_call (registered : Registered s) {i : Nat} {server : SpreadGroup} {request : Request} (startingUp : Bool)
    (new : s.cluster.calls i = none)
    (calls : t.cluster.calls = Function.update s.cluster.calls i (some (.start startingUp server request)))
    (readers : waiting t = waiting s) (writers : writing t = writing s) : Registered t := by
  have before {j : Nat} {call : Call} (found : t.cluster.calls j = some call) (begun : call.pc ≠ .findLocal ∧ call.pc ≠ .writeData) :
      s.cluster.calls j = some call := by
    rw [calls] at found
    by_cases same : j = i
    · subst same
      cases found.symm.trans (Function.update_self ..)
      cases request
      · exact absurd rfl begun.1
      · exact absurd rfl begun.2
    · exact (Function.update_of_ne same ..).symm.trans found
  refine ⟨fun g key j => ?_,fun g key j => ?_,fun g key j here => ?_⟩
  · rintro ⟨call,found,rest,read,none,here⟩
    have old := before found (by rcases here with here | here <;> simp [here])
    exact readers ▸ registered.readers g key j ⟨call,old,rest,read,none,here⟩
  · rintro ⟨call,dataDto,found,rest,write,same,none,here⟩
    have old := before found (by rcases here with here | here | here <;> simp [here])
    exact writers ▸ registered.writers g key j ⟨call,dataDto,old,rest,write,same,none,here⟩
  · obtain ⟨call,found,rest⟩ := registered.listed g key j (readers ▸ here)
    have different : j ≠ i := by
      rintro rfl
      cases new.symm.trans found
    exact ⟨call,by rw [calls]; exact (Function.update_of_ne different ..).trans found,rest⟩

theorem Registered.of_thread (registered : Registered s) {i : Nat} (undisturbed : Undisturbed s (.thread i choice))
    (found : s.cluster.calls i = some call) (moved : Move settings participants stored call choice effect pc)
    (calls : t.cluster.calls = Function.update s.cluster.calls i (some (call.goto pc)))
    (readers : ∀ server key, waiting t server key =
      if server = call.server then readerSlot i key (waiting s server key) effect else waiting s server key)
    (writers : ∀ server key, writing t server key =
      if server = call.server then writerSlot i key (writing s server key) effect else writing s server key) : Registered t := by
  have allowed := undisturbed call found
  have other {j : Nat} {later : Call} (now : t.cluster.calls j = some later) (different : j ≠ i) : s.cluster.calls j = some later := by
    rw [calls] at now
    exact (Function.update_of_ne different ..).symm.trans now
  have own {later : Call} (now : t.cluster.calls i = some later) : later = call.goto pc := by
    rw [calls] at now
    exact Option.some.inj (now.symm.trans (Function.update_self ..))
  -- a call that already waited in `s` keeps its slot
  have keepsReader {server : SpreadGroup} {key : String} {j : Nat} (reads : Reading s server key j) : waiting t server key = some j := by
    have held := registered.readers server key j reads
    rw [readers,held]
    split_ifs with here
    · refine readerSlot_kept moved ?_
      rintro key' read at_pc rfl
      rcases at_pc with at_pc | ⟨response,at_pc⟩ <;> simp only [read,at_pc] at allowed <;> exact allowed j (here ▸ reads)
    · rfl
  have keepsWriter {server : SpreadGroup} {key : String} {j : Nat} (writes : Writing s server key j) : writing t server key = some j := by
    have held := registered.writers server key j writes
    rw [writers,held]
    split_ifs with here
    · refine writerSlot_kept moved ?_
      rintro dataDto write at_pc rfl
      rcases at_pc with at_pc | ⟨exit,at_pc⟩ <;> simp only [write,at_pc] at allowed <;> exact allowed j (here ▸ writes)
    · rfl
  refine ⟨fun server key j => ?_,fun server key j => ?_,fun server key j here => ?_⟩
  · rintro ⟨later,now,rfl,read,none,waits⟩
    by_cases same : j = i
    · subst same
      obtain rfl := own now
      rcases move_reading moved waits with ⟨put,read',rfl⟩ | ⟨_,waited⟩
      · have sameKey : put = key := by simpa [read'] using read
        rw [readers,if_pos (goto_server ..)]
        exact if_pos sameKey.symm
      · exact keepsReader ⟨call,found,rfl,read,none,waited⟩
    · exact keepsReader ⟨later,other now same,rfl,read,none,waits⟩
  · rintro ⟨later,dataDto,now,rfl,write,rfl,none,waits⟩
    by_cases same : j = i
    · subst same
      obtain rfl := own now
      rcases move_writing moved waits with ⟨asked,write',at_pc,go,rfl⟩ | ⟨_,waited⟩
      · have sameDto : asked = dataDto := by simpa [write'] using write
        simp only [write',at_pc] at allowed
        rw [writers,if_pos (goto_server ..)]
        exact sameDto ▸ allowed go none
      · exact keepsWriter ⟨call,dataDto,found,rfl,write,rfl,none,waited⟩
    · exact keepsWriter ⟨later,dataDto,other now same,rfl,write,rfl,none,waits⟩
  · rw [readers] at here
    have stays (old : waiting s server key = some j) : ∃ later, t.cluster.calls j = some later ∧ later.server = server ∧
        later.request = .read key ∧ Listed later.pc := by
      obtain ⟨before,was,rest,read,listed⟩ := registered.listed server key j old
      by_cases same : j = i
      · subst same
        cases found.symm.trans was
        exact ⟨call.goto pc,by rw [calls]; exact Function.update_self ..,rest,read,move_listed moved listed⟩
      · exact ⟨before,by rw [calls]; exact (Function.update_of_ne same ..).trans was,rest,read,listed⟩
    split_ifs at here with at_server
    · cases moved with
      | putWaiting read at_pc =>
        simp only [readerSlot] at here
        split_ifs at here with sameKey
        · cases here
          exact ⟨call.goto .testData,by rw [calls]; exact Function.update_self ..,at_server.symm,sameKey ▸ read,trivial⟩
        · exact stays here
      | removeWaiting read at_pc =>
        simp only [readerSlot] at here
        split_ifs at here
        exact stays here
      | _ => exact stays here
    · exact stays here

theorem Registered.of_boot (registered : Registered s) {server : SpreadGroup}
    (calls : ∀ i, t.cluster.calls i = (s.cluster.calls i).filter fun call => call.server ≠ server)
    (readers : ∀ other key, waiting t other key = if other = server then none else waiting s other key)
    (writers : ∀ other key, writing t other key = if other = server then none else writing s other key) : Registered t := by
  have before {j : Nat} {call : Call} (now : t.cluster.calls j = some call) : s.cluster.calls j = some call ∧ call.server ≠ server := by
    rw [calls] at now
    obtain ⟨was,elsewhere⟩ := Option.filter_eq_some_iff.mp now
    exact ⟨was,by simpa using elsewhere⟩
  refine ⟨fun g key j => ?_,fun g key j => ?_,fun g key j here => ?_⟩
  · rintro ⟨call,now,rfl,rest⟩
    obtain ⟨was,elsewhere⟩ := before now
    rw [readers,if_neg elsewhere]
    exact registered.readers _ key j ⟨call,was,rfl,rest⟩
  · rintro ⟨call,dataDto,now,rfl,rest⟩
    obtain ⟨was,elsewhere⟩ := before now
    rw [writers,if_neg elsewhere]
    exact registered.writers _ key j ⟨call,dataDto,was,rfl,rest⟩
  · rw [readers] at here
    split_ifs at here with elsewhere
    obtain ⟨call,was,rfl,rest⟩ := registered.listed g key j here
    exact ⟨call,by rw [calls,was]; simp [Option.filter,elsewhere],rfl,rest⟩

theorem Registered.of_listen (registered : Registered s) {server : SpreadGroup} {sent : Bool}
    (undisturbed : Undisturbed s (.listen server sent)) (told : Nat → Call → Call)
    (calls : ∀ i, t.cluster.calls i = (s.cluster.calls i).map (told i))
    (same : ∀ i call, (told i call).server = call.server ∧ (told i call).request = call.request ∧ (told i call).pc = call.pc ∧
      (told i call).answer = call.answer ∧ ((told i call).responseReceived = false → call.responseReceived = false))
    (readers : ∀ other key, waiting t other key =
      if other = server ∧ (s.listening server).bind (fun busy => removesNext busy.handler) = some key then none
      else waiting s other key)
    (writers : writing t = writing s) : Registered t := by
  refine ⟨fun g key j => ?_,fun g key j => ?_,fun g key j here => ?_⟩
  · rintro ⟨call,now,here,read,none,waits⟩
    rw [calls] at now
    obtain ⟨before,was,rfl⟩ := Option.map_eq_some_iff.mp now
    obtain ⟨server',request,pc,_,received⟩ := same j before
    have reads : Reading s g key j := ⟨before,was,server' ▸ here,request ▸ read,received none,pc ▸ waits⟩
    rw [readers,if_neg]
    · exact registered.readers g key j reads
    · rintro ⟨rfl,removed⟩
      exact undisturbed key removed j reads
  · rintro ⟨call,dataDto,now,here,write,key',none,waits⟩
    rw [calls] at now
    obtain ⟨before,was,rfl⟩ := Option.map_eq_some_iff.mp now
    obtain ⟨server',request,pc,_,received⟩ := same j before
    rw [writers]
    exact registered.writers g key j ⟨before,dataDto,was,server' ▸ here,request ▸ write,key',received none,pc ▸ waits⟩
  · rw [readers] at here
    split_ifs at here
    obtain ⟨before,was,at_server,read,listed⟩ := registered.listed g key j here
    obtain ⟨server',request,pc,_⟩ := same j before
    exact ⟨_,by rw [calls,was]; rfl,server'.trans at_server,request.trans read,by rwa [pc]⟩

theorem Registered.step (registered : Registered s) {event : Event} (undisturbed : Undisturbed s event)
    (move : Listeners.step settings event s = some t) : Registered t := by
  cases slotStep move with
  | call startingUp new calls readers writers => exact registered.of_call startingUp new calls readers writers
  | thread found moved calls readers writers => exact registered.of_thread undisturbed found moved calls readers writers
  | view calls readers writers | receive calls readers writers => exact registered.same calls readers writers
  | boot calls readers writers => exact registered.of_boot calls readers writers
  | listen told calls same readers writers => exact registered.of_listen undisturbed told calls same readers writers

theorem run_registered {events : List Event} (fresh : Fresh s)
    (run : Run (Restrict Undisturbed (Runs.Steps (Listeners.step settings))) s events t) : Registered t :=
  run.always (P := Registered) (registered_fresh fresh) fun _ _ _ registered move => registered.step move.1 move.2

end

/-- In every run whose steps meet the condition, a call that waits is registered as
    its own, unless it is a read that has not put its callback yet. -/
theorem waiter_registered {settings : Settings} {s t : Threads} {events : List Event} (fresh : Fresh s)
    (run : Run (Restrict Undisturbed (Runs.Steps (Listeners.step settings))) s events t) {i : Nat} {call : Call}
    (found : t.cluster.calls i = some call) (waits : Waits call) : Own t i call ↔ call.pc ≠ .putWaiting := by
  have registered := run_registered fresh run
  have all : Kept (fun _ _ => True) t := run_kept fresh (fun _ _ _ => trivial) run.unrestrict
  have fits := (all.calls i call found).fits
  obtain ⟨none,at_pc⟩ := waits
  cases request : call.request with
  | read key =>
    have own : Own t i call ↔ waiting t call.server key = some i := by simp only [Own,request]
    rw [own]
    rw [request] at fits
    constructor
    · intro held unlisted
      obtain ⟨_,same,_,_,listed⟩ := registered.listed call.server key i held
      cases found.symm.trans same
      rw [unlisted] at listed
      exact listed
    · intro listed
      refine registered.readers _ key i ⟨call,found,rfl,request,none,?_⟩
      rcases at_pc with here | here | here | here | here | here
      · exact absurd here listed
      · exact .inl here
      · exact .inr here
      all_goals rw [here] at fits; exact fits.elim
  | write dataDto =>
    have own : Own t i call ↔ writing t call.server dataDto.key = some i := by simp only [Own,request]
    rw [own]
    rw [request] at fits
    constructor
    · intro _ here
      rw [here] at fits
      exact fits
    · intro _
      refine registered.writers _ _ i ⟨call,dataDto,found,rfl,request,rfl,none,?_⟩
      rcases at_pc with here | here | here | here | here | here
      case inr.inr.inr.inl => exact .inl here
      case inr.inr.inr.inr.inl => exact .inr (.inl here)
      case inr.inr.inr.inr.inr => exact .inr (.inr here)
      all_goals rw [here] at fits; exact fits.elim

/-- A response that comes for a registered read is handed to it. -/
theorem response_handed {s : Threads} {i : Nat} {call : Call} {dataDto : DataDto} (read : call.request = .read dataDto.key)
    (own : Own s i call) : (Handlers.askDataResponse (s.cluster.servers call.server) dataDto).callbacks = [.dataReceived i dataDto] := by
  have held : (s.cluster.servers call.server).waitingData dataDto.key = some i := by simpa only [Own,waiting,read] using own
  simp only [Handlers.askDataResponse,held]

/-- One of the first `bound` calls waits on the key, at one of these places. -/
def Awaiting (bound : Nat) (s : Threads) (server : SpreadGroup) (key : String) (places : List Pc) : Prop :=
  ∃ j ∈ List.range bound, ∃ call ∈ s.cluster.calls j, call.server = server ∧ call.request.key = key ∧
    call.responseReceived = false ∧ call.pc ∈ places

instance (bound : Nat) (s : Threads) (server : SpreadGroup) (key : String) (places : List Pc) :
    Decidable (Awaiting bound s server key places) :=
  inferInstanceAs (Decidable (∃ j ∈ List.range bound, ∃ call ∈ s.cluster.calls j, _ ∧ _ ∧ _ ∧ _))

/-- What a call may do without taking a callback from another. -/
def Spares (bound : Nat) (s : Threads) (i : Nat) (call : Call) : Pc → Prop
  | .putWaiting | .removeWaiting _ => ¬ Awaiting bound s call.server call.request.key [.testData,.sleepRead]
  | .putWantToWrite | .removeWantToWrite _ =>
    ¬ Awaiting bound s call.server call.request.key [.testResponse,.sleepWrite,.testConflict]
  | .sendWantToWrite => writing s call.server call.request.key = some i
  | _ => True

instance (bound : Nat) (s : Threads) (i : Nat) (call : Call) : DecidablePred (Spares bound s i call)
  | .putWaiting | .removeWaiting _ => inferInstanceAs (Decidable (¬ Awaiting bound s call.server call.request.key _))
  | .putWantToWrite | .removeWantToWrite _ => inferInstanceAs (Decidable (¬ Awaiting bound s call.server call.request.key _))
  | .sendWantToWrite => inferInstanceAs (Decidable (writing s call.server call.request.key = some i))
  | .writeData | .saveAlone | .findInvalidate | .saveInvalidate _ | .testResponse | .sleepWrite | .testConflict | .saveData _
  | .sendDataWritten _ | .sendRevalidate | .handleConflict | .findDelete | .deleteById | .wrote _ | .findLocal | .sendAskData
  | .testData | .sleepRead | .saveCopy | .answered _ => isTrue trivial

/-- A stronger condition that can be computed, for runs of `bound` calls. -/
def Sparing (bound : Nat) (s : Threads) : Event → Prop
  | .call i _ _ => i < bound
  | .thread i _ => ∀ call ∈ s.cluster.calls i, Spares bound s i call call.pc
  | .listen server _ => ∀ key ∈ (s.listening server).bind (fun busy => removesNext busy.handler),
      ¬ Awaiting bound s server key [.testData,.sleepRead]
  | _ => True

instance (bound : Nat) (s : Threads) : DecidablePred (Sparing bound s)
  | .call i _ _ => inferInstanceAs (Decidable (i < bound))
  | .thread i _ => inferInstanceAs (Decidable (∀ call ∈ s.cluster.calls i, _))
  | .listen server _ => inferInstanceAs (Decidable (∀ key ∈ (s.listening server).bind _, _))
  | .view _ | .receive _ | .boot _ => isTrue trivial

section
variable {settings : Settings} {s t : Threads} {event : Event} {bound : Nat}

/-- There are no other calls. -/
theorem below_event (below : ∀ j, bound ≤ j → s.cluster.calls j = none) (sparing : Sparing bound s event)
    (move : Listeners.step settings event s = some t) : ∀ j, bound ≤ j → t.cluster.calls j = none := by
  intro j large
  have before := below j large
  cases slotStep move with
  | call startingUp new calls =>
    have small : _ < bound := sparing
    rw [calls,Function.update_of_ne (by omega),before]
  | thread found moved calls =>
    rw [calls,Function.update_of_ne ?_,before]
    rintro rfl
    cases before.symm.trans found
  | view calls | receive calls => rw [calls,before]
  | boot calls => rw [calls,before]; rfl
  | listen told calls => rw [calls,before]; rfl

theorem Sparing.undisturbed (below : ∀ j, bound ≤ j → s.cluster.calls j = none) (sparing : Sparing bound s event) :
    Undisturbed s event := by
  have small {j : Nat} {call : Call} (found : s.cluster.calls j = some call) : j ∈ List.range bound := by
    by_contra large
    cases (below j (by simpa using large)).symm.trans found
  have readers {server : SpreadGroup} {key : String} (none : ¬ Awaiting bound s server key [.testData,.sleepRead]) (j : Nat) :
      ¬ Reading s server key j := by
    rintro ⟨call,found,same,read,unanswered,here⟩
    exact none ⟨j,small found,call,found,same,by rw [read]; rfl,unanswered,by simpa using here⟩
  have writers {server : SpreadGroup} {key : String}
      (none : ¬ Awaiting bound s server key [.testResponse,.sleepWrite,.testConflict]) (j : Nat) : ¬ Writing s server key j := by
    rintro ⟨call,dataDto,found,same,write,about,unanswered,here⟩
    exact none ⟨j,small found,call,found,same,by rw [write]; exact about,unanswered,by simpa using here⟩
  cases event with
  | thread i choice =>
    intro call found
    have spares := sparing call found
    split
    · next read at_pc => rw [at_pc,Spares,read] at spares; exact readers spares
    · next read at_pc => rw [at_pc,Spares,read] at spares; exact readers spares
    · next write at_pc => rw [at_pc,Spares,write] at spares; exact writers spares
    · next write at_pc => rw [at_pc,Spares,write] at spares; exact writers spares
    · next write at_pc => rw [at_pc,Spares,write] at spares; exact fun _ _ => spares
    · trivial
  | listen server sent => exact fun key removed => readers (sparing key removed)
  | _ => trivial

end

theorem atRest_fresh : Fresh atRest := ⟨fun _ => rfl,rfl,fun _ _ => rfl,fun _ => rfl⟩

/-- Two servers write a key and one of them reads another: all have sent their questions, and the
    handlers of both WANT_TO_WRITE are at work. -/
def asking : List Event := List.flatten
  [[.call 0 Keys.server1 (.write ⟨"k","new"⟩)],List.replicate 4 (.thread 0 .go),
   [.call 1 Keys.server1 (.read "j")],List.replicate 3 (.thread 1 .go),
   [.call 2 Keys.server2 (.write ⟨"k","other"⟩)],List.replicate 5 (.thread 2 .go),
   [.receive ⟨Keys.server2,Keys.server1,.regular (.wantToWrite ⟨"k","new"⟩),some 0⟩],List.replicate 2 (.listen Keys.server2 true),
   [.receive ⟨Keys.server1,Keys.server2,.regular (.wantToWrite ⟨"k","other"⟩),some 2⟩,.listen Keys.server1 true]]

theorem waiter_registered_pair : ∃ t, Run (Restrict Undisturbed (Runs.Steps (Listeners.step .properties))) atRest asking t ∧
    ∀ i < 3, ∃ call, t.cluster.calls i = some call ∧ Waits call ∧ (Own t i call ↔ call.pc ≠ .putWaiting) := by
  obtain ⟨t,run,waits⟩ := exists_run_of_exec (Listeners.step .properties) (Sparing 3)
    (fun t => ∀ i ∈ List.range 3, (t.cluster.calls i).any (fun call =>
      decide (call.responseReceived = false ∧ (call.pc = .testData ∨ call.pc = .testResponse))) = true) atRest asking (by decide)
  have undisturbed : Run (Restrict Undisturbed (Runs.Steps (Listeners.step .properties))) atRest asking t :=
    run.weaken (fun _ _ => rfl) (fun _ _ _ below sparing move => below_event below sparing move)
      fun _ _ below sparing => sparing.undisturbed below
  refine ⟨t,undisturbed,fun i small => ?_⟩
  obtain ⟨call,found,here⟩ := (Option.any_eq_true ..).mp (waits i (List.mem_range.mpr small))
  obtain ⟨none,at_pc⟩ := of_decide_eq_true here
  have waiting : Waits call := ⟨none,at_pc.elim (fun here => .inr (.inl here)) fun here => .inr (.inr (.inr (.inl here)))⟩
  exact ⟨call,found,waiting,waiter_registered atRest_fresh undisturbed found waiting⟩

/-- A read that has just sent its ASK_DATA. -/
def asked : List Event := .call 0 Keys.server1 (.read "k") :: List.replicate 2 (.thread 0 .go)

/-- It is not registered yet. -/
theorem read_not_registered :
    ¬ ∀ (settings : Settings) (s t : Threads) (events : List Event), Fresh s →
      Run (Runs.Steps (Listeners.step settings)) s events t → ∀ i call, t.cluster.calls i = some call → Waits call → Own t i call := by
  intro registered
  obtain ⟨t,run,waits⟩ := exists_run_of_exec (Listeners.step .properties) (fun _ _ => True)
    (fun t => (t.cluster.calls 0).any (fun call => decide (call.server = Keys.server1 ∧ call.request = .read "k" ∧
      call.responseReceived = false ∧ call.pc = .putWaiting)) = true ∧ waiting t Keys.server1 "k" = none) atRest asked (by decide)
  obtain ⟨call,found,here⟩ := (Option.any_eq_true ..).mp waits.1
  obtain ⟨at_server,read,none,at_pc⟩ := of_decide_eq_true here
  have own := registered .properties atRest t asked atRest_fresh run.unrestrict 0 call found ⟨none,.inl at_pc⟩
  simp only [Own,read,at_server,waits.2] at own
  cases own

end CdPraticas.Registrations
