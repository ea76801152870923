import CdPraticas.KeyThreads

/-!
# Write rounds with listener threads

A handler finds the object of a round in one access, counts the response in a later
one and compares the count after that. As long as it counts responses for their own
round only, a round that is told of all responses still has one from every server.
-/

namespace CdPraticas.Tallies
open Groups Store Messages Handlers Calls Cluster Keys Rounds Runs Stages KeyThreads
open Listeners (Threads Event)

/-- The call whose responses a handler is counting, and how many it knows of. -/
def count : Stage → Option (Nat × Nat)
  | .increment data => some (data.callback,data.receivedResponses)
  | .compare data => some (data.callback,data.receivedResponses + 1)
  | _ => none

/-- What holds in every state while each response is counted for its own round. -/
structure Counting (group : Group) (w : ThreadView) : Prop where
  formed : Formed group w.shared
  tallied : Tallied group w.shared
  found : ∀ server packet stage i n, w.listening server = some (packet,stage) → count stage = some (i,n) →
    ∀ call, w.shared.calls i = some call → w.shared.network.countP (Answering i) + n ≤ call.acknowledged.length
  told : ∀ server packet i, w.listening server = some (packet,.allResponses i) →
    ∀ call, w.shared.calls i = some call → Everybody group w.shared i call

/-- A response is counted only for the round that it answers. -/
def CountsOwnNext (w : ThreadView) : Event → Prop
  | .listen server _ => ∀ packet data, w.listening server = some (packet,.increment data) → packet.call = some data.callback
  | _ => True

section
variable {settings : Settings} {group : Group} {key : String} {v v' : KeyView} {w w' : ThreadView} {packet : Packet}
  {stage next : Stage} {event : Event} {sent : Bool} {held : Fields} {sends : List Send} {callbacks : List Callback}

/-! ### Answers come with their record -/

/-- The calls that were there are later versions of themselves, and no more answers are in
    flight than servers have answered since. -/
def Grows (v v' : KeyView) : Prop :=
  ∀ i call, v.calls i = some call → ∃ after, v'.calls i = some after ∧ Later call after ∧
    v'.network.countP (Answering i) + call.acknowledged.length ≤ v.network.countP (Answering i) + after.acknowledged.length

theorem grows_started {i : Nat} {call : Call} (fresh : v.calls i = none) : Grows v (v.started i call) := by
  intro j other found
  have different : j ≠ i := by
    rintro rfl
    rw [fresh] at found
    cases found
  exact ⟨other,by rw [started_ne different]; exact found,.refl other,le_rfl⟩

theorem grows_moved (sound : Sound group key v) {i : Nat} {choice : Choice} {call : Call} {effect : Effect} {pc : Pc}
    (found : v.calls i = some call)
    (move : Move settings group.members.length (v.held call.server).row call choice effect pc) :
    Grows v (v.moved group i call effect pc) := by
  intro j other was
  rw [moved_network,Multiset.countP_add,effect_answers_nothing move,add_zero]
  by_cases same : j = i
  · subst same
    rw [found] at was
    cases was
    exact ⟨_,moved_self ..,move_later move (sound.fits j call found),le_rfl⟩
  · exact ⟨other,by rw [moved_ne _ _ _ same]; exact was,.refl other,le_rfl⟩

theorem grows_dropped : Grows v (v.dropped packet) := by
  intro j other was
  have fewer := Multiset.countP_le_of_le (Answering j) (Multiset.erase_le packet v.network)
  exact ⟨other,was,.refl other,Nat.add_le_add_right fewer _⟩

/-- What a handler sends in answer, whether or not its message has been answered before. -/
theorem turn_answers (threaded : Threaded group key w) (busy : w.listening packet.receiver = some (packet,stage))
    (turn : Turn settings group.members.length key packet.receiver packet.sender (w.shared.held packet.receiver) stage held
      sends callbacks next) :
    sends = [] ∨ ∃ message, packet ∈ w.shared.network ∧ packet.body = .regular message ∧ Replies packet message sends := by
  have handling := threaded.handling _ _ _ busy
  by_cases pending : stage.Pending
  · obtain ⟨message,body,about,fits⟩ := handling.fits
    exact .inr ⟨message,handling.pending pending,body,turn.replies fits about⟩
  · exact .inl (silent_after turn pending)

/-- A handler sends a response only together with the record of it. -/
theorem turn_recorded (sent : Bool) (threaded : Threaded group key w) (busy : w.listening packet.receiver = some (packet,stage))
    (turn : Turn settings group.members.length key packet.receiver packet.sender (w.shared.held packet.receiver) stage held
      sends callbacks next) (j : Nat) (call : Call) :
    (if sent then packets group.members packet.receiver packet.call sends else 0).countP (Answering j) +
      call.acknowledged.length ≤ (notify sends callbacks packet sent j call).acknowledged.length := by
  rcases turn_answers threaded busy turn with rfl | ⟨_,_,_,replies⟩
  · have nothing : Replies packet (.askData key) [] := .nothing
    exact nothing.answers_recorded
  · exact replies.answers_recorded

theorem grows_listened (threaded : Threaded group key w) (busy : w.listening packet.receiver = some (packet,stage))
    (turn : Turn settings group.members.length key packet.receiver packet.sender (w.shared.held packet.receiver) stage held
      sends callbacks next) : Grows w.shared (w.listened group packet stage sent held sends callbacks next).shared := by
  intro j other was
  refine ⟨_,by rw [listened_calls,was]; rfl,notify_later ..,?_⟩
  have fewer := Multiset.countP_le_of_le (Answering j) (kept_le w.shared.network packet stage next)
  have recorded := turn_recorded sent threaded busy turn j other
  rw [listened_network,Multiset.countP_add]
  omega

theorem grows_step (threaded : Threaded group key w) (step : ThreadStep settings group key w event w') :
    Grows w.shared w'.shared := by
  have still : Grows w.shared w.shared := fun _ call found => ⟨call,found,.refl call,le_rfl⟩
  cases step with
  | elsewhere _ => exact still
  | call fresh _ _ => exact grows_started fresh
  | thread found move => exact grows_moved threaded.sound found move
  | ignored _ _ => exact grows_dropped
  | receive _ _ _ _ _ => exact still
  | listen busy turn => exact grows_listened threaded busy turn

/-! ### The messages fit their calls -/

theorem formed_quiet (formed : Formed group v)
    (calls : ∀ i, v'.calls i = (v.calls i).map (notify [] callbacks packet sent i)) (fewer : v'.network ≤ v.network) :
    Formed group v' := by
  have before : ∀ {i call}, v'.calls i = some call →
      ∃ was, v.calls i = some was ∧ Later was call ∧ call.acknowledged = was.acknowledged := by
    intro i call now
    rw [calls] at now
    obtain ⟨was,found,rfl⟩ := Option.map_eq_some_iff.mp now
    exact ⟨was,found,notify_later ..,by simp [notify_acknowledged,acknowledges]⟩
  refine ⟨?_,?_,?_⟩
  · intro other flying message i call body tag now
    obtain ⟨was,found,later,_⟩ := before now
    exact (formed.owned other (Multiset.mem_of_le fewer flying) message i was body tag found).later later
  · intro i call now server member
    obtain ⟨was,found,later,same⟩ := before now
    rw [same] at member
    obtain ⟨inside,asked⟩ := formed.answering i was found server member
    exact ⟨later.server ▸ inside,later.asked asked⟩
  · intro i call server now
    obtain ⟨was,found,_,same⟩ := before now
    have once := formed.once i was server found
    have less := Multiset.countP_le_of_le (Asking i server) fewer
    rw [same]
    omega

theorem formed_step (formed : Formed group w.shared) (threaded : Threaded group key w)
    (step : ThreadStep settings group key w event w') : Formed group w'.shared := by
  cases step with
  | elsewhere _ => exact formed
  | call fresh _ _ => exact formed.of_started threaded.sound _ fresh
  | thread found move => exact formed.of_moved threaded.sound found move
  | ignored _ _ => exact formed.of_dropped _
  | receive _ _ _ _ _ => exact formed
  | @listen packet stage next sent held sends callbacks busy turn =>
    rcases turn_answers threaded busy turn with rfl | ⟨message,flying,body,replies⟩
    · refine formed_quiet formed (fun _ => rfl) ?_
      rw [listened_network]
      simpa using kept_le ..
    · have server := (Group.mem_servers.mp (threaded.handling _ _ _ busy).member).2
      refine formed.of_replies threaded.sound flying server body replies (kept_le ..) (fun grants => ?_) (fun _ => rfl) rfl
      obtain ⟨rfl,rfl⟩ := turn.grants grants
      exact if_pos ⟨trivial,id⟩

/-! ### The counts -/

/-- A round that everybody has answered stays so. -/
theorem everybody_grows {i : Nat} {call after : Call} (all : Everybody group v i call) (formed : Formed group v')
    (now : v'.calls i = some after) (later : Later call after)
    (grows : v'.network.countP (Answering i) + call.acknowledged.length ≤
      v.network.countP (Answering i) + after.acknowledged.length) : Everybody group v' i after := by
  have enough : (group.others call.server).length ≤ call.acknowledged.length :=
    (((group.distinct.filter _).filter _).subperm all.acknowledged).length_le
  have few := (formed.few now).length_le
  have none := all.noAnswers
  rw [later.server] at few
  refine ⟨?_,by omega⟩
  rw [later.server]
  exact fun server member => later.acknowledged (all.acknowledged member)

/-- The calls whose responses a handler counts were there before the step, -/
theorem counted_before (threaded : Threaded group key w) (grows : Grows w.shared v') {server : SpreadGroup} {i : Nat} {after : Call}
    (busy : w.listening server = some (packet,stage)) (counts : (∃ n, count stage = some (i,n)) ∨ stage = .allResponses i)
    (now : v'.calls i = some after) :
    ∃ call, w.shared.calls i = some call ∧ Later call after ∧
      v'.network.countP (Answering i) + call.acknowledged.length ≤
        w.shared.network.countP (Answering i) + after.acknowledged.length := by
  have calls := (threaded.handling _ _ _ busy).calls
  have writer : Writer key w.shared server i := by
    rcases counts with ⟨n,counts⟩ | rfl
    · cases stage <;> simp only [count,Option.some.injEq,Prod.mk.injEq,reduceCtorEq] at counts
      all_goals
        obtain ⟨rfl,_⟩ := counts
        exact calls
    · exact calls
  obtain ⟨call,found,_⟩ := writer
  obtain ⟨after',now',later,more⟩ := grows i call found
  rw [now] at now'
  cases now'
  exact ⟨call,found,later,more⟩

/-- and what is known of them stays known. -/
theorem Counting.stays (counting : Counting group w) (threaded : Threaded group key w) (formed : Formed group v')
    (grows : Grows w.shared v') {server : SpreadGroup} (busy : w.listening server = some (packet,stage)) :
    (∀ i n, count stage = some (i,n) → ∀ after, v'.calls i = some after →
      v'.network.countP (Answering i) + n ≤ after.acknowledged.length) ∧
    ∀ i, stage = .allResponses i → ∀ after, v'.calls i = some after → Everybody group v' i after := by
  refine ⟨fun i n counts after now => ?_,fun i tells after now => ?_⟩
  · obtain ⟨call,found,_,more⟩ := counted_before threaded grows busy (.inl ⟨n,counts⟩) now
    have known := counting.found _ _ _ _ _ busy counts call found
    omega
  · obtain ⟨call,found,later,more⟩ := counted_before threaded grows busy (.inr tells) now
    subst tells
    exact everybody_grows (counting.told _ _ _ busy call found) formed now later more

/-- Where no handler moves, the counts only have to be tallied again. -/
theorem Counting.of_same (counting : Counting group w) (threaded : Threaded group key w) (formed : Formed group v')
    (tallied : Tallied group v') (grows : Grows w.shared v') : Counting group { w with shared := v' } := by
  refine ⟨formed,tallied,fun server packet stage i n busy counts call now => ?_,fun server packet i busy call now => ?_⟩
  · exact (counting.stays threaded formed grows busy).1 i n counts call now
  · exact (counting.stays threaded formed grows busy).2 i rfl call now

/-- A handler adds a response to the count only as it takes it from the network. -/
theorem turn_counts {participants : Int} {held held' : Fields} {j : Nat} {body : Message}
    (turn : Turn settings participants key packet.receiver packet.sender held stage held' sends callbacks next)
    (fits : stage.Fits packet.receiver packet.sender body) (carries : packet.body = .regular body)
    (own : ∀ data, stage = .increment data → packet.call = some data.callback) {network : Multiset Packet}
    (flying : stage.Pending → packet ∈ network) :
    (kept network packet stage next).countP (Answering j) + counted held' j ≤ network.countP (Answering j) + counted held j := by
  have fewer := Multiset.countP_le_of_le (Answering j) (kept_le network packet stage next)
  rcases turn.slot with same | ⟨data,rfl,rfl,slot,counts⟩
  · have unchanged : counted held' j = counted held j := by rw [counted,counted,same]
    omega
  · have taken := countP_taken (P := Answering j) (flying trivial)
    have settled : kept network packet (.increment data) (.compare data) = network.erase packet := if_pos ⟨trivial,id⟩
    rw [settled,counted,counted,slot,counts]
    dsimp only
    by_cases mine : data.callback = j
    · have answering : Answering j packet := by
        refine ⟨mine ▸ own data rfl,?_⟩
        rw [carries]
        cases body <;> trivial
      rw [if_pos answering] at taken
      rw [if_pos mine,if_pos mine]
      omega
    · rw [if_neg mine,if_neg mine]
      omega

/-- Everybody has answered a round whose count is complete. -/
theorem everybody_counted (formed : Formed group v) (sound : Sound group key v) {i n : Nat} {call : Call}
    (found : v.calls i = some call) (known : v.network.countP (Answering i) + n ≤ call.acknowledged.length)
    (many : (n : Int) ≥ group.members.length - 2) : Everybody group v i call := by
  have size := Group.others_length (sound.located i call found)
  have everybody := formed.everybody found (by omega)
  have few := (formed.few found).length_le
  exact ⟨everybody,by omega⟩

theorem Counting.later_listened (counting : Counting group w) (threaded : Threaded group key w)
    (busy : w.listening packet.receiver = some (packet,stage))
    (turn : Turn settings group.members.length key packet.receiver packet.sender (w.shared.held packet.receiver) stage held
      sends callbacks next) {j : Nat} {before : Call} (found : w.shared.calls j = some before)
    (all : Everybody group w.shared j before) :
    Everybody group (w.listened group packet stage sent held sends callbacks next).shared j
      (notify sends callbacks packet sent j before) := by
  have step : ThreadStep settings group key w (.listen packet.receiver sent)
    (w.listened group packet stage sent held sends callbacks next) := .listen busy turn
  have formed := formed_step counting.formed threaded step
  obtain ⟨after,now,later,more⟩ := grows_step threaded step j before found
  have same : (w.listened group packet stage sent held sends callbacks next).shared.calls j =
      some (notify sends callbacks packet sent j before) := by rw [listened_calls,found]; rfl
  rw [same] at now
  cases now
  exact everybody_grows all formed same later more

theorem Counting.tallied_listened (counting : Counting group w) (threaded : Threaded group key w)
    (own : ∀ data, stage = .increment data → packet.call = some data.callback)
    (busy : w.listening packet.receiver = some (packet,stage))
    (turn : Turn settings group.members.length key packet.receiver packet.sender (w.shared.held packet.receiver) stage held
      sends callbacks next) : Tallied group (w.listened group packet stage sent held sends callbacks next).shared := by
  have handling := threaded.handling _ _ _ busy
  obtain ⟨message,body,about,fits⟩ := handling.fits
  refine ⟨?_,?_,?_⟩
  · intro j call now
    obtain ⟨before,found,rfl⟩ := listened_cases _ _ _ _ _ _ _ now
    have tally := counting.tallied.tally j before found
    have recorded := turn_recorded sent threaded busy turn j before
    have counts : (kept w.shared.network packet stage next).countP (Answering j) +
        counted ((w.listened group packet stage sent held sends callbacks next).shared.held before.server) j ≤
          w.shared.network.countP (Answering j) + counted (w.shared.held before.server) j := by
      by_cases here : before.server = packet.receiver
      · rw [here,listened_held_self]
        exact turn_counts turn fits body own handling.pending
      · rw [listened_held_ne _ _ _ _ _ _ _ here]
        exact Nat.add_le_add_right (Multiset.countP_le_of_le _ (kept_le ..)) _
    rw [listened_network,Multiset.countP_add,notify_server]
    omega
  · intro j call data now write flag
    obtain ⟨before,found,rfl⟩ := listened_cases _ _ _ _ _ _ _ now
    rw [notify_request] at write
    rcases turn.flag flag with flag | rfl | ⟨dataDto,rfl⟩
    · exact counting.later_listened threaded busy turn found (counting.tallied.complete j before data found write flag)
    · exact counting.later_listened threaded busy turn found (counting.told _ _ _ busy before found)
    · obtain ⟨other,found',_,read⟩ := handling.calls
      rw [found] at found'
      cases found'
      rw [write] at read
      cases read
  · intro j call now left
    obtain ⟨before,found,rfl⟩ := listened_cases _ _ _ _ _ _ _ now
    rw [notify_pc] at left
    exact counting.later_listened threaded busy turn found (counting.tallied.left j before found left)

/-- How a handler comes to know a count. -/
theorem turn_count {participants : Int} {me sender : SpreadGroup} {held held' : Fields} {i n : Nat}
    (turn : Turn settings participants key me sender held stage held' sends callbacks next) (counts : count next = some (i,n)) :
    (∃ wanted, held'.slot = some wanted ∧ wanted.callback = i ∧ n = wanted.receivedResponses) ∨
      ∃ data, stage = .increment data ∧ next = .compare data ∧ i = data.callback ∧ n = data.receivedResponses + 1 ∧ sends = [] := by
  cases turn with
  | looks looks same quiet _ =>
    subst same
    cases looks with
    | gets slot =>
      cases counts
      exact .inl ⟨_,slot,rfl,rfl⟩
    | misses _ =>
      cases counts
      exact .inr ⟨_,rfl,rfl,rfl,rfl,quiet⟩
    | noRow _ ready =>
      subst ready
      split_ifs at counts <;> cases counts
    | _ => cases counts
  | acts acts =>
    cases acts with
    | increments _ =>
      cases counts
      exact .inr ⟨_,rfl,rfl,rfl,rfl,rfl⟩
    | invalidates ready =>
      subst ready
      split_ifs at counts <;> cases counts
    | _ => cases counts

/-- and that it is complete. -/
theorem turn_complete {participants : Int} {me sender : SpreadGroup} {held held' : Fields} {i : Nat}
    (turn : Turn settings participants key me sender held stage held' sends callbacks (.allResponses i)) :
    ∃ data, stage = .compare data ∧ i = data.callback ∧ ((data.receivedResponses + 1 : Nat) : Int) ≥ participants - 2 := by
  cases turn with
  | looks looks _ _ _ =>
    cases looks with
    | enough many => exact ⟨_,rfl,rfl,many⟩
    | noRow _ ready => split_ifs at ready
  | acts acts =>
    cases acts with
    | invalidates ready => split_ifs at ready

theorem Counting.found_listened (counting : Counting group w) (threaded : Threaded group key w)
    (own : ∀ data, stage = .increment data → packet.call = some data.callback)
    (busy : w.listening packet.receiver = some (packet,stage))
    (turn : Turn settings group.members.length key packet.receiver packet.sender (w.shared.held packet.receiver) stage held
      sends callbacks next) {i n : Nat} (counts : count next = some (i,n)) {call : Call}
    (now : (w.listened group packet stage sent held sends callbacks next).shared.calls i = some call) :
    (w.listened group packet stage sent held sends callbacks next).shared.network.countP (Answering i) + n ≤
      call.acknowledged.length := by
  rcases turn_count turn counts with ⟨wanted,slot,rfl,rfl⟩ | ⟨data,rfl,rfl,rfl,rfl,rfl⟩
  · -- it has found the object, which counts as many
    have tallied : Tallied group (w.listened group packet stage sent held sends callbacks next).shared :=
      counting.tallied_listened threaded own busy turn
    have tally := tallied.tally _ call now
    have sound : Sound group key (w.listened group packet stage sent held sends callbacks next).shared :=
      threaded.sound_listened busy turn
    have registered : ((w.listened group packet stage sent held sends callbacks next).shared.held packet.receiver).slot =
        some wanted := by rw [listened_held_self]; exact slot
    obtain ⟨other,found,here,_⟩ := sound.wanting _ _ registered
    rw [now] at found
    cases found
    rw [here,counted,registered] at tally
    simpa using tally
  · obtain ⟨before,was,rfl⟩ := listened_cases _ _ _ _ _ _ _ now
    have handling := threaded.handling _ _ _ busy
    have known := counting.found _ _ _ _ _ busy rfl before was
    have answering : Answering data.callback packet := by
      obtain ⟨message,body,_,fits⟩ := handling.fits
      refine ⟨own data rfl,?_⟩
      rw [body]
      cases message <;> trivial
    have taken := countP_taken (P := Answering data.callback) (handling.pending trivial)
    have settled : kept w.shared.network packet (.increment data) (.compare data) = w.shared.network.erase packet :=
      if_pos ⟨trivial,id⟩
    rw [if_pos answering] at taken
    have recorded := turn_recorded sent threaded busy turn data.callback before
    rw [listened_network,settled,Multiset.countP_add]
    omega

theorem Counting.of_listened (counting : Counting group w) (threaded : Threaded group key w)
    (own : ∀ data, stage = .increment data → packet.call = some data.callback)
    (busy : w.listening packet.receiver = some (packet,stage))
    (turn : Turn settings group.members.length key packet.receiver packet.sender (w.shared.held packet.receiver) stage held
      sends callbacks next) : Counting group (w.listened group packet stage sent held sends callbacks next) := by
  have step : ThreadStep settings group key w (.listen packet.receiver sent)
    (w.listened group packet stage sent held sends callbacks next) := .listen busy turn
  have formed := formed_step counting.formed threaded step
  have grows := grows_step threaded step
  refine ⟨formed,counting.tallied_listened threaded own busy turn,?_,?_⟩
  · intro server other there i n entered counts call now
    by_cases same : server = packet.receiver
    · subst same
      rw [listened_listening_self] at entered
      by_cases ends : next = .done
      · subst ends
        cases entered
      · rw [entry_running ends] at entered
        cases entered
        exact counting.found_listened threaded own busy turn counts now
    · rw [listened_listening_ne _ _ _ _ _ _ _ same] at entered
      exact (counting.stays threaded formed grows entered).1 i n counts call now
  · intro server other i entered call now
    by_cases same : server = packet.receiver
    · subst same
      rw [listened_listening_self] at entered
      by_cases ends : next = .done
      · subst ends
        cases entered
      · rw [entry_running ends] at entered
        cases entered
        obtain ⟨data,rfl,rfl,many⟩ := turn_complete turn
        obtain ⟨before,was,rfl⟩ := listened_cases _ _ _ _ _ _ _ now
        have known := counting.found _ _ _ _ _ busy rfl before was
        exact counting.later_listened threaded busy turn was (everybody_counted counting.formed threaded.sound was known many)
    · rw [listened_listening_ne _ _ _ _ _ _ _ same] at entered
      exact (counting.stays threaded formed grows entered).2 i rfl call now

theorem start_count {me sender : SpreadGroup} {message : Message} : count (Stage.start me sender message) = none := by
  cases message <;> simp only [Stage.start]
  all_goals try split_ifs
  all_goals rfl

theorem start_not_told {me sender : SpreadGroup} {message : Message} (i : Nat) :
    Stage.start me sender message ≠ .allResponses i := by
  cases message <;> simp only [Stage.start]
  all_goals try split_ifs
  all_goals simp

theorem Counting.step (counting : Counting group w) (threaded : Threaded group key w)
    (own : CountsOwnNext w event) (step : ThreadStep settings group key w event w') : Counting group w' := by
  have formed := formed_step counting.formed threaded step
  have grows := grows_step threaded step
  cases step with
  | elsewhere _ => exact counting
  | call fresh _ _ => exact counting.of_same threaded formed (counting.tallied.of_started threaded.sound _ fresh) grows
  | thread found move => exact counting.of_same threaded formed (counting.tallied.of_moved found move) grows
  | ignored _ _ => exact counting.of_same threaded formed (counting.tallied.of_dropped _) grows
  | @receive packet message idle _ _ _ running =>
    refine ⟨formed,counting.tallied,?_,?_⟩
    · intro server other there i n entered counts
      by_cases same : server = packet.receiver
      · subst same
        rw [received_self] at entered
        cases entered
        rw [start_count] at counts
        cases counts
      · rw [received_ne _ same] at entered
        exact counting.found _ _ _ _ _ entered counts
    · intro server other i entered
      by_cases same : server = packet.receiver
      · subst same
        rw [received_self] at entered
        exact absurd (Prod.mk.inj (Option.some.inj entered)).2 (start_not_told i)
      · rw [received_ne _ same] at entered
        exact counting.told _ _ _ entered
  | @listen packet stage next sent held sends callbacks busy turn =>
    exact counting.of_listened threaded (fun data same => own packet data (same ▸ busy)) busy turn

theorem Counting.start {s : State} (quiet : Quiet group s) : Counting group ⟨view key s,fun _ => none⟩ :=
  ⟨quiet_formed quiet,quiet_tallied quiet,fun _ _ _ _ _ busy => (by cases busy),fun _ _ _ busy => (by cases busy)⟩

end

end CdPraticas.Tallies
