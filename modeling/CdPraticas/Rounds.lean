import CdPraticas.Keys

/-!
# Write rounds

What the messages about a key say of the calls they go back to, who has
answered a WANT_TO_WRITE, and how many of its responses a server has counted.
-/

namespace CdPraticas.Rounds
open Groups Store Messages Handlers Calls Cluster Keys Runs

section
variable {settings : Settings} {group : Group} {key : String} {v v' : KeyView} {a : Action}

/-! ### What a step leaves of the calls -/

theorem started_cases {i j : Nat} {call found : Call} (was : (v.started i call).calls j = some found) :
    j = i ∧ found = call ∨ j ≠ i ∧ v.calls j = some found := by
  by_cases same : j = i
  · subst same
    rw [started_self] at was
    exact .inl ⟨rfl,(Option.some.inj was).symm⟩
  · exact .inr ⟨same,by rwa [started_ne same] at was⟩
theorem moved_cases {i j : Nat} {call found : Call} {effect : Effect} {pc : Pc}
    (was : (v.moved group i call effect pc).calls j = some found) :
    j = i ∧ found = call.goto pc ∨ j ≠ i ∧ v.calls j = some found := by
  by_cases same : j = i
  · subst same
    rw [moved_self] at was
    exact .inl ⟨rfl,(Option.some.inj was).symm⟩
  · exact .inr ⟨same,by rwa [moved_ne _ _ _ same] at was⟩
theorem handled_cases {j : Nat} {found : Call} {packet : Packet} {sent : Bool} {held : Fields} {sends : List Send}
    {callbacks : List Callback} (was : (v.handled group packet sent held sends callbacks).calls j = some found) :
    ∃ before, v.calls j = some before ∧ found = notify sends callbacks packet sent j before := by
  obtain ⟨before,found',rfl⟩ := Option.map_eq_some_iff.mp was
  exact ⟨before,found',rfl⟩

/-- A call at a later moment: the same call, no phase undone. -/
structure Later (before after : Call) : Prop where
  server : after.server = before.server
  request : after.request = before.request
  asked : before.pc.Asked → after.pc.Asked
  saved : before.pc.Saved → after.pc.Saved
  failed : before.pc.Failed → after.pc.Failed
  aborted : before.pc.Aborted → after.pc.Aborted
  acknowledged : before.acknowledged ⊆ after.acknowledged

theorem Later.refl (call : Call) : Later call call := ⟨rfl,rfl,id,id,id,id,fun _ => id⟩

theorem move_later {participants : Int} {stored : Option DataEntity} {call : Call} {choice : Choice} {effect : Effect}
    {pc : Pc} (move : Move settings participants stored call choice effect pc) (fits : call.pc.Fits call.request) :
    Later call (call.goto pc) :=
  ⟨rfl,rfl,fun asked => move.asked asked fits,fun saved => move.saved saved fits,move.failed,move.aborted,fun _ => id⟩

theorem notify_later (sends : List Send) (callbacks : List Callback) (packet : Packet) (sent : Bool) (i : Nat)
    (call : Call) : Later call (notify sends callbacks packet sent i call) := by
  refine ⟨by simp,by simp,by simp,by simp,by simp,by simp,?_⟩
  rw [notify_acknowledged]
  split_ifs
  · exact fun _ => List.mem_cons_of_mem _
  · exact fun _ => id

/-- A step keeps every call there is. -/
theorem step_later (sound : Sound group key v) (step : KeyStep settings group key v a v') {i : Nat} {call : Call}
    (found : v.calls i = some call) : ∃ after, v'.calls i = some after ∧ Later call after := by
  cases step with
  | elsewhere _ => exact ⟨call,found,.refl call⟩
  | @call j server request fresh member about =>
    have different : i ≠ j := by rintro rfl; rw [fresh] at found; cases found
    exact ⟨call,by rw [started_ne different]; exact found,.refl call⟩
  | @thread j choice moving effect pc running move =>
    by_cases same : i = j
    · subst same
      rw [running] at found
      cases found
      exact ⟨_,moved_self ..,move_later move (sound.fits i _ running)⟩
    · exact ⟨call,by rw [moved_ne _ _ _ same]; exact found,.refl call⟩
  | service _ _ => exact ⟨call,found,.refl call⟩
  | deliver _ _ _ _ => exact ⟨_,by rw [handled_calls,found]; rfl,notify_later ..⟩

/-! ### What the messages in flight say -/

/-- What a message says of the call it goes back to. -/
def Owned (packet : Packet) (call : Call) : Message → Prop
  | .askData _ => (∃ key, call.request = .read key) ∧ packet.sender = call.server
  | .askDataResponse _ => (∃ key, call.request = .read key) ∧ packet.receiver = call.server ∧ packet.sender ≠ call.server
  | .wantToWrite data => call.request = .write data ∧ packet.sender = call.server ∧ call.pc.Asked
  | .wantToWriteResponse _ =>
    (∃ data, call.request = .write data) ∧ packet.receiver = call.server ∧ packet.sender ∈ call.acknowledged
  | .writeConflict data => call.request = .write data ∧ packet.sender ≠ call.server ∧ call.pc.Asked
  | .dataWritten _ => packet.sender = call.server ∧ call.pc.Saved
  | .revalidateData _ => packet.sender = call.server ∧ call.pc.Aborted
  | .startupRequestUpdate _ | .startupResponseUpdate _ => False

theorem Owned.later {packet : Packet} {before after : Call} {message : Message} (owned : Owned packet before message)
    (later : Later before after) : Owned packet after message := by
  cases message <;> simp only [Owned,later.server,later.request] at owned ⊢
  case wantToWrite | writeConflict => exact ⟨owned.1,owned.2.1,later.asked owned.2.2⟩
  case wantToWriteResponse => exact ⟨owned.1,owned.2.1,later.acknowledged owned.2.2⟩
  case dataWritten => exact ⟨owned.1,later.saved owned.2⟩
  case revalidateData => exact ⟨owned.1,later.aborted owned.2⟩
  all_goals exact owned

/-- A WANT_TO_WRITE of call `i` on its way to `receiver`. -/
def Asking (i : Nat) (receiver : SpreadGroup) (packet : Packet) : Prop :=
  packet.call = some i ∧ packet.receiver = receiver ∧
    match packet.body with
    | .regular (.wantToWrite _) => True
    | _ => False

instance (i : Nat) (receiver : SpreadGroup) : DecidablePred (Asking i receiver) := fun packet =>
  haveI : Decidable (match packet.body with
    | .regular (.wantToWrite _) => True
    | _ => False) := by
    split <;> infer_instance
  inferInstanceAs (Decidable (_ ∧ _ ∧ _))

/-- The messages in flight fit the calls they go back to, and a server is asked at
    most once for each write. -/
structure Formed (group : Group) (v : KeyView) : Prop where
  owned : ∀ packet ∈ v.network, ∀ message i call, packet.body = .regular message → packet.call = some i →
    v.calls i = some call → Owned packet call message
  answering : ∀ i call, v.calls i = some call → ∀ server ∈ call.acknowledged,
    server ∈ group.others call.server ∧ call.pc.Asked
  once : ∀ i call server, v.calls i = some call →
    v.network.countP (Asking i server) + call.acknowledged.count server ≤ 1

/-- What a call multicasts fits the call. -/
theorem move_owned {participants : Int} {stored : Option DataEntity} {i : Nat} {call : Call} {choice : Choice}
    {effect : Effect} {pc : Pc} (move : Move settings participants stored call choice effect pc)
    (fits : call.pc.Fits call.request) {packet : Packet}
    (sent : packet ∈ packets group.members call.server (some i) effect.sends) {message : Message}
    (body : packet.body = .regular message) : Owned packet (call.goto pc) message := by
  cases move with
  | sendWantToWrite write here =>
    obtain ⟨_,_,rfl⟩ := List.mem_map.mp (Multiset.mem_coe.mp (by simpa [Effect.sends] using sent))
    cases body
    exact ⟨write,rfl,trivial⟩
  | sendDataWritten write here =>
    obtain ⟨_,_,rfl⟩ := List.mem_map.mp (Multiset.mem_coe.mp (by simpa [Effect.sends] using sent))
    cases body
    rw [here,write] at fits
    refine ⟨rfl,?_⟩
    rcases fits with rfl | rfl <;> rfl
  | sendRevalidate write here =>
    obtain ⟨_,_,rfl⟩ := List.mem_map.mp (Multiset.mem_coe.mp (by simpa [Effect.sends] using sent))
    cases body
    exact ⟨rfl,rfl⟩
  | sendAskData read here =>
    obtain ⟨_,_,rfl⟩ := List.mem_map.mp (Multiset.mem_coe.mp (by simpa [Effect.sends] using sent))
    cases body
    exact ⟨⟨_,read⟩,rfl⟩
  | _ => simp [Effect.sends] at sent

/-- What a server may send in answer to a message. -/
inductive Replies (packet : Packet) : Message → List Send → Prop
  | nothing {message : Message} : Replies packet message []
  | answers {key : String} {dataDto : DataDto} (foreign : packet.sender ≠ packet.receiver) :
      Replies packet (.askData key) [.unicast (.askDataResponse dataDto) packet.sender]
  | grants {data : DataDto} (foreign : packet.sender ≠ packet.receiver) :
      Replies packet (.wantToWrite data) [.unicast (.wantToWriteResponse data.key) packet.sender]
  | refuses {data : DataDto} (foreign : packet.sender ≠ packet.receiver) :
      Replies packet (.wantToWrite data) [.multicast (.writeConflict data)]

theorem handled_replies {participants : Int} {packet : Packet} {held held' : Fields} {message : Message} {sends : List Send}
    {callbacks : List Callback}
    (handled : Handled settings participants packet.receiver packet.sender held message held' sends callbacks) :
    Replies packet message sends := by
  cases handled with
  | answered foreign _ _ => exact .answers foreign
  | granted foreign _ =>
    split_ifs
    · exact .nothing
    · exact .grants foreign
  | refused foreign _ => exact .refuses foreign
  | _ => exact .nothing

theorem Replies.tagged {packet new : Packet} {message : Message} {sends : List Send} {members : List SpreadGroup}
    (replies : Replies packet message sends) (sent : new ∈ packets members packet.receiver packet.call sends) :
    new.call = packet.call := by
  cases replies with
  | nothing => simp at sent
  | answers _ | grants _ =>
    rw [packets_unicast,Multiset.mem_singleton] at sent
    rw [sent]
  | refuses _ =>
    rw [packets_multicast] at sent
    obtain ⟨_,_,rfl⟩ := List.mem_map.mp (Multiset.mem_coe.mp sent)
    rfl

/-- What a handler sends fits the call its message goes back to. -/
theorem Replies.owned {packet new : Packet} {message reply : Message} {sends : List Send} {callbacks : List Callback} {i : Nat}
    {call : Call} (replies : Replies packet message sends) (tag : packet.call = some i) (owned : Owned packet call message)
    (sent : new ∈ packets group.members packet.receiver packet.call sends) (body : new.body = .regular reply) :
    Owned new (notify sends callbacks packet true i call) reply := by
  refine Owned.later ?_ (.refl _)
  cases replies with
  | nothing => simp at sent
  | answers foreign =>
    rw [packets_unicast,Multiset.mem_singleton] at sent
    subst sent
    cases body
    obtain ⟨read,sender⟩ := owned
    exact ⟨by rwa [notify_request],by simpa using sender,by simpa [← sender] using Ne.symm foreign⟩
  | grants foreign =>
    obtain ⟨write,sender,_⟩ := owned
    rw [packets_unicast,Multiset.mem_singleton] at sent
    subst sent
    cases body
    refine ⟨⟨_,by rw [notify_request]; exact write⟩,by simpa using sender,?_⟩
    rw [notify_acknowledged,if_pos ⟨tag,rfl,by simp [acknowledges]⟩]
    exact List.mem_cons_self
  | refuses foreign =>
    obtain ⟨write,sender,asked⟩ := owned
    rw [packets_multicast] at sent
    obtain ⟨_,_,rfl⟩ := List.mem_map.mp (Multiset.mem_coe.mp sent)
    cases body
    exact ⟨by rwa [notify_request],by simpa [← sender] using Ne.symm foreign,by rwa [notify_pc]⟩

/-- A call that has not asked is asked about nowhere and answered by nobody. -/
theorem Formed.unasked (formed : Formed group v) {i : Nat} {call : Call} (sound : Sound group key v)
    (found : v.calls i = some call) (before : ¬ call.pc.Asked) (server : SpreadGroup) :
    v.network.countP (Asking i server) = 0 ∧ call.acknowledged = [] := by
  refine ⟨Multiset.countP_eq_zero.mpr ?_,List.eq_nil_iff_forall_not_mem.mpr ?_⟩
  · rintro packet flying ⟨tag,_,asking⟩
    obtain ⟨_,_,⟨message,body,_⟩,_⟩ := sound.flying packet flying
    have owned := formed.owned packet flying message i call body tag found
    rw [body] at asking
    cases message with
    | wantToWrite data => exact before owned.2.2
    | _ => exact asking
  · intro other member
    exact before (formed.answering i call found other member).2

/-- Taking one message out of the network. -/
theorem countP_taken {P : Packet → Prop} [DecidablePred P] {network : Multiset Packet} {packet : Packet}
    (flying : packet ∈ network) :
    network.countP P = (network.erase packet).countP P + if P packet then 1 else 0 := by
  conv_lhs => rw [← Multiset.cons_erase flying]
  rw [Multiset.countP_cons]

/-- A multicast puts one message on its way to each member. -/
theorem countP_multicast {members : List SpreadGroup} (distinct : members.Nodup) (sender : SpreadGroup)
    (call : Option Nat) (message : Message) (i : Nat) (server : SpreadGroup) :
    (packets members sender call [.multicast message]).countP (Asking i server) ≤ 1 := by
  rw [packets_multicast,Multiset.coe_countP,List.countP_map]
  calc members.countP _ ≤ members.countP (fun member => member == server) := by
        apply List.countP_mono_left
        intro member _ asking
        have asked := of_decide_eq_true asking
        exact beq_iff_eq.mpr asked.2.1
    _ = members.count server := rfl
    _ ≤ 1 := List.nodup_iff_count_le_one.mp distinct server

/-- What a call or a handler sends asks for nothing, except the WANT_TO_WRITE itself. -/
theorem countP_sends {effect : Effect} {sender : SpreadGroup} {i j : Nat} {server : SpreadGroup}
    (other : j ≠ i ∨ ∀ data, effect ≠ .multicast (.wantToWrite data)) :
    (packets group.members sender (some i) effect.sends).countP (Asking j server) = 0 := by
  refine Multiset.countP_eq_zero.mpr ?_
  rintro packet member ⟨tag,_,asking⟩
  cases effect with
  | multicast message =>
    obtain ⟨_,_,rfl⟩ := List.mem_map.mp (Multiset.mem_coe.mp (by simpa [Effect.sends] using member))
    rcases other with other | other
    · exact other (Option.some.inj tag).symm
    · cases message with
      | wantToWrite data => exact other data rfl
      | _ => exact asking
  | _ => simp [Effect.sends] at member

theorem Replies.asks_nobody {packet : Packet} {message : Message} {sends : List Send} {j : Nat} {server : SpreadGroup}
    (replies : Replies packet message sends) :
    (packets group.members packet.receiver packet.call sends).countP (Asking j server) = 0 := by
  refine Multiset.countP_eq_zero.mpr ?_
  rintro new member ⟨_,_,asking⟩
  cases replies with
  | nothing => simp at member
  | answers _ | grants _ =>
    rw [packets_unicast,Multiset.mem_singleton] at member
    subst member
    exact asking
  | refuses _ =>
    rw [packets_multicast] at member
    obtain ⟨_,_,rfl⟩ := List.mem_map.mp (Multiset.mem_coe.mp member)
    exact asking

theorem Replies.acknowledges {packet : Packet} {message : Message} {sends : List Send} (replies : Replies packet message sends)
    (acknowledging : Cluster.acknowledges sends = true) :
    ∃ data, message = .wantToWrite data ∧ packet.sender ≠ packet.receiver := by
  cases replies with
  | grants foreign => exact ⟨_,rfl,foreign⟩
  | _ => simp [Cluster.acknowledges] at acknowledging

/-- A handler acknowledges a write only in answer to its WANT_TO_WRITE. -/
theorem handled_acknowledges {participants : Int} {packet : Packet} {held held' : Fields} {message : Message}
    {sends : List Send} {callbacks : List Callback}
    (handled : Handled settings participants packet.receiver packet.sender held message held' sends callbacks)
    (acknowledging : acknowledges sends = true) :
    ∃ data, message = .wantToWrite data ∧ packet.sender ≠ packet.receiver ∧ held.slot = none := by
  cases handled with
  | granted foreign free => exact ⟨_,rfl,foreign,free⟩
  | _ => simp [acknowledges] at acknowledging

theorem Formed.of_started (formed : Formed group v) (sound : Sound group key v) {i : Nat} {server : SpreadGroup}
    {request : Request} (startingUp : Bool) (fresh : v.calls i = none) :
    Formed group (v.started i (.start startingUp server request)) := by
  have noTag : ∀ packet ∈ v.network, packet.call ≠ some i := by
    intro packet flying own
    obtain ⟨_,_,_,j,call,tag,found⟩ := sound.flying packet flying
    rw [tag] at own
    cases own
    rw [fresh] at found
    cases found
  refine ⟨?_,?_,?_⟩
  · intro packet flying message j call body tag found
    rcases started_cases found with ⟨rfl,_⟩ | ⟨_,found⟩
    · exact absurd tag (noTag packet flying)
    · exact formed.owned packet flying message j call body tag found
  · intro j call found other member
    rcases started_cases found with ⟨_,rfl⟩ | ⟨_,found⟩
    · simp at member
    · exact formed.answering j call found other member
  · intro j call other found
    rcases started_cases found with ⟨rfl,rfl⟩ | ⟨_,found⟩
    · have unasked : v.network.countP (Asking j other) = 0 :=
        Multiset.countP_eq_zero.mpr fun packet flying asking => noTag packet flying asking.1
      rw [started_network,unasked]
      simp
    · exact formed.once j call other found

theorem Formed.of_moved (formed : Formed group v) (sound : Sound group key v) {i : Nat} {choice : Choice} {call : Call}
    {effect : Effect} {pc : Pc} (found : v.calls i = some call)
    (move : Move settings group.members.length (v.held call.server).row call choice effect pc) :
    Formed group (v.moved group i call effect pc) := by
  have fits := sound.fits i call found
  have later := move_later move fits
  refine ⟨?_,?_,?_⟩
  · intro packet inside message j other body tag was
    rcases Multiset.mem_add.mp inside with flying | flying
    · rcases moved_cases was with ⟨rfl,rfl⟩ | ⟨_,was⟩
      · exact (formed.owned packet flying message j call body tag found).later later
      · exact formed.owned packet flying message j other body tag was
    · obtain ⟨_,newTag,_,_⟩ := sends_about (move.key (sound.keyed i call found)) packet flying
      rw [newTag] at tag
      cases tag
      rw [moved_self] at was
      cases was
      exact move_owned move fits flying body
  · intro j other was server member
    rcases moved_cases was with ⟨rfl,rfl⟩ | ⟨_,was⟩
    · obtain ⟨inside,asked⟩ := formed.answering j call found server member
      exact ⟨inside,later.asked asked⟩
    · exact formed.answering j other was server member
  · intro j other server was
    rw [moved_network,Multiset.countP_add]
    rcases moved_cases was with ⟨rfl,rfl⟩ | ⟨different,was⟩
    · by_cases asks : ∃ data, effect = .multicast (.wantToWrite data)
      · obtain ⟨data,rfl⟩ := asks
        have before : ¬ call.pc.Asked := by cases move with | sendWantToWrite _ here => simp [here,Pc.Asked]
        obtain ⟨none,nobody⟩ := formed.unasked sound found before server
        have one := countP_multicast group.distinct call.server (some j) (.wantToWrite data) j server
        rw [none,goto_acknowledged,nobody,Effect.sends]
        simpa using one
      · have silent : (packets group.members call.server (some j) effect.sends).countP (Asking j server) = 0 :=
          countP_sends (.inr fun data same => asks ⟨data,same⟩)
        rw [silent]
        exact formed.once j call server found
    · rw [countP_sends (.inl different)]
      exact formed.once j other server was

theorem Formed.of_dropped (formed : Formed group v) (packet : Packet) : Formed group (v.dropped packet) := by
  refine ⟨fun other flying => formed.owned other (Multiset.mem_of_mem_erase flying),formed.answering,?_⟩
  intro i call server found
  have fewer := Multiset.countP_le_of_le (Asking i server) (Multiset.erase_le packet v.network)
  have once := formed.once i call server found
  rw [dropped_network]
  omega

/-- The answer of a server, with `kept` of what was in flight still in flight. -/
theorem Formed.of_replies (formed : Formed group v) (sound : Sound group key v) {packet : Packet} {sent : Bool}
    {message : Message} {sends : List Send} {callbacks : List Callback} {kept : Multiset Packet} (flying : packet ∈ v.network)
    (server : isService packet.receiver = false) (body : packet.body = .regular message)
    (replies : Replies packet message sends) (fewer : kept ≤ v.network)
    (settled : acknowledges sends = true → kept = v.network.erase packet)
    (calls : ∀ i, v'.calls i = (v.calls i).map (notify sends callbacks packet sent i))
    (network : v'.network = kept + if sent then packets group.members packet.receiver packet.call sends else 0) :
    Formed group v' := by
  obtain ⟨receiverIn,_,_,origin,originCall,tag,originFound⟩ := sound.flying packet flying
  have owned := formed.owned packet flying message origin originCall body tag originFound
  have before : ∀ {i call}, v'.calls i = some call →
      ∃ was, v.calls i = some was ∧ call = notify sends callbacks packet sent i was := by
    intro i call now
    rw [calls] at now
    obtain ⟨was,found,rfl⟩ := Option.map_eq_some_iff.mp now
    exact ⟨was,found,rfl⟩
  refine ⟨?_,?_,?_⟩
  · intro other flying' reply j call replyBody replyTag now
    obtain ⟨was,found,rfl⟩ := before now
    rw [network] at flying'
    rcases Multiset.mem_add.mp flying' with old | new
    · exact (formed.owned other (Multiset.mem_of_le fewer old) reply j was replyBody replyTag found).later (notify_later ..)
    · cases sent with
      | false => simp at new
      | true =>
        rw [replies.tagged new,tag] at replyTag
        cases replyTag
        rw [originFound] at found
        cases found
        exact replies.owned tag owned new replyBody
  · intro j call now other member
    obtain ⟨was,found,rfl⟩ := before now
    rw [notify_acknowledged] at member
    rw [notify_server,notify_pc]
    split_ifs at member with acknowledging
    · rcases List.mem_cons.mp member with rfl | member
      · obtain ⟨ownTag,_,grants⟩ := acknowledging
        obtain ⟨data,rfl,foreign⟩ := replies.acknowledges grants
        rw [tag] at ownTag
        cases ownTag
        rw [originFound] at found
        cases found
        obtain ⟨_,sender,asked⟩ := owned
        refine ⟨Group.mem_others.mpr ⟨Group.mem_servers.mpr ⟨receiverIn,server⟩,?_⟩,asked⟩
        rw [← sender]
        exact Ne.symm foreign
      · exact formed.answering j was found other member
    · exact formed.answering j was found other member
  · intro j call other now
    obtain ⟨was,found,rfl⟩ := before now
    have once := formed.once j was other found
    have silent : (if sent then packets group.members packet.receiver packet.call sends else 0).countP
        (Asking j other) = 0 := by
      split_ifs
      · exact replies.asks_nobody
      · rfl
    have less := Multiset.countP_le_of_le (Asking j other) fewer
    rw [network,Multiset.countP_add,silent,notify_acknowledged]
    split_ifs with acknowledging
    · obtain ⟨ownTag,_,grants⟩ := acknowledging
      obtain ⟨data,rfl,_⟩ := replies.acknowledges grants
      rw [countP_taken flying,← settled grants] at once
      by_cases here : other = packet.receiver
      · subst here
        have asking : Asking j packet.receiver packet := ⟨ownTag,rfl,by rw [body]; trivial⟩
        rw [if_pos asking] at once
        rw [List.count_cons_self]
        omega
      · rw [List.count_cons_of_ne (Ne.symm here)]
        omega
    · omega

theorem Formed.of_handled (formed : Formed group v) (sound : Sound group key v) {packet : Packet} {sent : Bool}
    {message : Message} {held : Fields} {sends : List Send} {callbacks : List Callback} (flying : packet ∈ v.network)
    (server : isService packet.receiver = false) (body : packet.body = .regular message)
    (handled : Handled settings group.members.length packet.receiver packet.sender (v.held packet.receiver) message held
      sends callbacks) : Formed group (v.handled group packet sent held sends callbacks) :=
  formed.of_replies sound flying server body (handled_replies handled) (Multiset.erase_le ..) (fun _ => rfl) (fun _ => rfl) rfl

theorem Formed.step (formed : Formed group v) (sound : Sound group key v)
    (step : KeyStep settings group key v a v') : Formed group v' := by
  cases step with
  | elsewhere _ => exact formed
  | call fresh _ _ => exact formed.of_started sound _ fresh
  | thread found move => exact formed.of_moved sound found move
  | service _ _ => exact formed.of_dropped _
  | deliver flying server body handled => exact formed.of_handled sound flying server body handled

/-! ### Counting responses -/

/-- A WANT_TO_WRITE_RESPONSE of call `i`. -/
def Answering (i : Nat) (packet : Packet) : Prop :=
  packet.call = some i ∧
    match packet.body with
    | .regular (.wantToWriteResponse _) => True
    | _ => False

instance (i : Nat) : DecidablePred (Answering i) := fun packet =>
  haveI : Decidable (match packet.body with
    | .regular (.wantToWriteResponse _) => True
    | _ => False) := by
    split <;> infer_instance
  inferInstanceAs (Decidable (_ ∧ _))

/-- The responses counted for call `i`. -/
def counted (held : Fields) (i : Nat) : Nat :=
  match held.slot with
  | some wanted => if wanted.callback = i then wanted.receivedResponses else 0
  | none => 0

/-- A response about the key is counted only for the round that it answers. -/
def CountsOwn (key : String) (v : KeyView) : Action → Prop
  | .deliver packet _ =>
    match packet.body, (v.held packet.receiver).slot with
    | .regular (.wantToWriteResponse about), some wanted => about = key → packet.call = some wanted.callback
    | _, _ => True
  | _ => True

instance (key : String) (v : KeyView) : DecidablePred (CountsOwn key v)
  | .deliver packet _ =>
    haveI : Decidable (match packet.body, (v.held packet.receiver).slot with
      | .regular (.wantToWriteResponse about), some wanted => about = key → packet.call = some wanted.callback
      | _, _ => True) := by
      split <;> infer_instance
    this
  | .call _ _ _ | .thread _ _ | .view _ | .boot _ => isTrue trivial

theorem elsewhere_countsOwn (away : v.Elsewhere key a) : CountsOwn key v a := by
  cases a with
  | deliver packet sent =>
    simp only [CountsOwn]
    split
    next about wanted body slot =>
      rintro rfl
      exact absurd (by rw [body]; rfl) away
    next => trivial
  | _ => trivial

/-- Every other server has answered the write, and no answer is left in flight. -/
structure Everybody (group : Group) (v : KeyView) (i : Nat) (call : Call) : Prop where
  acknowledged : group.others call.server ⊆ call.acknowledged
  noAnswers : v.network.countP (Answering i) = 0

/-- While only own responses are counted, they are not more than the servers that
    have answered, and a round that has them all has an answer from every server. -/
structure Tallied (group : Group) (v : KeyView) : Prop where
  tally : ∀ i call, v.calls i = some call →
    v.network.countP (Answering i) + counted (v.held call.server) i ≤ call.acknowledged.length
  complete : ∀ i call data, v.calls i = some call → call.request = .write data → call.responseReceived = true →
    Everybody group v i call
  left : ∀ i call, v.calls i = some call → call.pc.exit? = some .allResponses → Everybody group v i call

/-- The servers that have answered are different others, -/
theorem Formed.few (formed : Formed group v) {i : Nat} {call : Call} (found : v.calls i = some call) :
    call.acknowledged.Subperm (group.others call.server) := by
  have distinct : call.acknowledged.Nodup := by
    refine List.nodup_iff_count_le_one.mpr fun server => ?_
    have once := formed.once i call server found
    omega
  exact distinct.subperm fun server member => (formed.answering i call found server member).1

/-- and all of them once they are as many. -/
theorem Formed.everybody (formed : Formed group v) {i : Nat} {call : Call} (found : v.calls i = some call)
    (many : (group.others call.server).length ≤ call.acknowledged.length) :
    group.others call.server ⊆ call.acknowledged :=
  ((formed.few found).perm_of_length_le many).symm.subset

/-- Then nobody who could still answer is being asked. -/
theorem Everybody.unasked {i : Nat} {call : Call} (all : Everybody group v i call) (formed : Formed group v)
    (found : v.calls i = some call) {packet : Packet} (flying : packet ∈ v.network) {server : SpreadGroup}
    (other : server ∈ group.others call.server) : ¬ Asking i server packet := by
  intro asking
  have once := formed.once i call server found
  have asked := Multiset.countP_pos_of_mem flying asking
  have answered := List.count_pos_iff.mpr (all.acknowledged other)
  omega

theorem counted_access {held : Fields} {i j : Nat} {effect : Effect} : counted (access i held effect) j ≤ counted held j := by
  cases effect with
  | putWantToWrite _ => simp only [counted,access]; split_ifs <;> simp
  | removeWantToWrite _ => simp [counted,access]
  | _ => exact le_rfl

/-- What is sent answers nothing, except in answer to a WANT_TO_WRITE. -/
theorem effect_answers_nothing {effect : Effect} {sender : SpreadGroup} {i j : Nat} {participants : Int}
    {stored : Option DataEntity} {call : Call} {choice : Choice} {pc : Pc}
    (move : Move settings participants stored call choice effect pc) :
    (packets group.members sender (some i) effect.sends).countP (Answering j) = 0 := by
  refine Multiset.countP_eq_zero.mpr ?_
  rintro packet member ⟨_,answering⟩
  cases move with
  | sendWantToWrite _ _ | sendDataWritten _ _ | sendRevalidate _ _ | sendAskData _ _ =>
    obtain ⟨_,_,rfl⟩ := List.mem_map.mp (Multiset.mem_coe.mp (by simpa [Effect.sends] using member))
    exact answering
  | _ => simp [Effect.sends] at member

/-- A response goes out only together with the record of it. -/
theorem Replies.answers_recorded {packet : Packet} {message : Message} {sends : List Send} {callbacks : List Callback}
    {sent : Bool} {j : Nat} {call : Call} (replies : Replies packet message sends) :
    (if sent then packets group.members packet.receiver packet.call sends else 0).countP (Answering j) +
      call.acknowledged.length ≤ (notify sends callbacks packet sent j call).acknowledged.length := by
  have grown : call.acknowledged.length ≤ (notify sends callbacks packet sent j call).acknowledged.length := by
    rw [notify_acknowledged]
    split_ifs <;> simp
  cases sent with
  | false => simpa using grown
  | true =>
    rw [if_pos rfl]
    cases replies with
    | nothing => simpa using grown
    | @grants data foreign =>
      rw [packets_unicast,notify_acknowledged]
      by_cases tag : packet.call = some j
      · have one : ({⟨packet.sender,packet.receiver,.regular (.wantToWriteResponse data.key),packet.call⟩} :
            Multiset Packet).countP (Answering j) ≤ 1 := (Multiset.countP_le_card _ _).trans (by simp)
        rw [if_pos ⟨tag,rfl,by simp [Cluster.acknowledges]⟩,List.length_cons]
        omega
      · have none : ({⟨packet.sender,packet.receiver,.regular (.wantToWriteResponse data.key),packet.call⟩} :
            Multiset Packet).countP (Answering j) = 0 := by
          refine Multiset.countP_eq_zero.mpr fun new member answering => tag ?_
          rw [Multiset.mem_singleton] at member
          subst member
          exact answering.1
        rw [if_neg (fun own => tag own.1),none,zero_add]
    | @answers _ dataDto _ =>
      have none : (packets group.members packet.receiver packet.call
          [.unicast (.askDataResponse dataDto) packet.sender]).countP (Answering j) = 0 := by
        refine Multiset.countP_eq_zero.mpr fun new member answering => ?_
        rw [packets_unicast,Multiset.mem_singleton] at member
        subst member
        exact answering.2
      rw [none,zero_add]
      exact grown
    | @refuses data _ =>
      have none : (packets group.members packet.receiver packet.call
          [.multicast (.writeConflict data)]).countP (Answering j) = 0 := by
        refine Multiset.countP_eq_zero.mpr fun new member answering => ?_
        rw [packets_multicast] at member
        obtain ⟨_,_,rfl⟩ := List.mem_map.mp (Multiset.mem_coe.mp member)
        exact answering.2
      rw [none,zero_add]
      exact grown

/-- Only the last missing response sets the flag of a write. -/
theorem handled_completes {participants : Int} {packet : Packet} {held held' : Fields} {message : Message}
    {sends : List Send} {callbacks : List Callback} {sent : Bool} {j : Nat} {call : Call}
    (handled : Handled settings participants packet.receiver packet.sender held message held' sends callbacks)
    (reader : held.waiting ≠ some j)
    (flag : (notify sends callbacks packet sent j call).responseReceived = true) :
    call.responseReceived = true ∨ (∃ key, message = .wantToWriteResponse key) ∧
      ∃ wanted, held.slot = some wanted ∧ wanted.callback = j ∧ participants - 2 ≤ (wanted.receivedResponses + 1 : Nat) := by
  rw [(notify_references ..).1] at flag
  cases handled with
  | @received _ owner waiting =>
    have different : owner ≠ j := by rintro rfl; exact reader waiting
    simp only [List.foldl_cons,List.foldl_nil,invoke] at flag
    rw [if_neg different] at flag
    exact .inl flag
  | @counted key wanted writing =>
    split_ifs at flag with many
    · simp only [List.foldl_cons,List.foldl_nil,invoke] at flag
      split_ifs at flag with own
      · exact .inr ⟨⟨key,rfl⟩,wanted,writing,own,many⟩
      · exact .inl flag
    · exact .inl flag
  | refused _ _ | disturbed _ _ =>
    simp only [List.foldl_cons,List.foldl_nil,invoke] at flag
    split_ifs at flag <;> exact .inl flag
  | _ => exact .inl flag

theorem Everybody.of_moved {i j : Nat} {call other : Call} {choice : Choice} {effect : Effect} {pc : Pc}
    (all : Everybody group v j other)
    (move : Move settings group.members.length (v.held call.server).row call choice effect pc) :
    Everybody group (v.moved group i call effect pc) j other := by
  refine ⟨all.acknowledged,?_⟩
  rw [moved_network,Multiset.countP_add,effect_answers_nothing move,all.noAnswers]

theorem Everybody.of_handled {j : Nat} {before : Call} {packet : Packet} {sent : Bool} {message : Message} {held : Fields}
    {sends : List Send} {callbacks : List Callback} (all : Everybody group v j before) (formed : Formed group v)
    (sound : Sound group key v) (found : v.calls j = some before) (flying : packet ∈ v.network)
    (server : isService packet.receiver = false) (body : packet.body = .regular message)
    (handled : Handled settings group.members.length packet.receiver packet.sender (v.held packet.receiver) message held
      sends callbacks) :
    Everybody group (v.handled group packet sent held sends callbacks) j (notify sends callbacks packet sent j before) := by
  have answers : (if sent then packets group.members packet.receiver packet.call sends else 0).countP (Answering j) +
      before.acknowledged.length ≤ (notify sends callbacks packet sent j before).acknowledged.length :=
    (handled_replies handled).answers_recorded
  have same : (notify sends callbacks packet sent j before).acknowledged = before.acknowledged := by
    rw [notify_acknowledged]
    refine if_neg ?_
    rintro ⟨tag,_,grants⟩
    obtain ⟨data,rfl,foreign,_⟩ := handled_acknowledges handled grants
    obtain ⟨receiverIn,_⟩ := sound.flying packet flying
    obtain ⟨_,sender,_⟩ := formed.owned packet flying _ j before body tag found
    have other : packet.receiver ∈ group.others before.server :=
      Group.mem_others.mpr ⟨Group.mem_servers.mpr ⟨receiverIn,server⟩,sender ▸ Ne.symm foreign⟩
    exact all.unasked formed found flying other ⟨tag,rfl,by rw [body]; trivial⟩
  have fewer := Multiset.countP_le_of_le (Answering j) (Multiset.erase_le packet v.network)
  have none := all.noAnswers
  refine ⟨by rw [notify_server,same]; exact all.acknowledged,?_⟩
  rw [same] at answers
  rw [handled_network,Multiset.countP_add]
  omega

theorem Tallied.of_started (tallied : Tallied group v) (sound : Sound group key v) {i : Nat} {server : SpreadGroup}
    {request : Request} (startingUp : Bool) (fresh : v.calls i = none) :
    Tallied group (v.started i (.start startingUp server request)) := by
  refine ⟨?_,?_,?_⟩
  · intro j call found
    rcases started_cases found with ⟨rfl,rfl⟩ | ⟨_,found⟩
    · have nothing : v.network.countP (Answering j) = 0 := by
        refine Multiset.countP_eq_zero.mpr fun packet flying answering => ?_
        obtain ⟨_,_,_,i,call,tag,found⟩ := sound.flying packet flying
        rw [answering.1] at tag
        cases tag
        rw [fresh] at found
        cases found
      have noSlot : counted (v.held server) j = 0 := by
        unfold counted
        cases slot : (v.held server).slot with
        | none => rfl
        | some wanted =>
          have different : wanted.callback ≠ j := by
            rintro rfl
            obtain ⟨_,found,_⟩ := sound.wanting server wanted slot
            rw [fresh] at found
            cases found
          exact if_neg different
      rw [started_network,started_held,start_server,nothing,noSlot]
      exact Nat.zero_le _
    · exact tallied.tally j call found
  · intro j call data found write flag
    rcases started_cases found with ⟨rfl,rfl⟩ | ⟨_,found⟩
    · simp at flag
    · obtain ⟨acknowledged,noAnswers⟩ := tallied.complete j call data found write flag
      exact ⟨acknowledged,noAnswers⟩
  · intro j call found left
    rcases started_cases found with ⟨rfl,rfl⟩ | ⟨_,found⟩
    · cases request <;> simp [Call.start,Pc.exit?] at left
    · obtain ⟨acknowledged,noAnswers⟩ := tallied.left j call found left
      exact ⟨acknowledged,noAnswers⟩

theorem Tallied.of_moved (tallied : Tallied group v) {i : Nat} {choice : Choice} {call : Call} {effect : Effect} {pc : Pc}
    (found : v.calls i = some call)
    (move : Move settings group.members.length (v.held call.server).row call choice effect pc) :
    Tallied group (v.moved group i call effect pc) := by
  refine ⟨?_,?_,?_⟩
  · intro j other was
    have before : ∃ other', v.calls j = some other' ∧ other'.server = other.server ∧
        other'.acknowledged = other.acknowledged := by
      rcases moved_cases was with ⟨rfl,rfl⟩ | ⟨_,was⟩
      · exact ⟨call,found,rfl,rfl⟩
      · exact ⟨other,was,rfl,rfl⟩
    obtain ⟨other',was',server,acknowledged⟩ := before
    have tally := tallied.tally j other' was'
    have fewer : counted ((v.moved group i call effect pc).held other.server) j ≤ counted (v.held other.server) j := by
      by_cases here : other.server = call.server
      · rw [here,moved_held_self]
        exact counted_access
      · rw [moved_held_ne _ _ _ here]
    rw [server,acknowledged] at tally
    rw [moved_network,Multiset.countP_add,effect_answers_nothing move]
    omega
  · intro j other data was write flag
    rcases moved_cases was with ⟨rfl,rfl⟩ | ⟨_,was⟩
    · obtain ⟨acknowledged,noAnswers⟩ := (tallied.complete j call data found write flag).of_moved move
      exact ⟨acknowledged,noAnswers⟩
    · exact (tallied.complete j other data was write flag).of_moved move
  · intro j other was left
    rcases moved_cases was with ⟨rfl,rfl⟩ | ⟨_,was⟩
    · have all : Everybody group v j call := by
        rcases move.leaves left with before | flag
        · exact tallied.left j call found before
        · have write : ∃ data, call.request = .write data := by
            cases move <;> simp_all [Pc.exit?]
          obtain ⟨data,write⟩ := write
          exact tallied.complete j call data found write flag
      obtain ⟨acknowledged,noAnswers⟩ := all.of_moved move
      exact ⟨acknowledged,noAnswers⟩
    · exact (tallied.left j other was left).of_moved move

theorem Tallied.of_dropped (tallied : Tallied group v) (packet : Packet) : Tallied group (v.dropped packet) := by
  have fewer := fun i => Multiset.countP_le_of_le (Answering i) (Multiset.erase_le packet v.network)
  have dropped : ∀ {i call}, Everybody group v i call → Everybody group (v.dropped packet) i call := by
    intro i call all
    have none := all.noAnswers
    have less := fewer i
    refine ⟨all.acknowledged,?_⟩
    rw [dropped_network]
    omega
  refine ⟨?_,fun i call data found write flag => dropped (tallied.complete i call data found write flag),
    fun i call found left => dropped (tallied.left i call found left)⟩
  intro i call found
  have tally := tallied.tally i call found
  have less := fewer i
  rw [dropped_network,dropped_held]
  omega

/-- What a handler adds to the count of a round, it takes from the network. -/
theorem handled_counts {participants : Int} {packet : Packet} {held held' : Fields} {message : Message}
    {sends : List Send} {callbacks : List Callback} {j : Nat}
    (handled : Handled settings participants packet.receiver packet.sender held message held' sends callbacks)
    (body : packet.body = .regular message)
    (own : ∀ key wanted, message = .wantToWriteResponse key → held.slot = some wanted → packet.call = some wanted.callback) :
    counted held' j ≤ counted held j + if Answering j packet then 1 else 0 := by
  cases handled with
  | @counted key wanted writing =>
    have tag := own key wanted rfl writing
    simp only [counted,writing]
    split_ifs with same answering
    · exact le_rfl
    · exact absurd ⟨same ▸ tag,by rw [body]; trivial⟩ answering
    · exact Nat.zero_le _
    · exact Nat.zero_le _
  | _ => exact Nat.le_add_right _ _

theorem Tallied.of_handled (tallied : Tallied group v) (formed : Formed group v) (sound : Sound group key v)
    {packet : Packet} {sent : Bool} {message : Message} {held : Fields} {sends : List Send} {callbacks : List Callback}
    (flying : packet ∈ v.network) (server : isService packet.receiver = false) (body : packet.body = .regular message)
    (handled : Handled settings group.members.length packet.receiver packet.sender (v.held packet.receiver) message held
      sends callbacks) (own : CountsOwn key v (.deliver packet sent)) :
    Tallied group (v.handled group packet sent held sends callbacks) := by
  have ownTag : ∀ key wanted, message = .wantToWriteResponse key → (v.held packet.receiver).slot = some wanted →
      packet.call = some wanted.callback := by
    rintro about wanted rfl slot
    obtain ⟨_,_,⟨_,body',sameKey⟩,_⟩ := sound.flying packet flying
    rw [body] at body'
    cases body'
    cases sameKey
    simpa [CountsOwn,body,slot] using own
  refine ⟨?_,?_,?_⟩
  · intro j call was
    obtain ⟨before,found,rfl⟩ := handled_cases was
    have tally := tallied.tally j before found
    rw [countP_taken flying] at tally
    have answers : (if sent then packets group.members packet.receiver packet.call sends else 0).countP (Answering j) +
        before.acknowledged.length ≤ (notify sends callbacks packet sent j before).acknowledged.length :=
      (handled_replies handled).answers_recorded
    have counts : counted ((v.handled group packet sent held sends callbacks).held before.server) j ≤
        counted (v.held before.server) j + if Answering j packet then 1 else 0 := by
      by_cases here : before.server = packet.receiver
      · rw [here,handled_held_self]
        exact handled_counts handled body ownTag
      · rw [handled_held_ne _ _ _ _ _ here]
        exact Nat.le_add_right _ _
    rw [handled_network,Multiset.countP_add,notify_server]
    omega
  · intro j call data was write flag
    obtain ⟨before,found,rfl⟩ := handled_cases was
    rw [notify_request] at write
    have reader : (v.held packet.receiver).waiting ≠ some j := by
      intro waiting
      obtain ⟨other,found',_,read⟩ := sound.waiting _ _ waiting
      rw [found] at found'
      cases found'
      rw [write] at read
      cases read
    rcases handled_completes handled reader flag with flag | ⟨⟨key',rfl⟩,wanted,slot,rfl,many⟩
    · exact (tallied.complete j before data found write flag).of_handled formed sound found flying server body handled
    · have tally := tallied.tally _ before found
      have answering : Answering wanted.callback packet := ⟨ownTag key' wanted rfl slot,by rw [body]; trivial⟩
      obtain ⟨other,found',here,_⟩ := sound.wanting _ wanted slot
      rw [found] at found'
      cases found'
      have atServer : counted (v.held before.server) wanted.callback = wanted.receivedResponses := by
        simp [counted,here,slot]
      rw [countP_taken flying,if_pos answering,atServer] at tally
      have size := Group.others_length (sound.located _ before found)
      have everybody := formed.everybody found (by omega)
      have few := (formed.few found).length_le
      have grown := (notify_later sends callbacks packet sent wanted.callback before).acknowledged
      refine ⟨fun other member => grown (everybody (by simpa using member)),?_⟩
      cases handled with
      | counted _ =>
        rw [handled_network,Multiset.countP_add]
        simp only [packets_nil,ite_self,Multiset.countP_zero]
        omega
      | ignored why => rw [show (v.held packet.receiver).slot = none from why] at slot; cases slot
  · intro j call was left
    obtain ⟨before,found,rfl⟩ := handled_cases was
    rw [notify_pc] at left
    exact (tallied.left j before found left).of_handled formed sound found flying server body handled

theorem Tallied.step (tallied : Tallied group v) (formed : Formed group v) (sound : Sound group key v)
    (step : KeyStep settings group key v a v') (own : CountsOwn key v a) : Tallied group v' := by
  cases step with
  | elsewhere _ => exact tallied
  | call fresh _ _ => exact tallied.of_started sound _ fresh
  | thread found move => exact tallied.of_moved found move
  | service _ _ => exact tallied.of_dropped _
  | deliver flying server body handled => exact tallied.of_handled formed sound flying server body handled own

/-! ### Acknowledgements belong to the round -/

/-- What holds in every state while each response is counted for its own round. -/
structure InRound (group : Group) (v : KeyView) : Prop where
  formed : Formed group v
  tallied : Tallied group v

theorem quiet_formed {s : State} (quiet : Quiet group s) : Formed group (view key s) := by
  refine ⟨?_,?_,?_⟩
  · intro packet flying
    simp [view,quiet.noMessages] at flying
  · intro i call found
    simp [view,quiet.noCalls] at found
  · intro i call server found
    simp [view,quiet.noCalls] at found

theorem quiet_tallied {s : State} (quiet : Quiet group s) : Tallied group (view key s) := by
  refine ⟨?_,?_,?_⟩
  · intro i call found
    simp [view,quiet.noCalls] at found
  · intro i call data found
    simp [view,quiet.noCalls] at found
  · intro i call found
    simp [view,quiet.noCalls] at found

theorem run_in_round {allowed : KeyView → Action → Prop} {acts : List Action} (own : ∀ v a, allowed v a → CountsOwn key v a)
    (inRound : InRound group v) (run : Run (KeySteps settings group key allowed) v acts v') : InRound group v' :=
  run.always inRound fun _ _ _ inRound move =>
    ⟨inRound.formed.step move.1 move.2.2,inRound.tallied.step inRound.formed move.1 move.2.2 (own _ _ move.2.1)⟩

/-- A delivery of a message with `P`. -/
def Delivers (P : Packet → Prop) : Action → Prop
  | .deliver packet _ => P packet
  | _ => False

instance (P : Packet → Prop) [DecidablePred P] : DecidablePred (Delivers P)
  | .deliver packet _ => inferInstanceAs (Decidable (P packet))
  | .call _ _ _ | .thread _ _ | .view _ | .boot _ => isFalse id

/-- `server` has handled the WANT_TO_WRITE of call `i`. -/
def HasHandled (acts : List Action) (i : Nat) (server : SpreadGroup) : Prop := ∃ a ∈ acts, Delivers (Asking i server) a

instance (acts : List Action) (i : Nat) (server : SpreadGroup) : Decidable (HasHandled acts i server) :=
  inferInstanceAs (Decidable (∃ a ∈ acts, _))

end

end CdPraticas.Rounds
