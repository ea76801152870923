import CdPraticas.Tokens
import CdPraticas.Rotation

/-!
# The ring is intact

What holds in every state of every run of the ring: the packets in the log are numbered,
every daemon holds what it has in slots of its own, and the number on the token is never
above what all daemons have. So no daemon ends with an alarm.
-/

namespace CdPraticas.Safety
open Runs Fragments Protocol Delivery Sending Visits TokenRing Tokens Rotation

variable {n : ℕ} [NeZero n] {settings : Settings n} {start : Fin 16} {turn me : Fin n} {s t : State n}

/-- The token that the daemon that has the turn is to take. -/
def live (s : State n) (turn : Fin n) : Token n := (s.daemons (turn - 1)).lastToken

/-- The number on the token goes round with the token. -/
def round (s : State n) (turn : Fin n) : Round (Fin n) ℕ where
  value := (live s turn).aru
  setter := (live s turn).aruLastId
  top := s.log.length
  last p := lastAru (s.daemons p)
  stable p := (s.daemons p).aru
  after i j := (s.daemons i).receivedTokenRounds < (s.daemons j).receivedTokenRounds ∨
    (s.daemons i).receivedTokenRounds = (s.daemons j).receivedTokenRounds ∧ i < j

/-- The most packets that one visit of the token can make. -/
def most (settings : Settings n) : ℕ := min settings.window settings.personalWindow

structure Intact (settings : Settings n) (start : Fin 16) (turn : Fin n) (s : State n) : Prop where
  exited : s.exited = ∅
  token : OneToken start turn s
  keeps : ∀ p, Keeps settings s.log (s.daemons p)
  sound : Sound settings s.log
  submits : ∀ p, Submits settings p s.log (s.submitted p) (s.daemons p)
  seq : (live s turn).seq = s.log.length
  known : ∀ p, (s.daemons p).lastToken.seq ≤ s.log.length
  discarded : ∀ p, (s.daemons p).lastDiscarded = (s.daemons p).aru
  last : ∀ p, lastAru (s.daemons p) ≤ (s.daemons p).myAru
  steady : Steady (round s turn)
  room : ∀ p, s.log.length ≤ (s.daemons p).aru + maxSeqGap + most settings
  small : s.log.length ≤ maxWrapSequenceValue + most settings
  packets : ∀ flight ∈ s.air, ∀ dest pack, flight.wire = .packet dest pack → pack ∈ s.log
  own : ∀ pack ∈ s.log, (s.daemons pack.procId).lastDiscarded < pack.seq →
    ∃ shown, (s.daemons pack.procId).info pack.seq = some ⟨pack,shown⟩
  flowControl : (live s turn).flowControl =
    Int.bmod (∑ p, ((s.daemons p).lastNumRetrans + (s.daemons p).lastNumSent : ℤ)) 65536

/-! ### A token is taken -/

variable {token : Token n} {d' : Daemon n} {sent : List (Packet n)} {wires : List (Wire n)} {more : List DownLink}

/-- The daemon that has the turn is ready for the token. -/
theorem Intact.ready (intact : Intact settings start turn s) (windows : maxSeqGap + most settings ≤ 8192)
    (alike : Alike token (live s turn)) (asks : ∀ rtr ∈ token.rtr, ∀ seq ∈ rtr.seqs, token.aru < seq) :
    Ready settings turn s.log (s.submitted turn) (s.daemons turn) token := by
  have carried : (s.daemons turn).aru ≤ token.aru := by
    rw [alike.aru]
    exact intact.steady.carried turn
  exact {
    keeps := intact.keeps turn
    sound := intact.sound
    continues := fun p => (intact.submits p).continues
    submits := intact.submits turn
    live := alike.seq.trans intact.seq
    known := intact.known turn
    discarded := intact.discarded turn
    last := ⟨intact.steady.stable turn turn,intact.last turn⟩
    carried := carried
    asked := fun rtr mem seq asked => carried.trans (asks rtr mem seq asked).le
    windows := windows
    room := intact.room turn }

theorem live_visit (s : State n) (turn : Fin n) (links : List DownLink) (d' : Daemon n) (sent : List (Packet n))
    (wires : List (Wire n)) : live (s.after turn links d' sent wires) (turn + 1) = d'.lastToken := by
  rw [live,add_sub_cancel_right,daemons_after,if_pos rfl]

/-- A visit of the token is a visit of the number on it. -/
theorem Intact.visit_round (intact : Intact settings start turn s) (alike : Alike token (live s turn))
    (visited : Visited settings turn s.log (s.submitted turn) (s.daemons turn) token d' sent wires) :
    Visit turn d'.myAru (round s turn) (round (s.after turn [] d' sent wires) (turn + 1)) := by
  have turns := intact.token.turns
  have arrived := visited.keeps.arrived.trans visited.keeps.logged
  have mine : lastAru d' = d'.lastToken.aru := by rw [lastAru,visited.installed]; rfl
  refine ⟨fun i => ?_,fun i other => ?_,(intact.last turn).trans visited.grown,arrived,?_,?_,?_,fun i other => ?_,fun i j => ?_⟩
  · rcases turns.cases i with ⟨before,more⟩ | ⟨before,same⟩ <;> simp only [round,Fin.lt_def] <;> omega
  · have apart : i.val ≠ turn.val := fun same => other (Fin.ext same)
    rcases turns.cases i with ⟨before,more⟩ | ⟨before,same⟩ <;> simp only [round,Fin.lt_def] <;> omega
  · change s.log.length ≤ (s.log ++ sent).length
    simp
  · have value := visited.value
    rw [alike.aru,alike.aruLastId] at value
    change (live _ (turn + 1)).aru = _ ∧ (live _ (turn + 1)).aruLastId = _ ∧ _ ∨
      (live _ (turn + 1)).aru = _ ∧ (live _ (turn + 1)).aruLastId = _ ∧ _
    rw [live_visit]
    exact value
  · change lastAru ((s.after turn [] d' sent wires).daemons turn) = (live _ (turn + 1)).aru ∧
      ((s.after turn [] d' sent wires).daemons turn).aru = min (live _ (turn + 1)).aru (lastAru (s.daemons turn))
    rw [live_visit,daemons_after,if_pos rfl]
    exact ⟨mine,visited.aru⟩
  · change lastAru ((s.after turn [] d' sent wires).daemons i) = _ ∧ ((s.after turn [] d' sent wires).daemons i).aru = _
    rw [daemons_after,if_neg other]
    exact ⟨rfl,rfl⟩
  · have rounds := visited.rounds
    simp only [round,daemons_after]
    by_cases here : i = turn <;> by_cases there : j = turn
    · simp [here,there]
    · rcases turns.cases j with ⟨before,_⟩ | ⟨before,_⟩ <;>
        simp only [here,there,if_true,if_false,not_true_eq_false,ne_eq,false_and,iff_false,Fin.lt_def] <;> omega
    · have apart : i.val ≠ turn.val := fun same => here (Fin.ext same)
      rcases turns.cases i with ⟨before,_⟩ | ⟨before,_⟩ <;>
        simp only [here,there,if_true,if_false,not_false_eq_true,ne_eq,true_and,true_or,iff_true,Fin.lt_def] <;> omega
    · simp [here,there]

/-- As many packets are made as have slots of their own at every daemon. -/
theorem Intact.room_visit (intact : Intact settings start turn s) (small : token.seq ≤ maxWrapSequenceValue)
    (alike : Alike token (live s turn))
    (visited : Visited settings turn s.log (s.submitted turn) (s.daemons turn) token d' sent wires) :
    (s.log ++ sent).length ≤ maxWrapSequenceValue + most settings ∧
      ∀ p, (s.log ++ sent).length ≤ (s.daemons p).aru + maxSeqGap + most settings := by
  have few := visited.few
  have allowed := fcAllowed_le settings ((s.daemons turn).receive token) token.flowControl
  have seq := alike.seq.trans intact.seq
  rw [List.length_append]
  refine ⟨by unfold most; omega,fun p => ?_⟩
  have oldest : (s.daemons turn).aru ≤ (s.daemons p).aru := (intact.visit_round alike visited).oldest intact.steady p
  have room := intact.room p
  by_cases none : ((s.daemons turn).receive token).fcAllowed settings token.flowControl = 0
  · omega
  · have near : max (s.daemons turn).highestSeq token.seq ≤ (s.daemons turn).aru + maxSeqGap := highestSeq_le_of_fcAllowed none
    unfold most
    omega

omit [NeZero n] in
/-- A count over all daemons changes by what it changes for one. -/
theorem sum_after (s : State n) (me : Fin n) (links : List DownLink) (d' : Daemon n) (sent : List (Packet n)) (wires : List (Wire n))
    (count : Daemon n → ℤ) : ∑ p, count ((s.after me links d' sent wires).daemons p) =
      ∑ p, count (s.daemons p) - count (s.daemons me) + count d' := by
  have rest : ∑ p ∈ Finset.univ.erase me, count ((s.after me links d' sent wires).daemons p) =
      ∑ p ∈ Finset.univ.erase me, count (s.daemons p) :=
    Finset.sum_congr rfl fun p mem => by rw [daemons_after,if_neg (Finset.ne_of_mem_erase mem)]
  rw [← Finset.add_sum_erase _ _ (Finset.mem_univ me),← Finset.add_sum_erase _ _ (Finset.mem_univ me),rest,daemons_after,if_pos rfl]
  ring

theorem bmod_visit (total : ℤ) (before before' after after' : ℤ) :
    Int.bmod (Int.bmod total 65536 - before - before' + after + after') 65536 =
      Int.bmod (total - (before + before') + (after + after')) 65536 := by
  have join : Int.bmod total 65536 - before - before' + after + after' = Int.bmod total 65536 + (-(before + before') + (after + after')) := by
    ring
  rw [join,Int.bmod_add_bmod]
  congr 1
  ring

theorem Intact.visit (intact : Intact settings start turn s) (windows : maxSeqGap + most settings ≤ 8192) (small : token.seq ≤ maxWrapSequenceValue)
    (alike : Alike token (live s turn))
    (visited : Visited settings turn s.log (s.submitted turn) (s.daemons turn) token d' sent wires) :
    Intact settings start (turn + 1) (s.after turn [] d' sent wires) := by
  have grows := intact.visit_round alike visited
  obtain ⟨below,room⟩ := intact.room_visit small alike visited
  have others {p : Fin n} (other : p ≠ turn) : (s.after turn [] d' sent wires).daemons p = s.daemons p := by
    rw [daemons_after,if_neg other]
  have here : (s.after turn [] d' sent wires).daemons turn = d' := by rw [daemons_after,if_pos rfl]
  constructor
  case exited => exact intact.exited
  case token => exact intact.token.visit alike visited
  case keeps =>
    intro p
    by_cases same : p = turn
    · rw [same,here]
      exact visited.keeps
    · rw [others same]
      have near := room p
      have discarded := intact.discarded p
      exact Holds.append (intact.keeps p) sent (by omega)
  case sound => exact visited.sound
  case submits =>
    intro p
    change Submits settings p (s.log ++ sent) (Function.update s.submitted turn (s.submitted turn ++ []) p) _
    by_cases same : p = turn
    · rw [same,here,Function.update_self,List.append_nil]
      exact visited.submits
    · rw [others same,Function.update_of_ne same]
      exact (intact.submits p).elsewhere fun pack mem => by rw [visited.mine pack mem]; exact Ne.symm same
  case seq =>
    rw [live_visit]
    exact visited.top
  case known =>
    intro p
    by_cases same : p = turn
    · rw [same,here]
      exact visited.top.le
    · rw [others same]
      exact (intact.known p).trans (List.prefix_append ..).length_le
  case discarded =>
    intro p
    by_cases same : p = turn
    · rw [same,here]
      exact visited.discarded
    · rw [others same]
      exact intact.discarded p
  case last =>
    intro p
    by_cases same : p = turn
    · rw [same,here,lastAru,visited.installed]
      rcases visited.value with ⟨kept,_,le⟩ | ⟨set,_⟩ <;> simp <;> omega
    · rw [others same]
      exact intact.last p
  case steady => exact intact.steady.visit grows
  case room =>
    intro p
    have grown : (s.daemons p).aru ≤ ((s.after turn [] d' sent wires).daemons p).aru := grows.stable_mono intact.steady p
    have near := room p
    change (s.log ++ sent).length ≤ _
    omega
  case small => exact below
  case packets =>
    intro flight mem dest pack wire
    rcases List.mem_append.mp mem with old | new
    · exact List.mem_append_left _ (intact.packets flight old dest pack wire)
    · obtain ⟨_,sent',rfl⟩ := List.mem_map.mp new
      rcases visited.onlyLog _ sent' with left | ⟨_,_,packet,logged⟩
      · cases left.symm.trans wire
      · cases packet.symm.trans wire
        exact logged
  case own =>
    intro pack mem above
    by_cases same : pack.procId = turn
    · have discarded := intact.discarded turn
      have discarded' := visited.discarded
      have grown : (s.daemons turn).aru ≤ ((s.after turn [] d' sent wires).daemons turn).aru := grows.stable_mono intact.steady turn
      rw [here] at grown
      rw [same,here] at above ⊢
      rcases List.mem_append.mp mem with old | new
      · have held := intact.own pack old
        rw [same] at held
        obtain ⟨shown,found⟩ := held (by omega)
        exact visited.later.held _ ⟨pack,shown⟩ found above
      · exact visited.held pack new above
    · rw [others same] at above ⊢
      rcases List.mem_append.mp mem with old | new
      · exact intact.own pack old above
      · exact absurd (visited.mine pack new) same
  case flowControl =>
    rw [live_visit,visited.flowControl,alike.flowControl,intact.flowControl,bmod_visit,
      sum_after s turn [] d' sent wires fun d => d.lastNumRetrans + d.lastNumSent]

/-! ### Nothing is taken -/

/-- The turn and the number on the token stay. -/
theorem round_quiet (quiet : Quiet settings me s.log more (s.daemons me) d' wires) (turn : Fin n) :
    Alike (live (s.after me more d' [] wires) turn) (live s turn) ∧ round (s.after me more d' [] wires) turn = round s turn := by
  have alike (p : Fin n) : Alike ((s.after me more d' [] wires).daemons p).lastToken (s.daemons p).lastToken := by
    rw [daemons_after]
    split
    next here => rw [here]; exact quiet.token
    next => exact .rfl
  have rest (p : Fin n) : ((s.after me more d' [] wires).daemons p).receivedTokenRounds = (s.daemons p).receivedTokenRounds ∧
      ((s.after me more d' [] wires).daemons p).aru = (s.daemons p).aru ∧
      lastAru ((s.after me more d' [] wires).daemons p) = lastAru (s.daemons p) := by
    rw [daemons_after]
    split
    next here => rw [here,lastAru,lastAru,quiet.installed,quiet.token.aru]; exact ⟨quiet.rounds,quiet.aru,rfl⟩
    next => exact ⟨rfl,rfl,rfl⟩
  have value : Alike (live (s.after me more d' [] wires) turn) (live s turn) := alike (turn - 1)
  refine ⟨value,?_⟩
  have log : (s.after me more d' [] wires).log = s.log := List.append_nil _
  simp only [round,value.aru,value.aruLastId,log,rest]

theorem Intact.quiet (intact : Intact settings start turn s)
    (quiet : Quiet settings me s.log more (s.daemons me) d' wires) : Intact settings start turn (s.after me more d' [] wires) := by
  obtain ⟨alike,same⟩ := round_quiet quiet turn
  have log : (s.after me more d' [] wires).log = s.log := List.append_nil _
  have here : (s.after me more d' [] wires).daemons me = d' := by rw [daemons_after,if_pos rfl]
  have others {p : Fin n} (other : p ≠ me) : (s.after me more d' [] wires).daemons p = s.daemons p := by
    rw [daemons_after,if_neg other]
  constructor
  case exited => exact intact.exited
  case token => exact intact.token.quiet quiet more
  case keeps =>
    intro p
    rw [log]
    by_cases mine : p = me
    · rw [mine,here]
      exact quiet.keeps
    · rw [others mine]
      exact intact.keeps p
  case sound => exact log.symm ▸ intact.sound
  case submits =>
    intro p
    rw [log]
    change Submits settings p s.log (Function.update s.submitted me (s.submitted me ++ more) p) _
    by_cases mine : p = me
    · rw [mine,here,Function.update_self]
      exact quiet.submits _ (intact.submits me)
    · rw [others mine,Function.update_of_ne mine]
      exact intact.submits p
  case seq => rw [alike.seq,log,intact.seq]
  case known =>
    intro p
    rw [log]
    by_cases mine : p = me
    · rw [mine,here,quiet.token.seq]
      exact intact.known me
    · rw [others mine]
      exact intact.known p
  case discarded =>
    intro p
    by_cases mine : p = me
    · rw [mine,here,quiet.discarded,quiet.aru]
      exact intact.discarded me
    · rw [others mine]
      exact intact.discarded p
  case last =>
    intro p
    by_cases mine : p = me
    · rw [mine,here,lastAru,quiet.installed,quiet.token.aru]
      exact (intact.last me).trans quiet.grown
    · rw [others mine]
      exact intact.last p
  case steady => exact same.symm ▸ intact.steady
  case room =>
    intro p
    rw [log]
    by_cases mine : p = me
    · rw [mine,here,quiet.aru]
      exact intact.room me
    · rw [others mine]
      exact intact.room p
  case small => exact log.symm ▸ intact.small
  case packets =>
    intro flight mem dest pack wire
    rw [log]
    rcases List.mem_append.mp mem with old | new
    · exact intact.packets flight old dest pack wire
    · obtain ⟨_,sent,rfl⟩ := List.mem_map.mp new
      rcases quiet.wires _ sent with hurry | ⟨_,token,_⟩
      · cases hurry.symm.trans wire
      · cases token.symm.trans wire
  case own =>
    intro pack mem above
    rw [log] at mem
    have held := intact.own pack mem
    by_cases mine : pack.procId = me
    · rw [mine] at held above ⊢
      rw [here] at above ⊢
      rw [quiet.discarded] at above
      obtain ⟨shown,found⟩ := held above
      exact quiet.later.held _ ⟨pack,shown⟩ found above
    · rw [others mine] at above ⊢
      exact held above
  case flowControl =>
    rw [alike.flowControl,intact.flowControl]
    congr 1
    refine Finset.sum_congr rfl fun p _ => ?_
    by_cases mine : p = me
    · rw [mine,here,quiet.numRetrans,quiet.numSent]
    · rw [others mine]

/-! ### Any event -/

/-- No event ends a daemon. -/
theorem Intact.handle (intact : Intact settings start turn s) (windows : maxSeqGap + most settings ≤ 8192) {a : Action n}
    (enabled : s.enabled settings a.proc a.event = true) (timely : Timely s a) :
    (∃ d' wires, handle settings a.proc (s.daemons a.proc) a.event = some (d',[],wires) ∧
        Quiet settings a.proc s.log a.event.links (s.daemons a.proc) d' wires) ∨
      a.proc = turn ∧ a.event.links = [] ∧ ∃ token d' sent wires,
        handle settings turn (s.daemons turn) a.event = some (d',sent,wires) ∧ token.seq ≤ maxWrapSequenceValue ∧
        (∃ flight ∈ s.air, flight.wire = .token token) ∧ Alike token (live s turn) ∧
        Visited settings turn s.log (s.submitted turn) (s.daemons turn) token d' sent wires := by
  obtain ⟨me,event⟩ := a
  have keeps := intact.keeps me
  cases event with
  | newMessage link => exact .inl ⟨_,_,rfl,quiet_newMessage keeps link⟩
  | tokenHurry => exact .inl ⟨_,_,rfl,quiet_tokenHurry (quiet_rfl me keeps)⟩
  | setDeliveryThreshold threshold => exact .inl ⟨_,_,rfl,quiet_setDeliveryThreshold keeps threshold⟩
  | deliverAllReliablePackets =>
    obtain ⟨d',run,quiet⟩ := quiet_deliverReliable me keeps intact.sound
    exact .inl ⟨d',[],by simp [TokenRing.handle,run],quiet⟩
  | deliverAgreedPackets =>
    obtain ⟨d',run,quiet⟩ := quiet_deliverAgreed me keeps intact.sound
    exact .inl ⟨d',[],by simp [TokenRing.handle,run],quiet⟩
  | arrival flight =>
    have arrives : flight ∈ s.air ∧ flight.reaches settings me = true := by simpa [State.enabled] using enabled
    obtain ⟨sender,round,wire⟩ := flight
    cases wire with
    | hurry => exact .inl ⟨_,_,rfl,quiet_handleHurry (quiet_rfl me keeps)⟩
    | packet dest pack =>
      obtain ⟨d',run,quiet,_⟩ := quiet_handleBcast me keeps intact.sound (intact.packets _ arrives.1 dest pack rfl)
      exact .inl ⟨d',[],by simp [TokenRing.handle,run],quiet⟩
    | token token =>
      change (∃ d' wires, (s.daemons me).handleToken settings me token = _ ∧ _) ∨ _
      rcases verdict : (s.daemons me).verdict me token with _ | _ | _
      · exact .inl ⟨_,_,by rw [Daemon.handleToken,verdict],quiet_rfl me keeps⟩
      · exact .inl ⟨_,_,by rw [Daemon.handleToken,verdict],quiet_retransToken keeps token⟩
      · obtain ⟨rfl,previous,last,small⟩ := intact.token.accept arrives.1 rfl arrives.2 (of_decide_eq_true timely) verdict
        have copy := intact.token.copies _ arrives.1 token rfl
        rw [previous] at copy
        have alike := copy.alike last
        obtain ⟨d',sent,wires,run,visited⟩ := (intact.ready windows alike copy.asks).acceptToken
        exact .inr ⟨rfl,rfl,token,d',sent,wires,by simp only [TokenRing.handle,Daemon.handleToken,verdict]; exact run,small,
          ⟨_,arrives.1,rfl⟩,alike,visited⟩

/-- A step takes no token, or the daemon that has the turn takes a copy of the last one. -/
theorem Intact.step_cases (intact : Intact settings start turn s) (windows : maxSeqGap + most settings ≤ 8192) {a : Action n}
    (timely : Timely s a) (move : step settings a s = some t) :
    (∃ d' wires, t = s.after a.proc a.event.links d' [] wires ∧
        Quiet settings a.proc s.log a.event.links (s.daemons a.proc) d' wires) ∨
      a.proc = turn ∧ a.event.links = [] ∧ ∃ token d' sent wires, t = s.after turn [] d' sent wires ∧
        token.seq ≤ maxWrapSequenceValue ∧ (∃ flight ∈ s.air, flight.wire = .token token) ∧ Alike token (live s turn) ∧
        Visited settings turn s.log (s.submitted turn) (s.daemons turn) token d' sent wires := by
  unfold TokenRing.step at move
  split at move
  · cases move
  next able =>
    have enabled : s.enabled settings a.proc a.event = true := by
      rw [not_or] at able
      simpa using able.2
    rcases intact.handle windows enabled timely with ⟨d',wires,run,quiet⟩ | ⟨mine,links,token,d',sent,wires,run,rest⟩
    · rw [run] at move
      cases move
      exact .inl ⟨d',wires,rfl,quiet⟩
    · rw [mine,run,links] at move
      cases move
      exact .inr ⟨mine,links,token,d',sent,wires,rfl,rest⟩

/-- Every step keeps the ring intact. The turn passes on when a token is taken. -/
theorem Intact.step (intact : Intact settings start turn s) (windows : maxSeqGap + most settings ≤ 8192) {a : Action n}
    (timely : Timely s a) (move : step settings a s = some t) :
    ∃ turn' d' sent wires, t = s.after a.proc a.event.links d' sent wires ∧
      Later d'.lastDiscarded (s.daemons a.proc) d' ∧ Intact settings start turn' t := by
  rcases intact.step_cases windows timely move with ⟨d',wires,rfl,quiet⟩ | ⟨mine,links,token,d',sent,wires,rfl,small,_,alike,visited⟩
  · exact ⟨turn,d',[],wires,rfl,quiet.discarded ▸ quiet.later,intact.quiet quiet⟩
  · exact ⟨turn + 1,d',sent,wires,by rw [mine,links],mine ▸ visited.later,intact.visit windows small alike visited⟩

/-! ### Whole runs -/

/-- A daemon that has installed a membership has nothing yet. -/
theorem keeps_installed {first : Fin n} (installed : Installed s first) (p : Fin n) : Keeps settings [] (s.daemons p) := by
  obtain ⟨highest,myAru,_,discarded,delivered⟩ := installed.numbers p
  obtain ⟨messages,history⟩ := installed.shown p
  have empty := installed.packets p
  rw [Keeps,discarded,delivered]
  constructor
  case behind => exact le_rfl
  case within => exact Nat.zero_le _
  case arrived => rw [myAru]; exact Nat.zero_le _
  case logged => rw [highest]; exact Nat.zero_le _
  case room => exact Nat.zero_le _
  case slots => simp [empty]
  case present => rw [myAru]; omega
  case reader => rw [history]; exact Logs.reader_start ..
  case kept => simp [history]
  case shown => simp [empty]
  case queues => rw [history,installed.upQueue]; rfl
  case messages => rw [history,messages]; rfl
  case safe => simp [SafeBelow]

theorem intact_installed (settings : Settings n) {first : Fin n} (installed : Installed s first) : ∃ start, Intact settings start first s := by
  obtain ⟨start,arq⟩ := installed.arq
  have last (p : Fin n) : lastAru (s.daemons p) = 0 := if_pos (installed.installed p)
  have log := installed.log
  refine ⟨start,?_⟩
  constructor
  case exited => exact installed.exited
  case token =>
    refine ⟨installed.rounds,arq,fun flight mem token wire => ?_⟩
    rw [installed.air] at mem
    cases List.mem_singleton.mp mem
    cases wire
    exact ⟨rfl,le_rfl,arq _,fun _ => ⟨rfl,rfl,rfl,rfl,rfl⟩,by simp⟩
  case keeps => exact fun p => log.symm ▸ keeps_installed installed p
  case sound => exact log.symm ▸ ⟨by simp,by simp,by simp⟩
  case submits =>
    intro p
    rw [log,installed.submitted]
    refine ⟨?_,[],⟨rfl,.nil⟩,?_⟩
    · rw [installed.curElement]
      exact atElement_zero _
    · rw [installed.curElement]
      rfl
  case seq => rw [live,installed.lastSeq,log]; rfl
  case known => exact fun p => (installed.lastSeq p).trans_le (Nat.zero_le _)
  case discarded =>
    intro p
    obtain ⟨_,_,aru,discarded,_⟩ := installed.numbers p
    rw [aru,discarded]
  case last => exact fun p => (last p).trans_le (Nat.zero_le _)
  case steady => exact steady_start last fun p => (installed.numbers p).2.2.1
  case room => exact fun p => by rw [log]; exact Nat.zero_le _
  case small => rw [log]; exact Nat.zero_le _
  case packets =>
    intro flight mem dest pack wire
    rw [installed.air] at mem
    cases List.mem_singleton.mp mem
    cases wire
  case own => rw [log]; simp
  case flowControl => exact installed.flowControl

/-- The ring stays intact in every run. -/
theorem intact_run {s₀ : State n} {first : Fin n} {acts : List (Action n)} (installed : Installed s₀ first)
    (windows : maxSeqGap + most settings ≤ 8192) (run : Run (Restrict Timely (Steps (step settings))) s₀ acts s) :
    ∃ start turn, Intact settings start turn s := by
  refine run.always (P := fun s => ∃ start turn, Intact settings start turn s) ?_ ?_
  · obtain ⟨start,intact⟩ := intact_installed settings installed
    exact ⟨start,first,intact⟩
  · rintro s a t ⟨start,turn,intact⟩ ⟨timely,move⟩
    obtain ⟨turn',_,_,_,_,_,after⟩ := intact.step windows timely move
    exact ⟨start,turn',after⟩

end CdPraticas.Safety
