import CdPraticas.TotalOrder

/-!
# Flow control

How much a visit of the token may send, and where in it. The token carries the number of
packets sent in the last round; as long as sixteen bits hold it, no round sends more than
the two windows allow. The accelerated ring sends the token ahead of the last packets of
a visit, and the token counts them already.
-/

namespace CdPraticas.FlowControl
open Runs Fragments Protocol Delivery Sending Visits TokenRing Tokens Safety TotalOrder

variable {n : ℕ} {settings : Settings n}

/-! ### The packets behind the token -/

/-- As many packets wait for the token to leave as the accelerated window holds. -/
theorem length_queueBcast (settings : Settings n) (packs : List (Packet n)) (queued : List (Packet n) × List (Packet n))
    (few : queued.2.length ≤ if settings.acceleratedRing then settings.acceleratedWindow else 0) :
    (packs.foldl (queueBcast settings) queued).2.length =
      if settings.acceleratedRing then min (queued.2.length + packs.length) settings.acceleratedWindow else 0 := by
  induction packs generalizing queued with
  | nil =>
    change queued.2.length = _
    split at few
    · rw [if_pos ‹_›,List.length_nil]
      omega
    · rw [if_neg ‹_›]
      omega
  | cons pack rest ih =>
    have one : (queueBcast settings queued pack).2.length =
        if settings.acceleratedRing then min (queued.2.length + 1) settings.acceleratedWindow else 0 := by
      unfold queueBcast
      cases accelerated : settings.acceleratedRing with
      | false => simp
      | true =>
        simp only [accelerated,if_true] at few
        by_cases window : settings.acceleratedWindow = 0
        · simp [window]
        · simp only [window,if_true,Bool.not_true,Bool.false_eq_true,or_self,if_false,List.length_append,List.length_drop,
            List.length_singleton]
          omega
    rw [List.foldl_cons,ih _ (by rw [one]; split <;> omega),one]
    split
    · rw [List.length_cons]
      omega
    · rfl

section
variable {me : Fin n} {d d' : Daemon n} {sent : List (Packet n)}

/-- The packets made are numbered in a row. -/
theorem sendNewPackets_seq (numAllowed : ℕ) (d : Daemon n) (run : d.sendNewPackets settings me numAllowed = some (d',sent)) :
    sent.map Packet.seq = List.range' (d.highestSeq + 1) sent.length ∧ d'.highestSeq = d.highestSeq + sent.length := by
  induction numAllowed generalizing d sent with
  | zero =>
    cases run
    exact ⟨rfl,rfl⟩
  | succ numAllowed ih =>
    rw [Daemon.sendNewPackets] at run
    split at run
    · cases run
      exact ⟨rfl,rfl⟩
    · dsimp only at run
      split at run
      · cases run
      next filled _ =>
        split at run
        · cases run
        · obtain ⟨⟨d₁,rest⟩,later,same⟩ := Option.map_eq_some_iff.mp run
          cases same
          obtain ⟨numbers,top⟩ := ih _ later
          have next : max d.highestSeq (d.highestSeq + 1) = d.highestSeq + 1 := by omega
          change rest.map Packet.seq = List.range' (max d.highestSeq (d.highestSeq + 1) + 1) rest.length at numbers
          change d₁.highestSeq = max d.highestSeq (d.highestSeq + 1) + rest.length at top
          rw [next] at numbers top
          refine ⟨?_,?_⟩
          · rw [List.map_cons,numbers,List.length_cons,List.range'_succ]
          · change d₁.highestSeq = d.highestSeq + (rest.length + 1)
            omega

/-- Only packets that are held and asked for are sent again. -/
def Answers (d : Daemon n) (token : Token n) (answer : Answer n) : Prop :=
  ∀ wire ∈ answer.wires, ∃ dest info, wire = .packet dest info.packet ∧
    ∃ rtr ∈ token.rtr, ∃ seq ∈ rtr.seqs, d.info seq = some info

theorem answers_answerRetrans {token : Token n} {answer : Answer n} (answered : d.answerRetrans settings me token = some answer) :
    Answers d token answer := by
  refine foldlM_keeps token.rtr (fun answer rtr answer' mem before run => ?_) (fun _ mem => absurd mem (by simp)) answered
  refine foldlM_keeps rtr.seqs (fun answer seq answer' asked before run => ?_) before run
  unfold Daemon.answerSeq at run
  split at run
  · cases run
  · split at run
    next info found =>
      cases run
      intro wire mem'
      rcases List.mem_append.mp mem' with old | new
      · exact before wire old
      · exact ⟨_,info,List.mem_singleton.mp new,rtr,mem,seq,asked,found⟩
    next => cases run; exact before

/-- What a visit puts on the network: packets asked for, packets made, the token unless the leader holds it, and
    behind the token as many of the packets made as the accelerated window holds. They are numbered in a row, and
    the token has the number of the last one. -/
theorem accelerated_visit [NeZero n] {token : Token n} {wires : List (Wire n)}
    (accepted : d.acceptToken settings me token = some (d',sent,wires)) :
    ∃ answer front back passed, wires = answer.wires ++ front.map (.packet .bcast) ++ passed ++ back.map (.packet .bcast) ∧
      Answers (d.receive token) token answer ∧ front ++ back = sent ∧
      back.length = (if settings.acceleratedRing then min sent.length settings.acceleratedWindow else 0) ∧
      sent.map Packet.seq = List.range' (max d.highestSeq token.seq + 1) sent.length ∧
      (me = 0 ∧ passed = [] ∨ ∃ left : Token n, passed = [.token left] ∧ left.transmiterId = me ∧
        left.seq = max d.highestSeq token.seq + sent.length) := by
  unfold Daemon.acceptToken at accepted
  simp only [Option.bind_eq_bind,Option.bind_eq_some_iff] at accepted
  obtain ⟨answer,answered,⟨d₁,made⟩,send,aru,_,d₃,_,same⟩ := accepted
  cases same
  obtain ⟨numbers,top⟩ := sendNewPackets_seq _ _ send
  have all : (made.foldl (queueBcast settings) ([],[])).1 ++ (made.foldl (queueBcast settings) ([],[])).2 = made :=
    queueBcast_foldl settings made ([],[])
  have behind := length_queueBcast settings made ([],[]) (Nat.zero_le _)
  rw [List.length_nil,Nat.zero_add] at behind
  refine ⟨answer,_,_,_,rfl,answers_answerRetrans answered,all,behind,numbers,?_⟩
  split
  next held => exact .inl ⟨held.1,rfl⟩
  next => exact .inr ⟨_,rfl,rfl,top⟩

end

/-- The accelerated ring with a message to send. -/
theorem accelerated_visit_fresh : ∃ d' sent wires front back,
    ({ fresh with downQueue := [safeLink] } : Daemon 2).acceptToken { defaults with acceleratedRing := true } leader
      (TotalOrder.token 0 second 0 none) = some (d',sent,wires) ∧ sent.length = 1 ∧ front ++ back = sent ∧ back.length = 1 := by
  obtain ⟨⟨d',sent,wires⟩,accepted,one⟩ := (Option.any_eq_true ..).mp
    (show (({ fresh with downQueue := [safeLink] } : Daemon 2).acceptToken { defaults with acceleratedRing := true } leader
      (TotalOrder.token 0 second 0 none)).any (fun made => decide (made.2.1.length = 1)) = true by decide)
  have one := of_decide_eq_true one
  obtain ⟨_,front,back,_,_,_,all,behind,_⟩ := accelerated_visit accepted
  exact ⟨d',sent,wires,front,back,accepted,one,all,by rw [behind,one]; decide⟩

/-! ### The packets of one round -/

theorem fcAllowed_le_left (settings : Settings n) (d : Daemon n) (flowControl : ℤ) :
    (d.fcAllowed settings flowControl : ℤ) ≤ max (settings.window + settings.personalWindow - flowControl) 0 := by
  unfold Daemon.fcAllowed
  split <;> omega

variable [NeZero n] {start : Fin 16} {turn me first : Fin n} {s t s₀ : State n} {d' : Daemon n} {sent : List (Packet n)}
  {wires : List (Wire n)} {links : List DownLink} {token : Token n} {acts : List (Action n)}

/-- What the daemons sent when they had the token last. -/
structure Paced (settings : Settings n) (s : State n) : Prop where
  answers : ∀ p, (s.daemons p).lastNumRetrans ≤ maxSeqGap + most settings
  sends : ∀ p, (s.daemons p).lastNumSent ≤ most settings
  requests : ∀ flight ∈ s.air, ∀ token, flight.wire = .token token → asked token.rtr ≤ maxSeqGap + most settings
  window : ∑ p, ((s.daemons p).lastNumSent : ℤ) ≤ settings.window + settings.personalWindow

/-- The token has the right number, as long as sixteen bits are enough for it. -/
theorem Paced.total (paced : Paced settings s) (intact : Intact settings start turn s)
    (few : n * (maxSeqGap + 2 * most settings) < 32768) :
    (live s turn).flowControl = ∑ p, ((s.daemons p).lastNumRetrans + (s.daemons p).lastNumSent : ℤ) := by
  have each (p : Fin n) : ((s.daemons p).lastNumRetrans + (s.daemons p).lastNumSent : ℤ) ≤ (maxSeqGap + 2 * most settings : ℕ) := by
    have answers := paced.answers p
    have sends := paced.sends p
    omega
  have most : ∑ p, ((s.daemons p).lastNumRetrans + (s.daemons p).lastNumSent : ℤ) ≤ (n * (maxSeqGap + 2 * most settings) : ℕ) := by
    have all := Finset.sum_le_card_nsmul Finset.univ _ _ fun p _ => each p
    rw [Finset.card_univ,Fintype.card_fin,nsmul_eq_mul] at all
    exact_mod_cast all
  have least : 0 ≤ ∑ p, ((s.daemons p).lastNumRetrans + (s.daemons p).lastNumSent : ℤ) :=
    Finset.sum_nonneg fun p _ => by omega
  rw [intact.flowControl]
  exact Int.bmod_eq_of_le (by omega) (by omega)

omit [NeZero n] in
theorem Paced.quiet (paced : Paced settings s) (quiet : Quiet settings me s.log links (s.daemons me) d' wires) :
    Paced settings (s.after me links d' [] wires) := by
  have same (p : Fin n) : ((s.after me links d' [] wires).daemons p).lastNumRetrans = (s.daemons p).lastNumRetrans ∧
      ((s.after me links d' [] wires).daemons p).lastNumSent = (s.daemons p).lastNumSent := by
    rw [daemons_after]
    split
    next here => rw [here]; exact ⟨quiet.numRetrans,quiet.numSent⟩
    next => exact ⟨rfl,rfl⟩
  refine ⟨fun p => (same p).1 ▸ paced.answers p,fun p => (same p).2 ▸ paced.sends p,fun flight mem token wire => ?_,?_⟩
  · rcases List.mem_append.mp mem with old | new
    · exact paced.requests flight old token wire
    · obtain ⟨_,sent,rfl⟩ := List.mem_map.mp new
      rcases quiet.wires _ sent with hurry | ⟨_,here,_,none,_⟩
      · cases hurry.symm.trans wire
      · cases here.symm.trans wire
        rw [none]
        exact Nat.zero_le _
  · simpa only [(same _).2] using paced.window

/-- A visit sends what the windows leave. -/
theorem Paced.visit (paced : Paced settings s) (intact : Intact settings start turn s)
    (after : Intact settings start (turn + 1) (s.after turn [] d' sent wires))
    (few : n * (maxSeqGap + 2 * most settings) < 32768) (air : ∃ flight ∈ s.air, flight.wire = .token token)
    (alike : Alike token (live s turn))
    (visited : Visited settings turn s.log (s.submitted turn) (s.daemons turn) token d' sent wires) :
    Paced settings (s.after turn [] d' sent wires) := by
  have allowed := visited.few
  have within := fcAllowed_le settings ((s.daemons turn).receive token) token.flowControl
  have left := fcAllowed_le_left settings ((s.daemons turn).receive token) token.flowControl
  generalize ((s.daemons turn).receive token).fcAllowed settings token.flowControl = numAllowed at allowed within left
  have total := paced.total intact few
  have numSent := visited.numSent
  have answers : d'.lastNumRetrans ≤ maxSeqGap + most settings := by
    obtain ⟨flight,mem,wire⟩ := air
    exact visited.retrans.trans (paced.requests flight mem token wire)
  have here : (s.after turn [] d' sent wires).daemons turn = d' := by rw [daemons_after,if_pos rfl]
  refine ⟨fun p => ?_,fun p => ?_,fun flight mem token' wire => ?_,?_⟩
  · rw [daemons_after]
    split
    · exact answers
    · exact paced.answers p
  · rw [daemons_after]
    split
    · unfold most
      omega
    · exact paced.sends p
  · rcases List.mem_append.mp mem with old | new
    · exact paced.requests flight old token' wire
    · obtain ⟨_,sent',rfl⟩ := List.mem_map.mp new
      rcases visited.onlyLog _ sent' with left | ⟨_,_,packet,_⟩
      · cases left.symm.trans wire
        -- what is missing is not older than what all have
        have room := after.room turn
        have brief := visited.brief
        have keeps := visited.keeps
        have within : d'.aru ≤ d'.myAru := visited.discarded ▸ keeps.behind.trans keeps.within
        rw [here] at room
        change (s.log ++ sent).length ≤ _ at room
        omega
      · cases packet.symm.trans wire
  · rw [sum_after s turn [] d' sent wires fun d => d.lastNumSent,numSent]
    have window := paced.window
    rw [alike.flowControl,total,Finset.sum_add_distrib] at left
    have resent : 0 ≤ ∑ p, ((s.daemons p).lastNumRetrans : ℤ) := Finset.sum_nonneg fun p _ => by omega
    omega

/-- As long as sixteen bits are enough for the packets of a round, every token that can be taken has their number,
    and no round sends more new packets than the two windows allow. -/
theorem flow_control (installed : Installed s₀ first) (windows : maxSeqGap + most settings ≤ 8192)
    (few : n * (maxSeqGap + 2 * most settings) < 32768)
    (idle : ∀ p, (s₀.daemons p).lastNumRetrans = 0 ∧ (s₀.daemons p).lastNumSent = 0)
    (run : Run (Restrict Timely (Steps (step settings))) s₀ acts s) :
    ∃ turn, (s.daemons (turn - 1)).lastToken.flowControl =
        ∑ p, ((s.daemons p).lastNumRetrans + (s.daemons p).lastNumSent : ℤ) ∧
      (∀ p flight token, flight ∈ s.air → flight.wire = .token token → flight.reaches settings p = true →
        (s.daemons p).receivedTokenRounds < flight.round + 15 → (s.daemons p).verdict p token = .accept →
          p = turn ∧ token.flowControl = ∑ p, ((s.daemons p).lastNumRetrans + (s.daemons p).lastNumSent : ℤ)) ∧
      ∑ p, (s.daemons p).lastNumSent ≤ settings.window + settings.personalWindow := by
  obtain ⟨start,intact⟩ := intact_installed settings installed
  have begins : Paced settings s₀ := by
    refine ⟨fun p => by rw [(idle p).1]; exact Nat.zero_le _,fun p => by rw [(idle p).2]; exact Nat.zero_le _,?_,?_⟩
    · intro flight mem token wire
      rw [installed.air] at mem
      cases List.mem_singleton.mp mem
      cases wire
      exact Nat.zero_le _
    · rw [Finset.sum_eq_zero fun p _ => by rw [(idle p).2]; rfl]
      omega
  obtain ⟨turn,intact,paced⟩ := run.always (P := fun s => ∃ turn, Intact settings start turn s ∧ Paced settings s) ⟨first,intact,begins⟩ (by
    rintro s a t ⟨turn,intact,paced⟩ ⟨timely,move⟩
    rcases intact.step_cases windows timely move with ⟨d',wires,rfl,quiet⟩ | ⟨mine,links,token,d',sent,wires,rfl,small,air,alike,visited⟩
    · exact ⟨turn,intact.quiet quiet,paced.quiet quiet⟩
    · have after := intact.visit windows small alike visited
      exact ⟨turn + 1,after,paced.visit intact after few air alike visited⟩)
  have total := paced.total intact few
  refine ⟨turn,total,fun p flight token mem wire reaches timely accept => ?_,by exact_mod_cast paced.window⟩
  obtain ⟨mine,previous,last,_⟩ := intact.token.accept mem wire reaches timely accept
  have copy := intact.token.copies flight mem token wire
  rw [previous] at copy
  exact ⟨mine,(copy.alike last).flowControl.trans total⟩

/-- The token that the first daemon of two has sent after a packet. -/
theorem flow_control_pair : ∃ s, Run (Restrict Timely (Steps (step defaults))) pair (safely.take 2) s ∧
    (s.daemons 0).lastNumSent = 1 ∧ (s.daemons second).verdict second (TotalOrder.token 1 leader 1 (some leader)) = .accept ∧
    (TotalOrder.token 1 leader 1 (some leader)).flowControl =
      ∑ p, ((s.daemons p).lastNumRetrans + (s.daemons p).lastNumSent : ℤ) := by
  obtain ⟨s,run,one,flies,recent,accepts⟩ := exists_run_of_exec (step defaults) Timely
    (fun s => (s.daemons 0).lastNumSent = 1 ∧ ⟨leader,1,.token (TotalOrder.token 1 leader 1 (some leader))⟩ ∈ s.air ∧
      (s.daemons second).receivedTokenRounds < 1 + 15 ∧
      (s.daemons second).verdict second (TotalOrder.token 1 leader 1 (some leader)) = .accept)
    pair (safely.take 2) (by decide)
  obtain ⟨turn,_,only,_⟩ := flow_control installed_pair (by decide) (by decide) (fun _ => ⟨rfl,rfl⟩) run
  exact ⟨s,run,one,accepts,(only second _ _ flies rfl (by decide) recent accepts).2⟩

end CdPraticas.FlowControl
