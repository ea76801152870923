import CdPraticas.Safety

/-!
# Lost packets come back

From every state of the ring, whatever packets the network has lost, the token can go
round such that every daemon asks for what it misses and the daemons that made the
packets send them again: either somebody makes a new packet, or everybody gets all
there are.
-/

namespace CdPraticas.Recovery
open Runs Fragments Protocol Delivery Sending Visits TokenRing Tokens Rotation Safety

variable {n : ℕ} [NeZero n] {settings : Settings n} {start : Fin 16} {turn me : Fin n} {s t u : State n} {token : Token n}
  {d' : Daemon n} {sent : List (Packet n)} {wires : List (Wire n)} {links : List DownLink} {N : ℕ}

/-- One state can be followed by another. -/
def Reaches (settings : Settings n) (s t : State n) : Prop := ∃ acts, Run (Restrict Timely (Steps (step settings))) s acts t

theorem Reaches.rfl (s : State n) : Reaches settings s s := ⟨[],.start⟩

theorem Reaches.trans (one : Reaches settings s t) (two : Reaches settings t u) : Reaches settings s u := by
  obtain ⟨acts,run⟩ := one
  obtain ⟨more,onward⟩ := two
  exact ⟨acts ++ more,run.append onward⟩

theorem Reaches.step {a : Action n} (timely : Timely s a) (move : step settings a s = some t) : Reaches settings s t :=
  ⟨[a],.next .start ⟨timely,move⟩⟩

/-- A run goes on to a state in which `Good` holds, unless it stops before. -/
def Ends (settings : Settings n) (s : State n) (Stop Good : Fin n → State n → Prop) : Prop :=
  ∃ t turn, Reaches settings s t ∧ t.submitted = s.submitted ∧ (Stop turn t ∨ Good turn t)

theorem Ends.bind {Stop Good Better : Fin n → State n → Prop} (ends : Ends settings s Stop Good)
    (onward : ∀ turn t, Good turn t → Ends settings t Stop Better) : Ends settings s Stop Better := by
  obtain ⟨t,turn,reaches,submitted,stop | good⟩ := ends
  · exact ⟨t,turn,reaches,submitted,.inl stop⟩
  · obtain ⟨u,turn',more,same,last⟩ := onward turn t good
    exact ⟨u,turn',reaches.trans more,same.trans submitted,last⟩

/-- What each visit brings about for the daemon visited, and keeps for the others, holds of all in the end. -/
theorem Ends.round {Stop Good : Fin n → State n → Prop} (P : Fin n → State n → Fin n → Prop) (good : Good turn s)
    (visit : ∀ turn s, Good turn s → ∃ t, Reaches settings s t ∧ t.submitted = s.submitted ∧
      (Stop (turn + 1) t ∨ Good (turn + 1) t ∧ P (turn + 1) t turn ∧ ∀ p, P turn s p → P (turn + 1) t p)) :
    Ends settings s Stop fun turn t => Good turn t ∧ ∀ p, P turn t p := by
  have first : Good (s,turn).2 (s,turn).1 := good
  obtain ⟨⟨t,turn'⟩,⟨reaches,submitted⟩,last⟩ := once_round
    (fun (x y : State n × Fin n) => Reaches settings x.1 y.1 ∧ y.1.submitted = x.1.submitted) Prod.snd
    (fun x => Good x.2 x.1) (fun x => Stop x.2 x.1) (fun x => P x.2 x.1)
    (fun x => ⟨.rfl x.1,rfl⟩) (fun one two => ⟨one.1.trans two.1,two.2.trans one.2⟩)
    (fun x good => by
      obtain ⟨t,reaches,submitted,stop | ⟨good',here,kept⟩⟩ := visit x.2 x.1 good
      · exact ⟨(t,x.2 + 1),⟨reaches,submitted⟩,.inl stop⟩
      · exact ⟨(t,x.2 + 1),⟨reaches,submitted⟩,.inr ⟨rfl,good',here,kept⟩⟩) first
  exact ⟨t,turn',reaches,submitted,last⟩

/-! ### A token that comes -/

/-- The token is in the air or with the leader, who can send it again. Somebody has set the number on it, if any
    packet was sent. -/
structure Lively (turn : Fin n) (s : State n) : Prop where
  owned : (live s turn).aruLastId = none → (live s turn).aru = 0 ∧ s.log = []
  comes : turn - 1 = 0 ∨ ∃ round token, round = (s.daemons (turn - 1)).receivedTokenRounds ∧ ⟨turn - 1,round,.token token⟩ ∈ s.air

theorem Lively.quiet (lively : Lively turn s) (quiet : Quiet settings me s.log links (s.daemons me) d' wires) :
    Lively turn (s.after me links d' [] wires) := by
  obtain ⟨alike,_⟩ := round_quiet quiet turn
  refine ⟨fun none => ?_,?_⟩
  · obtain ⟨zero,empty⟩ := lively.owned (alike.aruLastId.symm.trans none)
    exact ⟨alike.aru.trans zero,(List.append_nil s.log).trans empty⟩
  · rcases lively.comes with leader | ⟨round,token,last,mem⟩
    · exact .inl leader
    · refine .inr ⟨round,token,last.trans ?_,List.mem_append_left _ mem⟩
      rw [daemons_after]
      split
      next here => rw [here,quiet.rounds]
      next => rfl

theorem visit_owned (lively : Lively turn s) (alike : Alike token (live s turn))
    (visited : Visited settings turn s.log (s.submitted turn) (s.daemons turn) token d' sent wires) :
    d'.lastToken.aruLastId ≠ none := by
  intro none
  have kept : token.aruLastId = Option.none := by
    rcases visited.value with ⟨_,setter,_⟩ | ⟨_,setter,_⟩
    · rw [← setter,none]
    · rw [none] at setter
      cases setter
  obtain ⟨zero,empty⟩ := lively.owned (alike.aruLastId.symm.trans kept)
  obtain ⟨_,mine⟩ := visited.raised (.inr (by rw [alike.aru,zero,empty]; rfl))
  rw [none] at mine
  cases mine

theorem Lively.visit (lively : Lively turn s) (alike : Alike token (live s turn))
    (visited : Visited settings turn s.log (s.submitted turn) (s.daemons turn) token d' sent wires) :
    Lively (turn + 1) (s.after turn [] d' sent wires) := by
  refine ⟨fun none => ?_,?_⟩
  · rw [live_visit] at none
    exact absurd none (visit_owned lively alike visited)
  · rw [add_sub_cancel_right]
    by_cases leader : turn = 0
    · exact .inl leader
    · refine .inr ⟨_,d'.lastToken,rfl,List.mem_append_right _ ?_⟩
      rw [daemons_after,if_pos rfl]
      exact List.mem_map_of_mem (visited.passes.resolve_right fun held => leader held.1)

/-- The daemon that has the turn takes a copy of the last token. -/
theorem verdict_accept (intact : Intact settings start turn s) {round : ℕ} (last : round = (s.daemons (turn - 1)).receivedTokenRounds)
    (mem : ⟨turn - 1,round,.token token⟩ ∈ s.air) (small : s.log.length ≤ maxWrapSequenceValue) :
    (s.daemons turn).verdict turn token = .accept := by
  have copy := intact.token.copies _ mem token rfl
  have alike := copy.alike last
  have seq : token.seq = s.log.length := alike.seq.trans intact.seq
  have turns := intact.token.turns
  have cases := pred_cases turn
  have inside := turn.isLt
  unfold Daemon.verdict
  rw [copy.transmiter,copy.arq,intact.token.arq turn,if_neg (by simp),if_neg (by omega),last]
  by_cases leader : turn = 0
  · rcases turns.cases (turn - 1) with ⟨_,_⟩ | ⟨_,same⟩
    · omega
    · rw [if_pos leader,if_neg (by rw [same]; simp)]
  · rcases turns.cases (turn - 1) with ⟨_,more⟩ | ⟨_,_⟩
    · have apart : arqOf start (s.daemons turn).receivedTokenRounds + 1 ≠ arqOf start (s.daemons turn).receivedTokenRounds := by
        intro same
        rw [← arqOf_succ] at same
        have := arqOf_inj same (by omega) (by omega)
        omega
      rw [if_neg leader,more,arqOf_succ,if_neg apart,if_neg (by simp)]
    · omega

/-! ### What is lost -/

/-- What is left of what was in the air. A copy of the token stays: it is sent again only as long as its `retrans`
    of four bits grows. -/
structure Loses (air air' : List (Flight n)) : Prop where
  part : ∀ flight ∈ air', flight ∈ air
  tokens : ∀ flight ∈ air, ∀ token, flight.wire = .token token → flight ∈ air'

theorem intact_loses {air' : List (Flight n)} (intact : Intact settings start turn s) (loses : Loses s.air air') :
    Intact settings start turn { s with air := air' } :=
  { intact with
    token := { intact.token with copies := fun flight mem => intact.token.copies flight (loses.part flight mem) }
    packets := fun flight mem => intact.packets flight (loses.part flight mem) }

theorem Lively.loses {air' : List (Flight n)} (lively : Lively turn s) (loses : Loses s.air air') : Lively turn { s with air := air' } := by
  refine ⟨lively.owned,lively.comes.imp_right ?_⟩
  rintro ⟨round,token,last,mem⟩
  exact ⟨round,token,last,loses.tokens _ mem token rfl⟩

/-- The daemon that has the turn takes a copy of the last token. -/
theorem Lively.take (lively : Lively turn s) (intact : Intact settings start turn s) (windows : maxSeqGap + most settings ≤ 8192)
    (small : s.log.length ≤ maxWrapSequenceValue) {round : ℕ} (last : round = (s.daemons (turn - 1)).receivedTokenRounds)
    (mem : ⟨turn - 1,round,.token token⟩ ∈ s.air) : ∃ d' sent wires, Alike token (live s turn) ∧
      Visited settings turn s.log (s.submitted turn) (s.daemons turn) token d' sent wires ∧
      Reaches settings s (s.after turn [] d' sent wires) ∧ Intact settings start (turn + 1) (s.after turn [] d' sent wires) ∧
      Lively (turn + 1) (s.after turn [] d' sent wires) := by
  have verdict := verdict_accept intact last mem small
  have copy := intact.token.copies _ mem token rfl
  have alike := copy.alike last
  obtain ⟨d',sent,wires,run,visited⟩ := (intact.ready windows alike copy.asks).acceptToken
  have enabled : s.enabled settings turn (.arrival ⟨turn - 1,round,.token token⟩) = true := by
    simp [State.enabled,Flight.reaches,mem]
  have timely : Timely s ⟨turn,.arrival ⟨turn - 1,round,.token token⟩⟩ := by
    refine decide_eq_true (?_ : (s.daemons turn).receivedTokenRounds < round + 15)
    rcases intact.token.turns.cases turn with ⟨_,_⟩ | ⟨_,_⟩ <;> rcases intact.token.turns.cases (turn - 1) with ⟨_,_⟩ | ⟨_,_⟩ <;> omega
  have moves : step settings ⟨turn,.arrival ⟨turn - 1,round,.token token⟩⟩ s = some (s.after turn [] d' sent wires) := by
    simp only [TokenRing.step,intact.exited,enabled,TokenRing.handle,Daemon.handleToken,verdict,run,Event.links]
    simp
  have seq : token.seq = s.log.length := alike.seq.trans intact.seq
  exact ⟨d',sent,wires,alike,visited,.step timely moves,intact.visit windows (seq.trans_le small) alike visited,
    lively.visit alike visited⟩

omit [NeZero n] in
theorem submitted_after (s : State n) (me : Fin n) (d' : Daemon n) (sent : List (Packet n)) (wires : List (Wire n)) :
    (s.after me [] d' sent wires).submitted = s.submitted := by
  funext q
  change Function.update s.submitted me (s.submitted me ++ []) q = _
  rw [List.append_nil,Function.update_eq_self]

/-- What the number on the token and the windows depend on. -/
def seen (d : Daemon n) : ℕ × ℕ × ℕ × ℕ × ℕ × List DownLink :=
  (d.myAru,d.aru,lastAru d,d.lastNumRetrans,d.lastNumSent,d.downQueue)

/-- The token that is to be taken asks for no packets. -/
def Unasked (turn : Fin n) (s : State n) : Prop :=
  ∀ round token, round = (s.daemons (turn - 1)).receivedTokenRounds → ⟨turn - 1,round,.token token⟩ ∈ s.air → asked token.rtr = 0

/-- The token is in the air now. -/
structure Waits (settings : Settings n) (start : Fin 16) (turn : Fin n) (s u : State n) : Prop where
  reaches : Reaches settings s u
  intact : Intact settings start turn u
  lively : Lively turn u
  log : u.log = s.log
  submitted : u.submitted = s.submitted
  seen : ∀ p, seen (u.daemons p) = seen (s.daemons p)
  whole : ∀ p, Whole s.log (s.daemons p) → Whole s.log (u.daemons p)
  alike : Alike (live u turn) (live s turn)
  unasked : Unasked turn s → Unasked turn u
  comes : ∃ round token, round = (u.daemons (turn - 1)).receivedTokenRounds ∧ ⟨turn - 1,round,.token token⟩ ∈ u.air

/-- The leader sends the token again, if it held it. -/
theorem waits (intact : Intact settings start turn s) (lively : Lively turn s) : ∃ u, Waits settings start turn s u := by
  rcases lively.comes with leader | comes
  · have quiet : Quiet settings 0 s.log [] (s.daemons 0) ((s.daemons 0).tokenHurry 0).1 ((s.daemons 0).tokenHurry 0).2 :=
      quiet_tokenHurry (quiet_rfl 0 (intact.keeps 0))
    have timely : Timely s ⟨0,.tokenHurry⟩ := rfl
    have moves : step settings ⟨0,.tokenHurry⟩ s =
        some (s.after 0 [] ((s.daemons 0).tokenHurry 0).1 [] ((s.daemons 0).tokenHurry 0).2) := by
      simp [TokenRing.step,intact.exited,State.enabled,TokenRing.handle,Event.links]
    refine ⟨_,.step timely moves,intact.quiet quiet,lively.quiet quiet,List.append_nil _,?_,fun p => ?_,fun p whole => ?_,
      (round_quiet quiet turn).1,fun unasked round token last mem => ?_,?_⟩
    · exact submitted_after s 0 _ [] _
    · rw [daemons_after]
      split
      next here => rw [here]; rfl
      next => rfl
    · rw [daemons_after]
      split
      next here => rw [here] at whole; exact whole
      next => exact whole
    · rcases List.mem_append.mp mem with old | new
      · refine unasked round token (last.trans ?_) old
        rw [leader,daemons_after,if_pos rfl]
        exact quiet.rounds
      · obtain ⟨wire,sent,same⟩ := List.mem_map.mp new
        have here : wire = .token token := congrArg Flight.wire same
        rcases quiet.wires wire sent with hurry | ⟨_,copy,_,none,_⟩
        · cases here.symm.trans hurry
        · cases here.symm.trans copy
          rw [none]
          rfl
    · rw [leader]
      exact ⟨_,_,rfl,List.mem_append_right _ (List.mem_map_of_mem (List.mem_singleton_self _))⟩
  · exact ⟨s,.rfl s,intact,lively,rfl,rfl,fun _ => rfl,fun _ whole => whole,.rfl,fun unasked => unasked,comes⟩

/-! ### Packets arrive -/

/-- What the arrival of packets does not change. -/
structure Brought (settings : Settings n) (start : Fin 16) (turn : Fin n) (s t : State n) : Prop where
  reaches : Reaches settings s t
  intact : Intact settings start turn t
  lively : Lively turn t
  log : t.log = s.log
  submitted : t.submitted = s.submitted
  air : ∀ flight ∈ s.air, flight ∈ t.air
  discarded : ∀ p, (t.daemons p).lastDiscarded = (s.daemons p).lastDiscarded
  later : ∀ p, Later (s.daemons p).lastDiscarded (s.daemons p) (t.daemons p)

theorem Brought.rfl (intact : Intact settings start turn s) (lively : Lively turn s) : Brought settings start turn s s :=
  ⟨.rfl s,intact,lively,Eq.refl _,Eq.refl _,fun _ mem => mem,fun _ => Eq.refl _,fun _ => .rfl⟩

theorem Brought.trans (one : Brought settings start turn s t) (two : Brought settings start turn t u) : Brought settings start turn s u where
  reaches := one.reaches.trans two.reaches
  intact := two.intact
  lively := two.lively
  log := two.log.trans one.log
  submitted := two.submitted.trans one.submitted
  air flight mem := two.air flight (one.air flight mem)
  discarded p := (two.discarded p).trans (one.discarded p)
  later p := (one.later p).trans (one.discarded p ▸ two.later p)

/-- A packet in the air that reaches the daemon. -/
def Flying (settings : Settings n) (s : State n) (p : Fin n) (seq : ℕ) : Prop :=
  ∃ flight ∈ s.air, flight.reaches settings p = true ∧ ∃ dest pack, flight.wire = .packet dest pack ∧ pack.seq = seq

/-- A daemon has the packet, or it is on its way. -/
def Provided (settings : Settings n) (s : State n) (p : Fin n) (seq : ℕ) : Prop :=
  ((s.daemons p).lastDiscarded < seq → ((s.daemons p).info seq).isSome) ∨ Flying settings s p seq

theorem bring_one (intact : Intact settings start turn s) (lively : Lively turn s) {p : Fin n} {seq : ℕ} (flying : Flying settings s p seq) :
    ∃ t, Brought settings start turn s t ∧ ((s.daemons p).lastDiscarded < seq → ((t.daemons p).info seq).isSome) := by
  obtain ⟨⟨sender,round,wire⟩,inAir,reaches,dest,pack,here,rfl⟩ := flying
  obtain rfl : wire = .packet dest pack := here
  obtain ⟨d',run,quiet,has⟩ := quiet_handleBcast p (intact.keeps p) intact.sound (intact.packets _ inAir dest pack rfl)
  have enabled : s.enabled settings p (.arrival ⟨sender,round,.packet dest pack⟩) = true := by
    simp [State.enabled,inAir,reaches]
  have timely : Timely s ⟨p,.arrival ⟨sender,round,.packet dest pack⟩⟩ := rfl
  have moves : step settings ⟨p,.arrival ⟨sender,round,.packet dest pack⟩⟩ s = some (s.after p [] d' [] []) := by
    simp [TokenRing.step,intact.exited,enabled,TokenRing.handle,run,Event.links]
  refine ⟨s.after p [] d' [] [],⟨.step timely moves,intact.quiet quiet,lively.quiet quiet,List.append_nil _,submitted_after ..,
    fun flight mem => List.mem_append_left _ mem,fun q => ?_,fun q => ?_⟩,?_⟩
  · rw [daemons_after]
    split
    next same => rw [same,quiet.discarded]
    next => rfl
  · rw [daemons_after]
    split
    next same => rw [same]; exact quiet.later
    next => exact .rfl
  · rw [daemons_after,if_pos rfl]
    exact has

/-- A packet that is there stays there. -/
theorem Brought.still (brought : Brought settings start turn s t) (intact : Intact settings start turn s) {p : Fin n} {seq : ℕ}
    (ahead : (s.daemons p).lastDiscarded < seq) (below : seq ≤ s.log.length) (here : ((s.daemons p).info seq).isSome) :
    ((t.daemons p).info seq).isSome := by
  obtain ⟨info,found⟩ := Option.isSome_iff_exists.mp here
  have number := (intact.keeps p).info_seq found ahead below
  obtain ⟨_,held⟩ := (brought.later p).held _ info found (number.symm ▸ ahead)
  exact Option.isSome_iff_exists.mpr ⟨_,held⟩

/-- All packets on their way can arrive. -/
theorem bring_all (intact : Intact settings start turn s) (lively : Lively turn s)
    (provided : ∀ p, ∀ seq ≤ s.log.length, Provided settings s p seq) :
    ∃ t, Brought settings start turn s t ∧ ∀ p, Whole t.log (t.daemons p) := by
  have together (pairs : List (Fin n × ℕ)) (small : ∀ pair ∈ pairs, pair.2 ≤ s.log.length) :
      ∃ t, Brought settings start turn s t ∧ ∀ pair ∈ pairs, (s.daemons pair.1).lastDiscarded < pair.2 →
        ((t.daemons pair.1).info pair.2).isSome := by
    induction pairs with
    | nil => exact ⟨s,.rfl intact lively,by simp⟩
    | cons pair rest ih =>
      obtain ⟨t,brought,there⟩ := ih fun pair mem => small pair (by simp [mem])
      obtain ⟨u,next,here⟩ : ∃ u, Brought settings start turn t u ∧
          ((s.daemons pair.1).lastDiscarded < pair.2 → ((u.daemons pair.1).info pair.2).isSome) := by
        have below := small pair (by simp)
        rcases provided pair.1 pair.2 below with has | ⟨flight,mem,onTheWay⟩
        · exact ⟨t,.rfl brought.intact brought.lively,fun ahead => brought.still intact ahead below (has ahead)⟩
        · rw [← brought.discarded]
          exact bring_one brought.intact brought.lively ⟨flight,brought.air flight mem,onTheWay⟩
      refine ⟨u,brought.trans next,fun other mem ahead => ?_⟩
      rcases List.mem_cons.mp mem with rfl | later
      · exact here ahead
      · exact next.still brought.intact (brought.discarded _ ▸ ahead) (brought.log ▸ small other (by simp [later]))
          (there other later ahead)
  obtain ⟨t,brought,all⟩ := together ((List.finRange n) ×ˢ List.range (s.log.length + 1)) fun pair mem =>
    Nat.le_of_lt_succ (List.mem_range.mp (List.mem_product.mp mem).2)
  refine ⟨t,brought,fun p seq above below => ?_⟩
  rw [brought.log] at below
  exact all (p,seq) (List.mem_product.mpr ⟨List.mem_finRange p,List.mem_range.mpr (by omega)⟩) (brought.discarded p ▸ above)

/-! ### The token goes round -/

/-- All daemons have all packets. -/
def Complete (s : State n) : Prop := ∀ p, Whole s.log (s.daemons p)

/-- Somebody has made a new packet, or nobody misses one. -/
structure Stops (settings : Settings n) (start : Fin 16) (N : ℕ) (turn : Fin n) (s : State n) : Prop where
  intact : Intact settings start turn s
  lively : Lively turn s
  done : N < s.log.length ∨ s.log.length = N ∧ Complete s

/-- The last token is in the air, with its requests. -/
structure Going (settings : Settings n) (start : Fin 16) (N : ℕ) (turn : Fin n) (s : State n) : Prop where
  intact : Intact settings start turn s
  lively : Lively turn s
  size : s.log.length = N
  comes : ⟨turn - 1,(s.daemons (turn - 1)).receivedTokenRounds,.token (live s turn)⟩ ∈ s.air

/-- What a visit does that makes no packet. -/
structure Handed (settings : Settings n) (turn : Fin n) (s t : State n) : Prop where
  log : t.log = s.log
  others : ∀ p, p ≠ turn → t.daemons p = s.daemons p
  known : (t.daemons turn).lastToken.seq = s.log.length
  air : ∀ flight ∈ s.air, flight ∈ t.air
  discards : (s.daemons turn).lastDiscarded ≤ (t.daemons turn).lastDiscarded
  later : Later (t.daemons turn).lastDiscarded (s.daemons turn) (t.daemons turn)
  answers : ∀ rtr ∈ (live s turn).rtr, ∀ seq ∈ rtr.seqs, ∀ info, (s.daemons turn).info seq = some info →
    ∀ p, p ≠ turn → Asks settings p seq rtr → Flying settings t p info.packet.seq
  requests : (s.daemons turn).lastToken.seq = s.log.length → ∀ seq, (s.daemons turn).lastDiscarded < seq → seq ≤ s.log.length →
    (s.daemons turn).info seq = none → ∃ request ∈ (live t (turn + 1)).rtr, Asks settings turn seq request ∧
      ∀ p, ∀ rtr ∈ (live s turn).rtr, Asks settings p seq rtr → Asks settings p seq request

/-- What some daemon has given up no daemon misses. -/
theorem everybody_has (intact : Intact settings start turn s) (q p : Fin n) {seq : ℕ} (stable : seq ≤ (s.daemons q).aru)
    (ahead : (s.daemons p).lastDiscarded < seq) : ((s.daemons p).info seq).isSome := by
  have low : (s.daemons q).aru ≤ lastAru (s.daemons p) := intact.steady.stable q p
  have last := intact.last p
  exact (intact.keeps p).present seq ahead (by omega)

theorem visit_stops (intact : Intact settings start turn s) {d' : Daemon n} {sent : List (Packet n)}
    {wires : List (Wire n)} (visited : Visited settings turn s.log (s.submitted turn) (s.daemons turn) token d' sent wires)
    (after : Intact settings start (turn + 1) (s.after turn [] d' sent wires)) (lively' : Lively (turn + 1) (s.after turn [] d' sent wires)) :
    Stops settings start s.log.length (turn + 1) (s.after turn [] d' sent wires) ∨
      sent = [] ∧ Going settings start s.log.length (turn + 1) (s.after turn [] d' sent wires) := by
  have size : (s.after turn [] d' sent wires).log.length = s.log.length + sent.length := List.length_append
  have here : (s.after turn [] d' sent wires).daemons turn = d' := by rw [daemons_after,if_pos rfl]
  rcases visited.passes with passed | ⟨_,all⟩
  · by_cases none : sent = []
    · refine .inr ⟨none,after,lively',by rw [size,none]; rfl,?_⟩
      rw [live_visit,add_sub_cancel_right,here]
      exact List.mem_append_right _ (List.mem_map_of_mem passed)
    · have some := List.length_pos_iff.mpr none
      exact .inl ⟨after,lively',.inl (by omega)⟩
  -- the leader holds the token: it knows that nobody misses a packet
  · have keeps := intact.keeps turn
    have given : (s.daemons turn).aru ≤ (s.daemons turn).myAru := (intact.steady.stable turn turn).trans (intact.last turn)
    have arrived := keeps.arrived.trans keeps.logged
    rw [List.length_append] at all
    have none : sent = [] := List.length_eq_zero_iff.mp (by omega)
    have grown := visited.discards
    have old := intact.discarded turn
    have new := visited.discarded
    refine .inl ⟨after,lively',.inr ⟨by rw [size,none]; rfl,fun p seq above below => everybody_has after turn p ?_ above⟩⟩
    rw [here]
    omega

theorem Going.visit (going : Going settings start N turn s) (windows : maxSeqGap + most settings ≤ 8192) (small : N ≤ maxWrapSequenceValue) :
    ∃ t, Reaches settings s t ∧ t.submitted = s.submitted ∧
      (Stops settings start N (turn + 1) t ∨ Going settings start N (turn + 1) t ∧ Handed settings turn s t) := by
  have size := going.size
  obtain ⟨d',sent,wires,_,visited,reaches,after,lively⟩ := going.lively.take going.intact windows (by omega) rfl going.comes
  refine ⟨_,reaches,submitted_after ..,?_⟩
  rw [← size]
  refine (visit_stops going.intact visited after lively).imp_right ?_
  rintro ⟨rfl,goes⟩
  have here : (s.after turn [] d' [] wires).daemons turn = d' := by rw [daemons_after,if_pos rfl]
  refine ⟨goes,List.append_nil _,fun p other => by rw [daemons_after,if_neg other],?_,fun flight mem => List.mem_append_left _ mem,
    ?_,?_,fun rtr mem seq asked info found p other asks => ?_,fun known seq above below missing => ?_⟩
  · rw [here,visited.top,List.append_nil]
  · rw [here]
    exact visited.discards
  · rw [here]
    exact visited.later
  · obtain ⟨dest,sent,covers⟩ := visited.answers rtr mem seq asked info found
    refine ⟨_,List.mem_append_right _ (List.mem_map_of_mem sent),?_,dest,info.packet,rfl,rfl⟩
    have covers := covers p asks
    cases dest with
    | ucast procId => exact decide_eq_true ⟨Ne.symm other,covers⟩
    | scast segIndex => exact decide_eq_true ⟨Ne.symm other,covers⟩
    | bcast => exact decide_eq_true (Ne.symm other)
  · rw [live_visit]
    exact visited.requests rfl known seq above below missing

/-! ### What daemons ask for -/

/-- A daemon has the packet, it is on its way, or the token asks for it. -/
def Expected (settings : Settings n) (turn : Fin n) (s : State n) (p : Fin n) (seq : ℕ) : Prop :=
  Provided settings s p seq ∨ ∃ rtr ∈ (live s turn).rtr, Asks settings p seq rtr

theorem Handed.provided (handed : Handed settings turn s t) (intact : Intact settings start turn s) {p : Fin n} {seq : ℕ}
    (below : seq ≤ s.log.length) (provided : Provided settings s p seq) : Provided settings t p seq := by
  rcases provided with has | ⟨flight,mem,rest⟩
  · by_cases mine : p = turn
    · subst mine
      refine .inl fun ahead => ?_
      have before := handed.discards.trans_lt ahead
      obtain ⟨info,found⟩ := Option.isSome_iff_exists.mp (has before)
      have number := (intact.keeps p).info_seq found before below
      obtain ⟨_,held⟩ := handed.later.held _ info found (number.symm ▸ ahead)
      exact Option.isSome_iff_exists.mpr ⟨_,held⟩
    · exact .inl (by rw [handed.others p mine]; exact has)
  · exact .inr ⟨flight,handed.air flight mem,rest⟩

/-- The daemon visited sends what it was asked for, or it misses that itself. -/
theorem Handed.asked (handed : Handed settings turn s t) (intact : Intact settings start turn s) {p : Fin n} {seq : ℕ}
    (below : seq ≤ s.log.length) {rtr : RingRtr n} (mem : rtr ∈ (live s turn).rtr) (asks : Asks settings p seq rtr) :
    Provided settings t p seq ∨ (s.daemons turn).lastDiscarded < seq ∧ (s.daemons turn).info seq = none := by
  by_cases above : (s.daemons turn).lastDiscarded < seq
  · rcases found : (s.daemons turn).info seq with _ | info
    · exact .inr ⟨above,rfl⟩
    refine .inl ?_
    by_cases mine : p = turn
    · exact handed.provided intact below (.inl fun _ => by rw [mine,found]; rfl)
    · have number := (intact.keeps turn).info_seq found above below
      exact .inr (number ▸ handed.answers rtr mem seq asks.seq info found p mine asks)
  · have discarded := intact.discarded turn
    exact .inl (handed.provided intact below (.inl (everybody_has intact turn p (by omega))))

theorem Handed.expected (handed : Handed settings turn s t) (intact : Intact settings start turn s)
    (known : (s.daemons turn).lastToken.seq = s.log.length) {p : Fin n} {seq : ℕ} (below : seq ≤ s.log.length)
    (expected : Expected settings turn s p seq) : Expected settings (turn + 1) t p seq := by
  rcases expected with provided | ⟨rtr,mem,asks⟩
  · exact .inl (handed.provided intact below provided)
  rcases handed.asked intact below mem asks with provided | ⟨above,missing⟩
  · exact .inl provided
  · obtain ⟨request,mem',_,joins⟩ := handed.requests known seq above below missing
    exact .inr ⟨request,mem',joins p rtr mem asks⟩

/-- The daemon visited asks for all that it misses. -/
theorem Handed.expects (handed : Handed settings turn s t) (intact : Intact settings start turn s)
    (known : (s.daemons turn).lastToken.seq = s.log.length) {seq : ℕ} (below : seq ≤ s.log.length) :
    Expected settings (turn + 1) t turn seq := by
  by_cases missing : (s.daemons turn).lastDiscarded < seq ∧ (s.daemons turn).info seq = none
  · obtain ⟨request,mem,asks,_⟩ := handed.requests known seq missing.1 below missing.2
    exact .inr ⟨request,mem,asks⟩
  · exact .inl (handed.provided intact below (.inl fun ahead => Option.isSome_iff_ne_none.mpr fun none => missing ⟨ahead,none⟩))

/-- The daemon that made a packet has it until nobody misses it. -/
theorem Handed.made (handed : Handed settings turn s t) (intact : Intact settings start turn s) {pack : Packet n} (mem : pack ∈ s.log)
    (mine : pack.procId = turn) {p : Fin n} (expected : Expected settings turn s p pack.seq) : Provided settings t p pack.seq := by
  have below := intact.sound.seq_le mem
  rcases expected with provided | ⟨rtr,asked,asks⟩
  · exact handed.provided intact below provided
  rcases handed.asked intact below asked asks with provided | ⟨above,missing⟩
  · exact provided
  · obtain ⟨_,found⟩ := intact.own pack mem (mine ▸ above)
    rw [mine,missing] at found
    cases found

/-! ### Everybody gets all packets -/

/-- The token goes with its requests, and every daemon knows how many packets there are. -/
def Knowing (settings : Settings n) (start : Fin 16) (N : ℕ) (turn : Fin n) (s : State n) : Prop :=
  Going settings start N turn s ∧ ∀ p, (s.daemons p).lastToken.seq = N

theorem Handed.known_all (handed : Handed settings turn s t) (size : s.log.length = N) (known : ∀ p, (s.daemons p).lastToken.seq = N) (p : Fin n) :
    (t.daemons p).lastToken.seq = N := by
  by_cases mine : p = turn
  · rw [mine,handed.known,size]
  · rw [handed.others p mine]
    exact known p

section
variable (windows : maxSeqGap + most settings ≤ 8192) (small : N ≤ maxWrapSequenceValue)
include windows small

theorem Knowing.visit (knowing : Knowing settings start N turn s) : ∃ t, Reaches settings s t ∧ t.submitted = s.submitted ∧
    (Stops settings start N (turn + 1) t ∨ Knowing settings start N (turn + 1) t ∧ Handed settings turn s t) := by
  obtain ⟨t,reaches,submitted,stops | ⟨going,handed⟩⟩ := knowing.1.visit windows small
  · exact ⟨t,reaches,submitted,.inl stops⟩
  · exact ⟨t,reaches,submitted,.inr ⟨⟨going,handed.known_all knowing.1.size knowing.2⟩,handed⟩⟩

theorem goes (intact : Intact settings start turn s) (lively : Lively turn s) (size : s.log.length = N) :
    Ends settings s (Stops settings start N) (Going settings start N) := by
  obtain ⟨u,waits⟩ := waits intact lively
  obtain ⟨round,token,last,mem⟩ := waits.comes
  obtain ⟨d',sent,wires,_,visited,reaches,after,lively'⟩ := waits.lively.take waits.intact windows (by rw [waits.log]; omega) last mem
  refine ⟨_,turn + 1,waits.reaches.trans reaches,(submitted_after ..).trans waits.submitted,?_⟩
  rw [← size,← waits.log]
  exact (visit_stops waits.intact visited after lively').imp_right And.right

theorem knows (going : Going settings start N turn s) : Ends settings s (Stops settings start N) (Knowing settings start N) := by
  refine Ends.round (fun _ s p => (s.daemons p).lastToken.seq = N) going fun turn s going => ?_
  obtain ⟨t,reaches,submitted,stops | ⟨going',handed⟩⟩ := going.visit windows small
  · exact ⟨t,reaches,submitted,.inl stops⟩
  refine ⟨t,reaches,submitted,.inr ⟨going',handed.known.trans going.size,fun p known => ?_⟩⟩
  by_cases mine : p = turn
  · rw [mine,handed.known,going.size]
  · rw [handed.others p mine]
    exact known

/-- In one round every daemon asks for what it misses. -/
theorem asks_all (knowing : Knowing settings start N turn s) : Ends settings s (Stops settings start N) fun turn t =>
    Knowing settings start N turn t ∧ ∀ p, ∀ seq ≤ N, Expected settings turn t p seq := by
  refine Ends.round (fun turn s p => ∀ seq ≤ N, Expected settings turn s p seq) knowing fun turn s knowing => ?_
  obtain ⟨t,reaches,submitted,stops | ⟨knowing',handed⟩⟩ := knowing.visit windows small
  · exact ⟨t,reaches,submitted,.inl stops⟩
  have intact := knowing.1.intact
  have size := knowing.1.size
  have known := (knowing.2 turn).trans size.symm
  exact ⟨t,reaches,submitted,.inr ⟨knowing',fun seq below => handed.expects intact known (size ▸ below),
    fun p expected seq below => handed.expected intact known (size ▸ below) (expected seq below)⟩⟩

/-- In the next round the daemons send what they made. -/
theorem answers_all (knowing : Knowing settings start N turn s) (expected : ∀ p, ∀ seq ≤ N, Expected settings turn s p seq) :
    Ends settings s (Stops settings start N) fun turn t => Going settings start N turn t ∧
      ∀ p, ∀ pack ∈ t.log, Provided settings t p pack.seq := by
  have round : Ends settings s (Stops settings start N) fun turn t =>
      (Knowing settings start N turn t ∧ ∀ p, ∀ seq ≤ N, Expected settings turn t p seq) ∧
        ∀ q, ∀ p, ∀ pack ∈ t.log, pack.procId = q → Provided settings t p pack.seq := by
    refine Ends.round (fun _ s q => ∀ p, ∀ pack ∈ s.log, pack.procId = q → Provided settings s p pack.seq) ⟨knowing,expected⟩
      fun turn s good => ?_
    obtain ⟨knowing,expected⟩ := good
    obtain ⟨t,reaches,submitted,stops | ⟨knowing',handed⟩⟩ := knowing.visit windows small
    · exact ⟨t,reaches,submitted,.inl stops⟩
    have intact := knowing.1.intact
    have size := knowing.1.size
    have known := (knowing.2 turn).trans size.symm
    have below (pack : Packet n) (mem : pack ∈ s.log) : pack.seq ≤ N := size ▸ intact.sound.seq_le mem
    refine ⟨t,reaches,submitted,.inr ⟨⟨knowing',fun p seq low => handed.expected intact known (size ▸ low) (expected p seq low)⟩,
      fun p pack mem mine => ?_,fun q provided p pack mem made => ?_⟩⟩
    · rw [handed.log] at mem
      exact handed.made intact mem mine (expected p _ (below pack mem))
    · rw [handed.log] at mem
      exact handed.provided intact (size ▸ below pack mem) (provided p pack mem made)
  obtain ⟨t,turn',reaches,submitted,last⟩ := round
  exact ⟨t,turn',reaches,submitted,last.imp_right fun ⟨⟨knowing,_⟩,all⟩ => ⟨knowing.1,fun p pack mem => all pack.procId p pack mem rfl⟩⟩

/-- Whatever was lost, somebody makes a new packet or everybody gets all there are. -/
theorem recovers (intact : Intact settings start turn s) (lively : Lively turn s) (size : s.log.length = N) :
    ∃ t turn, Reaches settings s t ∧ t.submitted = s.submitted ∧ Stops settings start N turn t := by
  have ends : Ends settings s (Stops settings start N) fun turn t => Going settings start N turn t ∧
      ∀ p, ∀ pack ∈ t.log, Provided settings t p pack.seq :=
    (goes windows small intact lively size).bind fun _ _ going =>
      (knows windows small going).bind fun _ _ knowing =>
        (asks_all windows small knowing).bind fun _ _ asked => answers_all windows small asked.1 asked.2
  obtain ⟨t,turn',reaches,submitted,stops | ⟨going,provided⟩⟩ := ends
  · exact ⟨t,turn',reaches,submitted,stops⟩
  obtain ⟨u,brought,whole⟩ := bring_all going.intact going.lively fun p seq below => by
    by_cases zero : seq = 0
    · exact .inl fun ahead => by omega
    · have found : t.log[seq - 1]? = some t.log[seq - 1] := List.getElem?_eq_getElem (by omega)
      have number := going.intact.sound.numbered _ _ found
      have here := provided p _ (List.getElem_mem (l := t.log) (n := seq - 1) (by omega))
      rwa [show t.log[seq - 1].seq = seq by omega] at here
  exact ⟨u,turn',reaches.trans brought.reaches,brought.submitted.trans submitted,
    ⟨brought.intact,brought.lively,.inr ⟨by rw [brought.log,going.size],whole⟩⟩⟩

end

end CdPraticas.Recovery
