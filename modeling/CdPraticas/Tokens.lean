import CdPraticas.TokenRing
import CdPraticas.Visits

/-!
# One token

At any time one daemon has the turn. Every token in the air is a copy of one that its
sender sent last or earlier, and only the daemon that has the turn takes a token: a copy
of the last one.
-/

namespace CdPraticas.Tokens
open Fragments Protocol Delivery Sending Visits TokenRing

variable {n : ℕ}

/-- Tokens that differ at most in the number of the copy, in the sender and in the requests. -/
structure Alike (token last : Token n) : Prop where
  arq : token.arq = last.arq
  seq : token.seq = last.seq
  aru : token.aru = last.aru
  aruLastId : token.aruLastId = last.aruLastId
  flowControl : token.flowControl = last.flowControl

theorem Alike.rfl {token : Token n} : Alike token token := ⟨Eq.refl _,Eq.refl _,Eq.refl _,Eq.refl _,Eq.refl _⟩

theorem Alike.trans {token last first : Token n} (one : Alike token last) (two : Alike last first) : Alike token first :=
  ⟨one.arq.trans two.arq,one.seq.trans two.seq,one.aru.trans two.aru,one.aruLastId.trans two.aruLastId,
    one.flowControl.trans two.flowControl⟩

theorem Alike.symm {token last : Token n} (alike : Alike token last) : Alike last token :=
  ⟨alike.arq.symm,alike.seq.symm,alike.aru.symm,alike.aruLastId.symm,alike.flowControl.symm⟩

/-! ### Events that take no token -/

variable {settings : Settings n} {log : List (Packet n)} {links more : List DownLink} {d d' : Daemon n} {me : Fin n}
  {wires : List (Wire n)}

/-- What an event does that takes no token: nothing is numbered, and only copies of the last
    token and requests for it are sent. -/
structure Quiet (settings : Settings n) (me : Fin n) (log : List (Packet n)) (more : List DownLink) (d d' : Daemon n)
    (wires : List (Wire n)) : Prop where
  keeps : Keeps settings log d'
  submits : ∀ links, Submits settings me log links d → Submits settings me log (links ++ more) d'
  rounds : d'.receivedTokenRounds = d.receivedTokenRounds
  installed : d'.justInstalled = d.justInstalled
  numRetrans : d'.lastNumRetrans = d.lastNumRetrans
  numSent : d'.lastNumSent = d.lastNumSent
  aru : d'.aru = d.aru
  discarded : d'.lastDiscarded = d.lastDiscarded
  grown : d.myAru ≤ d'.myAru
  later : Later d.lastDiscarded d d'
  token : Alike d'.lastToken d.lastToken
  wires : ∀ wire ∈ wires, wire = .hurry ∨
    ∃ token, wire = .token token ∧ Alike token d'.lastToken ∧ token.rtr = [] ∧ token.transmiterId = me

/-- `d`, as far as `d'` received packets or was told otherwise about the delivery of packets. -/
def moved (d d' : Daemon n) : Daemon n :=
  { d with
    myAru := d'.myAru
    highestSeq := d'.highestSeq
    deliveryThreshold := d'.deliveryThreshold
    deliverReliableQueued := d'.deliverReliableQueued
    deliverAgreedQueued := d'.deliverAgreedQueued }

theorem moved_eq {α : Type*} (field : Daemon n → α) (same : core d' = core (moved d d')) (blind : ∀ d, field (core d) = field d)
    (still : ∀ d', field (moved d d') = field d) : field d' = field d :=
  (core_eq field same blind).trans (still d')

/-- An event that delivers packets at most. -/
theorem quiet_of_core (keeps : Keeps settings log d') (same : core d' = core (moved d d'))
    (discarded : d'.lastDiscarded = d.lastDiscarded) (grown : d.myAru ≤ d'.myAru) (later : Later d.lastDiscarded d d') :
    Quiet settings me log [] d d' [] where
  keeps := keeps
  submits links submits := by
    have queue : d'.downQueue = d.downQueue := moved_eq Daemon.downQueue same (fun _ => rfl) fun _ => rfl
    have element : d'.curElement = d.curElement := moved_eq Daemon.curElement same (fun _ => rfl) fun _ => rfl
    rw [List.append_nil]
    exact ⟨by rw [queue,element]; exact submits.inside,by rw [queue,element]; exact submits.split⟩
  rounds := moved_eq Daemon.receivedTokenRounds same (fun _ => rfl) fun _ => rfl
  installed := moved_eq Daemon.justInstalled same (fun _ => rfl) fun _ => rfl
  numRetrans := moved_eq Daemon.lastNumRetrans same (fun _ => rfl) fun _ => rfl
  numSent := moved_eq Daemon.lastNumSent same (fun _ => rfl) fun _ => rfl
  aru := moved_eq Daemon.aru same (fun _ => rfl) fun _ => rfl
  discarded := discarded
  grown := grown
  later := later
  token := by
    have last : d'.lastToken = d.lastToken := moved_eq Daemon.lastToken same (fun _ => rfl) fun _ => rfl
    rw [last]
    exact .rfl
  wires := by simp

theorem quiet_rfl (me : Fin n) (keeps : Keeps settings log d) : Quiet settings me log [] d d [] :=
  quiet_of_core keeps rfl rfl le_rfl .rfl

theorem quiet_handleBcast (me : Fin n) (keeps : Keeps settings log d) (sound : Sound settings log) {pack : Packet n} (mem : pack ∈ log) :
    ∃ d', d.handleBcast settings pack = some d' ∧ Quiet settings me log [] d d' [] ∧
      (d.lastDiscarded < pack.seq → (d'.info pack.seq).isSome) := by
  obtain ⟨d',run,keeps',same,discarded,_,grown,_,later,has⟩ := keeps.handleBcast sound mem
  have threshold : d'.deliveryThreshold = d.deliveryThreshold := (core_eq Daemon.deliveryThreshold same fun _ => rfl).trans rfl
  have reliable : d'.deliverReliableQueued = d.deliverReliableQueued := (core_eq Daemon.deliverReliableQueued same fun _ => rfl).trans rfl
  have agreed : d'.deliverAgreedQueued = d.deliverAgreedQueued := (core_eq Daemon.deliverAgreedQueued same fun _ => rfl).trans rfl
  refine ⟨d',run,quiet_of_core keeps' (same.trans ?_) discarded grown later,has⟩
  rw [moved,threshold,reliable,agreed]

theorem quiet_deliverReliable (me : Fin n) (keeps : Keeps settings log d) (sound : Sound settings log) :
    ∃ d', d.deliverAllReliablePacketsEvent settings = some d' ∧ Quiet settings me log [] d d' [] := by
  have ready : Keeps settings log { d with deliverReliableQueued := false } := { keeps with }
  have logged := keeps.logged
  obtain ⟨d',run,keeps',same,discarded,_,later⟩ := ready.deliverReliablePackets sound 1 d.highestSeq (by omega)
  refine ⟨d',run,quiet_of_core keeps' (same.trans ?_) discarded ((core_eq Daemon.myAru same fun _ => rfl).trans rfl).ge
    { later with }⟩
  rw [moved,(core_eq Daemon.myAru same fun _ => rfl).trans rfl,(core_eq Daemon.highestSeq same fun _ => rfl).trans rfl,
    (core_eq Daemon.deliveryThreshold same fun _ => rfl).trans rfl,(core_eq Daemon.deliverReliableQueued same fun _ => rfl).trans rfl,
    (core_eq Daemon.deliverAgreedQueued same fun _ => rfl).trans rfl]

theorem quiet_deliverAgreed (me : Fin n) (keeps : Keeps settings log d) (sound : Sound settings log) :
    ∃ d', d.deliverAgreedPacketsEvent settings = some d' ∧ Quiet settings me log [] d d' [] := by
  have ready : Keeps settings log { d with deliverAgreedQueued := false } := { keeps with }
  obtain ⟨d',run,keeps',same,discarded,_,later⟩ := ready.deliverAgreedPackets sound
  refine ⟨d',run,quiet_of_core keeps' (same.trans ?_) discarded ((core_eq Daemon.myAru same fun _ => rfl).trans rfl).ge
    { later with }⟩
  rw [moved,(core_eq Daemon.myAru same fun _ => rfl).trans rfl,(core_eq Daemon.highestSeq same fun _ => rfl).trans rfl,
    (core_eq Daemon.deliveryThreshold same fun _ => rfl).trans rfl,(core_eq Daemon.deliverReliableQueued same fun _ => rfl).trans rfl,
    (core_eq Daemon.deliverAgreedQueued same fun _ => rfl).trans rfl]

theorem quiet_setDeliveryThreshold (keeps : Keeps settings log d) (threshold : Service) :
    Quiet settings me log [] d (d.setDeliveryThreshold threshold) [] :=
  quiet_of_core { keeps with } rfl rfl le_rfl (.of_eq rfl rfl)

/-- What is sent when the last token is. -/
theorem quiet_tokenHurry [NeZero n] (quiet : Quiet settings me log more d d' []) :
    Quiet settings me log more d (d'.tokenHurry me).1 (d'.tokenHurry me).2 :=
  { quiet with
    keeps := { quiet.keeps with }
    submits := fun links submits => { quiet.submits links submits with }
    later := { quiet.later with }
    token := ⟨quiet.token.arq,quiet.token.seq,quiet.token.aru,quiet.token.aruLastId,quiet.token.flowControl⟩
    wires := by
      intro wire mem
      exact .inr ⟨_,List.mem_singleton.mp mem,.rfl,rfl,rfl⟩ }

theorem quiet_retransToken [NeZero n] (keeps : Keeps settings log d) (token : Token n) :
    Quiet settings me log [] d (d.retransToken me token).1 (d.retransToken me token).2 := by
  have noted : Quiet settings me log [] d { d with lastToken := { d.lastToken with retrans := token.retrans } } [] :=
    { quiet_rfl me keeps with
      keeps := { keeps with }
      submits := fun links submits => by rw [List.append_nil]; exact { submits with }
      later := .of_eq rfl rfl
      token := ⟨rfl,rfl,rfl,rfl,rfl⟩
      wires := by simp }
  exact quiet_tokenHurry noted

theorem quiet_handleHurry [NeZero n] (quiet : Quiet settings me log more d d' []) :
    Quiet settings me log more d (d'.handleHurry me).1 (d'.handleHurry me).2 := by
  unfold Daemon.handleHurry
  split
  · have cleared : Quiet settings me log more d { d' with tokenCounter := 0 } [] :=
      { quiet with
        keeps := { quiet.keeps with }
        submits := fun links submits => { quiet.submits links submits with }
        later := { quiet.later with } }
    exact quiet_tokenHurry cleared
  · exact quiet

/-- A message that is given to a daemon waits behind the others. -/
theorem quiet_newMessage [NeZero n] (keeps : Keeps settings log d) (link : DownLink) :
    Quiet settings me log [link] d (d.newMessage me link).1 (d.newMessage me link).2 := by
  have queued : Quiet settings me log [link] d { d with downQueue := d.downQueue ++ [link] } [] :=
    { quiet_rfl me keeps with
      keeps := { keeps with }
      submits := fun links submits => submits.append link
      later := .of_eq rfl rfl
      token := .rfl }
  unfold Daemon.newMessage
  simp only
  split
  · split
    · exact quiet_handleHurry queued
    · exact { queued with wires := fun wire mem => .inl (List.mem_singleton.mp mem) }
  · exact queued

/-! ### Whose turn it is -/

variable [NeZero n] {start : Fin 16} {turn : Fin n} {rounds : Fin n → ℕ} {s : State n}

theorem succ_cases (p : Fin n) : p.val + 1 = n ∧ (p + 1).val = 0 ∨ p.val + 1 < n ∧ (p + 1).val = p.val + 1 := by
  have inside := p.isLt
  have value : (p + 1).val = (p.val + 1) % n := by simp [Fin.val_add]
  by_cases last : p.val + 1 = n
  · exact .inl ⟨last,by rw [value,last,Nat.mod_self]⟩
  · have before : p.val + 1 < n := by omega
    exact .inr ⟨before,by rw [value,Nat.mod_eq_of_lt before]⟩

theorem pred_cases (p : Fin n) : p = 0 ∧ (p - 1).val + 1 = n ∨ p ≠ 0 ∧ (p - 1).val + 1 = p.val := by
  have cases := succ_cases (p - 1)
  rw [sub_add_cancel] at cases
  rcases cases with ⟨last,first⟩ | ⟨_,after⟩
  · exact .inl ⟨Fin.ext first,last⟩
  · exact .inr ⟨fun first => by simp [first] at after,after.symm⟩

/-- The daemons before the one that has the turn have received one token more. -/
def Turn (turn : Fin n) (rounds : Fin n → ℕ) : Prop := ∀ p, rounds p = if p < turn then rounds turn + 1 else rounds turn

theorem Turn.next (turns : Turn turn rounds) : Turn (turn + 1) (Function.update rounds turn (rounds turn + 1)) := by
  intro p
  have here := turns p
  have there := turns (turn + 1)
  have inside := p.isLt
  simp only [Function.update_apply,Fin.lt_def,Fin.ext_iff] at *
  rcases succ_cases turn with ⟨last,first⟩ | ⟨_,after⟩ <;> split_ifs at * <;> omega

omit [NeZero n] in
theorem Turn.cases (turns : Turn turn rounds) (p : Fin n) :
    p.val < turn.val ∧ rounds p = rounds turn + 1 ∨ turn.val ≤ p.val ∧ rounds p = rounds turn := by
  have here := turns p
  by_cases before : p < turn
  · exact .inl ⟨before,here.trans (if_pos before)⟩
  · exact .inr ⟨not_lt.mp before,here.trans (if_neg before)⟩

/-- Who finds a token in the round that it waits for has the turn. -/
theorem Turn.eq (turns : Turn turn rounds) {p : Fin n} {round : ℕ} (sent : round ≤ rounds (p - 1))
    (awaited : round = if p = 0 then rounds p else rounds p + 1) : p = turn ∧ round = rounds (p - 1) := by
  have inside := turn.isLt
  rcases pred_cases p with ⟨first,last⟩ | ⟨later,before⟩
  · rw [if_pos first] at awaited
    subst first
    rw [Fin.ext_iff,Fin.val_zero]
    rcases turns.cases 0 with ⟨one,two⟩ | ⟨one,two⟩ <;> rcases turns.cases (0 - 1) with ⟨three,four⟩ | ⟨three,four⟩ <;>
      simp only [Fin.val_zero] at one <;> omega
  · rw [if_neg later] at awaited
    rw [Fin.ext_iff]
    rcases turns.cases p with ⟨one,two⟩ | ⟨one,two⟩ <;> rcases turns.cases (p - 1) with ⟨three,four⟩ | ⟨three,four⟩ <;> omega

theorem arqOf_succ (start : Fin 16) (round : ℕ) : arqOf start (round + 1) = arqOf start round + 1 := by
  have add : (arqOf start round + 1).val = ((start.val + round) % 16 + 1) % 16 := Fin.val_add ..
  refine Fin.ext ?_
  rw [add]
  change (start.val + (round + 1)) % 16 = _
  omega

/-- Of sixteen rounds in a row no two have the same number. -/
theorem arqOf_inj {round round' : ℕ} (same : arqOf start round = arqOf start round') (below : round < round' + 16)
    (below' : round' < round + 16) : round = round' := by
  have mods : (start.val + round) % 16 = (start.val + round') % 16 := congrArg Fin.val same
  omega

/-- A token in the air is the last one that its sender sent, but for the requests, or an older one. -/
structure Copy (start : Fin 16) (d : Daemon n) (flight : Flight n) (token : Token n) : Prop where
  transmiter : token.transmiterId = flight.transmiterId
  round : flight.round ≤ d.receivedTokenRounds
  arq : token.arq = arqOf start flight.round
  alike : flight.round = d.receivedTokenRounds → Alike token d.lastToken
  asks : ∀ rtr ∈ token.rtr, ∀ seq ∈ rtr.seqs, token.aru < seq

/-- `turn` has the turn. -/
structure OneToken (start : Fin 16) (turn : Fin n) (s : State n) : Prop where
  turns : Turn turn fun p => (s.daemons p).receivedTokenRounds
  arq : ∀ p, (s.daemons p).lastToken.arq = arqOf start (s.daemons p).receivedTokenRounds
  copies : ∀ flight ∈ s.air, ∀ token, flight.wire = .token token → Copy start (s.daemons flight.transmiterId) flight token

/-- A token is only taken by the daemon that has the turn, and it is the last one of the daemon before. -/
theorem OneToken.accept (tokens : OneToken start turn s) {p : Fin n} {flight : Flight n} {token : Token n} (mem : flight ∈ s.air)
    (wire : flight.wire = .token token) (reaches : flight.reaches settings p = true)
    (timely : (s.daemons p).receivedTokenRounds < flight.round + 15) (accept : (s.daemons p).verdict p token = .accept) :
    p = turn ∧ flight.transmiterId = turn - 1 ∧ flight.round = (s.daemons (turn - 1)).receivedTokenRounds ∧
      token.seq ≤ maxWrapSequenceValue := by
  have copy := tokens.copies flight mem token wire
  have sender : flight.transmiterId = p - 1 := by simpa [Flight.reaches,wire] using reaches
  rw [sender] at copy
  have sent := copy.round
  have near : flight.round < (s.daemons p).receivedTokenRounds + 2 := by
    rcases tokens.turns.cases p with ⟨_,here⟩ | ⟨_,here⟩ <;> rcases tokens.turns.cases (p - 1) with ⟨_,there⟩ | ⟨_,there⟩ <;>
      omega
  unfold Daemon.verdict at accept
  rw [copy.transmiter,sender] at accept
  by_cases large : maxWrapSequenceValue < token.seq
  · simp [large] at accept
  rw [if_neg (by simp),if_neg large,tokens.arq p,copy.arq] at accept
  have awaited : flight.round = if p = 0 then (s.daemons p).receivedTokenRounds else (s.daemons p).receivedTokenRounds + 1 := by
    by_cases leader : p = 0
    · rw [if_pos leader] at accept ⊢
      refine arqOf_inj (?_ : arqOf start flight.round = arqOf start _) (by omega) (by omega)
      by_contra other
      simp [other] at accept
    · rw [if_neg leader] at accept ⊢
      refine arqOf_inj (?_ : arqOf start flight.round = arqOf start _) (by omega) (by omega)
      rw [arqOf_succ]
      by_contra other
      simp only [other,not_false_eq_true,if_true,ne_eq] at accept
      split_ifs at accept
  obtain ⟨rfl,same⟩ := tokens.turns.eq sent awaited
  exact ⟨rfl,sender,same,not_lt.mp large⟩

/-! ### The turn goes round -/

omit [NeZero n] in
theorem daemons_after (s : State n) (me : Fin n) (links : List DownLink) (d : Daemon n) (sent : List (Packet n))
    (wires : List (Wire n)) (p : Fin n) : (s.after me links d sent wires).daemons p = if p = me then d else s.daemons p :=
  Function.update_apply ..

omit [NeZero n] in
theorem Copy.still {flight : Flight n} {token : Token n} (copy : Copy start d flight token)
    (rounds : d'.receivedTokenRounds = d.receivedTokenRounds) (alike : Alike d'.lastToken d.lastToken) :
    Copy start d' flight token :=
  { copy with
    round := copy.round.trans rounds.ge
    alike := fun last => (copy.alike (last.trans rounds)).trans alike.symm }

omit [NeZero n] in
/-- An event that takes no token leaves the turn where it is. -/
theorem OneToken.quiet (tokens : OneToken start turn s) (quiet : Quiet settings me s.log more (s.daemons me) d' wires)
    (links : List DownLink) : OneToken start turn (s.after me links d' [] wires) := by
  have rounds (p : Fin n) : ((s.after me links d' [] wires).daemons p).receivedTokenRounds = (s.daemons p).receivedTokenRounds := by
    rw [daemons_after]
    split
    next here => rw [here,quiet.rounds]
    next => rfl
  have alike (p : Fin n) : Alike ((s.after me links d' [] wires).daemons p).lastToken (s.daemons p).lastToken := by
    rw [daemons_after]
    split
    next here => rw [here]; exact quiet.token
    next => exact .rfl
  refine ⟨?_,fun p => ?_,fun flight mem token wire => ?_⟩
  · simpa only [rounds] using tokens.turns
  · rw [rounds,(alike p).arq,tokens.arq]
  rcases List.mem_append.mp mem with old | new
  · exact (tokens.copies flight old token wire).still (rounds _) (alike _)
  · obtain ⟨_,sent,rfl⟩ := List.mem_map.mp new
    rw [show (s.after me links d' [] wires).daemons me = d' from Function.update_self ..]
    rcases quiet.wires _ sent with hurry | ⟨_,here,copied,none,transmiter⟩
    · cases hurry.symm.trans wire
    · cases here.symm.trans wire
      refine ⟨transmiter,le_rfl,?_,fun _ => copied,by simp [none]⟩
      rw [copied.arq,quiet.token.arq,tokens.arq,quiet.rounds]

/-- Once its daemon has taken the token, the next one has the turn. -/
theorem OneToken.visit (tokens : OneToken start turn s) {token : Token n} {sent : List (Packet n)}
    (alike : Alike token (s.daemons (turn - 1)).lastToken)
    (visited : Visited settings turn s.log links (s.daemons turn) token d' sent wires) :
    OneToken start (turn + 1) (s.after turn [] d' sent wires) := by
  have arq : d'.lastToken.arq = arqOf start d'.receivedTokenRounds := by
    rw [visited.arq,visited.rounds,alike.arq,tokens.arq,arqOf_succ]
    have cases := pred_cases turn
    have inside := turn.isLt
    by_cases leader : turn = 0
    · rcases tokens.turns.cases (turn - 1) with ⟨_,_⟩ | ⟨_,same⟩
      · omega
      · rw [if_pos leader,same]
    · rcases tokens.turns.cases (turn - 1) with ⟨_,more⟩ | ⟨_,_⟩
      · rw [if_neg leader,more,arqOf_succ]
      · omega
  have moved (p : Fin n) : ((s.after turn [] d' sent wires).daemons p).receivedTokenRounds =
      Function.update (fun p => (s.daemons p).receivedTokenRounds) turn ((s.daemons turn).receivedTokenRounds + 1) p := by
    rw [daemons_after,Function.update_apply]
    split
    · exact visited.rounds
    · rfl
  refine ⟨?_,fun p => ?_,fun flight mem token' wire => ?_⟩
  · simpa only [moved] using tokens.turns.next
  · rw [daemons_after]
    split
    · exact arq
    · exact tokens.arq p
  rcases List.mem_append.mp mem with old | new
  · have copy := tokens.copies flight old token' wire
    rw [daemons_after]
    split
    next here =>
      rw [here] at copy
      have rounds := visited.rounds
      have round := copy.round
      exact { copy with round := by omega, alike := fun last => by omega }
    next => exact copy
  · obtain ⟨_,sent',rfl⟩ := List.mem_map.mp new
    rw [show (s.after turn [] d' sent wires).daemons turn = d' from Function.update_self ..]
    rcases visited.onlyLog _ sent' with left | ⟨_,_,packet,_⟩
    · cases left.symm.trans wire
      exact ⟨visited.transmiter,le_rfl,arq,fun _ => .rfl,visited.asks⟩
    · cases packet.symm.trans wire

end CdPraticas.Tokens
