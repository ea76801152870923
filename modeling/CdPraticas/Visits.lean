import CdPraticas.Sending

/-!
# A visit of the token

What `Prot_handle_token` makes of a token that it does not swallow, for a daemon that
has delivered and given up what all have: it answers the requests, numbers new packets
behind those of the log, and sends the token on.
-/

namespace CdPraticas.Visits
open Fragments Protocol Delivery Sending

variable {n : ℕ} {settings : Settings n} {log : List (Packet n)} {links : List DownLink} {d d' : Daemon n}

theorem foldlM_spec {α β : Type*} {P : β → Prop} {f : β → α → Option β} (l : List α) (b : β) (start : P b)
    (step : ∀ b x, P b → x ∈ l → ∃ b', f b x = some b' ∧ P b') : ∃ b', l.foldlM f b = some b' ∧ P b' := by
  induction l generalizing b with
  | nil => exact ⟨b,rfl,start⟩
  | cons x rest ih =>
    obtain ⟨b',run,keep⟩ := step b x start (by simp)
    rw [List.foldlM_cons,run]
    exact ih b' keep fun b x held mem => step b x held (by simp [mem])

theorem foldlM_keeps {α β : Type*} {P : β → Prop} {f : β → α → Option β} (l : List α)
    (each : ∀ b x b', x ∈ l → P b → f b x = some b' → P b') {b b' : β} (first : P b) (run : l.foldlM f b = some b') : P b' := by
  induction l generalizing b with
  | nil =>
    cases run
    exact first
  | cons x rest ih =>
    rw [List.foldlM_cons] at run
    obtain ⟨b₁,one,later⟩ := Option.bind_eq_some_iff.mp run
    exact ih (fun b y b' mem => each b y b' (by simp [mem])) (each b x b₁ (by simp) first one) later

/-- What each element brings about, and no other takes back. -/
theorem foldlM_each {α β : Type*} {Q : α → β → Prop} {f : β → α → Option β} (does : ∀ b x b', f b x = some b' → Q x b')
    (stays : ∀ x b y b', Q x b → f b y = some b' → Q x b') (l : List α) {b b' : β} (run : l.foldlM f b = some b') :
    ∀ x ∈ l, Q x b' := by
  induction l generalizing b with
  | nil => simp
  | cons x rest ih =>
    rw [List.foldlM_cons] at run
    obtain ⟨b₁,one,later⟩ := Option.bind_eq_some_iff.mp run
    intro y mem
    rcases List.mem_cons.mp mem with rfl | mem
    · exact foldlM_keeps rest (fun b z b' _ before run => stays y b z b' before run) (does b y b₁ one) later
    · exact ih later y mem

/-- Only packets of the log are sent again. -/
def Resends (log : List (Packet n)) (answer : Answer n) : Prop :=
  ∀ wire ∈ answer.wires, ∃ dest pack, wire = .packet dest pack ∧ pack ∈ log

variable {me : Fin n} {token : Token n}

theorem answerSeq_spec {low place : ℕ} (holds : Holds settings log low place d) {rtr : RingRtr n} {answer : Answer n}
    (resends : Resends log answer) {seq : ℕ} (asked : d.aru ≤ seq) :
    ∃ answer', d.answerSeq settings me rtr answer seq = some answer' ∧ Resends log answer' := by
  rw [Daemon.answerSeq,if_neg (by omega)]
  rcases found : d.info seq with _ | info
  · exact ⟨_,rfl,resends⟩
  · refine ⟨_,rfl,fun wire mem => ?_⟩
    rcases List.mem_append.mp mem with old | new
    · exact resends wire old
    · exact ⟨_,_,List.mem_singleton.mp new,(holds.slots _ info found).2.2.2⟩

theorem answerRetrans_spec {low place : ℕ} (holds : Holds settings log low place d)
    (asked : ∀ rtr ∈ token.rtr, ∀ seq ∈ rtr.seqs, d.aru ≤ seq) :
    ∃ answer, d.answerRetrans settings me token = some answer ∧ Resends log answer :=
  foldlM_spec _ _ (fun _ mem => absurd mem (by simp)) fun _ rtr resends mem =>
    foldlM_spec _ _ resends fun _ seq resends mem' => answerSeq_spec holds resends (asked rtr mem seq mem')

/-! ### Requests -/

/-- The number of packets asked for. -/
def asked (rtr : List (RingRtr n)) : ℕ := (rtr.map fun rtr => rtr.seqs.length).sum

theorem foldlM_le {α β : Type*} {f : β → α → Option β} (size : β → ℕ) (weight : α → ℕ)
    (each : ∀ b x b', f b x = some b' → size b' ≤ size b + weight x) (l : List α) {b b' : β} (run : l.foldlM f b = some b') :
    size b' ≤ size b + (l.map weight).sum := by
  induction l generalizing b with
  | nil =>
    cases run
    simp
  | cons x rest ih =>
    rw [List.foldlM_cons] at run
    obtain ⟨b₁,first,later⟩ := Option.bind_eq_some_iff.mp run
    have one := each b x b₁ first
    have more := ih later
    rw [List.map_cons,List.sum_cons]
    omega

/-- No more packets are sent again than were asked for. -/
theorem numRetrans_le {answer : Answer n} (answered : d.answerRetrans settings me token = some answer) :
    answer.numRetrans ≤ asked token.rtr := by
  have one (rtr : RingRtr n) (answer : Answer n) (seq : ℕ) (answer' : Answer n)
      (run : d.answerSeq settings me rtr answer seq = some answer') : answer'.numRetrans ≤ answer.numRetrans + 1 := by
    unfold Daemon.answerSeq at run
    split at run
    · cases run
    · split at run <;> cases run <;> simp
  have all := foldlM_le Answer.numRetrans (fun rtr : RingRtr n => rtr.seqs.length) (fun answer rtr answer' run => by
    simpa using foldlM_le Answer.numRetrans (fun _ => 1) (one rtr) rtr.seqs run) token.rtr answered
  simpa [asked] using all

/-- A request that `p` made for a packet, or joined: its answer reaches `p`. -/
structure Asks (settings : Settings n) (p : Fin n) (seq : ℕ) (rtr : RingRtr n) : Prop where
  seq : seq ∈ rtr.seqs
  procId : ∀ q, rtr.procId = some q → q = p
  segIndex : ∀ segIndex, rtr.segIndex = some segIndex → segIndex = settings.segIndex p

/-- Whether a packet is sent to a daemon, alone or with others. -/
def Dest.Covers (settings : Settings n) (p : Fin n) : Dest n → Prop
  | .ucast procId => procId = p
  | .scast segIndex => segIndex = settings.segIndex p
  | .bcast => True

/-- What is done about a packet asked for: it is sent, or this daemon misses it as well, and asks for it for
    all that the request was made for. -/
def Answered (settings : Settings n) (me : Fin n) (d : Daemon n) (rtr : RingRtr n) (seq : ℕ) (answer : Answer n) : Prop :=
  match d.info seq with
  | some info => ∃ dest, Wire.packet dest info.packet ∈ answer.wires ∧ ∀ p, Asks settings p seq rtr → Dest.Covers settings p dest
  | none => answer.procId = none ∧ (answer.segIndex = none ∨ rtr.segIndex = some (settings.segIndex me))

/-- A daemon asks for packets for itself, at least. -/
structure Named (settings : Settings n) (me : Fin n) (answer : Answer n) : Prop where
  procId : ∀ q, answer.procId = some q → q = me
  segIndex : ∀ segIndex, answer.segIndex = some segIndex → segIndex = settings.segIndex me

theorem answerSeq_cases {rtr : RingRtr n} {answer answer' : Answer n} {seq : ℕ}
    (run : d.answerSeq settings me rtr answer seq = some answer') :
    (∃ info dest, d.info seq = some info ∧
        answer' = { answer with wires := answer.wires ++ [.packet dest info.packet], numRetrans := answer.numRetrans + 1 } ∧
        ∀ p, Asks settings p seq rtr → Dest.Covers settings p dest) ∨
      d.info seq = none ∧ answer' = { answer with
        procId := none, segIndex := if rtr.segIndex = some (settings.segIndex me) then answer.segIndex else none } := by
  unfold Daemon.answerSeq at run
  split at run
  · cases run
  rcases found : d.info seq with _ | info
  · rw [found] at run
    cases run
    exact .inr ⟨rfl,rfl⟩
  · rw [found] at run
    cases run
    refine .inl ⟨info,_,rfl,rfl,fun p asks => ?_⟩
    rcases procId : rtr.procId with _ | q
    · rcases segIndex : rtr.segIndex with _ | index
      · trivial
      · exact asks.segIndex index segIndex
    · exact asks.procId q procId

theorem named_answerRetrans {answer : Answer n} (answered : d.answerRetrans settings me token = some answer) : Named settings me answer := by
  refine foldlM_keeps token.rtr (fun answer rtr answer' _ before run => ?_) ⟨by simp,by simp⟩ answered
  refine foldlM_keeps rtr.seqs (fun answer seq answer' _ before run => ?_) before run
  rcases answerSeq_cases run with ⟨_,_,_,rfl,_⟩ | ⟨_,rfl⟩
  · exact ⟨before.procId,before.segIndex⟩
  · refine ⟨by simp,fun index same => ?_⟩
    dsimp only at same
    split at same
    · exact before.segIndex index same
    · cases same

/-- Nothing that is done about one packet takes back what was done about another. -/
theorem Answered.stays {rtr other : RingRtr n} {seq seq' : ℕ} {answer answer' : Answer n} (done : Answered settings me d rtr seq answer)
    (run : d.answerSeq settings me other answer seq' = some answer') : Answered settings me d rtr seq answer' := by
  unfold Answered at done ⊢
  rcases found : d.info seq with _ | info <;> rw [found] at done <;> dsimp only at done ⊢
  · rcases answerSeq_cases run with ⟨_,_,_,rfl,_⟩ | ⟨_,rfl⟩
    · exact done
    · refine ⟨rfl,done.2.imp_left fun none => ?_⟩
      dsimp only
      split
      · exact none
      · rfl
  · obtain ⟨dest,mem,covers⟩ := done
    rcases answerSeq_cases run with ⟨_,_,_,rfl,_⟩ | ⟨_,rfl⟩
    · exact ⟨dest,List.mem_append_left _ mem,covers⟩
    · exact ⟨dest,mem,covers⟩

/-- Something is done about every packet asked for. -/
theorem answered_answerRetrans {answer : Answer n} (answered : d.answerRetrans settings me token = some answer) :
    ∀ rtr ∈ token.rtr, ∀ seq ∈ rtr.seqs, Answered settings me d rtr seq answer := by
  refine foldlM_each (Q := fun rtr answer => ∀ seq ∈ rtr.seqs, Answered settings me d rtr seq answer)
    (fun answer rtr answer' run => ?_) (fun rtr answer other answer' done run seq mem => ?_) token.rtr answered
  · refine foldlM_each (fun answer seq answer' run => ?_) (fun seq answer seq' answer' done run => done.stays run) rtr.seqs run
    unfold Answered
    rcases answerSeq_cases run with ⟨info,dest,found,rfl,covers⟩ | ⟨missing,rfl⟩
    · rw [found]
      exact ⟨dest,List.mem_append_right _ (List.mem_singleton_self _),covers⟩
    · rw [missing]
      refine ⟨rfl,?_⟩
      dsimp only
      split
      next same => exact .inr same
      next => exact .inl rfl
  · exact foldlM_keeps other.seqs (fun answer seq' answer' _ done run => done.stays run) (done seq mem) run

/-- A daemon asks for what it misses, if the token has room for it: for itself, and for those that asked for it. -/
theorem asks_requests {d₀ : Daemon n} {answer : Answer n} (answered : d₀.answerRetrans settings me token = some answer) {seq : ℕ}
    (missing : d.info seq = none) (missed : d₀.info seq = none) (behind : d.myAru < seq)
    (below : seq ≤ if settings.acceleratedRing then d.lastToken.seq else d.highestSeq)
    (few : (if settings.acceleratedRing then d.lastToken.seq else d.highestSeq) ≤ d.myAru + 8192) :
    ∃ request ∈ d.requests settings answer, Asks settings me seq request ∧
      ∀ p, ∀ rtr ∈ token.rtr, Asks settings p seq rtr → Asks settings p seq request := by
  have named := named_answerRetrans answered
  unfold Daemon.requests
  generalize (if settings.acceleratedRing then d.lastToken.seq else d.highestSeq) = maxRtrSeq at below few
  simp only
  rw [if_pos (by omega)]
  refine ⟨_,List.mem_singleton_self _,?_⟩
  have all := List.length_filter_le (fun seq => (d.info seq).isNone) (List.range' (d.myAru + 1) (maxRtrSeq - d.myAru))
  rw [List.length_range'] at all
  have inside : seq ∈ ((List.range' (d.myAru + 1) (maxRtrSeq - d.myAru)).filter fun seq => (d.info seq).isNone).take
      ((sizeofTokenBody - sizeofRingRtr) / 4) := by
    rw [List.take_of_length_le (by simp only [sizeofTokenBody,sizeofRingRtr]; omega)]
    exact List.mem_filter.mpr ⟨by rw [List.mem_range'_1]; omega,by rw [missing]; rfl⟩
  refine ⟨⟨inside,named.procId,named.segIndex⟩,fun p rtr mem asks => ?_⟩
  have done := answered_answerRetrans answered rtr mem seq asks.seq
  rw [Answered,missed] at done
  refine ⟨inside,fun q same => ?_,fun index same => ?_⟩
  · cases done.1.symm.trans same
  · rcases done.2 with none | mine
    · cases none.symm.trans same
    · rw [named.segIndex index same]
      exact asks.segIndex _ mine

/-- No more packets are asked for than are missing. -/
theorem asked_requests (d : Daemon n) (answer : Answer n) {top : ℕ} (last : d.lastToken.seq ≤ top) (highest : d.highestSeq ≤ top) :
    asked (d.requests settings answer) ≤ top - d.myAru := by
  unfold Daemon.requests
  have below : (if settings.acceleratedRing then d.lastToken.seq else d.highestSeq) ≤ top := by split <;> assumption
  generalize (if settings.acceleratedRing then d.lastToken.seq else d.highestSeq) = maxRtrSeq at below
  simp only
  split
  · have few := List.length_filter_le (fun seq => (d.info seq).isNone) (List.range' (d.myAru + 1) (maxRtrSeq - d.myAru))
    simp only [asked,List.map_cons,List.map_nil,List.sum_cons,List.sum_nil,List.length_take,List.length_range'] at few ⊢
    omega
  · exact Nat.zero_le _

/-! ### The daemon that has the turn -/

/-- The number that the token left at the last visit; a new membership starts from none. -/
def lastAru (d : Daemon n) : ℕ := if d.justInstalled then 0 else d.lastToken.aru

/-- A daemon as the token finds it. -/
structure Ready (settings : Settings n) (me : Fin n) (log : List (Packet n)) (links : List DownLink) (d : Daemon n)
    (token : Token n) : Prop where
  keeps : Keeps settings log d
  sound : Sound settings log
  continues : ∀ procId, Continues 0 (sentBy settings procId log)
  submits : Submits settings me log links d
  live : token.seq = log.length
  known : d.lastToken.seq ≤ log.length
  discarded : d.lastDiscarded = d.aru
  last : d.aru ≤ lastAru d ∧ lastAru d ≤ d.myAru
  carried : d.aru ≤ token.aru
  asked : ∀ rtr ∈ token.rtr, ∀ seq ∈ rtr.seqs, d.aru ≤ seq
  windows : maxSeqGap + min settings.window settings.personalWindow ≤ 8192
  room : log.length ≤ d.aru + maxSeqGap + min settings.window settings.personalWindow

/-- The number on the token does not fall below what all daemons have. -/
theorem Ready.carried_le (ready : Ready settings me log links d token) (raised : Bool) {myAru : ℕ} (grown : d.myAru ≤ myAru) :
    d.aru ≤ if raised then myAru else token.aru := by
  have last := ready.last
  have carried := ready.carried
  split <;> omega

/-- A daemon that makes as many packets as it is allowed has slots for them. -/
theorem Ready.fits (ready : Ready settings me log links d token) (highest : (d.receive token).highestSeq = log.length) :
    log.length + (d.receive token).fcAllowed settings token.flowControl ≤ d.lastDiscarded + 8192 := by
  have windows := ready.windows
  have room := ready.room
  have discarded := ready.discarded
  have le := fcAllowed_le settings (d.receive token) token.flowControl
  by_cases some : (d.receive token).fcAllowed settings token.flowControl = 0
  · omega
  · have near : log.length ≤ d.aru + maxSeqGap := highest ▸ highestSeq_le_of_fcAllowed some
    omega

/-- A daemon that makes no packet asks for all that it misses. -/
theorem Ready.asks (ready : Ready settings me log links d token) {answer : Answer n}
    (answered : (d.receive token).answerRetrans settings me token = some answer) (keeps : Keeps settings log d')
    (packets : d'.packets = d.packets) (discarded : d'.lastDiscarded = d.lastDiscarded) (grown : d.myAru ≤ d'.myAru)
    (last : d'.lastToken.seq = log.length) (highest : d'.highestSeq = log.length) {seq : ℕ} (above : d.lastDiscarded < seq)
    (below : seq ≤ log.length) (missing : d.info seq = none) : ∃ request ∈ d'.requests settings answer,
      Asks settings me seq request ∧ ∀ p, ∀ rtr ∈ token.rtr, Asks settings p seq rtr → Asks settings p seq request := by
  have same : d'.info seq = d.info seq := congrFun packets (packEntry seq)
  have behind : d'.myAru < seq := by
    by_contra within
    have here := keeps.present seq (by omega) (by omega)
    rw [same,missing] at here
    cases here
  have top : (if settings.acceleratedRing then d'.lastToken.seq else d'.highestSeq) = log.length := by
    rw [last,highest,ite_self]
  have room : log.length ≤ d'.myAru + 8192 := by
    have room := ready.room
    have windows := ready.windows
    have stable := ready.last
    omega
  exact asks_requests answered (same.trans missing) missing behind (by rw [top]; exact below) (by rw [top]; exact room)

/-- The log with the packets made behind it. -/
theorem Ready.grow (ready : Ready settings me log links d token) {low place numAllowed : ℕ} {d₀ : Daemon n} {sent : List (Packet n)}
    (sends : Sends settings me log links low place numAllowed d₀ d' sent) : Sound settings (log ++ sent) := by
  refine sound_of ?_ ?_ ?_
  · intro i pack found
    rcases Nat.lt_or_ge i log.length with old | new
    · rw [List.getElem?_append_left old] at found
      exact ready.sound.numbered i pack found
    · rw [List.getElem?_append_right new] at found
      have number := sends.numbered _ pack found
      omega
  · intro pack mem
    rcases List.mem_append.mp mem with old | new
    · exact ready.sound.unpacks pack old
    · exact sends.unpacks pack new
  · intro procId
    by_cases mine : procId = me
    · rw [mine]
      exact sends.submits.continues
    · have none : sentBy settings procId sent = [] :=
        sentBy_other fun pack mem => by rw [sends.mine pack mem]; exact Ne.symm mine
      rw [sentBy_append,none,List.append_nil]
      exact ready.continues procId

variable [NeZero n]

/-- What a visit does to a daemon, to the log and to the token. -/
structure Visited (settings : Settings n) (me : Fin n) (log : List (Packet n)) (links : List DownLink) (d : Daemon n)
    (token : Token n) (d' : Daemon n) (sent : List (Packet n)) (wires : List (Wire n)) : Prop where
  keeps : Keeps settings (log ++ sent) d'
  sound : Sound settings (log ++ sent)
  submits : Submits settings me (log ++ sent) links d'
  mine : ∀ pack ∈ sent, pack.procId = me
  few : sent.length ≤ (d.receive token).fcAllowed settings token.flowControl
  rounds : d'.receivedTokenRounds = d.receivedTokenRounds + 1
  installed : d'.justInstalled = false
  arq : d'.lastToken.arq = if me = 0 then token.arq + 1 else token.arq
  transmiter : d'.lastToken.transmiterId = me
  top : d'.lastToken.seq = (log ++ sent).length
  grown : d.myAru ≤ d'.myAru
  value : d'.lastToken.aru = token.aru ∧ d'.lastToken.aruLastId = token.aruLastId ∧ token.aru ≤ d'.myAru ∨
    d'.lastToken.aru = d'.myAru ∧ d'.lastToken.aruLastId = some me ∧
      (d'.myAru < token.aru ∨ token.aruLastId = some me ∨ token.aru = log.length)
  aru : d'.aru = min d'.lastToken.aru (lastAru d)
  discarded : d'.lastDiscarded = d'.aru
  discards : d.lastDiscarded ≤ d'.lastDiscarded
  asks : ∀ rtr ∈ d'.lastToken.rtr, ∀ seq ∈ rtr.seqs, d'.lastToken.aru < seq
  numSent : d'.lastNumSent = sent.length
  flowControl : d'.lastToken.flowControl =
    Int.bmod (token.flowControl - d.lastNumRetrans - d.lastNumSent + d'.lastNumRetrans + d'.lastNumSent) 65536
  idle : sent.length < (d.receive token).fcAllowed settings token.flowControl → d'.downQueue = []
  whole : Whole log d → d'.myAru = (log ++ sent).length
  raised : token.aruLastId = some me ∨ token.aru = log.length → d'.lastToken.aru = d'.myAru ∧ d'.lastToken.aruLastId = some me
  retrans : d'.lastNumRetrans ≤ asked token.rtr
  brief : asked d'.lastToken.rtr ≤ (log ++ sent).length - d'.myAru
  passes : Wire.token d'.lastToken ∈ wires ∨ me = 0 ∧ d.aru = (log ++ sent).length
  answers : ∀ rtr ∈ token.rtr, ∀ seq ∈ rtr.seqs, ∀ info, d.info seq = some info →
    ∃ dest, Wire.packet dest info.packet ∈ wires ∧ ∀ p, Asks settings p seq rtr → Dest.Covers settings p dest
  requests : sent = [] → d.lastToken.seq = log.length → ∀ seq, d.lastDiscarded < seq → seq ≤ log.length → d.info seq = none →
    ∃ request ∈ d'.lastToken.rtr, Asks settings me seq request ∧
      ∀ p, ∀ rtr ∈ token.rtr, Asks settings p seq rtr → Asks settings p seq request
  onlyLog : ∀ wire ∈ wires, wire = .token d'.lastToken ∨ ∃ dest pack, wire = .packet dest pack ∧ pack ∈ log ++ sent
  later : Later d'.lastDiscarded d d'
  held : ∀ pack ∈ sent, d'.lastDiscarded < pack.seq → ∃ shown, d'.info pack.seq = some ⟨pack,shown⟩

/-- The number on the token is kept where it may be, and else set to what this daemon has. -/
theorem nextToken_value (settings : Settings n) (me : Fin n) (d : Daemon n) (token : Token n) (answer : Answer n) (flowControl : ℤ) :
    (d.nextToken settings me token answer flowControl).aru = token.aru ∧
        (d.nextToken settings me token answer flowControl).aruLastId = token.aruLastId ∧ token.aru ≤ d.myAru ∨
      (d.nextToken settings me token answer flowControl).aru = d.myAru ∧
        (d.nextToken settings me token answer flowControl).aruLastId = some me ∧
        (d.myAru < token.aru ∨ token.aruLastId = some me ∨ token.aru = token.seq) := by
  cases raises : d.raises me token with
  | true => exact .inr ⟨by simp [Daemon.nextToken,raises],by simp [Daemon.nextToken,raises],of_decide_eq_true raises⟩
  | false =>
    have kept : ¬ d.myAru < token.aru := fun lower => of_decide_eq_false raises (.inl lower)
    exact .inl ⟨by simp [Daemon.nextToken,raises],by simp [Daemon.nextToken,raises],by omega⟩

theorem nextToken_raised (settings : Settings n) (me : Fin n) (d : Daemon n) (token : Token n) (answer : Answer n) (flowControl : ℤ)
    (may : token.aruLastId = some me ∨ token.aru = token.seq) :
    (d.nextToken settings me token answer flowControl).aru = d.myAru ∧
      (d.nextToken settings me token answer flowControl).aruLastId = some me := by
  have raises : d.raises me token = true := decide_eq_true (.inr may)
  simp [Daemon.nextToken,raises]

/-- A daemon asks for packets behind those that it has in a row. -/
theorem nextToken_asks (d : Daemon n) (token : Token n) (answer : Answer n) (flowControl : ℤ) :
    ∀ rtr ∈ (d.nextToken settings me token answer flowControl).rtr, ∀ seq ∈ rtr.seqs,
      (d.nextToken settings me token answer flowControl).aru < seq := by
  intro rtr mem seq asked
  have behind : d.myAru < seq := by
    change rtr ∈ d.requests settings answer at mem
    unfold Daemon.requests at mem
    generalize (if settings.acceleratedRing then d.lastToken.seq else d.highestSeq) = maxRtrSeq at mem
    simp only at mem
    split at mem
    · rw [List.mem_singleton.mp mem] at asked
      have range := List.mem_of_mem_filter (List.mem_of_mem_take asked)
      rw [List.mem_range'_1] at range
      omega
    · simp at mem
  rcases nextToken_value settings me d token answer flowControl with ⟨kept,_,le⟩ | ⟨set,_⟩
  · rw [kept]; omega
  · rwa [set]

theorem mem_wires {d : Daemon n} {answer : Answer n} {sent : List (Packet n)} {wire : Wire n} :
    wire ∈ d.wires settings me answer sent token ↔ wire ∈ answer.wires ∨ (∃ pack ∈ sent, wire = .packet .bcast pack) ∨
      ¬ (me = 0 ∧ d.isTokenHold) ∧ wire = .token token := by
  have all : (sent.foldl (queueBcast settings) ([],[])).1 ++ (sent.foldl (queueBcast settings) ([],[])).2 = sent :=
    queueBcast_foldl settings sent ([],[])
  have held : wire ∈ (if me = 0 ∧ d.isTokenHold then [] else [.token token]) ↔
      ¬ (me = 0 ∧ d.isTokenHold) ∧ wire = .token token := by
    split <;> simp [*]
  have made : (∃ pack ∈ sent, wire = .packet .bcast pack) ↔
      wire ∈ (sent.foldl (queueBcast settings) ([],[])).1.map (Wire.packet .bcast) ∨
        wire ∈ (sent.foldl (queueBcast settings) ([],[])).2.map (Wire.packet .bcast) := by
    rw [← List.mem_append,← List.map_append,all,List.mem_map]
    simp only [eq_comm]
  rw [Daemon.wires,List.mem_append,List.mem_append,List.mem_append,held,made]
  tauto

omit [NeZero n] in
/-- A daemon that sends no new packets stays as it is. -/
theorem sendNewPackets_nil {numAllowed : ℕ} (send : d.sendNewPackets settings me numAllowed = some (d',[])) : d' = d := by
  cases numAllowed with
  | zero =>
    cases send
    rfl
  | succ numAllowed =>
    rw [Daemon.sendNewPackets] at send
    split at send
    · cases send
      rfl
    · simp only at send
      split at send
      · cases send
      · split at send
        · cases send
        · obtain ⟨_,_,same⟩ := Option.map_eq_some_iff.mp send
          cases same

/-- The daemon takes the token without an alarm. -/
theorem Ready.acceptToken (ready : Ready settings me log links d token) :
    ∃ d' sent wires, d.acceptToken settings me token = some (d',sent,wires) ∧
      Visited settings me log links d token d' sent wires := by
  have keeps := ready.keeps
  have highest : (d.receive token).highestSeq = log.length := by
    have logged := keeps.logged
    have live := ready.live
    change max d.highestSeq token.seq = _
    omega
  have received : Keeps settings log (d.receive token) := { Holds.raise keeps (le_max_left ..) highest.le with }
  obtain ⟨answer,answered,resends⟩ : ∃ answer, (d.receive token).answerRetrans settings me token = some answer ∧ Resends log answer :=
    answerRetrans_spec received ready.asked
  obtain ⟨d₁,sent,send,sends⟩ := sendNewPackets_spec _ log (d.receive token) received highest (ready.fits highest)
    { ready.submits with }
  have aru₁ : d₁.aru = d.aru := (unsent_eq Daemon.aru sends.same fun _ => rfl).trans rfl
  have myAru₁ : d₁.myAru = d.myAru := (unsent_eq Daemon.myAru sends.same fun _ => rfl).trans rfl
  have discarded₁ : d₁.lastDiscarded = d.lastDiscarded := (unsent_eq Daemon.lastDiscarded sends.same fun _ => rfl).trans rfl
  have token₁ : d₁.lastToken.aru = lastAru d := by
    rw [unsent_eq (fun d => d.lastToken.aru) sends.same fun _ => rfl,lastAru]
    simp only [Daemon.receive]
    split <;> rfl
  -- the packets made fill no gap, but those that came may
  obtain ⟨d₂,account⟩ : ∃ d₂, d₂ = d₁.account answer.numRetrans sent.length := ⟨_,rfl⟩
  have grown : d.myAru ≤ d₂.myAru := by
    rw [account,← myAru₁]
    exact (advanced { d₁ with lastNumRetrans := answer.numRetrans, lastNumSent := sent.length }).grown
  have delivered₁ : d₁.lastDelivered = d.lastDelivered := (unsent_eq Daemon.lastDelivered sends.same fun _ => rfl).trans rfl
  have holds₁ : Keeps settings (log ++ sent) d₁ := by rw [Keeps,discarded₁,delivered₁]; exact sends.holds
  have holds₂ : Keeps settings (log ++ sent) d₂ := by
    rw [account]
    exact Holds.advance { holds₁ with }
  obtain ⟨left,next⟩ : ∃ left, left = d₂.nextToken settings me token answer (d₁.flowControl token answer.numRetrans sent.length) := ⟨_,rfl⟩
  have last := ready.last
  have aru₂ : d₂.aru = d.aru := by rw [account]; exact aru₁
  have token₂ : d₂.lastToken.aru = lastAru d := by rw [account]; exact token₁
  have discarded₂ : d₂.lastDiscarded = d.aru := by rw [account]; exact discarded₁.trans ready.discarded
  have top₂ : d₂.highestSeq = (log ++ sent).length := by rw [account]; exact sends.top
  have carried : d.aru ≤ left.aru := by
    rw [next]
    exact ready.carried_le (d₂.raises me token) grown
  have calculated : d₂.calculateAru left = some (min left.aru (lastAru d)) := by
    rw [Daemon.calculateAru,token₂,aru₂]
    exact if_neg (by omega)
  have sound := ready.grow sends
  have settled : Keeps settings (log ++ sent) (d₂.settle left (min left.aru (lastAru d))) :=
    { holds₂ with safe := holds₂.safe.mono (by change d₂.aru ≤ min left.aru (lastAru d); omega) }
  obtain ⟨d₃,deliver,keeps₃,same,discarded₃,later₃⟩ := settled.deliverAndDiscard sound
    (show min left.aru (lastAru d) ≤ d₂.myAru by omega) (show d₂.lastDiscarded ≤ min left.aru (lastAru d) by omega)
    (show d₂.highestSeq = _ from top₂) (show sent.length ≤ (log ++ sent).length by simp)
  -- what the visit does with the packets that are held, from before them to after it
  have accounted : Later (min left.aru (lastAru d)) d₁ (d₂.settle left (min left.aru (lastAru d))) := by
    rw [account]
    exact .of_eq rfl rfl
  have tail : Later d₃.lastDiscarded d₁ d₃ := by
    rw [discarded₃]
    exact accounted.trans later₃
  have before : d.lastDiscarded ≤ d₃.lastDiscarded := by
    rw [discarded₃,ready.discarded]
    change d.aru ≤ min left.aru (lastAru d)
    omega
  have taken : Later d.lastDiscarded d (d.receive token) := .of_eq rfl rfl
  have head : Later d.lastDiscarded d d₁ := taken.trans sends.later
  refine ⟨d₃,sent,d₂.wires settings me answer sent left,?_,?_⟩
  · simp only [Daemon.acceptToken,answered,send,Option.bind_eq_bind,Option.bind_some]
    rw [← account,← next,calculated,Option.bind_some,deliver,Option.bind_some]
  have top₁ : d₁.highestSeq = (log ++ sent).length := sends.top
  have whole₂ (whole : Whole log d) : d₂.myAru = (log ++ sent).length := by
    have all := sends.whole received whole
    have behind : d.lastDiscarded ≤ d₁.myAru := (keeps.behind.trans keeps.within).trans myAru₁.ge
    have inside : d₁.myAru ≤ d₁.highestSeq := holds₁.arrived
    rw [account,← top₁]
    exact advance_whole (d := { d₁ with lastNumRetrans := answer.numRetrans, lastNumSent := sent.length }) inside
      fun seq above below => all seq (behind.trans_lt above) (by rw [← top₁]; exact below)
  have lastSeq₂ : d₂.lastToken.seq = d.lastToken.seq := by
    rw [account]
    refine (unsent_eq (fun d => d.lastToken.seq) sends.same fun _ => rfl).trans ?_
    simp only [Daemon.receive]
    split <;> rfl
  have left₃ : d₃.lastToken = left := core_eq Daemon.lastToken same fun _ => rfl
  have myAru₃ : d₃.myAru = d₂.myAru := (core_eq Daemon.myAru same fun _ => rfl).trans rfl
  have aru₃ : d₃.aru = min left.aru (lastAru d) := core_eq Daemon.aru same fun _ => rfl
  have down₃ : (d₃.downQueue,d₃.curElement) = (d₁.downQueue,d₁.curElement) := by
    rw [core_eq (fun d => (d.downQueue,d.curElement)) same fun _ => rfl,account]
    rfl
  have sent₃ : (d₃.lastNumRetrans,d₃.lastNumSent) = (answer.numRetrans,sent.length) := by
    rw [core_eq (fun d => (d.lastNumRetrans,d.lastNumSent)) same fun _ => rfl,account]
    rfl
  have rounds₃ : (d₃.receivedTokenRounds,d₃.justInstalled) = (d.receivedTokenRounds + 1,false) := by
    rw [core_eq (fun d => (d.receivedTokenRounds,d.justInstalled)) same fun _ => rfl,account]
    exact unsent_eq (fun d => (d.receivedTokenRounds,d.justInstalled)) sends.same fun _ => rfl
  simp only [Prod.mk.injEq] at down₃ sent₃ rounds₃
  have flowControl : d₁.flowControl token answer.numRetrans sent.length =
      Int.bmod (token.flowControl - d.lastNumRetrans - d.lastNumSent + answer.numRetrans + sent.length) 65536 := by
    rw [Daemon.flowControl,unsent_eq Daemon.lastNumRetrans sends.same fun _ => rfl,unsent_eq Daemon.lastNumSent sends.same fun _ => rfl]
    rfl
  exact {
    keeps := keeps₃
    sound := sound
    submits := ⟨by rw [down₃.1,down₃.2]; exact sends.submits.inside,by rw [down₃.1,down₃.2]; exact sends.submits.split⟩
    mine := sends.mine
    few := sends.few
    rounds := rounds₃.1
    installed := rounds₃.2
    arq := by rw [left₃,next]; rfl
    transmiter := by rw [left₃,next]; rfl
    top := by rw [left₃,next]; exact top₂
    grown := myAru₃.symm ▸ grown
    value := by
      rw [left₃,myAru₃,next,← ready.live]
      exact nextToken_value settings me d₂ token answer _
    aru := by rw [aru₃,left₃]
    discarded := discarded₃.trans aru₃.symm
    discards := before
    asks := by rw [left₃,next]; exact nextToken_asks d₂ token answer _
    numSent := sent₃.2
    flowControl := by rw [left₃,next,sent₃.1,sent₃.2]; exact flowControl
    idle := fun fewer => down₃.1.trans (sends.idle fewer)
    whole := fun whole => myAru₃.trans (whole₂ whole)
    raised := by
      rw [← ready.live,left₃,myAru₃,next]
      exact nextToken_raised settings me d₂ token answer _
    retrans := sent₃.1 ▸ numRetrans_le answered
    brief := by
      have known := ready.known
      rw [left₃,myAru₃,next]
      exact asked_requests d₂ answer (by rw [lastSeq₂,List.length_append]; omega) top₂.le
    passes := by
      by_cases held : me = 0 ∧ d₂.isTokenHold
      · obtain ⟨_,all,_⟩ := of_decide_eq_true held.2
        exact .inr ⟨held.1,aru₂.symm.trans (all.trans top₂)⟩
      · exact .inl (mem_wires.mpr (.inr (.inr ⟨held,by rw [left₃]⟩)))
    answers := by
      intro rtr mem seq asks info found
      have done := answered_answerRetrans answered rtr mem seq asks
      unfold Answered at done
      rw [show (d.receive token).info seq = some info from found] at done
      obtain ⟨dest,sent,covers⟩ := done
      exact ⟨dest,mem_wires.mpr (.inl sent),covers⟩
    requests := by
      intro none known seq above below missing
      subst none
      rw [List.append_nil] at top₂ holds₂
      rw [left₃,next]
      refine ready.asks answered holds₂ ?_ (discarded₂.trans ready.discarded.symm) grown (lastSeq₂.trans known) top₂ above below missing
      rw [account,sendNewPackets_nil send]
      rfl
    onlyLog := by
      intro wire mem
      rcases mem_wires.mp mem with answers | ⟨pack,made,here⟩ | ⟨_,here⟩
      · obtain ⟨dest,pack,here,old⟩ := resends wire answers
        exact .inr ⟨dest,pack,here,List.mem_append_left _ old⟩
      · exact .inr ⟨_,pack,here,List.mem_append_right _ made⟩
      · exact .inl (here.trans (by rw [left₃]))
    later := (head.mono before).trans tail
    held := by
      intro pack made above
      obtain ⟨shown,found⟩ := sends.held pack made
      exact tail.held _ ⟨pack,shown⟩ found above }

end CdPraticas.Visits
