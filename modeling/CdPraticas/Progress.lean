import CdPraticas.Reassembly
import CdPraticas.Recovery

/-!
# Nothing is stuck

From every state that the ring can reach, it can still deliver everything: once the
packets that were lost have come back, the token goes round, each daemon sends what waits
as far as the windows allow, and the number on the token comes up to the last packet.
-/

namespace CdPraticas.Progress
open Runs Fragments Protocol Delivery Sending Visits TokenRing Tokens Rotation Safety TotalOrder Reassembly Recovery

variable {n : ℕ} [NeZero n] {settings : Settings n} {start : Fin 16} {turn me : Fin n} {s t u : State n} {token : Token n}
  {d' : Daemon n} {sent : List (Packet n)} {wires : List (Wire n)} {links : List DownLink} {N : ℕ}

/-! ### The token goes on -/

/-- Every daemon has all packets of the log. -/
structure Calm (settings : Settings n) (start : Fin 16) (N : ℕ) (turn : Fin n) (s : State n) : Prop where
  intact : Intact settings start turn s
  lively : Lively turn s
  size : s.log.length = N
  whole : Complete s

/-- Somebody has made a new packet. -/
def Grown (settings : Settings n) (start : Fin 16) (N : ℕ) (turn : Fin n) (s : State n) : Prop :=
  N < s.log.length ∧ Intact settings start turn s ∧ Lively turn s

/-- What a visit does that finds nothing to send, or may not send it. -/
structure Passed (N : ℕ) (turn : Fin n) (s t : State n) : Prop where
  others : ∀ p, p ≠ turn → seen (t.daemons p) = seen (s.daemons p)
  myAru : (t.daemons turn).myAru = N
  numSent : (t.daemons turn).lastNumSent = 0
  numRetrans : Unasked turn s → (t.daemons turn).lastNumRetrans = 0
  unasked : Unasked (turn + 1) t
  owned : (live t (turn + 1)).aruLastId ≠ none
  value : (live t (turn + 1)).aru = N ∨ (live s turn).aru ≠ N ∧ (live s turn).aruLastId ≠ some turn ∧
    (live t (turn + 1)).aruLastId = (live s turn).aruLastId
  lastAru : lastAru (t.daemons turn) = (live t (turn + 1)).aru
  aru : (t.daemons turn).aru = min (live t (turn + 1)).aru (Visits.lastAru (s.daemons turn))
  sends : N ≤ (s.daemons turn).aru + maxSeqGap → (live s turn).flowControl ≤ 0 → (t.daemons turn).downQueue = []

omit [NeZero n] in
theorem seen_lastAru {d d' : Daemon n} (same : seen d' = seen d) : lastAru d' = lastAru d := congrArg (fun x => x.2.2.1) same

/-- The daemon that has the turn takes the token, and makes new packets or passes it on. -/
theorem Calm.visit (calm : Calm settings start N turn s) (windows : maxSeqGap + most settings ≤ 8192)
    (windowed : 0 < settings.window ∧ 0 < settings.personalWindow) (small : N ≤ maxWrapSequenceValue) :
    ∃ t, Reaches settings s t ∧ t.submitted = s.submitted ∧
      (Grown settings start N (turn + 1) t ∨ Calm settings start N (turn + 1) t ∧ Passed N turn s t) := by
  obtain ⟨u,waits⟩ := waits calm.intact calm.lively
  obtain ⟨round,token,last,mem⟩ := waits.comes
  have intact := waits.intact
  have size : u.log.length = N := by rw [waits.log,calm.size]
  obtain ⟨d',sent,wires,alike,visited,reaches,after,lively⟩ := waits.lively.take intact windows (by omega) last mem
  have seq : token.seq = N := (alike.seq.trans intact.seq).trans size
  refine ⟨u.after turn [] d' sent wires,waits.reaches.trans reaches,(submitted_after ..).trans waits.submitted,?_⟩
  by_cases grown : sent = []
  · subst grown
    have same : (u.after turn [] d' [] wires).log = u.log := List.append_nil _
    have here : (u.after turn [] d' [] wires).daemons turn = d' := by rw [daemons_after,if_pos rfl]
    have others (p : Fin n) (other : p ≠ turn) : (u.after turn [] d' [] wires).daemons p = u.daemons p := by
      rw [daemons_after,if_neg other]
    have seen := waits.seen turn
    have whole (p : Fin n) : Whole u.log (u.daemons p) := by
      rw [waits.log]
      exact waits.whole p (calm.whole p)
    have myAru : d'.myAru = N := by rw [visited.whole (whole turn),List.append_nil,size]
    refine .inr ⟨⟨after,lively,same ▸ size,fun p => ?_⟩,?_⟩
    · rw [same]
      by_cases mine : p = turn
      · have keeps := after.keeps turn
        rw [same,here] at keeps
        rw [mine,here]
        exact keeps.whole (myAru.trans size.symm)
      · rw [others p mine]
        exact whole p
    have value : d'.lastToken.aru = N ∨ (live s turn).aru ≠ N ∧ (live s turn).aruLastId ≠ some turn ∧
        d'.lastToken.aruLastId = (live s turn).aruLastId := by
      have copied := alike.trans waits.alike
      by_cases may : token.aruLastId = some turn ∨ token.aru = u.log.length
      · exact .inl ((visited.raised may).1.trans myAru)
      · rw [not_or,size,copied.aru,copied.aruLastId] at may
        rcases visited.value with ⟨_,setter,_⟩ | ⟨set,_⟩
        · exact .inr ⟨may.2,may.1,setter.trans copied.aruLastId⟩
        · exact .inl (set.trans myAru)
    constructor
    case others => exact fun p other => by rw [others p other,waits.seen p]
    case myAru => rw [here,myAru]
    case numSent => rw [here,visited.numSent]; rfl
    case numRetrans =>
      intro unasked
      have none := waits.unasked unasked round token last mem
      rw [here]
      exact Nat.le_zero.mp (none ▸ visited.retrans)
    case unasked =>
      intro round' token' last' mem'
      rw [add_sub_cancel_right] at last' mem'
      rw [here] at last'
      rcases List.mem_append.mp mem' with old | new
      · have before := (intact.token.copies _ old token' rfl).round
        have rounds := visited.rounds
        change round' ≤ (u.daemons turn).receivedTokenRounds at before
        omega
      · obtain ⟨wire,sent',copied⟩ := List.mem_map.mp new
        have wire' : wire = .token token' := congrArg Flight.wire copied
        rcases visited.onlyLog _ sent' with left | ⟨_,_,packet,_⟩
        · cases wire'.symm.trans left
          have brief := visited.brief
          rw [List.append_nil,size,myAru] at brief
          omega
        · cases wire'.symm.trans packet
    case owned => rw [live_visit]; exact visit_owned waits.lively alike visited
    case value => rw [live_visit]; exact value
    case lastAru => rw [live_visit,here,Visits.lastAru,visited.installed]; rfl
    case aru => rw [live_visit,here,visited.aru,seen_lastAru seen]
    case sends =>
      intro near low
      have highest : ((u.daemons turn).receive token).highestSeq ≤ N :=
        max_le ((intact.keeps turn).logged.trans size.le) seq.le
      have stable : ((u.daemons turn).receive token).aru = (s.daemons turn).aru := congrArg (fun x => x.2.1) seen
      have number : token.flowControl ≤ 0 := (alike.trans waits.alike).flowControl.trans_le low
      rw [here]
      refine visited.idle ?_
      rw [Daemon.fcAllowed,if_neg (by omega),List.length_nil]
      omega
  · refine .inl ⟨?_,after,lively⟩
    have more := List.length_pos_iff.mpr grown
    change N < (u.log ++ sent).length
    rw [List.length_append]
    omega

/-! ### The number on the token comes up -/

/-- A daemon that has all packets and sent none at its last visit, and does not keep the number on the token down. -/
structure Idle (N : ℕ) (turn : Fin n) (s : State n) (p : Fin n) : Prop where
  myAru : (s.daemons p).myAru = N
  numSent : (s.daemons p).lastNumSent = 0
  numRetrans : (s.daemons p).lastNumRetrans = 0
  value : (live s turn).aru = N ∨ (live s turn).aruLastId ≠ some p

/-- Somebody has set the number on the token, and nobody asks for packets. -/
def Quieted (turn : Fin n) (s : State n) : Prop := Unasked turn s ∧ (live s turn).aruLastId ≠ none

theorem Passed.quieted (passed : Passed N turn s t) : Quieted (turn + 1) t := ⟨passed.unasked,passed.owned⟩

theorem Passed.idle (passed : Passed N turn s t) (quieted : Quieted turn s) : Idle N (turn + 1) t turn where
  myAru := passed.myAru
  numSent := passed.numSent
  numRetrans := passed.numRetrans quieted.1
  value := passed.value.imp_right fun ⟨_,other,same⟩ => same ▸ other

theorem Idle.passed {p : Fin n} (idle : Idle N turn s p) (passed : Passed N turn s t) (quieted : Quieted turn s) :
    Idle N (turn + 1) t p := by
  by_cases mine : p = turn
  · exact mine ▸ passed.idle quieted
  have same := passed.others p mine
  refine ⟨(congrArg Prod.fst same).trans idle.myAru,(congrArg (fun x => x.2.2.2.2.1) same).trans idle.numSent,
    (congrArg (fun x => x.2.2.2.1) same).trans idle.numRetrans,?_⟩
  rcases passed.value with full | ⟨low,_,setter⟩
  · exact .inl full
  · exact .inr (setter ▸ idle.value.resolve_left low)

/-- Once all daemons are idle, the number on the token is that of the last packet. -/
theorem value_of_idle (quieted : Quieted turn s) (idle : ∀ p, Idle N turn s p) : (live s turn).aru = N := by
  obtain ⟨setter,owned⟩ := Option.ne_none_iff_exists'.mp quieted.2
  exact (idle setter).value.resolve_right (not_not.mpr owned)

theorem flowControl_of_idle (intact : Intact settings start turn s) (idle : ∀ p, Idle N turn s p) : (live s turn).flowControl = 0 := by
  rw [intact.flowControl,Finset.sum_eq_zero fun p _ => by rw [(idle p).numRetrans,(idle p).numSent]; rfl]
  rfl

/-- How far a daemon is, `k` rounds on. -/
structure Level (N k : ℕ) (turn : Fin n) (s : State n) (p : Fin n) : Prop where
  idle : 1 ≤ k → Idle N turn s p
  last : 2 ≤ k → lastAru (s.daemons p) = N
  aru : 3 ≤ k → (s.daemons p).aru = N
  queue : 4 ≤ k → (s.daemons p).downQueue = []

/-- A visit brings its daemon one level further. -/
theorem Passed.level {k : ℕ} (passed : Passed N turn s t) (intact : Intact settings start turn s) (quieted : Quieted turn s)
    (levels : ∀ p, Level N k turn s p) : Level N (k + 1) (turn + 1) t turn := by
  have idle (some : 1 ≤ k) : ∀ p, Idle N (turn + 1) t p := fun p => ((levels p).idle some).passed passed quieted
  have value (some : 1 ≤ k) : (live t (turn + 1)).aru = N := value_of_idle passed.quieted (idle some)
  refine ⟨fun _ => passed.idle quieted,fun more => ?_,fun more => ?_,fun more => ?_⟩
  · rw [passed.lastAru,value (by omega)]
  · rw [passed.aru,value (by omega),(levels turn).last (by omega),min_self]
  · have all := (levels turn).aru (by omega)
    exact passed.sends (by omega) (flowControl_of_idle intact fun p => (levels p).idle (by omega)).le

/-- It brings no daemon back. -/
theorem Level.passed {k : ℕ} {p : Fin n} (level : Level N k turn s p) (passed : Passed N turn s t) (quieted : Quieted turn s)
    (here : Level N k (turn + 1) t turn) : Level N k (turn + 1) t p := by
  by_cases mine : p = turn
  · rw [mine]
    exact here
  have same := passed.others p mine
  exact ⟨fun some => (level.idle some).passed passed quieted,fun some => (seen_lastAru same).trans (level.last some),
    fun some => (congrArg (fun x => x.2.1) same).trans (level.aru some),
    fun some => (congrArg (fun x => x.2.2.2.2.2) same).trans (level.queue some)⟩

theorem Level.le {k : ℕ} {p : Fin n} (level : Level N (k + 1) turn s p) : Level N k turn s p :=
  ⟨fun some => level.idle (by omega),fun some => level.last (by omega),fun some => level.aru (by omega),fun some => level.queue (by omega)⟩

/-- Each round brings all daemons one level further, until one sends new packets. -/
theorem Calm.levels (calm : Calm settings start N turn s) (windows : maxSeqGap + most settings ≤ 8192)
    (windowed : 0 < settings.window ∧ 0 < settings.personalWindow) (small : N ≤ maxWrapSequenceValue) (k : ℕ) :
    Ends settings s (Grown settings start N) fun turn t =>
      Calm settings start N turn t ∧ Quieted turn t ∧ ∀ p, Level N k turn t p := by
  induction k with
  | zero =>
    obtain ⟨t,reaches,submitted,last⟩ := calm.visit windows windowed small
    refine ⟨t,turn + 1,reaches,submitted,last.imp_right fun ⟨calm,passed⟩ => ⟨calm,passed.quieted,fun p => ?_⟩⟩
    constructor <;> omega
  | succ k ih =>
    refine ih.bind fun turn t good => ?_
    have round : Ends settings t (Grown settings start N) fun turn t =>
        (Calm settings start N turn t ∧ Quieted turn t ∧ ∀ p, Level N k turn t p) ∧ ∀ p, Level N (k + 1) turn t p := by
      refine Ends.round (Level N (k + 1)) good fun turn s ⟨calm,quieted,levels⟩ => ?_
      obtain ⟨t,reaches,submitted,grown | ⟨calm',passed⟩⟩ := calm.visit windows windowed small
      · exact ⟨t,reaches,submitted,.inl grown⟩
      have here := passed.level calm.intact quieted levels
      exact ⟨t,reaches,submitted,.inr ⟨⟨calm',passed.quieted,fun p => (levels p).passed passed quieted here.le⟩,here,
        fun p level => level.passed passed quieted here⟩⟩
    exact round.bind fun turn u ⟨⟨calm,quieted,_⟩,levels⟩ => ⟨u,turn,.rfl u,rfl,.inr ⟨calm,quieted,levels⟩⟩

/-! ### Everything is delivered -/

omit [NeZero n] in
/-- Every packet holds a fragment. -/
theorem length_le_sentBy (settings : Settings n) (log : List (Packet n)) : log.length ≤ ∑ q, (sentBy settings q log).length := by
  induction log with
  | nil => exact Nat.zero_le _
  | cons pack rest ih =>
    have mine : (sentBy settings pack.procId [pack]).length ≤ ∑ q, (sentBy settings q [pack]).length :=
      Finset.single_le_sum (f := fun q => (sentBy settings q [pack]).length) (fun _ _ => Nat.zero_le _) (Finset.mem_univ _)
    have one : 0 < (sentBy settings pack.procId [pack]).length := by
      rw [sentBy_mine]
      exact Nat.succ_pos _
    rw [← List.singleton_append]
    simp only [sentBy_append,List.length_append,Finset.sum_add_distrib,List.length_singleton]
    omega

/-- There are no more packets than fragments of messages. -/
theorem length_log_le (intact : Intact settings start turn s) : s.log.length ≤ ∑ q, queued (s.submitted q) := by
  refine (length_le_sentBy settings s.log).trans (Finset.sum_le_sum fun q _ => ?_)
  obtain ⟨sent,carried,split⟩ := (intact.submits q).split
  rw [carried.pieces,List.length_map,← length_flatMap_fragments,← split,List.length_append]
  exact Nat.le_add_right ..

/-- As long as the numbers of the packets last, all daemons can come to have everything. -/
theorem reaches_all (intact : Intact settings start turn s) (lively : Lively turn s) (windows : maxSeqGap + most settings ≤ 8192)
    (windowed : 0 < settings.window ∧ 0 < settings.personalWindow)
    (room : ∑ q, queued (s.submitted q) ≤ maxWrapSequenceValue) :
    ∃ t turn, Reaches settings s t ∧ t.submitted = s.submitted ∧ Intact settings start turn t ∧
      ∀ p, (t.daemons p).aru = t.log.length ∧ (t.daemons p).downQueue = [] := by
  generalize left : ∑ q, queued (s.submitted q) - s.log.length = k
  induction k using Nat.strong_induction_on generalizing s turn with
  | h k ih =>
    have few := length_log_le intact
    -- whenever somebody makes a packet, fewer messages wait
    have onward {u : State n} {turn' : Fin n} (reaches : Reaches settings s u) (same : u.submitted = s.submitted)
        (grown : Grown settings start s.log.length turn' u) : ∃ t turn, Reaches settings s t ∧ t.submitted = s.submitted ∧
          Intact settings start turn t ∧ ∀ p, (t.daemons p).aru = t.log.length ∧ (t.daemons p).downQueue = [] := by
      obtain ⟨longer,intact',lively'⟩ := grown
      have few' := length_log_le intact'
      rw [same] at few'
      obtain ⟨v,turn'',more,last,rest⟩ := ih (∑ q, queued (u.submitted q) - u.log.length) (by rw [same]; omega) intact' lively'
        (by rw [same]; exact room) rfl
      exact ⟨v,turn'',reaches.trans more,last.trans same,rest⟩
    obtain ⟨t,turn',reaches,submitted,stops⟩ := recovers windows (few.trans room) intact lively rfl
    rcases stops.done with grown | ⟨size,whole⟩
    · exact onward reaches submitted ⟨grown,stops.intact,stops.lively⟩
    have calm : Calm settings start s.log.length turn' t := ⟨stops.intact,stops.lively,size,whole⟩
    obtain ⟨u,turn'',more,same,grown | ⟨calm',_,levels⟩⟩ := calm.levels windows windowed (few.trans room) 4
    · exact onward (reaches.trans more) (same.trans submitted) grown
    · exact ⟨u,turn'',reaches.trans more,same.trans submitted,calm'.intact,
        fun p => ⟨((levels p).aru (by omega)).trans calm'.size.symm,(levels p).queue le_rfl⟩⟩

/-- The token is never lost. -/
theorem lively_run {s₀ : State n} {first : Fin n} {acts : List (Action n)} (installed : Installed s₀ first)
    (windows : maxSeqGap + most settings ≤ 8192) (owned : (live s₀ first).aruLastId = none → (live s₀ first).aru = 0)
    (run : Run (Restrict Timely (Steps (step settings))) s₀ acts s) :
    ∃ start turn, Intact settings start turn s ∧ Lively turn s := by
  obtain ⟨start,intact⟩ := intact_installed settings installed
  have sent : (⟨first - 1,(s₀.daemons (first - 1)).receivedTokenRounds,
      .token { live s₀ first with rtr := [], transmiterId := first - 1 }⟩ : Flight n) ∈ s₀.air := by
    rw [installed.air]
    exact List.mem_singleton_self _
  have begins : Lively first s₀ := ⟨fun none => ⟨owned none,installed.log⟩,.inr ⟨_,_,rfl,sent⟩⟩
  obtain ⟨turn,intact,lively⟩ := run.always (P := fun s => ∃ turn, Intact settings start turn s ∧ Lively turn s) ⟨first,intact,begins⟩ (by
    rintro s a t ⟨turn,intact,lively⟩ ⟨timely,move⟩
    rcases intact.step_cases windows timely move with ⟨d',wires,rfl,quiet⟩ | ⟨_,_,token,d',sent,wires,rfl,small,_,alike,visited⟩
    · exact ⟨turn,intact.quiet quiet,lively.quiet quiet⟩
    · exact ⟨turn + 1,intact.visit windows small alike visited,lively.visit alike visited⟩)
  exact ⟨start,turn,intact,lively⟩

/-- Whatever happened in a run, and whatever packets in the air are lost, it can go on such that every daemon shows
    every message that any daemon was given. -/
theorem delivers_all {s₀ : State n} {first : Fin n} {acts : List (Action n)} (installed : Installed s₀ first)
    (windows : maxSeqGap + most settings ≤ 8192) (windowed : 0 < settings.window ∧ 0 < settings.personalWindow)
    (owned : (live s₀ first).aruLastId = none → (live s₀ first).aru = 0)
    (run : Run (Restrict Timely (Steps (step settings))) s₀ acts s) (room : ∑ q, queued (s.submitted q) ≤ maxWrapSequenceValue)
    {air : List (Flight n)} (loses : Loses s.air air) :
    ∃ more t, Run (Restrict Timely (Steps (step settings))) { s with air := air } more t ∧
      ∀ p, (t.daemons p).messages = (shown settings t p).map (fun entry => entry.2.mess) ∧
        ∀ q, (byProc q (shown settings t p)).Perm (s.submitted q) := by
  obtain ⟨start,turn,intact,lively⟩ := lively_run installed windows owned run
  obtain ⟨t,turn',⟨more,onward⟩,submitted,intact',done⟩ :=
    reaches_all (intact_loses intact loses) (lively.loses loses) windows windowed room
  have serves := intact_serves intact'
  refine ⟨more,t,onward,fun p => ⟨serves.messages p,fun q => ?_⟩⟩
  have delivered : t.log.length ≤ (t.daemons p).lastDelivered := by
    have behind := (intact'.keeps p).behind
    rwa [intact'.discarded p,(done p).1] at behind
  have same : t.submitted q = s.submitted q := congrFun submitted q
  rw [← same,← serves.flushed q (done q).2]
  exact ((serves.complete p delivered).filter _).map _

/-- All packets in the air are lost. -/
def onlyTokens (air : List (Flight n)) : List (Flight n) :=
  air.filter fun flight => match flight.wire with
    | .token _ => true
    | _ => false

omit [NeZero n] in
theorem loses_onlyTokens (air : List (Flight n)) : Loses air (onlyTokens air) where
  part _ mem := List.mem_of_mem_filter mem
  tokens flight mem token here := List.mem_filter.mpr ⟨mem,by rw [here]⟩

theorem delivers_all_pair : ∃ s t more, Run (Restrict Timely (Steps (step defaults))) pair (safely.take 2) s ∧
    s.log = [safePacket] ∧ (s.daemons 1).history = [] ∧ (s.daemons 1).info 1 = none ∧
    Run (Restrict Timely (Steps (step defaults))) { s with air := onlyTokens s.air } more t ∧
    (byProc 0 (shown defaults t 1)).Perm [safeLink] := by
  obtain ⟨s,run,made,nothing,missing,given⟩ := exists_run_of_exec (step defaults) Timely
    (fun s => s.log = [safePacket] ∧ (s.daemons 1).history = [] ∧ (s.daemons 1).info 1 = none ∧
      s.submitted = Function.update (fun _ => []) 0 [safeLink]) pair (safely.take 2) (by decide)
  obtain ⟨more,t,onward,all⟩ := delivers_all installed_pair (by decide) (by decide) (fun _ => rfl) run (by rw [given]; decide)
    (loses_onlyTokens s.air)
  have shown := (all 1).2 0
  rw [given] at shown
  exact ⟨s,t,more,run,made,nothing,missing,onward,shown⟩

end CdPraticas.Progress
