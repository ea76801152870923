import CdPraticas.Safety
import CdPraticas.Broadcast

/-!
# What the ring guarantees

In every run of the ring: no daemon ends with an alarm, at most one can take a token, all
deliver the packets in one order, a safe packet is delivered once all have it, and a packet
that some daemon lacks is still held by the one that made it.
-/

namespace CdPraticas.TotalOrder
open Runs Fragments Protocol Logs Delivery Visits TokenRing Tokens Safety

variable {n : ℕ} {settings : Settings n} {log : List (Packet n)} {d : Daemon n}

/-! ### What a daemon has -/

/-- A daemon has a packet that it holds or has delivered. -/
def Has (d : Daemon n) (pack : Packet n) : Prop := pack ∈ d.history ∨ ∃ shown, d.info pack.seq = some ⟨pack,shown⟩

/-- What comes in a row, a daemon has. -/
theorem keeps_has (keeps : Keeps settings log d) (sound : Sound settings log) {pack : Packet n} (mem : pack ∈ log)
    (arrived : pack.seq ≤ d.myAru) : Has d pack := by
  obtain ⟨pos,found⟩ := sound.found mem
  obtain ⟨inside,_⟩ := List.getElem?_eq_some_iff.mp found
  have behind := keeps.behind
  rcases Nat.lt_or_ge d.lastDiscarded pack.seq with above | old
  · obtain ⟨⟨packet,shown⟩,here⟩ := Option.isSome_iff_exists.mp (keeps.present pack.seq above arrived)
    cases found.symm.trans (keeps.info_log sound here above (by omega))
    exact .inr ⟨shown,here⟩
  · have before : (log.take d.lastDelivered)[pack.seq - 1]? = some pack := by rw [List.getElem?_take_of_lt (by omega),found]
    exact .inl (keeps.reader.complete pack (List.mem_of_getElem? before))

/-- A safe packet is delivered only when it is not newer than `Aru`. -/
theorem keeps_safe (keeps : Keeps settings log d) (sound : Sound settings log) {pack : Packet n} (taken : pack ∈ d.history)
    (safe : pack.type = .safe) : pack.seq ≤ d.aru := by
  have late : pack.alone = false := by simp [Packet.alone,safe]
  have mem := (keeps.reader.mem_iff late).mp taken
  obtain ⟨i,inside,rfl⟩ := List.getElem_of_mem mem
  have before : i < d.lastDelivered := by
    rw [List.length_take] at inside
    omega
  have found : log[i]? = some (log.take d.lastDelivered)[i] := by
    rw [← List.getElem?_take_of_lt before]
    exact List.getElem?_eq_getElem inside
  have number := sound.numbered i _ found
  have stable := keeps.safe i _ found safe before
  omega

variable [NeZero n] {s₀ s t : State n} {first : Fin n} {acts more : List (Action n)}

/-! ### An example

A message is sent as safe, and the first daemon delivers it when the token has come back. -/

def leader : Fin 2 := ⟨0,Nat.two_pos⟩

def second : Fin 2 := ⟨1,Nat.one_lt_two⟩

/-- A token of the ring of two. -/
def token (arq : ℕ) (transmiterId : Fin 2) (seq : ℕ) (aruLastId : Option (Fin 2)) : Token 2 where
  arq := fourBits arq
  retrans := fourBits 0
  transmiterId := transmiterId
  seq := seq
  aru := seq
  aruLastId := aruLastId
  flowControl := seq
  rtr := []

def fresh : Daemon 2 where
  downQueue := []
  curElement := 0
  upQueue _ := []
  packets _ := none
  highestSeq := 0
  myAru := 0
  aru := 0
  lastDiscarded := 0
  lastDelivered := 0
  receivedTokenRounds := 0
  tokenCounter := 0
  lastToken := token 0 second 0 none
  lastNumRetrans := 0
  lastNumSent := 0
  justInstalled := true
  deliveryThreshold := .unreliable
  deliverReliableQueued := false
  deliverAgreedQueued := false
  messages := []
  history := []

/-- Two daemons that have just installed a membership. -/
def pair : State 2 := ⟨fun _ => fresh,∅,flights second fresh [.token fresh.lastToken],[],fun _ => []⟩

/-- The defaults of `spread_params.h`. -/
def defaults : Settings 2 where
  window := 160
  personalWindow := 20
  acceleratedRing := false
  acceleratedWindow := 15
  segIndex _ := 0
  endian := .little
  stale _ _ := 0

def safeLink : DownLink := ⟨.safe,[[7]],by constructor <;> simp [bodySize,headerSize]⟩

def safePacket : Packet 2 := ⟨.safe,leader,1,⟨-1,1⟩,[7]⟩

def safely : List (Action 2) :=
  [⟨leader,.newMessage safeLink⟩,⟨leader,.arrival ⟨second,0,.token (token 0 second 0 none)⟩⟩,
    ⟨second,.arrival ⟨leader,1,.packet .bcast safePacket⟩⟩,
    ⟨second,.arrival ⟨leader,1,.token (token 1 leader 1 (some leader))⟩⟩,
    ⟨leader,.arrival ⟨second,1,.token (token 1 second 1 (some second))⟩⟩]

theorem installed_pair : Installed pair 0 where
  exited := rfl
  log := rfl
  submitted _ := rfl
  curElement _ := rfl
  upQueue _ := rfl
  packets _ _ := rfl
  numbers _ := ⟨rfl,rfl,rfl,rfl,rfl⟩
  shown _ := ⟨rfl,rfl⟩
  installed _ := rfl
  lastSeq _ := rfl
  rounds := by decide
  arq := ⟨0,by decide⟩
  flowControl := by decide
  air := rfl

theorem ran_safely : ∃ s, Run (Restrict Timely (Steps (step defaults))) pair safely s ∧ safePacket ∈ (s.daemons 0).history :=
  exists_run_of_exec (step defaults) Timely (fun s => safePacket ∈ (s.daemons 0).history) pair safely (by decide)

/-! ### No alarm -/

/-- In no run does a daemon end with an alarm, whatever event comes next, and the numbers of the packets
    stay far from the end of their range. -/
theorem no_alarm (installed : Installed s₀ first) (windows : maxSeqGap + most settings ≤ 8192)
    (run : Run (Restrict Timely (Steps (step settings))) s₀ acts s) :
    s.exited = ∅ ∧ (∀ p, (s.daemons p).highestSeq ≤ maxWrapSequenceValue + most settings) ∧
      ∀ a : Action n, s.enabled settings a.proc a.event = true → Timely s a →
        (handle settings a.proc (s.daemons a.proc) a.event).isSome := by
  obtain ⟨start,turn,intact⟩ := intact_run installed windows run
  refine ⟨intact.exited,fun p => (intact.keeps p).logged.trans intact.small,fun a enabled timely => ?_⟩
  rcases intact.handle windows enabled timely with ⟨d',wires,done,_⟩ | ⟨mine,_,token,d',sent,wires,done,_⟩
  · rw [done]
    rfl
  · rw [mine,done]
    rfl

theorem no_alarm_pair : ∃ s, Run (Restrict Timely (Steps (step defaults))) pair safely s ∧
    safePacket ∈ (s.daemons 0).history ∧ s.exited = ∅ := by
  obtain ⟨s,run,delivered⟩ := ran_safely
  exact ⟨s,run,delivered,(no_alarm installed_pair (by decide) run).1⟩

/-! ### One token -/

/-- At any time only one daemon takes a token, and all tokens that it can take are copies of one. -/
theorem one_token (installed : Installed s₀ first) (windows : maxSeqGap + most settings ≤ 8192)
    (run : Run (Restrict Timely (Steps (step settings))) s₀ acts s) :
    ∃ turn, ∃ live : Token n, live.seq = s.log.length ∧
      ∀ p flight token, flight ∈ s.air → flight.wire = .token token → flight.reaches settings p = true →
        (s.daemons p).receivedTokenRounds < flight.round + 15 → (s.daemons p).verdict p token = .accept →
        p = turn ∧ Alike token live := by
  obtain ⟨start,turn,intact⟩ := intact_run installed windows run
  refine ⟨turn,live s turn,intact.seq,fun p flight token mem wire reaches timely accept => ?_⟩
  obtain ⟨mine,previous,last,_⟩ := intact.token.accept mem wire reaches timely accept
  have copy := intact.token.copies flight mem token wire
  rw [previous] at copy
  exact ⟨mine,copy.alike last⟩

theorem one_token_pair : ∃ s turn, Run (Restrict Timely (Steps (step defaults))) pair safely s ∧
    ∀ p flight token, flight ∈ s.air → flight.wire = .token token → flight.reaches defaults p = true →
      (s.daemons p).receivedTokenRounds < flight.round + 15 → (s.daemons p).verdict p token = .accept → p = turn := by
  obtain ⟨s,run,_⟩ := ran_safely
  obtain ⟨turn,_,_,only⟩ := one_token installed_pair (by decide) run
  exact ⟨s,turn,run,fun p flight token mem wire reaches timely accept => (only p flight token mem wire reaches timely accept).1⟩

/-! ### One order -/

/-- What the ring has broadcast: a packet that is made is sent, and one that is delivered is taken. -/
def broadcast (s : State n) : Broadcast.State (Fin n) (Packet n) := ⟨s.log,fun p => (s.daemons p).history⟩

omit [NeZero n] in
theorem broadcast_after (me : Fin n) (links : List DownLink) (wires : List (Wire n)) {d' : Daemon n} {sent : List (Packet n)}
    (keeps : Keeps settings (s.log ++ sent) d') (sound : Sound settings (s.log ++ sent))
    (later : (s.daemons me).history <+: d'.history) :
    ∃ acts, Run (Broadcast.Step Packet.alone) (broadcast s) acts (broadcast (s.after me links d' sent wires)) := by
  obtain ⟨new,history⟩ := later
  obtain ⟨acts,sends⟩ := Broadcast.run_send Packet.alone (broadcast s) sent sound.nodup
  have reader := keeps.reader
  rw [← history] at reader
  obtain ⟨acts',takes⟩ := Broadcast.run_take Packet.alone { broadcast s with log := s.log ++ sent } me new reader.once
    (fun pack mem => reader.logged pack (List.mem_append_right _ mem)) reader.prefix_log
  refine ⟨acts ++ acts',?_⟩
  have same : broadcast (s.after me links d' sent wires) = ({ broadcast s with log := s.log ++ sent } : Broadcast.State _ _).take me new := by
    simp only [broadcast,Broadcast.State.take,State.after,history]
    congr 1
    funext p
    rw [Function.update_apply,Function.update_apply]
    split <;> rfl
  rw [same]
  exact sends.append takes

/-- Each step of the ring is a run of a broadcast. -/
theorem intact_broadcasts {start : Fin 16} {turn : Fin n} (intact : Intact settings start turn s)
    (windows : maxSeqGap + most settings ≤ 8192) (run : Run (Restrict Timely (Steps (step settings))) s more t) :
    (∃ acts', Run (Broadcast.Step Packet.alone) (broadcast s) acts' (broadcast t)) ∧ ∃ turn', Intact settings start turn' t := by
  refine run.always (P := fun t => (∃ acts', Run (Broadcast.Step Packet.alone) (broadcast s) acts' (broadcast t)) ∧
    ∃ turn', Intact settings start turn' t) ⟨⟨[],.start⟩,turn,intact⟩ ?_
  rintro u a v ⟨⟨acts',before⟩,turn,intact⟩ ⟨timely,move⟩
  obtain ⟨turn',d',sent,wires,rfl,later,after⟩ := intact.step windows timely move
  have keeps := after.keeps a.proc
  rw [daemons_after,if_pos rfl] at keeps
  obtain ⟨acts'',moves⟩ := broadcast_after a.proc a.event.links wires keeps after.sound later.history
  exact ⟨⟨_,before.append moves⟩,turn',after⟩

theorem broadcast_installed (installed : Installed s₀ first) : broadcast s₀ = Broadcast.start := by
  simp only [broadcast,Broadcast.start,installed.log,(installed.shown _).2]

/-- What a run of the ring has broadcast is orderly. -/
theorem orderly (installed : Installed s₀ first) (windows : maxSeqGap + most settings ≤ 8192)
    (run : Run (Restrict Timely (Steps (step settings))) s₀ acts s) : Broadcast.Orderly Packet.alone (broadcast s) := by
  obtain ⟨start,intact⟩ := intact_installed settings installed
  obtain ⟨acts',run'⟩ := (intact_broadcasts intact windows run).1
  rw [broadcast_installed installed] at run'
  exact Broadcast.orderly_run run'

/-- The ring refines a broadcast in one order: a run of it, from any state reached to any later one, is a run
    of the broadcast. -/
theorem refines_broadcast (installed : Installed s₀ first) (windows : maxSeqGap + most settings ≤ 8192)
    (run : Run (Restrict Timely (Steps (step settings))) s₀ acts s)
    (onward : Run (Restrict Timely (Steps (step settings))) s more t) :
    ∃ acts' more', Run (Broadcast.Step Packet.alone) Broadcast.start acts' (broadcast s) ∧
      Run (Broadcast.Step Packet.alone) (broadcast s) more' (broadcast t) := by
  obtain ⟨start,intact⟩ := intact_installed settings installed
  obtain ⟨⟨acts',before⟩,turn,reached⟩ := intact_broadcasts intact windows run
  obtain ⟨⟨more',after⟩,_⟩ := intact_broadcasts reached windows onward
  exact ⟨acts',more',broadcast_installed installed ▸ before,after⟩

theorem refines_broadcast_pair : ∃ s acts', Run (Restrict Timely (Steps (step defaults))) pair safely s ∧
    safePacket ∈ (s.daemons 0).history ∧ Run (Broadcast.Step Packet.alone) Broadcast.start acts' (broadcast s) := by
  obtain ⟨s,run,delivered⟩ := ran_safely
  obtain ⟨acts',_,same,_⟩ := refines_broadcast installed_pair (by decide) run .start
  exact ⟨s,acts',run,delivered,same⟩

/-- What any two daemons have delivered in order agrees: one of them is behind the other. -/
theorem total_order (installed : Installed s₀ first) (windows : maxSeqGap + most settings ≤ 8192)
    (run : Run (Restrict Timely (Steps (step settings))) s₀ acts s) (p q : Fin n) :
    ordered Packet.alone (s.daemons p).history <+: ordered Packet.alone (s.daemons q).history ∨
      ordered Packet.alone (s.daemons q).history <+: ordered Packet.alone (s.daemons p).history :=
  (orderly installed windows run).agree p q

theorem total_order_pair : ∃ s, Run (Restrict Timely (Steps (step defaults))) pair safely s ∧
    safePacket ∈ (s.daemons 0).history ∧
    (ordered Packet.alone (s.daemons 0).history <+: ordered Packet.alone (s.daemons 1).history ∨
      ordered Packet.alone (s.daemons 1).history <+: ordered Packet.alone (s.daemons 0).history) := by
  obtain ⟨s,run,delivered⟩ := ran_safely
  exact ⟨s,run,delivered,total_order installed_pair (by decide) run 0 1⟩

/-- A daemon delivers packets that were made, each once and none behind `Last_delivered` left out, and it never
    takes one back. At the end of the log it has delivered all of them. -/
theorem delivered_once (installed : Installed s₀ first) (windows : maxSeqGap + most settings ≤ 8192)
    (run : Run (Restrict Timely (Steps (step settings))) s₀ acts s)
    (onward : Run (Restrict Timely (Steps (step settings))) s more t) (p : Fin n) :
    (s.daemons p).history.Nodup ∧ (s.daemons p).history <+: (t.daemons p).history ∧
      (∀ pack ∈ (s.daemons p).history, pack ∈ s.log) ∧
      (∀ pack ∈ s.log, pack.seq ≤ (s.daemons p).lastDelivered → pack ∈ (s.daemons p).history) ∧
      (s.log.length ≤ (s.daemons p).lastDelivered → (s.daemons p).history.Perm s.log) := by
  obtain ⟨start,turn,intact⟩ := intact_run installed windows run
  obtain ⟨⟨_,after⟩,_⟩ := intact_broadcasts intact windows onward
  have reader := (intact.keeps p).reader
  refine ⟨reader.once,(Broadcast.run_grows after).2 p,reader.logged,fun pack mem before => ?_,reader.perm intact.sound.nodup⟩
  obtain ⟨pos,found⟩ := intact.sound.found mem
  have inside : (s.log.take (s.daemons p).lastDelivered)[pack.seq - 1]? = some pack := by
    rw [List.getElem?_take_of_lt (by omega),found]
  exact reader.complete pack (List.mem_of_getElem? inside)

theorem delivered_once_pair : ∃ s, Run (Restrict Timely (Steps (step defaults))) pair safely s ∧
    safePacket ∈ (s.daemons 0).history ∧ (s.daemons 0).history.Nodup := by
  obtain ⟨s,run,delivered⟩ := ran_safely
  exact ⟨s,run,delivered,(delivered_once installed_pair (by decide) run .start 0).1⟩

/-! ### Packets that all have -/

/-- No number is above `My_aru` of any daemon that is not above `Aru` of one. -/
theorem intact_stable {start : Fin 16} {turn : Fin n} (intact : Intact settings start turn s) (p q : Fin n) :
    (s.daemons p).aru ≤ (s.daemons q).myAru :=
  (intact.steady.stable p q).trans (intact.last q)

/-- When one daemon has delivered a safe packet, every daemon has it. -/
theorem safe_delivery (installed : Installed s₀ first) (windows : maxSeqGap + most settings ≤ 8192)
    (run : Run (Restrict Timely (Steps (step settings))) s₀ acts s) {p : Fin n} {pack : Packet n}
    (delivered : pack ∈ (s.daemons p).history) (safe : pack.type = .safe) (q : Fin n) : Has (s.daemons q) pack := by
  obtain ⟨start,turn,intact⟩ := intact_run installed windows run
  have mem := (intact.keeps p).reader.logged pack delivered
  have old := keeps_safe (intact.keeps p) intact.sound delivered safe
  exact keeps_has (intact.keeps q) intact.sound mem (old.trans (intact_stable intact p q))

theorem safe_delivery_pair : ∃ s, Run (Restrict Timely (Steps (step defaults))) pair safely s ∧
    safePacket ∈ (s.daemons 0).history ∧ Has (s.daemons 1) safePacket := by
  obtain ⟨s,run,delivered⟩ := ran_safely
  exact ⟨s,run,delivered,safe_delivery installed_pair (by decide) run delivered rfl 1⟩

/-- A packet that some daemon lacks is not lost: the one that made it still holds it, and sends it again when it
    is asked for. -/
theorem recoverable (installed : Installed s₀ first) (windows : maxSeqGap + most settings ≤ 8192)
    (run : Run (Restrict Timely (Steps (step settings))) s₀ acts s) {q : Fin n} {pack : Packet n} (mem : pack ∈ s.log)
    (lacks : ¬ Has (s.daemons q) pack) (rtr : RingRtr n) (answer : Answer n) :
    ∃ answer' dest, (s.daemons pack.procId).answerSeq settings pack.procId rtr answer pack.seq = some answer' ∧
      answer'.wires = answer.wires ++ [.packet dest pack] := by
  obtain ⟨start,turn,intact⟩ := intact_run installed windows run
  have ahead : (s.daemons pack.procId).aru < pack.seq := by
    by_contra old
    exact lacks (keeps_has (intact.keeps q) intact.sound mem ((not_lt.mp old).trans (intact_stable intact pack.procId q)))
  obtain ⟨shown,found⟩ := intact.own pack mem (by rw [intact.discarded]; exact ahead)
  rw [Daemon.answerSeq,if_neg (by omega),found]
  exact ⟨_,_,rfl,rfl⟩

theorem recoverable_pair : ∃ s, Run (Restrict Timely (Steps (step defaults))) pair (safely.take 2) s ∧ safePacket ∈ s.log ∧
    ∀ rtr answer, ∃ answer' dest, (s.daemons 0).answerSeq defaults 0 rtr answer 1 = some answer' ∧
      answer'.wires = answer.wires ++ [.packet dest safePacket] := by
  obtain ⟨s,run,mem,undelivered,lacks⟩ := exists_run_of_exec (step defaults) Timely
    (fun s => safePacket ∈ s.log ∧ safePacket ∉ (s.daemons 1).history ∧ (s.daemons 1).info 1 = none) pair (safely.take 2) (by decide)
  have missing : ¬ Has (s.daemons 1) safePacket := by
    rintro (delivered | ⟨shown,found⟩)
    · exact undelivered delivered
    · exact absurd (lacks.symm.trans found) (by simp)
  exact ⟨s,run,mem,recoverable installed_pair (by decide) run mem missing⟩

end CdPraticas.TotalOrder
