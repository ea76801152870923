import CdPraticas.Protocol
import CdPraticas.Runs

/-!
# The ring of daemons

The daemons of one membership, in the order of the ring with the leader first, and a
network that may lose, repeat and reorder what is put on it: everything sent stays in the
air and may arrive at any time, or never. The state also keeps all packets made, by
number, and all messages that the daemons were given.
-/

namespace CdPraticas.TokenRing
open Runs Fragments Protocol

variable {n : ℕ} [NeZero n]

/-- Something in the air, with its sender and the number of tokens that the sender had received. -/
structure Flight (n : ℕ) where
  transmiterId : Fin n
  round : ℕ
  wire : Wire n
  deriving DecidableEq

structure State (n : ℕ) where
  daemons : Fin n → Daemon n
  /-- the daemons that an alarm has ended -/
  exited : Finset (Fin n)
  air : List (Flight n)
  /-- all packets made, oldest first -/
  log : List (Packet n)
  /-- all messages given to a daemon, oldest first -/
  submitted : Fin n → List DownLink

inductive Event (n : ℕ)
  | newMessage (link : DownLink)
  | arrival (flight : Flight n)
  | tokenHurry
  | setDeliveryThreshold (threshold : Service)
  | deliverAllReliablePackets
  | deliverAgreedPackets

structure Action (n : ℕ) where
  proc : Fin n
  event : Event n

/-- Whether what is in the air can reach a daemon. A daemon does not hear its own packets. -/
def Flight.reaches (settings : Settings n) (me : Fin n) (flight : Flight n) : Bool :=
  match flight.wire with
  | .packet (.ucast procId) _ => flight.transmiterId ≠ me ∧ procId = me
  | .packet (.scast segIndex) _ => flight.transmiterId ≠ me ∧ segIndex = settings.segIndex me
  | .packet .bcast _ => flight.transmiterId ≠ me
  | .token _ => flight.transmiterId = me - 1
  | .hurry => me = 0

/-- The events that can happen. Only the leader has a timer for the token. -/
def State.enabled (settings : Settings n) (s : State n) (me : Fin n) : Event n → Bool
  | .newMessage _ => true
  | .arrival flight => flight ∈ s.air ∧ flight.reaches settings me
  | .tokenHurry => me = 0
  | .setDeliveryThreshold _ => true
  | .deliverAllReliablePackets => (s.daemons me).deliverReliableQueued
  | .deliverAgreedPackets => (s.daemons me).deliverAgreedQueued

/-- What a daemon does: its state after it, the packets it makes and what it puts in the air. -/
def handle (settings : Settings n) (me : Fin n) (d : Daemon n) : Event n → Option (Daemon n × List (Packet n) × List (Wire n))
  | .newMessage link => some ((d.newMessage me link).1,[],(d.newMessage me link).2)
  | .arrival flight =>
    match flight.wire with
    | .packet _ pack => (d.handleBcast settings pack).map fun d => (d,[],[])
    | .token token => d.handleToken settings me token
    | .hurry => some ((d.handleHurry me).1,[],(d.handleHurry me).2)
  | .tokenHurry => some ((d.tokenHurry me).1,[],(d.tokenHurry me).2)
  | .setDeliveryThreshold threshold => some (d.setDeliveryThreshold threshold,[],[])
  | .deliverAllReliablePackets => (d.deliverAllReliablePacketsEvent settings).map fun d => (d,[],[])
  | .deliverAgreedPackets => (d.deliverAgreedPacketsEvent settings).map fun d => (d,[],[])

def Event.links : Event n → List DownLink
  | .newMessage link => [link]
  | _ => []

/-- What is put in the air by a daemon. -/
def flights (me : Fin n) (d : Daemon n) (wires : List (Wire n)) : List (Flight n) :=
  wires.map fun wire => ⟨me,d.receivedTokenRounds,wire⟩

def State.after (s : State n) (me : Fin n) (links : List DownLink) (d : Daemon n) (sent : List (Packet n))
    (wires : List (Wire n)) : State n where
  daemons := Function.update s.daemons me d
  exited := s.exited
  air := s.air ++ flights me d wires
  log := s.log ++ sent
  submitted := Function.update s.submitted me (s.submitted me ++ links)

/-- One daemon handles one event. -/
def step (settings : Settings n) (a : Action n) (s : State n) : Option (State n) :=
  if a.proc ∈ s.exited ∨ !s.enabled settings a.proc a.event then none
  else
    match handle settings a.proc (s.daemons a.proc) a.event with
    | none => some { s with exited := insert a.proc s.exited }
    | some (d,sent,wires) => some (s.after a.proc a.event.links d sent wires)

/-- A copy of the token may arrive late, but not fifteen rounds late: the `arq` that tells old
    tokens from new ones has four bits. -/
def timely (s : State n) (a : Action n) : Bool :=
  match a.event with
  | .arrival ⟨_,round,.token _⟩ => (s.daemons a.proc).receivedTokenRounds < round + 15
  | _ => true

def Timely (s : State n) (a : Action n) : Prop := timely s a = true

instance (s : State n) (a : Action n) : Decidable (Timely s a) := inferInstanceAs (Decidable (_ = true))

/-- A number in four bits. -/
def fourBits (value : ℕ) : Fin 16 := ⟨value % 16,Nat.mod_lt value (by decide)⟩

/-- The `arq` of the token in a round. -/
def arqOf (start : Fin 16) (round : ℕ) : Fin 16 := fourBits (start.val + round)

/-- The ring as `first` is about to take the first token of a new membership: all daemons have
    installed it and none has sent a packet in it. -/
structure Installed (s : State n) (first : Fin n) : Prop where
  exited : s.exited = ∅
  log : s.log = []
  submitted : ∀ p, s.submitted p = (s.daemons p).downQueue
  curElement : ∀ p, (s.daemons p).curElement = 0
  upQueue : ∀ p, (s.daemons p).upQueue = fun _ => []
  packets : ∀ p entry, (s.daemons p).packets entry = none
  numbers : ∀ p, (s.daemons p).highestSeq = 0 ∧ (s.daemons p).myAru = 0 ∧ (s.daemons p).aru = 0 ∧
    (s.daemons p).lastDiscarded = 0 ∧ (s.daemons p).lastDelivered = 0
  shown : ∀ p, (s.daemons p).messages = [] ∧ (s.daemons p).history = []
  installed : ∀ p, (s.daemons p).justInstalled = true
  lastSeq : ∀ p, (s.daemons p).lastToken.seq = 0
  rounds : ∀ p, (s.daemons p).receivedTokenRounds =
    if p < first then (s.daemons first).receivedTokenRounds + 1 else (s.daemons first).receivedTokenRounds
  arq : ∃ start, ∀ p, (s.daemons p).lastToken.arq = arqOf start (s.daemons p).receivedTokenRounds
  flowControl : (s.daemons (first - 1)).lastToken.flowControl =
    Int.bmod (∑ p, ((s.daemons p).lastNumRetrans + (s.daemons p).lastNumSent : ℤ)) 65536
  air : s.air = flights (first - 1) (s.daemons (first - 1))
    [.token { (s.daemons (first - 1)).lastToken with rtr := [], transmiterId := first - 1 }]

end CdPraticas.TokenRing
