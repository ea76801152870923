import CdPraticas.Fragments

/-!
# A daemon of the ring

The state of one daemon of Spread between two changes of membership, and what
`protocol.c` does with packets, with the token and with messages to send. A handler
gives the daemon after it and what it puts on the network; `none` is an alarm of
priority FATAL, which ends the process.
-/

namespace CdPraticas.Protocol
open Fragments

/-- `packet_header` and the body. -/
structure Packet (n : ℕ) where
  type : Service
  procId : Fin n
  seq : ℕ
  firstFragHeader : FragmentHeader
  body : List UInt8
  deriving DecidableEq

/-- `packet_info`: a slot in use. `exist` is 2 once the packet was delivered, and 1 before. -/
structure PacketInfo (n : ℕ) where
  packet : Packet n
  delivered : Bool
  deriving DecidableEq

/-- `ring_rtr`: the packets that a daemon asks for. It has no `proc_id` once more than
    one daemon misses some, and no `seg_index` once more than one segment does. -/
structure RingRtr (n : ℕ) where
  procId : Option (Fin n)
  segIndex : Option ℕ
  seqs : List ℕ
  deriving DecidableEq

/-- `token_header`, with the 4-bit `arq` and `retrans` of its type, and its body. -/
structure Token (n : ℕ) where
  arq : Fin 16
  retrans : Fin 16
  transmiterId : Fin n
  seq : ℕ
  aru : ℕ
  aruLastId : Option (Fin n)
  flowControl : ℤ
  rtr : List (RingRtr n)
  deriving DecidableEq

/-- Where a packet is sent. -/
inductive Dest (n : ℕ)
  | ucast (procId : Fin n)
  | scast (segIndex : ℕ)
  | bcast
  deriving DecidableEq

/-- What is put on the network: the token goes to the next daemon, a hurry to the leader. -/
inductive Wire (n : ℕ)
  | packet (dest : Dest n) (packet : Packet n)
  | token (token : Token n)
  | hurry
  deriving DecidableEq

/-- The configuration, and the bytes that the buffer of each packet happens to hold. -/
structure Settings (n : ℕ) where
  window : ℕ
  personalWindow : ℕ
  acceleratedRing : Bool
  acceleratedWindow : ℕ
  segIndex : Fin n → ℕ
  endian : Endian
  stale : ℕ → ℕ → UInt8

/-- A message for the sessions, by its buffers. -/
abbrev Mess := List (List UInt8)

/-- The variables of `protocol.c` and `prot_body.h`. -/
structure Daemon (n : ℕ) where
  downQueue : List DownLink
  curElement : ℕ
  /-- the fragments chained for a sender; `none` is the queue MAX_PROCS_RING -/
  upQueue : Option (Fin n) → Mess
  packets : ℕ → Option (PacketInfo n)
  highestSeq : ℕ
  myAru : ℕ
  aru : ℕ
  lastDiscarded : ℕ
  lastDelivered : ℕ
  receivedTokenRounds : ℕ
  tokenCounter : ℕ
  lastToken : Token n
  lastNumRetrans : ℕ
  lastNumSent : ℕ
  justInstalled : Bool
  deliveryThreshold : Service
  deliverReliableQueued : Bool
  deliverAgreedQueued : Bool
  /-- the messages given to `Sess_deliver_message` -/
  messages : List Mess
  /-- the packets given to `Deliver_packet` -/
  history : List (Packet n)

def packetMask : ℕ := 0x1fff

def maxSeqGap : ℕ := 1600

def maxWrapSequenceValue : ℕ := 2 ^ 30

def sizeofTokenBody : ℕ := 65535 - 20 - 8 - 40

def sizeofRingRtr : ℕ := 16

/-- The slot of a packet. -/
def packEntry (seq : ℕ) : ℕ := seq &&& packetMask

variable {n : ℕ}

def Daemon.info (d : Daemon n) (seq : ℕ) : Option (PacketInfo n) := d.packets (packEntry seq)

def Daemon.put (d : Daemon n) (seq : ℕ) (slot : Option (PacketInfo n)) : Daemon n :=
  { d with packets := Function.update d.packets (packEntry seq) slot }

/-! ### Delivery -/

/-- A reliable packet whose messages are all whole is delivered as it comes. -/
def Packet.alone (pack : Packet n) : Bool := pack.type = .reliable ∧ pack.firstFragHeader.fragmentIndex = -1

/-- The queue its first fragment is chained to. -/
def Packet.procIndex (pack : Packet n) : Option (Fin n) := if pack.alone then none else some pack.procId

/-- `Deliver_packet`. The buffer is copied or handed on, which makes no difference here. -/
def Daemon.deliverPacket (settings : Settings n) (d : Daemon n) (seq : ℕ) : Option (Daemon n) :=
  match d.info seq with
  | none => none
  | some ⟨pack,_⟩ =>
    match unpack settings.endian pack.firstFragHeader pack.body with
    | none => none
    | some messages =>
      let index := pack.firstFragHeader.fragmentIndex
      let chained := d.upQueue pack.procIndex
      if chained.length + 1 ≠ index.natAbs then none
      else
        let mess := chained ++ [pack.body.take pack.firstFragHeader.fragmentLen]
        some { d.put seq (some ⟨pack,true⟩) with
          upQueue := Function.update d.upQueue pack.procIndex (if index < 0 then [] else mess)
          messages := d.messages ++ (if index < 0 then [mess] else []) ++ messages.map (fun message => [message])
          history := d.history ++ [pack] }

/-- The loop of `Deliver_reliable_packets`. -/
def Daemon.deliverReliableLoop (settings : Settings n) : List ℕ → Daemon n → Option (Daemon n)
  | [], d => some d
  | seq :: rest, d =>
    match d.info seq with
    | some ⟨pack,false⟩ =>
      if pack.alone then (d.deliverPacket settings seq).bind (deliverReliableLoop settings rest)
      else deliverReliableLoop settings rest d
    | _ => deliverReliableLoop settings rest d

def Daemon.deliverReliablePackets (settings : Settings n) (d : Daemon n) (startSeq numPackets : ℕ) : Option (Daemon n) :=
  if Service.reliable.code < d.deliveryThreshold.code then some d
  else
    let endSeq := startSeq + numPackets
    let startSeq := if startSeq ≤ d.lastDelivered then d.lastDelivered + 1 else startSeq
    d.deliverReliableLoop settings (List.range' startSeq (endSeq - startSeq))

def Daemon.delivered (d : Daemon n) : Daemon n := { d with lastDelivered := d.lastDelivered + 1 }

/-- The loop of `Deliver_agreed_packets`. It stops at the first safe packet. -/
def Daemon.deliverAgreedLoop (settings : Settings n) : List ℕ → Daemon n → Option (Daemon n)
  | [], d => some d
  | seq :: rest, d =>
    match d.info seq with
    | some ⟨pack,false⟩ =>
      if pack.type = .safe then some d
      else (d.deliverPacket settings seq).bind fun d => deliverAgreedLoop settings rest d.delivered
    | some ⟨pack,true⟩ =>
      if Service.agreed.code ≤ pack.type.code then none
      else deliverAgreedLoop settings rest d.delivered
    | none => none

def Daemon.deliverAgreedPackets (settings : Settings n) (d : Daemon n) : Option (Daemon n) :=
  if d.myAru ≤ d.lastDelivered then some d
  else if Service.agreed.code < d.deliveryThreshold.code then some d
  else d.deliverAgreedLoop settings (List.range' (d.lastDelivered + 1) (d.myAru - d.lastDelivered))

/-- The loop of `Discard_packets`: everything that was not delivered is, whatever its service. -/
def Daemon.discardLoop (settings : Settings n) : List ℕ → Daemon n → Option (Daemon n)
  | [], d => some d
  | seq :: rest, d =>
    match d.info seq with
    | some ⟨_,false⟩ => (d.deliverPacket settings seq).bind fun d => discardLoop settings rest (d.put seq none)
    | some ⟨_,true⟩ => discardLoop settings rest (d.put seq none)
    | none => none

def Daemon.discardPackets (settings : Settings n) (d : Daemon n) : Option (Daemon n) :=
  if d.aru ≤ d.lastDiscarded then some d
  else (d.discardLoop settings (List.range' (d.lastDiscarded + 1) (d.aru - d.lastDiscarded))).map fun d =>
    { d with lastDiscarded := d.aru, lastDelivered := max d.lastDelivered d.aru }

/-! ### Packets -/

/-- The loop that counts the packets in a row behind `My_aru`. -/
def Daemon.advanceAru (d : Daemon n) : Daemon n :=
  { d with myAru := d.myAru + ((List.range' (d.myAru + 1) (d.highestSeq - d.myAru)).takeWhile fun seq => (d.info seq).isSome).length }

/-- A packet, received or made here, goes into its slot. -/
def Daemon.insert (d : Daemon n) (pack : Packet n) : Daemon n :=
  { d.put pack.seq (some ⟨pack,false⟩) with highestSeq := max d.highestSeq pack.seq }

/-- `Prot_handle_bcast`, for a regular packet. -/
def Daemon.handleBcast (settings : Settings n) (d : Daemon n) (pack : Packet n) : Option (Daemon n) :=
  if pack.seq ≤ d.lastDiscarded then some d
  else if (d.info pack.seq).isSome then some d
  else if pack.seq = d.myAru + 1 then (d.insert pack).advanceAru.deliverAgreedPackets settings
  else (d.insert pack).deliverReliablePackets settings pack.seq 1

/-! ### The token -/

section
variable [NeZero n] (settings : Settings n) (me : Fin n)

/-- `Is_token_hold`, and `To_hold_token`. -/
def Daemon.isTokenHold (d : Daemon n) : Bool := d.lastToken.retrans ≤ 1 ∧ d.aru = d.highestSeq ∧ 1 < d.tokenCounter

/-- `Prot_token_hurry`: the last token is sent again. -/
def Daemon.tokenHurry (d : Daemon n) : Daemon n × List (Wire n) :=
  let retrans := if me = 0 then d.lastToken.retrans + 1 else d.lastToken.retrans
  let token := { d.lastToken with rtr := [], retrans := retrans, transmiterId := me }
  ({ d with lastToken := token },[.token token])

/-- `Handle_hurry`. -/
def Daemon.handleHurry (d : Daemon n) : Daemon n × List (Wire n) :=
  if me = 0 ∧ d.isTokenHold then { d with tokenCounter := 0 }.tokenHurry me else (d,[])

/-- `Prot_new_message`. -/
def Daemon.newMessage (d : Daemon n) (link : DownLink) : Daemon n × List (Wire n) :=
  let d := { d with downQueue := d.downQueue ++ [link] }
  if d.downQueue.length = 1 ∧ d.isTokenHold then if me = 0 then d.handleHurry me else (d,[.hurry])
  else (d,[])

/-- What becomes of a token received. -/
inductive Verdict
  | swallow
  | again
  | accept
  deriving DecidableEq

def Daemon.verdict (d : Daemon n) (token : Token n) : Verdict :=
  if token.transmiterId ≠ me - 1 then .swallow
  else if maxWrapSequenceValue < token.seq then .swallow
  else if me = 0 then if token.arq ≠ d.lastToken.arq then .swallow else .accept
  else if token.arq = d.lastToken.arq then if d.lastToken.retrans < token.retrans then .again else .swallow
  else if token.arq ≠ d.lastToken.arq + 1 then .swallow
  else .accept

/-- What `Answer_retrans` has done: the packets sent, and whom the requests of this daemon
    are to be answered to. -/
structure Answer (n : ℕ) where
  wires : List (Wire n)
  numRetrans : ℕ
  procId : Option (Fin n)
  segIndex : Option ℕ

/-- One packet asked for: it is sent to the daemon that asked, to its segment or to all. -/
def Daemon.answerSeq (d : Daemon n) (rtr : RingRtr n) (answer : Answer n) (seq : ℕ) : Option (Answer n) :=
  if seq < d.aru then none
  else
    match d.info seq with
    | some info =>
      let dest := match rtr.procId, rtr.segIndex with
        | some procId, _ => .ucast procId
        | none, some segIndex => .scast segIndex
        | none, none => .bcast
      some { answer with wires := answer.wires ++ [.packet dest info.packet], numRetrans := answer.numRetrans + 1 }
    | none =>
      some { answer with procId := none
                         segIndex := if rtr.segIndex = some (settings.segIndex me) then answer.segIndex else none }

/-- `Answer_retrans`. -/
def Daemon.answerRetrans (d : Daemon n) (token : Token n) : Option (Answer n) :=
  token.rtr.foldlM (fun answer rtr => rtr.seqs.foldlM (d.answerSeq settings me rtr) answer)
    ⟨[],0,some me,some (settings.segIndex me)⟩

/-- `FC_allowed`. -/
def Daemon.fcAllowed (d : Daemon n) (flowControl : ℤ) : ℕ :=
  if d.aru + maxSeqGap < d.highestSeq then 0
  else (min (min (max (settings.window + settings.personalWindow - flowControl) 0) settings.window) settings.personalWindow).toNat

/-- `Send_new_packets`: the packets made, oldest first. -/
def Daemon.sendNewPackets : ℕ → Daemon n → Option (Daemon n × List (Packet n))
  | 0, d => some (d,[])
  | numAllowed + 1, d =>
    if d.downQueue = [] then some (d,[])
    else
      let seq := d.highestSeq + 1
      match fillPacket settings.endian (settings.stale seq) d.downQueue d.curElement with
      | none => none
      | some filled =>
        let pack := ⟨filled.type,me,seq,filled.firstFragHeader,filled.body⟩
        if (d.info seq).isSome then none
        else
          (sendNewPackets numAllowed { d.insert pack with downQueue := filled.downQueue, curElement := filled.curElement }).map
            fun sent => (sent.1,pack :: sent.2)

/-- `Prot_queue_bcast`: the packets sent so far and the `Send_pack_queue`. -/
def queueBcast (queued : List (Packet n) × List (Packet n)) (pack : Packet n) : List (Packet n) × List (Packet n) :=
  let numPackToSend :=
    if settings.acceleratedRing then min (queued.2.length + 1 - settings.acceleratedWindow) queued.2.length
    else queued.2.length
  let sent := queued.1 ++ queued.2.take numPackToSend
  let packQueue := queued.2.drop numPackToSend
  if !settings.acceleratedRing ∨ settings.acceleratedWindow = 0 then (sent ++ [pack],packQueue) else (sent,packQueue ++ [pack])

/-- The requests of this daemon: what it misses up to `max_rtr_seq`, as far as they fit. -/
def Daemon.requests (d : Daemon n) (answer : Answer n) : List (RingRtr n) :=
  let maxRtrSeq := if settings.acceleratedRing then d.lastToken.seq else d.highestSeq
  let retransAllowed := (sizeofTokenBody - sizeofRingRtr) / 4
  if d.myAru < maxRtrSeq then
    let missing := (List.range' (d.myAru + 1) (maxRtrSeq - d.myAru)).filter fun seq => (d.info seq).isNone
    [⟨answer.procId,answer.segIndex,missing.take retransAllowed⟩]
  else []

/-- The flow control of the token, an `int16`. -/
def Daemon.flowControl (d : Daemon n) (token : Token n) (numRetrans numSent : ℕ) : ℤ :=
  Int.bmod (token.flowControl - d.lastNumRetrans - d.lastNumSent + numRetrans + numSent) 65536

/-- `Token->aru` is lowered to `My_aru`, and raised to it by the daemon that set it last or
    when everyone had everything. -/
def Daemon.raises (d : Daemon n) (token : Token n) : Bool :=
  d.myAru < token.aru ∨ token.aruLastId = some me ∨ token.aru = token.seq

/-- The token as it leaves. -/
def Daemon.nextToken (d : Daemon n) (token : Token n) (answer : Answer n) (flowControl : ℤ) : Token n where
  arq := if me = 0 then token.arq + 1 else token.arq
  retrans := if me = 0 then 0 else token.retrans
  transmiterId := me
  seq := d.highestSeq
  aru := if d.raises me token then d.myAru else token.aru
  aruLastId := if d.raises me token then some me else token.aruLastId
  flowControl := flowControl
  rtr := d.requests settings answer

/-- `Aru` is the smaller one of the last two `Token->aru`, and must not be lowered. -/
def Daemon.calculateAru (d : Daemon n) (token : Token n) : Option ℕ :=
  let aru := min token.aru d.lastToken.aru
  if aru < d.aru then none else some aru

/-- The daemon as it takes a token. -/
def Daemon.receive (d : Daemon n) (token : Token n) : Daemon n :=
  { d with
    justInstalled := false
    lastToken := if d.justInstalled then { d.lastToken with aru := 0 } else d.lastToken
    highestSeq := max d.highestSeq token.seq
    receivedTokenRounds := d.receivedTokenRounds + 1 }

/-- The daemon once the token left it. -/
def Daemon.settle (d : Daemon n) (token : Token n) (aru : ℕ) : Daemon n :=
  { d with aru := aru, lastToken := token, tokenCounter := if d.highestSeq = aru then d.tokenCounter + 1 else 0 }

/-- What was sent, and how far the packets come in a row now. -/
def Daemon.account (d : Daemon n) (numRetrans numSent : ℕ) : Daemon n :=
  { d with lastNumRetrans := numRetrans, lastNumSent := numSent }.advanceAru

/-- The end of `Prot_handle_token`: packets are delivered and discarded. -/
def Daemon.deliverAndDiscard (d : Daemon n) (numSent : ℕ) : Option (Daemon n) := do
  let d ← d.discardPackets settings
  let d ← d.deliverAgreedPackets settings
  d.deliverReliablePackets settings (d.highestSeq + 1 - numSent) numSent

/-- What is put on the network, in order. The leader may hold the token, and the accelerated
    ring sends some packets behind it. -/
def Daemon.wires (d : Daemon n) (answer : Answer n) (sent : List (Packet n)) (token : Token n) : List (Wire n) :=
  let queued := sent.foldl (queueBcast settings) ([],[])
  answer.wires ++ queued.1.map (.packet .bcast) ++ (if me = 0 ∧ d.isTokenHold then [] else [.token token]) ++
    queued.2.map (.packet .bcast)

/-- The part of `Prot_handle_token` for a token that is not swallowed: the daemon after it, the
    packets it made and what it put on the network. -/
def Daemon.acceptToken (d : Daemon n) (token : Token n) : Option (Daemon n × List (Packet n) × List (Wire n)) := do
  let d := d.receive token
  let answer ← d.answerRetrans settings me token
  let (d,sent) ← d.sendNewPackets settings me (d.fcAllowed settings token.flowControl)
  let flowControl := d.flowControl token answer.numRetrans sent.length
  let d := d.account answer.numRetrans sent.length
  let left := d.nextToken settings me token answer flowControl
  let aru ← d.calculateAru left
  let d' ← (d.settle left aru).deliverAndDiscard settings sent.length
  some (d',sent,d.wires settings me answer sent left)

/-- A daemon that is asked for the token again sends the last one with the number of the request. -/
def Daemon.retransToken (d : Daemon n) (token : Token n) : Daemon n × List (Wire n) :=
  { d with lastToken := { d.lastToken with retrans := token.retrans } }.tokenHurry me

/-- `Prot_handle_token`. -/
def Daemon.handleToken (d : Daemon n) (token : Token n) : Option (Daemon n × List (Packet n) × List (Wire n)) :=
  match d.verdict me token with
  | .swallow => some (d,[],[])
  | .again => some ((d.retransToken me token).1,[],(d.retransToken me token).2)
  | .accept => d.acceptToken settings me token

end

/-! ### The threshold -/

/-- `Prot_set_delivery_threshold`, with the events it queues or takes back. -/
def Daemon.setDeliveryThreshold (d : Daemon n) (threshold : Service) : Daemon n :=
  let lower := threshold.code < d.deliveryThreshold.code
  let higher := d.deliveryThreshold.code < threshold.code
  { d with
    deliveryThreshold := threshold
    deliverReliableQueued :=
      if lower ∧ threshold.code ≤ Service.reliable.code then true
      else if higher ∧ Service.fifo.code ≤ threshold.code then false
      else d.deliverReliableQueued
    deliverAgreedQueued :=
      if lower ∧ threshold.code ≤ Service.agreed.code then true
      else if higher ∧ Service.safe.code ≤ threshold.code then false
      else d.deliverAgreedQueued }

def Daemon.deliverAllReliablePacketsEvent (settings : Settings n) (d : Daemon n) : Option (Daemon n) :=
  { d with deliverReliableQueued := false }.deliverReliablePackets settings 1 d.highestSeq

def Daemon.deliverAgreedPacketsEvent (settings : Settings n) (d : Daemon n) : Option (Daemon n) :=
  { d with deliverAgreedQueued := false }.deliverAgreedPackets settings

end CdPraticas.Protocol
