import Mathlib

/-!
# Fragments in a packet

The daemon of Spread cuts messages into fragments and packs several into one packet,
each behind the first with a header of its own, aligned to four bytes. What
`Send_new_packets` packs, `Deliver_packet` takes apart again, also on a machine of the
other byte order.
-/

namespace CdPraticas.Fragments

/-- The service of a packet, in the order of the codes of `net_types.h`. -/
inductive Service
  | unreliable
  | reliable
  | fifo
  | agreed
  | safe
  | blockRegularDelivery
  deriving DecidableEq

def Service.code : Service → ℕ
  | .unreliable => 0x01
  | .reliable => 0x02
  | .fifo => 0x04
  | .agreed => 0x08
  | .safe => 0x10
  | .blockRegularDelivery => 0x20

/-- `sizeof(packet_body)`: MAX_PACKET_SIZE without the header of a packet. -/
def bodySize : ℕ := 1472 - 40

/-- `sizeof(fragment_header)`. -/
def headerSize : ℕ := 4

/-- The buffers of a message: at most MAX_SCATTER_ELEMENTS, and all but the last leave no
    room for another fragment. -/
structure Cut (mess : List (List UInt8)) : Prop where
  some : mess ≠ []
  few : mess.length ≤ 100
  fits : ∀ element ∈ mess, element.length ≤ bodySize
  full : ∀ element ∈ mess.dropLast, bodySize - headerSize < element.length

/-- `down_link`: a message to send, by the buffers it was read into. -/
structure DownLink where
  type : Service
  mess : List (List UInt8)
  cut : Cut mess
  deriving DecidableEq

/-- `fragment_header`. The index of a fragment counts from one; the last fragment of a
    message has the number of fragments, negated. -/
structure FragmentHeader where
  fragmentIndex : ℤ
  fragmentLen : ℕ
  deriving DecidableEq

/-- `Message_Buffer_to_Message_Fragments`: the header of a message and what follows it, cut
    into buffers; `none` is the alarm for a message that is too long. -/
def messageBufferToMessageFragments (head buf : List UInt8) : Option (List (List UInt8)) :=
  let numElements := (buf.length + head.length - 1) / bodySize + 1
  if 100 < numElements then none
  else some ((List.range numElements).map fun i =>
    if i = 0 then head ++ buf.take (bodySize - head.length) else (buf.drop (bodySize * i - head.length)).take bodySize)

theorem flatten_chunks (size m : ℕ) (bytes : List UInt8) :
    ((List.range m).map fun i => (bytes.drop (size * i)).take size).flatten = bytes.take (size * m) := by
  induction m with
  | zero => simp
  | succ m ih =>
    rw [List.range_succ,List.map_append,List.flatten_append,ih,Nat.mul_succ,List.take_add]
    simp

/-- The buffers hold the message, all but the last are full, and they are cut as the packing expects. -/
theorem cut_messageBufferToMessageFragments {head buf : List UInt8} {mess : List (List UInt8)} (some : head ≠ [])
    (small : head.length ≤ bodySize) (made : messageBufferToMessageFragments head buf = .some mess) :
    Cut mess ∧ (∀ element ∈ mess.dropLast, element.length = bodySize) ∧ mess.flatten = head ++ buf := by
  unfold messageBufferToMessageFragments at made
  by_cases long : 100 < (buf.length + head.length - 1) / bodySize + 1
  · simp [long] at made
  simp only [if_neg long,Option.some.injEq] at made
  have length : (head ++ buf).length = head.length + buf.length := List.length_append
  have pos : 0 < head.length := List.length_pos_iff.mpr some
  have chunks : mess = (List.range ((buf.length + head.length - 1) / bodySize + 1)).map
      fun i => ((head ++ buf).drop (bodySize * i)).take bodySize := by
    rw [← made]
    refine List.map_congr_left fun i _ => ?_
    by_cases first : i = 0
    · rw [if_pos first,first,Nat.mul_zero,List.drop_zero,List.take_append,List.take_of_length_le small]
    · have behind : head.length ≤ bodySize * i := small.trans (Nat.le_mul_of_pos_right _ (by omega))
      rw [if_neg first,List.drop_append,List.drop_eq_nil_of_le behind,List.nil_append]
  have body : bodySize = 1432 := rfl
  have element (i : ℕ) (inside : i < mess.length) : mess[i].length = min bodySize (head.length + buf.length - bodySize * i) := by
    simp [chunks,length]
  have count : mess.length = (buf.length + head.length - 1) / bodySize + 1 := by simp [chunks]
  rw [body] at count long
  have full : ∀ one ∈ mess.dropLast, one.length = bodySize := by
    intro one mem
    obtain ⟨i,inside,rfl⟩ := List.getElem_of_mem mem
    have before : i < mess.length - 1 := by simpa using inside
    rw [List.getElem_dropLast,element i (by omega),body]
    omega
  refine ⟨⟨?_,by omega,?_,?_⟩,full,?_⟩
  · exact List.ne_nil_of_length_pos (by omega)
  · intro one mem
    obtain ⟨i,inside,rfl⟩ := List.getElem_of_mem mem
    rw [element i inside]
    exact min_le_left ..
  · intro one mem
    rw [full one mem]
    decide
  · rw [chunks,flatten_chunks,List.take_of_length_le (by rw [length,body]; omega)]

theorem cut_messageBufferToMessageFragments_long : ∃ buf mess, buf.length = 1432 ∧
    messageBufferToMessageFragments [1] buf = some mess ∧ mess.length = 2 ∧ Cut mess ∧
      (∀ element ∈ mess.dropLast, element.length = bodySize) ∧ mess.flatten = 1 :: buf := by
  obtain ⟨buf,size⟩ : ∃ buf : List UInt8, buf.length = 1432 := ⟨List.replicate 1432 0,List.length_replicate⟩
  have numElements : (buf.length + [(1 : UInt8)].length - 1) / bodySize + 1 = 2 := by
    rw [size]
    rfl
  obtain ⟨mess,made,two⟩ : ∃ mess, messageBufferToMessageFragments [1] buf = some mess ∧ mess.length = 2 := by
    refine ⟨_,if_neg (by rw [numElements]; decide),?_⟩
    rw [List.length_map,List.length_range,numElements]
  exact ⟨buf,mess,size,made,two,cut_messageBufferToMessageFragments (by simp) (by simp [bodySize]) made⟩

/-- The bytes up to the next multiple of four. -/
def paddingBytes (processed : ℕ) : ℕ :=
  match processed % 4 with
  | 1 => 3
  | 2 => 2
  | 3 => 1
  | _ => 0

/-! ### 16-bit numbers in memory -/

inductive Endian
  | little
  | big
  deriving DecidableEq

/-- An `int16` as two bytes. -/
def int16Bytes (endian : Endian) (value : ℤ) : List UInt8 :=
  let low := UInt8.ofNat (value % 65536).toNat
  let high := UInt8.ofNat ((value % 65536).toNat / 256)
  match endian with
  | .little => [low,high]
  | .big => [high,low]

/-- A sixteen-bit word read as a signed number. -/
def signed (word : ℕ) : ℤ := if word < 32768 then word else word - 65536

/-- The `int16` that two bytes make up. -/
def readInt16 (endian : Endian) (first second : UInt8) : ℤ :=
  match endian with
  | .little => signed (first.toNat + 256 * second.toNat)
  | .big => signed (second.toNat + 256 * first.toNat)

theorem length_int16Bytes (endian : Endian) (value : ℤ) : (int16Bytes endian value).length = 2 := by
  cases endian <;> rfl

/-- The other byte order has the same bytes the other way round. -/
theorem int16Bytes_reverse (endian other : Endian) (differ : other ≠ endian) (value : ℤ) :
    (int16Bytes other value).reverse = int16Bytes endian value := by
  cases endian <;> cases other <;> first | rfl | exact absurd rfl differ

theorem signed_low_high (value : ℤ) (low : -32768 ≤ value) (high : value < 32768) :
    signed ((UInt8.ofNat (value % 65536).toNat).toNat + 256 * (UInt8.ofNat ((value % 65536).toNat / 256)).toNat) = value := by
  rw [UInt8.toNat_ofNat',UInt8.toNat_ofNat']
  unfold signed
  split <;> omega

theorem readInt16_int16Bytes (endian : Endian) (value : ℤ) (low : -32768 ≤ value) (high : value < 32768) :
    ∃ first second, int16Bytes endian value = [first,second] ∧ readInt16 endian first second = value := by
  cases endian with
  | little => exact ⟨_,_,rfl,signed_low_high value low high⟩
  | big => exact ⟨_,_,rfl,signed_low_high value low high⟩

/-! ### Packing -/

section
variable (endian : Endian) (stale : ℕ → UInt8)

/-- A header in the body of a packet. -/
def FragmentHeader.bytes (header : FragmentHeader) : List UInt8 :=
  int16Bytes endian header.fragmentIndex ++ int16Bytes endian header.fragmentLen

/-- A fragment behind the others in the body. The bytes of the padding are not written;
    `stale` is what the buffer holds there. -/
def writeFragment (body : List UInt8) (header : FragmentHeader) (element : List UInt8) : List UInt8 :=
  body ++ (List.range (paddingBytes body.length)).map (fun i => stale (body.length + i)) ++ header.bytes endian ++ element

/-- Fragments of different types share a packet only where both are fifo or agreed. -/
def shares (type next : Service) : Bool :=
  type = next ∨ (type = .fifo ∨ type = .agreed) ∧ (next = .fifo ∨ next = .agreed)

/-- The fragment at `cur_element` leaves the down queue: its index, and the queue and
    `cur_element` behind it; `none` is the alarm that ends the process. -/
def advance (downQueue : List DownLink) (curElement : ℕ) : Option (ℤ × List DownLink × ℕ) :=
  match downQueue with
  | [] => none
  | first :: rest =>
    if curElement + 1 < first.mess.length then some (curElement + 1,first :: rest,curElement + 1)
    else if curElement + 1 = first.mess.length then some (-first.mess.length,rest,0)
    else none

/-- The loop of `Send_new_packets` that fills one packet: the body, and what is left in the
    down queue. `fuel` bounds the fragments that wait. -/
def fillLoop (type : Service) : ℕ → List UInt8 → List DownLink → ℕ → Option (List UInt8 × List DownLink × ℕ)
  | 0, _, _, _ => none
  | _ + 1, body, [], curElement => some (body,[],curElement)
  | fuel + 1, body, first :: rest, curElement =>
    match first.mess[curElement]?, advance (first :: rest) curElement with
    | some element, some (fragmentIndex,downQueue,next) =>
      if bodySize < body.length + paddingBytes body.length + headerSize + element.length then some (body,first :: rest,curElement)
      else if !shares type first.type then some (body,first :: rest,curElement)
      else fillLoop type fuel (writeFragment endian stale body ⟨fragmentIndex,element.length⟩ element) downQueue next
    | _, _ => none

/-- A packet filled from the down queue, and the queue after it. -/
structure Filled where
  type : Service
  firstFragHeader : FragmentHeader
  body : List UInt8
  downQueue : List DownLink
  curElement : ℕ
  deriving DecidableEq

/-- All fragments of the messages queued. -/
def queued (downQueue : List DownLink) : ℕ := (downQueue.map fun link => link.mess.length).sum

/-- One packet of `Send_new_packets`. The header of the first fragment is a part of the
    header of the packet. -/
def fillPacket (downQueue : List DownLink) (curElement : ℕ) : Option Filled :=
  match downQueue with
  | [] => none
  | first :: rest =>
    match first.mess[curElement]?, advance (first :: rest) curElement with
    | some element, some (fragmentIndex,downQueue,next) =>
      (fillLoop endian stale first.type (queued (first :: rest)) element downQueue next).map fun filled =>
        ⟨first.type,⟨fragmentIndex,element.length⟩,filled.1,filled.2.1,filled.2.2⟩
    | _, _ => none

/-! ### Unpacking -/

/-- The loop of `Deliver_packet`: the fragments behind the first, `processed` bytes into
    the body. A header that is cut off, like a fragment that is, ends it; `none` is a copy
    of a negative length. -/
def unpackLoop : ℕ → ℕ → List UInt8 → Option (List (List UInt8))
  | 0, _, _ => none
  | fuel + 1, processed, body =>
    if processed < body.length then
      match body.drop (processed + paddingBytes processed) with
      | _ :: _ :: third :: fourth :: rest =>
        let fragmentLen := readInt16 endian third fourth
        let processed := processed + paddingBytes processed + headerSize
        if (body.length : ℤ) < processed + fragmentLen then some []
        else if fragmentLen < 0 then none
        else (unpackLoop fuel (processed + fragmentLen.toNat) body).map fun messages => rest.take fragmentLen.toNat :: messages
      | _ => some []
    else some []

def unpack (firstFragHeader : FragmentHeader) (body : List UInt8) : Option (List (List UInt8)) :=
  unpackLoop endian (body.length + 1) firstFragHeader.fragmentLen body

/-- The loop of `Prot_handle_bcast` over a packet of the other byte order: the headers are
    turned round in place, as `Flip_frag` does, and then read. -/
def flipLoop : ℕ → ℕ → List UInt8 → Option (List UInt8)
  | 0, _, _ => none
  | fuel + 1, processed, body =>
    if processed < body.length then
      let processed := processed + paddingBytes processed
      match body.drop processed with
      | first :: second :: third :: fourth :: rest =>
        let fragmentLen := readInt16 endian fourth third
        if fragmentLen < 0 then none
        else flipLoop fuel (processed + headerSize + fragmentLen.toNat) (body.take processed ++ second :: first :: fourth :: third :: rest)
      | _ => some body
    else some body

def flip (firstFragHeader : FragmentHeader) (body : List UInt8) : Option (List UInt8) :=
  flipLoop endian (body.length + 1) firstFragHeader.fragmentLen body

/-! ### The fragments of the messages queued -/

/-- A fragment on its way: the service of its message, its index and its bytes. -/
structure Fragment where
  type : Service
  index : ℤ
  data : List UInt8
  deriving DecidableEq

def Fragment.header (fragment : Fragment) : FragmentHeader := ⟨fragment.index,fragment.data.length⟩

def DownLink.fragments (link : DownLink) : List Fragment :=
  link.mess.mapIdx fun i element => ⟨link.type,if i + 1 < link.mess.length then i + 1 else -link.mess.length,element⟩

/-- What is still to be sent, fragment by fragment. -/
def pending (downQueue : List DownLink) (curElement : ℕ) : List Fragment :=
  (downQueue.flatMap DownLink.fragments).drop curElement

/-- `cur_element` is an element of the first message queued. -/
def AtElement : List DownLink → ℕ → Prop
  | [], curElement => curElement = 0
  | first :: _, curElement => curElement < first.mess.length

theorem DownLink.length_fragments (link : DownLink) : link.fragments.length = link.mess.length := by
  simp [fragments]

theorem length_flatMap_fragments (downQueue : List DownLink) :
    (downQueue.flatMap DownLink.fragments).length = queued downQueue := by
  simp [queued,List.length_flatMap,DownLink.length_fragments]

theorem atElement_zero (downQueue : List DownLink) : AtElement downQueue 0 := by
  cases downQueue with
  | nil => rfl
  | cons first rest => exact List.length_pos_iff.mpr first.cut.some

theorem AtElement.append {downQueue : List DownLink} {curElement : ℕ} (inside : AtElement downQueue curElement) (link : DownLink) :
    AtElement (downQueue ++ [link]) curElement := by
  cases downQueue with
  | nil =>
    rw [show curElement = 0 from inside]
    exact atElement_zero _
  | cons first rest => exact inside

theorem pending_append {downQueue : List DownLink} {curElement : ℕ} (inside : AtElement downQueue curElement) (link : DownLink) :
    pending (downQueue ++ [link]) curElement = pending downQueue curElement ++ link.fragments := by
  have before : curElement ≤ (downQueue.flatMap DownLink.fragments).length := by
    cases downQueue with
    | nil => exact (show curElement = 0 from inside).le
    | cons first rest =>
      have inside : curElement < first.mess.length := inside
      rw [List.flatMap_cons,List.length_append,DownLink.length_fragments]
      omega
  unfold pending
  rw [List.flatMap_append,List.drop_append_of_le_length before]
  simp

/-- `element` leaves the down queue: it is the first fragment pending. Where its message
    goes on, it fills the packet; where it starts a message and leaves room, it is all of it. -/
structure Leaves (first : DownLink) (rest : List DownLink) (curElement : ℕ) (element : List UInt8) (index : ℤ)
    (downQueue : List DownLink) (next : ℕ) : Prop where
  found : first.mess[curElement]? = some element
  advanced : advance (first :: rest) curElement = some (index,downQueue,next)
  pending : pending (first :: rest) curElement = ⟨first.type,index,element⟩ :: pending downQueue next
  inside : AtElement downQueue next
  suffix : downQueue <:+ first :: rest
  fits : element.length ≤ bodySize
  goesOn : 0 < next → bodySize - headerSize < element.length
  whole : curElement = 0 → element.length ≤ bodySize - headerSize → index = -1
  few : index.natAbs ≤ 100

theorem leaves {first : DownLink} {rest : List DownLink} {curElement : ℕ} (inside : AtElement (first :: rest) curElement) :
    ∃ element index downQueue next, Leaves first rest curElement element index downQueue next := by
  change curElement < first.mess.length at inside
  have mine := first.cut
  have here : first.mess[curElement]? = some (first.mess[curElement]) := List.getElem?_eq_getElem inside
  have head : pending (first :: rest) curElement =
      ⟨first.type,if curElement + 1 < first.mess.length then curElement + 1 else -first.mess.length,first.mess[curElement]⟩ ::
        pending (first :: rest) (curElement + 1) := by
    have inside' : curElement < ((first :: rest).flatMap DownLink.fragments).length := by
      rw [List.flatMap_cons,List.length_append,DownLink.length_fragments]
      omega
    unfold pending
    rw [List.drop_eq_getElem_cons inside']
    congr 1
    simp only [List.flatMap_cons]
    rw [List.getElem_append_left (by rw [DownLink.length_fragments]; exact inside)]
    simp [DownLink.fragments]
  have short := mine.fits _ (List.getElem_mem inside)
  have full : curElement + 1 < first.mess.length → bodySize - headerSize < first.mess[curElement].length := by
    intro more
    refine mine.full _ ?_
    have kept : curElement < first.mess.dropLast.length := by rw [List.length_dropLast]; omega
    rw [← List.getElem_dropLast kept]
    exact List.getElem_mem kept
  have few := mine.few
  by_cases more : curElement + 1 < first.mess.length
  · rw [if_pos more] at head
    refine ⟨_,curElement + 1,first :: rest,curElement + 1,here,by simp [advance,more],head,more,List.suffix_rfl,short,fun _ => full more,?_,?_⟩
    · intro _ room
      exact absurd (full more) (by omega)
    · omega
  · have last : curElement + 1 = first.mess.length := by omega
    rw [if_neg more] at head
    refine ⟨_,-first.mess.length,rest,0,here,by simp [advance,last],?_,atElement_zero rest,
      List.suffix_cons first rest,short,fun lt => absurd lt (by omega),?_,by omega⟩
    · rw [head]
      unfold pending
      rw [List.flatMap_cons,last,← DownLink.length_fragments,List.drop_left]
      simp
    · intro start _
      rw [← last,start]
      rfl

/-! ### What a packet holds -/

/-- A fragment behind `length` bytes of a body. -/
def frame (length : ℕ) (fragment : Fragment) : List UInt8 :=
  (List.range (paddingBytes length)).map (fun i => stale (length + i)) ++ fragment.header.bytes endian ++ fragment.data

/-- Fragments behind `length` bytes of a body. -/
def packed : ℕ → List Fragment → List UInt8
  | _, [] => []
  | length, fragment :: rest => frame endian stale length fragment ++ packed (length + (frame endian stale length fragment).length) rest

theorem length_frame (length : ℕ) (fragment : Fragment) :
    (frame endian stale length fragment).length = paddingBytes length + headerSize + fragment.data.length := by
  simp only [frame,FragmentHeader.bytes,length_int16Bytes,headerSize,List.length_append,List.length_map,List.length_range]

theorem length_append_frame (front : List UInt8) (fragment : Fragment) :
    (front ++ frame endian stale front.length fragment).length =
      front.length + paddingBytes front.length + headerSize + fragment.data.length := by
  rw [List.length_append,length_frame]
  omega

theorem writeFragment_eq (body : List UInt8) (fragment : Fragment) :
    writeFragment endian stale body fragment.header fragment.data = body ++ frame endian stale body.length fragment := by
  simp [writeFragment,frame]

/-- What the loop of `Send_new_packets` adds to a packet. -/
structure Fills (type : Service) (body : List UInt8) (downQueue : List DownLink) (curElement : ℕ)
    (taken : List Fragment) (filled : List UInt8 × List DownLink × ℕ) : Prop where
  pending : pending downQueue curElement = taken ++ pending filled.2.1 filled.2.2
  body : filled.1 = body ++ packed endian stale body.length taken
  fits : filled.1.length ≤ bodySize
  inside : AtElement filled.2.1 filled.2.2
  suffix : filled.2.1 <:+ downQueue
  whole : ∀ fragment ∈ taken, fragment.index = -1 ∧ shares type fragment.type = true

/-- Behind the first fragment of a packet there are whole messages only. -/
theorem fillLoop_spec (type : Service) (fuel : ℕ) (body : List UInt8) (downQueue : List DownLink) (curElement : ℕ)
    (enough : (pending downQueue curElement).length < fuel)
    (inside : AtElement downQueue curElement) (fits : body.length ≤ bodySize)
    (goesOn : 0 < curElement → bodySize - headerSize < body.length) :
    ∃ taken filled, fillLoop endian stale type fuel body downQueue curElement = some filled ∧
      Fills endian stale type body downQueue curElement taken filled := by
  induction fuel generalizing body downQueue curElement with
  | zero => omega
  | succ fuel ih =>
    cases downQueue with
    | nil => exact ⟨[],_,rfl,rfl,by simp [packed],fits,inside,List.suffix_rfl,by simp⟩
    | cons first rest =>
      obtain ⟨element,index,left,next,leaves⟩ := leaves inside
      have stop : Fills endian stale type body (first :: rest) curElement [] (body,first :: rest,curElement) :=
        ⟨rfl,by simp [packed],fits,inside,List.suffix_rfl,by simp⟩
      rw [fillLoop]
      simp only [leaves.found,leaves.advanced]
      by_cases large : bodySize < body.length + paddingBytes body.length + headerSize + element.length
      · exact ⟨[],_,if_pos large,stop⟩
      rw [if_neg large]
      by_cases apart : (!shares type first.type) = true
      · exact ⟨[],_,if_pos apart,stop⟩
      rw [if_neg apart]
      have start : curElement = 0 := by
        by_contra more
        have := goesOn (by omega)
        unfold headerSize bodySize at *
        omega
      have room : element.length ≤ bodySize - headerSize := by omega
      have write := writeFragment_eq endian stale body ⟨first.type,index,element⟩
      simp only [Fragment.header] at write
      rw [write]
      have size : (frame endian stale body.length ⟨first.type,index,element⟩).length =
          paddingBytes body.length + headerSize + element.length := length_frame endian stale body.length _
      have behind := leaves.goesOn
      have shorter : (pending left next).length < fuel := by
        have := leaves.pending
        rw [this,List.length_cons] at enough
        omega
      obtain ⟨taken,filled,run,fills⟩ := ih (body ++ frame endian stale body.length ⟨first.type,index,element⟩) left next shorter leaves.inside (by rw [List.length_append,size]; omega)
        (by rw [List.length_append,size]; intro more; have := behind more; omega)
      refine ⟨⟨first.type,index,element⟩ :: taken,filled,run,?_,?_,fills.fits,fills.inside,fills.suffix.trans leaves.suffix,?_⟩
      · rw [leaves.pending,fills.pending]
        rfl
      · rw [fills.body,List.length_append,List.append_assoc]
        rfl
      · intro fragment mem
        rcases List.mem_cons.mp mem with rfl | later
        · exact ⟨leaves.whole start room,by simpa using apart⟩
        · exact fills.whole fragment later

/-- A packet made of the fragments `first :: taken` of the down queue. -/
structure Packs (downQueue : List DownLink) (curElement : ℕ) (first : Fragment) (taken : List Fragment) (filled : Filled) :
    Prop where
  pending : pending downQueue curElement = first :: taken ++ pending filled.downQueue filled.curElement
  type : filled.type = first.type
  header : filled.firstFragHeader = first.header
  body : filled.body = first.data ++ packed endian stale first.data.length taken
  fits : filled.body.length ≤ bodySize
  inside : AtElement filled.downQueue filled.curElement
  suffix : filled.downQueue <:+ downQueue
  few : first.index.natAbs ≤ 100
  whole : ∀ fragment ∈ taken, fragment.index = -1 ∧ shares first.type fragment.type = true

/-- As long as a message waits, `Send_new_packets` makes a packet of it. -/
theorem fillPacket_spec {downQueue : List DownLink} {curElement : ℕ} (waits : downQueue ≠ [])
    (inside : AtElement downQueue curElement) :
    ∃ first taken filled, fillPacket endian stale downQueue curElement = some filled ∧
      Packs endian stale downQueue curElement first taken filled := by
  obtain ⟨link,rest,shape⟩ := List.exists_cons_of_ne_nil waits
  subst shape
  obtain ⟨element,index,left,next,leaves⟩ := leaves inside
  have enough : (pending left next).length < queued (link :: rest) := by
    have all : (pending (link :: rest) curElement).length ≤ queued (link :: rest) := by
      rw [pending,List.length_drop,length_flatMap_fragments]
      omega
    rw [leaves.pending,List.length_cons] at all
    omega
  obtain ⟨taken,filled,run,fills⟩ := fillLoop_spec endian stale link.type _ element left next enough leaves.inside leaves.fits leaves.goesOn
  refine ⟨⟨link.type,index,element⟩,taken,⟨link.type,⟨index,element.length⟩,filled.1,filled.2.1,filled.2.2⟩,?_,?_⟩
  · simp only [fillPacket,leaves.found,leaves.advanced,run,Option.map_some]
  · exact ⟨by rw [leaves.pending,fills.pending]; rfl,rfl,rfl,fills.body,fills.fits,fills.inside,
      fills.suffix.trans leaves.suffix,leaves.few,fills.whole⟩

/-! ### Round trips -/

/-- A header in a body and what follows it. -/
theorem bytes_spec (header : FragmentHeader) (small : header.fragmentLen ≤ bodySize) :
    ∃ first second third fourth, header.bytes endian = [first,second,third,fourth] ∧
      int16Bytes endian header.fragmentIndex = [first,second] ∧ int16Bytes endian header.fragmentLen = [third,fourth] ∧
      readInt16 endian third fourth = header.fragmentLen := by
  unfold bodySize at small
  obtain ⟨third,fourth,length,value⟩ := readInt16_int16Bytes endian header.fragmentLen (by omega) (by omega)
  obtain ⟨first,second,index⟩ := List.length_eq_two.mp (length_int16Bytes endian header.fragmentIndex)
  exact ⟨first,second,third,fourth,by rw [FragmentHeader.bytes,index,length]; rfl,index,length,value⟩

theorem drop_frame (front : List UInt8) (fragment : Fragment) (rest : List UInt8) :
    (front ++ (frame endian stale front.length fragment ++ rest)).drop (front.length + paddingBytes front.length) =
      fragment.header.bytes endian ++ (fragment.data ++ rest) := by
  have cut : front ++ (frame endian stale front.length fragment ++ rest) =
      (front ++ (List.range (paddingBytes front.length)).map fun i => stale (front.length + i)) ++
        (fragment.header.bytes endian ++ (fragment.data ++ rest)) := by simp [frame]
  rw [cut,List.drop_left' (by simp)]

theorem take_frame (front : List UInt8) (fragment : Fragment) (rest : List UInt8) :
    (front ++ (frame endian stale front.length fragment ++ rest)).take (front.length + paddingBytes front.length) =
      front ++ (List.range (paddingBytes front.length)).map fun i => stale (front.length + i) := by
  have cut : front ++ (frame endian stale front.length fragment ++ rest) =
      (front ++ (List.range (paddingBytes front.length)).map fun i => stale (front.length + i)) ++
        (fragment.header.bytes endian ++ (fragment.data ++ rest)) := by simp [frame]
  rw [cut,List.take_left' (by simp)]

theorem length_le_packed (length : ℕ) (fragments : List Fragment) :
    headerSize * fragments.length ≤ (packed endian stale length fragments).length := by
  induction fragments generalizing length with
  | nil => simp [packed]
  | cons fragment rest ih =>
    have later := ih (length + (frame endian stale length fragment).length)
    have size := length_frame endian stale length fragment
    rw [packed,List.length_append,List.length_cons,Nat.mul_add]
    omega

theorem length_data_le (length : ℕ) {fragments : List Fragment} {fragment : Fragment} (mem : fragment ∈ fragments) :
    fragment.data.length ≤ (packed endian stale length fragments).length := by
  induction fragments generalizing length with
  | nil => simp at mem
  | cons other rest ih =>
    rw [packed,List.length_append]
    rcases List.mem_cons.mp mem with rfl | later
    · rw [length_frame]
      omega
    · have := ih (length + (frame endian stale length other).length) later
      omega

/-- The loop of `Deliver_packet` finds the fragments that were packed. -/
theorem unpackLoop_packed (fuel : ℕ) (front : List UInt8) (fragments : List Fragment) (enough : fragments.length < fuel)
    (small : ∀ fragment ∈ fragments, fragment.data.length ≤ bodySize) :
    unpackLoop endian fuel front.length (front ++ packed endian stale front.length fragments) =
      some (fragments.map Fragment.data) := by
  induction fuel generalizing front fragments with
  | zero => omega
  | succ fuel ih =>
    cases fragments with
    | nil => simp [unpackLoop,packed]
    | cons fragment rest =>
      obtain ⟨first,second,third,fourth,bytes,_,_,length⟩ := bytes_spec endian fragment.header (small fragment (by simp))
      have next := ih (front ++ frame endian stale front.length fragment) rest
        (by simpa using enough) (fun other mem => small other (by simp [mem]))
      have position := length_append_frame endian stale front fragment
      rw [unpackLoop,packed,← List.length_append,position,drop_frame,bytes]
      rw [position,List.append_assoc] at next
      have total : (front ++ (frame endian stale front.length fragment ++ packed endian stale
          (front.length + paddingBytes front.length + headerSize + fragment.data.length) rest)).length =
          front.length + paddingBytes front.length + headerSize + fragment.data.length + (packed endian stale
          (front.length + paddingBytes front.length + headerSize + fragment.data.length) rest).length := by
        rw [← List.append_assoc,List.length_append,position]
      have more : headerSize = 4 := rfl
      rw [if_pos (by rw [total]; omega)]
      simp only [List.cons_append,List.nil_append,length,Fragment.header,total]
      rw [if_neg (by omega),if_neg (by omega),Int.toNat_natCast,next]
      simp

/-- The loop of `Prot_handle_bcast` turns the headers, and nothing else. -/
theorem flipLoop_packed (other : Endian) (differ : other ≠ endian) (fuel : ℕ) (front : List UInt8) (fragments : List Fragment)
    (enough : fragments.length < fuel) (small : ∀ fragment ∈ fragments, fragment.data.length ≤ bodySize) :
    flipLoop endian fuel front.length (front ++ packed other stale front.length fragments) =
      some (front ++ packed endian stale front.length fragments) := by
  induction fuel generalizing front fragments with
  | zero => omega
  | succ fuel ih =>
    cases fragments with
    | nil => simp [flipLoop,packed]
    | cons fragment rest =>
      have short := small fragment (by simp)
      obtain ⟨first,second,third,fourth,bytes,index,length,_⟩ := bytes_spec other fragment.header short
      have turned : fragment.header.bytes endian = [second,first,fourth,third] := by
        rw [FragmentHeader.bytes,← int16Bytes_reverse endian other differ,← int16Bytes_reverse endian other differ,index,length]
        rfl
      obtain ⟨_,_,_,_,bytes',_,_,value⟩ := bytes_spec endian fragment.header short
      cases turned.symm.trans bytes'
      have next := ih (front ++ frame endian stale front.length fragment) rest
        (by simpa using enough) (fun other mem => small other (by simp [mem]))
      have position := length_append_frame endian stale front fragment
      have position' := length_append_frame other stale front fragment
      rw [position,List.append_assoc,List.append_assoc] at next
      have more : headerSize = 4 := rfl
      rw [flipLoop,packed,packed,← List.length_append,← List.length_append,position,position',
        if_pos (by rw [← List.append_assoc,List.length_append,position']; omega)]
      simp only [drop_frame,take_frame,bytes,List.cons_append,List.nil_append,value]
      rw [if_neg (by omega),Int.toNat_natCast,← next]
      change flipLoop endian fuel (_ + fragment.data.length) _ = _
      simp [frame,turned]

/-- Every fragment packed into a packet comes out of it on a machine of the same byte order,
    and on one of the other order once the headers are turned round. -/
theorem unpack_fillPacket {downQueue : List DownLink} {curElement : ℕ} {first : Fragment} {taken : List Fragment}
    {filled : Filled} (packs : Packs endian stale downQueue curElement first taken filled) :
    filled.body.take filled.firstFragHeader.fragmentLen = first.data ∧
      unpack endian filled.firstFragHeader filled.body = some (taken.map Fragment.data) ∧
      ∀ other ≠ endian, (flip other filled.firstFragHeader filled.body).bind (unpack other filled.firstFragHeader) =
        some (taken.map Fragment.data) := by
  have start : filled.firstFragHeader.fragmentLen = first.data.length := by rw [packs.header]; rfl
  have total (order : Endian) : (first.data ++ packed order stale first.data.length taken).length =
      first.data.length + (packed order stale first.data.length taken).length := List.length_append
  have enough (order : Endian) : taken.length < (first.data ++ packed order stale first.data.length taken).length + 1 := by
    have least := length_le_packed order stale first.data.length taken
    unfold headerSize at least
    rw [total]
    omega
  have small : ∀ fragment ∈ taken, fragment.data.length ≤ bodySize := by
    intro fragment mem
    have part := length_data_le endian stale first.data.length mem
    have fits := packs.fits
    rw [packs.body,total] at fits
    omega
  unfold unpack flip
  rw [start,packs.body]
  refine ⟨List.take_left,unpackLoop_packed endian stale _ _ _ (enough endian) small,?_⟩
  intro other differ
  rw [flipLoop_packed other stale endian (Ne.symm differ) _ _ _ (enough endian) small,Option.bind_some]
  exact unpackLoop_packed other stale _ _ _ (enough other) small

/-- One packet of the messages that wait: it fits, it takes the fragments that are next, all behind the first being
    whole messages that may share it, and they come out of it on machines of both byte orders. -/
theorem sends_fragments {downQueue : List DownLink} {curElement : ℕ} (waits : downQueue ≠ [])
    (inside : AtElement downQueue curElement) :
    ∃ first taken filled, fillPacket endian stale downQueue curElement = some filled ∧
      pending downQueue curElement = first :: taken ++ pending filled.downQueue filled.curElement ∧
      filled.body.length ≤ bodySize ∧ AtElement filled.downQueue filled.curElement ∧
      filled.firstFragHeader.fragmentIndex = first.index ∧
      (∀ fragment ∈ taken, fragment.index = -1 ∧ shares first.type fragment.type = true) ∧
      filled.body.take filled.firstFragHeader.fragmentLen = first.data ∧
      unpack endian filled.firstFragHeader filled.body = some (taken.map Fragment.data) ∧
      ∀ other ≠ endian, (flip other filled.firstFragHeader filled.body).bind (unpack other filled.firstFragHeader) =
        some (taken.map Fragment.data) := by
  obtain ⟨first,taken,filled,fill,packs⟩ := fillPacket_spec endian stale waits inside
  obtain ⟨start,rest,turned⟩ := unpack_fillPacket endian stale packs
  exact ⟨first,taken,filled,fill,packs.pending,packs.fits,packs.inside,by rw [packs.header]; rfl,packs.whole,start,rest,turned⟩

end

/-- Two messages that share a packet. -/
def twoLinks : List DownLink :=
  [⟨.agreed,[[1,2,3]],by constructor <;> simp [bodySize,headerSize]⟩,⟨.fifo,[[4]],by constructor <;> simp [bodySize,headerSize]⟩]

theorem sends_fragments_two : ∃ filled, fillPacket .little (fun _ => 0) twoLinks 0 = some filled ∧ filled.downQueue = [] ∧
    (flip .big filled.firstFragHeader filled.body).bind (unpack .big filled.firstFragHeader) = some [[4]] := by
  obtain ⟨first,taken,filled,fill,_,_,_,_,_,_,here,turned⟩ :=
    @sends_fragments .little (fun _ => 0) twoLinks 0 (by simp [twoLinks]) (by simp [twoLinks,AtElement])
  have made : fillPacket .little (fun _ => 0) twoLinks 0 = some ⟨.agreed,⟨-1,3⟩,[1,2,3,0,255,255,1,0,4],[],0⟩ := by decide
  cases made.symm.trans fill
  have rest : unpack .little ⟨-1,3⟩ [1,2,3,0,255,255,1,0,4] = some [[4]] := by decide
  refine ⟨_,fill,rfl,?_⟩
  rw [turned .big (by decide),← here,rest]

end CdPraticas.Fragments
