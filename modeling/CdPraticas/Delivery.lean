import CdPraticas.Protocol
import CdPraticas.Logs

/-!
# What a daemon hands to its sessions

Relative to the log of all packets sent, by number: a daemon holds the packets behind
`Last_discarded` that it has, it has all up to `My_aru`, and it delivers as a reader of
the log whose place is `Last_delivered`. No loop that delivers ends in an alarm.
-/

namespace CdPraticas.Delivery
open Fragments Protocol Logs

variable {n : ℕ}

theorem packEntry_eq (seq : ℕ) : packEntry seq = seq % 8192 := Nat.and_two_pow_sub_one_eq_mod seq 13

/-- Numbers that are less than the size of the array apart have slots of their own. -/
theorem packEntry_inj {low seq seq' : ℕ} (same : packEntry seq = packEntry seq') (above : low < seq) (above' : low < seq')
    (below : seq ≤ low + 8192) (below' : seq' ≤ low + 8192) : seq = seq' := by
  rw [packEntry_eq,packEntry_eq] at same
  omega

/-! ### The fragments in the log -/

def first (pack : Packet n) : List UInt8 := pack.body.take pack.firstFragHeader.fragmentLen

/-- The messages behind the first fragment of a packet. -/
def others (settings : Settings n) (pack : Packet n) : List (List UInt8) :=
  (unpack settings.endian pack.firstFragHeader pack.body).getD []

/-- The number of fragments chained for a sender after one more of its packets. -/
def chain (pack : Packet n) (chained : ℕ) : ℕ := if pack.firstFragHeader.fragmentIndex < 0 then 0 else chained + 1

/-- The number of fragments of an unfinished message of a sender. -/
def chained (procId : Fin n) (log : List (Packet n)) : ℕ :=
  log.foldl (fun count pack => if pack.procId = procId then chain pack count else count) 0

/-- The packets are numbered from one, and those of each sender continue its messages. -/
structure Sound (settings : Settings n) (log : List (Packet n)) : Prop where
  numbered : ∀ i pack, log[i]? = some pack → pack.seq = i + 1
  unpacks : ∀ pack ∈ log, (unpack settings.endian pack.firstFragHeader pack.body).isSome
  chained : ∀ i pack, log[i]? = some pack → pack.firstFragHeader.fragmentIndex.natAbs = chained pack.procId (log.take i) + 1

variable {settings : Settings n} {log : List (Packet n)}

theorem Sound.nodup (sound : Sound settings log) : log.Nodup := by
  refine List.nodup_iff_getElem?_ne_getElem?.mpr fun i j before inside same => ?_
  have here := List.getElem?_eq_getElem inside
  have one := sound.numbered j _ here
  have two := sound.numbered i _ (same.trans here)
  omega

theorem Sound.found (sound : Sound settings log) {pack : Packet n} (mem : pack ∈ log) :
    0 < pack.seq ∧ log[pack.seq - 1]? = some pack := by
  obtain ⟨i,inside,rfl⟩ := List.getElem_of_mem mem
  have number := sound.numbered i _ (List.getElem?_eq_getElem inside)
  rw [number]
  exact ⟨by omega,List.getElem?_eq_getElem inside⟩

theorem Sound.seq_le (sound : Sound settings log) {pack : Packet n} (mem : pack ∈ log) : pack.seq ≤ log.length := by
  obtain ⟨pos,found⟩ := sound.found mem
  obtain ⟨inside,_⟩ := List.getElem?_eq_some_iff.mp found
  omega

/-! ### The queues of the senders -/

/-- The first fragment of a packet is chained to the queue of its sender. -/
def chainQueue (upQueue : Option (Fin n) → Mess) (pack : Packet n) : Option (Fin n) → Mess :=
  Function.update upQueue pack.procIndex
    (if pack.firstFragHeader.fragmentIndex < 0 then [] else upQueue pack.procIndex ++ [first pack])

/-- The messages that a packet completes. -/
def emitted (settings : Settings n) (upQueue : Option (Fin n) → Mess) (pack : Packet n) : List Mess :=
  (if pack.firstFragHeader.fragmentIndex < 0 then [upQueue pack.procIndex ++ [first pack]] else []) ++
    (others settings pack).map fun message => [message]

def queues (history : List (Packet n)) : Option (Fin n) → Mess := history.foldl chainQueue fun _ => []

/-- The messages that packets complete, one after the other. -/
def emissions (settings : Settings n) : (Option (Fin n) → Mess) → List (Packet n) → List Mess
  | _, [] => []
  | upQueue, pack :: rest => emitted settings upQueue pack ++ emissions settings (chainQueue upQueue pack) rest

theorem queues_append (history : List (Packet n)) (pack : Packet n) :
    queues (history ++ [pack]) = chainQueue (queues history) pack := by
  simp [queues]

theorem emissions_append (upQueue : Option (Fin n) → Mess) (history : List (Packet n)) (pack : Packet n) :
    emissions settings upQueue (history ++ [pack]) =
      emissions settings upQueue history ++ emitted settings (history.foldl chainQueue upQueue) pack := by
  induction history generalizing upQueue with
  | nil => simp [emissions]
  | cons one rest ih => simp [emissions,ih]

theorem procIndex_alone {pack : Packet n} (alone : pack.alone = true) : pack.procIndex = none := by simp [Packet.procIndex,alone]

theorem procIndex_ordered {pack : Packet n} (ordered : pack.alone = false) : pack.procIndex = some pack.procId := by
  simp [Packet.procIndex,ordered]

theorem index_alone {pack : Packet n} (alone : pack.alone = true) : pack.firstFragHeader.fragmentIndex = -1 := by
  unfold Packet.alone at alone
  exact (of_decide_eq_true alone).2

/-- A packet delivered early leaves the queues as they are. -/
theorem chainQueue_alone {upQueue : Option (Fin n) → Mess} (empty : upQueue none = []) {pack : Packet n}
    (alone : pack.alone = true) : chainQueue upQueue pack = upQueue := by
  unfold chainQueue
  rw [procIndex_alone alone,index_alone alone,if_pos (by decide),← empty,Function.update_eq_self]

theorem chainQueue_none {upQueue : Option (Fin n) → Mess} (empty : upQueue none = []) (pack : Packet n) :
    chainQueue upQueue pack none = [] := by
  cases alone : pack.alone with
  | true => rw [chainQueue_alone empty alone,empty]
  | false =>
    unfold chainQueue
    rw [procIndex_ordered alone,Function.update_of_ne (by simp)]
    exact empty

theorem foldl_none (history : List (Packet n)) {upQueue : Option (Fin n) → Mess} (empty : upQueue none = []) :
    history.foldl chainQueue upQueue none = [] := by
  induction history generalizing upQueue with
  | nil => exact empty
  | cons pack rest ih => exact ih (chainQueue_none empty pack)

/-- The queues are those of the packets delivered in order. -/
theorem foldl_ordered (history : List (Packet n)) {upQueue : Option (Fin n) → Mess} (empty : upQueue none = []) :
    history.foldl chainQueue upQueue = (ordered Packet.alone history).foldl chainQueue upQueue := by
  induction history generalizing upQueue with
  | nil => rfl
  | cons pack rest ih =>
    have split : ordered Packet.alone (pack :: rest) = ordered Packet.alone [pack] ++ ordered Packet.alone rest :=
      ordered_append Packet.alone [pack] rest
    rw [split,List.foldl_cons,ih (chainQueue_none empty pack)]
    cases alone : pack.alone with
    | true => rw [ordered_early alone,chainQueue_alone empty alone,List.nil_append]
    | false => rw [ordered_late alone,List.singleton_append,List.foldl_cons]

theorem chained_take_succ {place : ℕ} {pack : Packet n} (found : log[place]? = some pack) (procId : Fin n) :
    chained procId (log.take (place + 1)) =
      if pack.procId = procId then chain pack (chained procId (log.take place)) else chained procId (log.take place) := by
  rw [take_succ found]
  simp [chained]

/-- As many fragments are queued for a sender as it sent of the message under way. -/
theorem length_queues (sound : Sound settings log) (procId : Fin n) {place : ℕ} (inside : place ≤ log.length) :
    (queues (ordered Packet.alone (log.take place)) (some procId)).length = chained procId (log.take place) := by
  induction place with
  | zero => rfl
  | succ place ih =>
    have found : log[place]? = some log[place] := List.getElem?_eq_getElem (by omega)
    have before := ih (by omega)
    rw [chained_take_succ found,take_succ found,ordered_append]
    cases alone : log[place].alone with
    | true =>
      rw [ordered_early alone,List.append_nil,before]
      by_cases mine : log[place].procId = procId
      · have number := sound.chained place _ found
        rw [mine,index_alone alone] at number
        rw [if_pos mine,chain,index_alone alone,if_pos (by decide)]
        omega
      · rw [if_neg mine]
    | false =>
      rw [ordered_late alone,queues_append,chainQueue,procIndex_ordered alone]
      by_cases mine : log[place].procId = procId
      · rw [if_pos mine,mine,Function.update_self,chain]
        split
        · rfl
        · rw [List.length_append,before]
          rfl
      · rw [if_neg mine,Function.update_of_ne (by simpa using Ne.symm mine),before]

/-! ### What a daemon has -/

/-- No safe packet before `place` is newer than `aru`. -/
def SafeBelow (log : List (Packet n)) (place aru : ℕ) : Prop :=
  ∀ i pack, log[i]? = some pack → pack.type = .safe → i < place → i < aru

theorem SafeBelow.next {place aru : ℕ} (safe : SafeBelow log place aru) {pack : Packet n} (found : log[place]? = some pack)
    (either : pack.type ≠ .safe ∨ place < aru) : SafeBelow log (place + 1) aru := by
  intro i other here isSafe before
  rcases Nat.lt_or_ge i place with earlier | last
  · exact safe i other here isSafe earlier
  · obtain rfl : i = place := by omega
    cases found.symm.trans here
    exact either.resolve_left (not_not.mpr isSafe)

theorem SafeBelow.mono {place aru aru' : ℕ} (safe : SafeBelow log place aru) (grown : aru ≤ aru') : SafeBelow log place aru' :=
  fun i pack found isSafe before => (safe i pack found isSafe before).trans_le grown

/-- A daemon that has the packets from `low` on that the log has and it received, and has
    delivered those before `place` and some of the others early. -/
structure Holds (settings : Settings n) (log : List (Packet n)) (low place : ℕ) (d : Daemon n) : Prop where
  behind : low ≤ place
  within : place ≤ d.myAru
  arrived : d.myAru ≤ d.highestSeq
  logged : d.highestSeq ≤ log.length
  room : log.length ≤ low + 8192
  slots : ∀ entry info, d.packets entry = some info → packEntry info.packet.seq = entry ∧ low < info.packet.seq ∧
    info.packet.seq ≤ d.highestSeq ∧ info.packet ∈ log
  present : ∀ seq, low < seq → seq ≤ d.myAru → (d.info seq).isSome
  reader : Reader Packet.alone log place d.history
  kept : ∀ pack ∈ d.history, low < pack.seq → d.info pack.seq = some ⟨pack,true⟩
  shown : ∀ entry info, d.packets entry = some info → info.delivered = true → info.packet ∈ d.history
  queues : d.upQueue = queues d.history
  messages : d.messages = emissions settings (fun _ => []) d.history
  safe : SafeBelow log place d.aru

variable {low place seq : ℕ} {d d' : Daemon n}

/-- The packet in the slot of a number that is not too far ahead is the one of that number. -/
theorem Holds.info_seq (holds : Holds settings log low place d) {info : PacketInfo n} (found : d.info seq = some info)
    (above : low < seq) (below : seq ≤ log.length) : info.packet.seq = seq := by
  obtain ⟨entry,above',below',_⟩ := holds.slots _ info found
  have logged := holds.logged
  have room := holds.room
  exact packEntry_inj entry above' above (by omega) (by omega)

theorem Holds.info_log (holds : Holds settings log low place d) (sound : Sound settings log) {info : PacketInfo n}
    (found : d.info seq = some info) (above : low < seq) (below : seq ≤ log.length) : log[seq - 1]? = some info.packet := by
  have number := holds.info_seq found above below
  rw [← number]
  exact (sound.found (holds.slots _ info found).2.2.2).2

/-- A packet that is still held was delivered if and only if its slot says so. -/
theorem Holds.not_taken (holds : Holds settings log low place d) {pack : Packet n} (found : d.info seq = some ⟨pack,false⟩)
    (above : low < seq) (below : seq ≤ log.length) : pack ∉ d.history := by
  intro taken
  have number : pack.seq = seq := holds.info_seq found above below
  have kept := holds.kept pack taken (number ▸ above)
  rw [number,found] at kept
  simp at kept

/-- The daemon after a packet was chained and shown to the sessions. -/
def handOn (settings : Settings n) (d : Daemon n) (seq : ℕ) (pack : Packet n) : Daemon n :=
  { d.put seq (some ⟨pack,true⟩) with
    upQueue := chainQueue d.upQueue pack
    messages := d.messages ++ emitted settings d.upQueue pack
    history := d.history ++ [pack] }

theorem deliverPacket_eq {pack : Packet n} {shown : Bool} (found : d.info seq = some ⟨pack,shown⟩)
    (unpacks : (unpack settings.endian pack.firstFragHeader pack.body).isSome)
    (chained : (d.upQueue pack.procIndex).length + 1 = pack.firstFragHeader.fragmentIndex.natAbs) :
    d.deliverPacket settings seq = some (handOn settings d seq pack) := by
  obtain ⟨messages,unpacked⟩ := Option.isSome_iff_exists.mp unpacks
  simp only [Daemon.deliverPacket,found,unpacked]
  rw [if_neg (not_not.mpr chained)]
  simp [handOn,chainQueue,emitted,others,first,unpacked]

/-- The next packet in order, and a reliable one at any time, is delivered without an alarm. -/
theorem Holds.deliverPacket (holds : Holds settings log low place d) (sound : Sound settings log) {pack : Packet n}
    {shown : Bool} (found : d.info seq = some ⟨pack,shown⟩) (either : pack.alone = true ∨ log[place]? = some pack) :
    d.deliverPacket settings seq = some (handOn settings d seq pack) := by
  have mem := (holds.slots _ _ found).2.2.2
  refine deliverPacket_eq found (sound.unpacks pack mem) ?_
  have empty : Delivery.queues d.history none = [] := foldl_none d.history rfl
  rw [holds.queues]
  cases alone : pack.alone with
  | true => rw [procIndex_alone alone,empty,index_alone alone]; rfl
  | false =>
    have next : log[place]? = some pack := either.resolve_left (by simp [alone])
    have inside : place ≤ log.length := holds.within.trans (holds.arrived.trans holds.logged)
    rw [procIndex_ordered alone,Delivery.queues,foldl_ordered d.history rfl,holds.reader.inOrder]
    exact (congrArg (· + 1) (length_queues sound pack.procId inside)).trans (sound.chained place pack next).symm

theorem info_put_self (d : Daemon n) (seq : ℕ) (slot : Option (PacketInfo n)) : (d.put seq slot).info seq = slot :=
  Function.update_self ..

theorem info_put_of_ne (d : Daemon n) {seq other : ℕ} (slot : Option (PacketInfo n)) (apart : packEntry other ≠ packEntry seq) :
    (d.put seq slot).info other = d.info other :=
  Function.update_of_ne apart ..

theorem packets_put {seq entry : ℕ} {slot : Option (PacketInfo n)} {info : PacketInfo n}
    (found : (d.put seq slot).packets entry = some info) :
    entry = packEntry seq ∧ slot = some info ∨ entry ≠ packEntry seq ∧ d.packets entry = some info := by
  change Function.update d.packets (packEntry seq) slot entry = some info at found
  by_cases here : entry = packEntry seq
  · rw [here,Function.update_self] at found
    exact .inl ⟨here,found⟩
  · rw [Function.update_of_ne here] at found
    exact .inr ⟨here,found⟩

/-- A daemon that has handed a packet on is a reader that has taken it. -/
theorem Holds.handOn (holds : Holds settings log low place d) {pack : Packet n} (found : d.info seq = some ⟨pack,false⟩)
    (above : low < seq) (below : seq ≤ log.length) {place' : ℕ} (behind : low ≤ place') (within : place' ≤ d.myAru)
    (reader : Reader Packet.alone log place' (d.history ++ [pack])) (safe : SafeBelow log place' d.aru) :
    Holds settings log low place' (handOn settings d seq pack) where
  behind := behind
  within := within
  arrived := holds.arrived
  logged := holds.logged
  room := holds.room
  slots := by
    intro entry info slot
    rcases packets_put slot with ⟨here,same⟩ | ⟨_,old⟩
    · cases same
      have slot' := holds.slots _ _ found
      exact ⟨slot'.1.trans here.symm,slot'.2⟩
    · exact holds.slots entry info old
  present := by
    intro other above' below'
    by_cases same : packEntry other = packEntry seq
    · have here : (Delivery.handOn settings d seq pack).info other = some ⟨pack,true⟩ := by
        change Function.update d.packets _ _ (packEntry other) = _
        rw [same,Function.update_self]
      rw [here]
      rfl
    · have kept := holds.present other above' below'
      rwa [← info_put_of_ne d (some ⟨pack,true⟩) same] at kept
  reader := reader
  kept := by
    intro other taken above'
    rcases List.mem_append.mp taken with old | new
    · have kept := holds.kept other old above'
      have apart : packEntry other.seq ≠ packEntry seq := by
        intro same
        have both : d.info seq = some ⟨other,true⟩ := by rw [← kept,Daemon.info,Daemon.info,same]
        rw [found] at both
        simp at both
      exact (info_put_of_ne d _ apart).trans kept
    · rw [List.mem_singleton.mp new]
      have number : pack.seq = seq := holds.info_seq found above below
      rw [number]
      exact info_put_self ..
  shown := by
    intro entry info slot delivered
    rcases packets_put slot with ⟨_,same⟩ | ⟨_,old⟩
    · cases same
      exact List.mem_append_right _ (List.mem_singleton_self pack)
    · exact List.mem_append_left _ (holds.shown entry info old delivered)
  queues := by rw [Delivery.handOn,queues_append,← holds.queues]
  messages := by
    change d.messages ++ emitted settings d.upQueue pack = emissions settings _ (d.history ++ [pack])
    rw [emissions_append,holds.messages,holds.queues]
    rfl
  safe := safe

theorem Holds.seq_le (holds : Holds settings log low place d) (sound : Sound settings log) {pack : Packet n} (mem : pack ∈ log) :
    pack.seq ≤ low + 8192 := (sound.seq_le mem).trans holds.room

/-- The slot of the oldest packet is given up. -/
theorem Holds.discard (holds : Holds settings log low place d) (sound : Sound settings log) (passed : low < place) :
    Holds settings log (low + 1) place (d.put (low + 1) none) where
  behind := passed
  within := holds.within
  arrived := holds.arrived
  logged := holds.logged
  room := holds.room.trans (by omega)
  slots := by
    intro entry info slot
    rcases packets_put slot with ⟨_,none⟩ | ⟨apart,old⟩
    · cases none
    · obtain ⟨here,above,below,mem⟩ := holds.slots entry info old
      have other : info.packet.seq ≠ low + 1 := fun same => apart (by rw [← here,same])
      exact ⟨here,by omega,below,mem⟩
  present := by
    intro seq above below
    change seq ≤ d.myAru at below
    have present := holds.present seq (by omega) below
    have arrived := holds.arrived
    have logged := holds.logged
    have room := holds.room
    rwa [info_put_of_ne d none fun same => by
      have := packEntry_inj same (show low < seq by omega) (by omega) (by omega) (by omega)
      omega]
  reader := holds.reader
  kept := by
    intro pack taken above
    have inside := holds.seq_le sound (holds.reader.logged pack taken)
    rw [info_put_of_ne d none fun same => by
      have := packEntry_inj same (show low < pack.seq by omega) (by omega) (by omega) (by omega)
      omega]
    exact holds.kept pack taken (by omega)
  shown := by
    intro entry info slot
    rcases packets_put slot with ⟨_,none⟩ | ⟨_,old⟩
    · cases none
    · exact holds.shown entry info old
  queues := holds.queues
  messages := holds.messages
  safe := holds.safe

/-- A reader whose next packet was handed on ahead of its turn moves on. -/
theorem Holds.skip (holds : Holds settings log low place d) (sound : Sound settings log) {pack : Packet n}
    (found : log[place]? = some pack) (taken : pack ∈ d.history) (within : place < d.myAru) :
    Holds settings log low (place + 1) d :=
  { holds with
    behind := holds.behind.trans (by omega)
    within := within
    reader := holds.reader.skip sound.nodup found taken
    safe := by
      have alone := holds.reader.takenEarly sound.nodup found taken
      have reliable : pack.type = .reliable := (of_decide_eq_true alone).1
      exact holds.safe.next found (.inl (by simp [reliable])) }

/-! ### What a daemon keeps -/

/-- Nothing delivered is taken back, and the packets behind `low` are still held. -/
structure Later (low : ℕ) (d d' : Daemon n) : Prop where
  history : d.history <+: d'.history
  held : ∀ entry info, d.packets entry = some info → low < info.packet.seq →
    ∃ shown, d'.packets entry = some ⟨info.packet,shown⟩

theorem Later.rfl : Later low d d := ⟨List.prefix_rfl,fun _ info found _ => ⟨info.delivered,found⟩⟩

theorem Later.trans {d'' : Daemon n} (one : Later low d d') (two : Later low d' d'') : Later low d d'' where
  history := one.history.trans two.history
  held entry info found above := by
    obtain ⟨shown,found'⟩ := one.held entry info found above
    exact two.held entry ⟨info.packet,shown⟩ found' above

theorem Later.mono {low' : ℕ} (later : Later low d d') (grown : low ≤ low') : Later low' d d' :=
  ⟨later.history,fun entry info found above => later.held entry info found (grown.trans_lt above)⟩

/-- A daemon that differs in what no delivery looks at. -/
theorem Later.of_eq (history : d'.history = d.history) (packets : d'.packets = d.packets) : Later low d d' :=
  ⟨by rw [history],fun _ info found _ => ⟨info.delivered,by rw [packets,found]⟩⟩

theorem later_delivered (d : Daemon n) : Later low d d.delivered := .of_eq rfl rfl

theorem later_advance (d : Daemon n) : Later low d d.advanceAru := .of_eq rfl rfl

theorem later_handOn {pack : Packet n} {shown : Bool} (found : d.info seq = some ⟨pack,shown⟩) :
    Later low d (handOn settings d seq pack) where
  history := List.prefix_append ..
  held entry info here _ := by
    change ∃ shown, Function.update d.packets (packEntry seq) (some ⟨pack,true⟩) entry = _
    by_cases same : entry = packEntry seq
    · subst same
      cases found.symm.trans here
      exact ⟨true,Function.update_self ..⟩
    · exact ⟨info.delivered,(Function.update_of_ne same ..).trans here⟩

theorem later_put_none (old : ∀ info, d.info seq = some info → info.packet.seq ≤ low) : Later low d (d.put seq none) where
  history := List.prefix_rfl
  held entry info here above := by
    have apart : entry ≠ packEntry seq := by
      intro same
      subst same
      have := old info here
      omega
    exact ⟨info.delivered,(Function.update_of_ne apart ..).trans here⟩

theorem later_insert {pack : Packet n} (free : d.info pack.seq = none) : Later low d (d.insert pack) where
  history := List.prefix_rfl
  held entry info here _ := by
    have apart : entry ≠ packEntry pack.seq := by
      intro same
      rw [same] at here
      exact absurd (free.symm.trans here) (by simp)
    exact ⟨info.delivered,(Function.update_of_ne apart ..).trans here⟩

/-! ### What the loops leave alone -/

/-- A daemon without what the delivery of packets changes. -/
def core (d : Daemon n) : Daemon n :=
  { d with packets := fun _ => none, upQueue := fun _ => [], messages := [], history := [], lastDiscarded := 0, lastDelivered := 0 }

theorem core_eq {α : Type*} (field : Daemon n → α) (same : core d' = core d) (blind : ∀ d, field (core d) = field d) :
    field d' = field d := by
  rw [← blind d',same,blind]

/-- Reliable packets are handed on ahead of their turn. -/
theorem deliverReliableLoop_spec (sound : Sound settings log) (seqs : List ℕ) (d : Daemon n)
    (holds : Holds settings log low place d) (ahead : ∀ seq ∈ seqs, low < seq ∧ seq ≤ log.length) :
    ∃ d', d.deliverReliableLoop settings seqs = some d' ∧ Holds settings log low place d' ∧ core d' = core d ∧
      d'.lastDiscarded = d.lastDiscarded ∧ d'.lastDelivered = d.lastDelivered ∧ Later low d d' := by
  induction seqs generalizing d with
  | nil => exact ⟨d,rfl,holds,rfl,rfl,rfl,.rfl⟩
  | cons seq rest ih =>
    have later : ∀ seq ∈ rest, low < seq ∧ seq ≤ log.length := fun seq mem => ahead seq (by simp [mem])
    obtain ⟨above,below⟩ := ahead seq (by simp)
    rw [Daemon.deliverReliableLoop]
    rcases found : d.info seq with _ | ⟨pack,_ | _⟩
    · exact ih d holds later
    · cases alone : pack.alone with
      | false => simpa [alone] using ih d holds later
      | true =>
        have mem := (holds.slots _ _ found).2.2.2
        have reader := holds.reader.ahead mem alone (holds.not_taken found above below)
        obtain ⟨d',run,holds',same,discarded,delivered,rest⟩ := ih (Delivery.handOn settings d seq pack)
          (holds.handOn found above below holds.behind holds.within reader holds.safe) later
        refine ⟨d',?_,holds',same,discarded,delivered,(later_handOn found).trans rest⟩
        simp [holds.deliverPacket sound found (.inl alone),alone,run]
    · exact ih d holds later

/-- Everything up to the number that all have is handed on and given up. -/
theorem discardLoop_spec (sound : Sound settings log) (count : ℕ) (low place : ℕ) (d : Daemon n)
    (holds : Holds settings log low place d) (inside : low + count ≤ d.myAru) (stable : low + count ≤ d.aru) :
    ∃ d', d.discardLoop settings (List.range' (low + 1) count) = some d' ∧
      Holds settings log (low + count) (max place (low + count)) d' ∧ core d' = core d ∧
      d'.lastDiscarded = d.lastDiscarded ∧ d'.lastDelivered = d.lastDelivered ∧ Later (low + count) d d' := by
  induction count generalizing low place d with
  | zero => exact ⟨d,rfl,by simpa [max_eq_left holds.behind] using holds,rfl,rfl,rfl,.rfl⟩
  | succ count ih =>
    rw [List.range'_succ,Daemon.discardLoop]
    have arrived := holds.arrived
    have logged := holds.logged
    obtain ⟨info,found⟩ := Option.isSome_iff_exists.mp (holds.present (low + 1) (by omega) (by omega))
    have here : log[low]? = some info.packet := holds.info_log sound found (by omega) (by omega)
    rw [found]
    obtain ⟨pack,delivered⟩ := info
    cases delivered with
    | false =>
      have fresh := holds.not_taken found (by omega) (by omega)
      have start : place = low := by
        by_contra later
        have behind := holds.behind
        have before : (log.take place)[low]? = some pack := by rw [List.getElem?_take_of_lt (by omega),here]
        exact fresh (holds.reader.complete pack (List.mem_of_getElem? before))
      subst start
      have next : Holds settings log place (place + 1) (handOn settings d (place + 1) pack) :=
        holds.handOn found (by omega) (by omega) (Nat.le_succ place) (by omega) (holds.reader.next here fresh)
          (holds.safe.next here (.inr (by omega)))
      obtain ⟨d',run,holds',same,discarded,delivered,rest⟩ := ih (place + 1) (place + 1)
        ((handOn settings d (place + 1) pack).put (place + 1) none) (next.discard sound (by omega))
        (by change _ ≤ d.myAru; omega) (by change _ ≤ d.aru; omega)
      have given : Later (place + (count + 1)) (handOn settings d (place + 1) pack)
          ((handOn settings d (place + 1) pack).put (place + 1) none) := by
        refine later_put_none fun info found' => ?_
        have number := next.info_seq found' (by omega) (by omega)
        omega
      refine ⟨d',?_,?_,same,discarded,delivered,
        ((later_handOn found).trans given).trans (rest.mono (by omega))⟩
      · simp [holds.deliverPacket sound found (.inr here),run]
      · rw [show place + (count + 1) = place + 1 + count by omega,max_eq_right (by omega)]
        rwa [max_eq_right (by omega)] at holds'
    | true =>
      have taken := holds.shown _ _ found rfl
      have passed : Holds settings log low (max place (low + 1)) d := by
        rcases Nat.lt_or_ge low place with after | before
        · rwa [max_eq_left after]
        · have start : place = low := le_antisymm before holds.behind
          rw [start,max_eq_right (by omega)]
          exact (start ▸ holds).skip sound here taken (by omega)
      obtain ⟨d',run,holds',same,discarded,delivered,rest⟩ := ih (low + 1) (max place (low + 1)) (d.put (low + 1) none)
        (passed.discard sound (by omega)) (by change _ ≤ d.myAru; omega) (by change _ ≤ d.aru; omega)
      have given : Later (low + (count + 1)) d (d.put (low + 1) none) := by
        refine later_put_none fun info found' => ?_
        have number := holds.info_seq found' (by omega) (by omega)
        omega
      refine ⟨d',run,?_,same,discarded,delivered,given.trans (rest.mono (by omega))⟩
      rw [show low + (count + 1) = low + 1 + count by omega]
      rwa [max_assoc,max_eq_right (show low + 1 ≤ low + 1 + count by omega)] at holds'

/-- What is in order is handed on up to the first safe packet. -/
theorem deliverAgreedLoop_spec (sound : Sound settings log) (count : ℕ) (d : Daemon n)
    (holds : Holds settings log low d.lastDelivered d) (inside : d.lastDelivered + count ≤ d.myAru) :
    ∃ d', d.deliverAgreedLoop settings (List.range' (d.lastDelivered + 1) count) = some d' ∧
      Holds settings log low d'.lastDelivered d' ∧ core d' = core d ∧ d'.lastDiscarded = d.lastDiscarded ∧
      d.lastDelivered ≤ d'.lastDelivered ∧ Later low d d' := by
  induction count generalizing d with
  | zero => exact ⟨d,rfl,holds,rfl,rfl,le_rfl,.rfl⟩
  | succ count ih =>
    rw [List.range'_succ,Daemon.deliverAgreedLoop]
    have behind := holds.behind
    have arrived := holds.arrived
    have logged := holds.logged
    obtain ⟨info,found⟩ := Option.isSome_iff_exists.mp (holds.present (d.lastDelivered + 1) (by omega) (by omega))
    have here : log[d.lastDelivered]? = some info.packet := holds.info_log sound found (by omega) (by omega)
    rw [found]
    obtain ⟨pack,delivered⟩ := info
    cases delivered with
    | false =>
      by_cases safe : pack.type = .safe
      · exact ⟨d,by simp [safe],holds,rfl,rfl,le_rfl,.rfl⟩
      · have next := holds.handOn found (by omega) (by omega) (by omega : low ≤ d.lastDelivered + 1) (by omega)
          (holds.reader.next here (holds.not_taken found (by omega) (by omega))) (holds.safe.next here (.inl safe))
        obtain ⟨d',run,holds',same,discarded,more,rest⟩ := ih (handOn settings d (d.lastDelivered + 1) pack).delivered
          { next with } (by change d.lastDelivered + 1 + count ≤ d.myAru; omega)
        refine ⟨d',?_,holds',same,discarded,(Nat.le_succ _).trans more,(later_handOn found).trans ((later_delivered _).trans rest)⟩
        change (if pack.type = .safe then some d else (d.deliverPacket settings (d.lastDelivered + 1)).bind _) = some d'
        rw [if_neg safe,holds.deliverPacket sound found (.inr here)]
        exact run
    | true =>
      have taken := holds.shown _ _ found rfl
      have alone := holds.reader.takenEarly sound.nodup here taken
      have reliable : pack.type = .reliable := (of_decide_eq_true alone).1
      obtain ⟨d',run,holds',same,discarded,more,rest⟩ := ih d.delivered { holds.skip sound here taken (by omega) with }
        (by change d.lastDelivered + 1 + count ≤ d.myAru; omega)
      refine ⟨d',?_,holds',same,discarded,(Nat.le_succ _).trans more,(later_delivered d).trans rest⟩
      change (if Service.agreed.code ≤ pack.type.code then none else _) = some d'
      rw [reliable,if_neg (by decide)]
      exact run

/-- The numbers in a row that have a property. -/
theorem length_takeWhile_range' (p : ℕ → Bool) (start count : ℕ) :
    ((List.range' start count).takeWhile p).length ≤ count ∧
      (∀ x, start ≤ x → x < start + ((List.range' start count).takeWhile p).length → p x = true) ∧
      (((List.range' start count).takeWhile p).length < count →
        p (start + ((List.range' start count).takeWhile p).length) = false) := by
  induction count generalizing start with
  | zero => exact ⟨le_rfl,fun x _ _ => by simp at *; omega,fun lt => absurd lt (by simp)⟩
  | succ count ih =>
    obtain ⟨le,all,next⟩ := ih (start + 1)
    rw [List.range'_succ]
    cases here : p start with
    | false => exact ⟨by simp [here],fun x _ _ => by simp [here] at *; omega,by simp [here]⟩
    | true =>
      rw [List.takeWhile_cons_of_pos here,List.length_cons]
      refine ⟨by omega,fun x above below => ?_,fun lt => ?_⟩
      · rcases Nat.eq_or_lt_of_le above with rfl | later
        · exact here
        · exact all x later (by omega)
      · rw [show start + (((List.range' (start + 1) count).takeWhile p).length + 1) =
          start + 1 + ((List.range' (start + 1) count).takeWhile p).length by omega]
        exact next (by omega)

/-- What holds of a daemon between two events. -/
def Keeps (settings : Settings n) (log : List (Packet n)) (d : Daemon n) : Prop :=
  Holds settings log d.lastDiscarded d.lastDelivered d

/-- No packet of the log is missing. -/
def Whole (log : List (Packet n)) (d : Daemon n) : Prop := ∀ seq, d.lastDiscarded < seq → seq ≤ log.length → (d.info seq).isSome

theorem Keeps.whole (keeps : Keeps settings log d) (all : d.myAru = log.length) : Whole log d :=
  fun seq above below => keeps.present seq above (all ▸ below)

/-- What the packets that come in a row are worth. -/
structure Advanced (d d' : Daemon n) : Prop where
  eq : d' = { d with myAru := d'.myAru }
  grown : d.myAru ≤ d'.myAru
  bounded : d.myAru ≤ d.highestSeq → d'.myAru ≤ d.highestSeq
  present : ∀ seq, d.myAru < seq → seq ≤ d'.myAru → (d.info seq).isSome
  stopped : d'.myAru < d.highestSeq → d.info (d'.myAru + 1) = none

theorem advanced (d : Daemon n) : Advanced d d.advanceAru := by
  obtain ⟨le,all,next⟩ := length_takeWhile_range' (fun seq => (d.info seq).isSome) (d.myAru + 1) (d.highestSeq - d.myAru)
  refine ⟨rfl,Nat.le_add_right ..,fun inside => ?_,fun seq above below => all seq above ?_,fun more => ?_⟩
  · change d.myAru + _ ≤ _
    omega
  · change seq ≤ d.myAru + _ at below
    omega
  · change d.myAru + _ < _ at more
    change d.info (d.myAru + _ + 1) = none
    have gap := next (by omega)
    rw [Nat.add_right_comm] at gap
    simpa using gap

/-- Where no packet is missing, all of them come in a row. -/
theorem advance_whole (inside : d.myAru ≤ d.highestSeq) (all : ∀ seq, d.myAru < seq → seq ≤ d.highestSeq → (d.info seq).isSome) :
    d.advanceAru.myAru = d.highestSeq := by
  have advanced := advanced d
  refine le_antisymm (advanced.bounded inside) (not_lt.mp fun gap => ?_)
  have grown := advanced.grown
  have there := all (d.advanceAru.myAru + 1) (by omega) (by omega)
  rw [advanced.stopped gap] at there
  cases there

theorem Holds.advance (holds : Holds settings log low place d) : Holds settings log low place d.advanceAru where
  behind := holds.behind
  within := holds.within.trans (advanced d).grown
  arrived := (advanced d).bounded holds.arrived
  logged := holds.logged
  room := holds.room
  slots := holds.slots
  present := by
    intro seq above below
    rcases Nat.lt_or_ge d.myAru seq with later | before
    · exact (advanced d).present seq later below
    · exact holds.present seq above before
  reader := holds.reader
  kept := holds.kept
  shown := holds.shown
  queues := holds.queues
  messages := holds.messages
  safe := holds.safe

theorem Keeps.deliverReliablePackets (keeps : Keeps settings log d) (sound : Sound settings log) (startSeq numPackets : ℕ)
    (logged : startSeq + numPackets ≤ log.length + 1) :
    ∃ d', d.deliverReliablePackets settings startSeq numPackets = some d' ∧ Keeps settings log d' ∧ core d' = core d ∧
      d'.lastDiscarded = d.lastDiscarded ∧ d'.lastDelivered = d.lastDelivered ∧ Later d.lastDiscarded d d' := by
  unfold Daemon.deliverReliablePackets
  by_cases blocked : Service.reliable.code < d.deliveryThreshold.code
  · exact ⟨d,if_pos blocked,keeps,rfl,rfl,rfl,.rfl⟩
  rw [if_neg blocked]
  have behind := keeps.behind
  obtain ⟨d',run,holds,same,discarded,delivered,later⟩ := deliverReliableLoop_spec sound
    (List.range' (if startSeq ≤ d.lastDelivered then d.lastDelivered + 1 else startSeq)
      (startSeq + numPackets - if startSeq ≤ d.lastDelivered then d.lastDelivered + 1 else startSeq)) d keeps (by
        intro seq mem
        rw [List.mem_range'_1] at mem
        split at mem <;> omega)
  exact ⟨d',run,by rw [Keeps,discarded,delivered]; exact holds,same,discarded,delivered,later⟩

theorem Keeps.deliverAgreedPackets (keeps : Keeps settings log d) (sound : Sound settings log) :
    ∃ d', d.deliverAgreedPackets settings = some d' ∧ Keeps settings log d' ∧ core d' = core d ∧
      d'.lastDiscarded = d.lastDiscarded ∧ d.lastDelivered ≤ d'.lastDelivered ∧ Later d.lastDiscarded d d' := by
  unfold Daemon.deliverAgreedPackets
  by_cases done : d.myAru ≤ d.lastDelivered
  · exact ⟨d,if_pos done,keeps,rfl,rfl,le_rfl,.rfl⟩
  rw [if_neg done]
  by_cases blocked : Service.agreed.code < d.deliveryThreshold.code
  · exact ⟨d,if_pos blocked,keeps,rfl,rfl,le_rfl,.rfl⟩
  rw [if_neg blocked]
  obtain ⟨d',run,holds,same,discarded,more,later⟩ := deliverAgreedLoop_spec sound (d.myAru - d.lastDelivered) d keeps (by omega)
  exact ⟨d',run,by rw [Keeps,discarded]; exact holds,same,discarded,more,later⟩

/-- Once `Aru` is known to all, what is not newer is delivered and given up. -/
theorem Keeps.discardPackets (keeps : Keeps settings log d) (sound : Sound settings log) (inside : d.aru ≤ d.myAru)
    (grown : d.lastDiscarded ≤ d.aru) :
    ∃ d', d.discardPackets settings = some d' ∧ Keeps settings log d' ∧ core d' = core d ∧ d'.lastDiscarded = d.aru ∧
      d'.lastDelivered = max d.lastDelivered d.aru ∧ Later d.aru d d' := by
  unfold Daemon.discardPackets
  by_cases done : d.aru ≤ d.lastDiscarded
  · have behind := keeps.behind
    exact ⟨d,if_pos done,keeps,rfl,le_antisymm grown done,(max_eq_left (by omega)).symm,.rfl⟩
  rw [if_neg done]
  obtain ⟨d',run,holds,same,discarded,delivered,later⟩ := discardLoop_spec sound (d.aru - d.lastDiscarded) d.lastDiscarded
    d.lastDelivered d keeps (by omega) (by omega)
  have aru : d'.aru = d.aru := core_eq Daemon.aru same fun _ => rfl
  rw [Nat.add_sub_cancel' grown] at holds later
  refine ⟨{ d' with lastDiscarded := d'.aru, lastDelivered := max d'.lastDelivered d'.aru },by simp [run],?_,same,aru,?_,
    later.trans (.of_eq rfl rfl)⟩
  · change Holds settings log d'.aru (max d'.lastDelivered d'.aru) _
    rw [aru,delivered]
    exact { holds with safe := aru ▸ holds.safe }
  · rw [← aru,← delivered]

/-! ### A packet arrives -/

/-- A packet of the log is put into a slot of its own. -/
theorem Holds.insert (holds : Holds settings log low place d) {pack : Packet n} (mem : pack ∈ log) (new : low < pack.seq)
    (inside : pack.seq ≤ log.length) (free : d.info pack.seq = none) : Holds settings log low place (d.insert pack) where
  behind := holds.behind
  within := holds.within
  arrived := holds.arrived.trans (le_max_left ..)
  logged := by
    have logged := holds.logged
    change max d.highestSeq pack.seq ≤ _
    omega
  room := holds.room
  slots := by
    intro entry info slot
    rcases packets_put slot with ⟨here,same⟩ | ⟨_,old⟩
    · cases same
      exact ⟨here.symm,new,le_max_right ..,mem⟩
    · obtain ⟨here,above,below,logged⟩ := holds.slots entry info old
      exact ⟨here,above,below.trans (le_max_left ..),logged⟩
  present := by
    intro seq above below
    have present := holds.present seq above below
    have apart : packEntry seq ≠ packEntry pack.seq := by
      intro same
      rw [Daemon.info,same] at present
      rw [Daemon.info] at free
      simp [free] at present
    exact (info_put_of_ne d _ apart).symm ▸ present
  reader := holds.reader
  kept := by
    intro other taken above
    have kept := holds.kept other taken above
    have apart : packEntry other.seq ≠ packEntry pack.seq := by
      intro same
      rw [Daemon.info,same] at kept
      rw [Daemon.info,kept] at free
      cases free
    exact (info_put_of_ne d _ apart).trans kept
  shown := by
    intro entry info slot
    rcases packets_put slot with ⟨_,same⟩ | ⟨_,old⟩
    · cases same
      exact fun delivered => absurd delivered (by simp)
    · exact holds.shown entry info old
  queues := holds.queues
  messages := holds.messages
  safe := holds.safe

/-- The log grows as long as the packets that the daemon holds have slots of their own. -/
theorem Holds.append (holds : Holds settings log low place d) (more : List (Packet n)) (room : (log ++ more).length ≤ low + 8192) :
    Holds settings (log ++ more) low place d :=
  { holds with
    logged := holds.logged.trans (by simp)
    room := room
    slots := fun entry info slot =>
      let ⟨here,above,below,mem⟩ := holds.slots entry info slot
      ⟨here,above,below,List.mem_append_left _ mem⟩
    reader := holds.reader.append more (holds.within.trans (holds.arrived.trans holds.logged))
    safe := by
      have inside := holds.within.trans (holds.arrived.trans holds.logged)
      intro i pack found isSafe before
      rw [List.getElem?_append_left (by omega)] at found
      exact holds.safe i pack found isSafe before }

/-- A packet is stored unless the daemon has it or is past it, and what it completes is delivered. -/
theorem Keeps.handleBcast (keeps : Keeps settings log d) (sound : Sound settings log) {pack : Packet n} (mem : pack ∈ log) :
    ∃ d', d.handleBcast settings pack = some d' ∧ Keeps settings log d' ∧
      core d' = core { d with myAru := d'.myAru, highestSeq := d'.highestSeq } ∧
      d'.lastDiscarded = d.lastDiscarded ∧ d.lastDelivered ≤ d'.lastDelivered ∧ d.myAru ≤ d'.myAru ∧
      d.highestSeq ≤ d'.highestSeq ∧ Later d.lastDiscarded d d' ∧ (d.lastDiscarded < pack.seq → (d'.info pack.seq).isSome) := by
  unfold Daemon.handleBcast
  by_cases past : pack.seq ≤ d.lastDiscarded
  · exact ⟨d,if_pos past,keeps,rfl,rfl,le_rfl,le_rfl,le_rfl,.rfl,fun ahead => absurd past (by omega)⟩
  rw [if_neg past]
  rcases free : d.info pack.seq with _ | info
  · obtain ⟨pos,found⟩ := sound.found mem
    obtain ⟨inside,_⟩ := List.getElem?_eq_some_iff.mp found
    have stored : Keeps settings log (d.insert pack) := Holds.insert keeps mem (by omega) (by omega) free
    have here : (d.insert pack).info pack.seq = some ⟨pack,false⟩ := info_put_self ..
    simp only [Option.isSome_none,Bool.false_eq_true,if_false]
    by_cases next : pack.seq = d.myAru + 1
    · rw [if_pos next]
      have ready : Keeps settings log (d.insert pack).advanceAru := Holds.advance stored
      obtain ⟨d',run,keeps',same,discarded,more,later⟩ := ready.deliverAgreedPackets sound
      have grown := (advanced (d.insert pack)).grown
      have myAru := core_eq Daemon.myAru same fun _ => rfl
      have highest := core_eq Daemon.highestSeq same fun _ => rfl
      refine ⟨d',run,keeps',by rw [same,myAru,highest]; rfl,discarded,more,myAru ▸ grown,highest ▸ le_max_left ..,
        ((later_insert free).trans (later_advance _)).trans later,fun ahead => ?_⟩
      obtain ⟨_,held⟩ := later.held _ _ here ahead
      exact Option.isSome_iff_exists.mpr ⟨_,held⟩
    · rw [if_neg next]
      obtain ⟨d',run,keeps',same,discarded,delivered,later⟩ := stored.deliverReliablePackets sound pack.seq 1 (by omega)
      have myAru := core_eq Daemon.myAru same fun _ => rfl
      have highest := core_eq Daemon.highestSeq same fun _ => rfl
      refine ⟨d',run,keeps',by rw [same,myAru,highest]; rfl,discarded,delivered.ge,myAru.ge,highest ▸ le_max_left ..,
        (later_insert free).trans later,fun ahead => ?_⟩
      obtain ⟨_,held⟩ := later.held _ _ here ahead
      exact Option.isSome_iff_exists.mpr ⟨_,held⟩
  · exact ⟨d,by simp,keeps,rfl,rfl,le_rfl,le_rfl,le_rfl,.rfl,fun _ => by simp [free]⟩

/-! ### The token arrives -/

theorem Holds.raise (holds : Holds settings log low place d) {highest : ℕ} (grown : d.highestSeq ≤ highest)
    (inside : highest ≤ log.length) : Holds settings log low place { d with highestSeq := highest } :=
  { holds with
    arrived := holds.arrived.trans grown
    logged := inside
    slots := fun entry info slot =>
      let ⟨here,above,below,mem⟩ := holds.slots entry info slot
      ⟨here,above,below.trans grown,mem⟩ }

/-- The end of a visit of the token. -/
theorem Keeps.deliverAndDiscard (keeps : Keeps settings log d) (sound : Sound settings log) (inside : d.aru ≤ d.myAru)
    (grown : d.lastDiscarded ≤ d.aru) (top : d.highestSeq = log.length) {numSent : ℕ} (few : numSent ≤ log.length) :
    ∃ d', d.deliverAndDiscard settings numSent = some d' ∧ Keeps settings log d' ∧ core d' = core d ∧
      d'.lastDiscarded = d.aru ∧ Later d.aru d d' := by
  obtain ⟨d₁,run₁,keeps₁,same₁,discarded₁,_,later₁⟩ := keeps.discardPackets sound inside grown
  obtain ⟨d₂,run₂,keeps₂,same₂,discarded₂,_,later₂⟩ := keeps₁.deliverAgreedPackets sound
  have top₂ : d₂.highestSeq = log.length := (core_eq Daemon.highestSeq (same₂.trans same₁) fun _ => rfl).trans top
  obtain ⟨d₃,run₃,keeps₃,same₃,discarded₃,_,later₃⟩ :=
    keeps₂.deliverReliablePackets sound (d₂.highestSeq + 1 - numSent) numSent (by omega)
  rw [discarded₁] at discarded₂ later₂
  rw [discarded₂] at discarded₃ later₃
  refine ⟨d₃,?_,keeps₃,(same₃.trans same₂).trans same₁,discarded₃,(later₁.trans later₂).trans later₃⟩
  simp only [Daemon.deliverAndDiscard,run₁,run₂,Option.bind_eq_bind,Option.bind_some]
  exact run₃

end CdPraticas.Delivery
