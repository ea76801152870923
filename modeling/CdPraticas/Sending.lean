import CdPraticas.Delivery

/-!
# What a daemon sends

The fragments that a daemon sent, packet by packet, and those that wait in its down
queue are the fragments of the messages it was given, one after the other. So the
fragments of each sender are numbered in the log as the receivers expect it.
-/

namespace CdPraticas.Sending
open Fragments Protocol Delivery

variable {n : ℕ}

/-! ### Numbered fragments -/

/-- The index of a fragment and its bytes. -/
abbrev Piece := ℤ × List UInt8

def piece (fragment : Fragment) : Piece := (fragment.index,fragment.data)

/-- The number of fragments chained after one with this index. -/
def next (count : ℕ) (index : ℤ) : ℕ := if index < 0 then 0 else count + 1

def counts (count : ℕ) (pieces : List Piece) : ℕ := pieces.foldl (fun count piece => next count piece.1) count

/-- Each fragment has the index that the receiver expects. -/
def Continues : ℕ → List Piece → Prop
  | _, [] => True
  | count, piece :: rest => piece.1.natAbs = count + 1 ∧ Continues (next count piece.1) rest

theorem counts_append (count : ℕ) (front back : List Piece) : counts count (front ++ back) = counts (counts count front) back :=
  List.foldl_append ..

theorem continues_append (count : ℕ) (front back : List Piece) :
    Continues count (front ++ back) ↔ Continues count front ∧ Continues (counts count front) back := by
  induction front generalizing count with
  | nil => simp [Continues,counts]
  | cons piece rest ih =>
    rw [List.cons_append,Continues,Continues,ih,and_assoc]
    rfl

/-- The fragments of a message up to one of them. -/
theorem continues_take (link : DownLink) (i : ℕ) (inside : i ≤ link.mess.length) :
    Continues 0 ((link.fragments.map piece).take i) ∧
      counts 0 ((link.fragments.map piece).take i) = if i < link.mess.length then i else 0 := by
  induction i with
  | zero =>
    have some := List.length_pos_iff.mpr link.cut.some
    exact ⟨trivial,(if_pos some).symm⟩
  | succ i ih =>
    obtain ⟨before,count⟩ := ih (by omega)
    rw [if_pos (by omega)] at count
    have found : (link.fragments.map piece)[i]? =
        some (if i + 1 < link.mess.length then (i + 1 : ℤ) else -link.mess.length,link.mess[i]) := by
      simp [DownLink.fragments,piece,List.getElem?_mapIdx,List.getElem?_eq_getElem (show i < link.mess.length by omega)]
    rw [Logs.take_succ found,continues_append,counts_append,count]
    by_cases more : i + 1 < link.mess.length
    · simp only [if_pos more]
      refine ⟨⟨before,by omega,trivial⟩,?_⟩
      change next i (i + 1 : ℤ) = i + 1
      rw [next,if_neg (by omega)]
    · have last : i + 1 = link.mess.length := by omega
      simp only [if_neg more]
      refine ⟨⟨before,by rw [Int.natAbs_neg,Int.natAbs_natCast,last],trivial⟩,?_⟩
      change next i (-(link.mess.length : ℤ)) = 0
      rw [next,if_pos (by omega)]

/-- The fragments of whole messages. -/
theorem continues_links (links : List DownLink) :
    Continues 0 ((links.flatMap DownLink.fragments).map piece) ∧ counts 0 ((links.flatMap DownLink.fragments).map piece) = 0 := by
  induction links with
  | nil => exact ⟨trivial,rfl⟩
  | cons link rest ih =>
    obtain ⟨all,count⟩ := continues_take link link.mess.length le_rfl
    rw [List.take_of_length_le (by rw [List.length_map,DownLink.length_fragments])] at all count
    rw [if_neg (by omega)] at count
    rw [List.flatMap_cons,List.map_append,continues_append,counts_append,count]
    exact ⟨⟨all,ih.1⟩,ih.2⟩

/-! ### The fragments in the packets of a sender -/

variable {settings : Settings n} {log : List (Packet n)} {links : List DownLink} {me : Fin n} {d d' : Daemon n}

def pieces (settings : Settings n) (pack : Packet n) : List Piece :=
  (pack.firstFragHeader.fragmentIndex,first pack) :: (others settings pack).map fun message => (-1,message)

/-- The fragments that a daemon sent. -/
def sentBy (settings : Settings n) (procId : Fin n) (log : List (Packet n)) : List Piece :=
  (log.filter fun pack => pack.procId = procId).flatMap (pieces settings)

theorem sentBy_append (procId : Fin n) (log more : List (Packet n)) :
    sentBy settings procId (log ++ more) = sentBy settings procId log ++ sentBy settings procId more := by
  simp [sentBy]

theorem sentBy_mine (pack : Packet n) : sentBy settings pack.procId [pack] = pieces settings pack := by
  simp [sentBy]

theorem sentBy_other {procId : Fin n} {sent : List (Packet n)} (others : ∀ pack ∈ sent, pack.procId ≠ procId) :
    sentBy settings procId sent = [] := by
  rw [sentBy,List.filter_eq_nil_iff.mpr fun pack mem => by simpa using others pack mem]
  rfl

/-- The service of the packet of each of these fragments. -/
def typesBy (settings : Settings n) (procId : Fin n) (log : List (Packet n)) : List Service :=
  (log.filter fun pack => pack.procId = procId).flatMap fun pack => (pieces settings pack).map fun _ => pack.type

theorem typesBy_append (procId : Fin n) (log more : List (Packet n)) :
    typesBy settings procId (log ++ more) = typesBy settings procId log ++ typesBy settings procId more := by
  simp [typesBy]

theorem typesBy_mine (pack : Packet n) : typesBy settings pack.procId [pack] = (pieces settings pack).map fun _ => pack.type := by
  simp [typesBy]

theorem typesBy_other {procId : Fin n} {sent : List (Packet n)} (others : ∀ pack ∈ sent, pack.procId ≠ procId) :
    typesBy settings procId sent = [] := by
  rw [typesBy,List.filter_eq_nil_iff.mpr fun pack mem => by simpa using others pack mem]
  rfl

/-- The fragments that a daemon sent, each in a packet that its service shares. -/
structure Carried (settings : Settings n) (me : Fin n) (log : List (Packet n)) (sent : List Fragment) : Prop where
  pieces : sentBy settings me log = sent.map piece
  types : List.Forall₂ (fun type fragment => shares type (Fragment.type fragment) = true) (typesBy settings me log) sent

theorem Carried.append {more : List (Packet n)} {sent rest : List Fragment} (carried : Carried settings me log sent)
    (carried' : Carried settings me more rest) : Carried settings me (log ++ more) (sent ++ rest) where
  pieces := by rw [sentBy_append,List.map_append,carried.pieces,carried'.pieces]
  types := by
    rw [typesBy_append]
    exact List.rel_append carried.types carried'.types

/-- `links` are all messages that a daemon was given: it sent a part of their fragments, and
    the rest is in its down queue. -/
structure Submits (settings : Settings n) (me : Fin n) (log : List (Packet n)) (links : List DownLink) (d : Daemon n) : Prop where
  inside : AtElement d.downQueue d.curElement
  split : ∃ sent, Carried settings me log sent ∧ sent ++ pending d.downQueue d.curElement = links.flatMap DownLink.fragments

theorem Submits.continues (submits : Submits settings me log links d) : Continues 0 (sentBy settings me log) := by
  obtain ⟨sent,carried,split⟩ := submits.split
  have all := (continues_links links).1
  rw [← split,List.map_append,← carried.pieces,continues_append] at all
  exact all.1

/-- The packets of the other daemons do not count. -/
theorem Submits.elsewhere (submits : Submits settings me log links d) {sent : List (Packet n)}
    (others : ∀ pack ∈ sent, pack.procId ≠ me) : Submits settings me (log ++ sent) links d where
  inside := submits.inside
  split := by
    obtain ⟨before,carried,split⟩ := submits.split
    have nothing : Carried settings me sent [] := ⟨sentBy_other others,typesBy_other others ▸ .nil⟩
    exact ⟨before ++ [],carried.append nothing,by rw [List.append_nil,split]⟩

/-- One message more waits. -/
theorem Submits.append (submits : Submits settings me log links d) (link : DownLink) :
    Submits settings me log (links ++ [link]) { d with downQueue := d.downQueue ++ [link] } where
  inside := submits.inside.append link
  split := by
    obtain ⟨sent,carried,split⟩ := submits.split
    refine ⟨sent,carried,?_⟩
    change sent ++ pending (d.downQueue ++ [link]) d.curElement = _
    rw [pending_append submits.inside,← List.append_assoc,split,List.flatMap_append]
    simp

theorem counts_wholes (messages : List (List UInt8)) : counts 0 (messages.map fun message => (-1,message)) = 0 := by
  induction messages with
  | nil => rfl
  | cons message rest ih => exact ih

/-- A packet chains as many fragments as its first one does. -/
theorem counts_pieces (pack : Packet n) (count : ℕ) (continues : Continues count (pieces settings pack)) :
    counts count (pieces settings pack) = chain pack count := by
  have rest := continues.2
  change Continues (chain pack count) _ at rest
  change counts (chain pack count) _ = _
  generalize chain pack count = chained at rest
  cases shape : others settings pack with
  | nil => rfl
  | cons message more =>
    rw [shape] at rest
    have none : chained = 0 := by simpa using rest.1.symm
    rw [none]
    exact counts_wholes (message :: more)

/-- What a receiver has chained is read off the fragments sent. -/
theorem counts_sentBy (procId : Fin n) (log : List (Packet n)) (continues : Continues 0 (sentBy settings procId log)) :
    counts 0 (sentBy settings procId log) = chained procId log := by
  induction log using List.reverseRecOn with
  | nil => rfl
  | append_singleton log pack ih =>
    rw [sentBy_append,continues_append] at continues
    have before := ih continues.1
    have after : chained procId (log ++ [pack]) =
        if pack.procId = procId then chain pack (chained procId log) else chained procId log := by simp [chained]
    rw [sentBy_append,counts_append,before,after]
    by_cases mine : pack.procId = procId
    · subst mine
      rw [if_pos rfl,sentBy_mine]
      rw [sentBy_mine,before] at continues
      exact counts_pieces pack _ continues.2
    · rw [if_neg mine,sentBy_other (by simpa using mine)]
      rfl

/-- The fragments in the log are numbered as the receivers expect them. -/
theorem sound_of (numbered : ∀ i pack, log[i]? = some pack → pack.seq = i + 1)
    (unpacks : ∀ pack ∈ log, (unpack settings.endian pack.firstFragHeader pack.body).isSome)
    (continues : ∀ procId, Continues 0 (sentBy settings procId log)) : Sound settings log where
  numbered := numbered
  unpacks := unpacks
  chained := by
    intro i pack found
    obtain ⟨inside,here⟩ := List.getElem?_eq_some_iff.mp found
    have split : log = log.take i ++ (pack :: log.drop (i + 1)) := by
      rw [← here,← List.drop_eq_getElem_cons inside,List.take_append_drop]
    have all := continues pack.procId
    rw [split,sentBy_append,continues_append] at all
    rw [← counts_sentBy pack.procId _ all.1]
    have rest := all.2
    rw [← List.singleton_append,sentBy_append,sentBy_mine] at rest
    exact rest.1

/-! ### New packets -/

variable {low place : ℕ}

/-- A daemon without what the sending of packets changes. -/
def unsent (d : Daemon n) : Daemon n :=
  { d with packets := fun _ => none, highestSeq := 0, downQueue := [], curElement := 0 }

theorem unsent_eq {α : Type*} (field : Daemon n → α) (same : unsent d' = unsent d) (blind : ∀ d, field (unsent d) = field d) :
    field d' = field d := by
  rw [← blind d',same,blind]

/-- The packets `sent` were made of the down queue and put behind the log. -/
structure Sends (settings : Settings n) (me : Fin n) (log : List (Packet n)) (links : List DownLink) (low place numAllowed : ℕ)
    (d d' : Daemon n) (sent : List (Packet n)) : Prop where
  same : unsent d' = unsent d
  holds : Holds settings (log ++ sent) low place d'
  top : d'.highestSeq = (log ++ sent).length
  submits : Submits settings me (log ++ sent) links d'
  mine : ∀ pack ∈ sent, pack.procId = me
  numbered : ∀ i pack, sent[i]? = some pack → pack.seq = log.length + i + 1
  unpacks : ∀ pack ∈ sent, (unpack settings.endian pack.firstFragHeader pack.body).isSome
  few : sent.length ≤ numAllowed
  idle : sent.length < numAllowed → d'.downQueue = []
  later : Later low d d'
  held : ∀ pack ∈ sent, ∃ shown, d'.info pack.seq = some ⟨pack,shown⟩

/-- One packet more. -/
theorem Submits.packet (submits : Submits settings me log links d) {first : Fragment} {taken : List Fragment} {filled : Filled}
    {stale : ℕ → UInt8} (packs : Packs settings.endian stale d.downQueue d.curElement first taken filled) (seq : ℕ) {d' : Daemon n}
    (queue : d'.downQueue = filled.downQueue) (element : d'.curElement = filled.curElement) :
    let pack : Packet n := ⟨filled.type,me,seq,filled.firstFragHeader,filled.body⟩
    (unpack settings.endian pack.firstFragHeader pack.body).isSome ∧ Submits settings me (log ++ [pack]) links d' := by
  intro pack
  obtain ⟨start,rest,_⟩ := unpack_fillPacket settings.endian stale packs
  refine ⟨by rw [rest]; rfl,by rw [queue,element]; exact packs.inside,?_⟩
  have mine : pieces settings pack = (first :: taken).map piece := by
    have wholes : (taken.map Fragment.data).map (fun message => ((-1 : ℤ),message)) = taken.map piece := by
      rw [List.map_map]
      exact List.map_congr_left fun fragment mem => by simp [piece,(packs.whole fragment mem).1]
    have index : filled.firstFragHeader.fragmentIndex = first.index := by rw [packs.header]; rfl
    simp only [pieces,others,Delivery.first,pack,rest,start,index,Option.getD_some,wholes,List.map_cons,piece]
  have shared : ∀ fragment ∈ first :: taken, shares pack.type fragment.type = true := by
    intro fragment mem
    rw [show pack.type = first.type from packs.type]
    rcases List.mem_cons.mp mem with rfl | later
    · simp [shares]
    · exact (packs.whole fragment later).2
  have new : Carried settings me [pack] (first :: taken) := by
    refine ⟨(sentBy_mine pack).trans mine,?_⟩
    rw [typesBy_mine pack,mine,List.map_map,List.forall₂_map_left_iff,List.forall₂_same]
    exact shared
  obtain ⟨sent,carried,split⟩ := submits.split
  refine ⟨sent ++ (first :: taken),carried.append new,?_⟩
  rw [queue,element,List.append_assoc,← packs.pending]
  exact split

/-- A message that waits is sent, as long as packets are allowed. No slot is in use twice. -/
theorem sendNewPackets_spec (numAllowed : ℕ) (log : List (Packet n)) (d : Daemon n) (holds : Holds settings log low place d)
    (top : d.highestSeq = log.length) (room : log.length + numAllowed ≤ low + 8192) (submits : Submits settings me log links d) :
    ∃ d' sent, d.sendNewPackets settings me numAllowed = some (d',sent) ∧
      Sends settings me log links low place numAllowed d d' sent := by
  induction numAllowed generalizing log d with
  | zero =>
    exact ⟨d,[],rfl,rfl,by simpa using holds,by simpa using top,by simpa using submits,by simp,by simp,by simp,le_rfl,by simp,
      .rfl,by simp⟩
  | succ numAllowed ih =>
    rw [Daemon.sendNewPackets]
    by_cases empty : d.downQueue = []
    · exact ⟨d,[],if_pos empty,rfl,by simpa using holds,by simpa using top,by simpa using submits,by simp,by simp,by simp,
        Nat.zero_le _,fun _ => empty,.rfl,by simp⟩
    rw [if_neg empty]
    obtain ⟨first,taken,filled,fill,packs⟩ := fillPacket_spec settings.endian (settings.stale (d.highestSeq + 1)) empty submits.inside
    have free : d.info (d.highestSeq + 1) = none := by
      rcases found : d.info (d.highestSeq + 1) with _ | info
      · rfl
      · obtain ⟨entry,above,below,_⟩ := holds.slots _ info found
        have behind := holds.behind
        have within := holds.within
        have arrived := holds.arrived
        have := packEntry_inj entry above (by omega) (by omega) (by omega)
        omega
    simp only [fill,free,Option.isSome_none,Bool.false_eq_true,if_false]
    generalize made : (⟨filled.type,me,d.highestSeq + 1,filled.firstFragHeader,filled.body⟩ : Packet n) = pack
    have number : pack.seq = d.highestSeq + 1 := by rw [← made]
    have behind := holds.behind
    have within := holds.within
    have arrived := holds.arrived
    have size : (log ++ [pack]).length = log.length + 1 := by simp
    have held : Holds settings (log ++ [pack]) low place (d.insert pack) :=
      (holds.append [pack] (by omega)).insert (by simp) (by omega) (by omega) (by rw [number]; exact free)
    let d₁ : Daemon n := { d.insert pack with downQueue := filled.downQueue, curElement := filled.curElement }
    have packet : (unpack settings.endian pack.firstFragHeader pack.body).isSome ∧ Submits settings me (log ++ [pack]) links d₁ := by
      rw [← made]
      exact submits.packet packs (d.highestSeq + 1) rfl rfl
    have top₁ : d₁.highestSeq = (log ++ [pack]).length := by
      change max d.highestSeq pack.seq = _
      omega
    obtain ⟨d',sent,run,sends⟩ := ih (log ++ [pack]) d₁ { held with } top₁ (by omega) packet.2
    have joined : log ++ pack :: sent = log ++ [pack] ++ sent := by simp
    have later₁ : Later low d d₁ := (later_insert (by rw [number]; exact free)).trans (.of_eq rfl rfl)
    refine ⟨d',pack :: sent,by rw [run]; rfl,sends.same,?_,?_,?_,?_,?_,?_,?_,?_,later₁.trans sends.later,?_⟩
    · rw [joined]; exact sends.holds
    · rw [joined]; exact sends.top
    · rw [joined]; exact sends.submits
    · intro other mem
      rcases List.mem_cons.mp mem with rfl | later
      · rw [← made]
      · exact sends.mine other later
    · intro i other found
      cases i with
      | zero =>
        cases found
        omega
      | succ i =>
        have number' := sends.numbered i other found
        omega
    · intro other mem
      rcases List.mem_cons.mp mem with rfl | later
      · exact packet.1
      · exact sends.unpacks other later
    · have few := sends.few
      rw [List.length_cons]
      omega
    · intro fewer
      rw [List.length_cons] at fewer
      exact sends.idle (by omega)
    · intro other mem
      rcases List.mem_cons.mp mem with rfl | later
      · exact sends.later.held _ ⟨other,false⟩ (info_put_self ..) (by change low < other.seq; omega)
      · exact sends.held other later

/-- A daemon that misses no packet has its own ones as well. -/
theorem Sends.whole {numAllowed : ℕ} {sent : List (Packet n)} (sends : Sends settings me log links low place numAllowed d d' sent)
    (holds : Holds settings log low place d) (whole : ∀ seq, low < seq → seq ≤ log.length → (d.info seq).isSome) :
    ∀ seq, low < seq → seq ≤ (log ++ sent).length → (d'.info seq).isSome := by
  intro seq above below
  rw [List.length_append] at below
  rcases Nat.lt_or_ge log.length seq with new | old
  · have made : sent[seq - log.length - 1]? = some sent[seq - log.length - 1] := List.getElem?_eq_getElem (by omega)
    have number := sends.numbered _ _ made
    obtain ⟨_,held⟩ := sends.held _ (List.mem_of_getElem? made)
    rw [show seq = sent[seq - log.length - 1].seq by omega,held]
    rfl
  · obtain ⟨info,found⟩ := Option.isSome_iff_exists.mp (whole seq above old)
    have number := holds.info_seq found above old
    obtain ⟨_,held⟩ := sends.later.held _ info found (by omega)
    exact Option.isSome_iff_exists.mpr ⟨_,held⟩

/-! ### What flow control allows -/

theorem fcAllowed_le (settings : Settings n) (d : Daemon n) (flowControl : ℤ) :
    d.fcAllowed settings flowControl ≤ min settings.window settings.personalWindow := by
  unfold Daemon.fcAllowed
  split <;> omega

/-- Nothing new is sent while the oldest packet that some daemon may miss is too old. -/
theorem highestSeq_le_of_fcAllowed {settings : Settings n} {d : Daemon n} {flowControl : ℤ}
    (some : d.fcAllowed settings flowControl ≠ 0) : d.highestSeq ≤ d.aru + maxSeqGap := by
  unfold Daemon.fcAllowed at some
  split at some <;> omega

/-- The accelerated ring sends the same packets in the same order, some of them behind the token. -/
theorem queueBcast_foldl (settings : Settings n) (packs : List (Packet n)) (queued : List (Packet n) × List (Packet n)) :
    (packs.foldl (queueBcast settings) queued).1 ++ (packs.foldl (queueBcast settings) queued).2 = queued.1 ++ queued.2 ++ packs := by
  induction packs generalizing queued with
  | nil => simp
  | cons pack rest ih =>
    rw [List.foldl_cons,ih,← List.singleton_append (l := rest),← List.append_assoc]
    congr 1
    unfold queueBcast
    cases accelerated : settings.acceleratedRing with
    | false => simp
    | true =>
      by_cases window : settings.acceleratedWindow = 0
      · simp [window]
      · simp only [window,if_true,Bool.not_true,Bool.false_eq_true,or_self,if_false,List.append_assoc]
        rw [← List.append_assoc (List.take _ _),List.take_append_drop]

end CdPraticas.Sending
