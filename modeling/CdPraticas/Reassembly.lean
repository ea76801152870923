import CdPraticas.TotalOrder

/-!
# Whole messages

The sessions are given messages, not packets. The fragments that a daemon chains for a
sender make up the messages that the sender was given: each packet in the log completes some
of them, and what a daemon hands on are the messages that its packets complete. So the
messages of each sender arrive whole, once and, but for reliable ones, in order.
-/

namespace CdPraticas.Reassembly
open Runs Logs Fragments Protocol Delivery Sending TokenRing Safety TotalOrder

variable {n : ℕ}

/-! ### The fragments of one sender -/

/-- The messages that fragments complete. -/
def assemble : Mess → List Piece → List Mess
  | _, [] => []
  | chained, piece :: rest =>
    if piece.1 < 0 then (chained ++ [piece.2]) :: assemble [] rest else assemble (chained ++ [piece.2]) rest

/-- The fragments chained after them. -/
def chainOf (chained : Mess) (pieces : List Piece) : Mess :=
  pieces.foldl (fun chained piece => if piece.1 < 0 then [] else chained ++ [piece.2]) chained

theorem chainOf_append (chained : Mess) (front back : List Piece) :
    chainOf chained (front ++ back) = chainOf (chainOf chained front) back :=
  List.foldl_append ..

theorem assemble_append (chained : Mess) (front back : List Piece) :
    assemble chained (front ++ back) = assemble chained front ++ assemble (chainOf chained front) back := by
  induction front generalizing chained with
  | nil => rfl
  | cons piece rest ih =>
    rw [List.cons_append,assemble,assemble,ih,ih]
    by_cases last : piece.1 < 0 <;> simp [last,chainOf]

theorem length_chainOf (chained : Mess) (pieces : List Piece) : (chainOf chained pieces).length = counts chained.length pieces := by
  induction pieces generalizing chained with
  | nil => rfl
  | cons piece rest ih =>
    refine (ih _).trans ?_
    change counts (if piece.1 < 0 then [] else chained ++ [piece.2]).length rest = counts (next chained.length piece.1) rest
    by_cases last : piece.1 < 0 <;> simp [last,next]

/-- Whole messages of one fragment. -/
theorem assemble_wholes (messages : List (List UInt8)) :
    assemble [] (messages.map fun message => (-1,message)) = messages.map (fun message => [message]) ∧
      chainOf [] (messages.map fun message => (-1,message)) = [] := by
  induction messages with
  | nil => exact ⟨rfl,rfl⟩
  | cons message rest ih =>
    obtain ⟨all,chain⟩ := ih
    exact ⟨by simp [assemble,all],chain⟩

/-- The message that each fragment is the last of. -/
def ends (link : DownLink) : List (Option DownLink) := List.replicate (link.mess.length - 1) none ++ [some link]

theorem length_ends (link : DownLink) : (ends link).length = link.mess.length := by
  have some := List.length_pos_iff.mpr link.cut.some
  simp only [ends,List.length_append,List.length_replicate,List.length_singleton]
  omega

theorem reduceOption_ends (links : List DownLink) : (links.flatMap ends).reduceOption = links := by
  induction links with
  | nil => rfl
  | cons link rest ih =>
    rw [List.flatMap_cons,List.reduceOption_append,ih,ends,List.reduceOption_append,List.reduceOption_replicate_none]
    rfl

theorem ends_take (link : DownLink) {i : ℕ} (inside : i ≤ link.mess.length) :
    ((ends link).take i).reduceOption = if i < link.mess.length then [] else [link] := by
  by_cases more : i < link.mess.length
  · have part : i ≤ (List.replicate (link.mess.length - 1) (none : Option DownLink)).length := by
      rw [List.length_replicate]
      omega
    rw [if_pos more,ends,List.take_append_of_le_length part,List.take_replicate,List.reduceOption_replicate_none]
  · have all := reduceOption_ends [link]
    rw [if_neg more,List.take_of_length_le (by rw [length_ends]; omega)]
    simpa using all

/-- The fragments of a message up to one of them. -/
theorem assemble_take_link (link : DownLink) (i : ℕ) (inside : i ≤ link.mess.length) :
    assemble [] ((link.fragments.map piece).take i) = (if i < link.mess.length then [] else [link.mess]) ∧
      chainOf [] ((link.fragments.map piece).take i) = if i < link.mess.length then link.mess.take i else [] := by
  induction i with
  | zero =>
    have some := List.length_pos_iff.mpr link.cut.some
    simp [assemble,chainOf,some]
  | succ i ih =>
    obtain ⟨before,chain⟩ := ih (by omega)
    rw [if_pos (by omega)] at before chain
    have found : (link.fragments.map piece)[i]? =
        some (if i + 1 < link.mess.length then (i + 1 : ℤ) else -link.mess.length,link.mess[i]) := by
      simp [DownLink.fragments,piece,List.getElem?_mapIdx,List.getElem?_eq_getElem (show i < link.mess.length by omega)]
    rw [take_succ found,assemble_append,chainOf_append,before,chain]
    by_cases more : i + 1 < link.mess.length
    · have forward : ¬ ((i : ℤ) + 1 < 0) := by omega
      simp only [if_pos more]
      refine ⟨by simp [assemble,forward],?_⟩
      simp [chainOf,forward,List.take_append_getElem (show i < link.mess.length by omega)]
    · have last : link.mess ≠ [] := link.cut.some
      have whole : link.mess.take i ++ [link.mess[i]] = link.mess := by
        rw [List.take_append_getElem,List.take_of_length_le (by omega)]
      simp only [if_neg more]
      exact ⟨by simp [assemble,last,whole],by simp [chainOf,last]⟩

/-- The fragments of whole messages, up to one of them, make up the messages that end before it. -/
theorem assemble_take (links : List DownLink) (i : ℕ) :
    assemble [] (((links.flatMap DownLink.fragments).map piece).take i) = ((links.flatMap ends).take i).reduceOption.map DownLink.mess := by
  induction links generalizing i with
  | nil => simp [assemble,List.reduceOption]
  | cons link rest ih =>
    have size : (link.fragments.map piece).length = link.mess.length := by rw [List.length_map,DownLink.length_fragments]
    rw [List.flatMap_cons,List.flatMap_cons,List.map_append,List.take_append,List.take_append,size,length_ends,
      assemble_append,List.reduceOption_append,List.map_append]
    rcases Nat.le_total i link.mess.length with inside | behind
    · obtain ⟨first,_⟩ := assemble_take_link link i inside
      rw [first,ends_take link inside,Nat.sub_eq_zero_of_le inside]
      split <;> simp [assemble]
    · obtain ⟨first,chain⟩ := assemble_take_link link link.mess.length le_rfl
      have all : (link.fragments.map piece).take i = (link.fragments.map piece).take link.mess.length := by
        rw [List.take_of_length_le (by omega),List.take_of_length_le (by omega)]
      have all' : (ends link).take i = (ends link).take link.mess.length := by
        rw [List.take_of_length_le (by rw [length_ends]; omega),List.take_of_length_le (by rw [length_ends])]
      rw [if_neg (lt_irrefl _)] at first chain
      rw [all,all',first,chain,ih,ends_take link le_rfl,if_neg (lt_irrefl _)]
      rfl

/-! ### The packets in the log -/

variable {settings : Settings n} {log : List (Packet n)} {links : List DownLink} {submitted : Fin n → List DownLink}
  {d : Daemon n} {daemons : Fin n → Daemon n} {pack : Packet n} {procId : Fin n} {i : ℕ}

/-- The messages that a packet completes: those whose last fragment it holds. -/
def completes (settings : Settings n) (log : List (Packet n)) (submitted : Fin n → List DownLink) (pack : Packet n) : List DownLink :=
  ((((submitted pack.procId).flatMap ends).drop (sentBy settings pack.procId (log.take (pack.seq - 1))).length).take
    (pieces settings pack).length).reduceOption

/-- What a packet that continues a message completes and chains. -/
theorem assemble_pieces (pack : Packet n) (chained : Mess) (continues : Continues chained.length (pieces settings pack)) :
    assemble chained (pieces settings pack) =
        (if pack.firstFragHeader.fragmentIndex < 0 then [chained ++ [first pack]] else []) ++
          (others settings pack).map (fun message => [message]) ∧
      chainOf chained (pieces settings pack) = if pack.firstFragHeader.fragmentIndex < 0 then [] else chained ++ [first pack] := by
  obtain ⟨all,chain⟩ := assemble_wholes (others settings pack)
  by_cases last : pack.firstFragHeader.fragmentIndex < 0
  · refine ⟨by simp [pieces,assemble,last,all],?_⟩
    rw [if_pos last,← chain]
    simp [pieces,chainOf,last]
  · -- behind a fragment whose message goes on there is no room
    have none : others settings pack = [] := by
      have rest := continues.2
      rcases shape : others settings pack with _ | ⟨message,more⟩
      · rfl
      · rw [shape] at rest
        simp [Continues,next,last] at rest
    exact ⟨by simp [pieces,assemble,last,none],by simp [pieces,chainOf,last,none]⟩

theorem sentBy_take_succ (found : log[i]? = some pack) :
    sentBy settings pack.procId (log.take (i + 1)) = sentBy settings pack.procId (log.take i) ++ pieces settings pack := by
  rw [take_succ found,sentBy_append,sentBy_mine]

/-- The fragments sent so far are the first ones of all. -/
theorem sentBy_take (submits : Submits settings procId log links d) (i : ℕ) :
    sentBy settings procId (log.take i) =
      ((links.flatMap DownLink.fragments).map piece).take (sentBy settings procId (log.take i)).length := by
  obtain ⟨sent,carried,split⟩ := submits.split
  refine List.prefix_iff_eq_take.mp ?_
  have whole : sentBy settings procId log = sentBy settings procId (log.take i) ++ sentBy settings procId (log.drop i) := by
    rw [← sentBy_append,List.take_append_drop]
  rw [← split,List.map_append,← carried.pieces,whole,List.append_assoc]
  exact List.prefix_append ..

theorem continues_pieces (submits : Submits settings pack.procId log links d) (found : log[i]? = some pack) :
    Continues (chainOf [] (sentBy settings pack.procId (log.take i))).length (pieces settings pack) := by
  have whole := submits.continues
  rw [← List.take_append_drop (i + 1) log,sentBy_append,sentBy_take_succ found,continues_append,continues_append] at whole
  rw [length_chainOf]
  exact whole.1.2

/-- A packet completes the messages that its fragments make up with those chained before it. -/
theorem assemble_completes (sound : Sound settings log) (submits : Submits settings pack.procId log (submitted pack.procId) d)
    (found : log[i]? = some pack) :
    assemble (chainOf [] (sentBy settings pack.procId (log.take i))) (pieces settings pack) =
      (completes settings log submitted pack).map DownLink.mess := by
  have number : pack.seq - 1 = i := by
    have := sound.numbered i pack found
    omega
  have before := assemble_take (submitted pack.procId) (sentBy settings pack.procId (log.take i)).length
  have after := assemble_take (submitted pack.procId) (sentBy settings pack.procId (log.take (i + 1))).length
  rw [← sentBy_take submits] at before after
  rw [sentBy_take_succ found,assemble_append,before,List.length_append,List.take_add,List.reduceOption_append,List.map_append] at after
  rw [List.append_cancel_left after,completes,number]

/-- The queue of a sender holds what is chained of its fragments. -/
theorem queues_take (submits : ∀ q, Submits settings q log (submitted q) (daemons q)) (procId : Fin n) (inside : i ≤ log.length) :
    queues (log.take i) (some procId) = chainOf [] (sentBy settings procId (log.take i)) := by
  induction i with
  | zero => rfl
  | succ i ih =>
    have found : log[i]? = some log[i] := List.getElem?_eq_getElem (by omega)
    have before := ih (by omega)
    generalize log[i] = pack at found
    rw [take_succ found,queues_append]
    by_cases mine : pack.procId = procId
    · subst mine
      obtain ⟨_,chain⟩ := assemble_pieces pack _ (continues_pieces (submits pack.procId) found)
      rw [sentBy_append,sentBy_mine,chainOf_append,chain,← before]
      cases alone : pack.alone with
      | true =>
        have index := index_alone alone
        have few := (continues_pieces (submits pack.procId) found).1
        rw [← before,index] at few
        have empty : queues (log.take i) none = [] := foldl_none (log.take i) rfl
        rw [chainQueue_alone empty alone,index,if_pos (by decide)]
        exact List.eq_nil_of_length_eq_zero (by simpa using few.symm)
      | false => rw [chainQueue,procIndex_ordered alone,Function.update_self]
    · have nothing : sentBy settings procId [pack] = [] := sentBy_other (by simpa using mine)
      rw [sentBy_append,nothing,List.append_nil,← before,chainQueue]
      cases alone : pack.alone with
      | true => rw [procIndex_alone alone,Function.update_of_ne (by simp)]
      | false => rw [procIndex_ordered alone,Function.update_of_ne (by simpa using Ne.symm mine)]

/-- What a daemon emits as it delivers a packet after those before it in the log. -/
theorem emitted_take (sound : Sound settings log) (submits : ∀ q, Submits settings q log (submitted q) (daemons q))
    (found : log[i]? = some pack) :
    emitted settings (queues (log.take i)) pack = (completes settings log submitted pack).map DownLink.mess := by
  obtain ⟨inside,_⟩ := List.getElem?_eq_some_iff.mp found
  have continues := continues_pieces (submits pack.procId) found
  obtain ⟨all,_⟩ := assemble_pieces pack _ continues
  rw [← assemble_completes sound (submits pack.procId) found,all,emitted]
  cases alone : pack.alone with
  | true =>
    have few := continues.1
    have idle : chainOf [] (sentBy settings pack.procId (log.take i)) = [] := by
      refine List.eq_nil_of_length_eq_zero ?_
      change pack.firstFragHeader.fragmentIndex.natAbs = _ at few
      rw [index_alone alone] at few
      simpa using few.symm
    have empty : queues (log.take i) none = [] := foldl_none (log.take i) rfl
    rw [procIndex_alone alone,empty,idle]
  | false => rw [procIndex_ordered alone,queues_take submits pack.procId inside.le]

theorem emissions_eq (history : List (Packet n)) (messages : Packet n → List Mess)
    (each : ∀ front pack back, history = front ++ pack :: back → emitted settings (queues front) pack = messages pack) :
    emissions settings (fun _ => []) history = history.flatMap messages := by
  induction history using List.reverseRecOn with
  | nil => rfl
  | append_singleton front pack ih =>
    rw [emissions_append,List.flatMap_append,ih fun before one back split => each before one (back ++ [pack]) (by simp [split])]
    simpa [queues] using each front pack [] rfl

/-- Whatever a daemon delivered early, it emits the messages that its packets complete. -/
theorem emissions_reader {place : ℕ} {history : List (Packet n)} (sound : Sound settings log)
    (submits : ∀ q, Submits settings q log (submitted q) (daemons q)) (reader : Reader Packet.alone log place history) :
    emissions settings (fun _ => []) history = history.flatMap fun pack => (completes settings log submitted pack).map DownLink.mess := by
  refine emissions_eq history _ fun front pack back split => ?_
  obtain ⟨_,found⟩ := sound.found (reader.logged pack (by simp [split]))
  rw [← emitted_take sound submits found]
  cases alone : pack.alone with
  | true =>
    have empty (packs : List (Packet n)) : queues packs none = [] := foldl_none packs rfl
    rw [emitted,emitted,procIndex_alone alone,empty,empty]
  | false =>
    have ordered (packs : List (Packet n)) : queues packs = queues (ordered Packet.alone packs) := foldl_ordered packs rfl
    rw [ordered front,ordered (log.take _),reader.before sound.nodup split alone found]

/-- The messages that the packets of a sender complete are the first ones it was given. -/
theorem flatMap_completes (sound : Sound settings log) (submits : Submits settings procId log (submitted procId) d)
    (inside : i ≤ log.length) :
    ((log.take i).filter fun pack => pack.procId = procId).flatMap (completes settings log submitted) =
      (((submitted procId).flatMap ends).take (sentBy settings procId (log.take i)).length).reduceOption := by
  induction i with
  | zero => rfl
  | succ i ih =>
    have found : log[i]? = some log[i] := List.getElem?_eq_getElem (by omega)
    have before := ih (by omega)
    generalize log[i] = pack at found
    rw [take_succ found,List.filter_append,List.flatMap_append,before,sentBy_append,List.length_append]
    by_cases mine : pack.procId = procId
    · subst mine
      have number : pack.seq - 1 = i := by
        have := sound.numbered i pack found
        omega
      rw [sentBy_mine,List.take_add,List.reduceOption_append]
      simp [completes,number]
    · have nothing : sentBy settings procId [pack] = [] := sentBy_other (by simpa using mine)
      simp [nothing,mine]

/-! ### The services of the messages -/

/-- A fragment is of the service of the message that it is the last of. -/
theorem ends_types (links : List DownLink) :
    List.Forall₂ (fun fragment last => ∀ link ∈ last, Fragment.type fragment = DownLink.type link)
      (links.flatMap DownLink.fragments) (links.flatMap ends) := by
  induction links with
  | nil => exact .nil
  | cons link rest ih =>
    refine List.rel_append (List.forall₂_iff_get.mpr ⟨by rw [DownLink.length_fragments,length_ends],?_⟩) ih
    intro i inside inside' other last
    have type : ∀ fragment ∈ link.fragments, fragment.type = link.type := by
      intro fragment mem
      obtain ⟨_,_,rfl⟩ := List.mem_mapIdx.mp mem
      rfl
    have only : ∀ last ∈ ends link, ∀ other ∈ last, other = link := by
      intro last mem other here
      rw [ends,List.mem_append,List.mem_replicate,List.mem_singleton] at mem
      rcases mem with ⟨_,rfl⟩ | rfl
      · cases here
      · exact (Option.mem_some_iff.mp here).symm
    rw [only _ (List.get_mem ..) other last]
    exact type _ (List.get_mem ..)

theorem length_typesBy (settings : Settings n) (procId : Fin n) (log : List (Packet n)) :
    (typesBy settings procId log).length = (sentBy settings procId log).length := by
  simp [typesBy,sentBy,List.length_flatMap]

theorem related {α β : Type*} {R : α → β → Prop} {l : List α} {l' : List β} (all : List.Forall₂ R l l') {i : ℕ} {x : α} {y : β}
    (here : l[i]? = some x) (there : l'[i]? = some y) : R x y := by
  obtain ⟨inside,rfl⟩ := List.getElem?_eq_some_iff.mp here
  obtain ⟨inside',rfl⟩ := List.getElem?_eq_some_iff.mp there
  exact all.get inside inside'

/-- A message shares the packet that completes it. -/
theorem completes_shares (sound : Sound settings log) (submits : Submits settings pack.procId log (submitted pack.procId) d)
    (mem : pack ∈ log) {link : DownLink} (completed : link ∈ completes settings log submitted pack) : shares pack.type link.type = true := by
  obtain ⟨_,found⟩ := sound.found mem
  obtain ⟨sent,carried,split⟩ := submits.split
  rw [completes,List.reduceOption_mem_iff] at completed
  obtain ⟨k,last⟩ := List.mem_iff_getElem?.mp completed
  have short : k < (pieces settings pack).length := by
    have := (List.getElem?_eq_some_iff.mp last).1
    rw [List.length_take] at this
    omega
  rw [List.getElem?_take_of_lt short,List.getElem?_drop] at last
  -- the service of the packet stands at the place of the fragment
  have types : typesBy settings pack.procId log = typesBy settings pack.procId (log.take (pack.seq - 1)) ++
      ((pieces settings pack).map (fun _ => pack.type) ++ typesBy settings pack.procId (log.drop (pack.seq - 1 + 1))) := by
    rw [← List.append_assoc,← typesBy_mine,← typesBy_append,← take_succ found,← typesBy_append,List.take_append_drop]
  have place : (typesBy settings pack.procId log)[(sentBy settings pack.procId (log.take (pack.seq - 1))).length + k]? = some pack.type := by
    rw [types,← length_typesBy,List.getElem?_append_right (Nat.le_add_right ..),Nat.add_sub_cancel_left,
      List.getElem?_append_left (by rw [List.length_map]; exact short),List.getElem?_map,List.getElem?_eq_getElem short]
    rfl
  generalize (sentBy settings pack.procId (log.take (pack.seq - 1))).length + k = j at last place
  have there : j < sent.length := carried.types.length_eq ▸ (List.getElem?_eq_some_iff.mp place).1
  have fragment : sent[j]? = some sent[j] := List.getElem?_eq_getElem there
  have whole : ((submitted pack.procId).flatMap DownLink.fragments)[j]? = some sent[j] := by
    rw [← split,List.getElem?_append_left there,fragment]
  rw [← related (ends_types _) whole last link rfl]
  exact related carried.types place fragment

/-- What later packets and messages there are makes no difference to what a packet completes. -/
theorem completes_mono {log' : List (Packet n)} {submitted' : Fin n → List DownLink} (sound : Sound settings log)
    (submits : Submits settings pack.procId log (submitted pack.procId) d) (mem : pack ∈ log) (grown : log <+: log')
    (given : submitted pack.procId <+: submitted' pack.procId) :
    completes settings log' submitted' pack = completes settings log submitted pack := by
  obtain ⟨more,rfl⟩ := grown
  obtain ⟨later,given⟩ := given
  obtain ⟨_,found⟩ := sound.found mem
  obtain ⟨inside,_⟩ := List.getElem?_eq_some_iff.mp found
  have few : (sentBy settings pack.procId (log.take (pack.seq - 1))).length + (pieces settings pack).length ≤
      ((submitted pack.procId).flatMap ends).length := by
    have front := sentBy_take submits (pack.seq - 1 + 1)
    have size := congrArg List.length front
    rw [sentBy_take_succ found,List.length_take,List.length_append,List.length_map,(ends_types _).length_eq] at size
    omega
  rw [completes,completes,List.take_append_of_le_length inside.le,← given,List.flatMap_append,
    List.drop_append_of_le_length (by omega),List.take_append_of_le_length (by rw [List.length_drop]; omega)]

/-! ### What the sessions are given -/

/-- The messages that a packet completes, with their sender. -/
def label (settings : Settings n) (s : State n) (pack : Packet n) : List (Fin n × DownLink) :=
  (completes settings s.log s.submitted pack).map fun link => (pack.procId,link)

/-- All messages whose fragments were sent, in one order. -/
def said (settings : Settings n) (s : State n) : List (Fin n × DownLink) := s.log.flatMap (label settings s)

/-- The messages that a daemon has handed to its sessions. -/
def shown (settings : Settings n) (s : State n) (p : Fin n) : List (Fin n × DownLink) :=
  (s.daemons p).history.flatMap (label settings s)

def byProc (procId : Fin n) (said : List (Fin n × DownLink)) : List DownLink :=
  (said.filter fun entry => entry.1 = procId).map Prod.snd

/-- The messages that do not overtake each other. -/
def inTurn (said : List (Fin n × DownLink)) : List (Fin n × DownLink) := said.filter fun entry => entry.2.type ≠ .reliable

/-- What is said comes from the senders in order, and each daemon shows a part of it, whole and once. -/
structure Serves (s : State n) (said : List (Fin n × DownLink)) (shown : Fin n → List (Fin n × DownLink)) : Prop where
  fifo : ∀ q, byProc q said <+: s.submitted q
  flushed : ∀ q, (s.daemons q).downQueue = [] → byProc q said = s.submitted q
  messages : ∀ p, (s.daemons p).messages = (shown p).map fun entry => entry.2.mess
  once : ∀ p, (shown p).Subperm said
  inOrder : ∀ p, inTurn (shown p) <+: inTurn said
  complete : ∀ p, s.log.length ≤ (s.daemons p).lastDelivered → (shown p).Perm said

theorem byProc_flatMap (settings : Settings n) (s : State n) (q : Fin n) (packs : List (Packet n)) :
    byProc q (packs.flatMap (label settings s)) =
      (packs.filter fun pack => pack.procId = q).flatMap (completes settings s.log s.submitted) := by
  induction packs with
  | nil => rfl
  | cons pack rest ih =>
    have cons : byProc q ((pack :: rest).flatMap (label settings s)) =
        byProc q (label settings s pack) ++ byProc q (rest.flatMap (label settings s)) := by simp [byProc]
    rw [cons,ih]
    by_cases mine : pack.procId = q
    · have all : byProc q (label settings s pack) = completes settings s.log s.submitted pack := by
        simp [byProc,label,mine,List.filter_map,Function.comp_def]
      rw [all,List.filter_cons_of_pos (by simpa using mine),List.flatMap_cons]
    · have none : byProc q (label settings s pack) = [] := by simp [byProc,label,mine,List.filter_map,Function.comp_def]
      rw [none,List.filter_cons_of_neg (by simpa using mine),List.nil_append]

variable [NeZero n] {start : Fin 16} {turn : Fin n} {s t s₀ : State n} {first : Fin n} {acts more : List (Action n)}

omit [NeZero n] in
theorem shares_reliable (next : Service) : shares .reliable next = true → next = .reliable := by
  cases next <;> decide

/-- A packet that may be delivered early completes reliable messages only. -/
theorem inTurn_label (intact : Intact settings start turn s) (mem : pack ∈ s.log) (alone : pack.alone = true) :
    inTurn (label settings s pack) = [] := by
  refine List.filter_eq_nil_iff.mpr fun entry completed => ?_
  obtain ⟨link,inside,rfl⟩ := List.mem_map.mp completed
  have shared := completes_shares intact.sound (intact.submits pack.procId) mem inside
  have reliable : pack.type = .reliable := by
    unfold Packet.alone at alone
    exact (of_decide_eq_true alone).1
  rw [reliable] at shared
  simp [shares_reliable _ shared]

theorem inTurn_ordered (intact : Intact settings start turn s) (packs : List (Packet n)) (sent : ∀ pack ∈ packs, pack ∈ s.log) :
    inTurn (packs.flatMap (label settings s)) = inTurn ((ordered Packet.alone packs).flatMap (label settings s)) := by
  induction packs with
  | nil => rfl
  | cons pack rest ih =>
    have cons (front : List (Fin n × DownLink)) (back : List (Fin n × DownLink)) : inTurn (front ++ back) = inTurn front ++ inTurn back :=
      List.filter_append ..
    have after := ih fun other mem => sent other (by simp [mem])
    cases alone : pack.alone with
    | true =>
      have skip : ordered Packet.alone (pack :: rest) = ordered Packet.alone rest := by simp [ordered,alone]
      rw [skip,← after,List.flatMap_cons,cons,inTurn_label intact (sent pack (by simp)) alone,List.nil_append]
    | false =>
      have keep : ordered Packet.alone (pack :: rest) = pack :: ordered Packet.alone rest := by simp [ordered,alone]
      rw [keep,List.flatMap_cons,List.flatMap_cons,cons,cons,after]

theorem intact_serves (intact : Intact settings start turn s) : Serves s (said settings s) (shown settings s) := by
  have sound := intact.sound
  have reader (p : Fin n) := (intact.keeps p).reader
  have sender (q : Fin n) : byProc q (said settings s) =
      (((s.submitted q).flatMap ends).take (sentBy settings q s.log).length).reduceOption := by
    have all := flatMap_completes sound (intact.submits q) le_rfl
    rw [List.take_length] at all
    rw [said,byProc_flatMap,all]
  constructor
  case fifo =>
    intro q
    have part : (((s.submitted q).flatMap ends).take (sentBy settings q s.log).length).reduceOption <+:
        ((s.submitted q).flatMap ends).reduceOption := (List.take_prefix ..).filterMap id
    rw [reduceOption_ends] at part
    rw [sender]
    exact part
  case flushed =>
    intro q empty
    obtain ⟨sent,carried,split⟩ := (intact.submits q).split
    have nothing : pending (s.daemons q).downQueue (s.daemons q).curElement = [] := by simp [pending,empty]
    have size : (sentBy settings q s.log).length = ((s.submitted q).flatMap ends).length := by
      rw [carried.pieces,List.length_map,← (ends_types (s.submitted q)).length_eq,← split,nothing,List.append_nil]
    rw [sender,size,List.take_length,reduceOption_ends]
  case messages =>
    intro p
    rw [(intact.keeps p).messages,emissions_reader sound intact.submits (reader p),shown,List.map_flatMap]
    simp [label,Function.comp_def]
  case once =>
    intro p
    obtain ⟨taken,perm,part⟩ := (reader p).once.subperm (reader p).logged
    exact ⟨_,perm.flatMap_right _,part.flatMap _⟩
  case inOrder =>
    intro p
    rw [shown,said,inTurn_ordered intact _ (reader p).logged,inTurn_ordered intact _ fun _ mem => mem]
    obtain ⟨rest,split⟩ := (reader p).prefix_log
    rw [← split,List.flatMap_append]
    exact (List.prefix_append ..).filter _
  case complete =>
    intro p last
    exact ((reader p).perm sound.nodup last).flatMap_right _

/-! ### Whole runs -/

/-- Nothing is taken back. -/
theorem intact_grows (intact : Intact settings start turn s) (windows : maxSeqGap + most settings ≤ 8192)
    (run : Run (Restrict Timely (Steps (step settings))) s more t) :
    s.log <+: t.log ∧ (∀ p, s.submitted p <+: t.submitted p) ∧ (∀ p, (s.daemons p).history <+: (t.daemons p).history) ∧
      ∃ turn', Intact settings start turn' t := by
  refine run.always (P := fun t => s.log <+: t.log ∧ (∀ p, s.submitted p <+: t.submitted p) ∧
    (∀ p, (s.daemons p).history <+: (t.daemons p).history) ∧ ∃ turn', Intact settings start turn' t)
    ⟨List.prefix_rfl,fun _ => List.prefix_rfl,fun _ => List.prefix_rfl,turn,intact⟩ ?_
  rintro u a v ⟨log,submitted,history,turn,intact⟩ ⟨timely,move⟩
  obtain ⟨turn',d',sent,wires,rfl,later,after⟩ := intact.step windows timely move
  refine ⟨log.trans (List.prefix_append ..),fun p => (submitted p).trans ?_,fun p => (history p).trans ?_,turn',after⟩
  · change _ <+: Function.update u.submitted a.proc (u.submitted a.proc ++ a.event.links) p
    by_cases here : p = a.proc
    · rw [here,Function.update_self]
      exact List.prefix_append ..
    · rw [Function.update_of_ne here]
  · rw [Tokens.daemons_after]
    split
    next here => rw [here]; exact later.history
    next => exact List.prefix_rfl

/-- The ring is a service of messages: it is one in every state of every run, and what was said and what was
    shown only grows. -/
theorem serves_messages (installed : Installed s₀ first) (windows : maxSeqGap + most settings ≤ 8192)
    (run : Run (Restrict Timely (Steps (step settings))) s₀ acts s)
    (onward : Run (Restrict Timely (Steps (step settings))) s more t) :
    Serves s (said settings s) (shown settings s) ∧ said settings s <+: said settings t ∧
      ∀ p, shown settings s p <+: shown settings t p := by
  obtain ⟨start,turn,intact⟩ := intact_run installed windows run
  obtain ⟨log,submitted,history,turn',after⟩ := intact_grows intact windows onward
  have same : ∀ pack ∈ s.log, label settings t pack = label settings s pack := fun pack mem => by
    rw [label,completes_mono intact.sound (intact.submits pack.procId) mem log (submitted _)]
    rfl
  have grown {packs packs' : List (Packet n)} (part : packs <+: packs') (sent : ∀ pack ∈ packs, pack ∈ s.log) :
      packs.flatMap (label settings s) <+: packs'.flatMap (label settings t) := by
    obtain ⟨rest,rfl⟩ := part
    rw [List.flatMap_append,List.flatMap_congr fun pack mem => (same pack (sent pack mem)).symm]
    exact List.prefix_append ..
  exact ⟨intact_serves intact,grown log fun _ mem => mem,fun p => grown (history p) (intact.keeps p).reader.logged⟩

theorem serves_messages_pair : ∃ s, Run (Restrict Timely (Steps (step defaults))) pair safely s ∧
    (s.daemons 0).messages = [[[7]]] ∧ said defaults s = [(0,safeLink)] ∧ Serves s (said defaults s) (shown defaults s) := by
  obtain ⟨s,run,messages,all⟩ := exists_run_of_exec (step defaults) Timely
    (fun s => (s.daemons 0).messages = [[[7]]] ∧ said defaults s = [(0,safeLink)]) pair safely (by decide)
  exact ⟨s,run,messages,all,(serves_messages installed_pair (by decide) run .start).1⟩

end CdPraticas.Reassembly
