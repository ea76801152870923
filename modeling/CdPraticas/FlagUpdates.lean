import CdPraticas.Provenance

/-!
# Saves between a find and a write

The handlers that change the flag of a row, or delete it, write back what they
found earlier. A client thread of the same server can save the row in between.
-/

namespace CdPraticas.FlagUpdates
open Groups Store Messages Calls Runs Programs Listeners Provenance
open Handlers (Settings LeaderManager Outcome Callback)
open Cluster (notify)
open Keys (notify_server notify_request notify_pc notify_references)

/-- The three parts of handlers that rewrite or delete a row they have found. -/
inductive FlagUpdate
  | executeInvalidateData | revalidateData | deleteIfExistsAndIsInvalidated
  deriving DecidableEq

/-- The access that follows the find. -/
def FlagUpdate.write (update : FlagUpdate) (key : String) : Option DataEntity → Option (Access Unit)
  | none => none
  | some found =>
    match update with
    | .executeInvalidateData => some (.save (found.setInvalidate true))
    | .revalidateData => some (.save (found.setInvalidate false))
    | .deleteIfExistsAndIsInvalidated => if found.invalidate = some true then some (.deleteById key) else none

def FlagUpdate.handler (update : FlagUpdate) (key : String) : Handler Unit := do
  match update.write key (← make (.findById key)) with
  | some access => make access
  | none => pure ()

/-- What a handler may do after that: nothing, or one send. -/
def Quiet (after : Handler Unit) : Prop := after = pure () ∨ ∃ send, after = make (.multicast send)

/-! ### The handlers of the listener -/

theorem executeInvalidateData_eq (key : String) :
    Listeners.executeInvalidateData key = FlagUpdate.executeInvalidateData.handler key := by
  unfold Listeners.executeInvalidateData FlagUpdate.handler
  congr 1
  funext found
  cases found <;> rfl

theorem revalidateData_eq {me sender : SpreadGroup} (other : sender ≠ me) (key : String) :
    Listeners.revalidateData me sender key = FlagUpdate.revalidateData.handler key := by
  unfold Listeners.revalidateData FlagUpdate.handler
  rw [if_neg other]
  congr 1
  funext found
  cases found <;> rfl

theorem dataWritten_eq {me sender : SpreadGroup} (other : sender ≠ me) (key : String) :
    Listeners.dataWritten me sender key = FlagUpdate.deleteIfExistsAndIsInvalidated.handler key := by
  unfold Listeners.dataWritten FlagUpdate.handler
  rw [if_neg other]
  congr 1
  funext found
  cases found with
  | none => rfl
  | some dataEntity =>
    simp only [FlagUpdate.write]
    split_ifs <;> rfl

/-- A WANT_TO_WRITE at a server that is not writing: it invalidates, then answers. -/
theorem wantToWriteReceived_eq {me sender : SpreadGroup} (settings : Settings) (other : sender ≠ me) (data : DataDto) :
    ∃ rest, Listeners.wantToWriteReceived settings me sender data = .make (.getWantToWrite data.key) rest ∧
      ∃ after, Quiet after ∧ rest none = FlagUpdate.executeInvalidateData.handler data.key >>= fun _ => after := by
  unfold Listeners.wantToWriteReceived
  rw [if_neg other]
  refine ⟨_,rfl,if ! settings.testConflict me then make (.multicast (.unicast (.wantToWriteResponse data.key) sender)) else pure (),
    ?_,?_⟩
  · split_ifs
    · exact .inr ⟨_,rfl⟩
    · exact .inl rfl
  · rw [← executeInvalidateData_eq]
    rfl

/-! ### The client thread -/

/-- The next step of the call saves `dataDto`. -/
def Saves (call : Call) (dataDto : DataDto) : Prop :=
  Saving call.pc ∧ call.request = .write dataDto ∨
    call.pc = .saveCopy ∧ call.response = some dataDto ∧ ∃ key, call.request = .read key

/-- The call has saved. -/
def Past : Pc → Prop
  | .sendDataWritten _ | .removeWantToWrite _ | .wrote _ | .removeWaiting _ | .answered _ => True
  | _ => False

section
variable {settings : Settings} {participants : Int} {stored : Option DataEntity} {call : Call} {choice : Choice} {effect : Effect}
  {pc : Pc} {dataDto : DataDto}

theorem move_save (move : Move settings participants stored call .go effect pc) (saves : Saves call dataDto) :
    effect = .save (.ofDto dataDto) ∧ Past pc := by
  rcases saves with ⟨saving,request⟩ | ⟨here,response,key,request⟩
  · cases move with
    | saveAlone write _ | saveData write _ =>
      cases write.symm.trans request
      exact ⟨rfl,trivial⟩
    | _ => simp_all [Saving]
  · cases move with
    | saveCopy read _ response' =>
      cases response'.symm.trans response
      exact ⟨rfl,trivial⟩
    | _ => simp_all

/-- What a call does after its save leaves the rows alone. -/
theorem move_past (move : Move settings participants stored call choice effect pc) (past : Past call.pc) (i : Nat)
    (self : LeaderManager) : Past pc ∧ (effect.apply i self).database = self.database := by
  cases move <;> simp_all [Past,Effect.apply]

end

/-! ### The two threads -/

/-- The row of a key at a server. -/
def row (s : Threads) (server : SpreadGroup) (key : String) : Option DataEntity :=
  (s.cluster.servers server).database.findById key

/-- Only the listener thread of a server and one call go on. -/
def Two (server : SpreadGroup) (i : Nat) (_ : Threads) : Event → Prop
  | .listen other _ => other = server
  | .thread j _ => j = i
  | _ => False

instance (server : SpreadGroup) (i : Nat) (s : Threads) : DecidablePred (Two server i s)
  | .listen other _ => inferInstanceAs (Decidable (other = server))
  | .thread j _ => inferInstanceAs (Decidable (j = i))
  | .call _ _ _ | .view _ | .boot _ | .receive _ => isFalse id

/-- The part of a handler that updates the flag runs to its end; the client call
    saves after the accesses `listens`, and goes on too. -/
structure Interleaved (settings : Settings) (update : FlagUpdate) (key data : String) (server : SpreadGroup) (i : Nat) (s : Threads)
    (listens : List Bool) (back : List Event) (t : Threads) : Prop where
  busy : ∃ packet after, Quiet after ∧ s.listening server = some ⟨packet,update.handler key >>= fun _ => after⟩
  saving : ∃ call, s.cluster.calls i = some call ∧ call.server = server ∧ Saves call ⟨key,data⟩
  run : Run (Restrict (Two server i) (Runs.Steps (Listeners.step settings))) s
    (listens.map (Event.listen server) ++ .thread i .go :: back) t
  finished : t.listening server = none

/-- The listener thread will not access the rows any more. -/
def Calm (s : Threads) (server : SpreadGroup) : Prop :=
  ∀ packet handler, s.listening server = some ⟨packet,handler⟩ → Quiet handler

/-- The listener thread is about to make an access, after which it is calm. -/
def Pending (s : Threads) (server : SpreadGroup) (access : Access Unit) : Prop :=
  ∃ packet after, Quiet after ∧ s.listening server = some ⟨packet,.make access fun _ => after⟩

/-- The calls stand where they stood. -/
def CallsStay (s t : Threads) : Prop := ∀ i call, s.cluster.calls i = some call → ∃ after, t.cluster.calls i = some after ∧
  after.server = call.server ∧ after.pc = call.pc ∧ ∀ dataDto, Saves call dataDto → Saves after dataDto

/-- What the update leaves in the row it has found. -/
def FlagUpdate.written (update : FlagUpdate) (found : DataEntity) : Option DataEntity :=
  match update with
  | .executeInvalidateData => some (found.setInvalidate true)
  | .revalidateData => some (found.setInvalidate false)
  | .deleteIfExistsAndIsInvalidated => none

theorem perform_write {update : FlagUpdate} {key : String} {found : DataEntity} {access : Access Unit}
    (write : update.write key (some found) = some access) (own : found.key = key) (self : LeaderManager) :
    (perform access (.unchanged self)).1.callbacks = [] ∧
      (perform access (.unchanged self)).1.manager.database.findById key = update.written found := by
  cases update with
  | executeInvalidateData | revalidateData =>
    simp only [FlagUpdate.write,Option.some.injEq] at write
    subst write
    exact ⟨rfl,by simp [perform,Outcome.unchanged,LeaderManager.save,Database.findById_save,FlagUpdate.written,own]⟩
  | deleteIfExistsAndIsInvalidated =>
    simp only [FlagUpdate.write,Option.ite_none_right_eq_some,Option.some.injEq] at write
    obtain ⟨_,rfl⟩ := write
    exact ⟨rfl,by simp [perform,Outcome.unchanged,LeaderManager.deleteById,Database.findById_deleteById,FlagUpdate.written]⟩

section
variable {settings : Settings} {s t : Threads} {server : SpreadGroup} {sent : Bool} {key : String} {i : Nat} {dataDto : DataDto}

/-- An access that invokes no callback leaves the calls where they are. -/
theorem listened_stay {outcome : Outcome} {packet : Packet} {handler : Handler Unit} (silent : outcome.callbacks = []) :
    CallsStay s (s.listened server packet sent outcome handler) := by
  intro i call found
  refine ⟨_,by rw [listened_calls,found]; rfl,notify_server ..,notify_pc ..,fun dataDto saves => ?_⟩
  have response : (notify outcome.sends outcome.callbacks packet sent i call).response = call.response := by
    rw [(notify_references ..).2.1,silent]
    rfl
  simpa only [Saves,notify_pc,notify_request,response] using saves

/-- A listener thread that is about to make an access makes it. -/
theorem listen_make {α : Type} {access : Access α} {packet : Packet} {rest : α → Handler Unit}
    (busy : s.listening server = some ⟨packet,.make access rest⟩)
    (move : Listeners.step settings (.listen server sent) s = some t) :
    t = s.listened server packet sent (perform access (.unchanged (s.cluster.servers server))).1
      (rest (perform access (.unchanged (s.cluster.servers server))).2) := by
  change Listeners.listen server sent s = some t at move
  simp only [Listeners.listen,busy,Option.some.injEq] at move
  exact move.symm

/-- A calm listener thread stays calm and leaves the rows and the calls. -/
theorem listen_calm (key : String) (calm : Calm s server) (move : Listeners.step settings (.listen server sent) s = some t) :
    Calm t server ∧ row t server key = row s server key ∧ CallsStay s t := by
  cases busy : s.listening server with
  | none =>
    change Listeners.listen server sent s = some t at move
    simp only [Listeners.listen,busy,reduceCtorEq] at move
  | some listening =>
    obtain ⟨packet,handler⟩ := listening
    rcases calm packet handler busy with rfl | ⟨send,rfl⟩
    · change Listeners.listen server sent s = some t at move
      simp only [Listeners.listen,busy,pure,Option.some.injEq] at move
      subst move
      refine ⟨fun packet handler there => ?_,rfl,fun i call found => ⟨call,found,rfl,rfl,fun _ => id⟩⟩
      cases (Function.update_self ..).symm.trans there
    · obtain rfl := listen_make busy move
      refine ⟨fun packet' handler there => ?_,by simp [row,perform,Outcome.unchanged],listened_stay rfl⟩
      simp only [listened_listening,Function.update_self,Option.some.injEq,Listening.mk.injEq] at there
      exact .inl there.2.symm

/-- The write of the update, -/
theorem listen_pending {update : FlagUpdate} {found : DataEntity} {access : Access Unit}
    (write : update.write key (some found) = some access) (own : found.key = key) (pending : Pending s server access)
    (move : Listeners.step settings (.listen server sent) s = some t) :
    Calm t server ∧ row t server key = update.written found ∧ CallsStay s t := by
  obtain ⟨packet,after,quiet,busy⟩ := pending
  obtain rfl := listen_make busy move
  obtain ⟨silent,written⟩ := perform_write write own (s.cluster.servers server)
  refine ⟨fun packet' handler there => ?_,by simpa [row] using written,listened_stay silent⟩
  simp only [listened_listening,Function.update_self,Option.some.injEq,Listening.mk.injEq] at there
  exact there.2 ▸ quiet

/-- and its find, which decides whether there is one. -/
theorem listen_find {update : FlagUpdate} {packet : Packet} {after : Handler Unit} (quiet : Quiet after)
    (busy : s.listening server = some ⟨packet,update.handler key >>= fun _ => after⟩)
    (move : Listeners.step settings (.listen server sent) s = some t) :
    (match update.write key (row s server key) with
      | some access => Pending t server access
      | none => Calm t server) ∧ CallsStay s t := by
  have made := listen_make busy move
  have next : t.listening server = some ⟨packet,(match update.write key (row s server key) with
      | some access => make access
      | none => pure ()) >>= fun _ => after⟩ := by
    rw [made]
    exact Function.update_self ..
  refine ⟨?_,made ▸ listened_stay rfl⟩
  cases write : update.write key (row s server key) with
  | some access =>
    rw [write] at next
    exact ⟨packet,after,quiet,next⟩
  | none =>
    rw [write] at next
    intro packet' handler there
    cases next.symm.trans there
    exact quiet

/-- The save of the client, -/
theorem thread_save (saving : ∃ call, s.cluster.calls i = some call ∧ call.server = server ∧ Saves call dataDto)
    (move : Listeners.step settings (.thread i .go) s = some t) :
    t.listening = s.listening ∧ row t server dataDto.key = some (.ofDto dataDto) ∧
      ∃ call, t.cluster.calls i = some call ∧ call.server = server ∧ Past call.pc := by
  obtain ⟨call,found,rfl,saves⟩ := saving
  obtain ⟨running,effect,pc,found',nexts,rfl⟩ := step_thread move
  cases found.symm.trans found'
  obtain ⟨rfl,past⟩ := move_save (next_move nexts) saves
  refine ⟨rfl,?_,call.goto pc,Function.update_self ..,rfl,past⟩
  simp [row,Effect.apply,LeaderManager.save,Database.findById_save]

/-- and what it does after it. -/
theorem thread_past (key : String) {choice : Choice} (past : ∃ call, s.cluster.calls i = some call ∧ call.server = server ∧ Past call.pc)
    (move : Listeners.step settings (.thread i choice) s = some t) :
    t.listening = s.listening ∧ row t server key = row s server key ∧
      ∃ call, t.cluster.calls i = some call ∧ call.server = server ∧ Past call.pc := by
  obtain ⟨call,found,rfl,past⟩ := past
  obtain ⟨running,effect,pc,found',nexts,rfl⟩ := step_thread move
  cases found.symm.trans found'
  obtain ⟨later,kept⟩ := move_past (next_move nexts) past i (s.cluster.servers call.server)
  refine ⟨rfl,?_,call.goto pc,Function.update_self ..,rfl,later⟩
  simp [row,kept]

end

section
variable {settings : Settings} {update : FlagUpdate} {key data : String} {server : SpreadGroup} {i : Nat} {s t u : Threads}

/-- The client has saved, and the listener thread will not touch the row. -/
structure Settled (server : SpreadGroup) (i : Nat) (key : String) (stored : Option DataEntity) (s : Threads) : Prop where
  calm : Calm s server
  row : row s server key = stored
  past : ∃ call, s.cluster.calls i = some call ∧ call.server = server ∧ Past call.pc

theorem Settled.step {stored : Option DataEntity} (settled : Settled server i key stored s) {event : Event} (two : Two server i s event)
    (move : Listeners.step settings event s = some t) : Settled server i key stored t := by
  cases event with
  | listen other sent =>
    obtain rfl := two
    obtain ⟨calm,same,stay⟩ := listen_calm key settled.calm move
    obtain ⟨call,found,here,past⟩ := settled.past
    obtain ⟨later,now,at_server,pc,_⟩ := stay i call found
    exact ⟨calm,same.trans settled.row,later,now,at_server.trans here,pc ▸ past⟩
  | thread j choice =>
    obtain rfl := two
    obtain ⟨listening,same,past⟩ := thread_past key settled.past move
    exact ⟨fun packet handler busy => settled.calm packet handler (listening ▸ busy),same.trans settled.row,past⟩
  | _ => exact absurd two id

/-- The client has saved, and the listener thread still has its write before it. -/
structure Due (server : SpreadGroup) (i : Nat) (access : Access Unit) (s : Threads) : Prop where
  pending : Pending s server access
  past : ∃ call, s.cluster.calls i = some call ∧ call.server = server ∧ Past call.pc

theorem Due.step {found : DataEntity} {access : Access Unit} (write : update.write key (some found) = some access)
    (own : found.key = key) (due : Due server i access s) {event : Event} (two : Two server i s event)
    (move : Listeners.step settings event s = some t) :
    Due server i access t ∨ Settled server i key (update.written found) t := by
  cases event with
  | listen other sent =>
    obtain rfl := two
    obtain ⟨calm,written,stay⟩ := listen_pending write own due.pending move
    obtain ⟨call,was,here,past⟩ := due.past
    obtain ⟨later,now,at_server,pc,_⟩ := stay i call was
    exact .inr ⟨calm,written,later,now,at_server.trans here,pc ▸ past⟩
  | thread j choice =>
    obtain rfl := two
    obtain ⟨listening,_,past⟩ := thread_past key due.past move
    exact .inl ⟨by simpa only [Pending,listening] using due.pending,past⟩
  | _ => exact absurd two id

theorem run_settled {stored : Option DataEntity} {events : List Event} (settled : Settled server i key stored s)
    (run : Run (Restrict (Two server i) (Runs.Steps (Listeners.step settings))) s events t) : Settled server i key stored t :=
  run.always (P := Settled server i key stored) settled fun _ _ _ settled move => settled.step move.1 move.2

theorem run_due {found : DataEntity} {access : Access Unit} {events : List Event}
    (write : update.write key (some found) = some access) (own : found.key = key) (due : Due server i access s)
    (run : Run (Restrict (Two server i) (Runs.Steps (Listeners.step settings))) s events t) :
    Due server i access t ∨ Settled server i key (update.written found) t :=
  run.always (P := fun s => Due server i access s ∨ Settled server i key (update.written found) s) (.inl due)
    fun _ _ _ stands move => stands.elim (fun due => due.step write own move.1 move.2) fun settled => .inr (settled.step move.1 move.2)

/-- Where the listener thread can stand after `n` accesses, before the client saves. -/
def Before (update : FlagUpdate) (key : String) (stored : Option DataEntity) (server : SpreadGroup) (n : Nat) (s : Threads) : Prop :=
  match update.write key stored with
  | some access => if n = 1 then Pending s server access else Calm s server
  | none => Calm s server

/-- The accesses of the listener thread before the save. -/
theorem run_before {listens : List Bool} {dataDto : DataDto}
    (busy : ∃ packet after, Quiet after ∧ s.listening server = some ⟨packet,update.handler key >>= fun _ => after⟩)
    (saving : ∃ call, s.cluster.calls i = some call ∧ call.server = server ∧ Saves call dataDto)
    (run : Run (Restrict (Two server i) (Runs.Steps (Listeners.step settings))) s (listens.map (Event.listen server)) t)
    (begun : listens ≠ []) : Before update key (row s server key) server listens.length t ∧
      ∃ call, t.cluster.calls i = some call ∧ call.server = server ∧ Saves call dataDto := by
  induction listens using List.reverseRecOn generalizing t with
  | nil => exact absurd rfl begun
  | append_singleton front sent ih =>
    rw [List.map_append] at run
    obtain ⟨u,first,_,move⟩ := run.snoc
    have own (found : DataEntity) (stored : row s server key = some found) : found.key = key := Database.findById_key stored
    have stays (saving : ∃ call, u.cluster.calls i = some call ∧ call.server = server ∧ Saves call dataDto) (stay : CallsStay u t) :
        ∃ call, t.cluster.calls i = some call ∧ call.server = server ∧ Saves call dataDto := by
      obtain ⟨call,found,here,saves⟩ := saving
      obtain ⟨later,now,at_server,_,kept⟩ := stay i call found
      exact ⟨later,now,at_server.trans here,kept dataDto saves⟩
    rcases List.eq_nil_or_concat front with rfl | ⟨early,last,split⟩
    · obtain rfl := first.nil
      obtain ⟨packet,after,quiet,at_find⟩ := busy
      obtain ⟨next,stay⟩ := listen_find quiet at_find move
      refine ⟨?_,stays saving stay⟩
      unfold Before
      split at next <;> simpa using next
    · have more : front ≠ [] := by simp [split]
      obtain ⟨before,saves⟩ := ih first more
      have longer : (front ++ [sent]).length ≠ 1 := by simpa using more
      unfold Before at before ⊢
      cases write : update.write key (row s server key) with
      | none =>
        simp only [write] at before
        obtain ⟨calm,_,stay⟩ := listen_calm key before move
        exact ⟨calm,stays saves stay⟩
      | some access =>
        simp only [write] at before
        simp only [if_neg longer]
        split_ifs at before
        · cases stored : row s server key with
          | none =>
            rw [stored] at write
            cases write
          | some found =>
            rw [stored] at write
            obtain ⟨calm,_,stay⟩ := listen_pending write (own found stored) before move
            exact ⟨calm,stays saves stay⟩
        · obtain ⟨calm,_,stay⟩ := listen_calm key before move
          exact ⟨calm,stays saves stay⟩

/-- A save between the find and the end of the handler is kept exactly when it comes
    after the write, nothing is written, or the row is written back with the same value. -/
theorem save_kept_iff {listens : List Bool} {back : List Event}
    (interleaved : Interleaved settings update key data server i s listens back t) (found : listens ≠ []) :
    (row t server key).map DataEntity.data = some data ↔ 2 ≤ listens.length ∨ update.write key (row s server key) = none ∨
      update ≠ .deleteIfExistsAndIsInvalidated ∧ (row s server key).map DataEntity.data = some data := by
  obtain ⟨busy,saving,run,finished⟩ := interleaved
  obtain ⟨u,first,rest⟩ := run.split
  rw [← List.singleton_append] at rest
  obtain ⟨w,single,last⟩ := rest.split
  have save := single.one.2
  obtain ⟨before,saves⟩ := run_before busy saving first found
  obtain ⟨listening,saved,past⟩ := thread_save saves save
  -- where the listener thread is calm when the client saves, the row is left alone
  have kept (calm : Calm u server) : (row t server key).map DataEntity.data = some data := by
    have settled : Settled server i key (some (.ofDto ⟨key,data⟩)) w :=
      ⟨fun packet handler there => calm packet handler (listening ▸ there),saved,past⟩
    rw [(run_settled settled last).row]
    rfl
  have begun : 1 ≤ listens.length := List.length_pos_iff.mpr found
  unfold Before at before
  cases stored : row s server key with
  | none =>
    rw [stored] at before
    simp [kept before,FlagUpdate.write]
  | some entity =>
    have own : entity.key = key := Database.findById_key stored
    rw [stored] at before
    cases write : update.write key (some entity) with
    | none =>
      simp only [write] at before
      simp [kept before]
    | some access =>
      simp only [write] at before
      split_ifs at before with one
      · -- the write is still to come, and whatever was saved goes
        have due : Due server i access w := ⟨by simpa only [Pending,listening] using before,past⟩
        rcases run_due write own due last with pending | settled
        · obtain ⟨packet,after,_,there⟩ := pending.pending
          cases finished.symm.trans there
        · rw [settled.row]
          cases update <;> simp [FlagUpdate.written,one]
      · have two : 2 ≤ listens.length := by omega
        simp [kept before,two]

end

/-- The row that the handler finds. -/
def held : DataEntity := ⟨"k",some true,"old"⟩

/-- Server 1 is about to update a row, and its call 0 to save it. -/
def halfway (update : FlagUpdate) : Threads where
  cluster :=
    { members := Keys.pair.members
      servers := fun _ => { Handlers.LeaderManager.initial (Database.save ∅ held) with numberOfParticipants := 3 }
      calls := Function.update (fun _ => none) 0
        (some { Call.start false Keys.server1 (.write ⟨"k","new"⟩) with pc := .saveData .conflictWon })
      network := 0 }
  listening := Function.update (fun _ => none) Keys.server1
    (some ⟨⟨Keys.server1,Keys.server2,.regular (.revalidateData "k"),none⟩,update.handler "k" >>= fun _ => pure ()⟩)

theorem halfway_busy (update : FlagUpdate) : ∃ packet after, Quiet after ∧
    (halfway update).listening Keys.server1 = some ⟨packet,update.handler "k" >>= fun _ => after⟩ :=
  ⟨⟨Keys.server1,Keys.server2,.regular (.revalidateData "k"),none⟩,pure (),.inl rfl,rfl⟩

theorem halfway_saving (update : FlagUpdate) : ∃ call, (halfway update).cluster.calls 0 = some call ∧
    call.server = Keys.server1 ∧ Saves call ⟨"k","new"⟩ :=
  ⟨{ Call.start false Keys.server1 (.write ⟨"k","new"⟩) with pc := .saveData .conflictWon },rfl,rfl,.inl ⟨trivial,rfl⟩⟩

/-- Where the save comes at the end of the handler it is kept. -/
theorem save_kept_late : ∃ t, Interleaved .properties .revalidateData "k" "new" Keys.server1 0 (halfway .revalidateData)
      [true,true] [.listen Keys.server1 true] t ∧
    ((row t Keys.server1 "k").map DataEntity.data = some "new" ↔ 2 ≤ [true,true].length ∨
      FlagUpdate.revalidateData.write "k" (row (halfway .revalidateData) Keys.server1 "k") = none ∨
      FlagUpdate.revalidateData ≠ .deleteIfExistsAndIsInvalidated ∧
        (row (halfway .revalidateData) Keys.server1 "k").map DataEntity.data = some "new") := by
  obtain ⟨t,run,done⟩ := exists_run_of_exec (Listeners.step .properties) (Two Keys.server1 0)
    (fun t => (t.listening Keys.server1).isNone = true) (halfway .revalidateData)
    ([true,true].map (Event.listen Keys.server1) ++ .thread 0 .go :: [.listen Keys.server1 true]) (by decide)
  have interleaved : Interleaved .properties .revalidateData "k" "new" Keys.server1 0 (halfway .revalidateData) [true,true]
      [.listen Keys.server1 true] t :=
    ⟨halfway_busy _,halfway_saving _,run,Option.isNone_iff_eq_none.mp done⟩
  exact ⟨t,interleaved,save_kept_iff interleaved (List.cons_ne_nil _ _)⟩

/-- Where it comes between the find and the write, the old value comes back. -/
theorem save_undone :
    ¬ ∀ (settings : Settings) (update : FlagUpdate) (key data : String) (server : SpreadGroup) (i : Nat) (s t : Threads)
      (listens : List Bool) (back : List Event), Interleaved settings update key data server i s listens back t → listens ≠ [] →
      (row t server key).map DataEntity.data = some data := by
  intro kept
  obtain ⟨t,run,done,old⟩ := exists_run_of_exec (Listeners.step .properties) (Two Keys.server1 0)
    (fun t => (t.listening Keys.server1).isNone = true ∧ (row t Keys.server1 "k").map DataEntity.data = some "old")
    (halfway .revalidateData) ([true].map (Event.listen Keys.server1) ++ .thread 0 .go :: List.replicate 2 (.listen Keys.server1 true))
    (by decide)
  have interleaved : Interleaved .properties .revalidateData "k" "new" Keys.server1 0 (halfway .revalidateData) [true]
      (List.replicate 2 (.listen Keys.server1 true)) t :=
    ⟨halfway_busy _,halfway_saving _,run,Option.isNone_iff_eq_none.mp done⟩
  have new := kept _ _ _ _ _ _ _ _ _ _ interleaved (List.cons_ne_nil _ _)
  rw [old] at new
  exact absurd new (by decide)

end CdPraticas.FlagUpdates
