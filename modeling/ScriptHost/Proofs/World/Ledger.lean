import ScriptHost.Proofs.World.Agendas
import ScriptHost.Proofs.World.Handles
import ScriptHost.Proofs.World.Interps

/-!
# What leaves the ledger alone

The ledger is the table of handles, as far as it says who holds a handle and which interpreter is
kept for it, together with the registry. Most of what the host does leaves both the ledger and the
interpreters alone, and the threads as they are apart from what the code of one thread puts onto
agendas.
-/

namespace ScriptHost

/-- What the ledger says about a handle. -/
structure Standing where
  owner : ThreadId
  deleted : Bool
  interp : Option InterpId
  pinned : Bool
  holders : Nat

/-- Whether anybody holds the handle. -/
def Standing.held (s : Standing) : Bool :=
  s.pinned || 0 < s.holders

/-- What the ledger says about a handle. -/
def Handle.standing (handle : Handle) : Standing :=
  ⟨handle.owner, handle.deleted, handle.interp, handle.pinned, handle.holders⟩

theorem Mailbox.queue_subset_of_pop? {m m' : Mailbox} {queued : Queued}
    (h : m.pop? = some (queued, m')) : m'.queue ⊆ m.queue := by
  unfold pop? at h
  split at h
  · cases h
  · next hqueue =>
    cases h
    rw [hqueue]
    exact List.subset_cons_self _ _

/-- The ledger says the same about a handle, and no work was put into its mailbox. -/
structure Handle.Rests (handle handle' : Handle) : Prop where
  standing : handle'.standing = handle.standing
  queue : handle'.mailbox.queue ⊆ handle.mailbox.queue

namespace World

variable {w w' w'' : World} {h k : HandleId} {queued : Queued}

/-- What the ledger says about a handle, if there is one. -/
def standing? (w : World) (h : HandleId) : Option Standing :=
  (w.handles.get? h).map Handle.standing

theorem standing?_of_get? {handle : Handle} (hhandle : w.handles.get? h = some handle) :
    w.standing? h = some handle.standing := by
  rw [standing?, hhandle]
  rfl

/-- Some work waits in the mailbox of a handle. -/
def Waits (w : World) (h : HandleId) (queued : Queued) : Prop :=
  ∃ handle, w.handles.get? h = some handle ∧ queued ∈ handle.mailbox.queue

theorem Waits.of_handles_eq (h' : w'.Waits h queued) (hhandles : w'.handles = w.handles) :
    w.Waits h queued := by
  rwa [Waits, hhandles] at h'

/-- All threads are passive. -/
def Passive (w : World) : Prop :=
  ∀ t thread, w.threads.get? t = some thread → thread.Passive

theorem standing?_modifyHandle (w : World) (h k : HandleId) (f : Handle → Handle) :
    (w.modifyHandle h f).standing? k =
      if h = k then (w.handles.get? k).map fun handle => (f handle).standing
      else w.standing? k := by
  rw [standing?, get?_modifyHandle]
  split
  · rw [Option.map_map]
    rfl
  · rfl

theorem Waits.of_modifyHandle {f : Handle → Handle} (h' : (w.modifyHandle h f).Waits k queued)
    (hf : ∀ handle, w.handles.get? h = some handle →
      (f handle).mailbox.queue ⊆ handle.mailbox.queue) : w.Waits k queued := by
  obtain ⟨handle', hhandle', hqueued⟩ := h'
  rw [get?_modifyHandle] at hhandle'
  split at hhandle'
  · next hk =>
    subst hk
    obtain ⟨handle, hhandle, rfl⟩ := Option.map_eq_some_iff.1 hhandle'
    exact ⟨handle, hhandle, hf handle hhandle hqueued⟩
  · exact ⟨handle', hhandle', hqueued⟩

/-- The threads are as they were, apart from what the code of one thread puts onto agendas. -/
def ThreadsRest (w w' : World) : Prop :=
  ∀ t, Option.Rel Thread.Rests (w.threads.get? t) (w'.threads.get? t)

theorem ThreadsRest.of_eq (h : w'.threads = w.threads) : ThreadsRest w w' := by
  intro t
  rw [h]
  cases w.threads.get? t with
  | none => exact .none
  | some thread => exact .some (.refl thread)

theorem ThreadsRest.trans (h : ThreadsRest w w') (h' : ThreadsRest w' w'') : ThreadsRest w w'' := by
  intro t
  have ht := h t
  have ht' := h' t
  revert ht ht'
  generalize w.threads.get? t = a, w'.threads.get? t = b, w''.threads.get? t = c
  rintro (hab | -) (hbc | -)
  · exact .some (hab.trans hbc)
  · exact .none

theorem ThreadsRest.passive (h : ThreadsRest w w') (hw : w.Passive) : w'.Passive := by
  intro t thread' hthread'
  have ht := h t
  rw [hthread'] at ht
  cases hthread : w.threads.get? t with
  | none =>
    rw [hthread] at ht
    cases ht
  | some thread =>
    rw [hthread] at ht
    cases ht with
    | some hrests => exact (hw t thread hthread).rests hrests

theorem ThreadsRest.isSome_eq (h : ThreadsRest w w') (t : ThreadId) :
    (w'.threads.get? t).isSome = (w.threads.get? t).isSome := by
  have ht := h t
  revert ht
  generalize w.threads.get? t = a, w'.threads.get? t = b
  rintro (- | -) <;> rfl

theorem ThreadsRest.agenda (h : ThreadsRest w w') (hcurrent : w'.current = w.current) :
    w.agenda.Rests w'.agenda := by
  have ht := h w.current
  unfold World.agenda agendaOf
  rw [hcurrent]
  revert ht
  generalize w.threads.get? w.current = a, w'.threads.get? w.current = b
  rintro (hrests | -)
  · exact hrests.agenda
  · exact .refl _

theorem agenda_eq_of_get? {thread : Thread} (h : w.threads.get? w.current = some thread) :
    w.agenda = thread.agenda := by
  rw [agenda, agendaOf, h]
  rfl

theorem modifyThread_of_absent {t : ThreadId} (h : w.threads.get? t = none) (f : Thread → Thread) :
    w.modifyThread t f = w := by
  rw [modifyThread, Table.modify_eq_self fun thread hthread => ?_]
  rw [h] at hthread
  cases hthread

/-- The interpreters and the ledger are the same, and the threads are as they were. -/
structure Stands (w w' : World) : Prop where
  interpreters : w'.interpreters = w.interpreters
  standing : ∀ h, w'.standing? h = w.standing? h
  keys : w'.handles.keys = w.handles.keys
  registry : w'.hub.registry = w.hub.registry
  nextHandle : w'.hub.nextHandle = w.hub.nextHandle
  current : w'.current = w.current
  threads : ThreadsRest w w'

/-- Besides, no work was put into any mailbox. -/
structure Rests (w w' : World) : Prop extends Stands w w' where
  waits : ∀ h queued, w'.Waits h queued → w.Waits h queued

/-- The tables that the interpreters, the ledger and the threads consist of. -/
def tables (w : World) :=
  (w.interpreters, w.handles, w.hub.registry, w.hub.nextHandle, w.current, w.threads)

theorem Rests.of_tables_eq (h : w'.tables = w.tables) : Rests w w' := by
  simp only [tables, Prod.mk.injEq] at h
  obtain ⟨hinterps, hhandles, hregistry, hnext, hcurrent, hthreads⟩ := h
  refine ⟨⟨hinterps, fun k => ?_, ?_, hregistry, hnext, hcurrent, .of_eq hthreads⟩, fun k q hq => ?_⟩
  · rw [standing?, hhandles, standing?]
  · rw [hhandles]
  · exact hq.of_handles_eq hhandles

theorem Rests.refl (w : World) : Rests w w :=
  .of_tables_eq rfl

theorem Stands.trans (h : Stands w w') (h' : Stands w' w'') : Stands w w'' where
  interpreters := h'.interpreters.trans h.interpreters
  standing k := (h'.standing k).trans (h.standing k)
  keys := h'.keys.trans h.keys
  registry := h'.registry.trans h.registry
  nextHandle := h'.nextHandle.trans h.nextHandle
  current := h'.current.trans h.current
  threads := h.threads.trans h'.threads

theorem Rests.trans (h : Rests w w') (h' : Rests w' w'') : Rests w w'' :=
  ⟨h.toStands.trans h'.toStands, fun k q hq => h.waits k q (h'.waits k q hq)⟩

theorem Rests.foldl {α : Type} {f : World → α → World} (hf : ∀ w a, Rests w (f w a))
    (as : List α) (w : World) : Rests w (as.foldl f w) := by
  induction as generalizing w with
  | nil => exact .refl w
  | cons a as ih => exact (hf w a).trans (ih (f w a))

/-! ### Handles -/

theorem stands_modifyHandle {f : Handle → Handle}
    (hf : ∀ handle, w.handles.get? h = some handle → (f handle).standing = handle.standing) :
    Stands w (w.modifyHandle h f) := by
  refine ⟨rfl, fun k => ?_, Table.keys_modify _ _ _, rfl, rfl, rfl, .of_eq rfl⟩
  rw [standing?_modifyHandle]
  split
  · next hk =>
    subst hk
    exact Option.map_congr fun handle hhandle => hf handle hhandle
  · rfl

theorem rests_modifyHandle {f : Handle → Handle}
    (hf : ∀ handle, w.handles.get? h = some handle → handle.Rests (f handle)) :
    Rests w (w.modifyHandle h f) :=
  ⟨stands_modifyHandle fun handle hhandle => (hf handle hhandle).standing,
    fun _ _ hq => hq.of_modifyHandle fun handle hhandle => (hf handle hhandle).queue⟩

theorem rests_startWork (w : World) (h : HandleId) : Rests w (w.startWork h) := by
  apply rests_modifyHandle
  intro handle _
  exact ⟨rfl, List.Subset.refl _⟩

theorem rests_finishWork (w : World) (h : HandleId) (failed : Bool) :
    Rests w (w.finishWork h failed) := by
  apply rests_modifyHandle
  intro handle _
  exact ⟨rfl, List.Subset.refl _⟩

/-! ### Replies -/

theorem rests_answerQueued (w : World) (queued : Queued) (envelope : Envelope) :
    Rests w (w.answerQueued queued envelope) := by
  rw [answerQueued]
  split
  · exact .of_tables_eq rfl
  · exact .refl w

theorem rests_loseReplies (w : World) (pending : List Queued) :
    Rests w (w.loseReplies pending) := by
  apply Rests.foldl
  intro w queued
  split
  · exact .of_tables_eq rfl
  · exact .refl w

theorem rests_drainMailbox (w : World) (h : HandleId) (error : HostError) :
    Rests w (w.drainMailbox h error) := by
  rw [drainMailbox]
  split
  · exact .refl w
  · next handle _ =>
    have hempty : Rests w (w.modifyHandle h fun r => { r with mailbox := handle.mailbox.drain.2 }) := by
      apply rests_modifyHandle
      intro handle _
      exact ⟨rfl, List.nil_subset _⟩
    refine hempty.trans (.foldl (fun w queued => ?_) _ _)
    exact rests_answerQueued w queued _

/-! ### Threads -/

theorem threadsRest_modifyThread {f : Thread → Thread} {t : ThreadId}
    (hf : ∀ thread, w.threads.get? t = some thread → thread.Rests (f thread)) :
    ThreadsRest w (w.modifyThread t f) := by
  intro t'
  have hget : (w.modifyThread t f).threads.get? t' =
      if t = t' then (w.threads.get? t').map f else w.threads.get? t' :=
    Table.get?_modify w.threads t t' f
  rw [hget]
  cases hthread : w.threads.get? t' with
  | none => split <;> exact .none
  | some thread =>
    split
    · next ht =>
      subst ht
      exact .some (hf thread hthread)
    · exact .some (.refl thread)

theorem rests_modifyThread {f : Thread → Thread} (hf : ∀ thread : Thread, thread.Rests (f thread))
    (w : World) (t : ThreadId) : Rests w (w.modifyThread t f) :=
  ⟨⟨rfl, fun _ => rfl, rfl, rfl, rfl, rfl, threadsRest_modifyThread fun thread _ => hf thread⟩,
    fun _ _ => id⟩

theorem rests_modifyAgenda {f : Agenda Event Handler → Agenda Event Handler}
    (hf : ∀ a : Agenda Event Handler, a.Rests (f a)) (w : World) (t : ThreadId) : Rests w (w.modifyAgenda t f) := by
  apply rests_modifyThread
  intro thread
  exact ⟨rfl, hf thread.agenda⟩

theorem threadsRest_setAgenda {a : Agenda Event Handler} (ha : w.agenda.Rests a) :
    ThreadsRest w (w.setAgenda a) := by
  apply threadsRest_modifyThread
  intro thread hthread
  rw [agenda_eq_of_get? hthread] at ha
  exact ⟨rfl, ha⟩

theorem rests_setAgenda {a : Agenda Event Handler} (ha : w.agenda.Rests a) :
    Rests w (w.setAgenda a) :=
  ⟨⟨rfl, fun _ => rfl, rfl, rfl, rfl, rfl, threadsRest_setAgenda ha⟩, fun _ _ => id⟩

theorem rests_alert (w : World) (t : ThreadId) : Rests w (w.alert t) :=
  rests_modifyAgenda Agenda.rests_alert w t

theorem rests_alertAll (w : World) : Rests w w.alertAll :=
  .foldl rests_alert _ w

theorem rests_post {event : Event} (hevent : event.isLocal = true) (w : World) (t : ThreadId) :
    Rests w (w.post t event) :=
  (rests_modifyAgenda (Agenda.rests_post hevent) w t).trans (rests_alert _ t)

theorem rests_addTimer (w : World) (deadline : Time) (handler : Handler) :
    Rests w (w.setAgenda (w.agenda.addTimer deadline handler).2) :=
  rests_setAgenda (Agenda.rests_addTimer _ deadline handler)

theorem rests_addIdle (w : World) (handler : Handler) :
    Rests w (w.setAgenda (w.agenda.addIdle handler).2) :=
  rests_setAgenda (Agenda.rests_addIdle _ handler)

theorem rests_cancelTimer (w : World) (token : Token) :
    Rests w (w.setAgenda (w.agenda.cancelTimer token).2) :=
  rests_setAgenda (Agenda.rests_cancelTimer _ token)

theorem rests_cancelAfter {token : AfterToken} (h : w.agenda.Harmless token) :
    Rests w (w.cancelAfter token) := by
  cases token with
  | timer token => exact rests_cancelTimer w token
  | idle token => exact rests_setAgenda (Agenda.rests_cancelIdle h.2)

theorem agenda_setAgenda (hhere : (w.threads.get? w.current).isSome = true)
    (a : Agenda Event Handler) : (w.setAgenda a).agenda = a := by
  obtain ⟨thread, hthread⟩ := Option.isSome_iff_exists.1 hhere
  have hget : (w.setAgenda a).threads.get? w.current = some { thread with agenda := a } := by
    refine (Table.get?_modify w.threads w.current w.current _).trans ?_
    rw [if_pos rfl, hthread, Option.map_some]
  exact agenda_eq_of_get? hget

/-- Put work into the mailbox of a handle. -/
def push (w : World) (h : HandleId) (queued : Queued) : World :=
  w.modifyHandle h fun handle => { handle with mailbox := handle.mailbox.push queued }

theorem stands_push (w : World) (h : HandleId) (queued : Queued) : Stands w (w.push h queued) := by
  apply stands_modifyHandle
  intro handle _
  rfl

theorem Waits.of_push {new : Queued} (h' : (w.push h new).Waits k queued) :
    w.Waits k queued ∨ h = k ∧ queued = new := by
  obtain ⟨handle', hhandle', hqueued⟩ := h'
  rw [push, get?_modifyHandle] at hhandle'
  split at hhandle'
  · next hk =>
    obtain ⟨handle, hhandle, rfl⟩ := Option.map_eq_some_iff.1 hhandle'
    rcases List.mem_append.1 hqueued with hold | hnew
    · exact .inl ⟨handle, hhandle, hold⟩
    · exact .inr ⟨hk, List.mem_singleton.1 hnew⟩
  · exact .inl ⟨handle', hhandle', hqueued⟩

/-- Work that is handed over goes into the mailbox of the handle, if it is accepted at all, and may be
thrown out again. -/
theorem submit_eq_or_rests (w : World) (h : HandleId) (work : Work) (reply : Option ReplyId) :
    (w.submit h work reply).2 = w ∨
      (w.push h ⟨work, reply⟩).Rests (w.submit h work reply).2 := by
  have hserve : (Event.serve h).isLocal = true := rfl
  rw [submit]
  split
  · exact .inl rfl
  · split
    · exact .inl rfl
    · next handle _ =>
      right
      dsimp only
      split
      · have hpost := rests_post hserve (w.push h ⟨work, reply⟩) handle.owner
        dsimp only
        split
        · exact hpost.trans (rests_drainMailbox _ h _)
        · exact hpost
      · exact rests_drainMailbox _ h _

theorem stands_submit (w : World) (h : HandleId) (work : Work) (reply : Option ReplyId) :
    Stands w (w.submit h work reply).2 := by
  rcases w.submit_eq_or_rests h work reply with heq | hrests
  · rw [heq]
    exact (Rests.refl w).toStands
  · exact (w.stands_push h _).trans hrests.toStands

theorem Waits.of_submit {work : Work} {reply : Option ReplyId}
    (h' : (w.submit h work reply).2.Waits k queued) :
    w.Waits k queued ∨ h = k ∧ queued = ⟨work, reply⟩ := by
  rcases w.submit_eq_or_rests h work reply with heq | hrests
  · rw [heq] at h'
    exact .inl h'
  · exact (hrests.waits k queued h').of_push

theorem rests_enterCallback (w : World) : Rests w w.enterCallback := by
  apply rests_modifyThread
  intro thread
  exact ⟨rfl, .refl _⟩

theorem rests_leaveCallback (w : World) : Rests w w.leaveCallback := by
  apply rests_modifyThread
  intro thread
  exact ⟨rfl, .refl _⟩

/-! ### Loops -/

theorem rests_modifyLoop (w : World) (l : LoopId) (f : Loop → Loop) : Rests w (w.modifyLoop l f) :=
  .of_tables_eq rfl

theorem rests_armKeepalive (w : World) (l : LoopId) : Rests w (w.armKeepalive l) := by
  rcases armKeepalive_cases w l with hforgets | ⟨_, deadline, -, -, hadds⟩
  · rw [hforgets]
    exact rests_modifyLoop w l _
  · rw [hadds]
    exact (rests_modifyLoop w l _).trans (rests_addTimer _ deadline _)

theorem rests_ensureArmed (w : World) (l : LoopId) : Rests w (w.ensureArmed l) := by
  rw [ensureArmed]
  split
  · exact .refl w
  · exact rests_armKeepalive w l

theorem rests_stopKeepalive (w : World) (l : LoopId) : Rests w (w.stopKeepalive l) := by
  rcases stopKeepalive_cases w l with hforgets | ⟨_, token, -, -, hcancels⟩
  · rw [hforgets]
    exact rests_modifyLoop w l _
  · rw [hcancels]
    exact (rests_modifyLoop w l _).trans (rests_cancelTimer _ token)

end World

end ScriptHost
