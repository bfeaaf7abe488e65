import ScriptHost.Proofs.World.Ledger

/-!
# Events by which another thread ends a handle

Another thread ends a handle by an event that it posts to the owner. Most code adds events or serves
those that have nothing to do with the end of a handle, so such an event stays on the agenda of its
thread until it is served. Much of this code has nothing to do with timers, idle handlers and loops
either.
-/

namespace ScriptHost

namespace Agenda

variable {a a' : Agenda Event Handler} {work : Work Event Handler}

/-- Whether work is an event by which another thread ends a handle. -/
def Work.isForeign : Work Event Handler → Bool
  | .event posted => !posted.isLocal
  | _ => false

/-- Events for the end of a handle stay when other work is taken off. -/
theorem mem_events_of_next_of_not_foreign {flags : EventFlags} {now : Time}
    (h : a.next? flags now = some (work, a')) (hwork : work.isForeign = false) {event : Event}
    (hevent : event.isLocal = false) (hmem : event ∈ a.events) : event ∈ a'.events := by
  rcases next?_cases h with hpop | hpop | hpop
  · obtain ⟨first, rest, hevents, rfl, rfl⟩ := popEvent?_eq_some hpop
    rw [hevents, List.mem_cons] at hmem
    rcases hmem with rfl | hrest
    · simp [Work.isForeign, hevent] at hwork
    · exact hrest
  · obtain ⟨_, _, -, -, -, rfl⟩ := popTimer?_eq_some hpop
    exact hmem
  · obtain ⟨_, _, _, -, -, rfl⟩ := popIdle?_eq_some hpop
    exact hmem

theorem popEvent_of_next {flags : EventFlags} {now : Time} {event : Event}
    (h : a.next? flags now = some (.event event, a')) : a.popEvent? = some (.event event, a') := by
  rcases next?_cases h with hpop | hpop | hpop
  · exact hpop
  · obtain ⟨_, _, -, -, hwork, -⟩ := popTimer?_eq_some hpop
    cases hwork
  · obtain ⟨_, _, _, -, hwork, -⟩ := popIdle?_eq_some hpop
    cases hwork

/-- Events come before all other work. -/
theorem next?_of_event {event : Event} {rest : List Event} (h : a.events = event :: rest)
    (now : Time) : a.next? .all now = some (.event event,
      { a with events := rest, record := .served event :: a.record }) := by
  have hpop : a.popEvent? = some (.event event,
      { a with events := rest, record := .served event :: a.record }) := by
    rw [popEvent?, h]
  rw [next?, hpop]
  rfl

theorem events_of_popEvent {event : Event} (h : a.popEvent? = some (.event event, a')) :
    a.events = event :: a'.events := by
  obtain ⟨_, _, hevents, hwork, rfl⟩ := popEvent?_eq_some h
  cases hwork
  exact hevents

theorem mem_events_of_popEvent {event : Event} (h : a.popEvent? = some (.event event, a')) :
    event ∈ a.events := by
  rw [events_of_popEvent h]
  exact List.mem_cons_self

end Agenda

/-- How far a loop is, whether its timer may be armed, and its timer. -/
def Loop.watch (loop : Loop) : LoopPhase × Bool × Option Token :=
  (loop.phase, loop.active, loop.token)

/-- Whether what happens is that a command begins. -/
def Occurrence.isCommand : Occurrence → Bool
  | .invoked .. => true
  | _ => false

namespace World

variable {w w' w'' : World} {t : ThreadId}

/-- No command begins. -/
def Silent (w w' : World) : Prop :=
  ∃ new, w'.trace = new ++ w.trace ∧ ∀ incident ∈ new, incident.what.isCommand = false

theorem Silent.of_trace_eq (h : w'.trace = w.trace) : Silent w w' :=
  ⟨[], h, nofun⟩

theorem Silent.trans (h : Silent w w') (h' : Silent w' w'') : Silent w w'' := by
  obtain ⟨new, hnew, hcommand⟩ := h
  obtain ⟨new', hnew', hcommand'⟩ := h'
  refine ⟨new' ++ new, by rw [hnew', hnew, List.append_assoc], fun incident hmem => ?_⟩
  exact (List.mem_append.1 hmem).elim (hcommand' incident) (hcommand incident)

theorem Silent.record (w : World) {what : Occurrence} (hwhat : what.isCommand = false) :
    Silent w (w.record what) := by
  refine ⟨[⟨w.current, what⟩], rfl, fun incident hmem => ?_⟩
  cases List.mem_singleton.1 hmem
  exact hwhat

/-- No event is lost by which a thread is to learn of the end of a handle, no thread is made and no
command begins. -/
structure Retains (w w' : World) : Prop where
  events : ∀ t event, event.isLocal = false → event ∈ (w.agendaOf t).events →
    event ∈ (w'.agendaOf t).events
  nextThread : w'.nextThread = w.nextThread
  silent : Silent w w'

theorem Retains.of_agendaOf_eq (h : ∀ t, (w'.agendaOf t).events = (w.agendaOf t).events)
    (hnext : w'.nextThread = w.nextThread) (htrace : w'.trace = w.trace) : Retains w w' := by
  refine ⟨fun t event _ hmem => ?_, hnext, .of_trace_eq htrace⟩
  rwa [h]

theorem Retains.of_threads_eq (h : w'.threads = w.threads) (hnext : w'.nextThread = w.nextThread)
    (htrace : w'.trace = w.trace) : Retains w w' := by
  refine .of_agendaOf_eq (fun t => ?_) hnext htrace
  rw [agendaOf, h, agendaOf]

theorem Retains.refl (w : World) : Retains w w :=
  .of_threads_eq rfl rfl rfl

theorem Retains.trans (h : Retains w w') (h' : Retains w' w'') : Retains w w'' where
  events t event hevent hmem := h'.events t event hevent (h.events t event hevent hmem)
  nextThread := h'.nextThread.trans h.nextThread
  silent := h.silent.trans h'.silent

/-! ### Agendas of threads -/

theorem isRegistered_of_get? {thread : Thread} (h : w.threads.get? t = some thread) :
    w.isRegistered t = true := by
  rw [isRegistered, Table.contains, h, Option.isSome_some]

theorem isRegistered_newThread (w : World) : w.newThread.2.isRegistered w.nextThread = true := by
  have hget : w.newThread.2.threads.get? w.nextThread = some {} :=
    (Table.get?_insert w.threads w.nextThread w.nextThread {}).trans (if_pos rfl)
  exact isRegistered_of_get? hget

theorem isRegistered_modifyThread (w : World) (t t' : ThreadId) (f : Thread → Thread) :
    (w.modifyThread t f).isRegistered t' = w.isRegistered t' := by
  have hget : (w.modifyThread t f).threads.get? t' =
      if t = t' then (w.threads.get? t').map f else w.threads.get? t' :=
    Table.get?_modify w.threads t t' f
  rw [isRegistered, Table.contains, hget, isRegistered, Table.contains]
  split <;> simp

theorem isRegistered_setAgenda (w : World) (a : Agenda Event Handler) (t : ThreadId) :
    (w.setAgenda a).isRegistered t = w.isRegistered t :=
  isRegistered_modifyThread w w.current t _

theorem agendaOf_modifyThread (w : World) (t t' : ThreadId) (f : Thread → Thread) :
    (w.modifyThread t f).agendaOf t' =
      if t = t' then ((w.threads.get? t').map fun thread => (f thread).agenda).getD {}
      else w.agendaOf t' := by
  have hget : (w.modifyThread t f).threads.get? t' =
      if t = t' then (w.threads.get? t').map f else w.threads.get? t' :=
    Table.get?_modify w.threads t t' f
  rw [agendaOf, hget]
  split
  · rw [Option.map_map]
    rfl
  · rfl

/-- A change of a thread that leaves its events alone leaves all events alone. -/
theorem events_modifyThread {f : Thread → Thread}
    (hf : ∀ thread, w.threads.get? t = some thread →
      (f thread).agenda.events = thread.agenda.events) (t' : ThreadId) :
    ((w.modifyThread t f).agendaOf t').events = (w.agendaOf t').events := by
  rw [agendaOf_modifyThread]
  split
  · next ht =>
    subst ht
    rw [agendaOf]
    cases hthread : w.threads.get? t with
    | none => rfl
    | some thread => exact hf thread hthread
  · rfl

theorem events_alert (w : World) (t t' : ThreadId) :
    ((w.alert t).agendaOf t').events = (w.agendaOf t').events := by
  apply events_modifyThread
  intro _ _
  rfl

theorem isRegistered_post (w : World) (t t' : ThreadId) (event : Event) :
    (w.post t event).isRegistered t' = w.isRegistered t' :=
  (isRegistered_modifyThread _ t t' _).trans (isRegistered_modifyThread w t t' _)

/-- An event for a thread comes after those that it has. -/
theorem events_post_self (ht : w.isRegistered t = true) (posted : Event) :
    ((w.post t posted).agendaOf t).events = (w.agendaOf t).events ++ [posted] := by
  obtain ⟨thread, hthread⟩ := Option.isSome_iff_exists.1 ht
  rw [post, events_alert, modifyAgenda, agendaOf_modifyThread, if_pos rfl, agendaOf, hthread]
  rfl

theorem events_setAgenda {a : Agenda Event Handler} (ha : a.events = w.agenda.events)
    (t : ThreadId) : ((w.setAgenda a).agendaOf t).events = (w.agendaOf t).events := by
  refine events_modifyThread (fun thread hthread => ?_) t
  rw [agenda_eq_of_get? hthread] at ha
  exact ha

theorem retains_modifyThread {f : Thread → Thread}
    (hf : ∀ thread, w.threads.get? t = some thread → ∀ event, event.isLocal = false →
      event ∈ thread.agenda.events → event ∈ (f thread).agenda.events) :
    Retains w (w.modifyThread t f) := by
  refine ⟨fun t' event hevent hmem => ?_, rfl, .of_trace_eq rfl⟩
  rw [agendaOf_modifyThread]
  split
  · next ht =>
    subst ht
    rw [agendaOf] at hmem
    cases hthread : w.threads.get? t with
    | none =>
      rw [hthread] at hmem
      exact hmem
    | some thread =>
      rw [hthread] at hmem
      exact hf thread hthread event hevent hmem
  · exact hmem

theorem retains_setAgenda {a : Agenda Event Handler}
    (ha : ∀ event, event.isLocal = false → event ∈ w.agenda.events → event ∈ a.events) :
    Retains w (w.setAgenda a) := by
  refine retains_modifyThread fun thread hthread => ?_
  rw [agenda_eq_of_get? hthread] at ha
  exact ha

theorem retains_cancelAfter (w : World) (token : AfterToken) : Retains w (w.cancelAfter token) := by
  cases token with
  | timer token =>
    refine .of_agendaOf_eq (events_setAgenda ?_) rfl rfl
    rw [Agenda.cancelTimer]
    split <;> rfl
  | idle token => exact .of_agendaOf_eq (events_setAgenda rfl) rfl rfl

theorem retains_armKeepalive (w : World) (l : LoopId) : Retains w (w.armKeepalive l) := by
  rcases armKeepalive_cases w l with hforgets | ⟨_, deadline, -, -, hadds⟩
  · rw [hforgets]
    exact .of_threads_eq rfl rfl rfl
  · rw [hadds]
    exact .of_agendaOf_eq (events_setAgenda rfl) rfl rfl

theorem retains_ensureArmed (w : World) (l : LoopId) : Retains w (w.ensureArmed l) := by
  rw [ensureArmed]
  split
  · exact .refl w
  · exact retains_armKeepalive w l

theorem retains_stopKeepalive (w : World) (l : LoopId) : Retains w (w.stopKeepalive l) := by
  have hforget : Retains w (w.modifyLoop l fun loop => { loop with active := false, token := none }) :=
    .of_threads_eq rfl rfl rfl
  rcases stopKeepalive_cases w l with hforgets | ⟨_, token, -, -, hcancels⟩
  · rwa [hforgets]
  · rw [hcancels]
    exact hforget.trans (retains_cancelAfter _ (.timer token))

/-! ### What leaves timers, idle handlers and loops alone -/

theorem get?_modifyLoop (w : World) (l l' : LoopId) (f : Loop → Loop) :
    (w.modifyLoop l f).loops.get? l' = if l = l' then (w.loops.get? l').map f else w.loops.get? l' :=
  Table.get?_modify w.loops l l' f

/-- Besides, no timer and no idle handler is added or removed on any thread, and no loop is made, has
its timer changed or goes on to another phase. -/
structure Still (w w' : World) : Prop extends Retains w w' where
  slots : ∀ t, (w'.agendaOf t).slots = (w.agendaOf t).slots
  watch : ∀ l, (w'.loops.get? l).map Loop.watch = (w.loops.get? l).map Loop.watch
  nextLoop : w'.nextLoop = w.nextLoop

/-- The threads, the loops, the ids of the next ones, and what happened. -/
def scenery (w : World) :=
  (w.threads, w.loops, w.nextThread, w.nextLoop, w.trace)

theorem Still.of_scenery_eq (h : w'.scenery = w.scenery) : Still w w' := by
  simp only [scenery, Prod.mk.injEq] at h
  obtain ⟨hthreads, hloops, hnext, hnextLoop, htrace⟩ := h
  refine ⟨.of_threads_eq hthreads hnext htrace, fun t => ?_, fun l => ?_, hnextLoop⟩
  · rw [agendaOf, hthreads, agendaOf]
  · rw [hloops]

theorem Still.refl (w : World) : Still w w :=
  .of_scenery_eq rfl

theorem Still.trans (h : Still w w') (h' : Still w' w'') : Still w w'' where
  toRetains := h.toRetains.trans h'.toRetains
  slots t := (h'.slots t).trans (h.slots t)
  watch l := (h'.watch l).trans (h.watch l)
  nextLoop := h'.nextLoop.trans h.nextLoop

theorem Still.foldl {α : Type} {f : World → α → World} (hf : ∀ w a, Still w (f w a))
    (as : List α) (w : World) : Still w (as.foldl f w) := by
  induction as generalizing w with
  | nil => exact .refl w
  | cons a as ih => exact (hf w a).trans (ih (f w a))

/-- Something that is no command is noted. -/
theorem still_record (w : World) {what : Occurrence} (hwhat : what.isCommand = false) :
    Still w (w.record what) :=
  ⟨⟨fun _ _ _ hmem => hmem, rfl, .record w hwhat⟩, fun _ => rfl, fun _ => rfl, rfl⟩

/-- A thread changes, but its agenda at most gets more events. -/
theorem still_modifyThread {f : Thread → Thread} (hf : ∀ thread : Thread,
    (f thread).agenda.slots = thread.agenda.slots ∧
      thread.agenda.events ⊆ (f thread).agenda.events) (w : World) (t : ThreadId) :
    Still w (w.modifyThread t f) := by
  refine ⟨retains_modifyThread fun thread _ event _ hmem => (hf thread).2 hmem, fun t' => ?_,
    fun _ => rfl, rfl⟩
  rw [agendaOf_modifyThread]
  split
  · next ht =>
    subst ht
    rw [agendaOf]
    cases w.threads.get? t with
    | none => rfl
    | some thread => exact (hf thread).1
  · rfl

theorem still_alert (w : World) (t : ThreadId) : Still w (w.alert t) := by
  apply still_modifyThread
  intro thread
  exact ⟨rfl, List.Subset.refl _⟩

theorem still_alertAll (w : World) : Still w w.alertAll :=
  .foldl still_alert _ w

/-- An event for a thread that ended is dropped. -/
theorem post_of_absent (h : w.threads.get? t = none) (event : Event) : w.post t event = w := by
  rw [post, alert, modifyAgenda, modifyAgenda, modifyThread_of_absent h, modifyThread_of_absent h]

theorem still_post (w : World) (t : ThreadId) (event : Event) : Still w (w.post t event) := by
  refine .trans ?_ (still_alert _ t)
  apply still_modifyThread
  intro thread
  exact ⟨rfl, List.subset_append_left _ _⟩

theorem still_enterCallback (w : World) : Still w w.enterCallback := by
  apply still_modifyThread
  intro thread
  exact ⟨rfl, List.Subset.refl _⟩

theorem still_leaveCallback (w : World) : Still w w.leaveCallback := by
  apply still_modifyThread
  intro thread
  exact ⟨rfl, List.Subset.refl _⟩

theorem still_countAsk (w : World) (l : LoopId) : Still w (w.countAsk l) := by
  refine ⟨.of_threads_eq rfl rfl rfl, fun _ => rfl, fun l' => ?_, rfl⟩
  rw [countAsk, get?_modifyLoop]
  split
  · rw [Option.map_map]
    rfl
  · rfl

/-! ### Work -/

theorem still_answerQueued (w : World) (queued : Queued) (envelope : Envelope) :
    Still w (w.answerQueued queued envelope) := by
  rw [answerQueued]
  split <;> exact .of_scenery_eq rfl

theorem still_loseReplies (w : World) (pending : List Queued) :
    Still w (w.loseReplies pending) := by
  refine .foldl (fun w queued => ?_) _ w
  split <;> exact .of_scenery_eq rfl

theorem still_drainMailbox (w : World) (h : HandleId) (error : HostError) :
    Still w (w.drainMailbox h error) := by
  rw [drainMailbox]
  split
  · exact .refl w
  · next handle _ =>
    have hempty : Still w
        (w.modifyHandle h fun r => { r with mailbox := handle.mailbox.drain.2 }) :=
      .of_scenery_eq rfl
    refine hempty.trans (.foldl (fun w queued => ?_) _ _)
    exact w.still_answerQueued queued _

theorem still_markDeleted (w : World) (h : HandleId) : Still w (w.markDeleted h) := by
  rw [markDeleted]
  split
  · exact .refl w
  · split
    · exact .refl w
    · have hmark : Still w
          ((w.modifyHandle h fun handle => { handle with deleted := true }).unregister h) :=
        .of_scenery_eq rfl
      have hdrain := hmark.trans (still_drainMailbox _ h .deleted)
      exact hdrain.trans (.of_scenery_eq rfl)

theorem still_submit (w : World) (h : HandleId) (work : Work) (reply : Option ReplyId) :
    Still w (w.submit h work reply).2 := by
  rw [submit]
  split
  · exact .refl w
  · split
    · exact .refl w
    · next handle _ =>
      have hpush : Still w (w.push h ⟨work, reply⟩) := .of_scenery_eq rfl
      dsimp only
      split
      · refine hpush.trans ((still_post _ handle.owner (.serve h)).trans ?_)
        dsimp only
        split
        · exact still_drainMailbox _ h _
        · exact .refl _
      · exact hpush.trans (still_drainMailbox _ h _)

end World

end ScriptHost
