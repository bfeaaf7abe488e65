import ScriptHost.Proofs.Loop.Machine

/-!
# A loop has one timer

At every moment at most one timer of a loop is pending, on whatever thread. A loop that was stopped
while its timer was on the thread that stopped it is over: its timer is never armed again.
-/

namespace ScriptHost

/-! ### Agendas -/

namespace Agenda

variable {a a' a'' : Agenda Event Handler}

theorem Dwindles.of_slots_eq (h : a'.slots = a.slots) : a.Dwindles a' := by
  refine ⟨fun hsound => hsound.of_slots_eq h, fun timer htimer _ _ => ?_, fun entry hentry _ _ => ?_⟩
  · rwa [show a'.timers = a.timers from congrArg (·.1) h] at htimer
  · rwa [show a'.idle = a.idle from congrArg (·.2.2.1) h] at hentry

theorem Dwindles.trans (h : a.Dwindles a') (h' : a'.Dwindles a'') : a.Dwindles a'' where
  sound hsound := h'.sound (h.sound hsound)
  timers timer htimer l hl := h.timers timer (h'.timers timer htimer l hl) l hl
  idle entry hentry l hl := h.idle entry (h'.idle entry hentry l hl) l hl

/-- Nothing is left on an agenda. -/
theorem dwindles_empty (a : Agenda Event Handler) : a.Dwindles {} where
  sound _ := sound_empty
  timers _ h := absurd h List.not_mem_nil
  idle _ h := absurd h List.not_mem_nil

theorem dwindles_addTimer (a : Agenda Event Handler) (deadline : Time) {handler : Handler}
    (hhandler : handler.loop? = none) : a.Dwindles (a.addTimer deadline handler).2 := by
  refine ⟨fun hsound => hsound.addTimer deadline handler, fun timer htimer l hl => ?_,
    fun _ hentry _ _ => hentry⟩
  rcases mem_insertTimer.1 htimer with rfl | hold
  · cases hhandler.symm.trans hl
  · exact hold

theorem dwindles_addIdle (a : Agenda Event Handler) {handler : Handler}
    (hhandler : handler.loop? = none) : a.Dwindles (a.addIdle handler).2 := by
  refine ⟨fun hsound => hsound.addIdle handler, fun _ htimer _ _ => htimer, fun entry hentry l hl => ?_⟩
  rcases List.mem_append.1 hentry with hold | hnew
  · exact hold
  · cases List.mem_singleton.1 hnew
    cases hhandler.symm.trans hl

theorem dwindles_cancelTimer (a : Agenda Event Handler) (token : Token) :
    a.Dwindles (a.cancelTimer token).2 := by
  refine ⟨fun hsound => hsound.cancelTimer token, fun timer htimer _ _ => ?_,
    fun entry hentry _ _ => ?_⟩
  · rw [cancelTimer] at htimer
    split at htimer
    · exact htimer
    · exact (List.mem_filter.1 htimer).1
  · rw [cancelTimer] at hentry
    split at hentry <;> exact hentry

theorem dwindles_cancelIdle (a : Agenda Event Handler) (token : Token) :
    a.Dwindles (a.cancelIdle token).2 :=
  ⟨fun hsound => hsound.cancelIdle token, fun _ htimer _ _ => htimer,
    fun _ hentry _ _ => (List.mem_filter.1 hentry).1⟩

theorem dwindles_next? {work : Work Event Handler} {flags : EventFlags} {now : Time}
    (hnext : a.next? flags now = some (work, a')) : a.Dwindles a' := by
  refine ⟨fun hsound => hsound.next? hnext, fun timer htimer _ _ => ?_, fun entry hentry _ _ => ?_⟩
  · rcases next?_cases hnext with hpop | hpop | hpop
    · obtain ⟨_, _, -, -, rfl⟩ := popEvent?_eq_some hpop
      exact htimer
    · obtain ⟨_, _, htimers, -, -, rfl⟩ := popTimer?_eq_some hpop
      rw [htimers]
      exact List.mem_cons_of_mem _ htimer
    · obtain ⟨_, _, _, -, -, rfl⟩ := popIdle?_eq_some hpop
      exact htimer
  · rcases next?_cases hnext with hpop | hpop | hpop
    · obtain ⟨_, _, -, -, rfl⟩ := popEvent?_eq_some hpop
      exact hentry
    · obtain ⟨_, _, -, -, -, rfl⟩ := popTimer?_eq_some hpop
      exact hentry
    · obtain ⟨_, _, _, hidle, -, rfl⟩ := popIdle?_eq_some hpop
      rw [hidle]
      exact List.mem_cons_of_mem _ hentry

/-- A timer of a loop that is taken off is not pending any more. -/
theorem Sound.exists_of_loop (ha : a.Sound) (hidle : ∀ entry ∈ a.idle, entry.2.loop? = none)
    {work : Work Event Handler} {flags : EventFlags} {now : Time}
    (hnext : a.next? flags now = some (work, a')) {l : LoopId} (hloop : work.loop? = some l) :
    ∃ timer ∈ a.timers, timer.handler.loop? = some l ∧ timer ∉ a'.timers := by
  rcases next?_cases hnext with hpop | hpop | hpop
  · obtain ⟨_, _, -, rfl, -⟩ := popEvent?_eq_some hpop
    cases hloop
  · obtain ⟨timer, rest, htimers, -, rfl, rfl⟩ := popTimer?_eq_some hpop
    refine ⟨timer, htimers ▸ List.mem_cons_self, hloop, fun hmem => ?_⟩
    rw [ha.timers_tail htimers] at hmem
    exact absurd rfl (of_decide_eq_true (List.mem_filter.1 hmem).2)
  · obtain ⟨token, handler, rest, hentries, rfl, -⟩ := popIdle?_eq_some hpop
    have hnone := hidle (token, handler) (hentries ▸ List.mem_cons_self)
    cases hnone.symm.trans hloop

end Agenda

/-! ### Worlds in which no timer of a loop is added -/

namespace World

variable {w w' w'' : World} {t : ThreadId} {l : LoopId}

theorem mem_keepalives {timer : Timer Handler} :
    timer ∈ w.keepalives t l ↔ timer ∈ (w.agendaOf t).timers ∧ timer.handler.loop? = some l := by
  rw [keepalives, List.mem_filter, decide_eq_true_iff]

theorem isSome_of_mem_keepalives {timer : Timer Handler} (h : timer ∈ w.keepalives t l) :
    (w.threads.get? t).isSome = true := by
  by_contra habsent
  rw [mem_keepalives, agendaOf, Option.not_isSome_iff_eq_none.1 habsent] at h
  cases h.1

/-- The threads and the loops are the same. -/
theorem Dwindles.of_threads_eq (hthreads : w'.threads = w.threads) (hloops : w'.loops = w.loops)
    (hnext : w'.nextLoop = w.nextLoop) : w.Dwindles w' := by
  refine ⟨fun t => .of_slots_eq ?_, fun l => ?_, hnext, fun t l hl => ?_⟩
  · rw [agendaOf, hthreads, agendaOf]
  · rw [hloops]
  · rwa [loopOf?, hthreads] at hl

theorem Dwindles.of_threading_eq (h : w'.threading = w.threading) : w.Dwindles w' := by
  simp only [threading, Prod.mk.injEq] at h
  obtain ⟨hthreads, -, -, hloops, hnext⟩ := h
  exact .of_threads_eq hthreads hloops hnext

theorem Dwindles.refl (w : World) : w.Dwindles w :=
  .of_threads_eq rfl rfl rfl

theorem Dwindles.trans (h : w.Dwindles w') (h' : w'.Dwindles w'') : w.Dwindles w'' where
  agendas t := (h.agendas t).trans (h'.agendas t)
  watch l := (h'.watch l).trans (h.watch l)
  nextLoop := h'.nextLoop.trans h.nextLoop
  loopOf t l hl := h.loopOf t l (h'.loopOf t l hl)

theorem Dwindles.foldl {α : Type} {f : World → α → World} (hf : ∀ w a, Dwindles w (f w a))
    (as : List α) (w : World) : w.Dwindles (as.foldl f w) := by
  induction as generalizing w with
  | nil => exact .refl w
  | cons a as ih => exact (hf w a).trans (ih (f w a))

theorem loopOf?_modifyThread (w : World) (t t' : ThreadId) (f : Thread → Thread) :
    (w.modifyThread t f).loopOf? t' =
      if t = t' then (w.threads.get? t').bind fun thread => (f thread).role.loop? else w.loopOf? t' := by
  have hget : (w.modifyThread t f).threads.get? t' =
      if t = t' then (w.threads.get? t').map f else w.threads.get? t' :=
    Table.get?_modify w.threads t t' f
  rw [loopOf?, hget]
  split
  · rw [Option.bind_map]
    rfl
  · rfl

theorem Dwindles.modifyThread {f : Thread → Thread}
    (hf : ∀ thread, w.threads.get? t = some thread → thread.agenda.Dwindles (f thread).agenda ∧
      (f thread).role.loop? = thread.role.loop?) : w.Dwindles (w.modifyThread t f) := by
  refine ⟨fun t' => ?_, fun _ => rfl, rfl, fun t' l hl => ?_⟩
  · rw [agendaOf_modifyThread]
    split
    · next ht =>
      subst ht
      rw [agendaOf]
      cases hthread : w.threads.get? t with
      | none => exact .of_slots_eq rfl
      | some thread => exact (hf thread hthread).1
    · exact .of_slots_eq rfl
  · rw [loopOf?_modifyThread] at hl
    split at hl
    · next ht =>
      subst ht
      obtain ⟨thread, hthread, hrole⟩ := Option.bind_eq_some_iff.1 hl
      rw [loopOf?, hthread, Option.bind_some, ← (hf thread hthread).2]
      exact hrole
    · exact hl

theorem agendaOf_setAgenda_cases (w : World) (a : Agenda Event Handler) (t : ThreadId) :
    (w.setAgenda a).agendaOf t = w.agendaOf t ∨ t = w.current ∧ (w.setAgenda a).agendaOf t = a := by
  have hmodify := agendaOf_modifyThread w w.current t fun thread => { thread with agenda := a }
  change (w.setAgenda a).agendaOf t = _ at hmodify
  rw [hmodify]
  split
  · next ht =>
    subst ht
    rw [agendaOf]
    cases w.threads.get? w.current with
    | none => exact .inl rfl
    | some thread => exact .inr ⟨rfl, rfl⟩
  · exact .inl rfl

theorem loopOf?_setAgenda (w : World) (a : Agenda Event Handler) (t : ThreadId) :
    (w.setAgenda a).loopOf? t = w.loopOf? t := by
  refine (loopOf?_modifyThread w w.current t fun thread => { thread with agenda := a }).trans ?_
  split <;> rfl

theorem Dwindles.setAgenda {a : Agenda Event Handler} (ha : w.agenda.Dwindles a) :
    w.Dwindles (w.setAgenda a) := by
  refine .modifyThread fun thread hthread => ?_
  rw [agenda_eq_of_get? hthread] at ha
  exact ⟨ha, rfl⟩

theorem Dwindles.takeOff {work : Agenda.Work Event Handler} {a : Agenda Event Handler}
    {flags : EventFlags} (hnext : w.agenda.next? flags w.clock = some (work, a)) :
    w.Dwindles (w.takeOff a) :=
  (Dwindles.setAgenda (Agenda.dwindles_next? hnext)).trans (.of_threads_eq rfl rfl rfl)

theorem Dwindles.mem_keepalives (h : w.Dwindles w') {timer : Timer Handler}
    (htimer : timer ∈ w'.keepalives t l) : timer ∈ w.keepalives t l := by
  rw [World.mem_keepalives] at htimer ⊢
  exact ⟨(h.agendas t).timers timer htimer.1 l htimer.2, htimer.2⟩

theorem Dwindles.stageOf?_eq (h : w.Dwindles w') (l : LoopId) : w'.stageOf? l = w.stageOf? l := by
  have hstage (o : Option Loop) :
      o.map Loop.stage = (o.map Loop.watch).map fun watch => (watch.1, watch.2.1) := by
    rw [Option.map_map]
    rfl
  rw [stageOf?, hstage, h.watch, ← hstage, stageOf?]

theorem stageOf?_modifyLoop {f : Loop → Loop} (hf : ∀ loop, (f loop).stage = loop.stage) (w : World)
    (l l' : LoopId) : (w.modifyLoop l f).stageOf? l' = w.stageOf? l' := by
  rw [stageOf?, get?_modifyLoop]
  split
  · rw [Option.map_map]
    exact congrArg (Option.map · (w.loops.get? l')) (funext hf)
  · rfl

theorem stageOf?_modifyLoop_of_ne {l' : LoopId} (hne : l ≠ l') (w : World) (f : Loop → Loop) :
    (w.modifyLoop l f).stageOf? l' = w.stageOf? l' := by
  rw [stageOf?, get?_modifyLoop, if_neg hne, stageOf?]

/-- A loop that stops its timer may not arm it, and its timer is taken away. -/
theorem dwindles_stopKeepalive (w : World) (l : LoopId) :
    (w.modifyLoop l fun loop => { loop with active := false, token := none }).Dwindles
      (w.stopKeepalive l) := by
  rcases stopKeepalive_cases w l with hforgets | ⟨loop, token, -, -, hcancels⟩
  · rw [hforgets]
    exact .refl _
  · rw [hcancels]
    exact .setAgenda (Agenda.dwindles_cancelTimer _ token)

theorem stageOf?_setAgenda (w : World) (a : Agenda Event Handler) (l : LoopId) :
    (w.setAgenda a).stageOf? l = w.stageOf? l :=
  rfl

/-- Arming a timer changes nothing but the timer. -/
theorem stageOf?_armKeepalive (w : World) (l l' : LoopId) :
    (w.armKeepalive l).stageOf? l' = w.stageOf? l' := by
  rcases armKeepalive_cases w l with hforgets | ⟨_, _, -, -, hadds⟩
  · rw [hforgets, stageOf?_modifyLoop]
    exact fun _ => rfl
  · rw [hadds, stageOf?_setAgenda, stageOf?_modifyLoop]
    exact fun _ => rfl

theorem stageOf?_stopKeepalive_of_ne {l' : LoopId} (hne : l ≠ l') (w : World) :
    (w.stopKeepalive l).stageOf? l' = w.stageOf? l' :=
  ((dwindles_stopKeepalive w l).stageOf?_eq l').trans (stageOf?_modifyLoop_of_ne hne w _)

theorem stageOf?_ensureArmed (w : World) (l l' : LoopId) :
    (w.ensureArmed l).stageOf? l' = w.stageOf? l' := by
  rw [ensureArmed]
  split
  · rfl
  · exact stageOf?_armKeepalive w l l'

/-- The timers of loops that are pending once one more was added on the thread that is running. -/
theorem mem_keepalives_addTimer {deadline : Time} {timer : Timer Handler} {l' : LoopId}
    (h : timer ∈ (w.setAgenda (w.agenda.addTimer deadline (.keepalive l)).2).keepalives t l') :
    timer ∈ w.keepalives t l' ∨
      l' = l ∧ t = w.current ∧ timer = ⟨deadline, w.agenda.nextToken, .keepalive l⟩ := by
  rw [mem_keepalives] at h ⊢
  obtain ⟨htimer, hloop⟩ := h
  rcases agendaOf_setAgenda_cases w (w.agenda.addTimer deadline (.keepalive l)).2 t with
    hsame | ⟨rfl, hadded⟩
  · exact .inl ⟨hsame ▸ htimer, hloop⟩
  · rw [hadded] at htimer
    rcases Agenda.mem_insertTimer.1 htimer with rfl | hold
    · exact .inr ⟨(Option.some.inj hloop).symm, rfl, rfl⟩
    · exact .inl ⟨hold, hloop⟩

/-- Only the timer of a loop is armed, and only if it may be. -/
theorem mem_keepalives_armKeepalive {timer : Timer Handler} {l' : LoopId}
    (h : timer ∈ (w.armKeepalive l).keepalives t l') :
    timer ∈ w.keepalives t l' ∨ l' = l ∧ ∃ phase, w.stageOf? l = some (phase, true) := by
  rcases armKeepalive_cases w l with hforgets | ⟨loop, deadline, hloop, hactive, hadds⟩
  · rw [hforgets] at h
    exact .inl h
  · rw [hadds] at h
    refine (mem_keepalives_addTimer h).imp_right fun hnew => ⟨hnew.1, loop.phase, ?_⟩
    rw [stageOf?, hloop, Option.map_some, Loop.stage, hactive]

theorem mem_keepalives_ensureArmed {timer : Timer Handler} {l' : LoopId}
    (h : timer ∈ (w.ensureArmed l).keepalives t l') :
    timer ∈ w.keepalives t l' ∨ l' = l ∧ ∃ phase, w.stageOf? l = some (phase, true) := by
  rw [ensureArmed] at h
  split at h
  · exact .inl h
  · exact mem_keepalives_armKeepalive h

/-- Stopping a timer arms none. -/
theorem mem_keepalives_stopKeepalive {timer : Timer Handler} {l' : LoopId}
    (h : timer ∈ (w.stopKeepalive l).keepalives t l') : timer ∈ w.keepalives t l' :=
  (dwindles_stopKeepalive w l).mem_keepalives h

theorem stageOf?_stopKeepalive (w : World) (l : LoopId) :
    (w.stopKeepalive l).stageOf? l = (w.stageOf? l).map fun stage => (stage.1, false) := by
  rw [(dwindles_stopKeepalive w l).stageOf?_eq, stageOf?, get?_modifyLoop, if_pos rfl, Option.map_map,
    stageOf?, Option.map_map]
  rfl

/-- A thread that begins to run a loop keeps its agenda. -/
theorem agendaOf_assign (w : World) (h : HandleId) (l : LoopId) (t t' : ThreadId) :
    (w.modifyThread t fun thread => { thread with role := .looping h l }).agendaOf t' =
      w.agendaOf t' := by
  rw [agendaOf_modifyThread]
  split
  · next ht =>
    subst ht
    rfl
  · rfl

theorem keepalives_assign (w : World) (h : HandleId) (l : LoopId) (t t' : ThreadId) (l' : LoopId) :
    (w.modifyThread t fun thread => { thread with role := .looping h l }).keepalives t' l' =
      w.keepalives t' l' := by
  rw [keepalives, agendaOf_assign, keepalives]

/-! ### Tended loops -/

open Keepalive

/-- Tokens are unique. A timer that is pending belongs to a loop, which knows it as long as the timer
may arm itself again, and is the only one of this loop. The timer of a loop that is at home on a thread
is on no other one, and no thread runs this loop by itself. -/
structure Tended (homes : Homes) (w : World) : Prop where
  sound : ∀ t, (w.agendaOf t).Sound
  idle : ∀ t, ∀ entry ∈ (w.agendaOf t).idle, entry.2.loop? = none
  known : ∀ t l, ∀ timer ∈ w.keepalives t l,
    ∃ loop, w.loops.get? l = some loop ∧ (loop.active = true → loop.token = some timer.token)
  one : ∀ l t t' timer timer', timer ∈ w.keepalives t l → timer' ∈ w.keepalives t' l →
    t = t' ∧ timer = timer'
  numbered : ∀ l, (w.loops.get? l).isSome = true → l < w.nextLoop
  assigned : ∀ t l, w.loopOf? t = some l → l < w.nextLoop
  home : ∀ l t, homes l = some t → l < w.nextLoop ∧ (∀ t', w.loopOf? t' ≠ some l) ∧
    ∀ t' timer, timer ∈ w.keepalives t' l → t' = t

namespace Tended

variable {homes : Homes}

theorem pass (hw : w.Tended homes) (h : w.Dwindles w') : w'.Tended homes where
  sound t := (h.agendas t).sound (hw.sound t)
  idle t entry hentry := by
    cases hloop : entry.2.loop? with
    | none => rfl
    | some l => rw [← hloop, hw.idle t entry ((h.agendas t).idle entry hentry l hloop)]
  known t l timer htimer := by
    obtain ⟨loop, hloop, htoken⟩ := hw.known t l timer (h.mem_keepalives htimer)
    have hwatch := h.watch l
    rw [hloop, Option.map_some] at hwatch
    obtain ⟨loop', hloop', hsame⟩ := Option.map_eq_some_iff.1 hwatch
    simp only [Loop.watch, Prod.mk.injEq] at hsame
    refine ⟨loop', hloop', ?_⟩
    rwa [hsame.2.1, hsame.2.2]
  one l t t' timer timer' htimer htimer' :=
    hw.one l t t' timer timer' (h.mem_keepalives htimer) (h.mem_keepalives htimer')
  numbered l hl := by
    rw [h.nextLoop]
    refine hw.numbered l ?_
    rw [← Option.isSome_map (f := Loop.watch), ← h.watch l, Option.isSome_map]
    exact hl
  assigned t l hl := by
    rw [h.nextLoop]
    exact hw.assigned t l (h.loopOf t l hl)
  home l t hhome := by
    obtain ⟨hknown, hfree, honly⟩ := hw.home l t hhome
    rw [h.nextLoop]
    exact ⟨hknown, fun t' hl => hfree t' (h.loopOf t' l hl),
      fun t' timer htimer => honly t' timer (h.mem_keepalives htimer)⟩

/-- A loop changes, and knows its timer still if that may arm itself again. -/
theorem modifyLoop (hw : w.Tended homes) {f : Loop → Loop}
    (hf : ∀ loop, w.loops.get? l = some loop → ∀ t, ∀ timer ∈ w.keepalives t l,
      (f loop).active = true → (f loop).token = some timer.token) :
    (w.modifyLoop l f).Tended homes where
  sound := hw.sound
  idle := hw.idle
  known t l' timer htimer := by
    obtain ⟨loop, hloop, htoken⟩ := hw.known t l' timer htimer
    rw [get?_modifyLoop, hloop]
    split
    · next hl =>
      subst hl
      exact ⟨f loop, rfl, hf loop hloop t timer htimer⟩
    · exact ⟨loop, rfl, htoken⟩
  one := hw.one
  numbered l' hl' := by
    refine hw.numbered l' ?_
    rw [get?_modifyLoop] at hl'
    split at hl'
    · rwa [Option.isSome_map] at hl'
    · exact hl'
  assigned := hw.assigned
  home := hw.home

theorem setPhase (hw : w.Tended homes) (l : LoopId) (phase : LoopPhase) :
    (w.setPhase l phase).Tended homes := by
  refine hw.modifyLoop fun loop hloop t timer htimer hactive => ?_
  obtain ⟨loop', hloop', htoken⟩ := hw.known t l timer htimer
  cases hloop.symm.trans hloop'
  exact htoken hactive

theorem stopKeepalive (hw : w.Tended homes) (l : LoopId) : (w.stopKeepalive l).Tended homes := by
  have hstopped : (w.modifyLoop l fun loop =>
      { loop with active := false, token := none }).Tended homes :=
    hw.modifyLoop fun _ _ _ _ _ hactive => absurd hactive Bool.false_ne_true
  exact hstopped.pass (dwindles_stopKeepalive w l)

/-- A timer is armed for a loop that has none and knows the token that comes next. -/
theorem addTimer (hw : w.Tended homes) (hhome : ∀ t, homes l = some t → w.current = t)
    {loop : Loop} (hloop : w.loops.get? l = some loop) (htoken : loop.token = some w.agenda.nextToken)
    (hnone : ∀ t, w.keepalives t l = []) (deadline : Time) :
    (w.setAgenda (w.agenda.addTimer deadline (.keepalive l)).2).Tended homes := by
  have hold {t : ThreadId} {l' : LoopId} {timer : Timer Handler} (hne : l' ≠ l)
      (htimer : timer ∈ (w.setAgenda
        (w.agenda.addTimer deadline (.keepalive l)).2).keepalives t l') :
      timer ∈ w.keepalives t l' :=
    (mem_keepalives_addTimer htimer).resolve_right fun h => hne h.1
  have hnew {t : ThreadId} {timer : Timer Handler} (htimer : timer ∈ (w.setAgenda
        (w.agenda.addTimer deadline (.keepalive l)).2).keepalives t l) :
      t = w.current ∧ timer = ⟨deadline, w.agenda.nextToken, .keepalive l⟩ := by
    rcases mem_keepalives_addTimer htimer with hold | ⟨-, ht, htimer⟩
    · rw [hnone] at hold
      cases hold
    · exact ⟨ht, htimer⟩
  refine ⟨fun t => ?_, fun t => ?_, fun t l' timer htimer => ?_,
    fun l' t t' timer timer' htimer htimer' => ?_, hw.numbered, fun t l' hl' => ?_,
    fun l' t hl' => ?_⟩
  · rcases agendaOf_setAgenda_cases w (w.agenda.addTimer deadline (.keepalive l)).2 t with
      hsame | ⟨-, hadded⟩
    · rw [hsame]
      exact hw.sound t
    · rw [hadded]
      exact (hw.sound w.current).addTimer deadline _
  · rcases agendaOf_setAgenda_cases w (w.agenda.addTimer deadline (.keepalive l)).2 t with
      hsame | ⟨-, hadded⟩
    · rw [hsame]
      exact hw.idle t
    · rw [hadded]
      exact hw.idle w.current
  · by_cases hl : l' = l
    · subst hl
      obtain ⟨-, rfl⟩ := hnew htimer
      exact ⟨loop, hloop, fun _ => htoken⟩
    · exact hw.known t l' timer (hold hl htimer)
  · by_cases hl : l' = l
    · subst hl
      obtain ⟨rfl, rfl⟩ := hnew htimer
      obtain ⟨rfl, rfl⟩ := hnew htimer'
      exact ⟨rfl, rfl⟩
    · exact hw.one l' t t' timer timer' (hold hl htimer) (hold hl htimer')
  · rw [loopOf?_setAgenda] at hl'
    exact hw.assigned t l' hl'
  · obtain ⟨hknown, hfree, honly⟩ := hw.home l' t hl'
    refine ⟨hknown, fun t' => ?_, fun t' timer htimer => ?_⟩
    · rw [loopOf?_setAgenda]
      exact hfree t'
    · by_cases hl : l' = l
      · subst hl
        exact (hnew htimer).1.trans (hhome t hl')
      · exact honly t' timer (hold hl htimer)

/-- A loop whose timer is not pending may arm it. -/
theorem armKeepalive (hw : w.Tended homes) (hhome : ∀ t, homes l = some t → w.current = t)
    (hnone : ∀ loop, w.loops.get? l = some loop → loop.active = true → ∀ t, w.keepalives t l = []) :
    (w.armKeepalive l).Tended homes := by
  -- it has no timer to know, or may not arm it
  have hmodify (f : Loop → Loop) (hf : ∀ loop, (f loop).active = loop.active) :
      (w.modifyLoop l f).Tended homes := by
    refine hw.modifyLoop fun loop hloop t timer htimer hactive => ?_
    rw [hnone loop hloop ((hf loop).symm.trans hactive) t] at htimer
    cases htimer
  rcases armKeepalive_cases w l with hforgets | ⟨loop, deadline, hloop, hactive, hadds⟩
  · rw [hforgets]
    exact hmodify _ fun _ => rfl
  · have hget (f : Loop → Loop) : (w.modifyLoop l f).loops.get? l = some (f loop) := by
      rw [get?_modifyLoop, if_pos rfl, hloop, Option.map_some]
    rw [hadds]
    refine addTimer (hmodify _ ?_) hhome (hget _) rfl (hnone loop hloop hactive) deadline
    exact fun _ => rfl

theorem ensureArmed (hw : w.Tended homes) (hhome : ∀ t, homes l = some t → w.current = t) :
    (w.ensureArmed l).Tended homes := by
  rw [World.ensureArmed]
  split
  · exact hw
  · next hunarmed =>
    refine hw.armKeepalive hhome fun loop hloop hactive t => List.eq_nil_iff_forall_not_mem.2 ?_
    intro timer htimer
    obtain ⟨loop', hloop', htoken⟩ := hw.known t l timer htimer
    cases hloop.symm.trans hloop'
    rw [hloop, Option.bind_some, htoken hactive] at hunarmed
    cases hunarmed

/-- A timer of a loop that is served was the only one. -/
theorem served (hw : w.Tended homes) {flags : EventFlags} {work : Agenda.Work Event Handler}
    {a : Agenda Event Handler} (hnext : w.agenda.next? flags w.clock = some (work, a))
    (hloop : work.loop? = some l) :
    (∀ t, (w.takeOff a).keepalives t l = []) ∧ ∃ timer, timer ∈ w.keepalives w.current l := by
  obtain ⟨timer, htimer, hl, htaken⟩ :=
    (hw.sound w.current).exists_of_loop (hw.idle w.current) hnext hloop
  have hpending : timer ∈ w.keepalives w.current l := mem_keepalives.2 ⟨htimer, hl⟩
  refine ⟨fun t => List.eq_nil_iff_forall_not_mem.2 fun timer' htimer' => ?_, timer, hpending⟩
  have hbefore := (Dwindles.takeOff hnext).mem_keepalives htimer'
  obtain ⟨rfl, rfl⟩ := hw.one l _ _ _ _ hpending hbefore
  have hleft : timer ∈ (w.setAgenda a).agenda.timers := (mem_keepalives.1 htimer').1
  rw [agenda_setAgenda (isSome_of_mem_keepalives hpending)] at hleft
  exact htaken hleft

theorem rearm (hw : w.Tended homes) {flags : EventFlags} {work : Agenda.Work Event Handler}
    {a : Agenda Event Handler} (hnext : w.agenda.next? flags w.clock = some (work, a))
    (hloop : work.loop? = some l) : ((w.takeOff a).armKeepalive l).Tended homes := by
  obtain ⟨hnone, timer, htimer⟩ := hw.served hnext hloop
  refine (hw.pass (.takeOff hnext)).armKeepalive (fun t hhome => ?_) fun _ _ _ => hnone
  exact (hw.home l t hhome).2.2 w.current timer htimer

theorem newLoop (hw : w.Tended homes) (interval : Interval) :
    (w.newLoop interval).2.Tended homes := by
  have hget (l : LoopId) : (w.newLoop interval).2.loops.get? l =
      if w.nextLoop = l then some { interval } else w.loops.get? l :=
    Table.get?_insert w.loops w.nextLoop l _
  refine ⟨hw.sound, hw.idle, fun t l timer htimer => ?_, hw.one, fun l hl => ?_, fun t l hl => ?_,
    fun l t hhome => ?_⟩
  · obtain ⟨loop, hloop, htoken⟩ := hw.known t l timer htimer
    have hlt := hw.numbered l (hloop ▸ rfl)
    exact ⟨loop, by rw [hget, if_neg (Nat.ne_of_gt hlt), hloop], htoken⟩
  · rw [hget] at hl
    split at hl
    · next heq => exact heq ▸ Nat.lt_succ_self _
    · exact Nat.lt_succ_of_lt (hw.numbered l hl)
  · exact Nat.lt_succ_of_lt (hw.assigned t l hl)
  · obtain ⟨hknown, hrest⟩ := hw.home l t hhome
    exact ⟨Nat.lt_succ_of_lt hknown, hrest⟩

theorem assign (hw : w.Tended homes) (h : HandleId) (hknown : l < w.nextLoop)
    (hfree : homes l = none) (t : ThreadId) :
    (w.modifyThread t fun thread => { thread with role := .looping h l }).Tended homes := by
  have hloopOf {t' : ThreadId} {l' : LoopId} (hl' : (w.modifyThread t fun thread =>
      { thread with role := .looping h l }).loopOf? t' = some l') :
      l' = l ∨ w.loopOf? t' = some l' := by
    rw [loopOf?_modifyThread] at hl'
    split at hl'
    · obtain ⟨_, -, hrole⟩ := Option.bind_eq_some_iff.1 hl'
      exact .inl (Option.some.inj hrole).symm
    · exact .inr hl'
  refine ⟨fun t' => ?_, fun t' => ?_, fun t' l' => ?_, fun l' t₁ t₂ => ?_, hw.numbered,
    fun t' l' hl' => ?_, fun l' t' hhome => ?_⟩
  · rw [agendaOf_assign]
    exact hw.sound t'
  · rw [agendaOf_assign]
    exact hw.idle t'
  · rw [keepalives_assign]
    exact hw.known t' l'
  · rw [keepalives_assign, keepalives_assign]
    exact hw.one l' t₁ t₂
  · rcases hloopOf hl' with rfl | hold
    · exact hknown
    · exact hw.assigned t' l' hold
  · obtain ⟨hlt, hnot, honly⟩ := hw.home l' t' hhome
    refine ⟨hlt, fun t'' hl' => ?_, fun t'' => ?_⟩
    · rcases hloopOf hl' with rfl | hold
      · cases hfree.symm.trans hhome
      · exact hnot t'' hold
    · rw [keepalives_assign]
      exact honly t''

/-- A step keeps loops tended. -/
theorem step (hw : w.Tended homes) (h : Step homes w w') : w'.Tended homes := by
  cases h with
  | pass h => exact hw.pass h
  | rearm hnext hloop => exact hw.rearm hnext hloop
  | arm hhome => exact hw.ensureArmed hhome
  | stop hfree => exact hw.stopKeepalive _
  | setPhase hfree phase => exact hw.setPhase _ phase
  | newLoop interval => exact hw.newLoop interval
  | assign h hknown hfree t => exact hw.assign h hknown hfree t

theorem run (hw : w.Tended homes) (h : Run homes w w') : w'.Tended homes := by
  induction h with
  | refl => exact hw
  | tail _ hstep ih => exact ih.step hstep

end Tended

/-! ### How far a loop is -/

variable {homes : Homes}

/-- Other code does not change how far a loop is that is at home somewhere. -/
theorem Tended.stageOf?_step (hw : w.Tended homes) (hhome : homes l = some t)
    (h : Step homes w w') : w'.stageOf? l = w.stageOf? l := by
  have hother {l' : LoopId} (hfree : homes l' = none) : l' ≠ l := by
    rintro rfl
    cases hfree.symm.trans hhome
  cases h with
  | pass h => exact h.stageOf?_eq l
  | rearm hnext hloop =>
    exact (stageOf?_armKeepalive _ _ l).trans ((Dwindles.takeOff hnext).stageOf?_eq l)
  | arm _ => exact stageOf?_ensureArmed w _ l
  | stop hfree => exact stageOf?_stopKeepalive_of_ne (hother hfree) w
  | setPhase hfree phase => exact stageOf?_modifyLoop_of_ne (hother hfree) w _
  | newLoop interval =>
    have hlt := (hw.home l t hhome).1
    have hget : (w.newLoop interval).2.loops.get? l = w.loops.get? l :=
      (Table.get?_insert w.loops w.nextLoop l _).trans (if_neg (Nat.ne_of_gt hlt))
    rw [stageOf?, hget, stageOf?]
  | assign => rfl

theorem Tended.stageOf?_run (hw : w.Tended homes) (hhome : homes l = some t)
    (h : Run homes w w') : w'.stageOf? l = w.stageOf? l := by
  induction h with
  | refl => rfl
  | tail hrun hstep ih => exact ((hw.run hrun).stageOf?_step hhome hstep).trans ih

/-! ### Loops that are over -/

/-- The timer of a loop is not pending, and it may not be armed. -/
structure Over (l : LoopId) (w : World) : Prop where
  stopped : ∃ phase, w.stageOf? l = some (phase, false)
  silent : ∀ t timer, timer ∉ w.keepalives t l

namespace Over

theorem of_stageOf?_eq (h : w.Over l) (hstage : w'.stageOf? l = w.stageOf? l)
    (hpending : ∀ t timer, timer ∈ w'.keepalives t l → timer ∈ w.keepalives t l) : w'.Over l where
  stopped := hstage ▸ h.stopped
  silent t timer htimer := h.silent t timer (hpending t timer htimer)

theorem not_active (h : w.Over l) : ¬∃ phase, w.stageOf? l = some (phase, true) := by
  rintro ⟨phase, hactive⟩
  obtain ⟨phase', hstopped⟩ := h.stopped
  cases hactive.symm.trans hstopped

theorem stopKeepalive (h : w.Over l) (l' : LoopId) : (w.stopKeepalive l').Over l := by
  refine ⟨?_, fun t timer htimer => h.silent t timer (mem_keepalives_stopKeepalive htimer)⟩
  obtain ⟨phase, hstage⟩ := h.stopped
  refine ⟨phase, ?_⟩
  by_cases hl : l' = l
  · subst hl
    rw [stageOf?_stopKeepalive, hstage, Option.map_some]
  · rw [stageOf?_stopKeepalive_of_ne hl, hstage]

theorem setPhase (h : w.Over l) (l' : LoopId) (phase : LoopPhase) : (w.setPhase l' phase).Over l := by
  refine ⟨?_, h.silent⟩
  by_cases hl : l' = l
  · subst hl
    obtain ⟨phase', hstage⟩ := h.stopped
    obtain ⟨loop, hloop, hstopped⟩ := Option.map_eq_some_iff.1 hstage
    refine ⟨phase, ?_⟩
    rw [stageOf?, World.setPhase, get?_modifyLoop, if_pos rfl, hloop]
    exact congrArg (fun active => some (phase, active)) (congrArg Prod.snd hstopped)
  · rw [World.setPhase, stageOf?_modifyLoop_of_ne hl]
    exact h.stopped

/-- Whatever happens next, a loop that is over stays so. -/
theorem step (h : w.Over l) (hw : w.Tended homes) (hstep : Step homes w w') : w'.Over l := by
  cases hstep with
  | pass hpass => exact h.of_stageOf?_eq (hpass.stageOf?_eq l) fun _ _ => hpass.mem_keepalives
  | @rearm flags work a l' hnext hloop =>
    have htake := Dwindles.takeOff hnext
    have hne : l ≠ l' := by
      rintro rfl
      obtain ⟨timer, htimer⟩ := (hw.served hnext hloop).2
      exact h.silent _ timer htimer
    refine h.of_stageOf?_eq ((stageOf?_armKeepalive _ _ l).trans (htake.stageOf?_eq l))
      fun t timer htimer => ?_
    exact htake.mem_keepalives ((mem_keepalives_armKeepalive htimer).resolve_right fun hnew => hne hnew.1)
  | arm _ =>
    refine h.of_stageOf?_eq (stageOf?_ensureArmed w _ l) fun t timer htimer => ?_
    refine (mem_keepalives_ensureArmed htimer).resolve_right ?_
    rintro ⟨rfl, hactive⟩
    exact h.not_active hactive
  | stop => exact h.stopKeepalive _
  | setPhase _ phase => exact h.setPhase _ phase
  | newLoop interval =>
    obtain ⟨phase, hstage⟩ := h.stopped
    obtain ⟨loop, hloop, -⟩ := Option.map_eq_some_iff.1 hstage
    have hget : (w.newLoop interval).2.loops.get? l = w.loops.get? l :=
      (Table.get?_insert w.loops w.nextLoop l _).trans
        (if_neg (Nat.ne_of_gt (hw.numbered l (hloop ▸ rfl))))
    exact h.of_stageOf?_eq (by rw [stageOf?, hget, stageOf?]) fun _ _ => id
  | assign handle hknown hfree t =>
    refine h.of_stageOf?_eq rfl fun t' timer htimer => ?_
    rwa [keepalives_assign] at htimer

theorem run (h : w.Over l) (hw : w.Tended homes) (hrun : Run homes w w') : w'.Over l := by
  induction hrun with
  | refl => exact h
  | tail hrun hstep ih => exact ih.step (hw.run hrun) hstep

end Over

/-- A loop that stops its timer at home is over. -/
theorem Tended.over_stopKeepalive (hw : w.Tended homes) (hhome : homes l = some w.current)
    {phase : LoopPhase} (hstage : w.stageOf? l = some (phase, true)) : (w.stopKeepalive l).Over l := by
  refine ⟨⟨phase, by rw [stageOf?_stopKeepalive, hstage, Option.map_some]⟩, fun t timer htimer => ?_⟩
  have hpending := mem_keepalives_stopKeepalive htimer
  obtain ⟨loop, hloop, htoken⟩ := hw.known t l timer hpending
  have hactive : loop.active = true := by
    rw [stageOf?, hloop] at hstage
    exact congrArg Prod.snd (Option.some.inj hstage)
  obtain rfl := (hw.home l _ hhome).2.2 t timer hpending
  have hstop : w.stopKeepalive l = (w.modifyLoop l fun loop =>
      { loop with active := false, token := none }).setAgenda (w.agenda.cancelTimer timer.token).2 := by
    rw [World.stopKeepalive, hloop]
    dsimp only
    rw [htoken hactive]
    rfl
  have hsound : w.agenda.Sound := hw.sound w.current
  have hcancelled := agenda_setAgenda (w := w.modifyLoop l fun loop =>
      { loop with active := false, token := none }) (isSome_of_mem_keepalives hpending)
      (w.agenda.cancelTimer timer.token).2
  rw [hstop] at htimer
  have hleft := (mem_keepalives.1 htimer).1
  change timer ∈ (World.agenda _).timers at hleft
  rw [hcancelled, hsound.cancelTimer_eq] at hleft
  exact absurd rfl (of_decide_eq_true (List.mem_filter.1 hleft).2)

end World

end ScriptHost
