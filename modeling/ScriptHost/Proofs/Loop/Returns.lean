import ScriptHost.Proofs.Loop.Rounds

/-!
# What a loop has done when it returns

A loop that returns has served all events that were posted up to the moment at which its condition held
and all that were posted since, and nobody waits for the handles of its thread any more. A loop that runs
until nothing is pending has started or cancelled all timers and idle handlers as well, and it never
waits without a deadline.
-/

namespace ScriptHost

open Run World

namespace Agenda

variable {ε η : Type} {a : Agenda ε η} {token : Token}

theorem hasPending_eq_false_iff : a.hasPending = false ↔ a.events = [] ∧ a.timers = [] ∧ a.idle = [] := by
  simp [hasPending, and_assoc]

/-- If work is pending but none can be served at once, a timer is not due yet. -/
theorem exists_timer_of_hasPending (hpending : a.hasPending = true) {now : Time}
    (hnone : a.next? .all now = none) :
    a.events = [] ∧ ∃ timer ∈ a.timers, a.nextDeadline? = some timer.deadline := by
  obtain ⟨hevents, -, hidle⟩ := next?_eq_none_iff.1 hnone
  replace hevents := hevents (by decide)
  refine ⟨hevents, ?_⟩
  cases htimers : a.timers with
  | nil =>
    rw [hasPending_eq_false_iff.2 ⟨hevents, htimers, hidle (by decide)⟩] at hpending
    cases hpending
  | cons timer rest => exact ⟨timer, List.mem_cons_self, by rw [nextDeadline?, htimers]; rfl⟩

theorem hasPending_addTimer (a : Agenda ε η) (deadline : Time) (handler : η) :
    (a.addTimer deadline handler).2.hasPending = true := by
  rw [← Bool.not_eq_false, hasPending_eq_false_iff]
  rintro ⟨-, htimers, -⟩
  have hperm := insertTimer_perm ⟨deadline, a.nextToken, handler⟩ a.timers
  rw [show insertTimer _ a.timers = [] from htimers] at hperm
  cases hperm.nil_eq

theorem hasPending_cancelTimer (hnone : a.hasPending = false) :
    (a.cancelTimer token).2.hasPending = false := by
  rw [hasPending_eq_false_iff] at hnone
  obtain ⟨hevents, htimers, hidle⟩ := hnone
  rw [cancelTimer, htimers]
  split
  · exact hasPending_eq_false_iff.2 ⟨hevents, htimers, hidle⟩
  · exact hasPending_eq_false_iff.2 ⟨hevents, rfl, hidle⟩

/-- What was pending or created and is not pending any more was started once or cancelled. -/
theorem Accounts.once {a' : Agenda ε η} {new : List (Deed ε)} (h : Accounts new a a') (ha : a.Sound)
    (hnone : a'.tokens = []) (htoken : token ∈ a.tokens ++ noted Deed.created? new) :
    ((noted Deed.started? new).count token = 1 ∧ (noted Deed.cancelled? new).count token = 0) ∨
    ((noted Deed.started? new).count token = 0 ∧ (noted Deed.cancelled? new).count token = 1) := by
  have hone := List.count_eq_one_of_mem (h.nodup ha) htoken
  rw [h.tokens.count_eq, hnone, List.append_nil, List.count_append] at hone
  omega

end Agenda

namespace World

variable {w w' : World} {h : HandleId} {queued : Queued}

/-- A timer that is armed is pending besides what was so before. -/
theorem hasPending_ensureArmed (hpending : w.agenda.hasPending = true) (l : LoopId) :
    (w.ensureArmed l).agenda.hasPending = true := by
  rw [ensureArmed]
  split
  · exact hpending
  · rcases armKeepalive_cases w l with hforgets | ⟨_, deadline, -, -, hadds⟩
    · rwa [hforgets]
    · rw [hadds]
      exact rel_agendaOf_setAgenda (P := fun a a' => a.hasPending = true → a'.hasPending = true)
        (fun _ => id) (fun _ => Agenda.hasPending_addTimer _ deadline _) w.current hpending

theorem hasPending_stopKeepalive (hnone : w.agenda.hasPending = false) (l : LoopId) :
    (w.stopKeepalive l).agenda.hasPending = false := by
  rcases stopKeepalive_cases w l with hforgets | ⟨_, token, -, -, hcancels⟩
  · rwa [hforgets]
  · rw [hcancels]
    exact rel_agendaOf_setAgenda (P := fun a a' => a.hasPending = false → a'.hasPending = false)
      (fun _ => id) Agenda.hasPending_cancelTimer w.current hnone

/-- When no event is left, all work in a mailbox is work of which the owner is not to hear. -/
theorem length_queueOf_le (hheeds : w.Heeds w') (hlive : w'.isLive h = true)
    (hthere : w'.isRegistered w'.current = true) (hmine : w'.ownerOf h = w'.current)
    (hevents : w'.agenda.events = []) : (w'.queueOf h).length ≤ w.untold h := by
  have huntold := hheeds.untold h hlive (by rwa [hmine])
  rw [untold, hmine, Agenda.notices] at huntold
  rw [agenda] at hevents
  rwa [hevents, List.countP_nil, Nat.sub_zero] at huntold

theorem Heeds.settled (hheeds : w.Heeds w') (hlive : w'.isLive h = true) (hempty : w'.queueOf h = [])
    (hqueued : queued ∈ w.queueOf h) : w.Settles w' queued := by
  refine (hheeds.settles h hlive queued hqueued).resolve_left fun hstill => ?_
  rw [hempty] at hstill
  exact List.not_mem_nil hstill

end World

/-- Of two runs of a deterministic relation from the same start, one that comes to an end is the longer
one. -/
theorem reflTransGen_of_final {α : Type} {r : α → α → Prop} {a b c : α} (hr : Relator.RightUnique r)
    (hb : Relation.ReflTransGen r a b) (hc : Relation.ReflTransGen r a c) (hfinal : ∀ d, ¬r c d) :
    Relation.ReflTransGen r b c := by
  refine (hb.total_of_right_unique hr hc).elim id fun hlonger => ?_
  rcases hlonger.cases_head with rfl | ⟨d, hstep, -⟩
  · exact .refl
  · exact absurd hstep (hfinal d)

namespace EventLoop

variable {e : Engine} {l : LoopId} {done : Act Bool} {w u v w' : World} {interval : Interval}

/-! ### Worlds between rounds -/

theorem rightUnique_round : Relator.RightUnique (Round e l done) := by
  rintro w v v' ⟨u, served, hdone, -, hserve⟩ ⟨u', served', hdone', -, hserve'⟩
  cases hdone.symm.trans hdone'
  cases hserve.symm.trans hserve'
  rfl

theorem rightUnique_drain : Relator.RightUnique (Drain e) := by
  intro w v v' h h'
  cases h.symm.trans h'
  rfl

/-- A world between two pieces of work of a loop whose condition held in `u`. -/
inductive Between (e : Engine) (l : LoopId) (done : Act Bool) (w u : World) : World → Prop
  | round {x : World} (h : Relation.ReflTransGen (Round e l done) w x) : Between e l done w u x
  | holds : Between e l done w u u
  | drain {x : World} (h : Relation.ReflTransGen (Drain e) (beginDrain l u) x) : Between e l done w u x

/-- What follows after such a world up to the end of the loop. -/
theorem Between.goesOn (hdone : done.IsCondition) (hw : w.Ready) (hholds : Holds engine l done w u)
    (hdrained : Relation.ReflTransGen (Drain engine) (beginDrain l u) v)
    (hlast : oneEvent engine (EventFlags.posted.union .dontWait) v = .ok false v) {x : World}
    (h : Between engine l done w u x) : x.GoesOn v := by
  have hu := goesOn_holds hdone hw hholds
  have hbegun := goesOn_beginDrain hu.ready l
  have hend : u.GoesOn v := hbegun.trans hu.ready (goesOn_drain hbegun.ready hdrained)
  cases h with
  | holds => exact hend
  | round hx =>
    have hready := (goesOn_rounds hdone hw hx).ready
    obtain ⟨y, hrounds, hasked⟩ := hholds
    have hfinal (z : World) : ¬Round engine l done y z := by
      rintro ⟨_, _, hdone', -⟩
      cases hasked.symm.trans hdone'
    have hrest := reflTransGen_of_final rightUnique_round hx hrounds hfinal
    exact (goesOn_holds hdone hready ⟨y, hrest, hasked⟩).trans hready hend
  | drain hx =>
    have hready := (goesOn_drain hbegun.ready hx).ready
    have hfinal (z : World) : ¬Drain engine v z := by
      intro hdrain
      cases hlast.symm.trans hdrain
    exact goesOn_drain hready (reflTransGen_of_final rightUnique_drain hx hdrained hfinal)

/-! ### A thread with work -/

/-- A host makes an interpreter, which schedules some scripts; one of them cancels another one and
schedules a third one. Then somebody puts work into the mailbox of the handle and waits for the answer. -/
def crowd : Act Unit := do
  modify fun w => (w.found {}).2
  let _ ← Handle.evaluate engine 1 "set id [after 5 {set x 1}]; after 7 {set y 2}"
  let _ ← Handle.evaluate engine 1 "after 0 {after cancel $id; after idle {set z 3}}"
  modify fun w => w.newReply.2
  modify fun w => (w.submit 1 (.eval "set v 4") (some 0)).2

/-- The world of this host. -/
def crowded : World :=
  crowd.after (fresh .empty 0)

theorem ready_fresh (files : Machine.Files) (globalTimerMs : Nat) : (fresh files globalTimerMs).Ready :=
  ⟨⟨List.mem_singleton_self 0, rfl⟩, tidy_fresh files globalTimerMs, issued_fresh files globalTimerMs,
    Agenda.sound_empty⟩

theorem ready_crowded : crowded.Ready := by
  have hcrowd : crowd.Moves Serves :=
    .bind (.modify fun w => Follows.found w _) fun _ =>
    .bind (Handle.moves_evaluate moves_engine 1 _) fun _ =>
    .bind (Handle.moves_evaluate moves_engine 1 _) fun _ =>
    .bind (.modify fun w => .of_attends (.rest rfl) rfl w.attends_newReply) fun _ =>
    .modify fun w => Roams.stands (w.stands_submit 1 _ _) (w.still_submit 1 _ _)
      (w.attends_submit 1 _ _)
  have hrun : crowd (fresh .empty 0) = .ok () crowded := Act.eq_ok_of_value? (by decide +kernel)
  have hseated : crowded.Seated := ⟨by decide +kernel, by decide +kernel⟩
  exact (Act.goesOn_of_ok hcrowd (ready_fresh .empty 0) hrun hseated).ready

/-! ### Nobody is left waiting -/

/-- A thread runs a loop until any condition of its own, whatever its events, its handlers and other
threads do, and the loop returns without an error. Let `u` be the world in which the condition held. Then
no event is left, and the events that were pending in `u` and those that were posted since have been
served one after the other, each once, in the order of the queue. The mailbox of a live handle of the
thread holds at most as much work as it held at the start without an event that told of it, because
whoever put it there had yet to post one. If there was none such, the mailbox is empty, and whoever waited
for work that was in it between any two pieces of work has the answer. -/
theorem strands_nobody (hdone : done.IsCondition) (hw : w.Ready)
    (hrun : run engine interval done w = .ok (.ok ()) w') :
    ∃ u, Holds engine w.nextLoop done (begin interval w) u ∧ w'.agenda.events = [] ∧
      (∃ new, w'.agenda.record = new ++ u.agenda.record ∧
        Agenda.noted Agenda.Deed.served? new = u.agenda.events ++ Agenda.noted Agenda.Deed.posted? new) ∧
      ∀ h, w'.isLive h = true → w'.ownerOf h = w'.current →
        (w'.queueOf h).length ≤ w.untold h ∧
        (w.untold h = 0 → w'.queueOf h = [] ∧
          ∀ x, Between engine w.nextLoop done (begin interval w) u x →
            ∀ queued ∈ x.queueOf h, x.Settles w' queued) := by
  obtain ⟨u, v, hholds, hdrained, hlast, rfl⟩ := holds_of_run hrun
  have hbegun := goesOn_begin hw interval
  have hrest {x : World} (hx : Between engine w.nextLoop done (begin interval w) u x) : x.GoesOn v :=
    hx.goesOn hdone hbegun.ready hholds hdrained hlast
  have hevents : v.agenda.events = [] := (oneEvent_posted_eq_false_iff.1 hlast).2
  have hwhole : w.GoesOn v := hbegun.trans hw (hrest (.round .refl))
  refine ⟨u, hholds, hevents, ?_, fun h hlive hmine => ?_⟩
  · obtain ⟨new, hnew⟩ := (hrest .holds).accounts (goesOn_holds hdone hbegun.ready hholds).ready
    have hserved := hnew.events
    rw [hevents, List.append_nil] at hserved
    exact ⟨new, hnew.record, hserved.symm⟩
  · have hlength : (v.queueOf h).length ≤ w.untold h :=
      length_queueOf_le hwhole.heeds hlive hwhole.ready.registered hmine hevents
    refine ⟨hlength, fun htold => ?_⟩
    rw [htold, Nat.le_zero, List.length_eq_zero_iff] at hlength
    exact ⟨hlength, fun x hx queued hqueued => (hrest hx).heeds.settled hlive hlength hqueued⟩

/-- The work in the mailbox is served and answered though the condition of the loop holds at once. -/
theorem strands_nobody_crowded :
    ∃ w', run engine (.fixed 5) (pure true) crowded = .ok (.ok ()) w' ∧
      (crowded.queueOf 1).length = 1 ∧ w'.agenda.events = [] ∧ w'.queueOf 1 = [] ∧ w'.Answered 0 := by
  have hdone : (pure true : Act Bool).IsCondition := by
    refine ⟨fun L _ _ _ => .pure true, fun hw hdone => ?_⟩
    cases hdone
    exact hw
  have hrun : run engine (.fixed 5) (pure true) crowded =
      .ok (.ok ()) ((run engine (.fixed 5) (pure true)).after crowded) :=
    Act.eq_ok_of_value? (by decide +kernel)
  obtain ⟨u, -, hevents, -, hhandles⟩ := strands_nobody hdone ready_crowded hrun
  obtain ⟨-, hsettled⟩ := hhandles 1 (by decide +kernel) (by decide +kernel)
  obtain ⟨hempty, hanswers⟩ := hsettled (by decide +kernel)
  have hasks : ((begin (.fixed 5) crowded).queueOf 1).any (·.reply = some 0) = true := by decide +kernel
  obtain ⟨queued, hqueued, hreply⟩ := List.any_eq_true.1 hasks
  refine ⟨_, hrun, by decide +kernel, hevents, hempty, ?_⟩
  exact hanswers _ (.round .refl) queued hqueued 0 (of_decide_eq_true hreply) (by decide +kernel)

/-! ### Waiting -/

theorem moveFirst_of_still (hstill : ∀ t, w.mayMove t = false) (threads : List ThreadId) :
    moveFirst e threads w = .ok false w := by
  induction threads with
  | nil => rfl
  | cons t rest ih =>
    rw [moveFirst, Act.get_bind, if_neg (by rw [hstill]; exact Bool.false_ne_true)]
    exact ih

theorem waitRounds_of_due {ready hopeless : World → Bool} {deadline : Time}
    (hdue : ready w = true ∨ deadline ≤ w.clock) (rounds : Nat) :
    waitRounds e ready hopeless (some deadline) (rounds + 1) w = .ok () w := by
  rw [waitRounds, Act.get_bind, if_pos (by simpa using hdue)]
  rfl

/-- When no other thread does anything, a wait is over at its deadline. -/
theorem waitUntil_of_still (he : 2 ≤ e.fuel) (hstill : ∀ t, w.mayMove t = false)
    (ready : World → Bool) (deadline : Time) :
    ∃ u, waitUntil e ready (fun _ => false) (some deadline) w = .ok () u ∧
      (ready w = true ∨ deadline ≤ u.clock) := by
  obtain ⟨fuel, hfuel⟩ := Nat.exists_eq_add_of_le' he
  rw [waitUntil, hfuel]
  by_cases hdue : ready w = true ∨ deadline ≤ w.clock
  · exact ⟨w, waitRounds_of_due hdue _, hdue⟩
  · have hmove : moveOther e w = .ok false w := moveFirst_of_still hstill _
    have hnext : w.nextDeadline? = none := by
      rw [nextDeadline?, List.filter_eq_nil_iff.2 fun t _ => by rw [hstill]; exact Bool.false_ne_true]
      rfl
    have hreached : deadline ≤ (w.advanceTo deadline).clock := Nat.le_max_right _ _
    refine ⟨w.advanceTo deadline, ?_, .inr hreached⟩
    rw [waitRounds, Act.get_bind, if_neg (by simpa using hdue), Act.bind_of_ok hmove,
      if_neg Bool.false_ne_true, Act.get_bind, if_neg Bool.false_ne_true, hnext]
    exact waitRounds_of_due (.inr hreached) fuel

/-! ### Until nothing is pending -/

/-- The condition of the loop that runs until nothing is pending. -/
def nothingPending : Act Bool := do
  return !(← get).agenda.hasPending

theorem nothingPending_iff {holds : Bool} :
    nothingPending w = .ok holds u ↔ u = w ∧ w.agenda.hasPending = !holds := by
  have hrun : nothingPending w = .ok (!w.agenda.hasPending) w := rfl
  rw [hrun]
  constructor
  · intro h
    cases h
    exact ⟨rfl, (Bool.not_not _).symm⟩
  · rintro ⟨rfl, hholds⟩
    rw [hholds, Bool.not_not]

theorem isCondition_nothingPending : nothingPending.IsCondition where
  moves _ := .get_bind fun w => .refl w rfl
  returns hw hdone := by rwa [(nothingPending_iff.1 hdone).1]

theorem global_true (e : Engine) : global e true = run e (.fixed 0) nothingPending :=
  rfl

/-- What a wait of a loop for some work comes to: it has a deadline, it may be cut short by an alert, and
then work is served if there is any. -/
def waitsUntil (e : Engine) (deadline : Time) (w : World) : Act Bool := do
  waitUntil e (fun u => (u.agendaOf w.current).alerted) (fun _ => false) (some deadline)
  modify fun u => u.modifyAgenda w.current fun a => { a with alerted := false }
  serveReady e .all

/-- If work is pending but none can be served at once, the loop waits for a timer. -/
theorem oneEvent_cases (hpending : w.agenda.hasPending = true) :
    oneEvent e .all w = serveReady e .all w ∨
    ∃ timer ∈ w.agenda.timers, oneEvent e .all w = waitsUntil e timer.deadline w w := by
  have hnormal : EventFlags.all.normalize = .all := by decide
  have hwaits : EventFlags.all.contains .dontWait = false := by decide
  have htimer : EventFlags.all.contains .timer = true := by decide
  rw [oneEvent, hnormal]
  cases hserve : serveReady e .all w with
  | error halt u => exact .inl (Act.bind_of_error hserve _)
  | ok served u =>
    rw [Act.bind_of_ok hserve]
    cases served with
    | true => exact .inl rfl
    | false =>
      obtain ⟨rfl, hnone⟩ := serveReady_eq_false_iff.1 hserve
      obtain ⟨hevents, timer, htimers, hdeadline⟩ := Agenda.exists_timer_of_hasPending hpending hnone
      refine .inr ⟨timer, htimers, ?_⟩
      rw [if_neg Bool.false_ne_true, hwaits, if_neg Bool.false_ne_true, waitForWork, bind_assoc,
        Act.get_bind, if_pos (by rw [hevents]; rfl)]
      simp only [htimer, if_true, hdeadline]
      rw [bind_assoc]
      rfl

/-- If no other thread does anything, a wait is over when its deadline has come, or before. -/
theorem waitsUntil_of_still (he : 2 ≤ e.fuel) (hstill : ∀ t, w.mayMove t = false) (deadline : Time) :
    ∃ u, waitsUntil e deadline w w = serveReady e .all u ∧
      (w.agenda.alerted = true ∨ deadline ≤ u.clock) := by
  obtain ⟨u, hwait, hover⟩ :=
    waitUntil_of_still he hstill (fun u => (u.agendaOf w.current).alerted) deadline
  refine ⟨u.modifyAgenda w.current fun a => { a with alerted := false }, ?_, hover⟩
  rw [waitsUntil, Act.bind_of_ok hwait, Act.modify_bind]

/-- A loop serves work at once, or it waits until a timer is due that is pending. If no other thread does
anything, this wait is over by then. -/
def WaitsForTimer (e : Engine) (w : World) : Prop :=
  oneEvent e .all w = serveReady e .all w ∨
  ∃ timer ∈ w.agenda.timers, oneEvent e .all w = waitsUntil e timer.deadline w w ∧
    ((∀ t, w.mayMove t = false) → ∃ u, waitsUntil e timer.deadline w w = serveReady e .all u ∧
      (w.agenda.alerted = true ∨ timer.deadline ≤ u.clock))

theorem waitsForTimer_of_hasPending (he : 2 ≤ e.fuel) (hpending : w.agenda.hasPending = true) :
    WaitsForTimer e w := by
  refine (oneEvent_cases hpending).imp_right ?_
  rintro ⟨timer, htimer, hwaits⟩
  exact ⟨timer, htimer, hwaits, fun hstill => waitsUntil_of_still he hstill _⟩

theorem not_drain (hevents : w.agenda.events = []) : ¬Drain e w w' := by
  intro hdrain
  cases (oneEvent_posted_eq_false_iff.2 ⟨rfl, hevents⟩).symm.trans hdrain

/-- A thread runs the loop that returns when nothing is pending any more, whatever its handlers and other
threads do. Whenever the loop finds something pending, it serves work at once or waits until a timer is
due that is pending, and while it drains the agenda it does not wait. When it returns without an error,
nothing is pending. Then events have been served one after the other, each once: those that were pending
and those that were posted. Of the timers and idle handlers that were pending or have been created, each
has either been started, once, or been cancelled. -/
theorem global_untilIdle (hw : w.Ready) :
    (∀ x u, Relation.ReflTransGen (Round engine w.nextLoop nothingPending) (begin (.fixed 0) w) x →
      nothingPending (x.countAsk w.nextLoop) = .ok false u →
      WaitsForTimer engine (u.ensureArmed w.nextLoop)) ∧
    (oneEvent engine (EventFlags.posted.union .dontWait) =
      serveReady engine (EventFlags.posted.union .dontWait)) ∧
    ∀ w', global engine true w = .ok (.ok ()) w' → w'.agenda.hasPending = false ∧
      ∃ new, w'.agenda.record = new ++ w.agenda.record ∧
        Agenda.noted Agenda.Deed.served? new =
          w.agenda.events ++ Agenda.noted Agenda.Deed.posted? new ∧
        ∀ token ∈ w.agenda.tokens ++ Agenda.noted Agenda.Deed.created? new,
          ((Agenda.noted Agenda.Deed.started? new).count token = 1 ∧
            (Agenda.noted Agenda.Deed.cancelled? new).count token = 0) ∨
          ((Agenda.noted Agenda.Deed.started? new).count token = 0 ∧
            (Agenda.noted Agenda.Deed.cancelled? new).count token = 1) := by
  refine ⟨fun x u _ hasked => ?_, oneEvent_posted engine, fun w' hrun => ?_⟩
  · obtain ⟨rfl, hpending⟩ := nothingPending_iff.1 hasked
    exact waitsForTimer_of_hasPending (by decide) (hasPending_ensureArmed hpending _)
  · rw [global_true] at hrun
    obtain ⟨u, v, hholds, hdrained, hlast, rfl⟩ := holds_of_run hrun
    have hbegun := goesOn_begin hw (.fixed 0)
    have hwhole : w.GoesOn v := hbegun.trans hw
      ((Between.round .refl).goesOn isCondition_nothingPending hbegun.ready hholds hdrained hlast)
    have hnone : v.agenda.hasPending = false := by
      obtain ⟨y, -, hasked⟩ := hholds
      obtain ⟨rfl, hidle⟩ := nothingPending_iff.1 hasked
      have hstopped : (beginDrain w.nextLoop (y.countAsk w.nextLoop)).agenda.hasPending = false :=
        hasPending_stopKeepalive hidle w.nextLoop
      rcases hdrained.cases_head with rfl | ⟨z, hdrain, -⟩
      · exact hstopped
      · exact absurd hdrain (not_drain (Agenda.hasPending_eq_false_iff.1 hstopped).1)
    obtain ⟨hevents, htimers, hidle⟩ := Agenda.hasPending_eq_false_iff.1 hnone
    obtain ⟨new, hnew⟩ := hwhole.accounts hw
    have hserved := hnew.events
    rw [hevents, List.append_nil] at hserved
    refine ⟨hnone, new, hnew.record, hserved.symm, fun token htoken => ?_⟩
    exact hnew.once hw.sound (by rw [Agenda.tokens, htimers, hidle]; rfl) htoken

/-- One timer that was pending is cancelled, and all else that was pending or is created is started. -/
theorem global_untilIdle_crowded :
    ∃ w', global engine true crowded = .ok (.ok ()) w' ∧ w'.agenda.hasPending = false ∧
      crowded.agenda.tokens = [3, 1, 2] ∧ Agenda.noted Agenda.Deed.cancelled? w'.agenda.record = [1] ∧
      ∃ new, w'.agenda.record = new ++ crowded.agenda.record ∧
        ∀ token ∈ crowded.agenda.tokens,
          ((Agenda.noted Agenda.Deed.started? new).count token = 1 ∧
            (Agenda.noted Agenda.Deed.cancelled? new).count token = 0) ∨
          ((Agenda.noted Agenda.Deed.started? new).count token = 0 ∧
            (Agenda.noted Agenda.Deed.cancelled? new).count token = 1) := by
  have hrun : global engine true crowded = .ok (.ok ()) ((global engine true).after crowded) :=
    Act.eq_ok_of_value? (by decide +kernel)
  obtain ⟨hnone, new, hrecord, -, honce⟩ := (global_untilIdle ready_crowded).2.2 _ hrun
  refine ⟨_, hrun, hnone, by decide +kernel, by decide +kernel, new, hrecord, fun token htoken => ?_⟩
  exact honce token (List.mem_append_left _ htoken)

end EventLoop

end ScriptHost
