import ScriptHost.Proofs.Handle.Adopt
import ScriptHost.Proofs.Run.Handle

/-!
# The event loop, the threads and the engine as pieces of code

In the end the engine moves by every relation that covers what code does, whatever its task. What
other threads do when they take their turns is only followed on the machine.
-/

namespace ScriptHost

open Run

section

variable {w : World}

/-- The agenda holds an event by which another thread ends a handle only if several threads act. -/
theorem World.not_solo_of_event {event : Event} (hmem : event ∈ w.agenda.events)
    (hevent : event.isLocal = false) : ¬w.Solo := by
  intro hsolo
  obtain ⟨thread, hthread⟩ := Option.isSome_iff_exists.1 hsolo.here
  rw [agenda_eq_of_get? hthread] at hmem
  have hlocal := (hsolo.passive _ _ hthread).events event hmem
  exact absurd (hevent.symm.trans hlocal) Bool.false_ne_true

end

variable {L R : World → World → Prop} [Tracks L R] {e : Engine} {w : World}

include L

/-! ### One piece of work -/

/-- A scheduled script is taken off the agenda, and its interpreter forgets it before anything else
is done. -/
theorem movesFrom_runAfter (he : e.Moves R) {flags : EventFlags} {work : Agenda.Work Event Handler}
    {a : Agenda Event Handler} {i : InterpId} {id : String}
    (hnext : w.agenda.next? flags w.clock = some (work, a)) (hscript : work.script? = some (i, id))
    (script : String) :
    (MonadStateOf.set (w.takeOff a) >>= fun _ => runAfter e i id script : Act Unit).MovesFrom R w := by
  refine .set_modify_bind (Follows.fire hnext hscript) (movesFrom_getInterp_bind ?_)
  split
  · exact .refl _ rfl
  · next hlive =>
    refine .bind (movesFrom_evalAtGlobal he script (Bool.eq_false_iff.2 hlive)) fun completion w' _ => ?_
    cases completion with
    | ok value => exact .refl w' rfl
    | error end_ =>
      refine Act.Moves.bind (moves_getInterp i) (fun r => ?_) w'
      split
      · exact .bind (moves_invokeFrom he i _) fun _ => .pure _
      · exact .pure _

/-- A handler is taken off the agenda and does its work. -/
theorem movesFrom_runHandler (he : e.Moves R) {flags : EventFlags}
    {work : Agenda.Work Event Handler} {a : Agenda Event Handler}
    (hnext : w.agenda.next? flags w.clock = some (work, a)) {handler : Handler}
    (hscript : work.script? = handler.script?) (hloop : work.loop? = handler.loop?)
    (hforeign : work.isForeign = false) (hputOff : work.isPutOff = false)
    (hattends : w.Attends (w.takeOff a)) :
    (MonadStateOf.set (w.takeOff a) >>= fun _ => runHandler e handler : Act Unit).MovesFrom R w := by
  cases handler with
  | after i id script => exact movesFrom_runAfter he hnext hscript script
  | keepalive l => exact .of_rel (Follows.rearm hnext hloop)
  | delete i =>
    have htake : R w (w.takeOff a) := Tracks.serve hnext ⟨hforeign, hputOff, hscript, hloop⟩ hattends
    exact .set_bind htake (.of_rel (Follows.delete _ i))
  | label i label script =>
    have htake : R w (w.takeOff a) := Tracks.serve hnext ⟨hforeign, hputOff, hscript, hloop⟩ hattends
    refine .set_bind htake (.modify_bind (Tracks.same rfl) ?_)
    cases script with
    | none => exact .pure _ _
    | some script =>
      exact .bind (moves_evalFrom he i script _) fun _ _ _ => .of_rel (Tracks.same rfl)

theorem moves_waitForWork (he : e.Moves R) (flags : EventFlags) : (waitForWork e flags).Moves R := by
  refine .get_bind fun w => ?_
  split
  · refine Act.Moves.bind (moves_waitUntil he _ _ _) (fun _ => ?_) w
    refine .modify fun w => Tracks.settle (World.rests_modifyAgenda (fun a => ?_) w _) ?_ ?_
    · exact .of_idle_eq (fun _ h => .inl h) rfl (Nat.le_refl _)
    · apply World.still_modifyThread
      intro thread
      exact ⟨rfl, List.Subset.refl _⟩
    · exact World.attends_modifyAgenda (fun a => ⟨.setAlerted false, List.prefix_refl _⟩) w _
  · exact .refl w rfl

/-- What is left of a handle that another thread let go is served when the event is taken off. -/
theorem arrives_serveRelease [Roams L] (he : e.Moves L) (htidy : w.Tidy)
    {a : Agenda Event Handler} {h : HandleId} {pending : List Queued}
    (hpop : w.agenda.popEvent? = some (.event (.release h pending), a)) :
    (MonadStateOf.set (w.takeOff a) >>= fun _ => Handle.releaseHere e h pending : Act Unit).Arrives L w := by
  have htake : L w (w.takeOff a) := Crosses.takeRelease hpop
  have hleads := Follows.leads htake
  obtain ⟨hleads', hserved⟩ := Handle.moves_serveDetached he h pending _ (hleads.tidy htidy)
  rw [Act.after] at hleads' hserved
  have hrun : (MonadStateOf.set (w.takeOff a) >>= fun _ => Handle.releaseHere e h pending : Act Unit) w =
      Handle.releaseHere e h pending (w.takeOff a) := rfl
  cases hrest : Handle.serveDetached e h pending (w.takeOff a) with
  | ok _ w₂ =>
    rw [hrest] at hserved
    have hgiveUp : L w (w₂.giveUp h) :=
      Crosses.serveRelease hpop (hserved (.of_ok hrest))
    exact Act.MovesFrom.of_after (Act.after_of_ok (hrun.trans (Act.bind_of_ok hrest _))) hgiveUp htidy
  | error halt w₂ =>
    rw [hrest] at hserved hleads'
    have hcut := hrun.trans (Act.bind_of_error hrest _)
    refine ⟨?_, fun hcounts => ?_⟩
    · rw [Act.after_of_error hcut]
      exact hleads.trans hleads'
    · rw [Act.after_of_error hcut]
      refine Follows.trans htake (hserved (hcounts.of_stalls ?_))
      rintro ⟨w', hw'⟩
      rw [hrest] at hw'
      cases hw'
      exact ⟨_, hcut⟩

/-- What another thread left on the agenda for the end of a handle is served. -/
theorem movesFrom_runForeign [Roams L] (he : e.Moves R) {event : Event} {a : Agenda Event Handler}
    (hpop : w.agenda.popEvent? = some (.event event, a)) (hevent : event.isLocal = false) :
    (MonadStateOf.set (w.takeOff a) >>= fun _ => runEvent e event : Act Unit).MovesFrom R w := by
  have hnot := World.not_solo_of_event (Agenda.mem_events_of_popEvent hpop) hevent
  refine .foreign hnot ?_
  cases event with
  | serve h => cases hevent
  | release h pending => exact fun htidy => arrives_serveRelease he.all htidy hpop
  | delete h => exact .of_rel (Crosses.serveDelete hpop)
  | print label => cases hevent

theorem movesFrom_catchFatal {α : Type} {act : Act (Except HostError α)} (h : act.MovesFrom R w) :
    (catchFatal act).MovesFrom R w := by
  refine .attempt_bind h (fun result => ?_) fun w => ⟨w, rfl⟩
  split
  · exact .pure _
  · refine .get_bind fun w => ?_
    split <;> exact .refl w rfl
  · exact .halt _

theorem moves_catchFatal {α : Type} {act : Act (Except HostError α)} (h : act.Moves R) :
    (catchFatal act).Moves R :=
  fun w => movesFrom_catchFatal (h w)

theorem EventLoop.moves_handleDone (h : HandleId) : (EventLoop.handleDone h).Moves R := by
  refine .get_bind fun w => ?_
  split
  · exact .refl w rfl
  · split
    · exact .refl w rfl
    · refine .set_bind (Tracks.modifyHandle ?_ w h) (.refl _ rfl)
      exact fun _ => ⟨rfl, rfl⟩

section

variable [Roams L] [Notes e R]

/-- An event that does not tell of the end of a handle is taken off and served. -/
theorem movesFrom_runEvent (he : e.Moves R) {flags : EventFlags} {event : Event}
    {a : Agenda Event Handler} (hnext : w.agenda.next? flags w.clock = some (.event event, a))
    (hevent : event.isLocal = true) :
    (MonadStateOf.set (w.takeOff a) >>= fun _ => runEvent e event : Act Unit).MovesFrom R w := by
  cases event with
  | serve h => exact Handle.movesFrom_serveOne he hnext
  | release h pending => cases hevent
  | delete h => cases hevent
  | print label =>
    have htake : R w (w.takeOff a) :=
      Tracks.serve hnext ⟨rfl, rfl, rfl, rfl⟩ (World.attends_takeOff_of_ne hnext nofun)
    exact .set_modify_bind (Follows.trans htake (Tracks.same rfl)) (.pure _ _)

/-- Work that is taken off the agenda is done next. -/
theorem movesFrom_runWork (he : e.Moves R) {flags : EventFlags}
    {work : Agenda.Work Event Handler} {a : Agenda Event Handler}
    (hnext : w.agenda.next? flags w.clock = some (work, a)) :
    (MonadStateOf.set (w.takeOff a) >>= fun _ => runWork e work : Act Unit).MovesFrom R w := by
  cases work with
  | timer handler =>
    exact movesFrom_runHandler he hnext rfl rfl rfl rfl (World.attends_takeOff_of_ne hnext nofun)
  | idle handler =>
    cases hdeletion : handler.isDeletion with
    | true =>
      cases handler with
      | delete i => exact .of_rel (Follows.putOff (Agenda.popIdle_of_next hnext))
      | after | keepalive | label => cases hdeletion
    | false =>
      exact movesFrom_runHandler he hnext rfl rfl rfl hdeletion
        (World.attends_takeOff_of_ne hnext nofun)
  | event event =>
    cases hevent : event.isLocal with
    | false => exact movesFrom_runForeign he (Agenda.popEvent_of_next hnext) hevent
    | true => exact movesFrom_runEvent he hnext hevent

theorem moves_serveReady (he : e.Moves R) (flags : EventFlags) : (serveReady e flags).Moves R := by
  refine .get_bind fun w => ?_
  split
  · exact .refl w rfl
  · next work a hnext =>
    have hserved := (movesFrom_runWork he hnext).bind fun _ w' _ => Act.MovesFrom.pure true w'
    exact hserved

theorem moves_oneEvent (he : e.Moves R) (flags : EventFlags) : (oneEvent e flags).Moves R := by
  refine .bind (moves_serveReady he _) fun served => ?_
  split
  · exact .pure _
  · split
    · exact .pure _
    · exact .bind (moves_waitForWork he _) fun _ => moves_serveReady he _

/-! ### Loops -/

theorem moves_processOneEvent (he : e.Moves R) (flags : EventFlags) :
    (processOneEvent e flags).Moves R :=
  moves_catchFatal (.bind (moves_oneEvent he flags) fun _ => .pure _)

namespace EventLoop

omit [Roams L] in
theorem rel_countAsk (w : World) (l : LoopId) : R w (w.countAsk l) :=
  Tracks.settle (w.rests_modifyLoop l _) (w.still_countAsk l) (.of_desk_eq rfl)

/-- The rounds of a loop, in worlds in which its timer may be armed. -/
theorem movesFrom_rounds (he : e.Moves R) (l : LoopId) {done : Act Bool} (hdone : done.Moves R)
    {P : World → Prop} (hP : ∀ {w w'}, R w w' → P w → P w')
    (harm : ∀ w, P w → R w (w.ensureArmed l)) (count : Nat) (hw : P w) :
    (rounds e l done count).MovesFrom R w := by
  induction count generalizing w with
  | zero => exact Act.Moves.halt _ w
  | succ count ih =>
    have hasked := hP (rel_countAsk w l) hw
    refine .modify_bind (rel_countAsk w l) ((hdone _).andThen fun finished u _ hu => ?_)
    have hu := hP hu hasked
    split
    · exact .pure _ u
    · refine .get_bind ?_
      split
      · exact .refl u rfl
      · refine .modify_bind (harm u hu) ((moves_oneEvent he _ _).andThen fun _ v _ hv => ?_)
        exact ih (hP hv (hP (harm u hu) hu))

theorem moves_rounds (he : e.Moves R) (l : LoopId) [Tends R l] {done : Act Bool}
    (hdone : done.Moves R) (count : Nat) : (rounds e l done count).Moves R :=
  fun _ => movesFrom_rounds (P := fun _ => True) he l hdone (fun _ _ => trivial)
    (fun w _ => Tends.arm w) count trivial

theorem moves_drain (he : e.Moves R) (count : Nat) : (drain e count).Moves R := by
  induction count with
  | zero => exact .halt _
  | succ count ih =>
    refine .bind (moves_oneEvent he _) fun served => ?_
    split
    · exact ih
    · exact .pure _

theorem moves_close (he : e.Moves R) (l : LoopId) [Tends R l] (result : Except HostError Unit) :
    (close e l result).Moves R := by
  refine .bind (.modify fun w => Tends.stop w) fun _ => ?_
  have hphase (phase : LoopPhase) : (modify fun w => w.setPhase l phase : Act Unit).Moves R :=
    .modify fun w => Tends.setPhase w phase
  cases result with
  | error error =>
    exact .bind (.pure _) fun _ => .bind (hphase .stopped) fun _ => .pure _
  | ok _ =>
    refine .bind (hphase .draining) fun _ => ?_
    exact .bind (moves_catchFatal (moves_drain he _)) fun _ =>
      .bind (hphase .stopped) fun _ => .pure _

theorem moves_runLoop (he : e.Moves R) (l : LoopId) [Tends R l] {done : Act Bool}
    (hdone : done.Moves R) : (runLoop e l done).Moves R :=
  .bind (.modify fun w => Tends.setPhase w .running) fun _ =>
    .bind (moves_catchFatal (moves_rounds he l hdone _)) fun result => moves_close he l result

variable [∀ l, Tends R l]

theorem moves_run (he : e.Moves R) (interval : Interval) {done : Act Bool} (hdone : done.Moves R) :
    (run e interval done).Moves R :=
  .get_bind fun w => .set_bind (Follows.newLoop w interval) (moves_runLoop he _ hdone _)

theorem moves_ofHandle (he : e.Moves R) (h : HandleId) : (ofHandle e h).Moves R := by
  refine .get_bind fun w => ?_
  split
  · exact .refl w rfl
  · split
    · exact .refl w rfl
    · exact moves_run he _ (moves_handleDone h) w

theorem moves_global (he : e.Moves R) (untilIdle : Bool) : (global e untilIdle).Moves R := by
  rw [global]
  split
  · exact moves_run he _ (.get_bind fun w => .refl w rfl)
  · exact moves_run he _ (.get_bind fun w => .set_bind (Tracks.same rfl) (.refl _ rfl))

end EventLoop

end

/-! ### Threads -/

section

variable [Roams L] [Notes e L]

omit [Tracks L R]

omit L [Roams L] [Notes e L] in
/-- When a thread has done something, the one that was running goes on. -/
theorem current_after_asThread {α : Type} (t : ThreadId) (act : Act α) (w : World) :
    ((asThread t act).after w).current = w.current := by
  have hafter := congrArg World.current <| Act.after_ensuring act
    (fun w' => { w' with current := w.current, engaged := w.engaged })
    { w with current := t, engaged := t :: w.engaged }
  exact hafter

/-- A thread that is there does something, while the one that was running waits. -/
theorem movesFrom_asThread {α : Type} {t : ThreadId} (ht : w.isRegistered t = true) {act : Act α}
    (h : act.Moves L) : (asThread t act).MovesFrom L w := by
  intro htidy
  have henter : Leads w { w with current := t, engaged := t :: w.engaged } := .rest rfl
  obtain ⟨hleads, hrel⟩ := h _ (henter.tidy htidy)
  have hafter : (asThread t act).after w = { act.after { w with current := t, engaged := t :: w.engaged } with current := w.current, engaged := w.engaged } :=
    Act.after_ensuring act _ _
  refine ⟨?_, fun hcounts => ?_⟩
  · rw [hafter]
    exact leads_visit hleads
  · rw [hafter]
    exact Crosses.visit ht (hrel (hcounts.of_stalls fun hstalls => Act.stalls_ensuring hstalls _))

namespace Worker

theorem moves_endThread (t : ThreadId) (result : Except HostError Unit) :
    (modify fun w => { w.endThread t with results := w.results.insert t result } : Act Unit).Moves L := by
  have hresult (u : World) (results : Table ThreadId (Except HostError Unit)) :
      L u { u with results } := Tracks.same rfl
  exact .modify fun w => Follows.trans (Crosses.endThread w t) (hresult _ _)

theorem moves_finish (he : e.Moves L) (t : ThreadId) (h : HandleId)
    (result : Except HostError Unit) : (finish e t h result).Moves L := by
  refine .bind (.modify fun w => Follows.deleteHandle w h) fun _ => ?_
  exact .bind (moves_endThread t result) fun _ => Handle.moves_release he h

theorem moves_crash (he : e.Moves L) (t : ThreadId) (h : HandleId) : (crash e t h).Moves L :=
  .bind (moves_endThread t _) fun _ => Handle.moves_release he h

theorem moves_close (he : e.Moves L) (t : ThreadId) (h : HandleId) (l : LoopId) [Tends L l]
    (result : Except HostError Unit) : (close e t h l result).Moves L := by
  refine .attempt_bind (EventLoop.moves_close he l result) (fun result => ?_) fun w => ⟨w, rfl⟩
  split
  · exact moves_finish he t h _
  · exact .halt _
  · exact moves_crash he t h

theorem moves_round (he : e.Moves L) (t : ThreadId) (h : HandleId) (l : LoopId) [Tends L l] :
    (round e t h l).Moves L := by
  refine .bind (.modify fun w => EventLoop.rel_countAsk w l) fun _ => ?_
  refine .bind (EventLoop.moves_handleDone h) fun done => ?_
  have hclose (result : Except HostError Unit) :
      (do close e t h l result; return true : Act Bool).Moves L :=
    .bind (moves_close he t h l result) fun _ => .pure _
  split
  · exact hclose _
  · refine .get_bind fun w => ?_
    split
    · exact hclose _ w
    · refine .modify_bind (Tends.arm w) ?_
      refine Act.Moves.attempt_bind (moves_serveReady he _) (fun result => ?_) (fun w => ⟨w, rfl⟩) _
      split
      · exact .pure _
      · exact hclose _
      · exact .bind (moves_crash he t h) fun _ => .pure _
      · exact .halt _

/-- The handle of a new worker is held by the worker and by whoever stops it, too. -/
theorem rel_startLoop {w : World} {h : HandleId} (hheld : w.Held h) (t : ThreadId) :
    L w ((((w.newLoop (.handle h)).2.setPhase w.nextLoop .running).hold h).hold h |>.modifyThread t
      fun thread => { thread with role := .looping h w.nextLoop }) := by
  have hheld' : (w.startLoop h t).Held h := hheld
  have hhold : L w ((w.startLoop h t).hold h) :=
    Follows.trans (Crosses.startLoop w h t) (Follows.hold hheld')
  exact Follows.trans hhold (Follows.hold hheld'.hold)

theorem moves_spawn (config : HandleConfig) : (spawn config).Moves L := by
  refine .get_bind fun w => .set_bind (Crosses.newThread w) ?_
  refine movesFrom_asThread w.isRegistered_newThread fun w => ?_
  have hcreate : (create config).run w = .ok (w.found config).1 (w.found config).2 := rfl
  refine .bind (.of_rel (Follows.found w config)) fun h w' hw' => ?_
  cases hcreate.symm.trans hw'
  exact .modify_bind (rel_startLoop (w.held_found config) _) (.pure _ _)

theorem moves_shutdown (he : e.Moves L) (t : ThreadId) (h : HandleId) :
    (shutdown e t h).Moves L := by
  refine .bind (Handle.moves_stopLoop h) fun _ => ?_
  refine .bind (moves_waitUntil he _ _ _) fun _ => .get_bind fun w => ?_
  exact Act.Moves.bind (Handle.moves_release he h) (fun _ => .pure _) w

theorem moves_serve (he : e.Moves L) (t : ThreadId) : (serve e t).Moves L := by
  refine .bind (moves_processOneEvent he _) fun result => ?_
  cases result with
  | ok served => exact .pure _
  | error error =>
    refine .bind (.modify fun w => Crosses.modifyThread (fun thread => ?_) w t) fun _ => .pure _
    split
    · next hrole => exact ⟨rfl, by rw [hrole]; rfl⟩
    · exact ⟨rfl, rfl⟩

end Worker

end

namespace Worker

omit [Tracks L R] in
/-- A thread that runs a loop by itself goes through a round of it. -/
theorem movesFrom_round [Roams L] [Notes e L] (he : e.Moves L) {t : ThreadId} {h : HandleId}
    {l : LoopId} {thread : Thread} (hthread : w.threads.get? t = some thread)
    (hrole : thread.role.loop? = some l) : (asThread t (round e t h l)).MovesFrom L w := by
  have ht := World.isRegistered_of_get? hthread
  rcases Crosses.tends (L := L) hthread hrole with htends | hfree
  · exact movesFrom_asThread ht (moves_round he t h l)
  · intro htidy
    have hleads := (movesFrom_asThread ht (moves_round he.leads t h l) htidy).leads
    exact ⟨hleads, fun _ => hfree _ hleads (current_after_asThread t _ w)⟩

/-- A thread takes a turn of its own only if several threads act. -/
theorem moves_turn [Roams L] [Notes e L] (he : e.Moves R) (t : ThreadId) : (turn e t).Moves R := by
  refine .get_bind fun w => ?_
  have hnot {thread : Thread} (hthread : w.threads.get? t = some thread)
      (hrole : thread.role ≠ .resting) : ¬w.Solo :=
    fun hsolo => hrole (hsolo.passive t thread hthread).role
  split
  · next errors agenda depth hthread =>
    exact .foreign (hnot hthread nofun)
      (movesFrom_asThread (World.isRegistered_of_get? hthread) (moves_serve he.all t))
  · next h l agenda depth hthread =>
    exact .foreign (hnot hthread nofun) (movesFrom_round he.all hthread rfl)
  · exact .refl w rfl

theorem moves_create (config : HandleConfig) : (create config).Moves R :=
  .get_bind fun w => .set_bind (Follows.found w config) (.refl _ rfl)

end Worker

/-! ### The engine -/

section

variable [Roams L]

theorem moves_perform [Notes e L] [Notes e R] (he : e.Moves R) {α : Type} (task : Task α) :
    (perform e task).Moves R := by
  cases task with
  | script i source => exact moves_evalScript he i source
  | words i words => exact moves_invokeWords he i words
  | event flags => exact moves_oneEvent he flags
  | closure closure args =>
    exact .bind (.modify fun w => Tracks.record w rfl) fun _ => Closure.moves_run he args closure
  | turn t => exact Worker.moves_turn he t

variable [∀ fuel, Notes ⟨fuel, runWithin fuel⟩ L] [∀ fuel, Notes ⟨fuel, runWithin fuel⟩ R]

omit [Tracks L R] [Roams L] [∀ fuel, Notes ⟨fuel, runWithin fuel⟩ L] in
instance : Notes engine R :=
  inferInstanceAs (Notes ⟨ampleFuel, runWithin ampleFuel⟩ R)

theorem moves_runWithin (fuel : Nat) {α : Type} (task : Task α) : (runWithin fuel task).Moves R := by
  induction fuel generalizing α with
  | zero => exact .halt _
  | succ fuel ih => exact moves_perform (fun task => ih task) task

theorem moves_engine : engine.Moves R :=
  moves_runWithin ampleFuel

end

omit L in
/-- The machine can do whatever the engine does. -/
theorem leads_engine : engine.Moves Leads :=
  moves_engine

end ScriptHost
