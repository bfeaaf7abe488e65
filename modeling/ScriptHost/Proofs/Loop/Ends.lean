import ScriptHost.Proofs.Handle.Fatal
import ScriptHost.Proofs.Loop.Host

/-!
# The timer of a loop that ended

A loop that returns has stopped its timer for good, with an error or without. A loop that a panic cuts
short, or a fatal signal when it runs inside of a host closure, stops nothing: it is still running by
its own account, and if its timer was pending, this goes on arming itself.
-/

namespace ScriptHost

open Run World Keepalive

/-- Code that a host may run: whatever code does is related by some relation, and if the code of loops
that the host runs is so too, then this code is. -/
def Act.IsHostCode {α : Type} (act : Act α) : Prop :=
  ∀ L : World → World → Prop, [Spans L] → [∀ fuel, Records ⟨fuel, runWithin fuel⟩ L] →
    (∀ interval {done : Act Bool}, done.Moves L → (EventLoop.run engine interval done).Moves L) →
    act.Moves L

namespace EventLoop

variable {homes : Homes} {w w' : World} {l : LoopId} {t : ThreadId} {done : Act Bool}

/-! ### Loops as code -/

/-- Code may run loops of its own while other loops are at home somewhere. -/
theorem moves_run_beats (interval : Interval) (hdone : done.Moves (Beats homes)) :
    (run engine interval done).Moves (Beats homes) := by
  intro w
  cases hhome : homes w.nextLoop with
  | none =>
    have htends : Tends (Beats homes) w.nextLoop := Beats.tends hhome
    exact .get_bind (.set_bind (Follows.newLoop w interval) (moves_runLoop moves_engine _ hdone _))
  -- no loop is at home anywhere that has not been made
  | some t =>
    intro htidy
    have hleads := (moves_run moves_engine interval hdone.leads w htidy).leads
    exact ⟨hleads, fun _ => ⟨hleads, fun hw => absurd (hw.home _ t hhome).1 (Nat.lt_irrefl _)⟩⟩

theorem moves_of_isHostCode {α : Type} {act : Act α} (hact : act.IsHostCode) :
    act.Moves (Beats homes) :=
  hact (Beats homes) fun interval _ hdone => moves_run_beats interval hdone

/-! ### The parts of a run -/

theorem within_self (l : LoopId) (t : ThreadId) : within l t l = some t :=
  if_pos rfl

theorem stageOf?_setPhase {stage : LoopPhase × Bool}
    (h : w.stageOf? l = some stage) (phase : LoopPhase) :
    (w.setPhase l phase).stageOf? l = some (phase, stage.2) := by
  obtain ⟨loop, hloop, rfl⟩ := Option.map_eq_some_iff.1 h
  rw [stageOf?, World.setPhase, get?_modifyLoop, if_pos rfl, hloop]
  rfl

/-- A new loop is at home on the thread that runs it. -/
theorem tended_begin (hw : w.Tended nowhere) (interval : Interval) :
    ((w.newLoop interval).2.setPhase w.nextLoop .running).Tended (within w.nextLoop w.current) := by
  have hbegun := (hw.newLoop interval).setPhase w.nextLoop .running
  refine { hbegun with home := fun l t hhome => ?_ }
  rw [within] at hhome
  split at hhome
  · next hl =>
    subst hl
    refine ⟨Nat.lt_succ_self _, fun t' hl' => ?_, fun t' timer htimer => ?_⟩
    · exact Nat.lt_irrefl _ (hw.assigned t' _ hl')
    · obtain ⟨loop, hloop, -⟩ := hw.known t' _ timer htimer
      exact absurd (hw.numbered _ (hloop ▸ rfl)) (Nat.lt_irrefl _)
  · cases hhome

theorem stageOf?_begin (w : World) (interval : Interval) :
    ((w.newLoop interval).2.setPhase w.nextLoop .running).stageOf? w.nextLoop =
      some (.running, true) := by
  have hget : (w.newLoop interval).2.loops.get? w.nextLoop = some { interval } :=
    (Table.get?_insert w.loops w.nextLoop w.nextLoop _).trans (if_pos rfl)
  have hidle : (w.newLoop interval).2.stageOf? w.nextLoop = some (.idle, true) := by
    rw [stageOf?, hget]
    rfl
  exact stageOf?_setPhase hidle .running

/-- While a loop goes through its rounds, all that happens to it is that its timer is armed. -/
theorem beats_rounds (hw : w.Tended (within l w.current)) (htidy : w.Tidy) (hdone : done.IsHostCode)
    (count : Nat) :
    Beats (within l w.current) w ((catchFatal (rounds engine l done count)).after w) := by
  have hrounds : (rounds engine l done count).MovesFrom (Beats (within l w.current)) w := by
    refine movesFrom_rounds (P := fun u => u.current = w.current ∧ u.Tended (within l w.current))
      moves_engine l (moves_of_isHostCode hdone) (fun h hu => ?_) (fun u hu => ?_) count ⟨rfl, hw⟩
    · exact ⟨(h.run hu.2).1.trans hu.1, h.tended hu.2⟩
    · refine .of_step (leads_ensureArmed u l) (current_of_scene_eq (scene_ensureArmed u l))
        (.arm u fun t hhome => ?_)
      rw [within_self] at hhome
      exact hu.1.trans (Option.some.inj hhome)
  exact (movesFrom_catchFatal hrounds htidy).rel .of_patient

theorem beats_drain (htidy : w.Tidy) (count : Nat) :
    Beats homes w ((catchFatal (drain engine count)).after w) :=
  (moves_catchFatal (moves_drain moves_engine count) w htidy).rel .of_patient

/-- A loop that closes is over and stops, unless what is queued cuts this short. -/
theorem close_cases (hw : w.Tended (within l w.current)) (htidy : w.Tidy)
    (hstage : w.stageOf? l = some (.running, true)) (result : Except HostError Unit) :
    (∃ result' w', close engine l result w = .ok result' w' ∧ w'.Over l ∧
      w'.stageOf? l = some (.stopped, false)) ∨
    ∃ halt w', close engine l result w = .error halt w' ∧
      w'.stageOf? l = some (.draining, false) := by
  have hover := hw.over_stopKeepalive (within_self l w.current) hstage
  have hended := hw.stopKeepalive l
  have hidle : (w.stopKeepalive l).stageOf? l = some (.running, false) := by
    rw [stageOf?_stopKeepalive, hstage, Option.map_some]
  rw [close, Act.modify_bind]
  cases result with
  | error error => exact .inl ⟨_, _, rfl, hover.setPhase l .stopped, stageOf?_setPhase hidle .stopped⟩
  | ok _ =>
    have hdraining : ((w.stopKeepalive l).setPhase l .draining).Tended (within l w.current) :=
      hended.setPhase l .draining
    have htidy' : ((w.stopKeepalive l).setPhase l .draining).Tidy :=
      ((leads_stopKeepalive w l).tidy htidy).of_interpreters_eq rfl
    have hbeats : Beats (within l w.current) _ _ := beats_drain htidy' ampleFuel
    obtain ⟨-, hrun⟩ := hbeats.run hdraining
    have hdrained := (hdraining.stageOf?_run (within_self l w.current) hrun).trans
      (stageOf?_setPhase hidle .draining)
    have hover' := (hover.setPhase l .draining).run hdraining hrun
    dsimp only
    rw [Act.modify_bind]
    cases hdrain : catchFatal (drain engine ampleFuel) ((w.stopKeepalive l).setPhase l .draining) with
    | ok drained u =>
      rw [Act.after_of_ok hdrain] at hdrained hover'
      refine .inl ⟨drained, u.setPhase l .stopped, ?_, hover'.setPhase l .stopped,
        stageOf?_setPhase hdrained .stopped⟩
      exact (Act.bind_of_ok hdrain _).trans rfl
    | error halt u =>
      rw [Act.after_of_error hdrain] at hdrained
      exact .inr ⟨halt, u, Act.bind_of_error hdrain _, hdrained⟩

/-- A loop that returns is over and has stopped, and one that is cut short has not. -/
theorem run_cases (hw : w.Tended nowhere) (htidy : w.Tidy) (interval : Interval)
    (hdone : done.IsHostCode) :
    (∃ result w', run engine interval done w = .ok result w' ∧ w'.Over w.nextLoop ∧
      w'.stageOf? w.nextLoop = some (.stopped, false)) ∨
    ∃ halt w', run engine interval done w = .error halt w' ∧
      ∃ phase active, w'.stageOf? w.nextLoop = some (phase, active) ∧ phase ≠ .stopped := by
  have hbegun := tended_begin hw interval
  have hstage := stageOf?_begin w interval
  have htidy' : ((w.newLoop interval).2.setPhase w.nextLoop .running).Tidy :=
    htidy.of_interpreters_eq rfl
  have hrun : run engine interval done w =
      (catchFatal (rounds engine w.nextLoop done ampleFuel) >>= fun result =>
        close engine w.nextLoop result) ((w.newLoop interval).2.setPhase w.nextLoop .running) := rfl
  have hcurrent : ((w.newLoop interval).2.setPhase w.nextLoop .running).current = w.current := rfl
  rw [hrun]
  rw [← hcurrent] at hbegun
  generalize (w.newLoop interval).2.setPhase w.nextLoop .running = v at *
  have hbeats := beats_rounds hbegun htidy' hdone ampleFuel
  obtain ⟨hsame, hrun⟩ := hbeats.run hbegun
  have hserved := (hbegun.stageOf?_run (within_self _ v.current) hrun).trans hstage
  cases hrounds : catchFatal (rounds engine w.nextLoop done ampleFuel) v with
  | ok result u =>
    rw [Act.after_of_ok hrounds] at hbeats hsame hserved
    have hhome : u.Tended (within w.nextLoop u.current) := hsame ▸ hbeats.tended hbegun
    rw [Act.bind_of_ok hrounds]
    refine (close_cases hhome (hbeats.leads.tidy htidy') hserved result).imp_right ?_
    rintro ⟨halt, w', hclose, hdraining⟩
    exact ⟨halt, w', hclose, .draining, false, hdraining, by decide⟩
  | error halt u =>
    rw [Act.after_of_error hrounds] at hserved
    exact .inr ⟨halt, u, Act.bind_of_error hrounds _, .running, true, hserved, by decide⟩

/-! ### Whether the timer outlives the loop -/

end EventLoop

/-- At most one timer of a loop is pending, on whatever thread. -/
structure World.AtMostOne (l : LoopId) (w : World) : Prop where
  each : ∀ t, (w.keepalives t l).length ≤ 1
  once : ∀ t t', w.keepalives t l ≠ [] → w.keepalives t' l ≠ [] → t = t'

theorem World.Tended.atMostOne {homes : Homes} {w : World} (hw : w.Tended homes) (l : LoopId) :
    w.AtMostOne l := by
  refine ⟨fun t => ?_, fun t t' ht ht' => ?_⟩
  · have hnodup : (w.keepalives t l).Nodup := (hw.sound t).nodup_timers.of_map.filter _
    have hall := hw.one l t t
    generalize w.keepalives t l = timers at hnodup hall
    match timers with
    | [] => exact Nat.zero_le 1
    | [_] => exact Nat.le_refl 1
    | timer :: timer' :: rest =>
      obtain ⟨-, rfl⟩ := hall timer timer' List.mem_cons_self
        (List.mem_cons_of_mem _ List.mem_cons_self)
      exact absurd List.mem_cons_self (List.nodup_cons.1 hnodup).1
  · obtain ⟨timer, htimer⟩ := List.exists_mem_of_ne_nil _ ht
    obtain ⟨timer', htimer'⟩ := List.exists_mem_of_ne_nil _ ht'
    exact (hw.one l t t' timer timer' htimer htimer').1

/-- Take a host in any state that its loops can be in, also in the middle of a host closure. It runs a
loop, at any interval and until any condition of its own, whatever the events, the other threads and
the handlers do. At every moment of this run and after it at most one timer of the loop is pending, on
whatever thread. The loop ends with its state stopped and its timer gone, which then never is armed
again, exactly if it returns: with a result, an interrupt or a fatal signal, but not if a panic or, in a
host closure, a fatal signal cuts it short. -/
theorem EventLoop.keepalive_ends_iff (files : Machine.Files) (globalTimerMs : Nat)
    (interval : Interval) {done : Act Bool} (hdone : done.IsHostCode) {w : World} (htidy : w.Tidy)
    (hreached : Keepalive.Run nowhere (World.fresh files globalTimerMs) w) :
    let w' := (EventLoop.run engine interval done).after w
    (∀ calls, Keepalive.Run nowhere w (ApiCall.runAll calls w)) ∧
    Keepalive.Run nowhere w w' ∧ (∀ calls, Keepalive.Run nowhere w' (ApiCall.runAll calls w')) ∧
    (∀ u, Keepalive.Run nowhere w u → u.AtMostOne w.nextLoop) ∧
    ((∃ result, EventLoop.run engine interval done w = .ok result w') ↔
      (w'.loops.get? w.nextLoop).map (·.phase) = some .stopped ∧
      ∀ u, Keepalive.Run nowhere w' u → ∀ t, u.keepalives t w.nextLoop = []) := by
  intro w'
  have hw := (World.tended_fresh files globalTimerMs).run hreached
  have hbeats : Beats nowhere w w' :=
    (moves_run_beats interval (moves_of_isHostCode hdone) w htidy).rel .of_patient
  obtain ⟨-, hrun⟩ := hbeats.run hw
  have hw' := hw.run hrun
  refine ⟨fun calls => ((ApiCall.beats_runAll htidy calls).run hw).2, hrun,
    fun calls => ((ApiCall.beats_runAll (hbeats.leads.tidy htidy) calls).run hw').2,
    fun u hu => (hw.run hu).atMostOne _, ?_⟩
  have hphase {phase : LoopPhase} {active : Bool} (h : w'.stageOf? w.nextLoop = some (phase, active)) :
      (w'.loops.get? w.nextLoop).map (·.phase) = some phase := by
    obtain ⟨loop, hloop, hstage⟩ := Option.map_eq_some_iff.1 h
    rw [hloop, Option.map_some]
    exact congrArg (fun stage => some stage.1) hstage
  rcases run_cases hw htidy interval hdone with
    ⟨result, u, hends, hover, hstopped⟩ | ⟨halt, u, hcut, phase, active, hstage, hrunning⟩
  · obtain rfl : w' = u := Act.after_of_ok hends
    refine iff_of_true ⟨result, hends⟩ ⟨hphase hstopped, fun v hv t => ?_⟩
    exact List.eq_nil_iff_forall_not_mem.2 ((hover.run hw' hv).silent t)
  · obtain rfl : w' = u := Act.after_of_error hcut
    refine iff_of_false (fun ⟨result, hends⟩ => ?_) fun h => ?_
    · cases hcut.symm.trans hends
    · exact hrunning (Option.some.inj ((hphase hstage).symm.trans h.1))

/-! ### A handler that panics -/

/-- The calls of a host that makes an interpreter, which evaluates scripts. -/
def hostingCalls (scripts : List String) : List ApiCall :=
  .create false :: scripts.map fun script => .evaluate 0 (.eval script)

/-- A host has made an interpreter, which has evaluated scripts. -/
def hosting (scripts : List String) : World :=
  ApiCall.runAll (hostingCalls scripts) (World.fresh .empty 0)

/-- A condition that holds when the first loop asks for it the third time. -/
def askedThrice : Act Bool := do
  return 3 ≤ (← get).asksOf 0

theorem EventLoop.keepalive_ends_idle :
    let w := hosting ["set x 1"]
    let w' := (EventLoop.run engine (.fixed 5) askedThrice).after w
    (∃ result, EventLoop.run engine (.fixed 5) askedThrice w = .ok result w') ∧
      (w'.loops.get? 0).map (·.phase) = some .stopped ∧
      ∀ u, Keepalive.Run nowhere w' u → ∀ t, u.keepalives t 0 = [] := by
  intro w w'
  have hbeats := ApiCall.beats_runAll (World.tidy_fresh .empty 0) (hostingCalls ["set x 1"])
  have hreached := (hbeats.run (World.tended_fresh .empty 0)).2
  have htidy : w.Tidy := hbeats.leads.tidy (World.tidy_fresh .empty 0)
  have hdone : askedThrice.IsHostCode := fun L _ _ _ => .get_bind fun w => .refl w rfl
  have hends : EventLoop.run engine (.fixed 5) askedThrice w = .ok (.ok ()) w' :=
    Act.eq_ok_of_value? (by decide +kernel)
  have hnext : w.nextLoop = 0 := by decide +kernel
  have hall := keepalive_ends_iff .empty 0 (.fixed 5) hdone htidy hreached
  rw [hnext] at hall
  exact ⟨⟨_, hends⟩, hall.2.2.2.2.1 ⟨_, hends⟩⟩

/-- An idle handler panics, because it goes on in a procedure whose interpreter was deleted meanwhile.
The loop that serves it is cut short. It runs on by its own account, and its timer is pending, also when
the next piece of work has been served. -/
theorem EventLoop.keepalive_left :
    let w := hosting ["interp create c", "after 0 {interp eval c {proc p {} {update}; catch {p} ::v}}",
      "after idle {interp delete c}"]
    let w' := (EventLoop.run engine (.fixed 5) askedThrice).after w
    (EventLoop.run engine (.fixed 5) askedThrice).value? w = none ∧
      (w'.loops.get? 0).map (·.phase) = some .running ∧ (w'.keepalives 0 0).length = 1 ∧
      ((Act.after (engine.call (.event .all)) w').keepalives 0 0).length = 1 := by
  decide +kernel

end ScriptHost
