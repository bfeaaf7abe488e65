import ScriptHost.Proofs.Handle.LoopEnd
import ScriptHost.Proofs.Loop.Serves
import ScriptHost.Proofs.Run.Escape

/-!
# The rounds of a loop

A loop that returns has gone through rounds until its condition held, and then through further ones in
which it served what was posted, until nothing was left. Between any two of its rounds the thread that
runs it is there, and the work that is pending is attended to.
-/

namespace ScriptHost

open Run World

namespace World

variable {w u v w' : World} {sig : Option FatalSignal}

/-! ### A thread that runs code -/

/-- The thread that is running is there and under way. -/
structure Seated (w : World) : Prop where
  engaged : w.current ∈ w.engaged
  registered : w.isRegistered w.current = true

theorem Seated.of_carries (hw : w.Seated) (h : Carries 0 sig w w') : w'.Seated := by
  have hwithin := within_zero_iff.2 hw.registered
  refine ⟨?_, within_zero_iff.1 (hwithin.keeps h.toKeeps (h.own hwithin))⟩
  rw [h.current, h.engaged]
  exact hw.engaged

/-- A world in which a thread may begin to run a loop. -/
structure Ready (w : World) : Prop extends Seated w where
  tidy : w.Tidy
  issued : w.Issued
  sound : w.agenda.Sound

theorem Ready.lt_nextThread (hw : w.Ready) : w.current < w.nextThread :=
  hw.issued.thread _ hw.registered

/-- What a thread does that goes on running: it attends to its work. -/
structure GoesOn (w w' : World) : Prop where
  ready : w'.Ready
  current : w'.current = w.current
  heeds : w.Heeds w'

namespace GoesOn

theorem of_serves (hw : w.Ready) (h : Serves w w') (hseated : w'.Seated) : w.GoesOn w' := by
  obtain ⟨hcurrent, hheeds⟩ := h.heeds hw.issued hw.lt_nextThread
  have hthere : w'.isRegistered w.current = true := hcurrent ▸ hseated.registered
  refine ⟨⟨hseated, h.leads.tidy hw.tidy, hheeds.issued, ?_⟩, hcurrent, hheeds⟩
  rw [agenda, hcurrent]
  exact (hheeds.agenda _ hthere).sound hw.sound

theorem of_scene_eq (hw : w.Ready) (h : Serves w w') (hscene : w'.scene = w.scene) : w.GoesOn w' := by
  have hcarries : Carries 0 none w w' := .of_scene_eq hscene
  exact .of_serves hw h (hw.of_carries hcarries)

theorem refl (hw : w.Ready) : w.GoesOn w :=
  ⟨hw, rfl, Attends.refl w hw.issued⟩

theorem trans (hw : w.Ready) (h : w.GoesOn u) (h' : u.GoesOn w') : w.GoesOn w' :=
  ⟨h'.ready, h'.current.trans h.current, h.heeds.trans hw.issued h'.heeds⟩

/-- The record of the agenda accounts for all work. -/
theorem accounts (hw : w.Ready) (h : w.GoesOn w') : ∃ new, Agenda.Accounts new w.agenda w'.agenda := by
  have hcourse := h.heeds.agenda w.current (h.current ▸ h.ready.registered)
  rw [agenda, agenda, h.current]
  exact hcourse.accounts hw.sound

theorem of_reflTransGen {r : World → World → Prop} (hr : ∀ {u v}, u.Ready → r u v → u.GoesOn v)
    (hw : w.Ready) (h : Relation.ReflTransGen r w w') : w.GoesOn w' := by
  induction h with
  | refl => exact .refl hw
  | tail _ hstep ih => exact ih.trans hw (hr ih.ready hstep)

end GoesOn

end World

/-! ### Code that goes on -/

/-- A condition that a host may give to a loop: it may do whatever code does, and it returns to the
thread that asked for it. -/
structure Act.IsCondition (done : Act Bool) : Prop where
  moves (L : World → World → Prop) [Roams L] [∀ fuel, Notes ⟨fuel, runWithin fuel⟩ L]
    [∀ l, Tends L l] : done.Moves L
  returns {w w' : World} {holds : Bool} (hw : w.Seated) (hdone : done w = .ok holds w') : w'.Seated

namespace Act

variable {α : Type} {act : Act α} {a : α} {w w' : World}

theorem goesOn_of_ok (hact : act.Moves Serves) (hw : w.Ready) (hrun : act w = .ok a w')
    (hseated : w'.Seated) : w.GoesOn w' := by
  have hserves := (hact w hw.tidy).rel (.of_ok hrun)
  rw [after_of_ok hrun] at hserves
  exact .of_serves hw hserves hseated

theorem IsCondition.goesOn {done : Act Bool} (hdone : done.IsCondition) {holds : Bool} (hw : w.Ready)
    (hrun : done w = .ok holds w') : w.GoesOn w' :=
  goesOn_of_ok (hdone.moves Serves) hw hrun (hdone.returns hw.toSeated hrun)

end Act

theorem goesOn_oneEvent {flags : EventFlags} {served : Bool} {w w' : World} (hw : w.Ready)
    (hrun : oneEvent engine flags w = .ok served w') : w.GoesOn w' := by
  have hcarries := (faithful_oneEvent faithful_engine flags w).carries_of_ok hrun hw.engaged
  exact Act.goesOn_of_ok (moves_oneEvent moves_engine flags) hw hrun (hw.of_carries hcarries)

namespace EventLoop

variable {e : Engine} {l : LoopId} {done : Act Bool} {w u v w' : World} {interval : Interval}

/-! ### What a loop goes through -/

/-- The world with which a loop begins. -/
def begin (interval : Interval) (w : World) : World :=
  (w.newLoop interval).2.setPhase w.nextLoop .running

/-- One round of a loop: its condition does not hold, nobody interrupts it, and it serves a piece of work
if any comes. -/
def Round (e : Engine) (l : LoopId) (done : Act Bool) (w w' : World) : Prop :=
  ∃ u served, done (w.countAsk l) = .ok false u ∧ u.hub.interrupted = false ∧
    oneEvent e .all (u.ensureArmed l) = .ok served w'

/-- The condition of a loop holds that began in some world, after a number of rounds. -/
def Holds (e : Engine) (l : LoopId) (done : Act Bool) (w u : World) : Prop :=
  ∃ v, Relation.ReflTransGen (Round e l done) w v ∧ done (v.countAsk l) = .ok true u

/-- A loop whose condition held serves an event that was posted. -/
def Drain (e : Engine) (w w' : World) : Prop :=
  oneEvent e (EventFlags.posted.union .dontWait) w = .ok true w'

/-- The world in which a loop whose condition held begins to serve what was posted. -/
def beginDrain (l : LoopId) (u : World) : World :=
  (u.stopKeepalive l).setPhase l .draining

theorem holds_of_rounds {count : Nat} (hrun : rounds e l done count w = .ok (.ok ()) w') :
    Holds e l done w w' := by
  induction count generalizing w with
  | zero => cases hrun
  | succ count ih =>
    rw [rounds, Act.modify_bind] at hrun
    obtain ⟨holds, u, hdone, hrest⟩ := Act.exists_of_bind_ok hrun
    cases holds with
    | true =>
      cases hrest
      exact ⟨w, .refl, hdone⟩
    | false =>
      rw [if_neg Bool.false_ne_true, Act.get_bind] at hrest
      split at hrest
      · cases hrest
      · next hfree =>
        rw [Act.modify_bind] at hrest
        obtain ⟨served, x, hserve, hrest⟩ := Act.exists_of_bind_ok hrest
        obtain ⟨v, hrounds, hholds⟩ := ih hrest
        have hround : Round e l done w x := ⟨u, served, hdone, Bool.eq_false_iff.2 hfree, hserve⟩
        exact ⟨v, .head hround hrounds, hholds⟩

theorem drained_of_drain {count : Nat} (hrun : drain e count w = .ok (.ok ()) w') :
    ∃ v, Relation.ReflTransGen (Drain e) w v ∧
      oneEvent e (EventFlags.posted.union .dontWait) v = .ok false w' := by
  induction count generalizing w with
  | zero => cases hrun
  | succ count ih =>
    obtain ⟨served, u, hserve, hrest⟩ := Act.exists_of_bind_ok hrun
    cases served with
    | true =>
      obtain ⟨v, hdrained, hlast⟩ := ih hrest
      exact ⟨v, .head hserve hdrained, hlast⟩
    | false =>
      cases hrest
      exact ⟨w, .refl, hserve⟩

/-- A loop that returns has gone through its rounds and has drained the agenda. -/
theorem holds_of_run (hrun : run e interval done w = .ok (.ok ()) w') :
    ∃ u v, Holds e w.nextLoop done (begin interval w) u ∧
      Relation.ReflTransGen (Drain e) (beginDrain w.nextLoop u) v ∧
      oneEvent e (EventFlags.posted.union .dontWait) v = .ok false v ∧
      w' = v.setPhase w.nextLoop .stopped := by
  have hrun : (catchFatal (rounds e w.nextLoop done e.fuel) >>= fun result =>
      close e w.nextLoop result) (begin interval w) = .ok (.ok ()) w' := hrun
  obtain ⟨result, u, hrounds, hclose⟩ := Act.exists_of_bind_ok hrun
  rw [close, Act.modify_bind] at hclose
  cases result with
  | error error => cases hclose
  | ok _ =>
    dsimp only at hclose
    rw [Act.modify_bind] at hclose
    obtain ⟨drained, x, hdrain, hrest⟩ := Act.exists_of_bind_ok hclose
    cases hrest
    obtain ⟨v, hdrained, hlast⟩ := drained_of_drain (ok_of_catchFatal hdrain)
    obtain ⟨rfl, -⟩ := oneEvent_posted_eq_false_iff.1 hlast
    exact ⟨u, x, holds_of_rounds (ok_of_catchFatal hrounds), hdrained, hlast, rfl⟩

/-! ### What is attended to -/

theorem goesOn_begin (hw : w.Ready) (interval : Interval) : w.GoesOn (begin interval w) :=
  .of_scene_eq hw (.of_desk_eq (.rest rfl) rfl rfl) rfl

theorem goesOn_countAsk (hw : w.Ready) (l : LoopId) : w.GoesOn (w.countAsk l) :=
  .of_scene_eq hw (.of_desk_eq (.rest rfl) rfl rfl) rfl

theorem goesOn_ensureArmed (hw : w.Ready) (l : LoopId) : w.GoesOn (w.ensureArmed l) :=
  .of_scene_eq hw (Tends.arm w) (scene_ensureArmed w l)

theorem goesOn_beginDrain (hw : w.Ready) (l : LoopId) : w.GoesOn (beginDrain l w) := by
  have hstop : w.GoesOn (w.stopKeepalive l) :=
    .of_scene_eq hw (Tends.stop w) (scene_stopKeepalive w l)
  exact hstop.trans hw (.of_scene_eq hstop.ready (Tends.setPhase _ .draining) rfl)

theorem goesOn_round (hdone : done.IsCondition) (hw : w.Ready) (h : Round engine l done w w') :
    w.GoesOn w' := by
  obtain ⟨u, served, hasked, -, hserved⟩ := h
  have hcount := goesOn_countAsk hw l
  have hu := hcount.trans hw (hdone.goesOn hcount.ready hasked)
  have harmed := hu.trans hw (goesOn_ensureArmed hu.ready l)
  exact harmed.trans hw (goesOn_oneEvent harmed.ready hserved)

theorem goesOn_rounds (hdone : done.IsCondition) (hw : w.Ready)
    (h : Relation.ReflTransGen (Round engine l done) w w') : w.GoesOn w' :=
  .of_reflTransGen (goesOn_round hdone) hw h

theorem goesOn_holds (hdone : done.IsCondition) (hw : w.Ready) (h : Holds engine l done w u) :
    w.GoesOn u := by
  obtain ⟨v, hrounds, hholds⟩ := h
  have hv := goesOn_rounds hdone hw hrounds
  have hcount := hv.trans hw (goesOn_countAsk hv.ready l)
  exact hcount.trans hw (hdone.goesOn hcount.ready hholds)

theorem goesOn_drain (hw : w.Ready) (h : Relation.ReflTransGen (Drain engine) w w') : w.GoesOn w' :=
  .of_reflTransGen goesOn_oneEvent hw h

end EventLoop

end ScriptHost
