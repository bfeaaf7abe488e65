import ScriptHost.Proofs.Handle.Agreement
import ScriptHost.Proofs.Timetable.Exact

/-!
# The timetable of a host

As long as one thread acts, whatever the code of a host does is a run of the timetable: whether scripts
are evaluated, work is served in nested loops, handles come and go or interpreters are deleted, it
comes down to scheduling, cancelling, serving and deleting, one step after the other.
-/

namespace ScriptHost

/-! ### What has nothing to do with the timetable -/

namespace World

variable {w w' : World} {i : InterpId}

theorem Passes.of_still (hstill : w.Still w') (hinterps : w'.interpreters = w.interpreters)
    (hcurrent : w'.current = w.current) (hthreads : ThreadsRest w w') : w.Passes w' := by
  have hinterp := interp_eq_of_interpreters_eq hinterps
  obtain ⟨htable, hnext⟩ := Prod.mk.inj hinterps
  refine ⟨hcurrent, hthreads.isSome_eq _, ?_, fun j => ?_, fun j _ => ?_, fun j => ?_, hnext,
    fun l token htoken => ?_⟩
  · change (w'.agendaOf w'.current).slots = (w.agendaOf w.current).slots
    rw [hcurrent]
    exact hstill.slots w.current
  · rw [hinterp]
  · rw [hinterp]
  · rw [htable]
  · have hwatch := hstill.watch l
    rw [keepalive?] at htoken ⊢
    obtain ⟨loop', hloop', htoken⟩ := Option.bind_eq_some_iff.1 htoken
    rw [hloop', Option.map_some] at hwatch
    obtain ⟨loop, hloop, hsame⟩ := Option.map_eq_some_iff.1 hwatch.symm
    rw [hloop]
    exact (congrArg (·.2.2) hsame).trans htoken

/-- Only handles, replies, what is printed and the like change. -/
theorem Passes.of_threading_eq (h : w'.threading = w.threading)
    (hinterps : w'.interpreters = w.interpreters) : w.Passes w' := by
  have hagenda := agenda_eq_of_threading_eq h
  have hinterp := interp_eq_of_interpreters_eq hinterps
  obtain ⟨htable, hnext⟩ := Prod.mk.inj hinterps
  simp only [threading, Prod.mk.injEq] at h
  obtain ⟨hthreads, hcurrent, -, hloops, -⟩ := h
  refine ⟨hcurrent, ?_, ?_, fun j => ?_, fun j _ => ?_, fun j => ?_, hnext, fun l token htoken => ?_⟩
  · rw [isRegistered, isRegistered, hthreads]
  · rw [hagenda]
  · rw [hinterp]
  · rw [hinterp]
  · rw [htable]
  · rwa [keepalive?, hloops] at htoken

theorem Passes.refl (w : World) : w.Passes w :=
  .of_threading_eq rfl rfl

theorem Passes.modifyInterp {f : Interpreter → Interpreter}
    (htimetable : ∀ r, (f r).timetable = r.timetable)
    (hchildren : ∀ r, w.interps.get? i = some r → r.deleted = true → (f r).children = r.children) :
    w.Passes (w.modifyInterp i f) := by
  refine ⟨rfl, rfl, rfl, keeps_modifyInterp Interpreter.timetable htimetable w i, fun j hgone => ?_,
    fun j => ?_, rfl, fun _ _ => id⟩
  · by_cases hij : i = j
    · subst hij
      cases hr : w.interps.get? i with
      | none => rw [interp, interp, Table.getD, Table.getD, get?_modifyInterp, hr, if_pos rfl]; rfl
      | some r =>
        have hsame : (f r).deleted = r.deleted := congrArg Prod.fst (htimetable r)
        rw [interp_modifyInterp_self (by rw [hr]; rfl), interp_of_get? hr] at hgone ⊢
        exact hchildren r hr (hsame ▸ hgone)
    · rw [interp_modifyInterp_of_ne hij]
  · rw [get?_modifyInterp]
    split <;> simp

theorem Passes.of_station_eq {f : Interpreter → Interpreter}
    (htimetable : ∀ r, (f r).timetable = r.timetable) (hstation : ∀ r, (f r).station = r.station)
    (w : World) (i : InterpId) : w.Passes (w.modifyInterp i f) :=
  .modifyInterp htimetable fun r _ _ => congrArg (·.1.2.2.2) (hstation r)

theorem Passes.newLoop (w : World) (interval : Interval) : w.Passes (w.newLoop interval).2 := by
  refine ⟨rfl, rfl, rfl, fun _ => rfl, fun _ _ => rfl, fun _ => rfl, rfl, fun l token htoken => ?_⟩
  have hget : (w.newLoop interval).2.loops.get? l =
      if w.nextLoop = l then some { interval } else w.loops.get? l :=
    Table.get?_insert w.loops w.nextLoop l _
  rw [keepalive?, hget] at htoken
  split at htoken
  · cases htoken
  · exact htoken

theorem Passes.setPhase (w : World) (l : LoopId) (phase : LoopPhase) : w.Passes (w.setPhase l phase) := by
  refine ⟨rfl, rfl, rfl, fun _ => rfl, fun _ _ => rfl, fun _ => rfl, rfl, fun l' token htoken => ?_⟩
  rw [keepalive?, World.setPhase, get?_modifyLoop] at htoken
  split at htoken
  · rwa [Option.bind_map] at htoken
  · exact htoken

end World

/-! ### Code that makes, changes and deletes interpreters -/

namespace Timetable

open World

/-- There is a run of the timetable between two worlds. -/
def Reaches (w w' : World) : Prop :=
  ∃ record, Run w record w'

namespace Reaches

variable {w u w' : World}

theorem refl (w : World) : Reaches w w :=
  ⟨[], .start⟩

theorem trans (h : Reaches w u) (h' : Reaches u w') : Reaches w w' := by
  obtain ⟨record, hrun⟩ := h
  obtain ⟨record', hrun'⟩ := h'
  exact ⟨record ++ record', hrun.append hrun'⟩

theorem step {deeds : List Deed} (h : Step w deeds w') : Reaches w w' :=
  ⟨[] ++ deeds, .step .start h⟩

theorem pass (h : w.Passes w') : Reaches w w' :=
  .step (.pass h)

theorem foldl {α : Type} {f : World → α → World} (hf : ∀ w a, Reaches w (f w a)) (as : List α)
    (w : World) : Reaches w (as.foldl f w) := by
  induction as generalizing w with
  | nil => exact .refl w
  | cons a as ih => exact (hf w a).trans (ih (f w a))

theorem modifyInterp {f : Interpreter → Interpreter}
    (htimetable : ∀ r, (f r).timetable = r.timetable) (hstation : ∀ r, (f r).station = r.station)
    (w : World) (i : InterpId) : Reaches w (w.modifyInterp i f) :=
  .pass (.of_station_eq htimetable hstation w i)

theorem callWhenDeleted (w : World) (i : InterpId) (h : HandleId) :
    Reaches w (w.callWhenDeleted i (.untrack h)) := by
  rw [World.callWhenDeleted, runDeleteHook]
  split
  · exact .pass (.of_threading_eq (threading_untrack w h) (interpreters_untrack w h))
  · refine .pass (.modifyInterp (fun r => ?_) fun r _ _ => ?_)
    · rfl
    · rfl

theorem defineCommand (w : World) (i : InterpId) (name : String) (command : Command) :
    Reaches w (w.defineCommand i name command) := by
  refine .modifyInterp (fun r => ?_) (fun r => ?_) w i <;> split <;> rfl

theorem adopt (w : World) (i : InterpId) (config : HandleConfig) :
    Reaches w (w.adopt i config).2 := by
  have hadd : Reaches w (w.addHandle i config).2 := .pass (.of_threading_eq rfl rfl)
  have htrack (w : World) (h : HandleId) : Reaches w (w.track h) :=
    .pass (.of_threading_eq rfl rfl)
  have hhook (w : World) : Reaches w (w.modifyInterp i fun r =>
      { r with childHooks := r.childHooks ++ [.adopt config] }) := by
    refine .pass (.modifyInterp (fun r => ?_) fun r _ _ => ?_)
    · rfl
    · rfl
  exact ((((hadd.trans (.defineCommand _ i _ _)).trans (.defineCommand _ i _ _)).trans
    (hhook _)).trans (.callWhenDeleted _ i _)).trans (htrack _ _)

theorem runChildHook (child : InterpId) (w : World) (hook : ChildHook) :
    Reaches w (runChildHook child w hook) := by
  cases hook with
  | log label => exact .pass (.of_threading_eq rfl rfl)
  | adopt config =>
    have hpin (w : World) (h : HandleId) :
        Reaches w (w.modifyHandle h fun handle => { handle with pinned := true }) :=
      .pass (.of_threading_eq rfl rfl)
    exact (Reaches.adopt w child _).trans (hpin _ _)

theorem createChild (w : World) (parent : InterpId) (name : String) (safe : Bool) :
    Reaches w (w.createChild parent name safe).2 := by
  rw [World.createChild]
  dsimp only
  split
  · exact .refl w
  · next hlive =>
    split
    · exact .refl w
    · split
      · exact .refl w
      · have hcreate : Reaches w (w.newInterp name (safe || (w.interp parent).safe) (some parent)).2 :=
          .step (.create w name _ (some parent))
        refine hcreate.trans (.trans (.pass (.modifyInterp (fun r => ?_) fun r hr hgone => ?_))
          (.foldl (.runChildHook _) _ _))
        · rfl
        -- the parent is live, so it may have children
        · have hparent := interp_newInterp w name (safe || (w.interp parent).safe) (some parent) parent
          rw [interp_of_get? hr] at hparent
          rw [hparent] at hgone
          split at hgone
          · cases hgone
          · exact absurd hgone hlive

theorem found (w : World) (config : HandleConfig) : Reaches w (w.found config).2 := by
  have hcreate : Reaches w (w.newInterp "" config.safe none).2 := .step (.create w "" config.safe none)
  have hhold (w : World) (h : HandleId) : Reaches w (w.hold h) := .pass (.of_threading_eq rfl rfl)
  exact (hcreate.trans (.adopt _ w.nextInterp config)).trans (hhold _ _)

theorem deleteInterp (w : World) (i : InterpId) : Reaches w (w.deleteInterp i) := by
  rw [World.deleteInterp]
  split
  · exact .step (.addIdle w rfl)
  · exact .step (.delete w i)

theorem giveUp (w : World) (h : HandleId) : Reaches w (w.giveUp h) := by
  have htake : Reaches w (w.takeInterp h).2 := .pass (.of_threading_eq rfl rfl)
  rw [World.giveUp]
  split
  · next i u hu =>
    rw [hu] at htake
    exact htake.trans (.deleteInterp u i)
  · next u hu =>
    rwa [hu] at htake

theorem deleteHandle (hsolo : w.Solo) (h : HandleId) : Reaches w (w.deleteHandle h) := by
  rw [World.deleteHandle]
  split
  · exact .refl w
  · next handle hhandle =>
    have howner : w.onOwner h = true := by
      rw [onOwner, hhandle]
      exact decide_eq_true (hsolo.owner h _ (standing?_of_get? hhandle))
    rw [if_pos howner]
    split
    · exact .refl w
    · exact (Reaches.giveUp w h).trans
        (.pass (.of_threading_eq (threading_markDeleted _ h) (interpreters_markDeleted _ h)))

end Reaches

end Timetable

/-! ### Whatever a host does -/

namespace Run

open World Timetable

variable {w u w' : World} {lost : Set HandleId} {h : HandleId}

theorem Proceeds.sound (h : Proceeds w w') (hw : w.Sound) : w'.Sound := by
  obtain ⟨lost, h⟩ := h
  obtain ⟨hbooks, hages⟩ := h.books hw.tidy hw.solo hw.books
  exact ⟨h.leads.tidy hw.tidy, hages.solo hw.solo, hbooks⟩

/-- As long as one thread acts, code is a run of the timetable. -/
structure Schedules (w w' : World) : Prop where
  proceeds : Proceeds w w'
  reaches : w.Sound → Reaches w w'

/-- What happens between two changes of an interpreter that have nothing to do with scripts. -/
theorem Schedules.reaches_bracket {i : InterpId} {f g : Interpreter → Interpreter}
    (h : Schedules (w.modifyInterp i f) w')
    (hdepth : ∀ r, r.depth ≤ Interpreter.maxDepth → (f r).depth ≤ Interpreter.maxDepth)
    (hf : ∀ r, (f r).timetable = r.timetable ∧ (f r).station = r.station)
    (hg : ∀ r, (g r).timetable = r.timetable ∧ (g r).station = r.station) (hw : w.Sound) :
    Reaches w (w'.modifyInterp i g) := by
  have hsound : (w.modifyInterp i f).Sound := by
    refine ⟨hw.tidy.modifyInterp hdepth, (ages_modifyInterp w i f).solo hw.solo,
      hw.books.of_plans_eq i fun r => ?_⟩
    have htimetable := (hf r).1
    have hstation := (hf r).2
    simp only [Interpreter.timetable, Interpreter.station, Prod.mk.injEq] at htimetable hstation
    rw [Interpreter.plans, Interpreter.plans, htimetable.1, hstation.2, htimetable.2.1]
  have hopen := Reaches.modifyInterp (fun r => (hf r).1) (fun r => (hf r).2) w i
  exact (hopen.trans (h.reaches hsound)).trans
    (.modifyInterp (fun r => (hg r).1) (fun r => (hg r).2) w' i)

/-- The last holder of a handle goes, and its work is served as far as it comes. -/
theorem Schedules.reaches_served (hgone : (w.unhold h).Gone h)
    (hdropped : ((w.unhold h).unregister h).Rests u)
    (hstill : ((w.unhold h).unregister h).Still u) (hserved : Schedules u w') (hw : w.Sound) :
    Reaches w w' := by
  obtain ⟨htidy, hsolo, hbooks, -⟩ := books_dropped hw.tidy hw.solo hw.books hgone hdropped
  have hgo : Reaches w ((w.unhold h).unregister h) := .pass (.of_threading_eq rfl rfl)
  have hdrop : ((w.unhold h).unregister h).Passes u :=
    .of_still hstill hdropped.interpreters hdropped.current hdropped.threads
  exact (hgo.trans (.pass hdrop)).trans (hserved.reaches ⟨htidy, hsolo, hbooks⟩)

instance : Covers Leads Schedules where
  rest h hstill := ⟨Covers.rest h hstill, fun _ =>
    .pass (.of_still hstill h.interpreters h.current h.threads)⟩
  edit hf w i := ⟨Follows.edit hf w i, fun _ => .modifyInterp hf.timetable hf.station w i⟩
  schedule hlive delay script :=
    ⟨Follows.schedule hlive delay script, fun _ => .step (.schedule hlive delay script)⟩
  unschedule w i id := ⟨Follows.unschedule w i id, fun _ => .step (.cancel w i id)⟩
  delete w i := ⟨Follows.delete w i, fun _ => .step (.delete w i)⟩
  serve hnext hplain := ⟨Covers.serve hnext hplain, fun _ => .step (.serve hnext hplain.script)⟩
  fire hnext hscript := ⟨Follows.fire hnext hscript, fun _ => .step (.fire hnext hscript)⟩
  rearm hnext hloop := ⟨Follows.rearm hnext hloop, fun _ =>
    .trans (.step (.serve hnext (Agenda.Work.script_of_loop hloop))) (.step (.armKeepalive _ _))⟩
  newLoop w interval := ⟨Follows.newLoop w interval, fun _ => .pass (.newLoop w interval)⟩
  putOff {w i a} hpop := ⟨Follows.putOff hpop, fun _ =>
    have hserve : Timetable.Step w [] (w.takeOff a) := .serve ((Agenda.next?_idle _ w.clock).trans hpop) rfl
    .trans (.step hserve) (.step (.delete _ i))⟩
  trans h h' := ⟨Follows.trans h.proceeds h'.proceeds, fun hw =>
    (h.reaches hw).trans (h'.reaches (h.proceeds.sound hw))⟩
  call hlive h := ⟨Follows.call hlive h.proceeds, h.reaches_bracket (fun _ => id)
    (fun _ => ⟨rfl, rfl⟩) fun _ => ⟨rfl, rfl⟩⟩
  aside hlive h := ⟨Follows.aside hlive h.proceeds, h.reaches_bracket (fun _ => id)
    (fun _ => ⟨rfl, rfl⟩) fun _ => ⟨rfl, rfl⟩⟩
  command {w w' i name command} hlive hdepth hentry h := by
    refine ⟨Follows.command hlive hdepth hentry h.proceeds, fun hw => ?_⟩
    have hrests : w.Rests (w.record (.invoked i name command)) := .of_tables_eq rfl
    have hbegun : (w.record (.invoked i name command)).Sound :=
      ⟨hw.tidy.of_interpreters_eq rfl, hrests.toStands.solo hw.solo, hw.books.rests hrests⟩
    have hopen : Reaches w (w.record (.invoked i name command)) := .pass (.of_threading_eq rfl rfl)
    have hrun : Schedules ((w.record (.invoked i name command)).modifyInterp i fun r =>
        { r with depth := (w.interp i).depth + 1 }) w' := h
    exact hopen.trans (hrun.reaches_bracket (fun _ _ => hdepth) (fun _ => ⟨rfl, rfl⟩)
      (fun _ => ⟨rfl, rfl⟩) hbegun)
  createChild w p name safe := ⟨Follows.createChild w p name safe, fun _ => .createChild w p name safe⟩
  found w config := ⟨Follows.found w config, fun _ => .found w config⟩
  hold hheld := ⟨Follows.hold hheld, fun _ => .pass (.of_threading_eq rfl rfl)⟩
  takeOver hmem hpinned := ⟨Follows.takeOver hmem hpinned, fun _ => .pass (.of_threading_eq rfl rfl)⟩
  deleteHandle w h := ⟨Follows.deleteHandle w h, fun hw => .deleteHandle hw.solo h⟩
  unhold hstays := ⟨Follows.unhold hstays, fun _ => .pass (.of_threading_eq rfl rfl)⟩
  release hgone hdropped hstill hserved :=
    ⟨Covers.release hgone hdropped hstill hserved.proceeds, fun hw =>
      (hserved.reaches_served hgone hdropped hstill hw).trans (.giveUp _ _)⟩
  foreign hw h := ⟨Follows.foreign hw h, fun hsound => absurd hsound.solo hw⟩
  all h := Follows.all h.proceeds
  leads h := Follows.leads h.proceeds
  patient _ := inferInstance
  coarse _ _ h := h

instance (l : LoopId) : Tends Schedules l where
  arm w := by
    refine ⟨Tends.arm w, fun _ => ?_⟩
    rw [ensureArmed]
    split
    · exact .refl w
    · exact .step (.armKeepalive w l)
  stop w := ⟨Tends.stop w, fun _ => .step (.stopKeepalive w l)⟩
  setPhase w phase := ⟨Tends.setPhase w phase, fun _ => .pass (.setPhase w l phase)⟩

instance (fuel : Nat) : Records ⟨fuel, runWithin fuel⟩ Schedules where
  cut hgone hdropped hstill hserved hcut :=
    ⟨Records.cut hgone hdropped hstill hserved.proceeds hcut,
      hserved.reaches_served hgone hdropped hstill⟩

end Run

/-! ### From one operation to the next -/

namespace Operation

open World Run Timetable

variable {w : World}

end Operation

/-! ### The commands -/

namespace Command

variable (w : World) (i : InterpId)

end Command

namespace Timetable

end Timetable

end ScriptHost
