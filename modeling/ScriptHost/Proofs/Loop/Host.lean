import ScriptHost.Proofs.Loop.Tended
import ScriptHost.Proofs.Run.Confinement
import ScriptHost.Proofs.World.Scene

/-!
# The loops of a host

Whatever the code of a host does is a run of the machine for the timers of loops, on however many
threads: interpreters and handles have nothing to do with timers of loops, work that is served was
taken off the agenda, and the timer of a loop that is served arms itself again.
-/

namespace ScriptHost

namespace World

variable {w w' : World} {i : InterpId} {t : ThreadId}

/-! ### Interpreters and handles -/

theorem Dwindles.of_still (hstill : w.Still w') (hthreads : ThreadsRest w w') : w.Dwindles w' := by
  refine ⟨fun t => .of_slots_eq (hstill.slots t), hstill.watch, hstill.nextLoop, fun t l hl => ?_⟩
  have ht := hthreads t
  rw [loopOf?] at hl ⊢
  generalize w.threads.get? t = a, w'.threads.get? t = b at ht hl
  cases ht with
  | none => cases hl
  | some hrests => rwa [Option.bind_some, hrests.role] at hl

theorem dwindles_post (w : World) (t : ThreadId) (event : Event) : w.Dwindles (w.post t event) := by
  have hmodify (w : World) {f : Agenda Event Handler → Agenda Event Handler}
      (hf : ∀ a, (f a).slots = a.slots) : w.Dwindles (w.modifyAgenda t f) :=
    .modifyThread fun thread _ => ⟨.of_slots_eq (hf thread.agenda), rfl⟩
  have hposted : w.Dwindles (w.modifyAgenda t (·.post event)) := hmodify w fun _ => rfl
  have halerted (w : World) : w.Dwindles (w.alert t) := hmodify w fun _ => rfl
  exact hposted.trans (halerted _)

theorem dwindles_cancelAfter (w : World) (token : AfterToken) : w.Dwindles (w.cancelAfter token) := by
  cases token with
  | timer token => exact .setAgenda (Agenda.dwindles_cancelTimer _ token)
  | idle token => exact .setAgenda (Agenda.dwindles_cancelIdle _ token)

theorem dwindles_scheduleAfter (w : World) (i : InterpId) (delay : Option Nat) (script : String) :
    w.Dwindles (w.scheduleAfter i delay script).2 := by
  have hnote {a : Agenda Event Handler} {f : Interpreter → Interpreter} (ha : w.agenda.Dwindles a) :
      w.Dwindles ((w.setAgenda a).modifyInterp i f) :=
    (Dwindles.setAgenda ha).trans (.of_threading_eq rfl)
  cases delay with
  | none => exact hnote (Agenda.dwindles_addIdle _ rfl)
  | some ms => exact hnote (Agenda.dwindles_addTimer _ _ rfl)

theorem scene_unschedule (w : World) (i : InterpId) (id : String) :
    (w.unschedule i id).scene = w.scene := by
  rw [unschedule]
  cases (w.takeAfter i id).1 with
  | none => rfl
  | some token => exact scene_cancelAfter _ token

theorem dwindles_unschedule (w : World) (i : InterpId) (id : String) :
    w.Dwindles (w.unschedule i id) := by
  have hforget : w.Dwindles (w.takeAfter i id).2 := .of_threading_eq rfl
  rw [unschedule]
  cases (w.takeAfter i id).1 with
  | none => exact hforget
  | some token => exact hforget.trans (dwindles_cancelAfter _ token)

theorem dwindles_runDeleteHook {delete : InterpId → World → World}
    (hdelete : ∀ i w, Dwindles w (delete i w)) (self : InterpId) (hook : DeleteHook) (w : World) :
    w.Dwindles (runDeleteHook delete self hook w) := by
  induction hook generalizing self w with
  | log label =>
    rw [runDeleteHook]
    exact .of_threading_eq rfl
  | untrack h =>
    rw [runDeleteHook]
    exact .of_threading_eq (threading_untrack w h)
  | delete i => exact hdelete i w
  | watch i hook ih =>
    rw [runDeleteHook]
    split
    · exact ih i w
    · exact .of_threading_eq rfl

theorem dwindles_deleteTree (fuel : Nat) (i : InterpId) (w : World) :
    w.Dwindles (deleteTree fuel i w) := by
  induction fuel generalizing i w with
  | zero => exact .refl w
  | succ fuel ih =>
    rw [deleteTree]
    split
    · exact .refl w
    · have hcondemn : w.Dwindles (w.modifyInterp i Interpreter.condemn) := .of_threading_eq rfl
      have hcancel (w : World) : w.Dwindles (w.cancelAfters i) := by
        have hforget : w.Dwindles (w.modifyInterp i fun r => { r with afters := .empty }) :=
          .of_threading_eq rfl
        exact hforget.trans (.foldl dwindles_cancelAfter _ _)
      have hhooks (w : World) : w.Dwindles (runDeleteHooks (deleteTree fuel) i w) := by
        have hforget : w.Dwindles (w.modifyInterp i fun r =>
            { r with childHooks := [], deleteHooks := [] }) := .of_threading_eq rfl
        exact hforget.trans (.foldl (fun w hook => dwindles_runDeleteHook ih i hook w) _ _)
      have hwipe (w : World) : w.Dwindles (w.modifyInterp i Interpreter.wipe) := .of_threading_eq rfl
      have hbelow := hcondemn.trans (.foldl (fun w child => ih child w) (w.interp i).childIds _)
      have hdetached := hbelow.trans (.of_threading_eq (threading_detach _ (w.interp i)))
      exact ((hdetached.trans (hcancel _)).trans (hhooks _)).trans (hwipe _)

theorem dwindles_delete (w : World) (i : InterpId) : w.Dwindles (w.delete i) :=
  dwindles_deleteTree _ i w

theorem dwindles_callWhenDeleted (w : World) (i : InterpId) (hook : DeleteHook) :
    w.Dwindles (w.callWhenDeleted i hook) :=
  dwindles_runDeleteHook (fun j w => dwindles_delete w j) i (.watch i hook) w

theorem dwindles_adopt (w : World) (i : InterpId) (config : HandleConfig) :
    w.Dwindles (w.adopt i config).2 := by
  have hadd : w.Dwindles (w.addHandle i config).2 := .of_threading_eq rfl
  have hcommand (u : World) (name : String) (command : Command) :
      u.Dwindles (u.defineCommand i name command) := .of_threading_eq rfl
  have hhook (u : World) : u.Dwindles (u.modifyInterp i fun r =>
      { r with childHooks := r.childHooks ++ [.adopt config] }) := .of_threading_eq rfl
  have htrack (u : World) (h : HandleId) : u.Dwindles (u.track h) := .of_threading_eq rfl
  have hcommands := (hadd.trans (hcommand _ "host_callback" (.callback w.hub.nextHandle))).trans
    (hcommand _ "host_eval" (.evaluator w.hub.nextHandle))
  exact ((hcommands.trans (hhook _)).trans (dwindles_callWhenDeleted _ i _)).trans (htrack _ _)

theorem dwindles_runChildHook (child : InterpId) (w : World) (hook : ChildHook) :
    w.Dwindles (runChildHook child w hook) := by
  cases hook with
  | log label => exact .of_threading_eq rfl
  | adopt config =>
    have hpin (u : World) (h : HandleId) :
        u.Dwindles (u.modifyHandle h fun handle => { handle with pinned := true }) :=
      .of_threading_eq rfl
    exact (dwindles_adopt w child _).trans (hpin _ _)

theorem dwindles_createChild (w : World) (parent : InterpId) (name : String) (safe : Bool) :
    w.Dwindles (w.createChild parent name safe).2 := by
  rw [createChild]
  dsimp only
  split
  · exact .refl w
  · split
    · exact .refl w
    · split
      · exact .refl w
      · have hmade : w.Dwindles ((w.newInterp name (safe || (w.interp parent).safe)
            (some parent)).2.modifyInterp parent fun p =>
              { p with children := p.children.insert name w.nextInterp }) := .of_threading_eq rfl
        exact hmade.trans (.foldl (dwindles_runChildHook _) _ _)

theorem dwindles_found (w : World) (config : HandleConfig) : w.Dwindles (w.found config).2 := by
  have hmade : w.Dwindles (w.newInterp "" config.safe none).2 := .of_threading_eq rfl
  have hhold (u : World) (h : HandleId) : u.Dwindles (u.hold h) := .of_threading_eq rfl
  exact (hmade.trans (dwindles_adopt _ w.nextInterp config)).trans (hhold _ _)

theorem dwindles_deleteInterp (w : World) (i : InterpId) : w.Dwindles (w.deleteInterp i) := by
  rw [deleteInterp]
  split
  · exact .setAgenda (Agenda.dwindles_addIdle _ rfl)
  · exact dwindles_delete w i

theorem dwindles_giveUp (w : World) (h : HandleId) : w.Dwindles (w.giveUp h) := by
  have htake : w.Dwindles (w.takeInterp h).2 := .of_threading_eq rfl
  rw [giveUp]
  split
  · next i u hu =>
    rw [hu] at htake
    exact htake.trans (dwindles_deleteInterp u i)
  · next u hu =>
    rwa [hu] at htake

theorem dwindles_deleteHandle (w : World) (h : HandleId) : w.Dwindles (w.deleteHandle h) := by
  have hmark (w : World) : w.Dwindles (w.markDeleted h) := .of_threading_eq (threading_markDeleted w h)
  rw [deleteHandle]
  split
  · exact .refl w
  · next handle _ =>
    split
    · exact .refl w
    · split
      · exact (dwindles_giveUp w h).trans (hmark _)
      · exact (hmark w).trans (dwindles_post _ handle.owner _)

/-! ### Threads -/

theorem dwindles_newThread (w : World) : w.Dwindles w.newThread.2 := by
  have hget (t : ThreadId) : w.newThread.2.threads.get? t =
      if w.nextThread = t then some {} else w.threads.get? t := Table.get?_insert _ _ _ _
  refine ⟨fun t => ?_, fun _ => rfl, rfl, fun t l hl => ?_⟩
  · rw [agendaOf, agendaOf, hget]
    split
    · exact Agenda.dwindles_empty _
    · exact .of_slots_eq rfl
  · rw [loopOf?, hget] at hl
    split at hl
    · cases hl
    · exact hl

/-- Nobody serves the agenda of a thread that ended. -/
theorem dwindles_endThread (w : World) (t : ThreadId) : w.Dwindles (w.endThread t) := by
  have henter : w.Dwindles { w with current := t } := .of_threads_eq rfl rfl rfl
  have horphans (w : World) : w.Dwindles (w.deleteOrphans t) := by
    refine .foldl (fun w orphan => ?_) _ w
    have htake : w.Dwindles (w.takeInterp orphan.1).2 := .of_threading_eq rfl
    exact htake.trans (dwindles_delete _ orphan.2)
  have hunpin (w : World) : w.Dwindles (w.unpinAll t) := by
    refine .foldl (fun w entry => ?_) _ w
    dsimp only
    split
    · exact .of_threading_eq rfl
    · exact .refl w
  have hlose (w : World) (pending : List Queued) : w.Dwindles (w.loseReplies pending) := by
    refine .foldl (fun w queued => ?_) _ w
    split <;> exact .of_threading_eq rfl
  have herase (w : World) (current : ThreadId) :
      w.Dwindles { w with current, threads := w.threads.erase t } := by
    have hget (t' : ThreadId) : (w.threads.erase t).get? t' =
        if t = t' then none else w.threads.get? t' := Table.get?_erase _ _ _
    refine ⟨fun t' => ?_, fun _ => rfl, rfl, fun t' l hl => ?_⟩
    · rw [agendaOf, agendaOf, hget]
      split
      · exact Agenda.dwindles_empty _
      · exact .of_slots_eq rfl
    · rw [loopOf?, hget] at hl
      split at hl
      · cases hl
      · exact hl
  exact (((henter.trans (horphans _)).trans (hunpin _)).trans (hlose _ _)).trans (herase _ _)

end World

/-! ### Whatever a host does -/

namespace Run

open World Keepalive

variable {homes : Homes} {w u w' : World} {h : HandleId}

/-- Code is a run of the machine for the timers of loops, and the thread that was running goes on. -/
structure Beats (homes : Homes) (w w' : World) : Prop where
  leads : Leads w w'
  run : w.Tended homes → w'.current = w.current ∧ Keepalive.Run homes w w'

namespace Beats

theorem of_dwindles (hleads : Leads w w') (hcurrent : w'.current = w.current) (h : w.Dwindles w') :
    Beats homes w w' :=
  ⟨hleads, fun _ => ⟨hcurrent, .single (.pass h)⟩⟩

theorem of_step (hleads : Leads w w') (hcurrent : w'.current = w.current) (h : Keepalive.Step homes w w') :
    Beats homes w w' :=
  ⟨hleads, fun _ => ⟨hcurrent, .single h⟩⟩

theorem tended (h : Beats homes w w') (hw : w.Tended homes) : w'.Tended homes :=
  hw.run (h.run hw).2

theorem trans (h : Beats homes w u) (h' : Beats homes u w') : Beats homes w w' := by
  refine ⟨h.leads.trans h'.leads, fun hw => ?_⟩
  obtain ⟨hcurrent, hrun⟩ := h.run hw
  obtain ⟨hcurrent', hrun'⟩ := h'.run (hw.run hrun)
  exact ⟨hcurrent'.trans hcurrent, hrun.trans hrun'⟩

/-- What happens between two changes that leave threads and loops alone. -/
theorem bracket {v : World} (h : Beats homes u v) (hopen : u.threading = w.threading)
    (hclose : w'.threading = v.threading) (hleads : Leads w w') : Beats homes w w' := by
  have henter := Dwindles.of_threading_eq hopen
  have hcurrent {w w' : World} (heq : w'.threading = w.threading) : w'.current = w.current :=
    congrArg (·.2.1) heq
  refine ⟨hleads, fun hw => ?_⟩
  obtain ⟨hsame, hrun⟩ := h.run (hw.pass henter)
  have hinside : Keepalive.Run homes w v := .trans (.single (.pass henter)) hrun
  exact ⟨(hcurrent hclose).trans (hsame.trans (hcurrent hopen)),
    hinside.tail (.pass (.of_threading_eq hclose))⟩

theorem unhold (w : World) (h : HandleId) : Beats homes w (w.unhold h) :=
  .of_dwindles (.rest rfl) rfl (.of_threading_eq rfl)

/-- The last holder of a handle goes. -/
theorem dropped (hdropped : ((w.unhold h).unregister h).Rests w')
    (hstill : ((w.unhold h).unregister h).Still w') : Beats homes w w' := by
  have hgo : Beats homes w ((w.unhold h).unregister h) :=
    .of_dwindles (.rest rfl) rfl (.of_threading_eq rfl)
  exact hgo.trans (.of_dwindles (.rest hdropped.interpreters) hdropped.current
    (.of_still hstill hdropped.threads))

theorem giveUp (w : World) (h : HandleId) : Beats homes w (w.giveUp h) :=
  .of_dwindles (leads_giveUp w h) (current_of_scene_eq (scene_giveUp w h)) (dwindles_giveUp w h)

theorem takeOff {flags : EventFlags} {work : Agenda.Work Event Handler} {a : Agenda Event Handler}
    (hnext : w.agenda.next? flags w.clock = some (work, a)) : Beats homes w (w.takeOff a) :=
  .of_dwindles (.rest rfl) rfl (.takeOff hnext)

/-- Code does for loops that are not at home anywhere whatever loops do. -/
theorem tends {l : LoopId} (hfree : homes l = none) : Tends (Beats homes) l where
  arm w := by
    refine .of_step (leads_ensureArmed w l) (current_of_scene_eq (scene_ensureArmed w l))
      (.arm w fun t hhome => ?_)
    cases hfree.symm.trans hhome
  stop w := .of_step (leads_stopKeepalive w l) (current_of_scene_eq (scene_stopKeepalive w l))
    (.stop w hfree)
  setPhase w phase := .of_step (.rest rfl) rfl (.setPhase w hfree phase)

end Beats

instance : Spans (Beats homes) where
  rest h hstill := .of_dwindles (.rest h.interpreters) h.current (.of_still hstill h.threads)
  edit hf w i := .of_dwindles (Follows.edit hf w i) rfl (.of_threading_eq rfl)
  schedule hlive delay script := .of_dwindles (Follows.schedule hlive delay script)
    (current_of_scene_eq (scene_scheduleAfter _ _ delay script)) (dwindles_scheduleAfter _ _ delay script)
  unschedule w i id := .of_dwindles (Follows.unschedule w i id)
    (current_of_scene_eq (scene_unschedule w i id)) (dwindles_unschedule w i id)
  delete w i := .of_dwindles (.delete w i) (current_of_scene_eq (scene_delete w i)) (dwindles_delete w i)
  serve hnext _ := .takeOff hnext
  fire hnext hscript := .of_dwindles (Follows.fire hnext hscript) rfl
    ((Dwindles.takeOff hnext).trans (.of_threading_eq rfl))
  rearm {w _ _ a l} hnext hloop :=
    have hcurrent : ((w.takeOff a).armKeepalive l).current = (w.takeOff a).current :=
      current_of_scene_eq (scene_armKeepalive _ l)
    .of_step (Follows.rearm hnext hloop) hcurrent (.rearm hnext hloop)
  newLoop w interval := .of_step (.rest rfl) rfl (.newLoop w interval)
  putOff {w i a} hpop := by
    have hnext := (Agenda.next?_idle w.agenda w.clock).trans hpop
    exact (Beats.takeOff hnext).trans (.of_dwindles (.delete _ i)
      (current_of_scene_eq (scene_delete _ i)) (dwindles_delete _ i))
  trans h h' := h.trans h'
  call hlive h := h.bracket rfl rfl (Follows.call hlive h.leads)
  aside hlive h := h.bracket rfl rfl (Follows.aside hlive h.leads)
  command hlive hdepth hentry h := h.bracket rfl rfl (Follows.command hlive hdepth hentry h.leads)
  createChild w p name safe := .of_dwindles (Follows.createChild w p name safe)
    (current_of_scene_eq (scene_createChild w p name safe)) (dwindles_createChild w p name safe)
  found w config := .of_dwindles (Follows.found w config) (current_of_scene_eq
    (scene_adopt _ w.nextInterp config)) (dwindles_found w config)
  hold hheld := .of_dwindles (Follows.hold hheld) rfl (.of_threading_eq rfl)
  takeOver hmem hpinned := .of_dwindles (Follows.takeOver hmem hpinned) rfl (.of_threading_eq rfl)
  deleteHandle w h := .of_dwindles (w.leads_deleteHandle h) (current_of_scene_eq (scene_deleteHandle w h))
    (dwindles_deleteHandle w h)
  unhold {w h} _ := .unhold w h
  release _ hdropped hstill hserved := ((Beats.dropped hdropped hstill).trans hserved).trans (.giveUp _ _)
  foreign _ h := h
  all h := h
  leads h := h.leads
  patient h := h
  coarse hL hR _ := absurd hL hR
  stands h hstill := .of_dwindles (.rest h.interpreters) h.current (.of_still hstill h.threads)
  modifyThread hf w t := .of_dwindles (.rest rfl) rfl (.modifyThread fun thread _ =>
    ⟨.of_slots_eq (congrArg Agenda.slots (hf thread).1), (hf thread).2⟩)
  startLoop w h t := by
    refine ⟨.rest rfl, fun hw => ⟨rfl, ?_⟩⟩
    have hfree : homes w.nextLoop = none := by
      cases hhome : homes w.nextLoop with
      | none => rfl
      | some t' => exact absurd (hw.home _ t' hhome).1 (Nat.lt_irrefl _)
    have hmade : Keepalive.Run homes w (w.newLoop (.handle h)).2 := .single (.newLoop w _)
    exact (hmade.tail (.setPhase _ hfree .running)).tail (.assign _ h (Nat.lt_succ_self _) hfree t)
  tends {w t thread l} hthread hrole := by
    cases hhome : homes l with
    | none => exact .inl (Beats.tends hhome)
    | some t' =>
      refine .inr fun w' hleads _ => ⟨hleads, fun hw => ?_⟩
      have hloop : w.loopOf? t = some l := by rw [loopOf?, hthread, Option.bind_some, hrole]
      exact absurd hloop ((hw.home l t' hhome).2.1 t)
  visit {w w' t} _ h := by
    refine ⟨leads_visit h.leads, fun hw => ⟨rfl, ?_⟩⟩
    have henter : w.Dwindles { w with current := t, engaged := t :: w.engaged } :=
      .of_threads_eq rfl rfl rfl
    have hvisit : Keepalive.Run homes w w' :=
      .trans (.single (.pass henter)) (h.run (hw.pass henter)).2
    exact hvisit.tail (.pass (.of_threads_eq rfl rfl rfl))
  newThread w := .of_dwindles (.rest rfl) rfl (dwindles_newThread w)
  endThread w t := .of_dwindles (w.leads_endThread t) rfl (dwindles_endThread w t)
  letGo _ hdropped hstill t pending := (Beats.dropped hdropped hstill).trans
    (.of_dwindles (.rest (interpreters_post _ t _)) rfl (dwindles_post _ t _))
  takeRelease {w _ _ _} hpop := .takeOff ((Agenda.next?_posted w.agenda w.clock).trans hpop)
  serveRelease {w _ _ _ _} hpop hserved :=
    ((Beats.takeOff ((Agenda.next?_posted w.agenda w.clock).trans hpop)).trans hserved).trans (.giveUp _ _)
  serveDelete {w _ _} hpop :=
    (Beats.takeOff ((Agenda.next?_posted w.agenda w.clock).trans hpop)).trans (.giveUp _ _)

instance (l : LoopId) : Tends (Beats nowhere) l :=
  Beats.tends rfl

instance : Patient (Beats homes) where
  stall _ hdropped hstill hserved := (Beats.dropped hdropped hstill).trans hserved

instance (e : Engine) : Records e (Beats homes) where
  cut _ hdropped hstill hserved _ := (Beats.dropped hdropped hstill).trans hserved

end Run

/-! ### Calls of a host -/

open Keepalive

/-- No loop was made yet, and nothing is pending. -/
theorem World.tended_fresh (files : Machine.Files) (globalTimerMs : Nat) :
    (fresh files globalTimerMs).Tended nowhere := by
  have hthread {t : ThreadId} {thread : Thread}
      (h : (fresh files globalTimerMs).threads.get? t = some thread) : thread = {} := by
    cases List.mem_singleton.1 (Table.mem_of_get? h)
    rfl
  have hagenda (t : ThreadId) : (fresh files globalTimerMs).agendaOf t = {} := by
    rw [agendaOf]
    cases h : (fresh files globalTimerMs).threads.get? t with
    | none => rfl
    | some thread => rw [hthread h]; rfl
  have hnone {t : ThreadId} {l : LoopId} {timer : Timer Handler} :
      timer ∉ (fresh files globalTimerMs).keepalives t l := by
    rw [mem_keepalives, hagenda]
    exact fun h => List.not_mem_nil h.1
  refine ⟨fun t => ?_, fun t => ?_, fun t l timer htimer => absurd htimer hnone,
    fun l t t' timer timer' htimer => absurd htimer hnone, fun l hl => ?_, fun t l hl => ?_,
    fun l t hhome => ?_⟩
  · rw [hagenda]
    exact Agenda.sound_empty
  · rw [hagenda]
    exact List.forall_mem_nil _
  · cases hl
  · obtain ⟨thread, h, hrole⟩ := Option.bind_eq_some_iff.1 hl
    rw [hthread h] at hrole
    cases hrole
  · cases hhome

/-- Whatever calls a host makes, on however many threads, is a run of the machine. -/
theorem ApiCall.beats_runAll {w : World} (hw : w.Tidy) (calls : List ApiCall) :
    Run.Beats nowhere w (runAll calls w) :=
  rel_runAll (fun _ _ => .of_dwindles (.create _ "" _ none) rfl (.of_threading_eq rfl))
    (fun w i hook => .of_dwindles (w.leads_callWhenDeleted i hook)
      (World.current_of_scene_eq (World.scene_callWhenDeleted w i hook))
      (World.dwindles_callWhenDeleted w i hook)) hw calls

end ScriptHost
