import ScriptHost.Proofs.Frames.Discipline
import ScriptHost.Proofs.Handle.Faithful
import ScriptHost.Proofs.Handle.Scope
import ScriptHost.Proofs.Run.Proper

/-!
# Fatal signals escape from scripts

Events and loops hand signals on as well, and what other threads do in their turns does not concern the
thread that waits for them. So the engine hands on all signals, whatever its task: when host code that a
script reaches raises a signal, that is the last thing to happen, and the signal comes out at the call
that began to evaluate.
-/

namespace ScriptHost

open World

variable {α : Type} {e : Engine} {w w' : World} {t : ThreadId} {n : Nat}

/-! ### One piece of work -/

theorem faithful_runAfter (he : e.Faithful) (i : InterpId) (id script : String) (w : World) :
    (runAfter e i id script).Faithful 0 w := by
  refine .modify_bind (scene_takeAfter w i id) (.bind (.refl rfl) fun r w' _ => ?_)
  split
  · exact .pure _ w'
  · refine .bind (faithful_evalAtGlobal he i script w') fun completion w' _ => ?_
    split
    · exact .pure _ w'
    · refine .bind (.refl rfl) fun r w' _ => ?_
      split
      · exact .bind (faithful_invokeFrom he i _ w') fun _ w' _ => .pure _ w'
      · exact .pure _ w'

theorem faithful_runHandler (he : e.Faithful) (handler : Handler) (w : World) :
    (runHandler e handler).Faithful 0 w := by
  cases handler with
  | after i id script => exact faithful_runAfter he i id script w
  | keepalive l => exact .of_modify (scene_armKeepalive w l)
  | delete i => exact .of_modify (scene_delete w i)
  | label i label script =>
    refine .modify_bind rfl ?_
    cases script with
    | none => exact .pure _ _
    | some script => exact .bind (faithful_evalFrom he i script _) fun _ _ _ => .of_modify rfl

theorem faithful_runEvent (he : e.Faithful) (event : Event) (w : World) :
    (runEvent e event).Faithful 0 w := by
  cases event with
  | serve h => exact Handle.faithful_serveOne he h w
  | release h pending => exact Handle.faithful_releaseHere he h pending w
  | delete h => exact .of_modify (scene_giveUp w h)
  | print label => exact .of_modify rfl

theorem faithful_runWork (he : e.Faithful) (work : Agenda.Work Event Handler) (w : World) :
    (runWork e work).Faithful 0 w := by
  cases work with
  | event event => exact faithful_runEvent he event w
  | timer handler => exact faithful_runHandler he handler w
  | idle handler => exact faithful_runHandler he handler w

theorem faithful_serveReady (he : e.Faithful) (flags : EventFlags) (w : World) :
    (serveReady e flags).Faithful 0 w := by
  refine .get_bind ?_
  split
  · exact .pure _ w
  · next work agenda _ =>
    refine .set_bind (scene_setAgenda w agenda) ?_
    exact .bind (faithful_runWork he work _) fun _ w' _ => .pure _ w'

theorem faithful_waitForWork (he : e.Faithful) (flags : EventFlags) (w : World) :
    (waitForWork e flags).Faithful 0 w := by
  refine .get_bind ?_
  split
  · exact .bind (faithful_waitUntil he _ _ _ w) fun _ w' _ => .of_modify (scene_modifyAgenda w' _ _)
  · exact .pure _ w

theorem faithful_oneEvent (he : e.Faithful) (flags : EventFlags) (w : World) :
    (oneEvent e flags).Faithful 0 w := by
  refine .bind (faithful_serveReady he _ w) fun served w' _ => ?_
  split
  · exact .pure _ w'
  · split
    · exact .pure _ w'
    · exact .bind (faithful_waitForWork he _ w') fun _ w' _ => faithful_serveReady he _ w'

/-! ### Turns of other threads -/

theorem keepsFrom_catchFatal {act : Act (Except HostError α)} (h : act.KeepsFrom t w) :
    (catchFatal act).KeepsFrom t w := by
  refine .bind h.attempt fun result w' _ => ?_
  split
  · exact .pure _ w'
  · refine .get_bind ?_
    split <;> exact .of_scene_eq rfl
  · exact .halt _ w'

theorem keepsFrom_processOneEvent (he : e.Faithful) (flags : EventFlags) (w : World) :
    (processOneEvent e flags).KeepsFrom t w :=
  keepsFrom_catchFatal (.bind (faithful_oneEvent he flags w).keeps fun _ w' _ => .pure _ w')

namespace EventLoop

theorem faithful_handleDone (h : HandleId) (w : World) : (handleDone h).Faithful n w := by
  refine .get_bind ?_
  split
  · exact .pure _ w
  · split
    · exact .pure _ w
    · exact .set_bind rfl (.pure _ _)

theorem keepsFrom_drain (he : e.Faithful) (count : Nat) (w : World) :
    (drain e count).KeepsFrom t w := by
  induction count generalizing w with
  | zero => exact .halt _ w
  | succ count ih =>
    refine .bind (faithful_oneEvent he _ w).keeps fun served w' _ => ?_
    split
    · exact ih w'
    · exact .pure _ w'

theorem keepsFrom_close (he : e.Faithful) (l : LoopId) (result : Except HostError Unit)
    (w : World) : (close e l result).KeepsFrom t w := by
  refine .modify_bind (scene_stopKeepalive w l) ?_
  have hstop (result : Except HostError Unit) (w : World) :
      (do modify fun w => w.setPhase l .stopped; return result : Act _).KeepsFrom t w :=
    .modify_bind rfl (.pure _ _)
  cases result with
  | error error => exact .bind (.pure _ _) fun result w' _ => hstop result w'
  | ok _ =>
    refine .modify_bind rfl ?_
    exact .bind (keepsFrom_catchFatal (keepsFrom_drain he _ _)) fun result w' _ => hstop result w'

end EventLoop

namespace Worker

/-- A thread that ends leaves alone what goes on elsewhere. -/
theorem keeps_endThread (hcurrent : w.current = t) : Keeps w (w.endThread t) := by
  subst hcurrent
  let ended := ({ w with current := w.current }.deleteOrphans w.current).unpinAll w.current
  have hscene : (ended.loseReplies (releasedWork (ended.agendaOf w.current).events)).scene = w.scene :=
    (scene_loseReplies _ _).trans ((scene_unpinAll _ _).trans (scene_deleteOrphans w _))
  have hkeeps := Keeps.of_scene_eq hscene
  refine ⟨rfl, hkeeps.engaged, fun t ht hne => ?_, hkeeps.grows, hkeeps.told⟩
  refine Eq.trans ?_ (hkeeps.callbacks t ht hne)
  exact congrArg (Option.map _) ((Table.get?_erase _ _ _).trans (if_neg (Ne.symm hne)))

theorem keepsFrom_endThread (result : Except HostError Unit) {f : PUnit → Act α}
    (hf : ∀ w', (f ()).KeepsFrom t w') :
    (modify (fun w => { w.endThread t with results := w.results.insert t result }) >>= f :
      Act α).KeepsFrom t w := by
  have hresult (u : World) (results : Table ThreadId (Except HostError Unit)) :
      Keeps u { u with results } := .of_scene_eq rfl
  exact .of_eq (Act.modify_bind _ f w)
    (fun hcurrent => (keeps_endThread hcurrent).trans (hresult _ _)) (hf _)

theorem keepsFrom_finish (he : e.Faithful) (t : ThreadId) (h : HandleId)
    (result : Except HostError Unit) (w : World) : (finish e t h result).KeepsFrom t w :=
  .modify_bind (scene_deleteHandle w h) <| keepsFrom_endThread result fun w' =>
    (Handle.faithful_release he h w').keeps

theorem keepsFrom_crash (he : e.Faithful) (t : ThreadId) (h : HandleId) (w : World) :
    (crash e t h).KeepsFrom t w :=
  keepsFrom_endThread _ fun w' => (Handle.faithful_release he h w').keeps

theorem keepsFrom_close (he : e.Faithful) (t : ThreadId) (h : HandleId) (l : LoopId)
    (result : Except HostError Unit) (w : World) : (close e t h l result).KeepsFrom t w := by
  refine .bind (EventLoop.keepsFrom_close he l result w).attempt fun result w' _ => ?_
  split
  · exact keepsFrom_finish he t h _ w'
  · exact .halt _ w'
  · exact keepsFrom_crash he t h w'

theorem keepsFrom_round (he : e.Faithful) (t : ThreadId) (h : HandleId) (l : LoopId) (w : World) :
    (round e t h l).KeepsFrom t w := by
  refine .modify_bind rfl (.bind (EventLoop.faithful_handleDone (n := 0) h _).keeps fun done w' _ => ?_)
  have hclose (result : Except HostError Unit) (w : World) :
      (do close e t h l result; return true : Act Bool).KeepsFrom t w :=
    .bind (keepsFrom_close he t h l result w) fun _ w' _ => .pure _ w'
  split
  · exact hclose _ w'
  · refine .get_bind ?_
    split
    · exact hclose _ w'
    · refine .modify_bind (scene_ensureArmed w' l) ?_
      refine .bind (faithful_serveReady he _ _).keeps.attempt fun result w' _ => ?_
      split
      · exact .pure _ w'
      · exact hclose _ w'
      · exact .bind (keepsFrom_crash he t h w') fun _ w' _ => .pure _ w'
      · exact .halt _ w'

theorem keepsFrom_serve (he : e.Faithful) (t : ThreadId) (w : World) :
    (serve e t).KeepsFrom t w := by
  refine .bind (keepsFrom_processOneEvent he _ w) fun result w' _ => ?_
  split
  · exact .pure _ w'
  · refine .modify_bind (scene_modifyThread (fun thread => ?_) w' t) (.pure _ _)
    split <;> rfl

/-- The turn of a thread that was not under way does not concern the thread that waits. -/
theorem faithful_asThread {act : Act α} (ht : t ∉ w.engaged)
    (h : act.KeepsFrom t { w with current := t, engaged := t :: w.engaged }) :
    (asThread t act).Faithful n w := by
  intro hw
  have hkeeps := h rfl List.mem_cons_self
  have hafter : (asThread t act).after w =
      { act.after { w with current := t, engaged := t :: w.engaged } with
        current := w.current, engaged := w.engaged } :=
    Act.after_ensuring act _ _
  have hcallbacks {t' : ThreadId} (ht' : t' ∈ w.engaged) :
      ((asThread t act).after w).callbacksOf t' = w.callbacksOf t' := by
    rw [hafter]
    exact hkeeps.callbacks t' (List.mem_cons_of_mem t ht') (ne_of_mem_of_not_mem ht' ht)
  have htold : ∀ incident ∈ news w ((asThread t act).after w), incident.thread ∉ w.engaged := by
    rw [hafter]
    intro incident hmem
    rcases hkeeps.told incident hmem with heq | hnot
    · rwa [heq]
    · exact fun hmem => hnot (List.mem_cons_of_mem t hmem)
  refine ⟨⟨?_, ?_, fun t' ht' _ => hcallbacks ht', ?_, fun incident hmem => .inr (htold incident hmem)⟩,
    fun _ => hcallbacks hw, fun _ => .inr (.of_unraised fun f hf => htold _ hf hw)⟩
  · rw [hafter]
  · rw [hafter]
  · rw [hafter]
    exact hkeeps.grows

theorem faithful_turn (he : e.Faithful) (ht : t ∉ w.engaged) : (turn e t).Faithful n w := by
  refine .get_bind ?_
  split
  · exact faithful_asThread ht (keepsFrom_serve he t _)
  · exact faithful_asThread ht (keepsFrom_round he t _ _ _)
  · exact .pure _ w

end Worker

/-! ### The engine -/

theorem Engine.Faithful.perform [e.Proper] (he : e.Faithful) (bound : Nat) :
    Engine.Faithful ⟨bound, ScriptHost.perform e⟩ where
  script _ source w := (built_evalScript source w).faithful he
  words _ words w := (built_invokeWords words w).faithful he
  event flags _ := faithful_oneEvent he flags _
  closure closure args _ :=
    .record_bind (.ran closure) nofun (Closure.faithful_run he args closure _)
  turn ht := Worker.faithful_turn he ht

theorem faithful_runWithin (fuel bound : Nat) : Engine.Faithful ⟨bound, runWithin fuel⟩ := by
  induction fuel generalizing bound with
  | zero =>
    exact ⟨fun _ _ w => .halt _ w, fun _ _ w => .halt _ w, fun _ w => .halt _ w,
      fun _ _ w => .halt _ w, fun _ => .halt _ _⟩
  | succ fuel ih => exact (ih fuel).perform bound

theorem faithful_engine : engine.Faithful :=
  faithful_runWithin ampleFuel ampleFuel

/-! ### Where signals come out -/

namespace Act

variable {act : Act α} {f : FatalSignal}

/-- While an action runs, host code on its thread raises a fatal signal, and no handle loses its last
holder on this thread. -/
structure Raises (act : Act α) (f : FatalSignal) (w : World) : Prop where
  raised : ⟨w.current, .raised f⟩ ∈ news w (act.after w)
  kept : ∀ h, ⟨w.current, .letGo h⟩ ∉ news w (act.after w)

/-- A call ends with the fatal signal that was raised. Nothing happens after that, nor was any other
signal raised before. Host closures run as before the call, and so do the calls of procedures and
commands in every interpreter that is not deleted. -/
structure EndsWith (call : Act (Except HostError α)) (f : FatalSignal) (w : World) : Prop where
  returns : call w = .ok (.error (.fatal f)) (call.after w)
  last : ∃ earlier, news w (call.after w) = ⟨w.current, .raised f⟩ :: earlier ∧
    ∀ g, ⟨w.current, .raised g⟩ ∉ earlier
  callbacks : (call.after w).inCallback = w.inCallback
  calls : ∀ i, (w.interp i).deleted = false → ((call.after w).interp i).deleted = false →
    ((call.after w).interp i).depth = (w.interp i).depth ∧
      ((call.after w).interp i).frames.length = (w.interp i).frames.length

end Act

namespace Handle

variable {h : HandleId} {work : Work} {f : FatalSignal}

/-- Outside of host closures, the signal that cuts work short which is executed in place is the error that
the work ends with. -/
theorem carries_executeHere_outside (he : e.Faithful) (h : HandleId) (work : Work)
    (hengaged : w.current ∈ w.engaged) (hthere : w.isRegistered w.current = true)
    (hout : w.inCallback = false) :
    ∃ sig, Carries 0 sig w ((executeHere e h work).after w) ∧ ∀ f, sig = some f →
      executeHere e h work w = .ok (.error (.fatal f)) ((executeHere e h work).after w) := by
  have hstart : Carries 0 none w (w.startWork h) := .of_scene_eq rfl
  have hhere := executeHere_eq e h work w
  have hended {halt : Halt} {u : World} (hdone : Carries 0 halt.signal? w u)
      (hsignal : halt.signal? = none) (hhere : executeHere e h work w = .error halt u) :
      ∃ sig, Carries 0 sig w ((executeHere e h work).after w) ∧ ∀ f, sig = some f →
        executeHere e h work w = .ok (.error (.fatal f)) ((executeHere e h work).after w) := by
    rw [hsignal, ← Act.after_of_error hhere] at hdone
    exact ⟨none, hdone, nofun⟩
  cases hinterp : (w.startWork h).interpOf? h with
  | none =>
    rw [hinterp] at hhere
    refine ⟨none, ?_, nofun⟩
    rw [Act.after_of_ok hhere]
    exact .of_scene_eq rfl
  | some i =>
    rw [hinterp] at hhere
    dsimp only at hhere
    have hexecute := hstart.trans (faithful_execute he i work (w.startWork h) hengaged)
    cases hrun : execute e i work (w.startWork h) with
    | ok envelope u =>
      rw [hrun] at hhere
      rw [Act.after_of_ok hrun, Act.signal?_of_ok hrun] at hexecute
      refine ⟨none, ?_, nofun⟩
      rw [Act.after_of_ok hhere]
      exact hexecute.of_scene_eq_right rfl
    | error halt u =>
      rw [hrun] at hhere
      rw [Act.after_of_error hrun, Act.signal?_of_error hrun] at hexecute
      have hdone : Carries 0 halt.signal? w (u.finishWork h true) := hexecute.of_scene_eq_right rfl
      cases halt with
      | panic payload => exact hended hdone rfl hhere
      | stalled => exact hended hdone rfl hhere
      | unwind signal =>
        have hstill := hdone.toKeeps.inCallback_eq (hdone.own (within_zero_iff.2 hthere))
        dsimp only at hhere
        rw [hstill, hout, if_neg Bool.false_ne_true] at hhere
        refine ⟨some signal, ?_, fun f hf => ?_⟩
        · rwa [Act.after_of_ok hhere]
        · cases hf
          rw [Act.after_of_ok hhere]
          exact hhere

/-- What a call on the owning thread does, whether the caller blocks or awaits. -/
theorem request_of_onOwner (e : Engine) (work : Work) (howner : w.onOwner h = true)
    (awaited : Bool) :
    request e h work awaited w =
      if w.isDeleted h then .ok (.error .deleted) w else (Except.ok <$> executeHere e h work) w := by
  cases awaited with
  | true =>
    have hasync : request e h work true w = enqueueAsync e h work w := rfl
    rw [hasync, enqueueAsync, Act.get_bind, howner, map_eq_pure_bind]
    split <;> rfl
  | false =>
    have hqueued : enqueue e h work true w =
        if w.isDeleted h then .ok (.error .deleted) w
        else ((fun envelope => .ok (some envelope)) <$> executeHere e h work : Act _) w := by
      rw [enqueue, Act.get_bind, howner, map_eq_pure_bind]
      split <;> rfl
    rw [request, if_neg Bool.false_ne_true]
    split at hqueued
    · next hdeleted => rw [Act.bind_of_ok hqueued, if_pos hdeleted]; rfl
    · next hlive =>
      rw [if_neg hlive]
      cases hrun : executeHere e h work w with
      | ok envelope u =>
        rw [Act.map_of_ok hrun] at hqueued
        rw [Act.bind_of_ok hqueued, Act.map_of_ok hrun]
        rfl
      | error halt u =>
        rw [map_eq_pure_bind, Act.bind_of_error hrun] at hqueued
        rw [Act.bind_of_error hqueued, map_eq_pure_bind, Act.bind_of_error hrun]

/-- A call on the owning thread from outside of host closures ends with the signal that was raised,
however its result is read as long as a fatal error stays one. -/
theorem endsWith_request (htidy : w.Tidy) (hengaged : w.current ∈ w.engaged)
    (hthere : w.isRegistered w.current = true) (hout : w.inCallback = false)
    (howner : w.onOwner h = true) {read : Except HostError Envelope → Except HostError α}
    (hread : ∀ f, read (.ok (.error (.fatal f))) = .error (.fatal f)) {awaited : Bool}
    (hraises : (read <$> request engine h work awaited).Raises f w) :
    (read <$> request engine h work awaited).EndsWith f w := by
  have hafter := Act.after_map read (request engine h work awaited) w
  obtain ⟨hraised, hkept⟩ := hraises
  rw [hafter] at hraised hkept
  have hmoves : (request engine h work awaited).Moves Run.Leads :=
    moves_request moves_engine h work awaited
  have hleads := (hmoves w htidy).leads
  have hrequest := request_of_onOwner engine work howner awaited
  split at hrequest
  · rw [Act.after_of_ok hrequest, news_self] at hraised
    cases hraised
  · have hhere : (request engine h work awaited).after w = (executeHere engine h work).after w := by
      rw [Act.after, hrequest, ← Act.after, Act.after_map]
    rw [hhere] at hraised hkept hafter hleads
    obtain ⟨sig, hcarries, hend⟩ :=
      carries_executeHere_outside faithful_engine h work hengaged hthere hout
    have hwithin := within_zero_iff.2 hthere
    rcases hcarries.signal hwithin with ⟨k, hk⟩ | hhanded
    · exact absurd hk (hkept k)
    · obtain ⟨hsig, hlast⟩ := hhanded f hraised
      rw [Act.map_of_ok (hend f hsig) Except.ok] at hrequest
      have hrun := Act.map_of_ok hrequest read
      rw [hread] at hrun
      refine ⟨?_, ?_, ?_, fun i hlive hstill => ?_⟩
      · rwa [hafter]
      · rwa [hafter]
      · rw [hafter]
        exact hcarries.toKeeps.inCallback_eq (hcarries.own hwithin)
      · rw [hafter] at hstill ⊢
        have hkeeps := (hleads.stays htidy hlive).keeps hstill
        exact ⟨hkeeps.depth, hkeeps.length⟩

/-- **No script stops a fatal signal.** When a call on the owning thread is made from outside of host
closures and host code that it reaches on this thread raises a fatal signal, wherever in the scripts,
procedures, event handlers and host closures under way, then that is the last thing to happen and the
only signal to be raised: no command and no closure begins any more. The call ends with the error of
that signal, with as many closures running as before and, in every interpreter that is not deleted, with
the depth and the number of frames from before. -/
theorem fatal_escapes (htidy : w.Tidy) (hengaged : w.current ∈ w.engaged)
    (hthere : w.isRegistered w.current = true) (hout : w.inCallback = false)
    (howner : w.onOwner h = true) (f : FatalSignal) :
    (∀ script, (evaluate engine h script).Raises f w →
      (evaluate engine h script).EndsWith f w) ∧
    (∀ script, (evaluateOutcome engine h script).Raises f w →
      (evaluateOutcome engine h script).EndsWith f w) ∧
    (∀ words, (invoke engine h words).Raises f w → (invoke engine h words).EndsWith f w) ∧
    ∀ work awaited, (productOf <$> request engine h work awaited).Raises f w →
      (productOf <$> request engine h work awaited).EndsWith f w := by
  have hends {α : Type} {read : Except HostError Envelope → Except HostError α} {work : Work}
      {awaited : Bool} (hread : ∀ f, read (.ok (.error (.fatal f))) = .error (.fatal f)) :
      (read <$> request engine h work awaited).Raises f w →
        (read <$> request engine h work awaited).EndsWith f w :=
    endsWith_request htidy hengaged hthere hout howner hread
  have hread {α : Type} (read : Except HostError Product → Except HostError α) (work : Work) :
      (do return read (← run engine h work) : Act _) =
        (fun answer => read (productOf answer)) <$> request engine h work false := by
    simp only [run, map_eq_pure_bind, bind_assoc, pure_bind]
  refine ⟨fun script => ?_, fun script => ?_, fun words => ?_, fun work awaited => hends fun _ => rfl⟩
  · rw [evaluate, hread textOf]
    exact hends fun _ => rfl
  · rw [evaluateOutcome, hread outcomeOf]
    exact hends fun _ => rfl
  · cases words with
    | nil =>
      intro hraises
      have hraised : ⟨w.current, .raised f⟩ ∈ news w w := hraises.raised
      rw [news_self] at hraised
      cases hraised
    | cons name args =>
      have hinvoke : invoke engine h (name :: args) =
          (do return textOf (← run engine h (.invoke (name :: args))) : Act _) := rfl
      rw [hinvoke, hread textOf]
      exact hends fun _ => rfl

/-- A loop in a procedure that catches whatever the closure does which ends the process. -/
def catchingScript : String :=
  "proc p {} {while {1} {catch {set x [host_callback cb1]} y}}; catch p"

theorem fatal_escapes_catching :
    (evaluate engine 1 catchingScript).Raises (.exit 3) exiting ∧
      (evaluate engine 1 catchingScript).EndsWith (.exit 3) exiting := by
  have hraises : (evaluate engine 1 catchingScript).Raises (.exit 3) exiting := by
    have hraised : ((news exiting ((evaluate engine 1 catchingScript).after exiting)).any
        fun incident => match incident with
          | ⟨0, .raised (.exit 3)⟩ => true
          | _ => false) = true := by decide +kernel
    have hkept : ((news exiting ((evaluate engine 1 catchingScript).after exiting)).all
        fun incident => match incident.what with
          | .letGo _ => false
          | _ => true) = true := by decide +kernel
    constructor
    · obtain ⟨incident, hmem, hshape⟩ := List.any_eq_true.1 hraised
      split at hshape
      · exact hmem
      · cases hshape
    · intro k hk
      cases List.all_eq_true.1 hkept _ hk
  have htidy : exiting.Tidy := tidy_atRest.of_interpreters_eq rfl
  exact ⟨hraises, (fatal_escapes htidy (by decide) rfl rfl rfl (.exit 3)).1 catchingScript hraises⟩

end Handle

end ScriptHost
