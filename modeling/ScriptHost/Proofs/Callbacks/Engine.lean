import ScriptHost.Proofs.Callbacks.Code
import ScriptHost.Proofs.Run.Proper

/-!
# Registries of closures while the engine works

Calls on handles, host closures, events and the turns of other threads let every registry go on from
what it was, and so does the engine, whatever it is asked to do. Only a closure that registers or
removes another one changes a registry by itself, and it makes the one change that it asks for.
-/

namespace ScriptHost

open World
open Callbacks (Change)

variable {α β : Type} {e : Engine} {h : HandleId} {w : World}

/-! ### Work on the owning thread -/

namespace Handle

theorem continues_ofChild (child : InterpId) (w : World) : (ofChild child).Continues w := by
  refine .get_bind ?_
  dsimp only
  split
  · next k _ _ =>
    have hunpin : w.Continues (w.modifyHandle k fun handle => { handle with pinned := false }) :=
      .of_registers_eq (registers_modifyHandle w k (by simp))
    have hhold (w : World) : w.Continues (w.hold k) :=
      .of_registers_eq (registers_modifyHandle w k (by simp))
    exact .set_bind (hunpin.trans (hhold _)) (.pure _ _)
  · exact .pure _ w

theorem continues_envelopeOf {product : α → Product} {code : Exec α} (hcode : code.Continues w) :
    (envelopeOf product code).Continues w := by
  refine .bind hcode fun result w' => ?_
  cases result <;> exact .pure _ w'

theorem continues_runJob (he : e.Continues) (i : InterpId) (job : Job) (w : World) :
    (runJob e i job).Continues w := by
  cases job with
  | getVar name => exact .bind (continues_getGlobal i name w) fun _ w' => .pure _ w'
  | setVar name value => exact continues_envelopeOf (continues_setGlobal i name value w)
  | unsetVar name => exact .bind (continues_unsetGlobal i name w) fun _ w' => .pure _ w'
  | evalOutcome script => exact .bind (he.call (.script i script) w) fun _ w' => .pure _ w'
  | describe => exact .refl rfl
  | fail error => exact .pure _ w
  | panic text => exact .refl rfl
  | log label => exact .modify_bind (.of_registers_eq rfl) (.pure _ _)
  | createChild name safe =>
    refine .get_bind (.set_bind (continues_createChild w i name safe) ?_)
    split
    · exact .pure _ _
    · exact continues_ofChild _ _

theorem continues_execute (he : e.Continues) (i : InterpId) (work : Work) (w : World) :
    (execute e i work).Continues w := by
  cases work with
  | eval script => exact .bind (continues_evalFrom he i script w) fun _ w' => .pure _ w'
  | invoke words => exact .bind (continues_invokeFrom he i words w) fun _ w' => .pure _ w'
  | job job => exact continues_runJob he i job w

theorem continues_executeQueued (he : e.Continues) (h : HandleId) (work : Work) (w : World) :
    (executeQueued e h work).Continues w := by
  refine .get_bind ?_
  split
  · exact .pure _ w
  · refine .bind (continues_execute he _ work w).attempt fun result w' => ?_
    split
    · exact .pure _ w'
    · exact .pure _ w'
    · exact .pure _ w'
    · exact .halt _ w'

theorem continues_serveDetached (he : e.Continues) (h : HandleId) (pending : List Queued)
    (w : World) : (serveDetached e h pending).Continues w := by
  induction pending generalizing w with
  | nil => exact .pure _ w
  | cons queued rest ih =>
    refine .bind (continues_executeQueued he h queued.work w) fun answer w' => ?_
    refine .modify_bind (continues_answerDetached w' queued answer.1) ?_
    split
    · exact ih _
    · exact .modify_bind (.of_registers_eq (registers_loseReplies _ rest)) (.refl rfl)

theorem continues_releaseHere (he : e.Continues) (h : HandleId) (pending : List Queued) (w : World) :
    (releaseHere e h pending).Continues w :=
  .bind (continues_serveDetached he h pending w) fun _ w' => .of_modify (continues_giveUp w' h)

theorem continues_vanish (he : e.Continues) (h : HandleId) (handle : Handle) (w : World) :
    (vanish e h handle).Continues w := by
  have hletGo : w.Continues ((w.record (.letGo h)).unregister h) :=
    (continues_record w _).trans (.of_registers_eq rfl)
  have hempty (w : World) :
      w.Continues (w.modifyHandle h fun last => { last with mailbox := handle.mailbox.takeAll.2 }) :=
    .of_registers_eq (registers_modifyHandle w h (by simp))
  refine .get_bind (.set_bind (hletGo.trans (hempty _)) ?_)
  split
  · exact continues_releaseHere he h _ _
  · split
    · exact .of_modify (.of_registers_eq rfl)
    · exact .of_modify (.of_registers_eq (registers_loseReplies _ _))

theorem continues_release (he : e.Continues) (h : HandleId) (w : World) :
    (release e h).Continues w := by
  refine .modify_bind (continues_unhold w h) (.get_bind ?_)
  split
  · exact .pure _ _
  · split
    · exact .pure _ _
    · exact continues_vanish he h _ _

theorem continues_reply (he : e.Continues) (queued : Queued) (envelope : Envelope) (w : World) :
    (reply e queued envelope).Continues w := by
  refine .get_bind (.set_bind (.of_registers_eq (registers_answerQueued w queued envelope)) ?_)
  split
  · split
    · exact continues_release he _ _
    · exact .pure _ _
  · exact .pure _ _

theorem continues_finishWork (w : World) (h : HandleId) (failed : Bool) :
    w.Continues (w.finishWork h failed) :=
  .of_registers_eq (registers_modifyHandle w h (by simp))

theorem continues_serveOne (he : e.Continues) (h : HandleId) (w : World) :
    (serveOne e h).Continues w := by
  refine .get_bind ?_
  split
  · exact .pure _ w
  · next queued u htake =>
    refine .set_bind (.of_registers_eq (registers_takeWork? htake)) ?_
    refine .bind (continues_executeQueued he h queued.work u) fun answer w' => ?_
    refine .modify_bind (continues_finishWork w' h _) ?_
    refine .bind (continues_reply he queued answer.1 _) fun _ w' => ?_
    refine .bind (continues_release he h w') fun _ w' => ?_
    split
    · exact .refl rfl
    · exact .pure _ w'

/-! ### Calls -/

theorem continues_escalate (result : Except HostError α) (w : World) :
    (escalate result).Continues w := by
  unfold escalate
  split
  · refine .get_bind ?_
    split
    · exact .beginUnwind _ w
    · exact .pure _ w
  · exact .pure _ w

theorem continues_abandon (he : e.Continues) (r : ReplyId) (w : World) :
    (abandon e r).Continues w := by
  refine .modify_bind (.of_registers_eq rfl) (.get_bind ?_)
  split
  · exact continues_release he _ _
  · exact .pure _ _

theorem continues_settleReply (he : e.Continues) (h : HandleId) (r : ReplyId)
    (deadline : Option Time) (w : World) : (settleReply e h r deadline).Continues w := by
  refine .get_bind ?_
  split
  · exact .pure _ w
  · exact .bind (continues_abandon he r w) fun _ w' => .pure _ w'
  · exact .bind (continues_abandon he r w) fun _ w' => .pure _ w'

theorem continues_awaitReply (he : e.Continues) (h : HandleId) (r : ReplyId) (w : World) :
    (awaitReply e h r).Continues w :=
  .get_bind (.bind (continues_waitUntil he _ _ _ w) fun _ w' => continues_settleReply he h r _ w')

theorem continues_submitForReply (h : HandleId) (work : Work) (w : World) :
    (submitForReply h work).Continues w := by
  have hsubmit := registers_submit w.newReply.2 h work (some w.newReply.1)
  exact .get_bind (.set_bind (.of_registers_eq hsubmit) (.pure _ _))

theorem continues_executeHere (he : e.Continues) (h : HandleId) (work : Work) (w : World) :
    (executeHere e h work).Continues w := by
  refine .modify_bind (.of_registers_eq (registers_modifyHandle w h (by simp))) (.get_bind ?_)
  split
  · exact .modify_bind (continues_finishWork _ h _) (.pure _ _)
  · refine .bind (continues_execute he _ work _).attempt fun result w' => ?_
    split
    · exact .modify_bind (continues_finishWork w' h _) (.pure _ _)
    · refine .modify_bind (continues_finishWork w' h _) ?_
      split
      · refine .get_bind ?_
        split
        · exact .halt _ _
        · exact .pure _ _
      · exact .halt _ _

theorem continues_enqueue (he : e.Continues) (h : HandleId) (work : Work) (wait : Bool) (w : World) :
    (enqueue e h work wait).Continues w := by
  refine .get_bind ?_
  split
  · exact .pure _ w
  · split
    · exact .bind (continues_executeHere he h work w) fun _ w' => .pure _ w'
    · split
      · refine .bind (continues_submitForReply h work w) fun submitted w' => ?_
        refine .bind (continues_escalate submitted w') fun result w' => ?_
        split
        · exact .pure _ w'
        · refine .bind (continues_awaitReply he h _ w') fun reply w' => ?_
          refine .bind (continues_escalate reply w') fun result w' => ?_
          split
          · exact .pure _ w'
          · split
            · refine .get_bind ?_
              split
              · exact .beginUnwind _ w'
              · exact .pure _ w'
            · exact .pure _ w'
      · refine .set_bind (.of_registers_eq (registers_submit w h work none)) ?_
        refine .bind (continues_escalate _ _) fun result w' => ?_
        split <;> exact .pure _ w'

theorem continues_run (he : e.Continues) (h : HandleId) (work : Work) (w : World) :
    (run e h work).Continues w := by
  refine .bind (.bind (continues_enqueue he h work true w) fun result w' => ?_) fun _ w' =>
    .pure _ w'
  split <;> exact .pure _ w'

theorem continues_invoke (he : e.Continues) (h : HandleId) (words : List String) (w : World) :
    (invoke e h words).Continues w := by
  unfold invoke
  split
  · exact .pure _ w
  · exact .bind (continues_run he h _ w) fun _ w' => .pure _ w'

/-- A closure is registered with a handle that is there and not deleted. -/
theorem register_eq (h : HandleId) (closure : Closure) (w : World) :
    register h closure w =
      match w.handles.get? h with
      | none => .ok (.error .deleted) w
      | some handle =>
        if handle.deleted then .ok (.error .deleted) w
        else
          .ok (.ok (handle.callbacks.register closure).1)
            (w.changeRegistry h (.register closure)) := by
  have hcheck : checkLive h w = .ok (if w.isDeleted h then .error .deleted else .ok ()) w := rfl
  rw [register, Act.bind_of_ok hcheck, World.isDeleted]
  cases hhandle : w.handles.get? h with
  | none =>
    rw [Option.any_none, if_neg Bool.false_ne_true]
    dsimp only
    rw [Act.get_bind, hhandle]
    rfl
  | some handle =>
    rw [Option.any_some]
    dsimp only
    split
    · rfl
    · dsimp only
      rw [Act.get_bind, hhandle]
      have hchange : w.changeRegistry h (.register closure) = w.modifyHandle h fun last =>
          { last with callbacks := (handle.callbacks.register closure).2 } := by
        rw [changeRegistry, modifyHandle, modifyHandle, Table.modify, Table.modify, hhandle]
        rfl
      rw [hchange]
      rfl

theorem unregister_eq (h : HandleId) (id : String) (w : World) :
    unregister h id w =
      if w.isDeleted h then .ok (.error .deleted) w
      else .ok (.ok ()) (w.changeRegistry h (.unregister id)) := by
  have hcheck : checkLive h w = .ok (if w.isDeleted h then .error .deleted else .ok ()) w := rfl
  rw [unregister, Act.bind_of_ok hcheck]
  split <;> rfl

end Handle

/-! ### Host closures -/

/-- An action does nothing, or it makes a change of a registry. -/
def Act.Changes (change : Change) (act : Act α) (w : World) : Prop :=
  act.after w = w ∨ ∃ h, act.after w = w.changeRegistry h change

theorem Handle.changes_register (h : HandleId) (closure : Closure) (w : World) :
    (register h closure).Changes (.register closure) w := by
  have hrun := register_eq h closure w
  split at hrun
  · exact .inl (Act.after_of_ok hrun)
  · split at hrun
    · exact .inl (Act.after_of_ok hrun)
    · exact .inr ⟨h, Act.after_of_ok hrun⟩

theorem Handle.changes_unregister (h : HandleId) (id : String) (w : World) :
    (unregister h id).Changes (.unregister id) w := by
  have hrun := unregister_eq h id w
  split at hrun
  · exact .inl (Act.after_of_ok hrun)
  · exact .inr ⟨h, Act.after_of_ok hrun⟩

namespace Closure

theorem changes_target_bind {name : String} {change : Change} {f : HandleId → Act α}
    {g : α → β} (hf : ∀ h, (f h).Changes change w) :
    (target name >>= fun h => f h >>= fun a => pure (g a) : Act β).Changes change w := by
  cases hname : w.names.get? name with
  | none =>
    have hrun : target name w = .error (.panic (.text s!"no interpreter named {name}")) w := by
      rw [target, Act.get_bind, hname]
      rfl
    exact .inl (Act.after_of_error (Act.bind_of_error hrun _))
  | some h =>
    have hrun : target name w = .ok h w := by
      rw [target, Act.get_bind, hname]
      rfl
    have hafter : (target name >>= fun h => f h >>= fun a => pure (g a) : Act β).after w =
        (f h).after w := by
      rw [Act.after, Act.bind_of_ok hrun, ← Act.after, ← map_eq_pure_bind, Act.after_map]
    rw [Act.Changes, hafter]
    exact hf h

/-- A closure that asks for a change makes it, or does nothing. -/
theorem changes_run {closure : Closure} {change : Change} (hasks : closure.asks? = some change)
    (args : List String) (w : World) : (closure.run e args).Changes change w := by
  cases closure with
  | register name closure =>
    cases hasks
    exact changes_target_bind fun h => Handle.changes_register h closure w
  | unregister name id =>
    cases hasks
    exact changes_target_bind fun h => Handle.changes_unregister h id w
  | _ => cases hasks

theorem continues_target (name : String) (w : World) : (target name).Continues w := by
  refine .get_bind ?_
  split
  · exact .pure _ w
  · exact .halt _ w

theorem continues_runAll (he : e.Continues) (args : List String) (last : Outcome)
    (parts : List Closure) (w : World) : (runAll e args last parts).Continues w := by
  induction parts generalizing last w with
  | nil => exact .pure _ w
  | cons closure rest ih =>
    refine .bind (he.call (.closure closure args) w) fun result w' => ?_
    split
    · exact ih result w'
    · exact .pure _ w'

/-- A closure that asks for no change lets every registry go on. -/
theorem continues_run (he : e.Continues) {closure : Closure} (hasks : closure.asks? = none)
    (args : List String) (w : World) : (closure.run e args).Continues w := by
  cases closure with
  | outcome => exact .pure _ w
  | value => exact .pure _ w
  | count => exact .pure _ w
  | join => exact .pure _ w
  | double => exact .pure _ w
  | exit => exact .pure _ w
  | log => exact .modify_bind (.of_registers_eq rfl) (.pure _ _)
  | inCallback => exact .get_bind (.pure _ w)
  | panic payload => exact .halt _ w
  | switch cases other =>
    unfold run
    dsimp only
    split
    · exact he.call (.closure _ args) w
    · exact .pure _ w
  | seq parts => exact continues_runAll he args _ parts w
  | eval name script ignore =>
    exact .bind (continues_target name w) fun h w' =>
      .bind (.bind (Handle.continues_run he h _ w') fun _ w' => .pure _ w') fun _ w' => .pure _ w'
  | evalOutcome name script ignore =>
    exact .bind (continues_target name w) fun h w' =>
      .bind (.bind (Handle.continues_run he h _ w') fun _ w' => .pure _ w') fun _ w' => .pure _ w'
  | invokeArgs name =>
    exact .bind (continues_target name w) fun h w' =>
      .bind (Handle.continues_invoke he h args w') fun _ w' => .pure _ w'
  | register name closure => cases hasks
  | unregister name id => cases hasks
  | delete name =>
    exact .bind (continues_target name w) fun h w' =>
      .modify_bind (continues_deleteHandle w' h) (.pure _ _)
  | drop name =>
    refine .bind (continues_target name w) fun h w' => .modify_bind (.of_registers_eq rfl) ?_
    exact .bind (Handle.continues_release he h _) fun _ w' => .pure _ w'
  | stopLoop name =>
    refine .bind (continues_target name w) fun h w' => .bind (.of_modify ?_) fun _ w' => .pure _ w'
    exact .of_registers_eq (registers_modifyHandle w' h (by simp))
  | stopGlobal =>
    have halert := registers_alertAll { w with hub := { w.hub with globalStop := true } }
    exact .bind (.of_modify (.of_registers_eq halert)) fun _ w' => .pure _ w'
  | interrupt =>
    have halert := registers_alertAll { w with hub := { w.hub with interrupted := true } }
    exact .bind (.of_modify (.of_registers_eq halert)) fun _ w' => .pure _ w'

theorem isAsked_of_asks? {closure : Closure} {change : Change}
    (hasks : closure.asks? = some change) : change.isAsked = true := by
  cases closure <;> cases hasks <;> rfl

/-- A closure that runs lets every registry go on; the change that it asks for is its own. -/
theorem continues_begin (he : e.Continues) (closure : Closure) (args : List String) (w : World) :
    (do modify fun w => w.record (.ran closure)
        closure.run e args : Act Outcome).Continues w := by
  cases hasks : closure.asks? with
  | none => exact .modify_bind (continues_record w _) (continues_run he hasks args _)
  | some change =>
    rw [Act.Continues, Act.after_modify_bind]
    rcases changes_run hasks args (w.record (.ran closure)) with hsame | ⟨h, hchange⟩
    · rw [hsame]
      exact continues_record w _
    · rw [hchange]
      exact continues_change hasks (isAsked_of_asks? hasks) w h

end Closure

/-! ### One piece of work -/

theorem continues_runAfter (he : e.Continues) (i : InterpId) (id script : String) (w : World) :
    (runAfter e i id script).Continues w := by
  refine .modify_bind (.of_registers_eq rfl) (.bind (continues_getInterp i _) fun r w' => ?_)
  split
  · exact .pure _ w'
  · refine .bind (continues_evalAtGlobal he i script w') fun completion w' => ?_
    split
    · exact .pure _ w'
    · refine .bind (continues_getInterp i w') fun r w' => ?_
      split
      · exact .bind (continues_invokeFrom he i _ w') fun _ w' => .pure _ w'
      · exact .pure _ w'

theorem continues_runHandler (he : e.Continues) (handler : Handler) (w : World) :
    (runHandler e handler).Continues w := by
  cases handler with
  | after i id script => exact continues_runAfter he i id script w
  | keepalive l => exact .of_modify (.of_registers_eq (registers_armKeepalive w l))
  | delete i => exact .of_modify (continues_delete w i)
  | label i label script =>
    refine .modify_bind (.of_registers_eq rfl) ?_
    cases script with
    | none => exact .pure _ _
    | some script =>
      exact .bind (continues_evalFrom he i script _) fun _ _ => .of_modify (.of_registers_eq rfl)

theorem continues_runEvent (he : e.Continues) (event : Event) (w : World) :
    (runEvent e event).Continues w := by
  cases event with
  | serve h => exact Handle.continues_serveOne he h w
  | release h pending => exact Handle.continues_releaseHere he h pending w
  | delete h => exact .of_modify (continues_giveUp w h)
  | print label => exact .of_modify (.of_registers_eq rfl)

theorem continues_runWork (he : e.Continues) (work : Agenda.Work Event Handler) (w : World) :
    (runWork e work).Continues w := by
  cases work with
  | event event => exact continues_runEvent he event w
  | timer handler => exact continues_runHandler he handler w
  | idle handler => exact continues_runHandler he handler w

theorem continues_serveReady (he : e.Continues) (flags : EventFlags) (w : World) :
    (serveReady e flags).Continues w := by
  refine .get_bind ?_
  split
  · exact .pure _ w
  · refine .set_bind (.of_registers_eq rfl) ?_
    exact .bind (continues_runWork he _ _) fun _ w' => .pure _ w'

theorem continues_waitForWork (he : e.Continues) (flags : EventFlags) (w : World) :
    (waitForWork e flags).Continues w := by
  refine .get_bind ?_
  split
  · exact .bind (continues_waitUntil he _ _ _ w) fun _ w' => .of_modify (.of_registers_eq rfl)
  · exact .pure _ w

theorem continues_oneEvent (he : e.Continues) (flags : EventFlags) (w : World) :
    (oneEvent e flags).Continues w := by
  refine .bind (continues_serveReady he _ w) fun served w' => ?_
  split
  · exact .pure _ w'
  · split
    · exact .pure _ w'
    · exact .bind (continues_waitForWork he _ w') fun _ w' => continues_serveReady he _ w'

/-! ### Turns of other threads -/

theorem continues_catchFatal {act : Act (Except HostError α)} (hact : act.Continues w) :
    (catchFatal act).Continues w := by
  refine .bind hact.attempt fun result w' => ?_
  split
  · exact .pure _ w'
  · refine .get_bind ?_
    split
    · exact .refl rfl
    · exact .pure _ w'
  · exact .halt _ w'

namespace EventLoop

theorem continues_handleDone (h : HandleId) (w : World) : (handleDone h).Continues w := by
  refine .get_bind ?_
  split
  · exact .pure _ w
  · split
    · exact .pure _ w
    · exact .set_bind (.of_registers_eq (registers_modifyHandle w h (by simp))) (.pure _ _)

theorem continues_drain (he : e.Continues) (count : Nat) (w : World) :
    (drain e count).Continues w := by
  induction count generalizing w with
  | zero => exact .halt _ w
  | succ count ih =>
    refine .bind (continues_oneEvent he _ w) fun served w' => ?_
    split
    · exact ih w'
    · exact .pure _ w'

theorem continues_close (he : e.Continues) (l : LoopId) (result : Except HostError Unit) (w : World) :
    (close e l result).Continues w := by
  refine .modify_bind (.of_registers_eq (registers_stopKeepalive w l)) ?_
  have hstop (result : Except HostError Unit) (w : World) :
      (do modify fun w => w.setPhase l .stopped; return result : Act _).Continues w :=
    .modify_bind (.of_registers_eq rfl) (.pure _ _)
  cases result with
  | error error => exact .bind (.pure _ _) hstop
  | ok _ =>
    refine .modify_bind (.of_registers_eq rfl) ?_
    exact .bind (continues_catchFatal (continues_drain he _ _)) hstop

end EventLoop

namespace Worker

theorem continues_ending (w : World) (t : ThreadId) (result : Except HostError Unit) :
    w.Continues { w.endThread t with results := w.results.insert t result } :=
  (continues_endThread w t).trans (.of_registers_eq rfl)

theorem continues_finish (he : e.Continues) (t : ThreadId) (h : HandleId)
    (result : Except HostError Unit) (w : World) : (finish e t h result).Continues w :=
  .modify_bind (continues_deleteHandle w h) <| .modify_bind (continues_ending _ t result) <|
    Handle.continues_release he h _

theorem continues_crash (he : e.Continues) (t : ThreadId) (h : HandleId) (w : World) :
    (crash e t h).Continues w :=
  .modify_bind (continues_ending w t _) (Handle.continues_release he h _)

theorem continues_close (he : e.Continues) (t : ThreadId) (h : HandleId) (l : LoopId)
    (result : Except HostError Unit) (w : World) : (close e t h l result).Continues w := by
  refine .bind (EventLoop.continues_close he l result w).attempt fun result w' => ?_
  split
  · exact continues_finish he t h _ w'
  · exact .halt _ w'
  · exact continues_crash he t h w'

theorem continues_round (he : e.Continues) (t : ThreadId) (h : HandleId) (l : LoopId) (w : World) :
    (round e t h l).Continues w := by
  refine .modify_bind (.of_registers_eq rfl) ?_
  refine .bind (EventLoop.continues_handleDone h _) fun done w' => ?_
  have hclose (result : Except HostError Unit) (w : World) :
      (do close e t h l result; return true : Act Bool).Continues w :=
    .bind (continues_close he t h l result w) fun _ w' => .pure _ w'
  split
  · exact hclose _ w'
  · refine .get_bind ?_
    split
    · exact hclose _ w'
    · refine .modify_bind (.of_registers_eq (registers_ensureArmed w' l)) ?_
      refine .bind (continues_serveReady he _ _).attempt fun result w' => ?_
      split
      · exact .pure _ w'
      · exact hclose _ w'
      · exact .bind (continues_crash he t h w') fun _ w' => .pure _ w'
      · exact .halt _ w'

theorem continues_serve (he : e.Continues) (t : ThreadId) (w : World) : (serve e t).Continues w := by
  have hserved : (processOneEvent e (EventFlags.posted.union .dontWait)).Continues w :=
    continues_catchFatal (.bind (continues_oneEvent he _ w) fun _ w' => .pure _ w')
  refine .bind hserved fun result w' => ?_
  split
  · exact .pure _ w'
  · exact .modify_bind (.of_registers_eq rfl) (.pure _ _)

theorem continues_asThread {t : ThreadId} {act : Act α}
    (hact : act.Continues { w with current := t, engaged := t :: w.engaged }) :
    (asThread t act).Continues w := by
  have henter : w.Continues { w with current := t, engaged := t :: w.engaged } := .of_registers_eq rfl
  exact henter.trans (hact.ensuring fun _ => .of_registers_eq rfl)

theorem continues_turn (he : e.Continues) (t : ThreadId) (w : World) : (turn e t).Continues w := by
  refine .get_bind ?_
  split
  · exact continues_asThread (continues_serve he t _)
  · exact continues_asThread (continues_round he t _ _ _)
  · exact .pure _ w

end Worker

/-! ### The engine -/

theorem Engine.Continues.perform [e.Proper] (he : e.Continues) (bound : Nat) :
    Engine.Continues ⟨bound, ScriptHost.perform e⟩ := by
  refine ⟨fun task w => ?_⟩
  cases task with
  | script i source => exact (built_evalScript source w).continues he
  | words i words => exact (built_invokeWords words w).continues he
  | event flags => exact continues_oneEvent he flags w
  | closure closure args => exact closure.continues_begin he args w
  | turn t => exact Worker.continues_turn he t w

end ScriptHost
