import ScriptHost.Proofs.Run.Built
import ScriptHost.Proofs.Run.Carry
import ScriptHost.Proofs.Run.Handle

/-!
# Scripts, calls and events hand signals on

No command, procedure, event handler or host closure stops a fatal signal that is raised while it runs,
and no call that a closure makes on a handle does so.
-/

namespace ScriptHost

open World

variable {α β : Type} {e : Engine} {i : InterpId} {w w' : World} {n : Nat}
  {sig : Option FatalSignal}

/-! ### Entering and leaving callbacks -/

namespace World

theorem callbacksOf_enterCallback (w : World) (t : ThreadId) :
    w.enterCallback.callbacksOf t =
      if w.current = t then (w.callbacksOf t).map (· + 1) else w.callbacksOf t := by
  rw [callbacksOf, enterCallback, modifyThread, Table.get?_modify, callbacksOf]
  split
  · rw [Option.map_map, Option.map_map]
    rfl
  · rfl

theorem callbacksOf_leaveCallback (w : World) (t : ThreadId) :
    w.leaveCallback.callbacksOf t =
      if w.current = t then (w.callbacksOf t).map (· - 1) else w.callbacksOf t := by
  rw [callbacksOf, leaveCallback, modifyThread, Table.get?_modify, callbacksOf]
  split
  · rw [Option.map_map, Option.map_map]
    rfl
  · rfl

/-- What a closure does between entering a callback and leaving it. -/
theorem Carries.callback {u : World} (h : Carries 1 sig w.enterCallback u) :
    Carries 0 sig w u.leaveCallback := by
  have hcurrent : u.current = w.current := h.current
  have hdepth {depth : Nat} (hw : w.callbacksOf w.current = some depth) :
      w.enterCallback.callbacksOf w.enterCallback.current = some (depth + 1) :=
    (callbacksOf_enterCallback w w.current).trans (by rw [if_pos rfl, hw, Option.map_some])
  have hwithin (hw : w.Within 0) : w.enterCallback.Within 1 := by
    obtain ⟨depth, hw, -⟩ := hw
    exact ⟨depth + 1, hdepth hw, Nat.le_add_left 1 depth⟩
  refine ⟨⟨hcurrent, h.engaged, fun t ht hne => ?_, h.grows, h.told⟩, fun hw => ?_, fun hw => ?_⟩
  · rw [callbacksOf_leaveCallback, if_neg (hcurrent ▸ Ne.symm hne), h.callbacks t ht hne,
      callbacksOf_enterCallback, if_neg (Ne.symm hne)]
  · have hown : u.callbacksOf w.current = _ := h.own (hwithin hw)
    obtain ⟨depth, hw, -⟩ := hw
    rw [callbacksOf_leaveCallback, if_pos hcurrent, hown, hdepth hw, hw, Option.map_some,
      Nat.add_sub_cancel]
  · exact h.signal (hwithin hw)

end World

/-! ### Code that may complete abruptly -/

namespace Exec

/-- Code of a thread that is under way hands on what it raises. -/
def Faithful (code : Exec α) (w : World) : Prop :=
  Act.Faithful 0 code.run w

variable {code : Exec α} {f : α → Exec β}

theorem Faithful.bind (h : code.Faithful w)
    (hf : ∀ a w', code.run w = .ok (.ok a) w' → (f a).Faithful w') : (code >>= f).Faithful w := by
  refine Act.Faithful.bind h fun result w' hrun => ?_
  cases result with
  | ok a => exact hf a w' hrun
  | error end_ => exact .refl rfl

theorem Faithful.lift {act : Act α} (h : act.Faithful 0 w) : (liftM act : Exec α).Faithful w :=
  Act.Faithful.bind h fun _ w' _ => .pure _ w'

theorem Faithful.observe (h : code.Faithful w) : code.observe.Faithful w :=
  Act.Faithful.bind h fun _ w' _ => .pure _ w'

theorem Faithful.of_scene_eq (h : (Act.after code.run w).scene = w.scene) : code.Faithful w :=
  Act.Faithful.of_scene_eq h

theorem Faithful.refl (h : Act.after code.run w = w) : code.Faithful w :=
  Act.Faithful.refl h

theorem Faithful.get_bind {f : World → Exec β} (h : (f w).Faithful w) :
    (get >>= f : Exec β).Faithful w :=
  .bind (.refl rfl) fun _ _ hrun => by cases hrun; exact h

end Exec

/-- An engine all of whose tasks hand signals on. Closures do so inside callbacks, and a thread takes a
turn only if it is not under way. -/
structure Engine.Faithful (e : Engine) : Prop where
  script (i : InterpId) (source : String) (w : World) : (e.call (.script i source)).Faithful 0 w
  words (i : InterpId) (words : List String) (w : World) : (e.call (.words i words)).Faithful 0 w
  event (flags : EventFlags) (w : World) : (e.call (.event flags)).Faithful 0 w
  closure (closure : Closure) (args : List String) (w : World) :
    (e.call (.closure closure args)).Faithful 1 w
  turn {t : ThreadId} {w : World} (ht : t ∉ w.engaged) : (e.call (.turn t)).Faithful 0 w

/-! ### Waiting -/

/-- A thread that may move is not under way. -/
theorem World.not_mem_engaged_of_mayMove {t : ThreadId} (h : w.mayMove t = true) :
    t ∉ w.engaged := by
  rw [mayMove, Bool.and_eq_true, Bool.not_eq_true', List.contains_eq_mem] at h
  exact of_decide_eq_false h.1

theorem faithful_moveFirst (he : e.Faithful) (threads : List ThreadId) (w : World) :
    (moveFirst e threads).Faithful 0 w := by
  induction threads generalizing w with
  | nil => exact .pure _ w
  | cons t rest ih =>
    refine .get_bind ?_
    split
    · next hmay =>
      have ht : t ∉ (w.record (.yielded t)).engaged := not_mem_engaged_of_mayMove hmay
      refine .record_bind (.yielded t) nofun (.bind (he.turn ht) fun moved w' _ => ?_)
      split
      · exact .pure _ w'
      · exact ih w'
    · exact ih w

theorem faithful_waitRounds (he : e.Faithful) (ready hopeless : World → Bool)
    (deadline : Option Time) (rounds : Nat) (w : World) :
    (waitRounds e ready hopeless deadline rounds).Faithful 0 w := by
  induction rounds generalizing w with
  | zero => exact .halt _ w
  | succ rounds ih =>
    refine .get_bind ?_
    split
    · exact .pure _ w
    · refine .bind (.get_bind (faithful_moveFirst he _ w)) fun moved w' _ => ?_
      split
      · exact ih w'
      · refine .get_bind ?_
        split
        · exact .pure _ w'
        · split
          · exact .halt _ w'
          · exact .set_bind rfl (ih _)

theorem faithful_waitUntil (he : e.Faithful) (ready hopeless : World → Bool)
    (deadline : Option Time) (w : World) : (waitUntil e ready hopeless deadline).Faithful 0 w :=
  faithful_waitRounds he ready hopeless deadline _ w

theorem faithful_sleep (he : e.Faithful) (ms : Nat) (w : World) : (sleep e ms).Faithful 0 w :=
  .get_bind (faithful_waitUntil he _ _ _ w)

/-! ### Evaluation from outside -/

theorem faithful_finish (i : InterpId) (completion : Completion) (w : World) :
    (finish i completion).Faithful n w := by
  refine .get_bind ?_
  split <;> exact .pure _ w

theorem faithful_evalFrom (he : e.Faithful) (i : InterpId) (source : String) (w : World) :
    (evalFrom e i source).Faithful 0 w :=
  .bind (he.script i source w) fun _ w' _ => faithful_finish i _ w'

theorem faithful_invokeFrom (he : e.Faithful) (i : InterpId) (words : List String) (w : World) :
    (invokeFrom e i words).Faithful 0 w :=
  .bind (he.words i words w) fun _ w' _ => faithful_finish i _ w'

theorem faithful_evalAtGlobal (he : e.Faithful) (i : InterpId) (source : String) (w : World) :
    (evalAtGlobal e i source).Faithful 0 w := by
  refine .get_bind ?_
  split
  · exact .refl rfl
  · exact .modify_bind rfl ((faithful_evalFrom he i source _).ensuring fun _ => rfl)

/-! ### Callbacks -/

theorem faithful_runCallback (he : e.Faithful) (closure : Closure) (args : List String)
    (w : World) : (runCallback e closure args).Faithful 0 w := by
  intro hw
  have hclosure := (he.closure closure args w.enterCallback hw).callback
  cases hrun : e.call (.closure closure args) w.enterCallback with
  | ok outcome u =>
    have hboth : runCallback e closure args w = .ok outcome u.leaveCallback := by
      rw [runCallback, Act.attempt_ensuring_bind, Act.modify_bind,
        Act.bind_of_ok (Act.attempt_of_ok hrun)]
      rfl
    rw [Act.after_of_ok hboth, Act.signal?_of_ok hboth]
    rwa [Act.after_of_ok hrun, Act.signal?_of_ok hrun] at hclosure
  | error halt u =>
    rw [Act.after_of_error hrun, Act.signal?_of_error hrun] at hclosure
    have hattempt := Act.attempt_of_error hrun
    have hcut (hhalt : ∀ payload, halt ≠ .panic payload) :
        runCallback e closure args w = .error halt u.leaveCallback := by
      rw [runCallback, Act.attempt_ensuring_bind, Act.modify_bind, Act.bind_of_ok hattempt]
      cases halt with
      | panic payload => exact absurd rfl (hhalt payload)
      | unwind signal => rfl
      | stalled => rfl
    cases halt with
    | panic payload =>
      have hboth : runCallback e closure args w =
          .ok (.error s!"host callback panicked: {payload.message}") u.leaveCallback := by
        rw [runCallback, Act.attempt_ensuring_bind, Act.modify_bind, Act.bind_of_ok hattempt]
        rfl
      rwa [Act.after_of_ok hboth, Act.signal?_of_ok hboth]
    | unwind signal =>
      have hboth := hcut fun _ hhalt => by cases hhalt
      rwa [Act.after_of_error hboth, Act.signal?_of_error hboth]
    | stalled =>
      have hboth := hcut fun _ hhalt => by cases hhalt
      rwa [Act.after_of_error hboth, Act.signal?_of_error hboth]

theorem faithful_dispatch (he : e.Faithful) (h : HandleId) (id : String) (args : List String)
    (w : World) : (dispatch e h id args).Faithful 0 w := by
  refine .get_bind ?_
  split
  · exact .pure _ w
  · exact .bind (faithful_runCallback he _ args w) fun _ w' _ => .pure _ w'

theorem faithful_complete (outcome : Outcome) (w : World) : (complete outcome).Faithful w := by
  cases outcome with
  | fatal signal => exact Act.Faithful.beginUnwind signal w
  | _ => exact .refl rfl

/-! ### Commands that serve what is pending or call the host -/

namespace Command

theorem faithful_drainRounds (he : e.Faithful) (flags : EventFlags) (rounds : Nat) (w : World) :
    (drainRounds e flags rounds).Faithful 0 w := by
  induction rounds generalizing w with
  | zero => exact .halt _ w
  | succ rounds ih =>
    refine .bind (he.event flags w) fun served w' _ => ?_
    split
    · exact ih w'
    · exact .pure _ w'

theorem faithful_update (he : e.Faithful) (args : List String) (w : World) :
    (update e args).Faithful w := by
  unfold update
  split
  · exact .bind (.lift (faithful_drainRounds he _ _ w)) fun _ w' _ => .refl rfl
  · exact .bind (.lift (faithful_drainRounds he _ _ w)) fun _ w' _ => .refl rfl
  · exact .refl rfl
  · exact .refl rfl

theorem faithful_getInterp (i : InterpId) (w : World) : (getInterp i).Faithful n w :=
  .refl rfl

theorem faithful_vwaitRounds (he : e.Faithful) (name : String) (before rounds : Nat)
    (w : World) : (vwaitRounds e i name before rounds).Faithful w := by
  induction rounds generalizing w with
  | zero => exact .refl rfl
  | succ rounds ih =>
    refine .bind (.lift (faithful_getInterp i w)) fun r w' _ => ?_
    split
    · exact .refl rfl
    · split
      · exact .refl rfl
      · exact .bind (.lift (he.event _ w')) fun _ w' _ => ih w'

theorem faithful_vwait (he : e.Faithful) (args : List String) (w : World) :
    (vwait e i args).Faithful w := by
  unfold vwait
  split
  · exact .bind (.lift (faithful_getInterp i w)) fun _ w' _ => faithful_vwaitRounds he _ _ _ w'
  · exact .refl rfl

theorem faithful_hostCallback (he : e.Faithful) (h : HandleId) (args : List String) (w : World) :
    (hostCallback e h args).Faithful w := by
  unfold hostCallback
  split
  · exact .refl rfl
  · refine .bind (.lift (faithful_dispatch he h _ _ w)) fun result w' _ => ?_
    cases result with
    | ok outcome => exact faithful_complete outcome w'
    | error error => exact .refl rfl

theorem faithful_hostEval (he : e.Faithful) (h : HandleId) (args : List String) (w : World) :
    (hostEval e h args).Faithful w := by
  unfold hostEval
  split
  · refine .get_bind ?_
    split
    · exact .refl rfl
    · exact .bind (.lift (faithful_runCallback he _ _ w)) fun outcome w' _ =>
        faithful_complete outcome w'
  · exact .refl rfl

end Command

theorem faithful_getFramed (i : InterpId) (name : String) (w : World) :
    (getFramed i name).Faithful n w := by
  refine .bind (.refl rfl) fun r w' _ => ?_
  split
  · exact .refl rfl
  · exact .refl rfl

theorem faithful_getGlobal (i : InterpId) (name : String) (w : World) :
    (getGlobal i name).Faithful n w :=
  .bind (faithful_getFramed i "::" w) fun _ w' _ => .pure _ w'

theorem faithful_unsetGlobal (i : InterpId) (name : String) (w : World) :
    (unsetGlobal i name).Faithful n w :=
  .bind (faithful_getFramed i "::" w) fun _ _ _ =>
    .bind (.of_modify rfl) fun _ w' _ => .pure _ w'

theorem faithful_checkLive (i : InterpId) (w : World) : (checkLive i).Faithful w := by
  refine .bind (.lift (.refl rfl)) fun r w' _ => ?_
  split <;> exact .refl rfl

theorem faithful_setGlobal (i : InterpId) (name value : String) (w : World) :
    (setGlobal i name value).Faithful w :=
  .bind (faithful_checkLive i w) fun _ w' _ => .bind (.lift (faithful_getFramed i "::" w'))
    fun _ _ _ => .bind (.lift (.of_modify rfl)) fun _ _ _ => .refl rfl

namespace Command

theorem faithful_requiredArg (words : List String) (index : Nat) (w : World) :
    (requiredArg words index).Faithful n w := by
  rw [requiredArg]
  split <;> exact .refl rfl

theorem faithful_behave (he : e.Faithful) (words : List String) (behaviour : Behaviour)
    (w : World) : (behave e i words behaviour).Faithful w := by
  cases behaviour with
  | args => exact .refl rfl
  | complete code value =>
    unfold behave
    dsimp only
    split <;> exact .refl rfl
  | eval script => exact faithful_evalFrom he i script w
  | evalRaw script => exact he.script i script w
  | invokeArgs => exact faithful_invokeFrom he i _ w
  | evalCode script =>
    have heval : (Exec.ofAct (evalFrom e i script)).Faithful w := faithful_evalFrom he i script w
    exact .bind heval.observe fun _ w' _ => .refl rfl
  | busy => exact .bind (.lift (faithful_getInterp i w)) fun _ w' _ => .refl rfl
  | getVar =>
    exact .bind (.lift (faithful_requiredArg words 1 w)) fun name w' _ =>
      .bind (.lift (faithful_getGlobal i name w')) fun _ w' _ => .refl rfl
  | setVar =>
    exact .bind (.lift (faithful_requiredArg words 1 w)) fun name w' _ =>
      .bind (.lift (faithful_requiredArg words 2 w')) fun value w' _ =>
        faithful_setGlobal i name value w'
  | unsetVar =>
    exact .bind (.lift (faithful_requiredArg words 1 w)) fun name w' _ =>
      .bind (.lift (faithful_unsetGlobal i name w')) fun _ w' _ => .refl rfl
  | deleteCommand =>
    exact .bind (.lift (faithful_requiredArg words 1 w)) fun name w' _ =>
      .bind (.lift (faithful_getInterp i w')) fun _ w' _ =>
        .bind (.lift (.of_modify rfl)) fun _ w' _ => .refl rfl
  | log => exact .bind (.of_scene_eq rfl) fun _ w' _ => .refl rfl
  | delete => exact .bind (.of_scene_eq (scene_delete w i)) fun _ w' _ => .refl rfl

theorem faithful_outward (he : e.Faithful) {command : Command}
    (houtward : command.isOutward = true) (name : String) (args : List String) (w : World) :
    (command.run e i name args).Faithful w := by
  cases command with
  | builtin b =>
    cases b with
    | update => exact faithful_update he args w
    | vwait => exact faithful_vwait he args w
    | _ => cases houtward
  | procedure p => cases houtward
  | host behaviour => exact faithful_behave he _ behaviour w
  | callback h => exact faithful_hostCallback he h args w
  | evaluator h => exact faithful_hostEval he h args w

theorem carries_beginCommand (w : World) (i : InterpId) (name : String) (command : Command)
    (depth : Nat) : Carries 0 none w (w.beginCommand i name command depth) :=
  (carries_record w (.invoked i name command) nofun).of_scene_eq_right rfl

theorem faithful_runDeeper {command : Command} {name : String} {args : List String} {depth : Nat}
    (h : (command.run e i name args).Faithful (w.beginCommand i name command depth)) :
    (command.runDeeper e i name args depth).Faithful w :=
  Act.Faithful.of_eq (Act.modify_bind _ _ w) (fun _ => carries_beginCommand w i name command depth)
    (h.ensuring fun _ => rfl)

end Command

/-! ### Scripts -/

theorem Builtin.Step.scene_eq (h : Builtin.Step i w w') : w'.scene = w.scene := by
  cases h with
  | same => rfl
  | print => rfl
  | printError => rfl
  | edit => rfl
  | schedule _ delay script => exact scene_scheduleAfter w i delay script
  | unschedule _ id =>
    rw [World.unschedule]
    cases (w.takeAfter i id).1 with
    | none => rfl
    | some token => exact scene_cancelAfter _ token
  | createChild _ name safe => exact scene_createChild w i name safe
  | deleteChild hchild => exact scene_delete w _

theorem Procedure.faithful_enter (he : e.Faithful) (p : Procedure) (vars : Table String String)
    (w : World) : (p.enter e i vars).Faithful w := by
  have hbody := (he.script i p.body (w.modifyInterp i fun r => r.enterCall vars)).ensuring
    (g := fun w => w.modifyInterp i Interpreter.leaveCall) fun _ => rfl
  exact Act.Faithful.modify_bind rfl (.bind hbody fun _ w' _ => .pure _ w')

/-- Code that is built of the pieces of scripts hands signals on. -/
theorem Exec.Built.faithful {code : Exec α} (he : e.Faithful) (h : Built e i code w) :
    code.Faithful w := by
  induction h with
  | step hrun hstep _ =>
    refine .of_scene_eq ?_
    rw [Act.after_of_ok hrun]
    exact hstep.scene_eq
  | stop hrun _ => exact .refl (Act.after_of_error hrun)
  | sleep ms w => exact .lift (faithful_sleep he ms w)
  | script source w => exact he.script i source w
  | child _ source => exact faithful_evalFrom he _ source _
  | observe _ ih => exact ih.observe
  | bind _ _ ih ihf => exact .bind ih ihf
  | call _ p vars => exact p.faithful_enter he vars _
  | command args _ _ _ _ _ ih => exact Command.faithful_runDeeper ih
  | outward args _ _ _ houtward =>
    exact Command.faithful_runDeeper (Command.faithful_outward he houtward _ args _)

end ScriptHost
