import ScriptHost.Proofs.Run.Calls
import ScriptHost.Session.Host
import ScriptHost.Session.Script

/-!
# Sessions as runs of the machine

A session begins without interpreters and goes through steps, and the machine can do whatever a
step does.
-/

namespace ScriptHost.Session

open Run

theorem moves_call {α : Type} (task : Task α) : (engine.call task).Moves Leads :=
  moves_engine task

/-! ### Calls from other threads -/

theorem moves_asThread {α : Type} (t : ThreadId) {act : Act α} (h : act.Moves Leads) :
    (asThread t act).Moves Leads := by
  refine .of_leads fun w htidy => ?_
  have henter : Leads w { w with current := t, engaged := t :: w.engaged } := .rest rfl
  have hact := (h _ (henter.tidy htidy)).leads
  have hafter := Act.after_ensuring act
    (fun w' => { w' with current := w.current, engaged := w.engaged })
    { w with current := t, engaged := t :: w.engaged }
  exact hafter ▸ leads_visit hact

theorem moves_told {act : Act Report} (h : act.Moves Leads) : (told act).Moves Leads := by
  refine .bind (.attempt h) fun result => ?_
  cases result with
  | ok report => exact .pure _
  | error halt => exact .pure _

theorem moves_endThread (t : ThreadId) : (modify fun w => w.endThread t : Act Unit).Moves Leads :=
  .modify fun w => w.leads_endThread t

theorem moves_elsewhere {call : Act Report} (h : call.Moves Leads) : (elsewhere call).Moves Leads := by
  refine .get_bind fun w => .set_bind (.rest rfl) ?_
  refine Act.Moves.bind (moves_asThread _ (moves_told h)) (fun report => ?_) _
  exact .bind (moves_endThread _) fun _ => .pure _

theorem moves_serveAll (t : ThreadId) (count : Nat) : (serveAll t count).Moves Leads := by
  induction count with
  | zero => exact .pure _
  | succ count ih =>
    refine .bind (moves_call _) fun served => ?_
    split
    · exact ih
    · exact .pure _

theorem moves_whileServing {act : Act Report} (h : act.Moves Leads) : (whileServing act).Moves Leads := by
  refine .get_bind fun w => .modify_bind (.rest rfl) ?_
  refine Act.Moves.bind h (fun report => ?_) _
  refine .bind (moves_serveAll _ _) fun _ => .get_bind fun w => ?_
  have hreport (errors : List HostError) :
      (if errors.isEmpty then return report
        else return report ++
          [("owner", .list (errors.map fun error => .record (Report.error error)))] :
        Act Report).Moves Leads := by
    split <;> exact .pure _
  exact .modify_bind (.rest rfl) (hreport _ _)

/-! ### Tickets -/

theorem Ticket.moves_ofRequest (h : HandleId) (request : Request) :
    (ofRequest h request).Moves Leads := by
  refine .get_bind fun w => .set_bind (.rest rfl) ?_
  split
  · exact .refl _ rfl
  · split
    · exact .refl _ rfl
    · refine Act.Moves.bind (moves_asThread _ (Handle.leads_submitForReply h _)) (fun result => ?_) _
      cases result with
      | error error => exact .pure _
      | ok reply => exact .bind (.modify fun w => .rest rfl) fun _ => .pure _

theorem Ticket.moves_start (h : HandleId) (call : HandleCall) : (start h call).Moves Leads := by
  have helsewhere : (do return .finished (← elsewhere (call.run h)) : Act Ticket).Moves Leads :=
    .bind (moves_elsewhere (call.moves_run h)) fun _ => .pure _
  cases call with
  | request request awaited => exact moves_ofRequest h request
  | _ => exact helsewhere

theorem Pending.moves_finish (p : Pending) : p.finish.Moves Leads := by
  have hinner : (do
      let answer ← Handle.settleReply engine p.handle p.reply p.deadline
      let report ← p.request.accept answer
      Handle.release engine p.handle
      return report : Act Report).Moves Leads :=
    .bind (Handle.moves_settleReply moves_engine _ _ _) fun answer =>
      .bind (p.request.moves_accept answer) fun _ =>
        .bind (Handle.moves_release moves_engine _) fun _ => .pure _
  exact .bind (moves_asThread _ hinner) fun _ => .bind (moves_endThread _) fun _ => .pure _

theorem Pending.moves_await (p : Pending) : p.await.Moves Leads :=
  .get_bind fun w =>
    Act.Moves.bind (moves_waitUntil moves_engine _ _ _) (fun _ => p.moves_finish) w

/-! ### Steps of a host session -/

theorem LoopGoal.moves_reached (l : LoopId) (goal : LoopGoal) : (goal.reached l).Moves Leads := by
  cases goal with
  | asks count => exact .get_bind fun w => .refl w rfl
  | logged count => exact .get_bind fun w => .refl w rfl

theorem moves_runOwnLoop (ms : Nat) (goal : LoopGoal) : (runOwnLoop ms goal).Moves Leads := by
  refine .get_bind fun w => .set_bind (.rest rfl) ?_
  refine Act.Moves.bind (EventLoop.moves_runLoop moves_engine _ (goal.moves_reached _)) (fun _ => ?_) _
  exact .get_bind fun w => .refl w rfl

theorem moves_find (name keptAs : String) : (find name keptAs).Moves Leads := by
  refine .get_bind fun w => ?_
  dsimp only
  split
  · exact .refl w rfl
  · exact .set_bind (.rest rfl) (Act.Moves.bind (moves_keep keptAs _) (fun _ => .pure _) _)

theorem moves_drop (name : String) : (drop name).Moves Leads := by
  refine .get_bind fun w => ?_
  split
  · exact .refl w rfl
  · refine .modify_bind (.rest rfl) ?_
    exact Act.Moves.bind (Handle.moves_release moves_engine _) (fun _ => .pure _) _

theorem moves_createDead (config : HandleConfig) (script : String) :
    (createDead config script).Moves Leads := by
  refine .get_bind fun w => .set_bind (.rest rfl) ?_
  have hinner : (do
      let h ← Worker.create config
      let _ ← (Handle.evaluate engine h script).attempt
      return h : Act HandleId).Moves Leads :=
    .bind (Worker.moves_create config) fun h =>
      .bind (.attempt (Handle.moves_evaluate moves_engine h script)) fun _ => .pure _
  exact Act.Moves.bind (moves_asThread _ hinner)
    (fun _ => .bind (moves_endThread _) fun _ => .pure _) _

theorem moves_shutdown (name : String) (session : HostSession) :
    (shutdown name session).Moves Leads := by
  rw [shutdown]
  split
  · exact .pure _
  · exact .bind (Worker.moves_shutdown moves_engine _ _) fun _ => .pure _

theorem moves_spawn (name : String) (config : HandleConfig) (session : HostSession) :
    (spawn name config session).Moves Leads := by
  refine .bind (Worker.moves_spawn config) fun h => .bind (moves_keep name h) fun _ => ?_
  exact .bind (moves_shutdown name session) fun _ => .get_bind fun w => .refl w rfl

theorem moves_join (ticket : String) (session : HostSession) : (join ticket session).Moves Leads := by
  unfold join
  dsimp only
  split
  · exact .pure _
  · exact .pure _
  · exact .bind (Pending.moves_await _) fun _ => .pure _

theorem moves_makeCall (name : String) (call : HandleCall) (session : HostSession) (asked : Via) :
    (makeCall name call session asked).Moves Leads := by
  cases asked with
  | here =>
    exact .bind (Closure.moves_target name) fun h => .bind (call.moves_run h) fun _ => .pure _
  | thread =>
    exact .bind (Closure.moves_target name) fun h =>
      .bind (moves_elsewhere (call.moves_run h)) fun _ => .pure _
  | remote =>
    exact .bind (Closure.moves_target name) fun h =>
      .bind (moves_whileServing (moves_elsewhere (call.moves_run h))) fun _ => .pure _
  | start ticket =>
    exact .bind (Closure.moves_target name) fun h =>
      .bind (Ticket.moves_start h call) fun _ => .pure _

theorem HostAction.moves_run (session : HostSession) (action : HostAction) :
    (action.run session).Moves Leads := by
  cases action with
  | create name config =>
    exact .bind (Worker.moves_create config) fun h => .bind (moves_keep name h) fun _ => .pure _
  | spawn name config => exact moves_spawn name config session
  | createDead name config script =>
    exact .bind (moves_createDead config script) fun h => .bind (moves_keep name h) fun _ => .pure _
  | shutdown name => exact .bind (moves_shutdown name session) fun _ => .pure _
  | drop name => exact .bind (moves_drop name) fun _ => .pure _
  | clone name other =>
    exact .bind (Closure.moves_target name) fun h => .bind (.modify fun w => .rest rfl) fun _ =>
      .bind (moves_keep other h) fun _ => .pure _
  | same name other =>
    exact .bind (Closure.moves_target name) fun _ => .bind (Closure.moves_target other) fun _ =>
      .pure _
  | instances => exact .get_bind fun w => .refl w rfl
  | find name other => exact .bind (moves_find name other) fun _ => .pure _
  | inCallback => exact .get_bind fun w => .refl w rfl
  | callbackCommand id => exact .pure _
  | splitList text => exact .pure _
  | mergeList words => exact .pure _
  | interrupt => exact .bind Hub.moves_interrupt fun _ => .get_bind fun w => .refl w rfl
  | clearInterrupt => exact .bind Hub.moves_clearInterrupt fun _ => .get_bind fun w => .refl w rfl
  | stopGlobal => exact .bind Hub.moves_stopLoop fun _ => .pure _
  | runGlobal untilIdle =>
    exact .bind (EventLoop.moves_global moves_engine untilIdle) fun _ => .pure _
  | globalTimer ms => exact .get_bind fun w => .set_bind (.rest rfl) (.refl _ rfl)
  | oneEvent flags => exact .bind (moves_processOneEvent moves_engine _) fun _ => .pure _
  | pending => exact .get_bind fun w => .refl w rfl
  | runLoop ms goal => exact .bind (moves_runOwnLoop ms goal) fun _ => .pure _
  | waitDeleted name =>
    exact .bind (Closure.moves_target name) fun h =>
      .bind (moves_waitUntil moves_engine _ _ _) fun _ => .pure _
  | join ticket => exact moves_join ticket session
  | call name asked call => exact moves_makeCall name call session asked

theorem moves_letWorkersGo (count : Nat) : (letWorkersGo count).Moves Leads := by
  induction count with
  | zero => exact .pure _
  | succ count ih =>
    refine .bind (moves_moveOther moves_engine) fun moved => ?_
    split
    · exact ih
    · exact .pure _

theorem Ticket.moves_settle (ticket : Ticket) : ticket.settle.Moves Leads := by
  cases ticket with
  | pending p =>
    refine .get_bind fun w => ?_
    split
    · exact Act.Moves.bind (moves_told p.moves_finish) (fun _ => .pure _) w
    · exact .refl w rfl
  | finished report => exact .pure _

theorem moves_settleTickets (tickets : List (String × Ticket)) : (settleTickets tickets).Moves Leads := by
  induction tickets with
  | nil => exact .pure _
  | cons entry rest ih => exact .bind entry.2.moves_settle fun _ => .bind ih fun _ => .pure _

theorem HostSession.moves_settle (session : HostSession) : session.settle.Moves Leads :=
  .bind (moves_letWorkersGo _) fun _ => .bind (moves_settleTickets _) fun _ => .pure _

theorem leads_attemptWith {α : Type} {act : Act (α × HostSession)} (h : act.Moves Leads)
    (cut : Halt → α) (session : HostSession) {w : World} (htidy : w.Tidy) :
    Leads w (attemptWith act cut session w).2.2 := by
  have hw := (h w htidy).leads
  rw [Act.after] at hw
  rw [attemptWith]
  cases hact : act w with
  | ok a w' =>
    rw [hact] at hw
    exact hw
  | error halt w' =>
    rw [hact] at hw
    exact hw

theorem HostStep.leads_run (step : HostStep) (session : HostSession) {w : World}
    (htidy : w.Tidy) : Leads w (step.run session w).2.2 := by
  have haction := leads_attemptWith (step.action.moves_run session) Report.halt session htidy
  have hsettle (session : HostSession) {w : World} (htidy : w.Tidy) :
      Leads w (attemptWith (do return ((), ← session.settle)) (fun _ => ()) session w).2.2 :=
    leads_attemptWith (.bind session.moves_settle fun _ => .pure _) _ session htidy
  have hclear (w : World) :
      Leads w (clearPrinted (if step.later then w else clearLogged w)) := by
    refine .rest ?_
    rw [clearPrinted]
    cases step.later <;> rfl
  have hcleared := haction.trans (hclear _)
  exact hcleared.trans (hsettle _ (hcleared.tidy htidy))

/-! ### Steps of a script session -/

theorem ScriptAction.moves_run (session : ScriptSession) (i : InterpId) (target : String)
    (action : ScriptAction) : (action.run session i target).Moves Leads := by
  cases action with
  | eval script => exact .bind (moves_evalFrom moves_engine i script) fun _ => .pure _
  | evalRaw script => exact .bind (moves_call _) fun _ => .pure _
  | invoke words => exact .bind (moves_invokeFrom moves_engine i words) fun _ => .pure _
  | getVar name => exact .bind (moves_getGlobal i name) fun _ => .pure _
  | setVar name value => exact .bind (moves_setGlobal i name value) fun _ => .pure _
  | unsetVar name => exact .bind (moves_unsetGlobal i name) fun _ => .pure _
  | command name behaviour =>
    exact .bind (.modify fun w => w.leads_defineCommand i name _) fun _ =>
      .bind (moves_getInterp i) fun _ => .pure _
  | deleteCommand name =>
    exact .bind (moves_getInterp i) fun _ => .bind (moves_updateInterp (.undefine name) i) fun _ =>
      .pure _
  | hasCommand name => exact .bind (moves_getInterp i) fun _ => .pure _
  | commandNames => exact .bind (moves_getInterp i) fun _ => .pure _
  | new keep safe =>
    exact .get_bind fun w => .set_bind (.create w "" safe none) (.refl _ rfl)
  | createChild name safe keep =>
    refine .get_bind fun w => .set_bind (w.leads_createChild i name safe) ?_
    split <;> exact .refl _ rfl
  | child name keep =>
    refine .bind (moves_getInterp i) fun r => ?_
    split <;> exact .pure _
  | same other => exact .pure _
  | info => exact .get_bind fun w => .refl w rfl
  | delete => exact .bind (.modify fun w => .delete w i) fun _ => .pure _
  | drop => exact .pure _
  | onDelete label =>
    exact .bind (.modify fun w => w.leads_callWhenDeleted i _) fun _ => .pure _
  | onChild label => exact .bind (moves_updateInterp (.onChild (.log label)) i) fun _ => .pure _
  | timer ms label script => exact .get_bind fun w => .set_bind (.rest rfl) (.refl _ rfl)
  | idle label script => exact .get_bind fun w => .set_bind (.rest rfl) (.refl _ rfl)
  | cancelTimer label =>
    refine .get_bind fun w => ?_
    split
    · exact .set_bind (.rest rfl) (.refl _ rfl)
    · exact .refl w rfl
  | cancelIdle label =>
    refine .get_bind fun w => ?_
    split
    · exact .set_bind (.rest rfl) (.refl _ rfl)
    · exact .refl w rfl
  | queue label => exact .bind (.modify fun w => .rest rfl) fun _ => .pure _
  | queueDead =>
    refine .get_bind fun w => .set_bind (.trans ?_ (World.leads_endThread _ _)) (.refl _ rfl)
    exact .rest rfl
  | alert => exact .bind (.modify fun w => .rest rfl) fun _ => .pure _
  | oneEvent flags => exact .bind (moves_oneEvent moves_engine _) fun _ => .pure _
  | pending => exact .get_bind fun w => .refl w rfl

theorem ScriptStep.leads_run (step : ScriptStep) (session : ScriptSession) {w : World}
    (htidy : w.Tidy) : Leads w (step.run session w).2.2 := by
  have haction := (step.action.moves_run session (session.kept.getD step.target w.nextInterp)
    step.target w htidy).leads
  rw [Act.after] at haction
  rw [ScriptStep.run]
  dsimp only
  cases hrun : step.action.run session (session.kept.getD step.target w.nextInterp) step.target w with
  | ok a w' =>
    rw [hrun] at haction
    exact haction.trans (.rest rfl)
  | error halt w' =>
    rw [hrun] at haction
    exact haction.trans (.rest rfl)

end ScriptHost.Session
