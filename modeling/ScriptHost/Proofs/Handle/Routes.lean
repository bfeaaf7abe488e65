import ScriptHost.Proofs.Run.Escape

/-!
# The routes to an evaluation agree

A script or a command may be executed in place on the owning thread, be served from the mailbox, or be
evaluated by a closure while the interpreter is running a command. On the way the completion passes
through different hands: it is folded by an outermost evaluation or not, and a fatal signal is stopped,
reported beside the envelope or left alone. The envelope is the same in all cases.
-/

namespace ScriptHost

open World

variable {e : Engine} {h : HandleId} {w w' : World}

/-- Hand work over that comes before everything that waits. -/
def Mailbox.pushFront (m : Mailbox) (queued : Queued) : Mailbox :=
  { m.submit with queue := queued :: m.queue }

namespace World

/-- Put work in front of everything that waits in the mailbox of a handle. -/
def queueNext (w : World) (h : HandleId) (queued : Queued) : World :=
  w.modifyHandle h fun handle => { handle with mailbox := handle.mailbox.pushFront queued }

variable {handle : Handle}

/-- In front of an empty mailbox is where work comes that is handed over. -/
theorem queueNext_eq_push (hhandle : w.handles.get? h = some handle)
    (hempty : handle.mailbox.queue = []) (queued : Queued) :
    w.queueNext h queued =
      w.modifyHandle h fun handle => { handle with mailbox := handle.mailbox.push queued } := by
  refine modifyHandle_congr fun handle' hhandle' => ?_
  obtain rfl := Option.some.inj (hhandle.symm.trans hhandle')
  rw [Mailbox.push, hempty, Mailbox.pushFront, hempty]
  rfl

/-- The work is the next to be served, and who serves it holds the handle as a caller does. -/
theorem takeWork?_queueNext (hhandle : w.handles.get? h = some handle)
    (hexists : handle.exists = true) (queued : Queued) :
    (w.queueNext h queued).takeWork? h = some (queued, (w.hold h).startWork h) := by
  have hexists' : Handle.exists { handle with mailbox := handle.mailbox.pushFront queued } = true :=
    hexists
  unfold takeWork?
  rw [queueNext, get?_modifyHandle_self hhandle]
  dsimp only
  rw [if_pos hexists']
  refine congrArg some (congrArg (Prod.mk queued) ?_)
  unfold hold startWork
  rw [modifyHandle_modifyHandle, modifyHandle_modifyHandle, modifyHandle_modifyHandle]
  refine modifyHandle_congr fun handle' hhandle' => ?_
  obtain rfl := Option.some.inj (hhandle.symm.trans hhandle')
  rfl

end World

/-! ### What is evaluated -/

/-- What the owner of a handle may be asked to evaluate. -/
inductive Evaluand
  | script (source : String)
  | command (name : String) (args : List String)

namespace Evaluand

/-- The work for the owning thread. -/
def work : Evaluand → Work
  | script source => .eval source
  | command name args => .invoke (name :: args)

/-- The task for the engine. -/
def task (i : InterpId) : Evaluand → Task Completion
  | script source => .script i source
  | command name args => .words i (name :: args)

/-- The call on a handle. -/
def call (e : Engine) (h : HandleId) : Evaluand → Act (Except HostError String)
  | script source => Handle.evaluate e h source
  | command name args => Handle.invoke e h (name :: args)

end Evaluand

namespace Handle

open Route (signalOf)

/-- Whether an outermost evaluation folded the completion makes no difference for the envelope. -/
theorem envelope_outermost {completion : Completion} (hproper : Abrupt.Proper completion) :
    envelope completion.outermost = envelope completion := by
  cases completion with
  | ok value => rfl
  | error end_ =>
    obtain ⟨code, value⟩ := end_
    cases code with
    | ok => exact absurd rfl (hproper _ rfl)
    | error | returning | breaking | continuing => rfl

theorem signalOf_envelope (completion : Completion) : signalOf (envelope completion) = none := by
  cases completion with
  | ok value => rfl
  | error end_ =>
    obtain ⟨code, value⟩ := end_
    cases code <;> rfl

/-- Also where the interpreter is running a command, the envelope is the one of the completion. -/
theorem execute_evaluand [e.Proper] (i : InterpId) (ev : Evaluand) :
    execute e i ev.work = envelope <$> e.call (ev.task i) := by
  have hfinish {task : Task Completion} (w : World)
      (hproper : ∀ completion u, e.call task w = .ok completion u → Abrupt.Proper completion) :
      ((e.call task >>= finish i) >>= fun completion => pure (envelope completion)) w =
        (envelope <$> e.call task) w := by
    rw [map_eq_pure_bind, bind_assoc]
    cases hrun : e.call task w with
    | ok completion u =>
      rw [Act.bind_of_ok hrun, Act.bind_of_ok hrun, Act.bind_of_ok (finish_eq i completion u)]
      split
      · rfl
      · rw [envelope_outermost (hproper completion u hrun)]
    | error halt u => rw [Act.bind_of_error hrun, Act.bind_of_error hrun]
  funext w
  cases ev with
  | script source => exact hfinish w fun _ _ hrun => Engine.Proper.script hrun
  | command name args => exact hfinish w fun _ _ hrun => Engine.Proper.words hrun

/-- What is reported beside the envelope of a script or a command is the signal in it, and there is no
handle in it. -/
theorem reported_of_executeQueued [e.Proper] {ev : Evaluand} {envelope : Envelope}
    {fatal : Option FatalSignal} (hrun : executeQueued e h ev.work w = .ok (envelope, fatal) w') :
    fatal = signalOf envelope ∧ ∀ k, envelope ≠ .ok (.handle k) := by
  rw [executeQueued_eq] at hrun
  split at hrun
  · cases hrun
    exact ⟨rfl, nofun⟩
  · next i _ =>
    rw [execute_evaluand, map_eq_pure_bind] at hrun
    split at hrun
    · next hexecute =>
      cases hrun
      obtain ⟨completion, u, -, hpure⟩ := Act.exists_of_bind_ok hexecute
      cases hpure
      refine ⟨(signalOf_envelope completion).symm, fun k => ?_⟩
      cases completion with
      | ok value => exact nofun
      | error end_ =>
        obtain ⟨code, value⟩ := end_
        cases code <;> exact nofun
    · cases hrun
      exact ⟨rfl, nofun⟩
    · cases hrun
      exact ⟨rfl, nofun⟩
    · cases hrun

/-! ### In place and from the mailbox -/

/-- Outside of host closures, work that does not panic is executed in place as it is in the queue, and
then it is counted. -/
theorem executeHere_eq_executeQueued {work : Work}
    (hpanic : ∀ i payload u, w.interpOf? h = some i →
      execute e i work (w.startWork h) ≠ .error (.panic payload) u)
    (hout : ∀ answer u, executeQueued e h work (w.startWork h) = .ok answer u →
      u.inCallback = false) :
    executeHere e h work w =
      match executeQueued e h work (w.startWork h) with
      | .ok (envelope, _) u => .ok envelope (u.finishWork h envelope.failed)
      | .error halt u => .error halt (u.finishWork h true) := by
  have hqueued := executeQueued_eq e h work (w.startWork h)
  rw [executeHere_eq]
  cases hinterp : (w.startWork h).interpOf? h with
  | none =>
    rw [hinterp] at hqueued
    rw [hqueued]
    rfl
  | some i =>
    rw [hinterp] at hqueued
    dsimp only at hqueued ⊢
    cases hrun : execute e i work (w.startWork h) with
    | ok envelope u =>
      rw [hrun] at hqueued
      rw [hqueued]
    | error halt u =>
      rw [hrun] at hqueued
      cases halt with
      | panic payload =>
        rw [interpOf?_startWork] at hinterp
        exact absurd hrun (hpanic i payload u hinterp)
      | unwind signal =>
        have hstill : (u.finishWork h true).inCallback = false := hout _ u hqueued
        dsimp only
        rw [hqueued, hstill]
        rfl
      | stalled => rw [hqueued]

/-- Hand the signal in an envelope on. -/
def handOn (envelope : Envelope) : Act Unit :=
  match signalOf envelope with
  | some signal => Act.raise signal
  | none => return

theorem reply_of_plain (e : Engine) (queued : Queued) {envelope : Envelope}
    (hplain : ∀ k, envelope ≠ .ok (.handle k)) (w : World) :
    reply e queued envelope w = .ok () (w.answerQueued queued envelope) := by
  rw [reply, Act.get_bind, Act.set_bind]
  split
  · next k => exact absurd rfl (hplain k)
  · rfl

/-- Work from the front of a mailbox is executed, counted and answered, and then the handle is let go. -/
theorem serveOne_queueNext (e : Engine) {handle : Handle}
    (hhandle : w.handles.get? h = some handle) (hexists : handle.exists = true)
    (queued : Queued) :
    serveOne e h (w.queueNext h queued) =
      (executeQueued e h queued.work >>= fun answer => do
        modify fun w => w.finishWork h answer.1.failed
        reply e queued answer.1
        release e h
        match answer.2 with
        | some signal => Act.raise signal
        | none => return) ((w.hold h).startWork h) := by
  rw [serveOne, Act.get_bind, takeWork?_queueNext hhandle hexists]
  rfl

/-- Serving work from a mailbox comes down to what its execution left behind: the envelope is the answer,
and once the handle is let go a signal is raised again. If others hold the handle, the interpreters and
the counters are as they were. -/
structure ServedAs (e : Engine) (h : HandleId) (queued : Queued) (envelope : Envelope)
    (w u : World) : Prop where
  run : serveOne e h w =
    (release e h >>= fun _ => handOn envelope) (u.answerQueued queued envelope)
  answered : ∀ r reply, queued.reply = some r → u.replies.get? r = some reply →
    reply.answer = none → (u.answerQueued queued envelope).replies.get? r =
      some { reply with answer := some (envelope, u.clock) }
  kept : ∀ handle, u.handles.get? h = some handle →
    handle.pinned = true ∨ 1 < handle.holders ∨ handle.deleted = true →
      ((serveOne e h).after w).interps = u.interps ∧
        (((serveOne e h).after w).handles.get? h).map (·.mailbox) = some handle.mailbox ∧
        (serveOne e h).signal? w = signalOf envelope

theorem ServedAs.of_run {queued : Queued} {envelope : Envelope} {u : World}
    (hrun : serveOne e h w =
      (release e h >>= fun _ => handOn envelope) (u.answerQueued queued envelope)) :
    ServedAs e h queued envelope w u := by
  refine ⟨hrun, fun r reply => get?_answerQueued, fun handle hhandle hheld => ?_⟩
  have hanswered : (u.answerQueued queued envelope).handles.get? h = some handle := by
    rwa [handles_answerQueued]
  have hinterps : (u.answerQueued queued envelope).interps = u.interps := by
    rw [answerQueued]
    split <;> rfl
  rw [Act.bind_of_ok (release_of_held hanswered hheld)] at hrun
  have hmailbox := get?_modifyHandle_self hanswered fun handle =>
    { handle with holders := handle.holders - 1 }
  rw [handOn] at hrun
  cases hsignal : signalOf envelope with
  | some signal =>
    rw [hsignal] at hrun
    rw [Act.after_of_error hrun, Act.signal?_of_error hrun, hmailbox]
    exact ⟨hinterps, rfl, rfl⟩
  | none =>
    rw [hsignal] at hrun
    rw [Act.after_of_ok hrun, Act.signal?_of_ok hrun, hmailbox]
    exact ⟨hinterps, rfl, rfl⟩

/-- What is executed in place, whoever is asked and whatever is running. -/
theorem call_of_completion [e.Proper] {ev : Evaluand} {i : InterpId} {completion : Completion}
    {u : World} (hlive : w.isDeleted h = false) (howner : w.onOwner h = true)
    (hi : w.interpOf? h = some i) (hrun : e.call (ev.task i) (w.startWork h) = .ok completion u) :
    ev.call e h w =
      .ok (textOf (envelope completion)) (u.finishWork h (envelope completion).failed) := by
  have hexecute : execute e i ev.work (w.startWork h) = .ok (envelope completion) u := by
    rw [execute_evaluand]
    exact Act.map_of_ok hrun _
  have hhere := executeHere_eq e h ev.work w
  rw [interpOf?_startWork, hi] at hhere
  dsimp only at hhere
  rw [hexecute] at hhere
  have hrequest := request_of_onOwner e ev.work howner false
  rw [hlive, if_neg Bool.false_ne_true, Act.map_of_ok hhere] at hrequest
  have hcall : ev.call e h = (do return textOf (productOf (← request e h ev.work false)) : Act _) := by
    cases ev with
    | script source => simp only [Evaluand.call, evaluate, run, bind_assoc, pure_bind, Evaluand.work]
    | command name args =>
      simp only [Evaluand.call, invoke, checkWords, List.isEmpty_cons, Bool.false_eq_true, if_false,
        run, bind_assoc, pure_bind, Evaluand.work]
  rw [hcall, Act.bind_of_ok hrequest]
  rfl

/-- Outside of host closures, an evaluation that does not panic has one end, in place and in the queue. -/
theorem executeHere_of_executeQueued {ev : Evaluand} (hengaged : w.current ∈ w.engaged)
    (hthere : w.isRegistered w.current = true) (hout : w.inCallback = false)
    (hpanic : ∀ i payload u, w.interpOf? h = some i →
      engine.call (ev.task i) (w.startWork h) ≠ .error (.panic payload) u) :
    executeHere engine h ev.work w =
      match executeQueued engine h ev.work (w.startWork h) with
      | .ok (envelope, _) u => .ok envelope (u.finishWork h envelope.failed)
      | .error halt u => .error halt (u.finishWork h true) := by
  refine executeHere_eq_executeQueued (fun i payload u hi hrun => ?_) fun answer u hrun => ?_
  · rw [execute_evaluand, map_eq_pure_bind] at hrun
    cases hcall : engine.call (ev.task i) (w.startWork h) with
    | ok completion u' =>
      rw [Act.bind_of_ok hcall] at hrun
      cases hrun
    | error halt u' =>
      rw [Act.bind_of_error hcall] at hrun
      cases hrun
      exact hpanic i payload _ hi hcall
  · obtain ⟨envelope, fatal⟩ := answer
    have hstart : Carries 0 none w (w.startWork h) := .of_scene_eq rfl
    have hcarries := hstart.trans (carries_executeQueued faithful_engine hengaged hrun)
    exact (hcarries.toKeeps.inCallback_eq (hcarries.own (within_zero_iff.2 hthere))).trans hout

/-- Queued work is cut short only if every thread waits. -/
theorem stalled_of_executeQueued {work : Work} {halt : Halt}
    (hrun : executeQueued e h work w = .error halt w') : halt = .stalled := by
  rw [executeQueued_eq] at hrun
  split at hrun
  · cases hrun
  · split at hrun <;> cases hrun
    rfl

/-- **All routes to an evaluation agree.** Whatever is running in an interpreter, the envelope of a script
or of a command is that of its completion, folded by an outermost evaluation or not. Outside of host
closures, an evaluation that does not panic and that comes to an end has the same envelope and leaves the
same world behind when it is executed in place and when it is served from the mailbox; the served one
answers its caller, lets the handle go and raises again the signal that cut it short. A closure that
evaluates something gets the result in the envelope of the completion as well. -/
theorem routes_agree (ev : Evaluand) (h : HandleId) :
    (∀ i, execute engine i ev.work = envelope <$> engine.call (ev.task i)) ∧
    (∀ (w : World) (handle : Handle), w.handles.get? h = some handle → handle.exists = true →
      w.current ∈ w.engaged → w.isRegistered w.current = true → w.inCallback = false →
      (∀ i payload u, w.interpOf? h = some i →
        engine.call (ev.task i) ((w.hold h).startWork h) ≠ .error (.panic payload) u) →
      ((executeHere engine h ev.work).Stalls (w.hold h) ∧
        ∀ reply, (serveOne engine h).Stalls (w.queueNext h ⟨ev.work, reply⟩)) ∨
      ∃ envelope u, executeHere engine h ev.work (w.hold h) = .ok envelope u ∧
        ∀ reply, ServedAs engine h ⟨ev.work, reply⟩ envelope (w.queueNext h ⟨ev.work, reply⟩) u) ∧
    ∀ (w : World) (i : InterpId) (completion : Completion) (u : World),
      w.isDeleted h = false → w.onOwner h = true → w.interpOf? h = some i →
      engine.call (ev.task i) (w.startWork h) = .ok completion u →
      ev.call engine h w =
        .ok (textOf (envelope completion)) (u.finishWork h (envelope completion).failed) := by
  refine ⟨fun i => execute_evaluand i ev, ?_, fun w i completion u => call_of_completion⟩
  intro w handle hhandle hexists hengaged hthere hout hpanic
  have hinterp : (w.hold h).interpOf? h = w.interpOf? h := by
    refine interpOf?_modifyHandle (fun handle => ?_) w h h
    rfl
  have hhere : executeHere engine h ev.work (w.hold h) = _ :=
    executeHere_of_executeQueued hengaged hthere hout fun i payload u hi =>
      hpanic i payload u (hinterp ▸ hi)
  have hserve (reply : Option ReplyId) :=
    serveOne_queueNext engine hhandle hexists ⟨ev.work, reply⟩
  cases hqueued : executeQueued engine h ev.work ((w.hold h).startWork h) with
  | error halt u =>
    obtain rfl := stalled_of_executeQueued hqueued
    rw [hqueued] at hhere
    refine .inl ⟨⟨_, hhere⟩, fun reply => ⟨u, ?_⟩⟩
    rw [hserve reply, Act.bind_of_error hqueued]
  | ok answer u =>
    obtain ⟨envelope, fatal⟩ := answer
    obtain ⟨rfl, hplain⟩ := reported_of_executeQueued hqueued
    rw [hqueued] at hhere
    refine .inr ⟨envelope, _, hhere, fun reply => .of_run ?_⟩
    rw [hserve reply, Act.bind_of_ok hqueued, Act.modify_bind]
    exact Act.bind_of_ok (reply_of_plain engine ⟨ev.work, reply⟩ hplain _) _

/-- The world of a closure that is called by a command. -/
def reentrant : World :=
  (exiting.modifyInterp 0 fun r => { r with depth := 1 }).enterCallback

theorem routes_agree_exiting :
    (∃ u, executeHere engine 1 (.eval exitScript) (exiting.hold 1) =
        .ok (.error (.fatal (.exit 3))) u ∧
      ∀ reply, ServedAs engine 1 ⟨.eval exitScript, reply⟩ (.error (.fatal (.exit 3)))
        (exiting.queueNext 1 ⟨.eval exitScript, reply⟩) u) ∧
    ∃ u, evaluate engine 1 "return 5" reentrant = .ok (.ok "5") u := by
  constructor
  · have hvalue : (executeHere engine 1 (.eval exitScript)).value? (exiting.hold 1) =
        some (.error (.fatal (.exit 3))) := by decide +kernel
    have hsignal : (engine.call (.script 0 exitScript)).signal? ((exiting.hold 1).startWork 1) =
        some (.exit 3) := by decide +kernel
    have hrun := Act.eq_ok_of_value? hvalue
    have hpanic (i : InterpId) (payload : PanicPayload) (u : World)
        (hi : exiting.interpOf? 1 = some i) :
        engine.call (.script i exitScript) ((exiting.hold 1).startWork 1) ≠
          .error (.panic payload) u := by
      obtain rfl : 0 = i := Option.some.inj hi
      rw [Act.eq_error_of_signal? hsignal]
      exact nofun
    obtain ⟨handle, hhandle, hexists⟩ :
        ∃ handle, exiting.handles.get? 1 = some handle ∧ handle.exists = true := ⟨_, rfl, rfl⟩
    rcases (routes_agree (.script exitScript) 1).2.1 exiting handle hhandle hexists (by decide) rfl
      rfl hpanic with ⟨⟨u, hstalled⟩, -⟩ | ⟨envelope, u, hhere, hserved⟩
    · cases hrun.symm.trans hstalled
    · cases hrun.symm.trans hhere
      exact ⟨_, hhere, hserved⟩
  · have hvalue : (engine.call (.script 0 "return 5")).value? (reentrant.startWork 1) =
        some (.error ⟨.returning, "5"⟩) := by decide +kernel
    exact ⟨_, (routes_agree (.script "return 5") 1).2.2 reentrant 0 _ _ rfl rfl rfl
      (Act.eq_ok_of_value? hvalue)⟩

end Handle

end ScriptHost
