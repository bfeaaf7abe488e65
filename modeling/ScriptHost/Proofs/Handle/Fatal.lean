import ScriptHost.Proofs.Run.Action
import ScriptHost.Proofs.World.Handles

/-!
# Fatal signals on their way to a caller

A fatal signal that is raised while work is executed changes its shape on the way: the unwinding is
caught, becomes an error, travels in an envelope and is raised again inside host closures. This
module follows it from the execution to each of the ways in which work can be handed over. It comes
out everywhere but in one place: work that is handed over on the owning thread without waiting is
executed in place, and outside of host closures its envelope is thrown away with the signal in it.
-/

namespace ScriptHost

variable {e : Engine} {h : HandleId} {f : FatalSignal} {w w' : World} {i : InterpId}

namespace Act

variable {α β : Type}

/-- The signal with which an action unwinds. -/
def signal? (act : Act α) (w : World) : Option FatalSignal :=
  match act w with
  | .error (.unwind f) _ => some f
  | _ => none

/-- What an action answers. -/
def value? (act : Act α) (w : World) : Option α :=
  match act w with
  | .ok a _ => some a
  | .error _ _ => none

/-- The signal that an action makes visible: it unwinds with the signal or answers it. -/
def shown? (act : Act (Option FatalSignal)) (w : World) : Option FatalSignal :=
  match act w with
  | .ok answer _ => answer
  | .error (.unwind f) _ => some f
  | .error _ _ => none

theorem eq_error_of_signal? {act : Act α} (hf : act.signal? w = some f) :
    act w = .error (.unwind f) (act.after w) := by
  rw [signal?] at hf
  rw [after]
  split at hf
  · next g w' hact =>
    cases hf
    rw [hact]
  · cases hf

theorem eq_ok_of_value? {act : Act α} {a : α} (ha : act.value? w = some a) :
    act w = .ok a (act.after w) := by
  rw [value?] at ha
  rw [after]
  split at ha
  · next a' w' hact =>
    cases ha
    rw [hact]
  · cases ha

section

variable {act : Act α} {g : α → Act (Option FatalSignal)}

theorem shown?_bind_of_ok {a : α} (hact : act w = .ok a w') :
    (act >>= g).shown? w = (g a).shown? w' := by
  unfold shown?
  rw [bind_of_ok hact]

theorem shown?_bind_of_unwind (hact : act w = .error (.unwind f) w') :
    (act >>= g).shown? w = some f := by
  rw [shown?, bind_of_error hact]

end

end Act

namespace Handle

/-! ### Executing in place -/

/-- What the execution in place tells about a signal that cut the work short. -/
theorem executeHere_of_signal? {work : Work} (hi : w.interpOf? h = some i)
    (hf : (execute e i work).signal? (w.startWork h) = some f) :
    executeHere e h work w =
      let w' := ((execute e i work).after (w.startWork h)).finishWork h true
      if w'.inCallback then .error (.unwind f) w' else .ok (.error (.fatal f)) w' := by
  rw [executeHere, Act.modify_bind, Act.get_bind, World.interpOf?_startWork, hi]
  dsimp only
  rw [Act.bind_of_ok (Act.attempt_of_error (Act.eq_error_of_signal? hf))]
  dsimp only
  rw [Act.modify_bind, Act.get_bind]
  split <;> rfl

/-- Whoever executes work in place lets the signal through inside host closures and has an envelope
with it elsewhere. -/
theorem executeHere_bind_of_signal? {α : Type} {work : Work} (hi : w.interpOf? h = some i)
    (hf : (execute e i work).signal? (w.startWork h) = some f) (answer : Envelope → α) :
    (executeHere e h work >>= fun envelope => pure (answer envelope)) w =
      let w' := ((execute e i work).after (w.startWork h)).finishWork h true
      if w'.inCallback then .error (.unwind f) w' else .ok (answer (.error (.fatal f))) w' := by
  have hhere := executeHere_of_signal? hi hf
  dsimp only at hhere
  split at hhere
  · next hcallback =>
    rw [if_pos hcallback]
    exact Act.bind_of_error hhere _
  · next hcallback =>
    rw [if_neg hcallback]
    exact Act.bind_of_ok hhere _

section

variable {work : Work} (hlive : w.isDeleted h = false) (howner : w.onOwner h = true)
  (hi : w.interpOf? h = some i)
  (hf : (execute e i work).signal? (w.startWork h) = some f)

include hlive howner hi hf

theorem enqueue_of_signal? (wait : Bool) :
    enqueue e h work wait w =
      let w' := ((execute e i work).after (w.startWork h)).finishWork h true
      if w'.inCallback then .error (.unwind f) w'
      else .ok (.ok (if wait then some (.error (.fatal f)) else none)) w' := by
  rw [enqueue, Act.get_bind, hlive, howner]
  exact executeHere_bind_of_signal? hi hf fun envelope =>
    (.ok (if wait then some envelope else none) : Except HostError (Option Envelope))

theorem enqueueAsync_of_signal? :
    enqueueAsync e h work w =
      let w' := ((execute e i work).after (w.startWork h)).finishWork h true
      if w'.inCallback then .error (.unwind f) w' else .ok (.ok (.error (.fatal f))) w' := by
  rw [enqueueAsync, Act.get_bind, hlive, howner]
  exact executeHere_bind_of_signal? hi hf (Except.ok : Envelope → Except HostError Envelope)

end

/-! ### The ways to hand work over -/

/-- The ways to hand work over. -/
inductive Route
  | evaluate (script : String)
  | evaluateOutcome (script : String)
  | invoke (name : String) (args : List String)
  | callOnOwner (job : Job)
  | enqueue (work : Work) (wait : Bool)
  | enqueueAsync (work : Work)
  | queueForMain (job : Job)

namespace Route

/-- The work that is handed over. -/
def work : Route → Work
  | evaluate script => .eval script
  | evaluateOutcome script => .job (.evalOutcome script)
  | invoke name args => .invoke (name :: args)
  | callOnOwner job => .job job
  | enqueue work _ => work
  | enqueueAsync work => work
  | queueForMain job => .job job

/-- Whether the caller gets the envelope. -/
def waits : Route → Bool
  | evaluate _ => true
  | evaluateOutcome _ => true
  | invoke _ _ => true
  | callOnOwner _ => true
  | enqueue _ wait => wait
  | enqueueAsync _ => true
  | queueForMain _ => false

/-- The signal of a failed call. -/
def signalOf {α : Type} : Except HostError α → Option FatalSignal
  | .error (.fatal f) => some f
  | _ => none

/-- The signal of a failed call or of the envelope that it answers. -/
def carried : Except HostError (Option Envelope) → Option FatalSignal
  | .error (.fatal f) => some f
  | .ok (some envelope) => signalOf envelope
  | _ => none

/-- Hand work over and answer the signal that the caller is told of. -/
def call (e : Engine) (h : HandleId) : Route → Act (Option FatalSignal)
  | evaluate script => do return signalOf (← Handle.evaluate e h script)
  | evaluateOutcome script => do return signalOf (← Handle.evaluateOutcome e h script)
  | invoke name args => do return signalOf (← Handle.invoke e h (name :: args))
  | callOnOwner job => do return signalOf (← Handle.run e h (.job job))
  | enqueue work wait => do return carried (← Handle.enqueue e h work wait)
  | enqueueAsync work => do
    match ← Handle.enqueueAsync e h work with
    | .ok envelope => return signalOf envelope
    | .error error => return signalOf (.error error : Except HostError Envelope)
  | queueForMain job => do return carried (← Handle.enqueue e h (.job job) false)

theorem signalOf_error {α β : Type} (error : HostError) :
    signalOf (.error error : Except HostError α) = signalOf (.error error : Except HostError β) := by
  cases error <;> rfl

theorem signalOf_textOf (result : Except HostError Product) :
    signalOf (textOf result) = signalOf result := by
  cases result with
  | error error => exact signalOf_error error
  | ok product => rfl

theorem signalOf_outcomeOf (result : Except HostError Product) :
    signalOf (outcomeOf result) = signalOf result := by
  cases result with
  | error error => exact signalOf_error error
  | ok product => cases product <;> rfl

/-- A call that waits tells what its hand-over tells. -/
theorem run_bind_signalOf (e : Engine) (h : HandleId) (work : Work) :
    (do return signalOf (← run e h work) : Act _) =
      do return carried (← Handle.enqueue e h work true) := by
  rw [run, request]
  simp only [bind_assoc, pure_bind, Bool.false_eq_true, if_false]
  refine bind_congr fun result => ?_
  cases result with
  | error error => cases error <;> rfl
  | ok envelope => cases envelope <;> rfl

/-- Every route but that of a caller that awaits comes down to one and the same hand-over. -/
theorem call_eq_enqueue (e : Engine) (h : HandleId) (route : Route)
    (hroute : ∀ work, route ≠ .enqueueAsync work) :
    route.call e h = do return carried (← Handle.enqueue e h route.work route.waits) := by
  cases route with
  | evaluate script =>
    refine Eq.trans ?_ (run_bind_signalOf e h _)
    simp only [call, Route.work, Handle.evaluate, bind_assoc, pure_bind, signalOf_textOf]
  | evaluateOutcome script =>
    refine Eq.trans ?_ (run_bind_signalOf e h _)
    simp only [call, Route.work, Handle.evaluateOutcome, bind_assoc, pure_bind, signalOf_outcomeOf]
  | invoke name args =>
    refine Eq.trans ?_ (run_bind_signalOf e h _)
    simp only [call, Route.work, Handle.invoke, checkWords, List.isEmpty_cons, Bool.false_eq_true,
      if_false, bind_assoc, pure_bind, signalOf_textOf]
  | callOnOwner job => exact run_bind_signalOf e h (.job job)
  | enqueue work wait => rfl
  | enqueueAsync work => exact absurd rfl (hroute work)
  | queueForMain job => rfl

end Route

/-! ### On the owning thread -/

/-- On the owning thread a caller is told a signal that cuts its work short, unless it does not wait
and no host closure is running. -/
theorem shown?_call_of_onOwner (route : Route) (hlive : w.isDeleted h = false)
    (howner : w.onOwner h = true) (hi : w.interpOf? h = some i)
    (hf : (execute e i route.work).signal? (w.startWork h) = some f) :
    (route.call e h).shown? w =
      let w' := ((execute e i route.work).after (w.startWork h)).finishWork h true
      if route.waits || w'.inCallback then some f else none := by
  by_cases hroute : ∀ work, route ≠ .enqueueAsync work
  · rw [route.call_eq_enqueue e h hroute]
    have hcall := enqueue_of_signal? hlive howner hi hf route.waits
    dsimp only at hcall ⊢
    split at hcall
    · next hcallback =>
      rw [Act.shown?_bind_of_unwind hcall, hcallback, Bool.or_true, if_pos rfl]
    · next hcallback =>
      rw [Act.shown?_bind_of_ok hcall, eq_false_of_ne_true hcallback, Bool.or_false]
      cases route.waits <;> rfl
  · push Not at hroute
    obtain ⟨work, rfl⟩ := hroute
    have hcall := enqueueAsync_of_signal? hlive howner hi hf
    dsimp only at hcall ⊢
    rw [Route.waits, Bool.true_or, if_pos rfl]
    split at hcall
    · exact Act.shown?_bind_of_unwind hcall
    · exact Act.shown?_bind_of_ok hcall

/-! ### Elsewhere -/

/-- The world after a signal cut queued work short. -/
def settleFatal (w : World) (h : HandleId) (queued : Queued) (f : FatalSignal) : World :=
  (w.finishWork h true).answerQueued queued (.error (.fatal f))

theorem executeQueued_of_signal? {work : Work} (hi : w.interpOf? h = some i)
    (hf : (execute e i work).signal? w = some f) :
    executeQueued e h work w = .ok (.error (.fatal f), some f) ((execute e i work).after w) := by
  rw [executeQueued, Act.get_bind, hi]
  dsimp only
  rw [Act.bind_of_ok (Act.attempt_of_error (Act.eq_error_of_signal? hf))]
  rfl

/-- A signal that cuts queued work short is answered, and it goes on unwinding on the owning thread
once the handle is let go. -/
theorem serveOne_of_signal? {queued : Queued} (htake : w.takeWork? h = some (queued, w'))
    (hi : w'.interpOf? h = some i) (hf : (execute e i queued.work).signal? w' = some f) :
    serveOne e h w =
      (release e h >>= fun _ => Act.raise f)
        (settleFatal ((execute e i queued.work).after w') h queued f) := by
  rw [serveOne, Act.get_bind, htake]
  dsimp only
  rw [Act.set_bind, Act.bind_of_ok (executeQueued_of_signal? hi hf)]
  rfl

/-- Letting a handle go that somebody else holds, or that is deleted, does nothing more. -/
theorem release_of_held {handle : Handle} (hh : w.handles.get? h = some handle)
    (hheld : handle.pinned = true ∨ 1 < handle.holders ∨ handle.deleted = true) :
    release e h w =
      .ok () (w.modifyHandle h fun handle => { handle with holders := handle.holders - 1 }) := by
  have hkept : (Handle.exists { handle with holders := handle.holders - 1 } || handle.deleted) =
      true := by
    rcases hheld with hpinned | hholders | hdeleted
    · simp [Handle.exists, hpinned]
    · have hleft : 0 < handle.holders - 1 := by omega
      simp [Handle.exists, hleft]
    · simp [hdeleted]
  rw [release, Act.modify_bind, Act.get_bind, World.unhold, World.get?_modifyHandle_self hh]
  dsimp only
  rw [if_pos hkept]
  rfl

/-- While the handle is held, the owning thread goes on unwinding with the signal. -/
theorem signal?_serveOne_of_held {queued : Queued} {handle : Handle}
    (htake : w.takeWork? h = some (queued, w')) (hi : w'.interpOf? h = some i)
    (hf : (execute e i queued.work).signal? w' = some f)
    (hh : ((execute e i queued.work).after w').handles.get? h = some handle)
    (hheld : handle.pinned = true ∨ 1 < handle.holders ∨ handle.deleted = true) :
    (serveOne e h).signal? w = some f := by
  have hsettled : (settleFatal ((execute e i queued.work).after w') h queued f).handles.get? h =
      some { handle with mailbox := handle.mailbox.finish true } := by
    rw [settleFatal, World.handles_answerQueued]
    exact World.get?_modifyHandle_self hh _
  rw [Act.signal?, serveOne_of_signal? htake hi hf,
    Act.bind_of_ok (release_of_held hsettled hheld)]
  rfl

/-- A signal that cuts work short that outlived its handle goes on unwinding at once. -/
theorem signal?_serveDetached {queued : Queued} (rest : List Queued) (hi : w.interpOf? h = some i)
    (hf : (execute e i queued.work).signal? w = some f) :
    (serveDetached e h (queued :: rest)).signal? w = some f := by
  rw [Act.signal?, serveDetached, Act.bind_of_ok (executeQueued_of_signal? hi hf)]
  rfl

/-- The answer to a caller whose reply is open holds the signal. -/
theorem get?_settleFatal {queued : Queued} {r : ReplyId} {reply : Reply}
    (hqueued : queued.reply = some r) (hreply : w.replies.get? r = some reply)
    (hopen : reply.answer = none) :
    (settleFatal w h queued f).replies.get? r =
      some { reply with answer := some (.error (.fatal f), w.clock) } := by
  exact World.get?_answerQueued hqueued hreply hopen

/-- A caller that waits is told the signal of an answer in time. -/
theorem awaitReply_of_answer {r : ReplyId} {reply : Reply} {t : Time}
    (hwait : waitUntil e (fun u => (replyState u h r (w.waitDeadline h)).isSome)
      (·.isHopeless (w.ownerOf h)) (w.waitDeadline h) w = .ok () w')
    (hreply : w'.replies.get? r = some reply)
    (hanswer : reply.answer = some (.error (.fatal f), t))
    (htime : (w.waitDeadline h).any (· ≤ t) = false) :
    awaitReply e h r w = .ok (.ok (.error (.fatal f))) w' := by
  rw [awaitReply, Act.get_bind, Act.bind_of_ok hwait]
  unfold settleReply replyState
  rw [Act.get_bind, hreply]
  dsimp only
  rw [hanswer]
  dsimp only
  rw [htime]
  rfl

section

variable {r : ReplyId} {work : Work} {w₁ w₂ : World} (hlive : w.isDeleted h = false)
  (howner : w.onOwner h = false) (hsubmit : submitForReply h work w = .ok (.ok r) w₁)
  (hreply : awaitReply e h r w₁ = .ok (.ok (.error (.fatal f))) w₂)

include hlive howner hsubmit hreply

theorem enqueue_of_awaitReply :
    enqueue e h work true w =
      if w₂.inCallback then .error (.unwind f) (w₂.record (.raised f))
      else .ok (.ok (some (.error (.fatal f)))) w₂ := by
  rw [enqueue, Act.get_bind, hlive, howner]
  simp only [Bool.false_eq_true, if_false, if_true]
  rw [Act.bind_of_ok hsubmit]
  have hsubmitted : escalate (.ok r) w₁ = .ok (.ok r) w₁ := rfl
  rw [Act.bind_of_ok hsubmitted]
  dsimp only
  rw [Act.bind_of_ok hreply]
  have hescalate : escalate (.ok (.error (.fatal f)) : Except HostError Envelope) w₂ =
    .ok (.ok (.error (.fatal f))) w₂ := rfl
  rw [Act.bind_of_ok hescalate]
  dsimp only
  rw [Act.get_bind]
  split <;> rfl

theorem enqueueAsync_of_awaitReply :
    enqueueAsync e h work w = .ok (.ok (.error (.fatal f))) w₂ := by
  rw [enqueueAsync, Act.get_bind, hlive, howner]
  simp only [Bool.false_eq_true, if_false]
  rw [Act.bind_of_ok hsubmit]
  exact hreply

end

/-- A caller on another thread that waits is told the signal that it gets for an answer. -/
theorem shown?_call_of_awaitReply (route : Route) {r : ReplyId} {w₁ w₂ : World}
    (hwaits : route.waits = true) (hlive : w.isDeleted h = false) (howner : w.onOwner h = false)
    (hsubmit : submitForReply h route.work w = .ok (.ok r) w₁)
    (hreply : awaitReply e h r w₁ = .ok (.ok (.error (.fatal f))) w₂) :
    (route.call e h).shown? w = some f := by
  by_cases hroute : ∀ work, route ≠ .enqueueAsync work
  · rw [route.call_eq_enqueue e h hroute, hwaits]
    have hcall := enqueue_of_awaitReply hlive howner hsubmit hreply
    split at hcall
    · exact Act.shown?_bind_of_unwind hcall
    · exact Act.shown?_bind_of_ok hcall
  · push Not at hroute
    obtain ⟨work, rfl⟩ := hroute
    exact Act.shown?_bind_of_ok (enqueueAsync_of_awaitReply hlive howner hsubmit hreply)

/-! ### Every way to hand work over -/

/-- **Where a fatal signal that cuts work of a handle short comes out.**

A caller on the owning thread is told the signal, by an error, in its envelope or by unwinding, if
and only if it waits or a host closure is running. Work from elsewhere is served on the owning
thread: there the signal is answered to the caller and goes on unwinding, for work that outlived
its handle at once and else when the handle has been let go, which does nothing more as long as
somebody else holds it. A caller elsewhere that waits and gets its answer in time is told the
signal. -/
theorem fatal_shown_iff (e : Engine) (h : HandleId) (f : FatalSignal) :
    -- work that is handed over on the owning thread
    (∀ (route : Route) (w : World) (i : InterpId),
      w.isDeleted h = false → w.onOwner h = true → w.interpOf? h = some i →
      (execute e i route.work).signal? (w.startWork h) = some f →
      ((route.call e h).shown? w = some f ↔
        route.waits = true ∨
          (((execute e i route.work).after (w.startWork h)).finishWork h true).inCallback = true)) ∧
    -- work that is taken out of the mailbox
    (∀ (queued : Queued) (w w' : World) (i : InterpId),
      w.takeWork? h = some (queued, w') → w'.interpOf? h = some i →
      (execute e i queued.work).signal? w' = some f →
      let done := (execute e i queued.work).after w'
      serveOne e h w = (release e h >>= fun _ => Act.raise f) (settleFatal done h queued f) ∧
      (∀ handle, done.handles.get? h = some handle →
        handle.pinned = true ∨ 1 < handle.holders ∨ handle.deleted = true →
        (serveOne e h).signal? w = some f) ∧
      ∀ r reply, queued.reply = some r → done.replies.get? r = some reply → reply.answer = none →
        (settleFatal done h queued f).replies.get? r =
          some { reply with answer := some (.error (.fatal f), done.clock) }) ∧
    -- work that outlived its handle
    (∀ (queued : Queued) (rest : List Queued) (w : World) (i : InterpId),
      w.interpOf? h = some i → (execute e i queued.work).signal? w = some f →
      (serveDetached e h (queued :: rest)).signal? w = some f) ∧
    -- a caller that waits on another thread
    (∀ (route : Route) (w w₁ w₂ : World) (r : ReplyId) (reply : Reply) (t : Time),
      route.waits = true → w.isDeleted h = false → w.onOwner h = false →
      submitForReply h route.work w = .ok (.ok r) w₁ →
      waitUntil e (fun u => (replyState u h r (w₁.waitDeadline h)).isSome)
        (·.isHopeless (w₁.ownerOf h)) (w₁.waitDeadline h) w₁ = .ok () w₂ →
      w₂.replies.get? r = some reply → reply.answer = some (.error (.fatal f), t) →
      (w₁.waitDeadline h).any (· ≤ t) = false →
      (route.call e h).shown? w = some f) := by
  refine ⟨?_, ?_, ?_, ?_⟩
  · intro route w i hlive howner hi hf
    rw [shown?_call_of_onOwner route hlive howner hi hf]
    dsimp only
    rw [← Bool.or_eq_true]
    split <;> simp [*]
  · intro queued w w' i htake hi hf
    exact ⟨serveOne_of_signal? htake hi hf, fun handle => signal?_serveOne_of_held htake hi hf,
      fun r reply => get?_settleFatal⟩
  · intro queued rest w i hi hf
    exact signal?_serveDetached rest hi hf
  · intro route w w₁ w₂ r reply t hwaits hlive howner hsubmit hwait hreply hanswer htime
    have hawait := awaitReply_of_answer hwait hreply hanswer htime
    exact shown?_call_of_awaitReply route hwaits hlive howner hsubmit hawait

/-! ### A closure that ends the process -/

/-- A world with the handle of one interpreter, for which a closure is registered that raises a
signal. -/
def exiting : World :=
  (((({} : World).newInterp "" false none).2.adopt 0 {}).2.hold 1).modifyHandle 1 fun handle =>
    { handle with callbacks := (handle.callbacks.register (.outcome (.fatal (.exit 3)))).2 }

/-- The same world as another thread sees it while the owning thread serves its events. -/
def exitingElsewhere : World :=
  { exiting.newThread.2.modifyThread 0 fun thread => { thread with role := .serving [] } with
    current := 1, engaged := [1] }

/-- A script that runs the closure. -/
def exitScript : String := "host_callback cb1"

/-- The script waits in the mailbox for a caller elsewhere. -/
def exitingQueued : World := (submitForReply 1 (.eval exitScript)).after exitingElsewhere

/-- The owning thread has taken the script out of the mailbox. -/
def exitingTaken : World :=
  (exitingQueued.modifyHandle 1 fun handle =>
    { handle with mailbox := { handle.mailbox with queue := [] } }).hold 1

/-- The caller elsewhere has waited for its answer. -/
def exitingAnswered : World :=
  (waitUntil engine (fun u => (replyState u 1 0 (exitingQueued.waitDeadline 1)).isSome)
    (·.isHopeless (exitingQueued.ownerOf 1)) (exitingQueued.waitDeadline 1)).after exitingQueued

theorem fatal_shown_exit :
    ((Route.evaluate exitScript).call engine 1).shown? exiting = some (.exit 3) ∧
    ((Route.evaluate exitScript).call engine 1).shown? exitingElsewhere = some (.exit 3) ∧
    (serveDetached engine 1 [⟨.eval exitScript, none⟩]).signal? exiting = some (.exit 3) ∧
    (serveOne engine 1).signal? exitingQueued = some (.exit 3) := by
  obtain ⟨hhere, hqueued, houtlived, helsewhere⟩ := fatal_shown_iff engine 1 (.exit 3)
  refine ⟨?_, ?_, ?_, ?_⟩
  · exact (hhere (.evaluate exitScript) exiting 0 rfl rfl rfl (by decide +kernel)).2 (.inl rfl)
  · refine helsewhere (.evaluate exitScript) exitingElsewhere exitingQueued exitingAnswered 0
      ((exitingAnswered.replies.get? 0).getD {}) 1 rfl rfl rfl ?_ ?_ ?_ ?_ ?_
    · exact Act.eq_ok_of_value? (by decide +kernel)
    · exact Act.eq_ok_of_value? (by decide +kernel)
    · have hreply : (exitingAnswered.replies.get? 0).isSome = true := by decide +kernel
      rw [Option.getD_of_ne_none (Option.isSome_iff_ne_none.mp hreply)]
    · decide +kernel
    · decide +kernel
  · exact houtlived ⟨.eval exitScript, none⟩ [] exiting 0 rfl (by decide +kernel)
  · obtain ⟨-, hheld, -⟩ := hqueued _ exitingQueued _ 0 rfl rfl (by decide +kernel)
    have hholders : ((((execute engine 0 (.eval exitScript)).after
        exitingTaken).handles.get? 1).map (·.holders)) = some 2 := by decide +kernel
    obtain ⟨handle, hhandle, hcount⟩ := Option.map_eq_some_iff.mp hholders
    exact hheld handle hhandle (.inr (.inl (by rw [hcount]; decide)))

/-- Work that is handed over on the owning thread without waiting ends with a success although a
signal cut it short. -/
theorem enqueue_hides_exit :
    exiting.isDeleted 1 = false ∧ exiting.onOwner 1 = true ∧ exiting.interpOf? 1 = some 0 ∧
    (execute engine 0 (.eval exitScript)).signal? (exiting.startWork 1) = some (.exit 3) ∧
    (enqueue engine 1 (.eval exitScript) false).value? exiting = some (.ok none) := by
  decide +kernel

end Handle

end ScriptHost
