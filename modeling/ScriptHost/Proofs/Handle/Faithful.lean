import ScriptHost.Proofs.Run.Faithful
import ScriptHost.Proofs.Run.Engine

/-!
# Calls on handles, closures and events hand signals on

Queued work whose execution raises a fatal signal is answered, and the handle that was held for it is let
go before the signal is raised again. Only if that was the last holder does anything happen on the
way. On other threads a signal ends what the thread does by itself, and that is of no concern to the
thread that waits.
-/

namespace ScriptHost

open World

variable {α β : Type} {e : Engine} {i : InterpId} {h : HandleId} {w w' : World} {n : Nat}
  {signal : FatalSignal}

/-! ### Letting go on the way -/

namespace World

/-- The last holder of a handle goes, whatever else is done. -/
structure LetsGo (w w' : World) : Prop extends Keeps w w' where
  own : w.Within 0 → w'.callbacksOf w.current = w.callbacksOf w.current
  gone : ∃ h, ⟨w.current, .letGo h⟩ ∈ news w w'

variable {u : World} {sig : Option FatalSignal}

theorem LetsGo.carries (h : LetsGo w w') : Carries n sig w w' :=
  ⟨h.toKeeps, fun hn => h.own (hn.mono (Nat.zero_le n)), fun _ => .inl h.gone⟩

theorem LetsGo.of_carries (h : Carries 0 sig w w') (hgone : ∃ h, ⟨w.current, .letGo h⟩ ∈ news w w') :
    LetsGo w w' :=
  ⟨h.toKeeps, h.own, hgone⟩

theorem LetsGo.of_scene_eq_left (hscene : u.scene = w.scene) (h : LetsGo u w') : LetsGo w w' := by
  have hfirst : Carries 0 none w u := .of_scene_eq hscene
  have hrest : Carries 0 none u w' := h.carries
  obtain ⟨k, hk⟩ := h.gone
  refine .of_carries (hfirst.trans hrest) ⟨k, ?_⟩
  rw [news_trans hfirst.grows h.grows]
  rw [hfirst.current] at hk
  exact List.mem_append_left _ hk

theorem LetsGo.trans_carries (h : LetsGo w u) (h' : Carries 0 sig u w') : LetsGo w w' := by
  obtain ⟨k, hk⟩ := h.gone
  refine .of_carries (h.carries.trans h') ⟨k, ?_⟩
  rw [news_trans h.grows h'.grows]
  exact List.mem_append_right _ hk

theorem Carries.trans_letsGo {sig' : Option FatalSignal} (h : Carries n sig w u) (h' : LetsGo u w') :
    Carries n sig' w w' := by
  refine ⟨h.toKeeps.trans h'.toKeeps, fun hn => ?_, fun _ => .inl ?_⟩
  · have hown := h'.own ((hn.keeps h.toKeeps (h.own hn)).mono (Nat.zero_le n))
    rw [h.current] at hown
    exact hown.trans (h.own hn)
  · obtain ⟨k, hk⟩ := h'.gone
    rw [h.current] at hk
    rw [news_trans h.grows h'.grows]
    exact ⟨k, List.mem_append_left _ hk⟩

end World

namespace Act

variable {act : Act α} {f : α → Act β}

/-- An action comes to its end and does nothing that shows, or it lets the last holder of a handle
go. -/
def Parts (act : Act α) (w : World) : Prop :=
  w.current ∈ w.engaged →
    (∃ a w', act w = .ok a w' ∧ w'.scene = w.scene) ∨ LetsGo w (act.after w)

/-- An action does nothing that shows and then goes on unwinding, or it lets the last holder of a handle
go. -/
def HandsOn (signal : FatalSignal) (act : Act α) (w : World) : Prop :=
  w.current ∈ w.engaged →
    ((act.after w).scene = w.scene ∧ act.signal? w = some signal) ∨ LetsGo w (act.after w)

theorem Parts.faithful (h : act.Parts w) : act.Faithful n w := by
  intro hw
  rcases h hw with ⟨a, w', hrun, hscene⟩ | hgone
  · rw [after_of_ok hrun]
    exact .of_scene_eq hscene
  · exact hgone.carries

theorem Parts.of_modify {g : World → World} (h : (g w).scene = w.scene) :
    (modify g : Act PUnit).Parts w :=
  fun _ => .inl ⟨(), g w, rfl, h⟩

/-- An action that first takes a step that does not show. -/
theorem Parts.of_eq {act' : Act α} {u : World} (hrun : act w = act' u) (hscene : u.scene = w.scene)
    (h : act'.Parts u) : act.Parts w := by
  intro hw
  have hfirst : Carries 0 none w u := .of_scene_eq hscene
  rw [after, hrun, ← after]
  rcases h (by rwa [hfirst.current, hfirst.engaged]) with ⟨a, w', hend, hscene'⟩ | hgone
  · exact .inl ⟨a, w', hend, hscene'.trans hscene⟩
  · exact .inr (hgone.of_scene_eq_left hscene)

theorem Parts.pure (a : α) (w : World) : (pure a : Act α).Parts w :=
  fun _ => .inl ⟨a, w, rfl, rfl⟩

theorem HandsOn.raise (signal : FatalSignal) (w : World) :
    (Act.raise signal : Act α).HandsOn signal w :=
  fun _ => .inl ⟨rfl, rfl⟩

theorem HandsOn.faithful (h : act.HandsOn signal w) : act.Faithful n w := by
  intro hw
  rcases h hw with ⟨hscene, -⟩ | hgone
  · exact .of_scene_eq hscene
  · exact hgone.carries

/-- After code that raised a signal comes what hands it on. -/
theorem HandsOn.carries {u : World} (hfirst : Carries n (some signal) u w)
    (h : act.HandsOn signal w) (hu : u.current ∈ u.engaged) :
    Carries n (act.signal? w) u (act.after w) := by
  rcases h (by rwa [hfirst.current, hfirst.engaged]) with ⟨hscene, hsignal⟩ | hgone
  · rw [hsignal]
    exact hfirst.of_scene_eq_right hscene
  · exact hfirst.trans_letsGo hgone

theorem HandsOn.bind (hact : act.Parts w)
    (hf : ∀ a w', act w = .ok a w' → (f a).HandsOn signal w') : (act >>= f).HandsOn signal w := by
  intro hw
  have hcarries := hact.faithful (n := 0) hw
  have hafter {a : α} {u : World} (hrun : act w = .ok a u) :
      (act >>= f).after w = (f a).after u := by
    rw [after, bind_of_ok hrun, after]
  have hnext {a : α} {u : World} (hrun : act w = .ok a u) :
      ((f a).after u).scene = u.scene ∧ (f a).signal? u = some signal ∨ LetsGo u ((f a).after u) := by
    rw [after_of_ok hrun] at hcarries
    exact hf a u hrun (by rwa [hcarries.current, hcarries.engaged])
  rcases hact hw with ⟨a, u, hrun, hscene⟩ | hgone
  · rw [hafter hrun, signal?, bind_of_ok hrun, ← signal?]
    rcases hnext hrun with ⟨hscene', hsignal⟩ | hgone
    · exact .inl ⟨hscene'.trans hscene, hsignal⟩
    · exact .inr (hgone.of_scene_eq_left hscene)
  · right
    cases hrun : act w with
    | ok a u =>
      rw [after_of_ok hrun] at hgone
      rw [hafter hrun]
      have hrest : Carries 0 none u ((f a).after u) := by
        rcases hnext hrun with ⟨hscene', -⟩ | hgone'
        · exact .of_scene_eq hscene'
        · exact hgone'.carries
      exact hgone.trans_carries hrest
    | error halt u =>
      rw [after_of_error hrun] at hgone
      rwa [after_of_error (bind_of_error hrun f)]

end Act

/-! ### Work on the owning thread -/

namespace Handle

theorem faithful_ofChild (child : InterpId) (w : World) : (ofChild child).Faithful n w := by
  refine .get_bind ?_
  dsimp only
  split
  · exact .set_bind rfl (.pure _ _)
  · exact .pure _ w

theorem faithful_envelopeOf {product : α → Product} {code : Exec α} (h : code.Faithful w) :
    (envelopeOf product code).Faithful 0 w := by
  refine .bind h fun result w' _ => ?_
  cases result <;> exact .pure _ w'

theorem faithful_runJob (he : e.Faithful) (i : InterpId) (job : Job) (w : World) :
    (runJob e i job).Faithful 0 w := by
  cases job with
  | getVar name => exact .bind (faithful_getGlobal i name w) fun _ w' _ => .pure _ w'
  | setVar name value => exact faithful_envelopeOf (faithful_setGlobal i name value w)
  | unsetVar name => exact .bind (faithful_unsetGlobal i name w) fun _ w' _ => .pure _ w'
  | evalOutcome script => exact .bind (he.script i script w) fun _ w' _ => .pure _ w'
  | describe => exact .refl rfl
  | fail error => exact .pure _ w
  | panic text => exact .refl rfl
  | log label => exact .modify_bind rfl (.pure _ _)
  | createChild name safe =>
    refine .get_bind (.set_bind (scene_createChild w i name safe) ?_)
    split
    · exact .pure _ _
    · exact faithful_ofChild _ _

theorem faithful_execute (he : e.Faithful) (i : InterpId) (work : Work) (w : World) :
    (execute e i work).Faithful 0 w := by
  cases work with
  | eval script => exact .bind (faithful_evalFrom he i script w) fun _ w' _ => .pure _ w'
  | invoke words => exact .bind (faithful_invokeFrom he i words w) fun _ w' _ => .pure _ w'
  | job job => exact faithful_runJob he i job w

/-- Queued work that ends reports the signal that cut it short. -/
theorem carries_executeQueued (he : e.Faithful) {work : Work} {envelope : Envelope}
    {fatal : Option FatalSignal} (hw : w.current ∈ w.engaged)
    (hrun : executeQueued e h work w = .ok (envelope, fatal) w') : Carries 0 fatal w w' := by
  rw [executeQueued_eq] at hrun
  split at hrun
  · cases hrun
    exact .of_scene_eq rfl
  · next i _ =>
    have hexecute := faithful_execute he i work w hw
    split at hrun
    · next hend =>
      cases hrun
      rwa [Act.after_of_ok hend, Act.signal?_of_ok hend] at hexecute
    · next hend =>
      cases hrun
      rwa [Act.after_of_error hend, Act.signal?_of_error hend] at hexecute
    · next hend =>
      cases hrun
      rwa [Act.after_of_error hend, Act.signal?_of_error hend] at hexecute
    · cases hrun

/-- Nothing is raised by queued work that does not end. -/
theorem carries_executeQueued_of_error (he : e.Faithful) {work : Work} {halt : Halt}
    (hw : w.current ∈ w.engaged) (hrun : executeQueued e h work w = .error halt w') :
    Carries 0 halt.signal? w w' := by
  rw [executeQueued_eq] at hrun
  split at hrun
  · cases hrun
  · next i _ =>
    have hexecute := faithful_execute he i work w hw
    split at hrun
    · cases hrun
    · cases hrun
    · cases hrun
    · next hend =>
      cases hrun
      rwa [Act.after_of_error hend, Act.signal?_of_error hend] at hexecute

/-- What comes after queued work is faithful if it hands on the signal that the work raised. -/
theorem faithful_executeQueued_bind (he : e.Faithful) {work : Work}
    {f : Envelope × Option FatalSignal → Act β}
    (hcalm : ∀ envelope w', (f (envelope, none)).Faithful 0 w')
    (hfatal : ∀ envelope signal w', (f (envelope, some signal)).HandsOn signal w') :
    (executeQueued e h work >>= f).Faithful 0 w := by
  intro hw
  cases hrun : executeQueued e h work w with
  | ok answer u =>
    obtain ⟨envelope, fatal⟩ := answer
    have hboth := Act.bind_of_ok hrun f
    have hexecute := carries_executeQueued he hw hrun
    cases fatal with
    | none => exact Act.Faithful.of_eq hboth (fun _ => hexecute) (hcalm _ u) hw
    | some signal =>
      rw [Act.after, hboth, ← Act.after, Act.signal?, hboth, ← Act.signal?]
      exact (hfatal envelope signal u).carries hexecute hw
  | error halt u =>
    have hboth := Act.bind_of_error hrun f
    rw [Act.after_of_error hboth, Act.signal?_of_error hboth]
    exact carries_executeQueued_of_error he hw hrun

theorem faithful_serveDetached (he : e.Faithful) (h : HandleId) (pending : List Queued)
    (w : World) : (serveDetached e h pending).Faithful 0 w := by
  induction pending generalizing w with
  | nil => exact .pure _ w
  | cons queued rest ih =>
    refine faithful_executeQueued_bind he (fun envelope w' => ?_) fun envelope signal w' => ?_
    · exact .modify_bind (scene_answerDetached w' queued envelope) (ih _)
    · refine .bind (.of_modify (scene_answerDetached w' queued envelope)) fun _ w' _ => ?_
      exact .bind (.of_modify (scene_loseReplies w' rest)) fun _ w' _ => .raise signal w'

theorem faithful_releaseHere (he : e.Faithful) (h : HandleId) (pending : List Queued)
    (w : World) : (releaseHere e h pending).Faithful 0 w :=
  .bind (faithful_serveDetached he h pending w) fun _ w' _ => .of_modify (scene_giveUp w' h)

/-- What happens after the last holder of a handle went. -/
theorem faithful_vanishing (he : e.Faithful) (h : HandleId) (owner : ThreadId)
    (pending : List Queued) (w : World) :
    (if w.onOwner h then releaseHere e h pending
      else if w.isRegistered owner then set (w.post owner (.release h pending))
      else set (w.loseReplies pending) : Act Unit).Faithful 0 w := by
  split
  · exact faithful_releaseHere he h pending w
  · split
    · exact .of_scene_eq (scene_post w owner _)
    · exact .of_scene_eq (scene_loseReplies w pending)

/-- The last holder of a handle goes. -/
theorem letsGo_vanish (he : e.Faithful) (h : HandleId) (handle : Handle)
    (hw : w.current ∈ w.engaged) : LetsGo w ((vanish e h handle).after (w.unhold h)) := by
  have hscene : (w.dropped h handle).scene = (w.record (.letGo h)).scene := rfl
  have hdrop : Carries 0 none w (w.dropped h handle) :=
    (carries_record w (.letGo h) nofun).of_scene_eq_right hscene
  have hgone : ⟨w.current, .letGo h⟩ ∈ news w (w.dropped h handle) := by
    have hnews : news w (w.dropped h handle) = [⟨w.current, .letGo h⟩] := news_eq rfl
    rw [hnews]
    exact List.mem_singleton_self _
  have hrest := faithful_vanishing he h handle.owner handle.mailbox.takeAll.1
    (w.dropped h handle) hw
  rw [Act.after, vanish_eq, ← Act.after]
  exact (LetsGo.of_carries hdrop ⟨h, hgone⟩).trans_carries hrest

/-- Letting a handle go does nothing that shows, or its last holder goes. -/
theorem parts_release (he : e.Faithful) (h : HandleId) (w : World) : (release e h).Parts w := by
  intro hw
  by_cases hstays : ∀ handle, (w.unhold h).handles.get? h = some handle →
      (handle.exists || handle.deleted) = true
  · exact .inl ⟨(), _, release_of_stays hstays, rfl⟩
  · push Not at hstays
    obtain ⟨handle, hhandle, hgone⟩ := hstays
    right
    rw [Act.after, release_of_gone hhandle (eq_false_of_ne_true hgone), ← Act.after]
    exact letsGo_vanish he h handle hw

theorem faithful_release (he : e.Faithful) (h : HandleId) (w : World) :
    (release e h).Faithful 0 w :=
  (parts_release he h w).faithful

theorem parts_reply (he : e.Faithful) (queued : Queued) (envelope : Envelope) (w : World) :
    (reply e queued envelope).Parts w := by
  unfold reply
  refine .of_eq (Act.get_bind _ w) rfl (.of_eq (Act.set_bind _ _ w) (scene_answerQueued w queued _) ?_)
  split
  · split
    · exact parts_release he _ _
    · exact .pure _ _
  · exact .pure _ _

theorem faithful_serveOne (he : e.Faithful) (h : HandleId) (w : World) :
    (serveOne e h).Faithful 0 w := by
  refine .get_bind ?_
  split
  · exact .pure _ w
  · next queued u htake =>
    refine .set_bind (scene_takeWork? htake) (faithful_executeQueued_bind he ?_ ?_)
    · intro envelope w'
      refine .modify_bind rfl (.bind (parts_reply he queued envelope _).faithful fun _ w' _ => ?_)
      exact .bind (faithful_release he h w') fun _ w' _ => .pure _ w'
    · intro envelope signal w'
      refine .bind (.of_modify rfl) fun _ w' _ => ?_
      refine .bind (parts_reply he queued envelope w') fun _ w' _ => ?_
      exact .bind (parts_release he h w') fun _ w' _ => .raise signal w'

/-! ### Calls -/

variable {work : Work}

theorem faithful_escalate (result : Except HostError α) (w : World) :
    (escalate result).Faithful n w := by
  unfold escalate
  split
  · refine .get_bind ?_
    split
    · exact .beginUnwind _ w
    · exact .pure _ w
  · exact .pure _ w

theorem faithful_abandon (he : e.Faithful) (r : ReplyId) (w : World) :
    (abandon e r).Faithful 0 w := by
  refine .modify_bind rfl (.get_bind ?_)
  split
  · exact faithful_release he _ _
  · exact .pure _ _

theorem faithful_settleReply (he : e.Faithful) (h : HandleId) (r : ReplyId)
    (deadline : Option Time) (w : World) : (settleReply e h r deadline).Faithful 0 w := by
  refine .get_bind ?_
  split
  · exact .pure _ w
  · exact .bind (faithful_abandon he r w) fun _ w' _ => .pure _ w'
  · exact .bind (faithful_abandon he r w) fun _ w' _ => .pure _ w'

theorem faithful_awaitReply (he : e.Faithful) (h : HandleId) (r : ReplyId) (w : World) :
    (awaitReply e h r).Faithful 0 w :=
  .get_bind (.bind (faithful_waitUntil he _ _ _ w) fun _ w' _ => faithful_settleReply he h r _ w')

theorem faithful_submitForReply (h : HandleId) (work : Work) (w : World) :
    (submitForReply h work).Faithful n w :=
  .get_bind (.set_bind (scene_submit w.newReply.2 h work _) (.pure _ _))

/-- Work that is executed in place ends with its envelope, and a fatal signal of it goes on unwinding
only inside host closures. -/
theorem executeHere_eq (e : Engine) (h : HandleId) (work : Work) (w : World) :
    executeHere e h work w =
      match (w.startWork h).interpOf? h with
      | none => .ok (.error .deleted) ((w.startWork h).finishWork h true)
      | some i =>
        match execute e i work (w.startWork h) with
        | .ok envelope u => .ok envelope (u.finishWork h envelope.failed)
        | .error (.unwind signal) u =>
          if (u.finishWork h true).inCallback then .error (.unwind signal) (u.finishWork h true)
          else .ok (.error (.fatal signal)) (u.finishWork h true)
        | .error halt u => .error halt (u.finishWork h true) := by
  rw [executeHere, Act.modify_bind, Act.get_bind]
  cases (w.startWork h).interpOf? h with
  | none => rfl
  | some i =>
    dsimp only
    cases hrun : execute e i work (w.startWork h) with
    | ok envelope u => rw [Act.bind_of_ok (Act.attempt_of_ok hrun)]; rfl
    | error halt u =>
      rw [Act.bind_of_ok (Act.attempt_of_error hrun)]
      dsimp only
      rw [Act.modify_bind]
      cases halt with
      | unwind signal =>
        dsimp only
        rw [Act.get_bind]
        split <;> rfl
      | panic payload => rfl
      | stalled => rfl

/-- Inside host closures, work that is executed in place hands its signals on. -/
theorem faithful_executeHere (he : e.Faithful) (h : HandleId) (work : Work) (w : World) :
    (executeHere e h work).Faithful 1 w := by
  intro hw
  have hhere := executeHere_eq e h work w
  cases hinterp : (w.startWork h).interpOf? h with
  | none =>
    rw [hinterp] at hhere
    rw [Act.after_of_ok hhere]
    exact .of_scene_eq rfl
  | some i =>
    rw [hinterp] at hhere
    dsimp only at hhere
    have hstart : Carries 0 none w (w.startWork h) := .of_scene_eq rfl
    have hexecute := hstart.trans (faithful_execute he i work (w.startWork h) hw)
    cases hrun : execute e i work (w.startWork h) with
    | ok envelope u =>
      rw [Act.after_of_ok hrun, Act.signal?_of_ok hrun] at hexecute
      rw [hrun] at hhere
      rw [Act.after_of_ok hhere, Act.signal?_of_ok hhere]
      exact (hexecute.mono (Nat.zero_le 1)).of_scene_eq_right rfl
    | error halt u =>
      rw [Act.after_of_error hrun, Act.signal?_of_error hrun] at hexecute
      have hdone : Carries 0 halt.signal? w (u.finishWork h true) := hexecute.of_scene_eq_right rfl
      rw [hrun] at hhere
      cases halt with
      | unwind signal =>
        dsimp only at hhere
        split at hhere
        · rw [Act.after_of_error hhere, Act.signal?_of_error hhere]
          exact hdone.mono (Nat.zero_le 1)
        · next hout =>
          -- outside of host closures the signal ends here
          rw [Act.after_of_ok hhere]
          refine .of_not_within (fun hwithin => hout ?_) hdone.toKeeps
          exact within_one_iff.1 (hwithin.keeps hdone.toKeeps (hdone.own (hwithin.mono (Nat.zero_le 1))))
      | panic payload =>
        rw [Act.after_of_error hhere, Act.signal?_of_error hhere]
        exact hdone.mono (Nat.zero_le 1)
      | stalled =>
        rw [Act.after_of_error hhere, Act.signal?_of_error hhere]
        exact hdone.mono (Nat.zero_le 1)

theorem faithful_enqueue (he : e.Faithful) (h : HandleId) (work : Work) (wait : Bool) (w : World) :
    (enqueue e h work wait).Faithful 1 w := by
  refine .get_bind ?_
  split
  · exact .pure _ w
  · split
    · exact .bind (faithful_executeHere he h work w) fun _ w' _ => .pure _ w'
    · split
      · refine .bind (faithful_submitForReply h work w) fun submitted w' _ => ?_
        refine .bind (faithful_escalate submitted w') fun result w' _ => ?_
        split
        · exact .pure _ w'
        · refine .bind ((faithful_awaitReply he h _ w').mono (Nat.zero_le 1)) fun reply w' _ => ?_
          refine .bind (faithful_escalate reply w') fun result w' _ => ?_
          split
          · exact .pure _ w'
          · split
            · refine .get_bind ?_
              split
              · exact .beginUnwind _ w'
              · exact .pure _ w'
            · exact .pure _ w'
      · refine .set_bind (scene_submit w h work none) ?_
        refine .bind (faithful_escalate _ _) fun result w' _ => ?_
        split <;> exact .pure _ w'

theorem faithful_run (he : e.Faithful) (h : HandleId) (work : Work) (w : World) :
    (run e h work).Faithful 1 w := by
  refine .bind (.bind (faithful_enqueue he h work true w) fun result w' _ => ?_) fun _ w' _ =>
    .pure _ w'
  split <;> exact .pure _ w'

theorem faithful_evaluate (he : e.Faithful) (h : HandleId) (script : String) (w : World) :
    (evaluate e h script).Faithful 1 w :=
  .bind (faithful_run he h _ w) fun _ w' _ => .pure _ w'

theorem faithful_evaluateOutcome (he : e.Faithful) (h : HandleId) (script : String) (w : World) :
    (evaluateOutcome e h script).Faithful 1 w :=
  .bind (faithful_run he h _ w) fun _ w' _ => .pure _ w'

theorem faithful_invoke (he : e.Faithful) (h : HandleId) (words : List String) (w : World) :
    (invoke e h words).Faithful 1 w := by
  unfold invoke
  split
  · exact .pure _ w
  · exact .bind (faithful_run he h _ w) fun _ w' _ => .pure _ w'

theorem faithful_checkLive (h : HandleId) (w : World) : (checkLive h).Faithful n w :=
  .get_bind (.pure _ w)

theorem faithful_register (h : HandleId) (closure : Closure) (w : World) :
    (register h closure).Faithful n w := by
  refine .bind (faithful_checkLive h w) fun live w' _ => ?_
  split
  · exact .pure _ w'
  · refine .get_bind ?_
    split
    · exact .pure _ w'
    · exact .modify_bind rfl (.pure _ _)

theorem faithful_unregister (h : HandleId) (id : String) (w : World) :
    (unregister h id).Faithful n w := by
  refine .bind (faithful_checkLive h w) fun live w' _ => ?_
  split
  · exact .pure _ w'
  · exact .modify_bind rfl (.pure _ _)

theorem faithful_stopLoop (h : HandleId) (w : World) : (stopLoop h).Faithful n w :=
  .of_modify (scene_modifyAgenda _ _ _)

end Handle

theorem Hub.faithful_interrupt (w : World) : Hub.interrupt.Faithful n w :=
  .of_modify (scene_alertAll _)

theorem Hub.faithful_stopLoop (w : World) : Hub.stopLoop.Faithful n w :=
  .of_modify (scene_alertAll _)

/-! ### Host closures -/

namespace Closure

theorem faithful_target (name : String) (w : World) : (target name).Faithful n w := by
  refine .get_bind ?_
  split
  · exact .pure _ w
  · exact .halt _ w

theorem faithful_runAll (he : e.Faithful) (args : List String) (last : Outcome)
    (parts : List Closure) (w : World) : (runAll e args last parts).Faithful 1 w := by
  induction parts generalizing last w with
  | nil => exact .pure _ w
  | cons closure rest ih =>
    refine .bind (he.closure closure args w) fun result w' _ => ?_
    split
    · exact ih result w'
    · exact .pure _ w'

/-- A closure that uses a handle which the host keeps. -/
theorem faithful_target_bind {name : String} {f : HandleId → Act α}
    (hf : ∀ h w', (f h).Faithful n w') : (target name >>= f).Faithful n w :=
  .bind (faithful_target name w) fun h w' _ => hf h w'

theorem faithful_run (he : e.Faithful) (args : List String) (closure : Closure) (w : World) :
    (closure.run e args).Faithful 1 w := by
  cases closure with
  | outcome => exact .pure _ w
  | value => exact .pure _ w
  | count => exact .pure _ w
  | join => exact .pure _ w
  | double => exact .pure _ w
  | exit => exact .pure _ w
  | log => exact .modify_bind rfl (.pure _ _)
  | inCallback => exact .get_bind (.pure _ w)
  | panic payload => exact .halt _ w
  | switch cases other =>
    unfold run
    dsimp only
    split
    · exact he.closure _ args w
    · exact .pure _ w
  | seq parts => exact faithful_runAll he args _ parts w
  | eval name script ignore =>
    exact faithful_target_bind fun h w' =>
      .bind (Handle.faithful_evaluate he h script w') fun _ w' _ => .pure _ w'
  | evalOutcome name script ignore =>
    exact faithful_target_bind fun h w' =>
      .bind (Handle.faithful_evaluateOutcome he h script w') fun _ w' _ => .pure _ w'
  | invokeArgs name =>
    exact faithful_target_bind fun h w' =>
      .bind (Handle.faithful_invoke he h args w') fun _ w' _ => .pure _ w'
  | register name closure =>
    exact faithful_target_bind fun h w' =>
      .bind (Handle.faithful_register h closure w') fun _ w' _ => .pure _ w'
  | unregister name id =>
    exact faithful_target_bind fun h w' =>
      .bind (Handle.faithful_unregister h id w') fun _ w' _ => .pure _ w'
  | delete name =>
    exact faithful_target_bind fun h w' => .modify_bind (scene_deleteHandle w' h) (.pure _ _)
  | drop name =>
    refine faithful_target_bind fun h w' => .modify_bind rfl ?_
    exact .bind ((Handle.faithful_release he h _).mono (Nat.zero_le 1)) fun _ w' _ => .pure _ w'
  | stopLoop name =>
    exact faithful_target_bind fun h w' =>
      .bind (Handle.faithful_stopLoop h w') fun _ w' _ => .pure _ w'
  | stopGlobal => exact .bind (Hub.faithful_stopLoop w) fun _ w' _ => .pure _ w'
  | interrupt => exact .bind (Hub.faithful_interrupt w) fun _ w' _ => .pure _ w'

end Closure

end ScriptHost
