import ScriptHost.Proofs.Run.Invoke

/-!
# Calls on handles and host closures as pieces of code
-/

namespace ScriptHost

open Run

/-! ### Letting a handle go -/

namespace World

variable {w : World} {h : HandleId} {handle : Handle}

/-- What is left when the last holder of a handle goes. -/
def dropped (w : World) (h : HandleId) (handle : Handle) : World :=
  (((w.unhold h).record (.letGo h)).unregister h).modifyHandle h fun r =>
    { r with mailbox := handle.mailbox.takeAll.2 }

theorem still_dropped (w : World) (h : HandleId) (handle : Handle) :
    ((w.unhold h).unregister h).Still (w.dropped h handle) := by
  have hletGo : (Occurrence.letGo h).isCommand = false := rfl
  exact (still_record _ hletGo).trans (.of_scenery_eq rfl)

theorem rests_dropped (w : World) (h : HandleId) (handle : Handle) :
    ((w.unhold h).unregister h).Rests (w.dropped h handle) := by
  have hletGo : ((w.unhold h).unregister h).Rests (((w.unhold h).record (.letGo h)).unregister h) :=
    .of_tables_eq rfl
  refine hletGo.trans (rests_modifyHandle fun former _ => ?_)
  exact ⟨rfl, List.nil_subset _⟩

/-- Work is taken off, and what is left of it on the agenda still tells of all work in mailboxes. -/
theorem attends_takeOff {flags : EventFlags} {work : Agenda.Work Event Handler}
    {a : Agenda Event Handler} (hnext : w.agenda.next? flags w.clock = some (work, a))
    (huntold : ∀ h, w.isLive h = true → (w.takeOff a).untold h ≤ w.untold h) :
    w.Attends (w.takeOff a) := by
  have htake : Agenda.Course w.agenda a := .single (.take hnext)
  exact .of_same rfl rfl (fun _ => rfl) (isRegistered_setAgenda w a) (fun _ => rfl)
    (rel_agendaOf_setAgenda (fun _ => .refl) htake) (fun _ => id)
    fun h hlive => ⟨hlive, huntold h hlive, fun _ => .inl⟩

theorem untold_takeOff_le {a : Agenda Event Handler} (ha : w.agenda.notices h ≤ a.notices h) :
    (w.takeOff a).untold h ≤ w.untold h :=
  untold_le rfl (rel_agendaOf_setAgenda (P := fun a a' => a.notices h ≤ a'.notices h)
    (fun _ => Nat.le_refl _) ha _)

/-- Only the event that tells of work in a mailbox is not to be heard any more when it is taken off. -/
theorem notices_le_of_next {flags : EventFlags} {now : Time} {work : Agenda.Work Event Handler}
    {a a' : Agenda Event Handler} (hnext : a.next? flags now = some (work, a'))
    (hwork : work ≠ .event (.serve h)) : a.notices h ≤ a'.notices h := by
  rcases Agenda.next?_cases hnext with hpop | hpop | hpop
  · obtain ⟨event, rest, hevents, rfl, rfl⟩ := Agenda.popEvent?_eq_some hpop
    have hsilent : event.tells h = false := by
      cases event with
      | serve k => exact decide_eq_false fun hk => hwork (by rw [hk])
      | release | delete | print => rfl
    rw [Agenda.notices, hevents, List.countP_cons_of_neg (by rw [hsilent]; exact Bool.false_ne_true)]
    exact Nat.le_refl _
  · obtain ⟨_, _, -, -, -, rfl⟩ := Agenda.popTimer?_eq_some hpop
    exact Nat.le_refl _
  · obtain ⟨_, _, _, -, -, rfl⟩ := Agenda.popIdle?_eq_some hpop
    exact Nat.le_refl _

theorem attends_takeOff_of_ne {flags : EventFlags} {work : Agenda.Work Event Handler}
    {a : Agenda Event Handler} (hnext : w.agenda.next? flags w.clock = some (work, a))
    (hwork : ∀ h, work ≠ .event (.serve h)) : w.Attends (w.takeOff a) :=
  attends_takeOff hnext fun h _ => untold_takeOff_le (notices_le_of_next hnext (hwork h))

/-- An event may tell of work that is not there any more. -/
theorem attends_takeOff_of_idle {flags : EventFlags} {a : Agenda Event Handler}
    (hnext : w.agenda.next? flags w.clock = some (.event (.serve h), a))
    (htake : (w.takeOff a).takeWork? h = none) : w.Attends (w.takeOff a) := by
  refine attends_takeOff hnext fun k hlive => ?_
  by_cases hk : h = k
  · subst hk
    obtain ⟨handle, hhandle⟩ := Option.isSome_iff_exists.1 (Table.mem_keys_iff.1 (mem_keys_of_isLive hlive))
    have hhandle' : (w.takeOff a).handles.get? h = some handle := hhandle
    rw [isLive_of_get? hhandle, Handle.live, Bool.and_eq_true] at hlive
    rw [untold, queueOf_of_get? hhandle', queue_eq_nil_of_takeWork? hhandle' hlive.1 htake]
    exact Nat.le_trans (Nat.le_of_eq (Nat.zero_sub _)) (Nat.zero_le _)
  · refine untold_takeOff_le (notices_le_of_next hnext fun heq => ?_)
    cases heq
    exact hk rfl

theorem attends_unregister_unhold (w : World) (h : HandleId) :
    w.Attends ((w.unhold h).unregister h) :=
  (attends_unhold w h).trans (.of_desk_eq rfl)

/-- Nobody is to hear of the work of a handle that is let go. -/
theorem attends_dropped (hhandle : (w.unhold h).handles.get? h = some handle)
    (hgone : (handle.exists || handle.deleted) = false) : w.Attends (w.dropped h handle) := by
  have hletGo : (w.unhold h).Attends (((w.unhold h).record (.letGo h)).unregister h) :=
    .of_desk_eq rfl
  refine ((attends_unhold w h).trans hletGo).trans (attends_endHandle fun former hformer => ?_)
  cases hhandle.symm.trans hformer
  exact ⟨rfl, Bool.and_eq_false_imp.2 fun hheld => by simp_all [Handle.exists]⟩

/-- A handle of another thread than the one that is running is there only if several threads act. -/
theorem not_solo_of_dropped (hhandle : (w.unhold h).handles.get? h = some handle)
    (howner : (w.dropped h handle).onOwner h = false) : ¬w.Solo := by
  intro hsolo
  have hget : (w.dropped h handle).handles.get? h =
      some { handle with mailbox := handle.mailbox.takeAll.2 } :=
    get?_modifyHandle_self (w := (w.unhold h).unregister h) hhandle _
  rw [onOwner, hget] at howner
  have hformer := get?_modifyHandle w h h fun r => { r with holders := r.holders - 1 }
  rw [if_pos rfl] at hformer
  obtain ⟨former, hformer, rfl⟩ := Option.map_eq_some_iff.1 (hformer.symm.trans hhandle)
  exact of_decide_eq_false howner (hsolo.owner h _ (standing?_of_get? hformer))

end World

namespace Handle

/-- A fatal signal of queued work is reported, a panic of it is an error, and nothing gets over a
stall. -/
theorem executeQueued_eq (e : Engine) (h : HandleId) (work : Work) (w : World) :
    executeQueued e h work w =
      match w.interpOf? h with
      | none => .ok (.error .deleted, none) w
      | some i =>
        match execute e i work w with
        | .ok envelope w' => .ok (envelope, none) w'
        | .error (.panic payload) w' =>
          .ok (.error (.eval s!"queued command panicked: {payload.message}"), none) w'
        | .error (.unwind signal) w' => .ok (.error (.fatal signal), some signal) w'
        | .error .stalled w' => .error .stalled w' := by
  rw [executeQueued, Act.get_bind]
  cases w.interpOf? h with
  | none => rfl
  | some i =>
    dsimp only
    cases hrun : execute e i work w with
    | ok envelope w' => rw [Act.bind_of_ok (Act.attempt_of_ok hrun)]; rfl
    | error halt w' =>
      rw [Act.bind_of_ok (Act.attempt_of_error hrun)]
      cases halt <;> rfl

/-- Only a stall cuts queued work short. -/
theorem eq_stalled_of_executeQueued {e : Engine} {h : HandleId} {work : Work} {w w' : World} {halt : Halt}
    (hcut : executeQueued e h work w = .error halt w') : halt = .stalled := by
  rw [executeQueued_eq] at hcut
  split at hcut
  · cases hcut
  · split at hcut <;> cases hcut
    rfl

/-- If the work that outlived a handle is cut short, one piece of it ended in this way, and not in a
panic. -/
theorem exists_halted_of_serveDetached {e : Engine} {h : HandleId} {pending : List Queued}
    {w w' : World} {halt : Halt} (hserve : serveDetached e h pending w = .error halt w') :
    (∀ payload, halt ≠ .panic payload) ∧
      ∃ queued ∈ pending, ∃ i u u', execute e i queued.work u = .error halt u' := by
  induction pending generalizing w with
  | nil => cases hserve
  | cons queued rest ih =>
    have hnext {envelope : Envelope} {u : World}
        (hqueued : executeQueued e h queued.work w = .ok (envelope, none) u) :
        (∀ payload, halt ≠ .panic payload) ∧
          ∃ former ∈ queued :: rest, ∃ i u u', execute e i former.work u = .error halt u' := by
      rw [serveDetached, Act.bind_of_ok hqueued] at hserve
      obtain ⟨hhalt, former, hmem, hrun⟩ := ih hserve
      exact ⟨hhalt, former, List.mem_cons_of_mem _ hmem, hrun⟩
    have hqueued := executeQueued_eq e h queued.work w
    cases hinterp : w.interpOf? h with
    | none =>
      rw [hinterp] at hqueued
      exact hnext hqueued
    | some i =>
      rw [hinterp] at hqueued
      dsimp only at hqueued
      cases hrun : execute e i queued.work w with
      | ok envelope u =>
        rw [hrun] at hqueued
        exact hnext hqueued
      | error end_ u =>
        rw [hrun] at hqueued
        cases end_ with
        | panic payload => exact hnext hqueued
        | unwind signal =>
          rw [serveDetached, Act.bind_of_ok hqueued] at hserve
          cases hserve
          exact ⟨nofun, queued, List.mem_cons_self, i, w, u, hrun⟩
        | stalled =>
          rw [serveDetached, Act.bind_of_error hqueued] at hserve
          cases hserve
          exact ⟨nofun, queued, List.mem_cons_self, i, w, _, hrun⟩

/-- A handle in an answer that nobody waits for any more is released. -/
def releaseAnswer (e : Engine) (abandoned : Bool) (envelope : Envelope) : Act Unit :=
  match envelope with
  | .ok (.handle h) => if abandoned then release e h else pure ()
  | _ => pure ()

/-- What the owner does with a piece of work that it executed. -/
def finishServed (e : Engine) (h : HandleId) (queued : Queued) (result : Envelope × Option FatalSignal) :
    Act Unit := do
  modify fun w => w.finishWork h result.1.failed
  reply e queued result.1
  release e h
  match result.2 with
  | some signal => Act.raise signal
  | none => return

theorem serveOne_of_takeWork? {e : Engine} {h : HandleId} {w w₁ : World} {queued : Queued}
    (htake : w.takeWork? h = some (queued, w₁)) :
    serveOne e h w = (executeQueued e h queued.work >>= finishServed e h queued) w₁ := by
  rw [serveOne, Act.get_bind, htake]
  rfl

/-- The caller gets the answer before any handle is let go. -/
theorem finishServed_eq (e : Engine) (h : HandleId) (queued : Queued)
    (result : Envelope × Option FatalSignal) (w : World) :
    finishServed e h queued result w = (do
      releaseAnswer e ((w.finishWork h result.1.failed).isAbandoned queued) result.1
      release e h
      match result.2 with
      | some signal => Act.raise signal
      | none => return : Act Unit)
        ((w.finishWork h result.1.failed).answerQueued queued result.1) := by
  rfl

variable {w : World} {h : HandleId} {handle : Handle} {e : Engine}

theorem release_of_stays
    (hstays : ∀ handle, (w.unhold h).handles.get? h = some handle →
      (handle.exists || handle.deleted) = true) :
    release e h w = .ok () (w.unhold h) := by
  rw [release, Act.modify_bind, Act.get_bind]
  cases hhandle : (w.unhold h).handles.get? h with
  | none => rfl
  | some handle =>
    dsimp only
    rw [if_pos (hstays handle hhandle)]
    rfl

theorem release_of_gone (hhandle : (w.unhold h).handles.get? h = some handle)
    (hgone : (handle.exists || handle.deleted) = false) :
    release e h w = vanish e h handle (w.unhold h) := by
  rw [release, Act.modify_bind, Act.get_bind, hhandle]
  dsimp only
  rw [hgone]
  rfl

theorem vanish_eq (e : Engine) (w : World) (h : HandleId) (handle : Handle) :
    vanish e h handle (w.unhold h) = (if (w.dropped h handle).onOwner h then
        releaseHere e h handle.mailbox.takeAll.1
      else if (w.dropped h handle).isRegistered handle.owner then
        set ((w.dropped h handle).post handle.owner (.release h handle.mailbox.takeAll.1))
      else set ((w.dropped h handle).loseReplies handle.mailbox.takeAll.1) :
      Act Unit) (w.dropped h handle) := rfl

/-- What the owning thread does when the last holder of a handle goes. -/
theorem release_eq_of_owner (hhandle : (w.unhold h).handles.get? h = some handle)
    (hgone : (handle.exists || handle.deleted) = false)
    (howner : (w.dropped h handle).onOwner h = true) :
    release e h w = releaseHere e h handle.mailbox.queue (w.dropped h handle) := by
  rw [release_of_gone hhandle hgone, vanish_eq, if_pos howner]
  rfl

theorem leads_submitForReply (h : HandleId) (work : Work) :
    (submitForReply h work).Moves Leads := by
  refine .get_bind fun w => .set_bind ?_ (.refl _ rfl)
  exact .rest (World.stands_submit w.newReply.2 h work _).interpreters

end Handle

variable {L R : World → World → Prop} [Tracks L R] {e : Engine} {i : InterpId}

include L

namespace World

variable {w w' : World} {h : HandleId} {handle : Handle}

/-- A new child that nobody waits for goes as the last holder of its handle does. -/
theorem covers_discard (w : World) (h : HandleId) : R w (w.discard h) := by
  rw [discard]
  cases hhandle : (w.unhold h).handles.get? h with
  | none =>
    refine Follows.unhold fun s hs => ?_
    rw [standing?, hhandle] at hs
    cases hs
  | some handle =>
    dsimp only
    split
    · next hstays =>
      refine Follows.unhold fun s hs => ?_
      rw [standing?_of_get? hhandle] at hs
      cases hs
      exact Bool.or_eq_true_iff.1 hstays
    · next hgone =>
      have hheld := (Bool.or_eq_false_iff.1 (Bool.eq_false_iff.2 hgone)).1
      exact Tracks.release ⟨handle.standing, standing?_of_get? hhandle, hheld⟩ (.refl _) (.refl _)
        (attends_unregister_unhold w h) (Tracks.refl _)

theorem covers_answerDetached (w : World) (queued : Queued) (envelope : Envelope) :
    R w (w.answerDetached queued envelope) := by
  have hanswer : R w (w.answerQueued queued envelope) :=
    Tracks.settle (w.rests_answerQueued queued envelope)
      (w.still_answerQueued queued envelope) (w.attends_answerQueued queued envelope)
  cases envelope with
  | error error => exact hanswer
  | ok product =>
    cases product with
    | handle child =>
      rw [answerDetached]
      split
      · exact Follows.trans hanswer (covers_discard _ _)
      · exact hanswer
    | none | text | optional | truth | outcome => exact hanswer

end World

namespace Handle

/-! ### Work on the owning thread -/

theorem moves_ofChild (child : InterpId) : (ofChild child).Moves R := by
  refine .get_bind fun w => ?_
  dsimp only
  split
  · next h handle hfound =>
    have hpinned := List.find?_some hfound
    have hmem := List.mem_of_find?_eq_some hfound
    exact .set_bind (Follows.takeOver hmem (of_decide_eq_true hpinned).2.2) (.refl _ rfl)
  · exact .refl w rfl

theorem moves_envelopeOf {α : Type} {product : α → Product} {code : Exec α}
    (h : Exec.Moves R code) : (envelopeOf product code).Moves R := by
  refine .bind h fun result => ?_
  cases result with
  | ok a => exact .pure _
  | error end_ => exact .pure _

theorem moves_runJob (he : e.Moves R) (i : InterpId) (job : Job) : (runJob e i job).Moves R := by
  cases job with
  | getVar name => exact .bind (moves_getGlobal i name) fun _ => .pure _
  | setVar name value => exact moves_envelopeOf (moves_setGlobal i name value)
  | unsetVar name => exact .bind (moves_unsetGlobal i name) fun _ => .pure _
  | evalOutcome script => exact .bind (he _) fun _ => .pure _
  | describe => exact .bind (moves_getInterp i) fun _ => .pure _
  | fail error => exact .pure _
  | panic text => exact .panic _
  | log label => exact .bind (.modify fun w => Tracks.same rfl) fun _ => .pure _
  | createChild name safe =>
    refine .get_bind fun w => .set_bind (Follows.createChild w i name safe) ?_
    split
    · exact .refl _ rfl
    · exact moves_ofChild _ _

theorem moves_execute (he : e.Moves R) (i : InterpId) (work : Work) : (execute e i work).Moves R := by
  cases work with
  | eval script => exact .bind (moves_evalFrom he i script) fun _ => .pure _
  | invoke words => exact .bind (moves_invokeFrom he i words) fun _ => .pure _
  | job job => exact moves_runJob he i job

theorem moves_executeQueued (he : e.Moves R) (h : HandleId) (work : Work) :
    (executeQueued e h work).Moves R := by
  refine .get_bind fun w => ?_
  split
  · exact .refl w rfl
  · refine Act.Moves.attempt_bind (moves_execute he _ work) (fun result => ?_) (fun w => ⟨w, rfl⟩) w
    split
    · exact .pure _
    · exact .pure _
    · exact .pure _
    · exact .halt _

theorem moves_finishWork (h : HandleId) (failed : Bool) :
    (modify fun w => w.finishWork h failed : Act Unit).Moves R :=
  .modify fun w => Tracks.settle (w.rests_finishWork h failed) (.of_scenery_eq rfl)
    (w.attends_finishWork h failed)

theorem moves_executeHere (he : e.Moves R) (h : HandleId) (work : Work) :
    (executeHere e h work).Moves R := by
  have hstart : (modify fun w => w.startWork h : Act Unit).Moves R :=
    .modify fun w => Tracks.settle (w.rests_startWork h) (.of_scenery_eq rfl) (w.attends_startWork h)
  refine .bind hstart fun _ => .get_bind fun w => ?_
  split
  · exact Act.Moves.bind (moves_finishWork h true) (fun _ => .pure _) w
  · refine Act.Moves.attempt_bind (moves_execute he _ work) (fun result => ?_) (fun w => ⟨_, rfl⟩) w
    cases result with
    | ok envelope => exact .bind (moves_finishWork h _) fun _ => .pure _
    | error halt =>
      refine .bind (moves_finishWork h true) fun _ => ?_
      split
      · refine .get_bind fun w => ?_
        split
        · exact .refl w rfl
        · exact .refl w rfl
      · exact .halt _

theorem moves_serveDetached (he : e.Moves R) (h : HandleId) (pending : List Queued) :
    (serveDetached e h pending).Moves R := by
  induction pending with
  | nil => exact .pure _
  | cons queued rest ih =>
    refine .bind (moves_executeQueued he h _) fun result => ?_
    refine .bind (.modify fun w => w.covers_answerDetached queued _) fun _ => ?_
    split
    · exact ih
    · refine .bind (.modify fun w => ?_) fun _ => .raise _
      exact Tracks.settle (w.rests_loseReplies rest) (w.still_loseReplies rest)
        (w.attends_loseReplies rest)

/-! ### Calls that need no other thread -/

theorem moves_escalate {α : Type} (result : Except HostError α) : (escalate result).Moves R := by
  unfold escalate
  split
  · refine .get_bind fun w => ?_
    split
    · exact Act.Moves.beginUnwind _ w
    · exact .refl w rfl
  · exact .pure _

theorem moves_checkLive (h : HandleId) : (checkLive h).Moves R :=
  .get_bind fun w => .refl w rfl

/-- A live handle may change apart from its entry in the ledger and its mailbox. -/
theorem moves_configure (h : HandleId) {f : Handle → Handle}
    (hf : ∀ handle, (f handle).standing = handle.standing ∧ (f handle).mailbox = handle.mailbox) :
    Act.Moves R (do
      match ← checkLive h with
      | .error error => return .error error
      | .ok () =>
        modify (·.modifyHandle h f)
        return .ok () : Act (Except HostError Unit)) := by
  refine .bind (moves_checkLive h) fun live => ?_
  cases live with
  | error error => exact .pure _
  | ok _ => exact .bind (.modify fun w => Tracks.modifyHandle hf w h) fun _ => .pure _

theorem moves_register (h : HandleId) (closure : Closure) : (register h closure).Moves R := by
  refine .bind (moves_checkLive h) fun live => ?_
  cases live with
  | error error => exact .pure _
  | ok _ =>
    refine .get_bind fun w => ?_
    dsimp only
    split
    · exact .refl w rfl
    · refine .modify_bind (Tracks.modifyHandle ?_ w h) (.refl _ rfl)
      exact fun _ => ⟨rfl, rfl⟩

theorem moves_unregister (h : HandleId) (id : String) : (unregister h id).Moves R :=
  moves_configure h fun _ => ⟨rfl, rfl⟩

theorem moves_setEvaluator (h : HandleId) (closure : Closure) : (setEvaluator h closure).Moves R :=
  moves_configure h fun _ => ⟨rfl, rfl⟩

theorem moves_stopLoop (h : HandleId) : (stopLoop h).Moves R := by
  refine .modify fun w => Follows.trans (Tracks.modifyHandle ?_ w h)
    (Tracks.settle (World.rests_alert _ _) (World.still_alert _ _) (World.attends_alert _ _))
  exact fun _ => ⟨rfl, rfl⟩

end Handle

namespace Hub

theorem moves_interrupt : Hub.interrupt.Moves R := by
  refine .modify fun w => ?_
  have hraise : R w { w with hub := { w.hub with interrupted := true } } := Tracks.same rfl
  exact Follows.trans hraise (Tracks.settle (World.rests_alertAll _) (World.still_alertAll _)
    (World.attends_alertAll _))

theorem moves_clearInterrupt : Hub.clearInterrupt.Moves R :=
  .modify fun _ => Tracks.same rfl

theorem moves_stopLoop : Hub.stopLoop.Moves R := by
  refine .modify fun w => ?_
  have hstop : R w { w with hub := { w.hub with globalStop := true } } := Tracks.same rfl
  exact Follows.trans hstop (Tracks.settle (World.rests_alertAll _) (World.still_alertAll _)
    (World.attends_alertAll _))

end Hub

namespace Closure

theorem moves_target (name : String) : (target name).Moves R := by
  refine .get_bind fun w => ?_
  split <;> exact .refl w rfl

theorem moves_runAll (he : e.Moves R) (args : List String) (last : Outcome)
    (closures : List Closure) : (runAll e args last closures).Moves R := by
  induction closures generalizing last with
  | nil => exact .pure _
  | cons closure rest ih =>
    refine .bind (he _) fun result => ?_
    split
    · exact ih result
    · exact .pure _

end Closure

/-! ### Letting go and calls -/

variable [Notes e R]

/-- The work that waits is served to its end, or a fatal signal or a stall cuts it short. -/
theorem Handle.arrives_release_of_owner (he : e.Moves R) {w : World} {h : HandleId} {handle : Handle}
    (htidy : w.Tidy) (hhandle : (w.unhold h).handles.get? h = some handle)
    (hgone : (handle.exists || handle.deleted) = false)
    (howner : (w.dropped h handle).onOwner h = true) : (Handle.release e h).Arrives R w := by
  have hrun := Handle.release_eq_of_owner (e := e) hhandle hgone howner
  have hheld : (w.unhold h).Gone h :=
    ⟨handle.standing, World.standing?_of_get? hhandle, (Bool.or_eq_false_iff.1 hgone).1⟩
  have hdropped := w.rests_dropped h handle
  have hstill := w.still_dropped h handle
  have hattends := World.attends_dropped hhandle hgone
  obtain ⟨hleads, hserved⟩ := Handle.moves_serveDetached he h handle.mailbox.queue
    (w.dropped h handle) (htidy.of_interpreters_eq hdropped.interpreters)
  rw [Act.after] at hleads hserved
  cases hrest : Handle.serveDetached e h handle.mailbox.queue (w.dropped h handle) with
  | ok a w₂ =>
    rw [hrest] at hserved
    have hrelease : R w (w₂.giveUp h) :=
      Tracks.release hheld hdropped hstill hattends (hserved (.of_ok hrest))
    exact Act.MovesFrom.of_after (Act.after_of_ok (hrun.trans (Act.bind_of_ok hrest _))) hrelease htidy
  | error halt w₂ =>
    rw [hrest] at hserved hleads
    have hcut := hrun.trans (Act.bind_of_error hrest _)
    have hafter := Act.after_of_error hcut
    refine ⟨?_, fun hcounts => ?_⟩
    · rw [hafter]
      exact .release hdropped hleads
    · rw [hafter]
      cases halt with
      | stalled =>
        have hR : Patient R := hcounts ⟨w₂, hcut⟩
        exact hR.stall hheld hdropped hstill (hserved .of_patient)
      | panic payload => exact absurd rfl ((Handle.exists_halted_of_serveDetached hrest).1 payload)
      | unwind signal =>
        refine Notes.cut hheld hdropped hstill hattends (hserved ?_) hcut
        rintro ⟨w', hw'⟩
        cases hrest.symm.trans hw'

variable [Roams L]

namespace World

variable {w : World} {h : HandleId}

/-- Work is handed to another thread only if several threads act. -/
theorem covers_submit (howner : w.onOwner h = false) (work : Work) (reply : Option ReplyId) :
    R w (w.submit h work reply).2 := by
  by_cases hsolo : w.Solo
  · have hnone : w.handles.get? h = none := by
      cases hhandle : w.handles.get? h with
      | none => rfl
      | some handle =>
        rw [onOwner, hhandle] at howner
        exact absurd (hsolo.owner h _ (standing?_of_get? hhandle)) (of_decide_eq_false howner)
    have hsame : (w.submit h work reply).2 = w := by
      rw [submit, hnone]
      split <;> rfl
    rw [hsame]
    exact Tracks.refl w
  · exact Follows.foreign hsolo
      (Roams.stands (w.stands_submit h work reply) (w.still_submit h work reply)
        (w.attends_submit h work reply))

end World

namespace Handle

/-- When the last holder of a handle goes on another thread than its owner, the owner is told, or if
it ended, the work that was left is lost. -/
theorem rel_vanish {w : World} {h : HandleId} {handle : Handle}
    (hhandle : (w.unhold h).handles.get? h = some handle)
    (hgone : (handle.exists || handle.deleted) = false)
    (howner : (w.dropped h handle).onOwner h = false) : L w ((release e h).after w) := by
  have hheld : (w.unhold h).Gone h :=
    ⟨handle.standing, World.standing?_of_get? hhandle, (Bool.or_eq_false_iff.1 hgone).1⟩
  have hletGo : L w
      ((w.dropped h handle).post handle.owner (.release h handle.mailbox.takeAll.1)) :=
    Roams.letGo hheld (w.rests_dropped h handle) (w.still_dropped h handle)
      (World.attends_dropped hhandle hgone) _ _
  have hrun := (release_of_gone (e := e) hhandle hgone).trans (vanish_eq e w h handle)
  rw [howner, if_neg Bool.false_ne_true] at hrun
  by_cases hthere : (w.dropped h handle).isRegistered handle.owner = true
  · rw [if_pos hthere] at hrun
    rw [Act.after, hrun]
    exact hletGo
  · rw [if_neg hthere] at hrun
    have habsent : (w.dropped h handle).threads.get? handle.owner = none := by
      rwa [World.isRegistered, Table.contains, Option.not_isSome_iff_eq_none] at hthere
    rw [World.post_of_absent habsent] at hletGo
    rw [Act.after, hrun]
    exact Follows.trans hletGo
      (Tracks.settle (World.rests_loseReplies _ _) (World.still_loseReplies _ _)
        (World.attends_loseReplies _ _))

/-- The last holder of a handle goes. -/
theorem movesFrom_release_of_gone (he : e.Moves R) {w : World} {h : HandleId} {handle : Handle}
    (hhandle : (w.unhold h).handles.get? h = some handle)
    (hgone : (handle.exists || handle.deleted) = false) : (release e h).MovesFrom R w := by
  by_cases howner : (w.dropped h handle).onOwner h = true
  · exact fun htidy => arrives_release_of_owner he htidy hhandle hgone howner
  · rw [Bool.not_eq_true] at howner
    exact .of_rel (Follows.foreign (World.not_solo_of_dropped hhandle howner)
      (rel_vanish hhandle hgone howner))

theorem moves_release (he : e.Moves R) (h : HandleId) : (release e h).Moves R := by
  intro w
  by_cases hstays : ∀ handle, (w.unhold h).handles.get? h = some handle →
      (handle.exists || handle.deleted) = true
  · refine .of_after (Act.after_of_ok (release_of_stays hstays)) (Follows.unhold fun s hs => ?_)
    obtain ⟨handle, hhandle, rfl⟩ := Option.map_eq_some_iff.1 hs
    exact Bool.or_eq_true_iff.1 (hstays handle hhandle)
  · obtain ⟨handle, hnot⟩ := not_forall.1 hstays
    obtain ⟨hhandle, hgone⟩ := Classical.not_imp.1 hnot
    exact movesFrom_release_of_gone he hhandle (Bool.eq_false_iff.2 hgone)

theorem moves_releaseAnswer (he : e.Moves R) (abandoned : Bool) (envelope : Envelope) :
    (releaseAnswer e abandoned envelope).Moves R := by
  unfold releaseAnswer
  split
  · split
    · exact moves_release he _
    · exact .pure _
  · exact .pure _

/-- The owner of a handle hears of work, and does it if there is any. -/
theorem movesFrom_serveOne (he : e.Moves R) {w : World} {flags : EventFlags}
    {a : Agenda Event Handler} {h : HandleId}
    (hnext : w.agenda.next? flags w.clock = some (.event (.serve h), a)) :
    (MonadStateOf.set (w.takeOff a) >>= fun _ => serveOne e h : Act Unit).MovesFrom R w := by
  intro htidy
  have hrun : (MonadStateOf.set (w.takeOff a) >>= fun _ => serveOne e h : Act Unit) w =
      serveOne e h (w.takeOff a) := rfl
  cases htake : (w.takeOff a).takeWork? h with
  | none =>
    have hdone : serveOne e h (w.takeOff a) = .ok () (w.takeOff a) := by
      rw [serveOne, Act.get_bind, htake]
      rfl
    refine Act.MovesFrom.of_after (Act.after_of_ok (hrun.trans hdone)) ?_ htidy
    exact Tracks.serve hnext ⟨rfl, rfl, rfl, rfl⟩ (World.attends_takeOff_of_idle hnext htake)
  | some taken =>
    obtain ⟨queued, w₁⟩ := taken
    have hserve := hrun.trans (serveOne_of_takeWork? htake)
    have htaken : Leads w w₁ := Covers.takeServed (R := Leads) hnext htake
    obtain ⟨hleads, hserved⟩ := moves_executeQueued he h queued.work w₁ (htaken.tidy htidy)
    rw [Act.after] at hleads hserved
    cases hexecute : executeQueued e h queued.work w₁ with
    | ok result w₂ =>
      rw [hexecute] at hleads hserved
      have hanswered : R w ((w₂.finishWork h result.1.failed).answerQueued queued result.1) :=
        Tracks.attend hnext htake (hserved (.of_ok hexecute)) _ _
      have hrest := (Act.bind_of_ok hexecute _).trans (finishServed_eq e h queued result w₂)
      refine .of_eq (hserve.trans hrest) (Follows.leads hanswered) (fun _ => hanswered) ?_
      refine Act.Moves.bind (moves_releaseAnswer he _ _) (fun _ => .bind (moves_release he h) fun _ => ?_)
        _ ((Follows.leads hanswered).tidy htidy)
      split
      · exact .raise _
      · exact .pure _
    | error halt w₂ =>
      rw [hexecute] at hleads hserved
      have hcut := hserve.trans (Act.bind_of_error hexecute _)
      refine ⟨?_, fun hcounts => ?_⟩
      · rw [Act.after_of_error hcut]
        exact htaken.trans hleads
      · rw [Act.after_of_error hcut]
        obtain rfl := eq_stalled_of_executeQueued hexecute
        have hR : Patient R := hcounts ⟨w₂, hcut⟩
        exact Tracks.stall hR hnext htake (hserved .of_patient)

/-! ### Calls -/

theorem moves_abandon (he : e.Moves R) (r : ReplyId) : (abandon e r).Moves R := by
  have hgiveUp (w : World) :
      R w { w with replies := w.replies.modify r fun reply => { reply with abandoned := true } } := by
    refine Tracks.settle (.of_tables_eq rfl) (.of_scenery_eq rfl) (World.attends_modifyReply ?_ w r)
    exact fun _ => rfl
  refine .bind (.modify hgiveUp) fun _ => .get_bind fun w => ?_
  split
  · exact moves_release he _ w
  · exact .refl w rfl

theorem moves_settleReply (he : e.Moves R) (h : HandleId) (r : ReplyId) (deadline : Option Time) :
    (settleReply e h r deadline).Moves R := by
  refine .get_bind fun w => ?_
  split
  · exact .refl w rfl
  · exact Act.Moves.bind (moves_abandon he r) (fun _ => .pure _) w
  · exact Act.Moves.bind (moves_abandon he r) (fun _ => .pure _) w

theorem moves_awaitReply (he : e.Moves R) (h : HandleId) (r : ReplyId) :
    (awaitReply e h r).Moves R :=
  .get_bind fun w =>
    Act.Moves.bind (moves_waitUntil he _ _ _) (fun _ => moves_settleReply he h r _) w

theorem movesFrom_submitForReply {w : World} {h : HandleId} (howner : w.onOwner h = false)
    (work : Work) : (submitForReply h work).MovesFrom R w := by
  have hreply : R w w.newReply.2 :=
    Tracks.settle (.of_tables_eq rfl) (.of_scenery_eq rfl) w.attends_newReply
  have howner' : w.newReply.2.onOwner h = false := howner
  exact .of_rel (Follows.trans hreply (World.covers_submit howner' work (some w.newReply.1)))

theorem moves_enqueue (he : e.Moves R) (h : HandleId) (work : Work) (wait : Bool) :
    (enqueue e h work wait).Moves R := by
  refine .get_bind fun w => ?_
  split
  · exact .refl w rfl
  · split
    · exact Act.Moves.bind (moves_executeHere he h work) (fun _ => .pure _) w
    · next hnot =>
      have howner := Bool.eq_false_iff.2 hnot
      split
      · refine .bind (movesFrom_submitForReply howner work) fun submitted w' _ => ?_
        refine Act.Moves.bind (moves_escalate _) (fun submitted => ?_) w'
        cases submitted with
        | error error => exact .pure _
        | ok r =>
          refine .bind (moves_awaitReply he h r) fun reply => .bind (moves_escalate _) fun reply => ?_
          split
          · exact .pure _
          · split
            · refine .get_bind fun w => ?_
              split
              · exact Act.Moves.beginUnwind _ w
              · exact .refl w rfl
            · exact .pure _
      · refine .set_bind (World.covers_submit howner work none) ?_
        refine Act.Moves.bind (moves_escalate _) (fun submitted => ?_) _
        cases submitted with
        | error error => exact .pure _
        | ok _ => exact .pure _

theorem moves_enqueueAsync (he : e.Moves R) (h : HandleId) (work : Work) :
    (enqueueAsync e h work).Moves R := by
  refine .get_bind fun w => ?_
  split
  · exact .refl w rfl
  · split
    · exact Act.Moves.bind (moves_executeHere he h work) (fun _ => .pure _) w
    · next hnot =>
      have howner := Bool.eq_false_iff.2 hnot
      refine .bind (movesFrom_submitForReply howner work) fun submitted w' _ => ?_
      cases submitted with
      | error error => exact .pure _ _
      | ok r => exact moves_awaitReply he h r w'

theorem moves_request (he : e.Moves R) (h : HandleId) (work : Work) (awaited : Bool) :
    (request e h work awaited).Moves R := by
  rw [request]
  split
  · exact moves_enqueueAsync he h work
  · refine .bind (moves_enqueue he h work true) fun envelope => ?_
    cases envelope with
    | error error => exact .pure _
    | ok envelope => exact .pure _

theorem moves_run (he : e.Moves R) (h : HandleId) (work : Work) : (run e h work).Moves R :=
  .bind (moves_request he h work false) fun _ => .pure _

theorem moves_evaluate (he : e.Moves R) (h : HandleId) (script : String) :
    (evaluate e h script).Moves R :=
  .bind (moves_run he h _) fun _ => .pure _

theorem moves_invoke (he : e.Moves R) (h : HandleId) (words : List String) :
    (invoke e h words).Moves R := by
  rw [invoke]
  split
  · exact .pure _
  · exact .bind (moves_run he h _) fun _ => .pure _

theorem moves_evaluateOutcome (he : e.Moves R) (h : HandleId) (script : String) :
    (evaluateOutcome e h script).Moves R :=
  .bind (moves_run he h _) fun _ => .pure _

end Handle

/-! ### Host closures -/

namespace Closure

theorem moves_run (he : e.Moves R) (args : List String) (closure : Closure) :
    (closure.run e args).Moves R := by
  cases closure with
  | outcome o => exact .pure _
  | value v => exact .pure _
  | count => exact .pure _
  | join separator => exact .pure _
  | double => exact .pure _
  | exit => exact .pure _
  | log => exact .bind (.modify fun w => Tracks.same rfl) fun _ => .pure _
  | inCallback => exact .get_bind fun w => .refl w rfl
  | panic payload => exact .halt _
  | switch cases other =>
    unfold run
    dsimp only
    split
    · exact he _
    · exact .pure _
  | seq parts => exact moves_runAll he args _ parts
  | eval name script ignore =>
    exact .bind (moves_target name) fun h => .bind (Handle.moves_evaluate he h script) fun _ =>
      .pure _
  | evalOutcome name script ignore =>
    exact .bind (moves_target name) fun h =>
      .bind (Handle.moves_evaluateOutcome he h script) fun _ => .pure _
  | invokeArgs name =>
    exact .bind (moves_target name) fun h => .bind (Handle.moves_invoke he h args) fun _ => .pure _
  | register name closure =>
    exact .bind (moves_target name) fun h => .bind (Handle.moves_register h closure) fun _ =>
      .pure _
  | unregister name id =>
    exact .bind (moves_target name) fun h => .bind (Handle.moves_unregister h id) fun _ => .pure _
  | delete name =>
    exact .bind (moves_target name) fun h => .bind (.modify fun w => Follows.deleteHandle w h)
      fun _ => .pure _
  | drop name =>
    exact .bind (moves_target name) fun h => .bind (.modify fun w => Tracks.same rfl) fun _ =>
      .bind (Handle.moves_release he h) fun _ => .pure _
  | stopLoop name =>
    exact .bind (moves_target name) fun h => .bind (Handle.moves_stopLoop h) fun _ => .pure _
  | stopGlobal => exact .bind Hub.moves_stopLoop fun _ => .pure _
  | interrupt => exact .bind Hub.moves_interrupt fun _ => .pure _

end Closure

end ScriptHost
