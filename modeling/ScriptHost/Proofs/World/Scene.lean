import ScriptHost.Proofs.World.Agendas

/-!
# What is going on in a world

The trace, the thread that is running, the threads that are under way and the host closures that each
of them runs: only code that runs changes these. What it does to interpreters, handles and agendas
leaves them alone.
-/

namespace ScriptHost.World

variable {w w' : World}

/-- How many host closures run on a thread, if it is there. -/
def callbacksOf (w : World) (t : ThreadId) : Option Nat :=
  (w.threads.get? t).map (·.callbackDepth)

/-- What happened so far, the thread that is running, the threads that are under way, and the host
closures that run. -/
def scene (w : World) : List Incident × ThreadId × List ThreadId × (ThreadId → Option Nat) :=
  (w.trace, w.current, w.engaged, w.callbacksOf)

theorem current_of_scene_eq {w w' : World} (h : w'.scene = w.scene) : w'.current = w.current :=
  congrArg (·.2.1) h

theorem scene_foldl {α : Type} {f : World → α → World} (hf : ∀ w a, (f w a).scene = w.scene)
    (as : List α) (w : World) : (as.foldl f w).scene = w.scene := by
  induction as generalizing w with
  | nil => rfl
  | cons a as ih => rw [List.foldl_cons, ih, hf]

/-! ### Interpreters, handles, threads and loops -/

@[simp]
theorem scene_modifyInterp (w : World) (i : InterpId) (f : Interpreter → Interpreter) :
    (w.modifyInterp i f).scene = w.scene := rfl

@[simp]
theorem scene_modifyHandle (w : World) (h : HandleId) (f : Handle → Handle) :
    (w.modifyHandle h f).scene = w.scene := rfl

@[simp]
theorem scene_modifyLoop (w : World) (l : LoopId) (f : Loop → Loop) :
    (w.modifyLoop l f).scene = w.scene := rfl

@[simp]
theorem scene_unregister (w : World) (h : HandleId) : (w.unregister h).scene = w.scene := rfl

@[simp]
theorem scene_answer (w : World) (r : ReplyId) (envelope : Envelope) :
    (w.answer r envelope).scene = w.scene := rfl

/-- A thread may change apart from the closures that it runs. -/
theorem scene_modifyThread {f : Thread → Thread}
    (hf : ∀ thread, (f thread).callbackDepth = thread.callbackDepth) (w : World) (t : ThreadId) :
    (w.modifyThread t f).scene = w.scene := by
  have hcallbacks : (w.modifyThread t f).callbacksOf = w.callbacksOf := by
    funext t'
    rw [callbacksOf, modifyThread, Table.get?_modify]
    split
    · rw [Option.map_map, callbacksOf]
      congr 1
      funext thread
      exact hf thread
    · rfl
  rw [scene, hcallbacks]
  rfl

@[simp]
theorem scene_modifyAgenda (w : World) (t : ThreadId)
    (f : Agenda Event Handler → Agenda Event Handler) :
    (w.modifyAgenda t f).scene = w.scene := by
  apply scene_modifyThread
  intro thread
  rfl

@[simp]
theorem scene_setAgenda (w : World) (a : Agenda Event Handler) :
    (w.setAgenda a).scene = w.scene :=
  scene_modifyAgenda w _ _

@[simp]
theorem scene_post (w : World) (t : ThreadId) (event : Event) :
    (w.post t event).scene = w.scene := by
  rw [post, alert, scene_modifyAgenda, scene_modifyAgenda]

theorem scene_alertAll (w : World) : w.alertAll.scene = w.scene :=
  scene_foldl (fun w t => scene_modifyAgenda w t _) _ w

@[simp]
theorem scene_answerQueued (w : World) (queued : Queued) (envelope : Envelope) :
    (w.answerQueued queued envelope).scene = w.scene := by
  rw [answerQueued]
  split <;> rfl

theorem scene_loseReplies (w : World) (pending : List Queued) :
    (w.loseReplies pending).scene = w.scene := by
  refine scene_foldl (fun w queued => ?_) pending w
  split <;> rfl

@[simp]
theorem scene_drainMailbox (w : World) (h : HandleId) (error : HostError) :
    (w.drainMailbox h error).scene = w.scene := by
  rw [drainMailbox]
  split
  · rfl
  · exact scene_foldl (fun w queued => scene_answerQueued w queued _) _ _

@[simp]
theorem scene_markDeleted (w : World) (h : HandleId) : (w.markDeleted h).scene = w.scene := by
  rw [markDeleted]
  split
  · rfl
  · split
    · rfl
    · exact scene_drainMailbox _ h _

theorem scene_submit (w : World) (h : HandleId) (work : Work) (reply : Option ReplyId) :
    (w.submit h work reply).2.scene = w.scene := by
  rw [submit]
  split
  · rfl
  · split
    · rfl
    · dsimp only
      split
      · dsimp only
        split <;> simp
      · exact scene_drainMailbox _ h _

/-! ### Deletions -/

@[simp]
theorem scene_untrack (w : World) (h : HandleId) : (w.untrack h).scene = w.scene := by
  rw [untrack]
  simp only [scene_modifyHandle]
  split
  · split
    · exact scene_markDeleted _ h
    · rfl
  · rfl

theorem scene_cancelAfter (w : World) (token : AfterToken) : (w.cancelAfter token).scene = w.scene := by
  cases token <;> exact scene_setAgenda _ _

theorem scene_cancelAfters (w : World) (i : InterpId) : (w.cancelAfters i).scene = w.scene := by
  rw [cancelAfters, scene_foldl scene_cancelAfter]
  rfl

theorem scene_detach (w : World) (r : Interpreter) : (w.detach r).scene = w.scene := by
  rw [detach]
  split <;> rfl

theorem scene_runDeleteHook {delete : InterpId → World → World}
    (hdelete : ∀ i w, (delete i w).scene = w.scene) (self : InterpId) (hook : DeleteHook) (w : World) :
    (runDeleteHook delete self hook w).scene = w.scene := by
  induction hook generalizing self w with
  | log label =>
    rw [runDeleteHook]
    rfl
  | untrack h =>
    rw [runDeleteHook]
    exact scene_untrack w h
  | delete i =>
    rw [runDeleteHook]
    exact hdelete i w
  | watch i hook ih =>
    rw [runDeleteHook]
    split
    · exact ih i w
    · rfl

theorem scene_deleteTree (fuel : Nat) (i : InterpId) (w : World) :
    (deleteTree fuel i w).scene = w.scene := by
  induction fuel generalizing i w with
  | zero => rfl
  | succ fuel ih =>
    rw [deleteTree]
    dsimp only
    split
    · rfl
    · rw [scene_modifyInterp, runDeleteHooks, scene_foldl fun w hook =>
        scene_runDeleteHook ih i hook w]
      rw [scene_modifyInterp, scene_cancelAfters, scene_detach, scene_foldl fun w child => ih child w]
      rfl

@[simp]
theorem scene_delete (w : World) (i : InterpId) : (w.delete i).scene = w.scene :=
  scene_deleteTree _ i w

theorem scene_deleteInterp (w : World) (i : InterpId) : (w.deleteInterp i).scene = w.scene := by
  rw [deleteInterp]
  split <;> simp

@[simp]
theorem scene_giveUp (w : World) (h : HandleId) : (w.giveUp h).scene = w.scene := by
  rw [giveUp]
  split
  · next i w' hw =>
    obtain ⟨-, rfl⟩ := Prod.mk.inj hw
    exact scene_deleteInterp _ i
  · next w' hw =>
    obtain ⟨-, rfl⟩ := Prod.mk.inj hw
    rfl

theorem scene_deleteHandle (w : World) (h : HandleId) : (w.deleteHandle h).scene = w.scene := by
  rw [deleteHandle]
  split
  · rfl
  · split
    · rfl
    · split <;> simp

theorem scene_discard (w : World) (h : HandleId) : (w.discard h).scene = w.scene := by
  rw [discard]
  split
  · rfl
  · split
    · rfl
    · exact scene_giveUp _ h

theorem scene_answerDetached (w : World) (queued : Queued) (envelope : Envelope) :
    (w.answerDetached queued envelope).scene = w.scene := by
  unfold answerDetached
  split
  · split
    · rw [scene_discard, scene_answerQueued]
    · exact scene_answerQueued w queued _
  · exact scene_answerQueued w queued _

/-! ### Making interpreters and handles -/

theorem scene_callWhenDeleted (w : World) (i : InterpId) (hook : DeleteHook) :
    (w.callWhenDeleted i hook).scene = w.scene :=
  scene_runDeleteHook (fun i w => scene_delete w i) i _ w

theorem scene_adopt (w : World) (i : InterpId) (config : HandleConfig) :
    (w.adopt i config).2.scene = w.scene := by
  have hlist (w : World) (h : HandleId) : (w.track h).scene = w.scene := rfl
  rw [adopt, hlist, scene_callWhenDeleted]
  rfl

theorem scene_runChildHook (child : InterpId) (w : World) (hook : ChildHook) :
    (runChildHook child w hook).scene = w.scene := by
  cases hook with
  | log label => rfl
  | adopt config => exact scene_adopt w child _

theorem scene_createChild (w : World) (p : InterpId) (name : String) (safe : Bool) :
    (w.createChild p name safe).2.scene = w.scene := by
  rw [createChild]
  dsimp only
  split
  · rfl
  · split
    · rfl
    · split
      · rfl
      · rw [scene_foldl fun w hook => scene_runChildHook _ w hook]
        rfl

/-! ### Pending work -/

theorem scene_scheduleAfter (w : World) (i : InterpId) (delay : Option Nat) (script : String) :
    (w.scheduleAfter i delay script).2.scene = w.scene := by
  cases delay <;> exact scene_setAgenda w _

theorem scene_takeAfter (w : World) (i : InterpId) (id : String) :
    (w.takeAfter i id).2.scene = w.scene := rfl

theorem scene_armKeepalive (w : World) (l : LoopId) : (w.armKeepalive l).scene = w.scene := by
  rcases armKeepalive_cases w l with hforgets | ⟨_, _, -, -, hadds⟩
  · rw [hforgets]
    rfl
  · rw [hadds]
    exact scene_setAgenda _ _

theorem scene_ensureArmed (w : World) (l : LoopId) : (w.ensureArmed l).scene = w.scene := by
  rw [ensureArmed]
  split
  · rfl
  · exact scene_armKeepalive w l

theorem scene_stopKeepalive (w : World) (l : LoopId) : (w.stopKeepalive l).scene = w.scene := by
  rcases stopKeepalive_cases w l with hforgets | ⟨_, _, -, -, hcancels⟩
  · rw [hforgets]
    rfl
  · rw [hcancels]
    exact scene_setAgenda _ _

theorem scene_takeWork? {h : HandleId} {queued : Queued}
    (htake : w.takeWork? h = some (queued, w')) : w'.scene = w.scene := by
  rw [takeWork?] at htake
  split at htake
  · cases htake
  · split at htake
    · obtain ⟨⟨_, mailbox⟩, -, hw⟩ := Option.map_eq_some_iff.1 htake
      cases hw
      rfl
    · cases htake

/-! ### The end of a thread -/

theorem scene_deleteOrphans (w : World) (t : ThreadId) : (w.deleteOrphans t).scene = w.scene := by
  refine scene_foldl (fun w orphan => ?_) _ w
  exact scene_delete (w.takeInterp orphan.1).2 orphan.2

theorem scene_unpinAll (w : World) (t : ThreadId) : (w.unpinAll t).scene = w.scene := by
  refine scene_foldl (fun w entry => ?_) _ w
  dsimp only
  split <;> rfl

end ScriptHost.World
