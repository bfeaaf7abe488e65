import ScriptHost.Proofs.Run.Leads

/-!
# Changes of a world as runs of the machine
-/

namespace ScriptHost.World

open Run

/-! ### Making interpreters and handles -/

theorem leads_defineCommand (w : World) (i : InterpId) (name : String) (command : Command) :
    Leads w (w.defineCommand i name command) :=
  .edit (.define name command) w i

theorem leads_runDeleteHook (self : InterpId) (hook : DeleteHook) (w : World) :
    Leads w (runDeleteHook (fun j w => w.delete j) self hook w) := by
  induction hook generalizing self with
  | log label =>
    rw [runDeleteHook]
    exact .rest rfl
  | untrack h =>
    rw [runDeleteHook]
    exact .rest (interpreters_untrack w h)
  | delete i =>
    rw [runDeleteHook]
    exact .delete w i
  | watch i hook ih =>
    rw [runDeleteHook]
    split
    · exact ih i
    · exact .edit (.onDelete hook) w i

theorem leads_callWhenDeleted (w : World) (i : InterpId) (hook : DeleteHook) :
    Leads w (w.callWhenDeleted i hook) :=
  leads_runDeleteHook i (.watch i hook) w

theorem leads_adopt (w : World) (i : InterpId) (config : HandleConfig) :
    Leads w (w.adopt i config).2 := by
  refine .trans ?_ (.rest (interpreters_track _ _))
  refine .trans ?_ (leads_callWhenDeleted _ i _)
  refine .trans ?_ (.edit (.onChild (.adopt config)) _ i)
  refine .trans ?_ (leads_defineCommand _ i _ _)
  refine .trans ?_ (leads_defineCommand _ i _ _)
  exact .rest (interpreters_addHandle w i config)

theorem leads_runChildHook (child : InterpId) (w : World) (hook : ChildHook) :
    Leads w (runChildHook child w hook) := by
  cases hook with
  | log label => exact .rest rfl
  | adopt config => exact (leads_adopt w child _).trans (.rest rfl)

theorem leads_createChild (w : World) (parent : InterpId) (name : String) (safe : Bool) :
    Leads w (w.createChild parent name safe).2 := by
  rw [createChild]
  dsimp only
  split
  · exact .refl w
  · split
    · exact .refl w
    · split
      · exact .refl w
      · have hcreate := Leads.create w name (safe || (w.interp parent).safe) (some parent)
        refine hcreate.trans ?_
        refine .trans ?_ (.foldl (leads_runChildHook _) _ _)
        exact .edit (.addChild name _) _ parent

/-! ### Scheduled scripts -/

theorem leads_scheduleAfter (w : World) (i : InterpId) (delay : Option Nat) (script : String) :
    Leads w (w.scheduleAfter i delay script).2 := by
  cases delay with
  | some ms =>
    refine .trans (.rest ?_) (.edit (.schedule _ _) _ i)
    exact interpreters_setAgenda w _
  | none =>
    refine .trans (.rest ?_) (.edit (.schedule _ _) _ i)
    exact interpreters_setAgenda w _

theorem leads_takeAfter (w : World) (i : InterpId) (id : String) : Leads w (w.takeAfter i id).2 :=
  .edit (.unschedule id) w i

/-- Cancel a scheduled script. -/
def unschedule (w : World) (i : InterpId) (id : String) : World :=
  (w.takeAfter i id).1.elim (w.takeAfter i id).2 (w.takeAfter i id).2.cancelAfter

theorem leads_unschedule (w : World) (i : InterpId) (id : String) :
    Leads w (w.unschedule i id) := by
  refine (leads_takeAfter w i id).trans (.rest ?_)
  rw [unschedule]
  cases (w.takeAfter i id).1 with
  | none => rfl
  | some token => exact interpreters_cancelAfter _ token

/-! ### Giving interpreters up -/

theorem leads_deleteInterp (w : World) (i : InterpId) : Leads w (w.deleteInterp i) := by
  rw [deleteInterp]
  split
  · exact .rest rfl
  · exact .delete w i

theorem leads_takeInterp (w : World) (h : HandleId) : Leads w (w.takeInterp h).2 :=
  .rest (interpreters_modifyHandle w h _)

theorem leads_giveUp (w : World) (h : HandleId) : Leads w (w.giveUp h) := by
  have htake := leads_takeInterp w h
  rw [giveUp]
  split
  · next i w' hw =>
    rw [hw] at htake
    exact htake.trans (leads_deleteInterp w' i)
  · next w' hw =>
    rw [hw] at htake
    exact htake

theorem leads_deleteHandle (w : World) (h : HandleId) : Leads w (w.deleteHandle h) := by
  rw [deleteHandle]
  split
  · exact .refl w
  · split
    · exact .refl w
    · split
      · exact (leads_giveUp w h).trans (.rest (interpreters_markDeleted _ h))
      · refine .rest ?_
        rw [interpreters_post, interpreters_markDeleted]

theorem leads_deleteOrphans (w : World) (t : ThreadId) : Leads w (w.deleteOrphans t) := by
  refine .foldl (fun w orphan => ?_) _ w
  exact (leads_takeInterp w orphan.1).trans (.delete _ orphan.2)

theorem interpreters_unpinAll (w : World) (t : ThreadId) :
    (w.unpinAll t).interpreters = w.interpreters := by
  refine interpreters_foldl (fun w entry => ?_) _ w
  dsimp only
  split <;> rfl

theorem leads_endThread (w : World) (t : ThreadId) : Leads w (w.endThread t) := by
  have henter : Leads w { w with current := t } := .rest rfl
  refine (henter.trans (leads_deleteOrphans _ t)).trans (.rest ?_)
  have hunpin := interpreters_unpinAll ({ w with current := t }.deleteOrphans t) t
  exact (interpreters_loseReplies _ _).trans hunpin

end ScriptHost.World
