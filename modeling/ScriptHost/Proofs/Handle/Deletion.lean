import ScriptHost.Proofs.Handle.Orderly
import ScriptHost.Proofs.World.Scripts

/-!
# Deletions and the order among handles

A deletion takes every handle off the ledger whose interpreter it deletes, and it changes no other
entry. It posts and serves no event. So it keeps the order among handles, interpreters and events,
and so does giving an interpreter up, apart from the handle whose interpreter that was.
-/

namespace ScriptHost

/-! ### The ledger in a deletion -/

namespace Standing

theorem held_of_untracked {s : Standing} (hs : s.untracked.held = true) : s.held = true := by
  simp only [held, untracked, Bool.false_or] at hs
  simp only [held, Bool.or_eq_true]
  exact .inr hs

theorem untracked_untracked (s : Standing) : s.untracked.untracked = s.untracked := by
  have hdeleted : (s.untracked.deleted || s.untracked.held) = s.untracked.deleted := by
    cases hheld : s.untracked.held with
    | false => exact Bool.or_false _
    | true => simp [untracked, held_of_untracked hheld]
  rw [untracked, hdeleted]
  rfl

theorem ages_untracked (s : Standing) : s.Ages s.untracked := by
  constructor
  · rfl
  · intro hs
    simp [untracked, hs]
  · intro hs
    simp only [held, Bool.or_eq_false_iff] at hs
    simp [untracked, held, hs]
  · exact .inr rfl

end Standing

/-- Whether one of some hooks took a handle off the ledger. -/
def takesOff (h : HandleId) (ran : List HookRun) : Bool :=
  ran.any fun run => run.hook = .untrack h

@[simp]
theorem takesOff_nil (h : HandleId) : takesOff h [] = false := rfl

@[simp]
theorem takesOff_cons (h : HandleId) (run : HookRun) (ran : List HookRun) :
    takesOff h (run :: ran) = (decide (run.hook = .untrack h) || takesOff h ran) :=
  List.any_cons

@[simp]
theorem takesOff_append (h : HandleId) (ran ran' : List HookRun) :
    takesOff h (ran ++ ran') = (takesOff h ran || takesOff h ran') :=
  List.any_append

theorem takesOff_iff {h : HandleId} {ran : List HookRun} :
    takesOff h ran = true ↔ ∃ run ∈ ran, run.hook = .untrack h := by
  simp [takesOff]

namespace World

variable {w u w' : World} {h : HandleId} {i : InterpId}

/-- No event is posted or served, and no handle and no thread comes or goes. -/
structure Quiet (w w' : World) : Prop where
  keys : w'.handles.keys = w.handles.keys
  nextHandle : w'.hub.nextHandle = w.hub.nextHandle
  current : w'.current = w.current
  nextThread : w'.nextThread = w.nextThread
  registered : ∀ t, w'.isRegistered t = w.isRegistered t
  events : ∀ t, (w'.agendaOf t).events = (w.agendaOf t).events

theorem Quiet.trans (h : Quiet w u) (h' : Quiet u w') : Quiet w w' where
  keys := h'.keys.trans h.keys
  nextHandle := h'.nextHandle.trans h.nextHandle
  current := h'.current.trans h.current
  nextThread := h'.nextThread.trans h.nextThread
  registered t := (h'.registered t).trans (h.registered t)
  events t := (h'.events t).trans (h.events t)

theorem Quiet.of_threading_eq (hkeys : w'.handles.keys = w.handles.keys)
    (hnext : w'.hub.nextHandle = w.hub.nextHandle) (h : w'.threading = w.threading) :
    Quiet w w' := by
  simp only [threading, Prod.mk.injEq] at h
  obtain ⟨hthreads, hcurrent, hnextThread, -⟩ := h
  constructor
  case keys => exact hkeys
  case nextHandle => exact hnext
  case current => exact hcurrent
  case nextThread => exact hnextThread
  case registered =>
    intro t
    rw [isRegistered, hthreads, isRegistered]
  case events =>
    intro t
    rw [agendaOf, hthreads, agendaOf]

theorem Quiet.refl (w : World) : Quiet w w :=
  .of_threading_eq rfl rfl rfl

theorem Quiet.foldl {α : Type} {f : World → α → World} (hf : ∀ w a, Quiet w (f w a))
    (as : List α) (w : World) : Quiet w (as.foldl f w) := by
  induction as generalizing w with
  | nil => exact .refl w
  | cons a as ih => exact (hf w a).trans (ih (f w a))

theorem quiet_modifyInterp (w : World) (i : InterpId) (f : Interpreter → Interpreter) :
    Quiet w (w.modifyInterp i f) :=
  .of_threading_eq rfl rfl rfl

theorem quiet_setAgenda {a : Agenda Event Handler} (ha : a.events = w.agenda.events) :
    Quiet w (w.setAgenda a) where
  keys := rfl
  nextHandle := rfl
  current := rfl
  nextThread := rfl
  registered t := w.isRegistered_modifyThread w.current t _
  events := events_setAgenda ha

theorem quiet_cancelAfter (w : World) (token : AfterToken) : Quiet w (w.cancelAfter token) := by
  cases token with
  | timer token =>
    apply quiet_setAgenda
    rw [Agenda.cancelTimer]
    split <;> rfl
  | idle token => exact quiet_setAgenda rfl

theorem quiet_secede (w : World) (r : Interpreter) (i : InterpId) :
    Quiet w ((w.secede r i).disarm i) := by
  have hdetach : Quiet w (w.detach r) := by
    rw [detach]
    split
    · exact quiet_modifyInterp w _ _
    · exact .refl w
  have hcancel : Quiet (w.detach r) (w.secede r i) :=
    (quiet_modifyInterp _ i _).trans (.foldl quiet_cancelAfter _ _)
  exact (hdetach.trans hcancel).trans (quiet_modifyInterp _ i _)

theorem quiet_untrack (w : World) (h : HandleId) : Quiet w (w.untrack h) :=
  .of_threading_eq (amends_untrack w h).keys (amends_untrack w h).nextHandle (threading_untrack w h)

theorem standing?_cancelAfter (w : World) (token : AfterToken) :
    (w.cancelAfter token).standing? = w.standing? := by
  cases token <;> rfl

theorem standing?_secede (w : World) (r : Interpreter) (i : InterpId) :
    ((w.secede r i).disarm i).standing? = w.standing? := by
  have hdetach : (w.detach r).standing? = w.standing? := by
    rw [detach]
    split <;> rfl
  have hcancel (tokens : List AfterToken) (w : World) :
      (tokens.foldl cancelAfter w).standing? = w.standing? := by
    induction tokens generalizing w with
    | nil => rfl
    | cons token tokens ih => rw [List.foldl_cons, ih, standing?_cancelAfter]
  exact (hcancel _ _).trans hdetach

end World

namespace Removal

open World

variable {job : Removal} {ran : List HookRun} {w w' : World} {h : HandleId} {i : InterpId}

theorem Runs.quiet (hruns : Runs job w ran w') : Quiet w w' := by
  induction hruns with
  | gone | noTrees | noHooks => exact .refl _
  | @tree i w u v _ _ _ _ _ ih ih' =>
    have hu := (quiet_modifyInterp w i _).trans ih
    have hv := (hu.trans (quiet_secede u _ i)).trans ih'
    exact hv.trans (quiet_modifyInterp v i _)
  | trees _ _ ih ih' => exact ih.trans ih'
  | log => exact .of_threading_eq rfl rfl rfl
  | untrack => exact quiet_untrack _ _
  | delete _ ih => exact ih
  | install => exact quiet_modifyInterp _ _ _
  | late _ _ ih => exact ih
  | hooks _ _ ih ih' => exact ih.trans ih'

/-- A deletion changes the entries of the handles that its hooks take off the ledger. -/
theorem Runs.standing? (hruns : Runs job w ran w') (h : HandleId) :
    w'.standing? h =
      if takesOff h ran then (w.standing? h).map Standing.untracked else w.standing? h := by
  have htwice {ran ran' : List HookRun} {a b c : Option Standing}
      (hb : b = if takesOff h ran then a.map Standing.untracked else a)
      (hc : c = if takesOff h ran' then b.map Standing.untracked else b) :
      c = if takesOff h (ran ++ ran') then a.map Standing.untracked else a := by
    subst hb hc
    rw [takesOff_append]
    cases takesOff h ran <;> cases takesOff h ran' <;>
      simp [Function.comp_def, Standing.untracked_untracked]
  induction hruns with
  | gone | noTrees | noHooks | install => simp [World.standing?, modifyInterp]
  | log => simp [World.standing?, addLog]
  | @tree i w u v _ _ _ _ _ ih ih' =>
    rw [standing?_secede] at ih'
    exact htwice ih ih'
  | trees _ _ ih ih' => exact htwice ih ih'
  | @untrack _ k _ w =>
    rw [(amends_untrack w k).standing]
    simp
  | delete _ ih => simpa using ih
  | late _ _ ih => simpa using ih
  | hooks _ _ ih ih' => exact htwice ih ih'

theorem Runs.ripens (hruns : Runs job w ran w') : Ripens w w' := by
  refine .of_rel (fun h => ?_) hruns.quiet.nextHandle
  rw [hruns.standing? h]
  cases w.standing? h with
  | none => split <;> exact .none
  | some s =>
    split
    · exact .some s.ages_untracked
    · exact .some (.refl s)

/-! ### The hooks that are run -/

/-- The interpreter whose hooks are run by a part of a deletion is deleted already. -/
def Begun (w : World) : Removal → Prop
  | .tree _ => True
  | .trees _ => True
  | .hook i _ _ => (w.interp i).deleted = true
  | .hooks i _ => (w.interp i).deleted = true

/-- Whatever interpreter a hook is run for is deleted in the end. -/
theorem Runs.deleted_of_run (hruns : Runs job w ran w') (hjob : job.Begun w) :
    ∀ run ∈ ran, (w'.interp run.interp).deleted = true := by
  induction hruns with
  | gone | noTrees | noHooks => exact nofun
  | @tree i w u v ran ran' hlive hchildren hhooks ih ih' =>
    have hsecede := prunes_secede u (w.interp i) i
    have hwipe := deleted_modifyInterp (f := Interpreter.wipe) (fun r => rfl) v i
    intro run hrun
    rw [hwipe]
    rcases List.mem_append.1 hrun with hrun | hrun
    · exact (hsecede.trans hhooks.prunes).deleted (ih trivial run hrun)
    · exact ih' (hsecede.deleted (hchildren.prunes.deleted (deleted_condemn hlive))) run hrun
  | trees _ hrest ih ih' =>
    intro run hrun
    rcases List.mem_append.1 hrun with hrun | hrun
    · exact hrest.prunes.deleted (ih trivial run hrun)
    · exact ih' trivial run hrun
  | log =>
    intro run hrun
    rw [List.mem_singleton.1 hrun]
    exact hjob
  | @untrack i h late w =>
    intro run hrun
    rw [List.mem_singleton.1 hrun, interp_eq_of_interpreters_eq (interpreters_untrack w h)]
    exact hjob
  | @install i j hook late w hlive =>
    intro run hrun
    rw [List.mem_singleton.1 hrun, deleted_modifyInterp]
    · exact hjob
    · intro r
      rfl
  | delete hrest ih =>
    intro run hrun
    rcases List.mem_cons.1 hrun with rfl | hrun
    · exact hrest.prunes.deleted hjob
    · exact ih trivial run hrun
  | late hgone hhook ih =>
    intro run hrun
    rcases List.mem_cons.1 hrun with rfl | hrun
    · exact hhook.prunes.deleted hjob
    · exact ih hgone run hrun
  | hooks hfirst hrest ih ih' =>
    intro run hrun
    rcases List.mem_append.1 hrun with hrun | hrun
    · exact hrest.prunes.deleted (ih hjob run hrun)
    · exact ih' (hfirst.prunes.deleted hjob) run hrun

/-- The hooks that a part of a deletion is to run are as some predicate says. -/
def Meets (P : InterpId → DeleteHook → Prop) : Removal → Prop
  | .tree _ => True
  | .trees _ => True
  | .hook i h _ => P i h
  | .hooks i hs => ∀ h ∈ hs, P i h

/-- The hooks that are left when an interpreter has seceded were there before. -/
theorem mem_hooks_of_secede {hook : DeleteHook} {u : World} {r : Interpreter} {j : InterpId}
    (hmem : hook ∈ (((u.secede r i).disarm i).interp j).deleteHooks) :
    hook ∈ (u.interp j).deleteHooks := by
  rw [← deleteHooks_secede u r i j, ← deleteHooks_disarm (u.secede r i) i j]
  exact List.mem_append_right _ hmem

/-- All hooks that are run, and all that are left, come from those that were there. -/
theorem Runs.meets {P : InterpId → DeleteHook → Prop}
    (hP : ∀ i j hook, P i (.watch j hook) → P j hook) (hruns : Runs job w ran w')
    (hw : ∀ i, ∀ hook ∈ (w.interp i).deleteHooks, P i hook) (hjob : job.Meets P) :
    (∀ run ∈ ran, P run.interp run.hook) ∧
      ∀ i, ∀ hook ∈ (w'.interp i).deleteHooks, P i hook := by
  induction hruns with
  | gone | noTrees | noHooks => exact ⟨nofun, hw⟩
  | log =>
    refine ⟨fun run hrun => ?_, hw⟩
    rw [List.mem_singleton.1 hrun]
    exact hjob
  | @tree i w u v ran ran' hlive hchildren hhooks ih ih' =>
    have hcondemn := keeps_modifyInterp (·.deleteHooks) (f := Interpreter.condemn) (fun r => rfl) w i
    have hwipe := keeps_modifyInterp (·.deleteHooks) (f := Interpreter.wipe) (fun r => rfl) v i
    obtain ⟨hran, hu⟩ := ih (fun j hook hhook => hw j hook (by rwa [hcondemn] at hhook)) trivial
    obtain ⟨hran', hv⟩ := ih' (fun j hook hhook => hu j hook (mem_hooks_of_secede hhook))
      fun hook hhook => hu i hook (by rwa [deleteHooks_secede] at hhook)
    refine ⟨fun run hrun => ?_, fun j hook hhook => hv j hook (by rwa [hwipe] at hhook)⟩
    exact (List.mem_append.1 hrun).elim (hran run) (hran' run)
  | trees _ _ ih ih' =>
    obtain ⟨hran, hu⟩ := ih hw trivial
    obtain ⟨hran', hw'⟩ := ih' hu trivial
    refine ⟨fun run hrun => ?_, hw'⟩
    exact (List.mem_append.1 hrun).elim (hran run) (hran' run)
  | @untrack i h late w =>
    refine ⟨fun run hrun => ?_, fun j => ?_⟩
    · rw [List.mem_singleton.1 hrun]
      exact hjob
    · rw [interp_eq_of_interpreters_eq (interpreters_untrack w h)]
      exact hw j
  | delete _ ih =>
    obtain ⟨hran, hw'⟩ := ih hw trivial
    exact ⟨List.forall_mem_cons.2 ⟨hjob, hran⟩, hw'⟩
  | @install i j hook late w hlive =>
    refine ⟨fun run hrun => ?_, fun k hook' hhook' => ?_⟩
    · rw [List.mem_singleton.1 hrun]
      exact hjob
    · by_cases hjk : j = k
      · subst hjk
        rw [interp_modifyInterp_of_live hlive] at hhook'
        rcases List.mem_append.1 hhook' with hold | hnew
        · exact hw j hook' hold
        · rw [List.mem_singleton.1 hnew]
          exact hP i j hook hjob
      · rw [interp_modifyInterp_of_ne hjk] at hhook'
        exact hw k hook' hhook'
  | late _ _ ih =>
    obtain ⟨hran, hw'⟩ := ih hw (hP _ _ _ hjob)
    exact ⟨List.forall_mem_cons.2 ⟨hjob, hran⟩, hw'⟩
  | hooks _ _ ih ih' =>
    obtain ⟨hfirst, hrest⟩ := List.forall_mem_cons.1 hjob
    obtain ⟨hran, hu⟩ := ih hw hfirst
    obtain ⟨hran', hw'⟩ := ih' hu hrest
    refine ⟨fun run hrun => ?_, hw'⟩
    exact (List.mem_append.1 hrun).elim (hran run) (hran' run)

end Removal

namespace World

open Removal

variable {w u w' : World} {h : HandleId} {i j : InterpId} {ran ran' : List HookRun}
  {out : Set HandleId}

/-- A handle that a deletion did not take off the ledger is as it was. -/
theorem standing?_of_interp {s : Standing} {job : Removal} (hruns : Runs job w ran w')
    (hs : w'.standing? h = some s) (hi : s.interp.isSome = true) :
    w.standing? h = some s ∧ takesOff h ran = false := by
  rw [hruns.standing?] at hs
  cases hoff : takesOff h ran with
  | false =>
    rw [hoff] at hs
    exact ⟨hs, rfl⟩
  | true =>
    rw [hoff, if_pos rfl] at hs
    obtain ⟨s', -, rfl⟩ := Option.map_eq_some_iff.1 hs
    cases hi

/-- A hook that was not run is still there after the deletion. -/
theorem mem_deleteHooks_of_runs {hook : DeleteHook} (hruns : Runs (.tree i) w ran w')
    (hmem : hook ∈ (w.interp j).deleteHooks) :
    (∃ run ∈ ran, run.interp = j ∧ run.hook = hook) ∨ hook ∈ (w'.interp j).deleteHooks := by
  have hperm := (hruns.perm j).mem_iff.1 (List.mem_append_left _ hmem)
  refine (List.mem_append.1 hperm).imp_left fun hown => ?_
  rw [own, List.mem_map] at hown
  obtain ⟨run, hrun, hhook⟩ := hown
  rw [List.mem_filter, decide_eq_true_iff] at hrun
  exact ⟨run, hrun.1, hrun.2, hhook⟩

/-- A deletion keeps the order: it takes every handle off the ledger whose interpreter it deletes. -/
theorem Orderly.runs (hw : w.Orderly out) (hruns : Runs (.tree i) w ran w') : w'.Orderly out := by
  have hstrips := hruns.strips hw.trees.childless
  have hquiet := hruns.quiet
  have hripens := hruns.ripens
  obtain ⟨-, hfits⟩ := hruns.meets (P := w.HookFits) (fun _ _ _ hfits => hfits) hw.fits trivial
  have hbefore {k : HandleId} {s' : Standing} (hs' : w'.standing? k = some s') :
      ∃ s, w.standing? k = some s ∧ (s' = s ∨ s' = s.untracked) := by
    rw [hruns.standing?] at hs'
    split at hs'
    · obtain ⟨s, hs, rfl⟩ := Option.map_eq_some_iff.1 hs'
      exact ⟨s, hs, .inr rfl⟩
    · exact ⟨s', hs', .inl rfl⟩
  constructor
  case trees => exact (hruns.keeps hw.trees).1
  case numbered =>
    intro j hj
    rw [hruns.prunes.isSome_eq] at hj
    rw [hruns.prunes.next]
    exact hw.numbered j hj
  case spent =>
    intro j hgone
    have hj := hstrips j
    revert hgone hj
    generalize w'.interp j = r'
    rintro hgone (hwas | - | ⟨hlive, _⟩)
    · exact hw.spent j hwas
    · rfl
    · rw [show (w.interp j).deleted = true from hgone] at hlive
      cases hlive
  case fits =>
    intro j hook hhook
    exact (hfits j hook hhook).ripens hripens
  case keys =>
    rw [hquiet.keys]
    exact hw.keys
  case known =>
    intro k s' hs'
    obtain ⟨s, hs, -⟩ := hbefore hs'
    rw [hquiet.nextHandle]
    exact hw.known k s hs
  case watched =>
    intro k s j hs hj
    obtain ⟨hs, hoff⟩ := standing?_of_interp hruns hs (by rw [hj]; rfl)
    rcases mem_deleteHooks_of_runs hruns (hw.watched k s j hs hj) with ⟨run, hrun, -, hhook⟩ | hstays
    · rw [takesOff_iff.2 ⟨run, hrun, hhook⟩] at hoff
      cases hoff
    · exact hstays
  case kept =>
    intro k s' hs' hk hheld hlive
    obtain ⟨s, hs, rfl | rfl⟩ := hbefore hs'
    · exact hw.kept k _ hs hk hheld hlive
    · have hheld := Standing.held_of_untracked hheld
      simp [Standing.untracked, hheld] at hlive
  case told =>
    intro k s hs hk hdeleted hi ht
    obtain ⟨hs, -⟩ := standing?_of_interp hruns hs hi
    rw [hquiet.registered] at ht
    rw [hquiet.events]
    exact hw.told k s hs hk hdeleted hi ht
  case mail =>
    intro t event hevent
    rw [hquiet.events] at hevent
    exact (hw.mail t event hevent).ripens hripens
  case threads =>
    intro t ht
    rw [hquiet.registered] at ht
    rw [hquiet.nextThread]
    exact hw.threads t ht
  case owners =>
    intro k s' hs'
    obtain ⟨s, hs, rfl | rfl⟩ := hbefore hs'
    · rw [hquiet.nextThread]
      exact hw.owners k _ hs
    · rw [hquiet.nextThread]
      exact hw.owners k s hs

/-! ### Giving interpreters up -/

theorem Orderly.takeInterp (hw : w.Orderly out) (h : HandleId) :
    (w.takeInterp h).2.Orderly (insert h out) :=
  hw.amend (amends_takeInterp w h) (.of_threads_eq rfl rfl rfl) fun _ _ => ⟨rfl, id, id, .inr rfl⟩

theorem Orderly.delete (hw : w.Orderly out) (i : InterpId) : (w.delete i).Orderly out := by
  obtain ⟨ran, hruns⟩ := exists_runs_delete w i
  exact hw.runs hruns

theorem Orderly.deleteInterp (hw : w.Orderly out) (i : InterpId) :
    (w.deleteInterp i).Orderly out := by
  rw [World.deleteInterp]
  split
  · have hstands : w.Stands (w.setAgenda (w.agenda.addIdle (.delete i)).2) :=
      (rests_addIdle w _).toStands
    exact hw.eases (eases_stands hstands (.of_agendaOf_eq (events_setAgenda rfl) rfl rfl))
  · exact hw.delete i

/-- A handle whose interpreter was given up is out. -/
theorem Orderly.giveUp (hw : w.Orderly out) (h : HandleId) :
    (w.giveUp h).Orderly (insert h out) := by
  rw [giveUp_eq]
  cases w.interpOf? h with
  | none => exact hw.takeInterp h
  | some i => exact (hw.takeInterp h).deleteInterp i

end World

end ScriptHost
