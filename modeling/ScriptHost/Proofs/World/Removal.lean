import Mathlib.Data.Finset.Card
import ScriptHost.Proofs.World.Interps

/-!
# What a deletion does, step by step

Deleting an interpreter is a recursion through the tree and through the hooks that it runs, which may
delete interpreters themselves and may install further hooks. The relation of this module follows
this recursion without a bound and keeps a record of the hooks that are run. The recursion always
comes to its end, since every deletion nested in another one makes one interpreter fewer live.
-/

namespace ScriptHost

/-- A hook that was run. -/
structure HookRun where
  /-- The interpreter that the hook belongs to. -/
  interp : InterpId
  hook : DeleteHook
  /-- Whether the hook was installed on an interpreter that was deleted already, and run at once. -/
  late : Bool
deriving DecidableEq, Repr

/-- A part of a deletion. -/
inductive Removal
  /-- An interpreter with what is below it. -/
  | tree (i : InterpId)
  /-- Some interpreters, one after the other. -/
  | trees (is : List InterpId)
  /-- A hook of an interpreter. -/
  | hook (i : InterpId) (hook : DeleteHook) (late : Bool)
  /-- Some hooks of an interpreter that is being deleted, one after the other. -/
  | hooks (i : InterpId) (hooks : List DeleteHook)

namespace World

/-- Take an interpreter out of its family and cancel its scheduled scripts. -/
def secede (w : World) (r : Interpreter) (i : InterpId) : World :=
  (w.detach r).cancelAfters i

/-- Take the hooks off an interpreter. -/
def disarm (w : World) (i : InterpId) : World :=
  w.modifyInterp i fun r => { r with childHooks := [], deleteHooks := [] }

end World

namespace Removal

/-- A part of a deletion leads from one world to another, and some hooks are run on the way. -/
inductive Runs : Removal → World → List HookRun → World → Prop
  | gone {i : InterpId} {w : World} (hgone : (w.interp i).deleted = true) : Runs (.tree i) w [] w
  | tree {i : InterpId} {w u v : World} {ran ran' : List HookRun}
      (hlive : (w.interp i).deleted = false)
      (hchildren : Runs (.trees (w.interp i).childIds) (w.modifyInterp i Interpreter.condemn) ran u)
      (hhooks : Runs (.hooks i ((u.secede (w.interp i) i).interp i).deleteHooks)
        ((u.secede (w.interp i) i).disarm i) ran' v) :
      Runs (.tree i) w (ran ++ ran') (v.modifyInterp i Interpreter.wipe)
  | noTrees {w : World} : Runs (.trees []) w [] w
  | trees {i : InterpId} {is : List InterpId} {w u w' : World} {ran ran' : List HookRun}
      (hfirst : Runs (.tree i) w ran u) (hrest : Runs (.trees is) u ran' w') :
      Runs (.trees (i :: is)) w (ran ++ ran') w'
  | log {i : InterpId} {label : String} {late : Bool} {w : World} :
      Runs (.hook i (.log label) late) w [⟨i, .log label, late⟩]
        (w.addLog s!"{label} {(w.interp i).name} {(w.interp i).deleted} {(w.interp i).commands.size}")
  | untrack {i : InterpId} {h : HandleId} {late : Bool} {w : World} :
      Runs (.hook i (.untrack h) late) w [⟨i, .untrack h, late⟩] (w.untrack h)
  | delete {i j : InterpId} {late : Bool} {w w' : World} {ran : List HookRun}
      (hdelete : Runs (.tree j) w ran w') :
      Runs (.hook i (.delete j) late) w (⟨i, .delete j, late⟩ :: ran) w'
  /-- A hook for a live interpreter waits until that is deleted. -/
  | install {i j : InterpId} {hook : DeleteHook} {late : Bool} {w : World}
      (hlive : (w.interp j).deleted = false) :
      Runs (.hook i (.watch j hook) late) w [⟨i, .watch j hook, late⟩]
        (w.modifyInterp j fun r => { r with deleteHooks := r.deleteHooks ++ [hook] })
  /-- A hook for a deleted interpreter is run at once. -/
  | late {i j : InterpId} {hook : DeleteHook} {late : Bool} {w w' : World} {ran : List HookRun}
      (hgone : (w.interp j).deleted = true) (hhook : Runs (.hook j hook true) w ran w') :
      Runs (.hook i (.watch j hook) late) w (⟨i, .watch j hook, late⟩ :: ran) w'
  | noHooks {i : InterpId} {w : World} : Runs (.hooks i []) w [] w
  | hooks {i : InterpId} {hook : DeleteHook} {hooks : List DeleteHook} {w u w' : World}
      {ran ran' : List HookRun} (hfirst : Runs (.hook i hook false) w ran u)
      (hrest : Runs (.hooks i hooks) u ran' w') : Runs (.hooks i (hook :: hooks)) w (ran ++ ran') w'

end Removal

/-! ### What is live -/

namespace World

variable {w w' : World} {i : InterpId}

theorem mem_keys_of_live (h : (w.interp i).deleted = false) : i ∈ w.interps.keys := by
  by_contra hnot
  have hnone := Table.get?_eq_none_iff.2 hnot
  rw [get?_of_live h] at hnone
  cases hnone

/-- The interpreters that are not deleted. -/
def living (w : World) : Finset InterpId :=
  w.interps.keys.toFinset.filter fun i => (w.interp i).deleted = false

@[simp]
theorem mem_living : i ∈ w.living ↔ (w.interp i).deleted = false := by
  rw [living, Finset.mem_filter, List.mem_toFinset]
  exact and_iff_right_of_imp mem_keys_of_live

theorem card_living_le (w : World) : w.living.card ≤ w.interps.size := by
  calc w.living.card ≤ w.interps.keys.toFinset.card := Finset.card_filter_le _ _
    _ ≤ w.interps.keys.length := List.toFinset_card_le _
    _ = w.interps.size := w.interps.length_keys

/-- An interpreter that is deleted stays so. -/
theorem Prunes.deleted (h : w.Prunes w') (hgone : (w.interp i).deleted = true) :
    (w'.interp i).deleted = true := by
  have hi := h.each i
  rw [interp, Table.getD] at hgone ⊢
  generalize w.interps.get? i = a, w'.interps.get? i = b at hi hgone
  cases hi with
  | none => rfl
  | some hpruned =>
    obtain ⟨-, ⟨-, hsame⟩ | ⟨hlive, -⟩⟩ := hpruned
    · exact hsame.trans hgone
    · exact absurd (hlive.symm.trans hgone) Bool.false_ne_true

theorem Prunes.living_subset (h : w.Prunes w') : w'.living ⊆ w.living := by
  intro i hi
  rw [mem_living] at hi ⊢
  by_contra hgone
  rw [h.deleted (Bool.not_eq_false _ ▸ hgone)] at hi
  cases hi

theorem prunes_secede (w : World) (r : Interpreter) (i : InterpId) :
    w.Prunes ((w.secede r i).disarm i) := by
  have hcancel := (prunes_detach w r).trans (prunes_cancelAfters _ i)
  refine hcancel.trans (.modifyInterp (fun r => ?_) _ i)
  exact ⟨rfl, rfl, rfl⟩

theorem deleted_condemn (h : (w.interp i).deleted = false) :
    ((w.modifyInterp i Interpreter.condemn).interp i).deleted = true := by
  rw [interp_modifyInterp_of_live h]
  rfl

/-- An interpreter that is being deleted is live no longer. -/
theorem card_living_condemn_lt (h : (w.interp i).deleted = false) :
    (w.modifyInterp i Interpreter.condemn).living.card < w.living.card := by
  apply Finset.card_lt_card
  constructor
  · intro j hj
    rw [mem_living] at hj ⊢
    by_cases hij : i = j
    · exact hij ▸ h
    · rwa [interp, Table.getD, get?_modifyInterp, if_neg hij] at hj
  · intro hsubset
    have hi := hsubset (mem_living.2 h)
    rw [mem_living, deleted_condemn h] at hi
    cases hi

end World

/-! ### The recursion comes to its end -/

namespace Removal

open World

variable {fuel : Nat} {w : World} {i : InterpId}

/-- All deletions that start with at most as many live interpreters as there is fuel come to their
end. -/
def Ends (fuel : Nat) : Prop :=
  ∀ (i : InterpId) (w : World), w.living.card ≤ fuel →
    ∃ ran, Runs (.tree i) w ran (deleteTree fuel i w)

theorem exists_runs_trees (hends : Ends fuel) (is : List InterpId) (hw : w.living.card ≤ fuel) :
    ∃ ran, Runs (.trees is) w ran (is.foldl (fun w i => deleteTree fuel i w) w) := by
  induction is generalizing w with
  | nil => exact ⟨[], .noTrees⟩
  | cons i is ih =>
    obtain ⟨ran, hfirst⟩ := hends i w hw
    have hless := Finset.card_le_card (prunes_deleteTree fuel i w).living_subset
    obtain ⟨ran', hrest⟩ := ih (hless.trans hw)
    exact ⟨ran ++ ran', .trees hfirst hrest⟩

theorem exists_runs_hook (hends : Ends fuel) (i : InterpId) (hook : DeleteHook) (late : Bool)
    (hw : w.living.card ≤ fuel) :
    ∃ ran, Runs (.hook i hook late) w ran (runDeleteHook (deleteTree fuel) i hook w) := by
  induction hook generalizing i late with
  | log label => exact ⟨_, .log⟩
  | untrack h => exact ⟨_, .untrack⟩
  | delete j =>
    obtain ⟨ran, hdelete⟩ := hends j w hw
    exact ⟨_, .delete hdelete⟩
  | watch j hook ih =>
    rw [runDeleteHook]
    split
    · next hgone =>
      obtain ⟨ran, hhook⟩ := ih j true
      exact ⟨_, .late hgone hhook⟩
    · next hlive => exact ⟨_, .install (Bool.eq_false_iff.2 hlive)⟩

theorem exists_runs_hooks (hends : Ends fuel) (i : InterpId) (hooks : List DeleteHook)
    (hw : w.living.card ≤ fuel) :
    ∃ ran, Runs (.hooks i hooks) w ran
      (hooks.foldl (fun w hook => runDeleteHook (deleteTree fuel) i hook w) w) := by
  induction hooks generalizing w with
  | nil => exact ⟨[], .noHooks⟩
  | cons hook hooks ih =>
    obtain ⟨ran, hfirst⟩ := exists_runs_hook hends i hook false hw
    have hless := Finset.card_le_card
      (prunes_runDeleteHook (prunes_deleteTree fuel) i hook w).living_subset
    obtain ⟨ran', hrest⟩ := ih (hless.trans hw)
    exact ⟨ran ++ ran', .hooks hfirst hrest⟩

theorem ends (fuel : Nat) : Ends fuel := by
  induction fuel with
  | zero =>
    intro i w hw
    refine ⟨[], .gone ?_⟩
    by_contra hlive
    have hmem := mem_living.2 (Bool.eq_false_iff.2 hlive)
    exact absurd (Finset.card_pos.2 ⟨i, hmem⟩) (Nat.not_lt.2 hw)
  | succ fuel ih =>
    intro i w hw
    rw [deleteTree]
    dsimp only
    split
    · next hgone => exact ⟨[], .gone hgone⟩
    · next hlive =>
      have hlive := Bool.eq_false_iff.2 hlive
      have hcondemned : (w.modifyInterp i Interpreter.condemn).living.card ≤ fuel :=
        Nat.le_of_lt_succ (Nat.lt_of_lt_of_le (card_living_condemn_lt hlive) hw)
      obtain ⟨ran, hchildren⟩ := exists_runs_trees ih (w.interp i).childIds hcondemned
      generalize hu : (w.interp i).childIds.foldl (fun w child => deleteTree fuel child w)
        (w.modifyInterp i Interpreter.condemn) = u at hchildren
      have hprunes : (w.modifyInterp i Interpreter.condemn).Prunes u :=
        hu ▸ .foldl (fun w child => prunes_deleteTree fuel child w) _ _
      have hless := (Finset.card_le_card
        (hprunes.trans (prunes_secede u (w.interp i) i)).living_subset).trans hcondemned
      obtain ⟨ran', hhooks⟩ := exists_runs_hooks ih i _ hless
      exact ⟨ran ++ ran', .tree hlive hchildren hhooks⟩

/-- Whatever is deleted, the deletion comes to its end. -/
theorem exists_runs_delete (w : World) (i : InterpId) : ∃ ran, Runs (.tree i) w ran (w.delete i) :=
  ends _ i w w.card_living_le

/-! ### What is deleted stays so -/

variable {job : Removal} {ran : List HookRun} {w' : World}

theorem Runs.prunes (h : Runs job w ran w') : w.Prunes w' := by
  induction h with
  | gone => exact .refl _
  | @tree i w u v _ _ hlive _ _ ihchildren ihhooks =>
    exact .wipe hlive (ihchildren.trans ((prunes_secede u (w.interp i) i).trans ihhooks))
  | noTrees => exact .refl _
  | trees _ _ ih ih' => exact ih.trans ih'
  | log => exact .of_interpreters_eq rfl
  | untrack => exact .of_interpreters_eq (interpreters_untrack _ _)
  | delete _ ih => exact ih
  | @install _ j _ _ w _ =>
    refine .modifyInterp (fun r => ?_) w j
    exact ⟨rfl, rfl, rfl⟩
  | late _ _ ih => exact ih
  | noHooks => exact .refl _
  | hooks _ _ ih ih' => exact ih.trans ih'

/-- An interpreter is deleted in the end whose deletion is run. -/
theorem Runs.deleted (h : Runs (.tree i) w ran w') : (w'.interp i).deleted = true := by
  cases h with
  | gone hgone => exact hgone
  | @tree _ _ u v _ _ hlive hchildren hhooks =>
    have hpruned := hchildren.prunes.trans ((prunes_secede u (w.interp i) i).trans hhooks.prunes)
    have hwipe := deleted_modifyInterp (f := Interpreter.wipe) (fun r => rfl) v i i
    exact hwipe.trans (hpruned.deleted (deleted_condemn hlive))

end Removal

namespace World

variable {w : World} {i j : InterpId}

/-- An interpreter is deleted once its deletion is over. -/
theorem deleted_delete (w : World) (i : InterpId) : ((w.delete i).interp i).deleted = true := by
  obtain ⟨ran, hruns⟩ := Removal.exists_runs_delete w i
  exact hruns.deleted

/-- Deleting an interpreter a second time does nothing. -/
theorem delete_eq_self (hgone : (w.interp i).deleted = true) : w.delete i = w := by
  rw [delete]
  cases w.interps.size with
  | zero => rfl
  | succ fuel =>
    rw [deleteTree]
    exact if_pos hgone

end World

end ScriptHost
