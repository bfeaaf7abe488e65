import ScriptHost.Proofs.World.Births
import ScriptHost.Proofs.World.DeleteHooks
import ScriptHost.Proofs.World.Scripts

/-!
# Deleting a tree of interpreters

What becomes of the interpreters, their hooks and their scheduled scripts when one of them is deleted
with all that is below it.
-/

namespace ScriptHost

open World Removal

/-! ### What dies -/

namespace Removal

variable {job : Removal} {ran ran' : List HookRun} {run : HookRun} {w w' u v : World}
  {i j k : InterpId} {dying : Set InterpId}

/-- The interpreters that a part of a deletion deletes by itself. -/
def roots : Removal → List InterpId
  | .tree i => [i]
  | .trees is => is
  | .hook _ _ _ => []
  | .hooks _ _ => []

/-- An interpreter from which a part of a deletion starts, or that one of its hooks deletes. -/
def Targets (job : Removal) (ran : List HookRun) (k : InterpId) : Prop :=
  k ∈ job.roots ∨ ∃ run ∈ ran, run.hook = .delete k

theorem not_dies_of_same (h : ∀ i, (w'.interp i).deleted = (w.interp i).deleted) : ¬Dies w w' i := by
  rintro ⟨hlive, hgone⟩
  rw [h, hlive] at hgone
  cases hgone

theorem targets_append_left (h : ∃ run ∈ ran, run.hook = .delete k) :
    ∃ run ∈ ran ++ ran', run.hook = .delete k :=
  h.imp fun _ hrun => ⟨List.mem_append_left _ hrun.1, hrun.2⟩

theorem targets_append_right (h : ∃ run ∈ ran', run.hook = .delete k) :
    ∃ run ∈ ran ++ ran', run.hook = .delete k :=
  h.imp fun _ hrun => ⟨List.mem_append_right _ hrun.1, hrun.2⟩

/-- What dies is below an interpreter from which the deletion starts or that a hook deletes. -/
theorem Runs.spreads (h : Runs job w ran w') (hw : w.Trees dying) (hdies : Dies w w' i) :
    ∃ k, job.Targets ran k ∧ w.Beneath k i := by
  induction h generalizing dying with
  | gone | noTrees | noHooks | log => exact absurd hdies (not_dies_of_same fun _ => rfl)
  | @tree j w u v ran ran' hlive hchildren hhooks ih ih' =>
    by_cases hji : j = i
    · exact ⟨j, .inl List.mem_cons_self, hji ▸ .refl⟩
    have hstart := childOf_condemn hlive
    obtain ⟨hu, hbereaves⟩ := hchildren.keeps (hw.condemn hlive)
    have hsecede := trees_secede hw hlive hchildren hu hbereaves
    have hstrips := hchildren.strips (hw.childless.condemn j)
    rcases (dies_tree hji hstrips (hhooks.strips hsecede.childless)).1 hdies with hdies | hdies
    · obtain ⟨k, htarget, hbeneath⟩ := ih (hw.condemn hlive) hdies
      rw [beneath_congr hstart] at hbeneath
      rcases htarget with hchild | hdelete
      · obtain ⟨name, hname⟩ := Interpreter.mem_childIds.1 hchild
        exact ⟨j, .inl List.mem_cons_self, .head (hw.child j name k hname).1 hbeneath⟩
      · exact ⟨k, .inr (targets_append_left hdelete), hbeneath⟩
    · obtain ⟨k, htarget, hbeneath⟩ := ih' hsecede hdies
      have hknown := isSome_of_condemn hlive hchildren.prunes
      rw [beneath_congr (childOf_secede hknown _), beneath_congr hstrips.childOf,
        beneath_congr hstart] at hbeneath
      exact ⟨k, .inr (targets_append_right (htarget.resolve_left nofun)), hbeneath⟩
  | @trees j js w u w' ran ran' hfirst hrest ih ih' =>
    have hstrips := hfirst.strips hw.childless
    have hu := (hfirst.keeps hw).1
    rcases (dies_trans_iff hstrips (hrest.strips hu.childless)).1 hdies with hdies | hdies
    · obtain ⟨k, hroot | hdelete, hbeneath⟩ := ih hw hdies
      · exact ⟨k, .inl (List.mem_cons.2 (.inl (List.mem_singleton.1 hroot))), hbeneath⟩
      · exact ⟨k, .inr (targets_append_left hdelete), hbeneath⟩
    · obtain ⟨k, hroot | hdelete, hbeneath⟩ := ih' hu hdies
      · exact ⟨k, .inl (List.mem_cons_of_mem _ hroot), beneath_congr hstrips.childOf ▸ hbeneath⟩
      · exact ⟨k, .inr (targets_append_right hdelete), beneath_congr hstrips.childOf ▸ hbeneath⟩
  | @untrack _ h _ w =>
    refine absurd hdies (not_dies_of_same fun k => ?_)
    rw [interp_eq_of_interpreters_eq (interpreters_untrack w h)]
  | @delete _ j _ _ _ ran _ ih =>
    obtain ⟨k, hroot | ⟨run, hrun, hdelete⟩, hbeneath⟩ := ih hw hdies
    · cases List.mem_singleton.1 hroot
      exact ⟨j, .inr ⟨_, List.mem_cons_self, rfl⟩, hbeneath⟩
    · exact ⟨k, .inr ⟨run, List.mem_cons_of_mem _ hrun, hdelete⟩, hbeneath⟩
  | @install _ j _ _ w _ =>
    refine absurd hdies (not_dies_of_same (deleted_modifyInterp (fun r => ?_) w j))
    rfl
  | late _ _ ih =>
    obtain ⟨k, hroot | ⟨run, hrun, hdelete⟩, hbeneath⟩ := ih hw hdies
    · cases hroot
    · exact ⟨k, .inr ⟨run, List.mem_cons_of_mem _ hrun, hdelete⟩, hbeneath⟩
  | @hooks j hook hooks w u w' ran ran' hfirst hrest ih ih' =>
    have hstrips := hfirst.strips hw.childless
    have hu := (hfirst.keeps hw).1
    rcases (dies_trans_iff hstrips (hrest.strips hu.childless)).1 hdies with hdies | hdies
    · obtain ⟨k, hroot | hdelete, hbeneath⟩ := ih hw hdies
      · cases hroot
      · exact ⟨k, .inr (targets_append_left hdelete), hbeneath⟩
    · obtain ⟨k, hroot | hdelete, hbeneath⟩ := ih' hu hdies
      · cases hroot
      · exact ⟨k, .inr (targets_append_right hdelete), beneath_congr hstrips.childOf ▸ hbeneath⟩

/-- What a hook deletes is deleted in the end. -/
theorem Runs.deleted_of_hook (h : Runs job w ran w') (hrun : run ∈ ran)
    (hdelete : run.hook = .delete k) : (w'.interp k).deleted = true := by
  induction h with
  | gone | noTrees | noHooks => cases hrun
  | @tree i _ u v ran ran' _ hchildren hhooks ih ih' =>
    have hwipe := deleted_modifyInterp (f := Interpreter.wipe) (fun r => rfl) v i k
    rw [hwipe]
    rcases List.mem_append.1 hrun with hrun | hrun
    · exact ((prunes_secede u _ i).trans hhooks.prunes).deleted (ih hrun)
    · exact ih' hrun
  | trees _ hrest ih ih' =>
    rcases List.mem_append.1 hrun with hrun | hrun
    · exact hrest.prunes.deleted (ih hrun)
    · exact ih' hrun
  | log | untrack | install =>
    rw [List.mem_singleton.1 hrun] at hdelete
    cases hdelete
  | delete hrest ih =>
    rcases List.mem_cons.1 hrun with rfl | hrun
    · cases hdelete
      exact hrest.deleted
    · exact ih hrun
  | late _ _ ih =>
    rcases List.mem_cons.1 hrun with rfl | hrun
    · cases hdelete
    · exact ih hrun
  | hooks _ hrest ih ih' =>
    rcases List.mem_append.1 hrun with hrun | hrun
    · exact hrest.prunes.deleted (ih hrun)
    · exact ih' hrun

end Removal

namespace World

variable {w w' : World} {i j : InterpId} {ran : List HookRun}

/-- Below a deleted interpreter everything is deleted, unless a deletion is under way. -/
theorem Trees.deleted_of_beneath (hw : w.Trees ∅) (h : w.Beneath i j)
    (hgone : (w.interp i).deleted = true) : (w.interp j).deleted = true := by
  induction h with
  | refl => exact hgone
  | @tail p c _ hchild ih =>
    by_contra hlive
    rcases hw.listed c p (Bool.eq_false_iff.2 hlive) hchild with hdying | ⟨hp, -⟩
    · exact hdying
    · rw [ih] at hp
      cases hp

/-! ### A whole deletion -/

/-- What deleting an interpreter `x` comes to when it runs some hooks on the way. -/
structure Teardown (x : InterpId) (ran : List HookRun) (w w' : World) : Prop where
  /-- What was live dies if it is below `x` or below an interpreter that a hook deletes. -/
  dies : ∀ i, Dies w w' i ↔ (w.interp i).deleted = false ∧
    ∃ k, (k = x ∨ ∃ run ∈ ran, run.hook = .delete k) ∧ w.Beneath k i
  /-- Nothing is live that is below `x`. -/
  deleted : ∀ i, w.Beneath x i → (w'.interp i).deleted = true
  /-- Of what dies no commands, children, hooks or scheduled scripts are left, and only an empty
  global frame. -/
  buried : ∀ i, Dies w w' i → w'.interp i = (w.interp i).buried
  /-- What was deleted before is left alone. -/
  gone : ∀ i, (w.interp i).deleted = true → w'.interp i = w.interp i
  /-- What stays live loses those of its children that die, gets the hooks that other hooks install
  on it, and is otherwise left alone. -/
  spared : ∀ i, (w'.interp i).deleted = false →
    ∃ children : Table String InterpId,
      w'.interp i = { w.interp i with
        children, deleteHooks := (w.interp i).deleteHooks ++ installed i ran } ∧
      ∀ name c, children.get? name = some c ↔
        (w.interp i).children.get? name = some c ∧ ¬Dies w w' c
  /-- Every hook of an interpreter, and every one that is installed on it, is run once or still
  there. -/
  once : ∀ i, ((w.interp i).deleteHooks ++ installed i ran).Perm
    (own i ran ++ (w'.interp i).deleteHooks)
  /-- If no hook deletes anything, the hooks of what is below an interpreter come before its own,
  apart from hooks that did not wait. -/
  ordered : (∀ run ∈ ran, ∀ k, run.hook ≠ .delete k) → Ordered w ran
  /-- A hook that did not wait is run right after the one that installs it. -/
  atOnce : ran.IsChain AtOnce
  /-- The scheduled scripts of what dies are taken off the agenda, and nothing else. -/
  agenda : w.agenda.Drops (scripts w w') w'.agenda
  /-- What is still scheduled belongs to live interpreters. -/
  filed : w'.Filed
  /-- The interpreters that are left are trees again. -/
  trees : w'.Trees ∅
  /-- Deleting any of the deleted interpreters once more does nothing. -/
  again : ∀ i, (w'.interp i).deleted = true → w'.delete i = w'

theorem spared_of_keeps {i : InterpId} (hstrips : Strips ran w w') (hbereaves : Bereaves w w')
    (hlive : (w'.interp i).deleted = false) :
    ∃ children : Table String InterpId,
      w'.interp i = { w.interp i with
        children, deleteHooks := (w.interp i).deleteHooks ++ installed i ran } ∧
      ∀ name c, children.get? name = some c ↔
        (w.interp i).children.get? name = some c ∧ ¬Dies w w' c := by
  have hi := hstrips i
  have hchildren := fun name c => hbereaves i name c hlive
  revert hi hlive hchildren
  generalize w'.interp i = r'
  rintro hlive (hgone | - | ⟨-, children⟩) hchildren
  · rw [hgone] at hlive
    cases hlive
  · cases hlive
  · exact ⟨children, rfl, hchildren⟩

/-- Deleting an interpreter of any tree comes to its end, whatever the hooks delete or install. -/
theorem delete_tears_down {x : InterpId} (hw : w.Trees ∅) (hfiled : w.Filed) :
    ∃ ran, Runs (.tree x) w ran (w.delete x) ∧ Teardown x ran w (w.delete x) := by
  obtain ⟨ran, h⟩ := exists_runs_delete w x
  have hstrips := h.strips hw.childless
  obtain ⟨htrees, hbereaves⟩ := h.keeps hw
  have hdrops := h.drops hw.childless hfiled.dated
  have hdeleted {k i : InterpId} (hk : k = x ∨ ∃ run ∈ ran, run.hook = .delete k)
      (hi : w.Beneath k i) : ((w.delete x).interp i).deleted = true := by
    refine htrees.deleted_of_beneath (beneath_congr hstrips.childOf ▸ hi) ?_
    rcases hk with rfl | ⟨run, hrun, hdelete⟩
    · exact h.deleted
    · exact h.deleted_of_hook hrun hdelete
  refine ⟨ran, h, ?_⟩
  constructor
  · intro i
    constructor
    · intro hdies
      obtain ⟨k, htarget, hbeneath⟩ := h.spreads hw hdies
      exact ⟨hdies.1, k, htarget.imp_left List.mem_singleton.1, hbeneath⟩
    · rintro ⟨hlive, k, htarget, hbeneath⟩
      exact ⟨hlive, hdeleted htarget hbeneath⟩
  · exact fun i hi => hdeleted (.inl rfl) hi
  · rintro i ⟨hlive, hgone⟩
    have hi := hstrips i
    revert hi hgone
    generalize (w.delete x).interp i = r'
    rintro hgone (hwas | - | -)
    · exact absurd (hwas.symm.trans hlive) nofun
    · rfl
    · exact absurd (hgone.symm.trans hlive) nofun
  · exact fun i hgone => (hstrips i).of_gone hgone
  · exact fun i hlive => spared_of_keeps hstrips hbereaves hlive
  · exact h.perm
  · exact fun hkeep => (h.ordered hw trivial hkeep).1
  · exact h.chain.1
  · exact hdrops
  · exact hfiled.drops hstrips hdrops
  · exact htrees
  · exact fun i hgone => delete_eq_self hgone

/-- An interpreter with a child that has two children itself. -/
def grove : World :=
  let w := (({} : World).newInterp "" false none).2
  ((w.bear 0 "a" false).bear 1 "b" false).bear 1 "c" false

/-- One of the two has a scheduled script and a hook that installs one on the parent, and the other
one a hook that deletes the first interpreter. -/
def orchard : World :=
  let w := (grove.scheduleAfter 2 (some 5) "set x 1").2
  (w.callWhenDeleted 2 (.watch 1 (.log "b"))).callWhenDeleted 3 (.delete 0)

theorem trees_grove : grove.Trees ∅ := by
  let root := (({} : World).newInterp "" false none).2
  have hnumbered : root.Numbered := numbered_empty.newInterp
  have hroot : root.Trees ∅ := trees_empty.newInterp numbered_empty
  have hchild : (root.bear 0 "a" false).Trees ∅ := hroot.bear hnumbered rfl rfl
  have hfirst : ((root.bear 0 "a" false).bear 1 "b" false).Trees ∅ :=
    hchild.bear hnumbered.bear rfl rfl
  exact hfirst.bear hnumbered.bear.bear rfl rfl

/-- Scripts and hooks change no family. -/
theorem trees_orchard : orchard.Trees ∅ := by
  refine trees_grove.congr fun i => ?_
  have hscript := keeps_modifyInterp Interpreter.family
    (f := fun r => { r with
      nextAfter := r.nextAfter + 1, afters := r.afters.insert "after#0" (.timer 1) })
    (fun r => rfl) grove 2 i
  have hhook (hook : DeleteHook) (w : World) (j : InterpId) :=
    keeps_modifyInterp Interpreter.family
      (f := fun r => { r with deleteHooks := r.deleteHooks ++ [hook] }) (fun r => rfl) w j i
  exact (hhook (.delete 0) _ 3).trans ((hhook (.watch 1 (.log "b")) _ 2).trans hscript)

theorem filed_orchard : orchard.Filed := by
  have htimers : orchard.agenda.timers = [⟨5000, 1, .after 2 "after#0" "set x 1"⟩] := rfl
  constructor
  · intro t ht
    rw [htimers, List.mem_singleton] at ht
    cases ht
    rfl
  · intro t ht i id hscript
    rw [htimers, List.mem_singleton] at ht
    cases ht
    cases hscript
    exact ⟨rfl, rfl⟩
  · exact fun entry hentry => nomatch hentry

theorem delete_orchard :
    orchard.Trees ∅ ∧ orchard.Filed ∧
      ∃ ran, Runs (.tree 1) orchard ran (orchard.delete 1) ∧
        Teardown 1 ran orchard (orchard.delete 1) :=
  ⟨trees_orchard, filed_orchard, delete_tears_down trees_orchard filed_orchard⟩

end World

end ScriptHost
