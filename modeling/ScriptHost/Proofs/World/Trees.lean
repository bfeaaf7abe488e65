import ScriptHost.Proofs.World.Removal

/-!
# Trees of interpreters

Every interpreter knows its parent, and the parent lists its live children by name. While some
interpreters are being deleted their children are listed nowhere; apart from these, whatever is below
a deleted interpreter is deleted. A deletion keeps this, and of an interpreter that stays live it
changes nothing but the list of its children, which loses those that die, and the hooks that other
hooks install on it.
-/

namespace ScriptHost

/-! ### One interpreter -/

/-- The hooks that some hooks install on an interpreter or run for it at once. -/
def installed (i : InterpId) (ran : List HookRun) : List DeleteHook :=
  ran.filterMap fun run =>
    match run.hook with
    | .watch j hook => if j = i then some hook else none
    | _ => none

@[simp]
theorem installed_nil (i : InterpId) : installed i [] = [] := rfl

@[simp]
theorem installed_append (i : InterpId) (ran ran' : List HookRun) :
    installed i (ran ++ ran') = installed i ran ++ installed i ran' :=
  List.filterMap_append

namespace Interpreter

/-- What is left of an interpreter that was deleted. -/
def buried (r : Interpreter) : Interpreter :=
  { r with
    deleted := true
    commands := .empty
    frames := [{}]
    children := .empty
    deleteHooks := []
    childHooks := []
    afters := .empty }

/-- What a deletion may do to an interpreter on which it installs some hooks. -/
inductive Stripped (hooks : List DeleteHook) (r : Interpreter) : Interpreter → Prop
  | gone (hgone : r.deleted = true) : Stripped hooks r r
  | dead (hlive : r.deleted = false) : Stripped hooks r r.buried
  | left (hlive : r.deleted = false) (children : Table String InterpId) :
      Stripped hooks r { r with children, deleteHooks := r.deleteHooks ++ hooks }

variable {hooks hooks' : List DeleteHook} {r r' r'' : Interpreter}

theorem Stripped.relist (hlive : r.deleted = false) (children : Table String InterpId) :
    Stripped [] r { r with children } := by
  have hleft : Stripped [] r _ := .left hlive children
  rwa [List.append_nil] at hleft

/-- What an interpreter has to do with its parent and its children. -/
def family (r : Interpreter) : Option InterpId × String × Bool × Table String InterpId :=
  (r.parent, r.name, r.deleted, r.children)

theorem Stripped.refl (r : Interpreter) : Stripped [] r r := by
  cases hr : r.deleted with
  | true => exact .gone hr
  | false => exact .relist hr r.children

theorem Stripped.trans (h : Stripped hooks r r') (h' : Stripped hooks' r' r'') :
    Stripped (hooks ++ hooks') r r'' := by
  cases h with
  | gone hgone =>
    cases h' with
    | gone => exact .gone hgone
    | dead hlive => exact absurd (hgone.symm.trans hlive) nofun
    | left hlive => exact absurd (hgone.symm.trans hlive) nofun
  | dead hlive =>
    cases h' with
    | gone => exact .dead hlive
    | dead hlive' => cases hlive'
    | left hlive' => cases hlive'
  | left hlive children =>
    cases h' with
    | gone hgone => exact absurd (hgone.symm.trans hlive) nofun
    | dead => exact .dead hlive
    | left _ children' =>
      have hleft : Stripped (hooks ++ hooks') r _ := .left hlive children'
      rwa [← List.append_assoc] at hleft

/-- The family of an interpreter is for ever. -/
theorem Stripped.kin (h : Stripped hooks r r') : r'.parent = r.parent ∧ r'.name = r.name := by
  cases h <;> exact ⟨rfl, rfl⟩

theorem Stripped.live (h : Stripped hooks r r') (hlive : r'.deleted = false) :
    r.deleted = false := by
  cases h with
  | gone => exact hlive
  | dead hwas => exact hwas
  | left hwas => exact hwas

theorem Stripped.of_gone (h : Stripped hooks r r') (hgone : r.deleted = true) : r' = r := by
  cases h with
  | gone => rfl
  | dead hlive => exact absurd (hgone.symm.trans hlive) nofun
  | left hlive => exact absurd (hgone.symm.trans hlive) nofun

end Interpreter

namespace World

variable {w u v w' : World} {i j p c : InterpId} {r : Interpreter}

theorem Prunes.isSome_eq (h : w.Prunes w') (i : InterpId) :
    (w'.interps.get? i).isSome = (w.interps.get? i).isSome := by
  have hi := h.each i
  generalize w.interps.get? i = a, w'.interps.get? i = b at hi
  cases hi <;> rfl

theorem isSome_of_condemn (hlive : (w.interp i).deleted = false)
    (h : (w.modifyInterp i Interpreter.condemn).Prunes u) : (u.interps.get? i).isSome = true := by
  rw [h.isSome_eq, get?_modifyInterp, if_pos rfl, get?_of_live hlive]
  rfl

theorem interp_detach (w : World) (r : Interpreter) (j : InterpId) :
    (w.detach r).interp j =
      if r.parent = some j then
        { w.interp j with children := (w.interp j).children.erase r.name }
      else w.interp j := by
  rw [detach]
  cases hparent : r.parent with
  | none => rfl
  | some p =>
    by_cases hp : p = j
    · subst hp
      rw [if_pos rfl]
      cases hknown : w.interps.get? p with
      | some r' => exact interp_modifyInterp_self (by rw [hknown]; rfl) _
      | none =>
        simp only [interp, Table.getD, get?_modifyInterp, hknown]
        rfl
    · rw [if_neg (Option.some_inj.not.2 hp)]
      exact interp_modifyInterp_of_ne hp _

/-- Seceding cancels scripts and changes the list of children of the parent. -/
theorem interp_secede_of_ne (h : i ≠ j) (w : World) (r : Interpreter) :
    ((w.secede r i).disarm i).interp j = (w.detach r).interp j := by
  rw [disarm, interp_modifyInterp_of_ne h, secede, cancelAfters]
  rw [interp_eq_of_interpreters_eq (interpreters_foldl interpreters_cancelAfter _ _)]
  exact interp_modifyInterp_of_ne h _

theorem interp_secede_self (h : (w.interps.get? i).isSome = true) (r : Interpreter) :
    ((w.secede r i).disarm i).interp i =
      { (w.detach r).interp i with afters := .empty, childHooks := [], deleteHooks := [] } := by
  have hcancel := interpreters_foldl interpreters_cancelAfter ((w.detach r).interp i).afters.values
    ((w.detach r).modifyInterp i fun r => { r with afters := .empty })
  have hdetach : ((w.detach r).interps.get? i).isSome = true :=
    ((prunes_detach w r).isSome_eq i).trans h
  have hknown : ((w.secede r i).interps.get? i).isSome = true :=
    ((prunes_cancelAfters (w.detach r) i).isSome_eq i).trans hdetach
  rw [disarm, interp_modifyInterp_self hknown, secede, cancelAfters,
    interp_eq_of_interpreters_eq hcancel, interp_modifyInterp_self hdetach]

/-! ### All interpreters -/

/-- Deleted interpreters list no children. -/
def Childless (w : World) : Prop :=
  ∀ i, (w.interp i).deleted = true → (w.interp i).children = .empty

/-- What a deletion that runs some hooks may do to the interpreters. -/
def Strips (ran : List HookRun) (w w' : World) : Prop :=
  ∀ i, (w.interp i).Stripped (installed i ran) (w'.interp i)

variable {ran ran' : List HookRun}

theorem Strips.trans (h : Strips ran w u) (h' : Strips ran' u w') : Strips (ran ++ ran') w w' := by
  intro i
  rw [installed_append]
  exact (h i).trans (h' i)

theorem Strips.of_interpreters_eq (hran : ∀ i, installed i ran = [])
    (h : w'.interpreters = w.interpreters) : Strips ran w w' := by
  intro i
  rw [hran, interp_eq_of_interpreters_eq h]
  exact .refl _

theorem Strips.childless (h : Strips ran w w') (hw : w.Childless) : w'.Childless := by
  intro i hgone
  have hi := h i
  revert hi hgone
  generalize hr' : w'.interp i = r'
  rintro hgone (hwas | hlive | ⟨hlive, children⟩)
  · exact hw i hwas
  · rfl
  · exact absurd (hgone.symm.trans hlive) nofun

theorem Childless.condemn (hw : w.Childless) (i : InterpId) :
    (w.modifyInterp i Interpreter.condemn).Childless := by
  intro j hgone
  by_cases hij : i = j
  · subst hij
    cases hknown : w.interps.get? i with
    | some r =>
      rw [interp_modifyInterp_self (by rw [hknown]; rfl)]
      rfl
    | none =>
      simp only [interp, Table.getD, get?_modifyInterp, hknown]
      rfl
  · rw [interp_modifyInterp_of_ne hij] at hgone ⊢
    exact hw j hgone

theorem strips_detach (hw : w.Childless) (r : Interpreter) : Strips [] w (w.detach r) := by
  intro i
  rw [interp_detach, installed_nil]
  split
  · cases hi : (w.interp i).deleted with
    | true =>
      have herase : (w.interp i).children.erase r.name = (w.interp i).children := by
        rw [hw i hi]
        rfl
      rw [herase]
      exact .refl _
    | false => exact .relist hi _
  · exact .refl _

theorem Childless.secede (hw : w.Childless) (hknown : (w.interps.get? i).isSome = true)
    (r : Interpreter) : ((w.secede r i).disarm i).Childless := by
  have hdetach := (strips_detach hw r).childless hw
  intro j hgone
  by_cases hij : i = j
  · subst hij
    rw [interp_secede_self hknown] at hgone ⊢
    exact hdetach i hgone
  · rw [interp_secede_of_ne hij] at hgone ⊢
    exact hdetach j hgone

/-- What the interpreters are in the end when the deletion of one of them is run. -/
theorem strips_tree (hlive : (w.interp i).deleted = false) (hw : w.Childless)
    (hchildren : Strips ran (w.modifyInterp i Interpreter.condemn) u)
    (hpruned : (w.modifyInterp i Interpreter.condemn).Prunes u)
    (hhooks : Strips ran' ((u.secede (w.interp i) i).disarm i) v)
    (hpruned' : ((u.secede (w.interp i) i).disarm i).Prunes v) :
    Strips (ran ++ ran') w (v.modifyInterp i Interpreter.wipe) := by
  have hdetach := strips_detach (hchildren.childless (hw.condemn i)) (w.interp i)
  intro j
  rw [installed_append]
  by_cases hij : i = j
  · subst hij
    have hknown := isSome_of_condemn hlive hpruned
    have hsecede := interp_secede_self hknown (w.interp i)
    have hu := (hchildren i).of_gone (deleted_condemn hlive)
    have hugone : (u.interp i).deleted = true := hpruned.deleted (deleted_condemn hlive)
    rw [(hdetach i).of_gone hugone, hu, interp_modifyInterp_of_live hlive] at hsecede
    have hv := (hhooks i).of_gone (by rw [hsecede]; rfl)
    have hvknown : (v.interps.get? i).isSome = true := by
      rw [hpruned'.isSome_eq, (prunes_secede u (w.interp i) i).isSome_eq, hknown]
    rw [interp_modifyInterp_self hvknown, hv, hsecede]
    exact .dead hlive
  · have hstart := hchildren j
    have hmiddle := hdetach j
    have hend := hhooks j
    rw [interp_modifyInterp_of_ne hij] at hstart ⊢
    rw [interp_secede_of_ne hij] at hend
    exact hstart.trans (hmiddle.trans hend)

end World

namespace Removal

open World

variable {job : Removal} {ran : List HookRun} {w w' : World} {i j : InterpId}

/-- A hook that is run at once is of a deleted interpreter. -/
theorem strips_late {hook : DeleteHook} {late : Bool} (hgone : (w.interp j).deleted = true)
    (h : Strips ran w w') : Strips (⟨i, .watch j hook, late⟩ :: ran) w w' := by
  intro k
  by_cases hjk : j = k
  · subst hjk
    rw [(h j).of_gone hgone]
    exact .gone hgone
  · have hsame : installed k (⟨i, .watch j hook, late⟩ :: ran) = installed k ran := by
      simp [installed, hjk]
    rw [hsame]
    exact h k

theorem strips_install {hook : DeleteHook} {late : Bool} (hlive : (w.interp j).deleted = false) :
    Strips [⟨i, .watch j hook, late⟩] w
      (w.modifyInterp j fun r => { r with deleteHooks := r.deleteHooks ++ [hook] }) := by
  intro k
  by_cases hjk : j = k
  · subst hjk
    have hinstalled : installed j [⟨i, .watch j hook, late⟩] = [hook] := by simp [installed]
    rw [interp_modifyInterp_of_live hlive, hinstalled]
    exact .left hlive _
  · have hnone : installed k [⟨i, .watch j hook, late⟩] = [] := by simp [installed, hjk]
    rw [interp_modifyInterp_of_ne hjk, hnone]
    exact .refl _

theorem Runs.strips (h : Runs job w ran w') (hw : w.Childless) : Strips ran w w' := by
  induction h with
  | @tree i w u v ran ran' hlive hchildren hhooks ihchildren ihhooks =>
    have hstart := ihchildren (hw.condemn i)
    have hknown := isSome_of_condemn hlive hchildren.prunes
    have hend := ihhooks ((hstart.childless (hw.condemn i)).secede hknown _)
    exact strips_tree hlive hw hstart hchildren.prunes hend hhooks.prunes
  | trees _ _ ih ih' => exact (ih hw).trans (ih' ((ih hw).childless hw))
  | untrack => exact .of_interpreters_eq (fun _ => rfl) (interpreters_untrack _ _)
  | delete _ ih => exact fun k => ih hw k
  | install hlive => exact strips_install hlive
  | late hgone _ ih => exact strips_late hgone (ih hw)
  | hooks _ _ ih ih' => exact (ih hw).trans (ih' ((ih hw).childless hw))
  | gone | noTrees | log | noHooks => exact .of_interpreters_eq (fun _ => rfl) rfl

end Removal

/-! ### Children -/

theorem Interpreter.mem_childIds {r : Interpreter} {c : InterpId} :
    c ∈ r.childIds ↔ ∃ name, r.children.get? name = some c := by
  rw [childIds, List.mem_filterMap]
  constructor
  · rintro ⟨name, -, hname⟩
    exact ⟨name, hname⟩
  · rintro ⟨name, hname⟩
    refine ⟨name, ?_, hname⟩
    rw [childNames, sortedNames, List.mem_mergeSort]
    exact Table.mem_keys_iff.2 (Option.isSome_of_eq_some hname)

namespace World

variable {w u v w' : World} {i j p c : InterpId} {r : Interpreter} {dying : Set InterpId}

/-- Parents and children belong together, apart from the children of interpreters that are being
deleted. -/
structure Trees (dying : Set InterpId) (w : World) : Prop where
  child : ∀ p name c, (w.interp p).children.get? name = some c →
    (w.interp c).parent = some p ∧ (w.interp c).name = name
  keys : ∀ p, (w.interp p).children.keys.Nodup
  parent_lt : ∀ c p, (w.interp c).parent = some p → p < c
  listed : ∀ c p, (w.interp c).deleted = false → (w.interp c).parent = some p →
    p ∈ dying ∨ (w.interp p).deleted = false ∧
      (w.interp p).children.get? (w.interp c).name = some c
  childless : w.Childless
  deleted : ∀ p ∈ dying, (w.interp p).deleted = true

/-- An interpreter that a deletion kills. -/
def Dies (w w' : World) (i : InterpId) : Prop :=
  (w.interp i).deleted = false ∧ (w'.interp i).deleted = true

/-- The lists of children lose those that die. -/
def Bereaves (w w' : World) : Prop :=
  ∀ p name c, (w'.interp p).deleted = false →
    ((w'.interp p).children.get? name = some c ↔
      (w.interp p).children.get? name = some c ∧ ¬Dies w w' c)

variable {ran ran' : List HookRun}

theorem Strips.kin (h : Strips ran w w') (i : InterpId) :
    (w'.interp i).parent = (w.interp i).parent ∧ (w'.interp i).name = (w.interp i).name :=
  (h i).kin

theorem Strips.live (h : Strips ran w w') (hlive : (w'.interp i).deleted = false) :
    (w.interp i).deleted = false :=
  (h i).live hlive

theorem Strips.deleted (h : Strips ran w w') (hgone : (w.interp i).deleted = true) :
    (w'.interp i).deleted = true := by
  rw [(h i).of_gone hgone, hgone]

theorem dies_trans_iff (h : Strips ran w u) (h' : Strips ran' u w') :
    Dies w w' c ↔ Dies w u c ∨ Dies u w' c := by
  constructor
  · rintro ⟨hlive, hgone⟩
    cases hc : (u.interp c).deleted with
    | true => exact .inl ⟨hlive, hc⟩
    | false => exact .inr ⟨hc, hgone⟩
  · rintro (⟨hlive, hgone⟩ | ⟨hlive, hgone⟩)
    · exact ⟨hlive, h'.deleted hgone⟩
    · exact ⟨h.live hlive, hgone⟩

theorem Bereaves.trans (hs : Strips ran w u) (hs' : Strips ran' u w') (h : Bereaves w u)
    (h' : Bereaves u w') : Bereaves w w' := by
  intro p name c hlive
  rw [h' p name c hlive, h p name c (hs'.live hlive), dies_trans_iff hs hs', not_or, and_assoc]

theorem Bereaves.of_family_eq (h : ∀ i, (w'.interp i).family = (w.interp i).family) :
    Bereaves w w' := by
  intro p name c _
  have hchildren : (w'.interp p).children = (w.interp p).children := congrArg (·.2.2.2) (h p)
  have hdeleted : (w'.interp c).deleted = (w.interp c).deleted := congrArg (·.2.2.1) (h c)
  rw [hchildren]
  refine (and_iff_left ?_).symm
  rintro ⟨hlive, hgone⟩
  rw [hdeleted, hlive] at hgone
  cases hgone

/-! ### What keeps the trees -/

theorem Trees.congr (hw : w.Trees dying) (h : ∀ i, (w'.interp i).family = (w.interp i).family) :
    w'.Trees dying := by
  have hparent (i : InterpId) : (w'.interp i).parent = (w.interp i).parent :=
    congrArg (·.1) (h i)
  have hname (i : InterpId) : (w'.interp i).name = (w.interp i).name := congrArg (·.2.1) (h i)
  have hdeleted (i : InterpId) : (w'.interp i).deleted = (w.interp i).deleted :=
    congrArg (·.2.2.1) (h i)
  have hchildren (i : InterpId) : (w'.interp i).children = (w.interp i).children :=
    congrArg (·.2.2.2) (h i)
  obtain ⟨child, keys, parent_lt, listed, childless, deleted⟩ := hw
  constructor
  case child => simpa only [hparent, hname, hchildren] using child
  case keys => simpa only [hchildren] using keys
  case parent_lt => simpa only [hparent] using parent_lt
  case listed => simpa only [hparent, hname, hdeleted, hchildren] using listed
  case childless =>
    unfold Childless at childless ⊢
    simpa only [hdeleted, hchildren] using childless
  case deleted => simpa only [hdeleted] using deleted

theorem kin_condemn (hlive : (w.interp i).deleted = false) (j : InterpId) :
    ((w.modifyInterp i Interpreter.condemn).interp j).parent = (w.interp j).parent ∧
      ((w.modifyInterp i Interpreter.condemn).interp j).name = (w.interp j).name := by
  by_cases hij : i = j
  · subst hij
    rw [interp_modifyInterp_of_live hlive]
    exact ⟨rfl, rfl⟩
  · rw [interp_modifyInterp_of_ne hij]
    exact ⟨rfl, rfl⟩

theorem Trees.condemn (hw : w.Trees dying) (hlive : (w.interp i).deleted = false) :
    (w.modifyInterp i Interpreter.condemn).Trees (insert i dying) := by
  have hself := interp_modifyInterp_of_live hlive Interpreter.condemn
  constructor
  case child =>
    intro p name c hc
    rw [(kin_condemn hlive c).1, (kin_condemn hlive c).2]
    by_cases hip : i = p
    · subst hip
      rw [hself] at hc
      cases hc
    · rw [interp_modifyInterp_of_ne hip] at hc
      exact hw.child p name c hc
  case keys =>
    intro p
    by_cases hip : i = p
    · subst hip
      rw [hself]
      exact List.nodup_nil
    · rw [interp_modifyInterp_of_ne hip]
      exact hw.keys p
  case parent_lt =>
    intro c p hc
    rw [(kin_condemn hlive c).1] at hc
    exact hw.parent_lt c p hc
  case listed =>
    intro c p hclive hc
    rw [(kin_condemn hlive c).1] at hc
    rw [(kin_condemn hlive c).2]
    by_cases hic : i = c
    · subst hic
      rw [hself] at hclive
      cases hclive
    · rw [interp_modifyInterp_of_ne hic] at hclive
      rcases hw.listed c p hclive hc with hdying | hlisted
      · exact .inl (.inr hdying)
      · by_cases hip : i = p
        · exact .inl (.inl hip.symm)
        · rw [interp_modifyInterp_of_ne hip]
          exact .inr hlisted
  case childless => exact hw.childless.condemn i
  case deleted =>
    intro p hp
    by_cases hip : i = p
    · subst hip
      exact deleted_condemn hlive
    · rw [interp_modifyInterp_of_ne hip]
      exact hw.deleted p (hp.resolve_left (Ne.symm hip))

theorem get?_children_detach (r : Interpreter) (p : InterpId) (name : String) :
    ((w.detach r).interp p).children.get? name =
      if r.parent = some p ∧ r.name = name then none else (w.interp p).children.get? name := by
  rw [interp_detach]
  by_cases hp : r.parent = some p
  · rw [if_pos hp, Table.get?_erase]
    simp only [hp, true_and]
  · rw [if_neg hp, if_neg fun h => hp h.1]

theorem detach_same (r : Interpreter) (j : InterpId) :
    ((w.detach r).interp j).parent = (w.interp j).parent ∧
      ((w.detach r).interp j).name = (w.interp j).name ∧
      ((w.detach r).interp j).deleted = (w.interp j).deleted := by
  rw [interp_detach]
  split <;> exact ⟨rfl, rfl, rfl⟩

theorem Trees.detach (hw : w.Trees dying) (hgone : (w.interp i).deleted = true)
    (hr : ∀ p c, r.parent = some p → (w.interp p).children.get? r.name = some c → c = i) :
    (w.detach r).Trees dying := by
  have hparent (j : InterpId) := (detach_same (w := w) r j).1
  have hname (j : InterpId) := (detach_same (w := w) r j).2.1
  have hdeleted (j : InterpId) := (detach_same (w := w) r j).2.2
  constructor
  case child =>
    intro p name c hc
    rw [get?_children_detach] at hc
    rw [hparent, hname]
    split at hc
    · cases hc
    · exact hw.child p name c hc
  case keys =>
    intro p
    rw [interp_detach]
    split
    · exact (hw.keys p).sublist (List.filter_sublist.map _)
    · exact hw.keys p
  case parent_lt =>
    intro c p hc
    rw [hparent] at hc
    exact hw.parent_lt c p hc
  case listed =>
    intro c p hclive hc
    rw [hparent] at hc
    rw [hdeleted] at hclive
    rw [hdeleted, hname, get?_children_detach]
    refine (hw.listed c p hclive hc).imp_right (And.imp_right fun hlisted => ?_)
    rw [if_neg, hlisted]
    rintro ⟨hrp, hrname⟩
    have hci := hr p c hrp (hrname ▸ hlisted)
    rw [hci, hgone] at hclive
    cases hclive
  case childless => exact (strips_detach hw.childless r).childless hw.childless
  case deleted =>
    intro p hp
    rw [hdeleted]
    exact hw.deleted p hp

/-- An interpreter is dead and done with when its children are dead. -/
theorem Trees.bury (hw : w.Trees (insert i dying))
    (hchildren : ∀ c, (w.interp c).parent = some i → (w.interp c).deleted = true) :
    w.Trees dying where
  child := hw.child
  keys := hw.keys
  parent_lt := hw.parent_lt
  listed c p hclive hc := by
    rcases hw.listed c p hclive hc with hdying | hlisted
    · rcases hdying with hpi | hdying
      · subst hpi
        rw [hchildren c hc] at hclive
        cases hclive
      · exact .inl hdying
    · exact .inr hlisted
  childless := hw.childless
  deleted p hp := hw.deleted p (.inr hp)

end World

namespace Removal

open World

variable {job : Removal} {ran ran' : List HookRun} {w w' u v : World} {i c p : InterpId}
  {dying : Set InterpId}

theorem Runs.deleted_of_mem {is : List InterpId} (h : Runs (.trees is) w ran w') (hi : i ∈ is) :
    (w'.interp i).deleted = true := by
  induction is generalizing w ran with
  | nil => cases hi
  | cons j is ih =>
    cases h with
    | trees hfirst hrest =>
      rcases List.mem_cons.1 hi with rfl | hi
      · exact hrest.prunes.deleted hfirst.deleted
      · exact ih hrest hi

section

variable (hw : w.Trees dying) (hlive : (w.interp i).deleted = false)
  (hchildren : Runs (.trees (w.interp i).childIds) (w.modifyInterp i Interpreter.condemn) ran u)

include hw hlive hchildren

/-- The children of an interpreter are dead when its own hooks are run. -/
theorem deleted_of_parent (hc : (w.interp c).parent = some i) : (u.interp c).deleted = true := by
  have hic : i ≠ c := fun hic => absurd (hw.parent_lt c i hc) (hic ▸ Nat.lt_irrefl i)
  cases hclive : (w.interp c).deleted with
  | true =>
    refine hchildren.prunes.deleted ?_
    rwa [interp_modifyInterp_of_ne hic]
  | false =>
    rcases hw.listed c i hclive hc with hdying | ⟨-, hlisted⟩
    · rw [hw.deleted i hdying] at hlive
      cases hlive
    · exact hchildren.deleted_of_mem (Interpreter.mem_childIds.2 ⟨_, hlisted⟩)

/-- Only the interpreter itself goes by its name. -/
theorem eq_of_listed (hbereaves : Bereaves (w.modifyInterp i Interpreter.condemn) u)
    (hp : (w.interp i).parent = some p)
    (hc : (u.interp p).children.get? (w.interp i).name = some c) : c = i := by
  have hip : i ≠ p := fun hip => absurd (hw.parent_lt i p hp) (hip ▸ Nat.lt_irrefl i)
  have hstrips := hchildren.strips (hw.childless.condemn i)
  cases hplive : (u.interp p).deleted with
  | true =>
    rw [hstrips.childless (hw.childless.condemn i) p hplive] at hc
    cases hc
  | false =>
    have hwas := ((hbereaves p _ c hplive).1 hc).1
    have hplive := hstrips.live hplive
    rw [interp_modifyInterp_of_ne hip] at hwas hplive
    rcases hw.listed i p hlive hp with hdying | ⟨-, hlisted⟩
    · rw [hw.deleted p hdying] at hplive
      cases hplive
    · exact Option.some.inj (hwas.symm.trans hlisted)

end

theorem family_secede (hknown : (u.interps.get? i).isSome = true) (r : Interpreter)
    (j : InterpId) :
    (((u.secede r i).disarm i).interp j).family = ((u.detach r).interp j).family := by
  by_cases hij : i = j
  · subst hij
    rw [interp_secede_self hknown]
    rfl
  · rw [interp_secede_of_ne hij]

/-- The trees stay when an interpreter leaves its family. -/
theorem trees_secede (hw : w.Trees dying) (hlive : (w.interp i).deleted = false)
    (hchildren : Runs (.trees (w.interp i).childIds) (w.modifyInterp i Interpreter.condemn) ran u)
    (hu : u.Trees (insert i dying))
    (hbereaves : Bereaves (w.modifyInterp i Interpreter.condemn) u) :
    ((u.secede (w.interp i) i).disarm i).Trees (insert i dying) := by
  have hgone := hchildren.prunes.deleted (deleted_condemn hlive)
  have hdetach := hu.detach (r := w.interp i) hgone
    fun p c hp hc => eq_of_listed hw hlive hchildren hbereaves hp hc
  exact hdetach.congr (family_secede (isSome_of_condemn hlive hchildren.prunes) (w.interp i))

/-- An interpreter apart from the one whose deletion is run dies below that or when its hooks are
run. -/
theorem dies_tree (hic : i ≠ c) {r : Interpreter}
    (hstrips : Strips ran (w.modifyInterp i Interpreter.condemn) u)
    (hstrips' : Strips ran' ((u.secede r i).disarm i) v) :
    Dies w (v.modifyInterp i Interpreter.wipe) c ↔
      Dies (w.modifyInterp i Interpreter.condemn) u c ∨ Dies ((u.secede r i).disarm i) v c := by
  have hstart : (w.modifyInterp i Interpreter.condemn).interp c = w.interp c :=
    interp_modifyInterp_of_ne hic _
  have hmiddle : (((u.secede r i).disarm i).interp c).deleted = (u.interp c).deleted := by
    rw [interp_secede_of_ne hic]
    exact (detach_same r c).2.2
  have hend : (v.modifyInterp i Interpreter.wipe).interp c = v.interp c :=
    interp_modifyInterp_of_ne hic _
  have hmono := hstrips.deleted (i := c)
  have hmono' := hstrips'.deleted (i := c)
  unfold Dies
  rw [hend]
  rw [hstart] at hmono ⊢
  rw [hmiddle] at hmono' ⊢
  cases hw : (w.interp c).deleted with
  | true =>
    rw [hmono hw]
    simp
  | false =>
    cases hu : (u.interp c).deleted with
    | true =>
      rw [hmono' hu]
      simp
    | false => simp

/-- The lists of children, when the deletion of an interpreter is run. -/
theorem bereaves_tree (hw : w.Trees dying) (hlive : (w.interp i).deleted = false)
    (hchildren : Runs (.trees (w.interp i).childIds) (w.modifyInterp i Interpreter.condemn) ran u)
    (hbereaves : Bereaves (w.modifyInterp i Interpreter.condemn) u)
    (hstrips' : Strips ran' ((u.secede (w.interp i) i).disarm i) v)
    (hbereaves' : Bereaves ((u.secede (w.interp i) i).disarm i) v)
    (hgone : ((v.modifyInterp i Interpreter.wipe).interp i).deleted = true) :
    Bereaves w (v.modifyInterp i Interpreter.wipe) := by
  have hstrips := hchildren.strips (hw.childless.condemn i)
  intro p name c hplive
  have hip : i ≠ p := by
    rintro rfl
    rw [hgone] at hplive
    cases hplive
  rw [interp_modifyInterp_of_ne hip] at hplive ⊢
  have hpmiddle := hstrips'.live hplive
  rw [interp_secede_of_ne hip, (detach_same _ _).2.2] at hpmiddle
  rw [hbereaves' p name c hplive, interp_secede_of_ne hip, get?_children_detach]
  by_cases hic : i = c
  · subst hic
    -- the interpreter itself is listed under its own name, which is erased
    refine iff_of_false ?_ fun h => h.2 ⟨hlive, hgone⟩
    rintro ⟨hlisted, -⟩
    split at hlisted
    · cases hlisted
    · next hother =>
      have hwas := ((hbereaves p name i hpmiddle).1 hlisted).1
      rw [interp_modifyInterp_of_ne hip] at hwas
      exact hother (hw.child p name i hwas)
  · have hkept : (if (w.interp i).parent = some p ∧ (w.interp i).name = name then none
        else (u.interp p).children.get? name) = some c ↔
        (u.interp p).children.get? name = some c := by
      split
      · next hself =>
        refine iff_of_false (Option.some_ne_none c).symm fun hlisted => hic ?_
        exact (eq_of_listed hw hlive hchildren hbereaves hself.1 (hself.2 ▸ hlisted)).symm
      · exact Iff.rfl
    rw [hkept, hbereaves p name c hpmiddle, interp_modifyInterp_of_ne hip,
      dies_tree hic hstrips hstrips', not_or, and_assoc]

/-- A deletion keeps the trees, and the lists of children lose those that die. -/
theorem Runs.keeps (h : Runs job w ran w') (hw : w.Trees dying) :
    w'.Trees dying ∧ Bereaves w w' := by
  induction h generalizing dying with
  | gone | noTrees | log | noHooks => exact ⟨hw.congr fun _ => rfl, .of_family_eq fun _ => rfl⟩
  | @tree i w u v ran ran' hlive hchildren hhooks ihchildren ihhooks =>
    obtain ⟨hu, hbereaves⟩ := ihchildren (hw.condemn hlive)
    have hsecede := trees_secede hw hlive hchildren hu hbereaves
    obtain ⟨hv, hbereaves'⟩ := ihhooks hsecede
    have hstrips' := hhooks.strips hsecede.childless
    have hwipe := keeps_modifyInterp Interpreter.family (f := Interpreter.wipe) (fun r => rfl) v i
    have hdeleted (c : InterpId) : ((v.modifyInterp i Interpreter.wipe).interp c).deleted =
        (v.interp c).deleted := congrArg (·.2.2.1) (hwipe c)
    have hrun := Runs.tree hlive hchildren hhooks
    refine ⟨(hv.congr hwipe).bury fun c hc => ?_, ?_⟩
    · rw [((hrun.strips hw.childless).kin c).1] at hc
      rw [hdeleted]
      apply ((prunes_secede u (w.interp i) i).trans hhooks.prunes).deleted
      exact deleted_of_parent hw hlive hchildren hc
    · exact bereaves_tree hw hlive hchildren hbereaves hstrips' hbereaves' hrun.deleted
  | trees hfirst hrest ih ih' =>
    obtain ⟨hu, hbereaves⟩ := ih hw
    obtain ⟨hw', hbereaves'⟩ := ih' hu
    exact ⟨hw', hbereaves.trans (hfirst.strips hw.childless) (hrest.strips hu.childless) hbereaves'⟩
  | @untrack _ h _ w =>
    have hsame (i : InterpId) : ((w.untrack h).interp i).family = (w.interp i).family := by
      rw [interp_eq_of_interpreters_eq (interpreters_untrack w h)]
    exact ⟨hw.congr hsame, .of_family_eq hsame⟩
  | delete _ ih => exact ih hw
  | @install i j hook _ w hlive =>
    have hsame := keeps_modifyInterp Interpreter.family
      (f := fun r => { r with deleteHooks := r.deleteHooks ++ [hook] }) (fun r => rfl) w j
    exact ⟨hw.congr hsame, .of_family_eq hsame⟩
  | late _ _ ih => exact ih hw
  | hooks hfirst hrest ih ih' =>
    obtain ⟨hu, hbereaves⟩ := ih hw
    obtain ⟨hw', hbereaves'⟩ := ih' hu
    exact ⟨hw', hbereaves.trans (hfirst.strips hw.childless) (hrest.strips hu.childless) hbereaves'⟩

end Removal

end ScriptHost
