import ScriptHost.Proofs.World.Trees
import ScriptHost.World.Create

/-!
# Making interpreters keeps the trees

A new interpreter has no children yet. It is nobody's child, or it is listed at once by the live
interpreter that makes it.
-/

namespace ScriptHost.World

variable {w : World} {i j p : InterpId} {name : String} {safe : Bool} {parent : Option InterpId}

/-- The ids of interpreters are below the next one. -/
def Numbered (w : World) : Prop :=
  ∀ i, (w.interps.get? i).isSome = true → i < w.nextInterp

theorem numbered_empty : Numbered {} :=
  fun _ h => nomatch h

theorem Numbered.newInterp (hw : w.Numbered) : (w.newInterp name safe parent).2.Numbered := by
  intro i hi
  rw [get?_newInterp] at hi
  split at hi
  · next hnew => exact hnew ▸ Nat.lt_succ_self _
  · exact Nat.lt_succ_of_lt (hw i hi)

theorem Numbered.modifyInterp (hw : w.Numbered) (f : Interpreter → Interpreter) :
    (w.modifyInterp i f).Numbered := by
  intro j hj
  rw [get?_modifyInterp] at hj
  refine hw j ?_
  split at hj
  · rwa [Option.isSome_map] at hj
  · exact hj

theorem Numbered.unknown (hw : w.Numbered) : w.interp w.nextInterp = { deleted := true } := by
  cases hnext : w.interps.get? w.nextInterp with
  | none => simp [interp, Table.getD, hnext]
  | some r => exact absurd (hw _ (by rw [hnext]; rfl)) (Nat.lt_irrefl _)

theorem interp_newInterp (w : World) (name : String) (safe : Bool) (parent : Option InterpId)
    (j : InterpId) :
    (w.newInterp name safe parent).2.interp j =
      if w.nextInterp = j then .fresh name safe parent else w.interp j := by
  rw [interp, Table.getD, get?_newInterp]
  split <;> rfl

theorem trees_empty : Trees ∅ {} where
  child := nofun
  keys _ := List.nodup_nil
  parent_lt := nofun
  listed := nofun
  childless _ _ := rfl
  deleted := nofun

/-- Make a live interpreter and let its parent list it. -/
def bear (w : World) (p : InterpId) (name : String) (safe : Bool) : World :=
  (w.newInterp name safe (some p)).2.modifyInterp p fun r =>
    { r with children := r.children.insert name w.nextInterp }

section

variable (hw : w.Trees ∅) (hnumbered : w.Numbered)

include hnumbered

/-- No interpreter has a parent that is not there. -/
theorem Trees.parent_ne (hw : w.Trees ∅) (hi : (w.interp i).parent = some j) :
    j ≠ w.nextInterp ∧ i ≠ w.nextInterp := by
  have hlt := hw.parent_lt i j hi
  cases hknown : w.interps.get? i with
  | none =>
    simp [interp, Table.getD, hknown] at hi
  | some r =>
    have hi := hnumbered i (by rw [hknown]; rfl)
    exact ⟨(Nat.lt_trans hlt hi).ne, hi.ne⟩

include hw

theorem Trees.newInterp : (w.newInterp name safe none).2.Trees ∅ := by
  constructor
  case child =>
    intro p label c hc
    rw [interp_newInterp] at hc
    split at hc
    · cases hc
    · have hkin := hw.child p label c hc
      rwa [interp_newInterp, if_neg (hw.parent_ne hnumbered hkin.1).2.symm]
  case keys =>
    intro p
    rw [interp_newInterp]
    split
    · exact List.nodup_nil
    · exact hw.keys p
  case parent_lt =>
    intro c p hc
    rw [interp_newInterp] at hc
    split at hc
    · cases hc
    · exact hw.parent_lt c p hc
  case listed =>
    intro c p hlive hc
    rw [interp_newInterp] at hlive hc
    split at hc
    · cases hc
    · next hne =>
      rw [if_neg hne] at hlive
      rw [interp_newInterp, interp_newInterp, if_neg hne,
        if_neg (hw.parent_ne hnumbered hc).1.symm]
      exact hw.listed c p hlive hc
  case childless =>
    intro p hp
    rw [interp_newInterp] at hp ⊢
    split at hp
    · cases hp
    · next hne =>
      rw [if_neg hne]
      exact hw.childless p hp
  case deleted =>
    intro i hi
    cases hi

end

/-! ### Children -/

/-- A new child leaves it alone how safe the others are. -/
theorem safe_bear (w : World) (p : InterpId) (name : String) (safe : Bool) (hi : i < w.nextInterp) :
    ((w.bear p name safe).interp i).safe = (w.interp i).safe := by
  have hlist := keeps_modifyInterp Interpreter.safe
    (f := fun r => { r with children := r.children.insert name w.nextInterp }) (fun _ => rfl)
    (w.newInterp name safe (some p)).2 p i
  rw [bear, hlist, interp_newInterp, if_neg (Nat.ne_of_gt hi)]

theorem Numbered.bear (hw : w.Numbered) : (w.bear p name safe).Numbered :=
  hw.newInterp.modifyInterp _

section

variable (hw : w.Trees ∅) (hnumbered : w.Numbered) (hlive : (w.interp p).deleted = false)

include hnumbered hlive

theorem next_ne_of_live : w.nextInterp ≠ p := by
  rintro rfl
  rw [hnumbered.unknown] at hlive
  cases hlive

theorem interp_bear (j : InterpId) :
    (w.bear p name safe).interp j =
      if w.nextInterp = j then .fresh name safe (some p)
      else if p = j then
        { w.interp p with children := (w.interp p).children.insert name w.nextInterp }
      else w.interp j := by
  have hne := next_ne_of_live hnumbered hlive
  rw [bear]
  by_cases hpj : p = j
  · subst hpj
    rw [interp_modifyInterp_of_live (live_newInterp name safe _ hlive), interp_newInterp, if_neg hne,
      if_neg hne, if_pos rfl]
  · rw [interp_modifyInterp_of_ne hpj, interp_newInterp, if_neg hpj]

theorem get?_children_bear (q : InterpId) (label : String) :
    ((w.bear p name safe).interp q).children.get? label =
      if p = q ∧ name = label then some w.nextInterp
      else if w.nextInterp = q then none else (w.interp q).children.get? label := by
  have hne := next_ne_of_live hnumbered hlive
  rw [interp_bear hnumbered hlive]
  by_cases hq : w.nextInterp = q
  · subst hq
    simp [hne.symm, Interpreter.fresh]
  · rw [if_neg hq, if_neg hq]
    by_cases hpq : p = q
    · subst hpq
      simp [Table.get?_insert]
    · simp [hpq]

theorem parent_bear (c : InterpId) :
    ((w.bear p name safe).interp c).parent =
        (if w.nextInterp = c then some p else (w.interp c).parent) ∧
      ((w.bear p name safe).interp c).name =
        (if w.nextInterp = c then name else (w.interp c).name) ∧
      ((w.bear p name safe).interp c).deleted =
        (if w.nextInterp = c then false else (w.interp c).deleted) := by
  rw [interp_bear hnumbered hlive]
  split
  · exact ⟨rfl, rfl, rfl⟩
  · split
    · next hpc => exact hpc ▸ ⟨rfl, rfl, rfl⟩
    · exact ⟨rfl, rfl, rfl⟩

include hw

theorem Trees.child_bear {q c : InterpId} {label : String}
    (hc : ((w.bear p name safe).interp q).children.get? label = some c) :
    ((w.bear p name safe).interp c).parent = some q ∧
      ((w.bear p name safe).interp c).name = label := by
  obtain ⟨hparent, hlabel, -⟩ := @parent_bear w p name safe hnumbered hlive c
  rw [hparent, hlabel]
  rw [get?_children_bear hnumbered hlive] at hc
  split at hc
  · next hnew =>
    cases hc
    exact ⟨by rw [if_pos rfl, hnew.1], by rw [if_pos rfl, hnew.2]⟩
  · split at hc
    · cases hc
    · have hold := hw.child q label c hc
      have hcnext := (hw.parent_ne hnumbered hold.1).2.symm
      rwa [if_neg hcnext, if_neg hcnext]

variable (hname : (w.interp p).children.get? name = none)

include hname

theorem Trees.nodup_keys_bear (q : InterpId) :
    ((w.bear p name safe).interp q).children.keys.Nodup := by
  rw [interp_bear hnumbered hlive]
  split
  · exact List.nodup_nil
  · split
    · rw [Table.keys_insert_of_not_mem (Table.get?_eq_none_iff.1 hname)]
      refine List.nodup_append.2 ⟨hw.keys p, List.nodup_singleton _, fun a ha b hb hab => ?_⟩
      rw [hab, List.mem_singleton.1 hb] at ha
      exact Table.get?_eq_none_iff.1 hname ha
    · exact hw.keys q

/-- The live parent of a live interpreter lists it, also if one of the two is the new one. -/
theorem Trees.listed_bear {q c : InterpId}
    (hclive : ((w.bear p name safe).interp c).deleted = false)
    (hc : ((w.bear p name safe).interp c).parent = some q) :
    ((w.bear p name safe).interp q).deleted = false ∧
      ((w.bear p name safe).interp q).children.get? ((w.bear p name safe).interp c).name =
        some c := by
  have hne := next_ne_of_live hnumbered hlive
  have hkin (c : InterpId) := @parent_bear w p name safe hnumbered hlive c
  rw [(hkin c).1] at hc
  rw [(hkin c).2.2] at hclive
  rw [(hkin q).2.2, (hkin c).2.1, get?_children_bear hnumbered hlive]
  split at hc
  · next hnew =>
    cases hc
    rw [if_neg hne, if_pos hnew, if_pos ⟨rfl, rfl⟩, hnew]
    exact ⟨hlive, rfl⟩
  · next hcnext =>
    rw [if_neg hcnext] at hclive
    obtain hdying | ⟨hqlive, hlisted⟩ := hw.listed c q hclive hc
    · cases hdying
    · have hqnext := (hw.parent_ne hnumbered hc).1.symm
      rw [if_neg hqnext, if_neg hcnext, if_neg, if_neg hqnext]
      · exact ⟨hqlive, hlisted⟩
      · rintro ⟨rfl, rfl⟩
        rw [hname] at hlisted
        cases hlisted

theorem Trees.bear : (w.bear p name safe).Trees ∅ := by
  have hkin (c : InterpId) := @parent_bear w p name safe hnumbered hlive c
  constructor
  case child =>
    intro q label c hc
    exact hw.child_bear hnumbered hlive hc
  case keys => exact hw.nodup_keys_bear hnumbered hlive hname
  case parent_lt =>
    intro c q hc
    rw [(hkin c).1] at hc
    split at hc
    · next hnew =>
      cases hc
      rw [← hnew]
      exact hnumbered p (by rw [get?_of_live hlive]; rfl)
    · exact hw.parent_lt c q hc
  case listed =>
    intro c q hclive hc
    exact .inr (hw.listed_bear hnumbered hlive hname hclive hc)
  case childless =>
    intro q hq
    rw [(hkin q).2.2] at hq
    rw [interp_bear hnumbered hlive]
    split at hq
    · cases hq
    · next hqnext =>
      rw [if_neg hqnext]
      split
      · next hpq =>
        rw [← hpq, hlive] at hq
        cases hq
      · exact hw.childless q hq
  case deleted =>
    intro i hi
    cases hi

end

end ScriptHost.World
