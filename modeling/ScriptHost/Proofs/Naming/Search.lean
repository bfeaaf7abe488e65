import Mathlib.Data.List.Nodup
import Mathlib.Data.List.Perm.Subperm
import ScriptHost.Interpreter
import ScriptHost.Proofs.Number.Decimal

/-!
# Names that are generated

A name for a child is generated from a number that is counted up until no child has the name. The search
has no bound of its own. It comes to its end because different numbers make different names, so that
finitely many children cannot have them all. And since the number is counted up for good, no name is
generated again, whichever children come and go in the meantime.
-/

namespace ScriptHost

open Number

/-! ### Numbered names -/

/-- Numbers in a row whose names are among some names are as many at most as these. -/
theorem le_add_length_of_numbered {names : List String} {n m : Nat}
    (h : ∀ k, n ≤ k → k < m → s!"interp{k}" ∈ names) : m ≤ n + names.length := by
  have hdistinct : ((List.range' n (m - n)).map fun k => s!"interp{k}").Nodup :=
    List.Nodup.map (fun _ _ => numbered_inj) (List.nodup_range' 1)
  have hsub : ((List.range' n (m - n)).map fun k => s!"interp{k}") ⊆ names := by
    intro name hname
    obtain ⟨k, hk, rfl⟩ := List.mem_map.1 hname
    obtain ⟨hle, hlt⟩ := List.mem_range'_1.1 hk
    exact h k hle (by omega)
  have hcount := (hdistinct.subperm hsub).length_le
  rw [List.length_map, List.length_range'] at hcount
  exact Nat.sub_le_iff_le_add'.1 hcount

namespace Interpreter

variable {r r' r'' start : Interpreter} {n : Nat} {found found' : String × Nat} {name : String}

/-! ### The search -/

/-- The search for a name from a number on, without a bound: what it finds is the first name that no child
has, and the number after it. -/
inductive Searches (r : Interpreter) : Nat → String × Nat → Prop
  | free {n : Nat} (hfree : r.children.contains s!"interp{n}" = false) :
      Searches r n (s!"interp{n}", n + 1)
  | taken {n : Nat} {found : String × Nat} (htaken : r.children.contains s!"interp{n}" = true)
      (h : Searches r (n + 1) found) : Searches r n found

theorem Searches.unique (h : r.Searches n found) (h' : r.Searches n found') : found = found' := by
  induction h with
  | free hfree =>
    cases h' with
    | free => rfl
    | taken htaken => exact absurd (htaken.symm.trans hfree) Bool.noConfusion
  | taken htaken _ ih =>
    cases h' with
    | free hfree => exact absurd (htaken.symm.trans hfree) Bool.noConfusion
    | taken _ h' => exact ih h'

/-- Every name that the search passes over is the name of a child, and the one it finds is not. -/
theorem Searches.spec (h : r.Searches n found) :
    ∃ m, n ≤ m ∧ found = (s!"interp{m}", m + 1) ∧ r.children.contains s!"interp{m}" = false ∧
      ∀ k, n ≤ k → k < m → s!"interp{k}" ∈ r.children.keys := by
  induction h with
  | @free n hfree =>
    exact ⟨n, Nat.le_refl n, rfl, hfree, fun k hle hlt => absurd hlt (Nat.not_lt.2 hle)⟩
  | @taken n found htaken _ ih =>
    obtain ⟨m, hle, hfound, hfree, hpassed⟩ := ih
    refine ⟨m, Nat.le_of_succ_le hle, hfound, hfree, fun k hk hlt => ?_⟩
    obtain rfl | hk := Nat.eq_or_lt_of_le hk
    · exact Table.mem_keys_iff.2 htaken
    · exact hpassed k hk hlt

/-- From every number on there is a name that no child has, after as many others at most as there are
children. -/
theorem exists_free (r : Interpreter) (n : Nat) :
    ∃ k, n ≤ k ∧ k ≤ n + r.children.size ∧ r.children.contains s!"interp{k}" = false := by
  by_contra hnone
  push Not at hnone
  have htaken (k : Nat) (hle : n ≤ k) (hlt : k < n + r.children.size + 1) :
      s!"interp{k}" ∈ r.children.keys :=
    Table.mem_keys_iff.2 (Bool.of_not_eq_false (hnone k hle (Nat.le_of_lt_succ hlt)))
  have hcount := le_add_length_of_numbered htaken
  rw [Table.length_keys] at hcount
  exact Nat.not_succ_le_self _ hcount

/-- The search that gives up after some numbers finds what the search without a bound does, if one of these
numbers is that of a free name. -/
theorem searches_freeName {tries : Nat}
    (hfree : ∃ k, n ≤ k ∧ k ≤ n + tries ∧ r.children.contains s!"interp{k}" = false) :
    r.Searches n (r.freeName tries n) := by
  induction tries generalizing n with
  | zero =>
    obtain ⟨k, hle, hge, hfree⟩ := hfree
    obtain rfl := Nat.le_antisymm hle hge
    exact .free hfree
  | succ tries ih =>
    rw [freeName]
    split
    · next htaken =>
      obtain ⟨k, hle, hge, hfree⟩ := hfree
      have hne : n ≠ k := by
        rintro rfl
        exact absurd (htaken.symm.trans hfree) Bool.noConfusion
      exact .taken htaken (ih ⟨k, Nat.lt_of_le_of_ne hle hne, by omega, hfree⟩)
    · next hfree => exact .free (Bool.of_not_eq_true hfree)

theorem searches_generateName (r : Interpreter) :
    r.Searches r.nextChild (r.generateName.1, r.generateName.2.nextChild) :=
  searches_freeName (exists_free r r.nextChild)

/-- The search comes to an end, and it finds the generated name. -/
theorem searches_iff :
    r.Searches r.nextChild found ↔ found = (r.generateName.1, r.generateName.2.nextChild) := by
  constructor
  · exact fun h => h.unique (searches_generateName r)
  · rintro rfl
    exact searches_generateName r

/-- What is known of a generated name. -/
theorem generateName_spec (r : Interpreter) :
    ∃ m, r.nextChild ≤ m ∧ r.generateName = (s!"interp{m}", { r with nextChild := m + 1 }) ∧
      r.children.contains s!"interp{m}" = false ∧
      ∀ k, r.nextChild ≤ k → k < m → s!"interp{k}" ∈ r.children.keys := by
  obtain ⟨m, hle, hfound, hrest⟩ := (searches_generateName r).spec
  refine ⟨m, hle, ?_, hrest⟩
  obtain ⟨hname, hnext⟩ := Prod.mk.inj hfound
  rw [← hname, ← hnext]
  rfl

theorem generateName_free (r : Interpreter) : r.children.contains r.generateName.1 = false := by
  obtain ⟨m, -, hgenerate, hfree, -⟩ := r.generateName_spec
  rwa [hgenerate]

theorem generateName_ne_empty (r : Interpreter) : r.generateName.1.isEmpty = false := by
  obtain ⟨m, -, hgenerate, -⟩ := r.generateName_spec
  simp [hgenerate]

/-- Not more numbers are used up than there are children that may have them, and one. -/
theorem nextChild_generateName_le (r : Interpreter) :
    r.generateName.2.nextChild ≤ r.nextChild + r.children.size + 1 := by
  obtain ⟨m, -, hgenerate, -, hpassed⟩ := r.generateName_spec
  have hcount := le_add_length_of_numbered hpassed
  rw [Table.length_keys] at hcount
  rw [hgenerate]
  exact Nat.succ_le_succ hcount

/-! ### Names over time -/

/-- The number of the next name that is generated, and the children. -/
def naming (r : Interpreter) : Nat × Table String InterpId :=
  (r.nextChild, r.children)

/-- Between two moments no name is generated and no child is listed. -/
structure Unnamed (r r' : Interpreter) : Prop where
  next : r'.nextChild = r.nextChild
  children : r'.children.keys ⊆ r.children.keys

theorem Unnamed.of_naming_eq (h : r'.naming = r.naming) : Unnamed r r' := by
  obtain ⟨hnext, hchildren⟩ := Prod.mk.inj h
  exact ⟨hnext, hchildren ▸ List.Subset.refl _⟩

theorem Unnamed.refl (r : Interpreter) : Unnamed r r :=
  .of_naming_eq rfl

/-- What is known of an interpreter since some moment, by the names that were generated since and the names
under which children were listed since. -/
structure NamesTold (start r : Interpreter) (generated listed : List String) : Prop where
  distinct : generated.Nodup
  /-- A name that was generated is not generated again, since its number is gone. -/
  numbered : ∀ name ∈ generated, ∃ n < r.nextChild, name = s!"interp{n}"
  /-- A number is gone if its name was generated or was the name of a child. -/
  passed : ∀ n, start.nextChild ≤ n → n < r.nextChild →
    s!"interp{n}" ∈ generated ++ (listed ++ start.children.keys)
  children : r.children.keys ⊆ listed ++ start.children.keys

namespace NamesTold

variable {generated listed : List String}

theorem refl (r : Interpreter) : NamesTold r r [] [] where
  distinct := List.nodup_nil
  numbered := List.forall_mem_nil _
  passed _ hle hlt := absurd hlt (Nat.not_lt.2 hle)
  children := List.Subset.refl _

/-- The next name is none of those that were generated. -/
theorem fresh (h : NamesTold start r generated listed) : r.generateName.1 ∉ generated := by
  intro hmem
  obtain ⟨m, hle, hgenerate, -⟩ := r.generateName_spec
  obtain ⟨n, hlt, hname⟩ := h.numbered _ hmem
  rw [hgenerate] at hname
  obtain rfl := numbered_inj hname
  exact absurd hlt (Nat.not_lt.2 hle)

theorem generate (h : NamesTold start r generated listed) :
    NamesTold start r.generateName.2 (generated ++ [r.generateName.1]) listed := by
  have hfresh := h.fresh
  obtain ⟨m, hle, hgenerate, -, hpassed⟩ := r.generateName_spec
  rw [hgenerate] at hfresh ⊢
  refine ⟨?_, fun name hname => ?_, fun n hstart hlt => ?_, h.children⟩
  · exact (List.perm_append_singleton _ _).nodup_iff.2 (List.nodup_cons.2 ⟨hfresh, h.distinct⟩)
  · rw [List.mem_append, List.mem_singleton] at hname
    obtain hname | rfl := hname
    · obtain ⟨n, hlt, hn⟩ := h.numbered name hname
      exact ⟨n, Nat.lt_succ_of_lt (Nat.lt_of_lt_of_le hlt hle), hn⟩
    · exact ⟨m, Nat.lt_succ_self m, rfl⟩
  · rw [List.append_assoc, List.mem_append]
    obtain hlt | rfl := Nat.lt_succ_iff_lt_or_eq.1 hlt
    · by_cases hnext : n < r.nextChild
      · refine (List.mem_append.1 (h.passed n hstart hnext)).imp_right ?_
        exact List.mem_append_right _
      · exact .inr (List.mem_append_right _ (h.children (hpassed n (Nat.not_lt.1 hnext) hlt)))
    · exact .inr (List.mem_append_left _ (List.mem_singleton_self _))

theorem list (h : NamesTold start r generated listed) (name : String) (child : InterpId) :
    NamesTold start { r with children := r.children.insert name child } generated
      (listed ++ [name]) := by
  have hmore : listed ++ start.children.keys ⊆ (listed ++ [name]) ++ start.children.keys :=
    ((List.sublist_append_left listed [name]).append_right _).subset
  refine ⟨h.distinct, h.numbered, fun n hstart hlt => ?_, fun name' hname' => ?_⟩
  · rw [List.mem_append]
    exact (List.mem_append.1 (h.passed n hstart hlt)).imp_right fun hmem => hmore hmem
  · by_cases hname : name = name'
    · subst hname
      exact List.mem_append_left _ (List.mem_append_right _ (List.mem_singleton_self _))
    · rw [Table.mem_keys_iff, Table.get?_insert, if_neg hname, ← Table.mem_keys_iff] at hname'
      exact hmore (h.children hname')

theorem other (h : NamesTold start r generated listed) (hidle : Unnamed r r') :
    NamesTold start r' generated listed := by
  refine ⟨h.distinct, ?_, ?_, List.Subset.trans hidle.children h.children⟩
  · rw [hidle.next]
    exact h.numbered
  · rw [hidle.next]
    exact h.passed

/-- Every number that is gone was that of a name that was generated or of a child. -/
theorem nextChild_le (h : NamesTold start r generated listed) :
    r.nextChild ≤
      start.nextChild + (generated.length + (listed.length + start.children.size)) := by
  have hcount := le_add_length_of_numbered h.passed
  rwa [List.length_append, List.length_append, Table.length_keys] at hcount

end NamesTold

end Interpreter

end ScriptHost
