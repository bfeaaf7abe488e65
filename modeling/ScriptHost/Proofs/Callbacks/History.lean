import Mathlib.Data.List.Induction
import Mathlib.Data.List.Nodup
import ScriptHost.Callbacks
import ScriptHost.Proofs.Number.Decimal

/-!
# The history of registered closures

A registry is changed by registering a closure, by removing one and by removing all. From the changes
that led to it one can tell all that it answers: the ids that were given out are numbered in order, and
an id has the closure that was registered under it as long as that was not removed since.
-/

namespace ScriptHost.Callbacks

variable {c : Callbacks} {k l : Nat} {id : String} {closure other : Closure}

/-! ### Ids -/

theorem toList_idOf (n : Nat) : (idOf n).toList = 'c' :: 'b' :: Nat.toDigits 10 n := by
  have htext : idOf n = "cb" ++ n.repr := rfl
  rw [htext, String.toList_append, Nat.toList_repr]
  rfl

/-- The number that stands in the text of an id. -/
def numberIn? (id : String) : Option Nat :=
  Number.digits? 10 (id.toList.drop 2)

theorem numberIn?_idOf (n : Nat) : numberIn? (idOf n) = some n := by
  rw [numberIn?, toList_idOf]
  exact Number.digits?_toDigits n

theorem idOf_injective : Function.Injective idOf := by
  intro k l h
  rw [← Option.some_inj, ← numberIn?_idOf k, h, numberIn?_idOf]

@[simp]
theorem idOf_inj : idOf k = idOf l ↔ k = l :=
  idOf_injective.eq_iff

/-! ### Changes -/

/-- A change of a registry. -/
inductive Change
  | register (closure : Closure)
  | unregister (id : String)
  | clear

/-- The closure that a change registers. -/
def Change.closure? : Change → Option Closure
  | .register closure => some closure
  | .unregister _ => none
  | .clear => none

/-- Make a change. -/
def apply (c : Callbacks) : Change → Callbacks
  | .register closure => (c.register closure).2
  | .unregister id => c.unregister id
  | .clear => c.clear

/-- Make changes one after the other. -/
def replay (c : Callbacks) (changes : List Change) : Callbacks :=
  changes.foldl apply c

/-- The ids that are answered when changes are made one after the other. -/
def issued (c : Callbacks) : List Change → List String
  | [] => []
  | .register closure :: changes =>
    (c.register closure).1 :: issued (c.apply (.register closure)) changes
  | change :: changes => issued (c.apply change) changes

/-- The closures that changes register, in order. -/
def registered (changes : List Change) : List Closure :=
  changes.filterMap Change.closure?

/-- The change with a number among those that register is the registration of a closure, which has been
removed neither by its id nor with all others since. -/
def Stored (changes : List Change) (k : Nat) (closure : Closure) : Prop :=
  ∃ before after, changes = before ++ .register closure :: after ∧
    k = (registered before).length + 1 ∧ .clear ∉ after ∧ .unregister (idOf k) ∉ after

variable {change : Change} {changes later : List Change}

@[simp]
theorem replay_nil (c : Callbacks) : c.replay [] = c := rfl

theorem replay_append (c : Callbacks) (changes later : List Change) :
    c.replay (changes ++ later) = (c.replay changes).replay later :=
  List.foldl_append

theorem registered_append (changes later : List Change) :
    registered (changes ++ later) = registered changes ++ registered later :=
  List.filterMap_append

/-- A closure is stored after one more change if that registers it, or if it was stored before and the
change does not remove it. -/
theorem stored_concat : Stored (changes ++ [change]) k closure ↔
    (change = .register closure ∧ k = (registered changes).length + 1) ∨
      (Stored changes k closure ∧ change ≠ .clear ∧ change ≠ .unregister (idOf k)) := by
  constructor
  · rintro ⟨before, after, hchanges, hk, hclear, hunregister⟩
    rcases List.eq_nil_or_concat after with rfl | ⟨after, last, rfl⟩
    · obtain ⟨rfl, hlast⟩ := List.append_inj' hchanges rfl
      exact .inl ⟨List.singleton_inj.1 hlast, hk⟩
    · rw [List.concat_eq_append, ← List.cons_append, ← List.append_assoc] at hchanges
      obtain ⟨rfl, hlast⟩ := List.append_inj' hchanges rfl
      obtain rfl := List.singleton_inj.1 hlast
      rw [List.concat_eq_append, List.mem_append, not_or, List.mem_singleton] at hclear hunregister
      exact .inr ⟨⟨before, after, rfl, hk, hclear.1, hunregister.1⟩, Ne.symm hclear.2,
        Ne.symm hunregister.2⟩
  · rintro (⟨rfl, hk⟩ | ⟨⟨before, after, rfl, hk, hclear, hunregister⟩, hclears, hremoves⟩)
    · exact ⟨changes, [], rfl, hk, List.not_mem_nil, List.not_mem_nil⟩
    · refine ⟨before, after ++ [change], by simp, hk, ?_, ?_⟩
      · simpa [hclear] using Ne.symm hclears
      · simpa [hunregister] using Ne.symm hremoves

/-! ### What a registry knows of its history -/

/-- What a registry holds is what its history left in it, with the oldest closure first. -/
structure Reflects (c : Callbacks) (changes : List Change) : Prop where
  next : c.next = (registered changes).length + 1
  get? : ∀ k closure, c.entries.get? k = some closure ↔ Stored changes k closure
  sorted : c.entries.keys.Pairwise (· < ·)

theorem Reflects.mem_keys (h : c.Reflects changes) :
    k ∈ c.entries.keys ↔ ∃ closure, Stored changes k closure := by
  rw [Table.mem_keys_iff, Option.isSome_iff_exists]
  exact exists_congr fun closure => h.get? k closure

theorem Reflects.lt_next (h : c.Reflects changes) (hk : k ∈ c.entries.keys) : k < c.next := by
  obtain ⟨closure, before, after, rfl, rfl, -⟩ := h.mem_keys.1 hk
  rw [h.next, registered_append, List.length_append]
  simp [registered, Change.closure?]

theorem Reflects.number?_eq_some_iff (h : c.Reflects changes) :
    c.number? id = some k ↔ id = idOf k ∧ ∃ closure, Stored changes k closure := by
  rw [number?, ← h.mem_keys]
  constructor
  · intro hfound
    obtain rfl : idOf k = id := by simpa using List.find?_some hfound
    exact ⟨rfl, List.mem_of_find?_eq_some hfound⟩
  · rintro ⟨rfl, hk⟩
    have hsome : (c.entries.keys.find? fun n => idOf n = idOf k).isSome = true := by
      rw [List.find?_isSome]
      exact ⟨k, hk, by simp⟩
    obtain ⟨n, hn⟩ := Option.isSome_iff_exists.1 hsome
    obtain rfl : n = k := by simpa using List.find?_some hn
    exact hn

theorem Reflects.register (h : c.Reflects changes) (closure : Closure) :
    (c.register closure).2.Reflects (changes ++ [.register closure]) := by
  have hnew : c.next ∉ c.entries.keys := fun hmem => absurd (h.lt_next hmem) (Nat.lt_irrefl _)
  refine ⟨?_, fun k other => ?_, ?_⟩
  · rw [registered_append, List.length_append]
    exact congrArg (· + 1) h.next
  · rw [stored_concat, ← h.get?, ← h.next]
    have hget := Table.get?_insert c.entries c.next k closure
    refine (iff_of_eq (congrArg (· = some other) hget)).trans ?_
    by_cases hk : c.next = k
    · subst hk
      rw [if_pos rfl, Table.get?_eq_none_iff.2 hnew]
      simp
    · rw [if_neg hk]
      simp [Ne.symm hk]
  · refine (congrArg (List.Pairwise _) (Table.keys_insert_of_not_mem hnew closure)).mpr ?_
    rw [List.pairwise_append]
    refine ⟨h.sorted, List.pairwise_singleton _ _, fun k hk l hl => ?_⟩
    rw [List.mem_singleton.1 hl]
    exact h.lt_next hk

theorem Reflects.unregister (h : c.Reflects changes) (id : String) :
    (c.unregister id).Reflects (changes ++ [.unregister id]) := by
  have hcount : (registered (changes ++ [.unregister id])).length = (registered changes).length := by
    rw [registered_append]
    exact congrArg List.length (List.append_nil _)
  have hstored (k : Nat) (closure : Closure) : Stored (changes ++ [.unregister id]) k closure ↔
      Stored changes k closure ∧ id ≠ idOf k := by
    rw [stored_concat]
    simp
  rw [Callbacks.unregister]
  cases hnumber : c.number? id with
  | none =>
    refine ⟨by rw [h.next, hcount], fun k closure => ?_, h.sorted⟩
    rw [hstored, h.get?, iff_self_and]
    rintro hclosure rfl
    have hk := h.number?_eq_some_iff.2 ⟨rfl, closure, hclosure⟩
    rw [hnumber] at hk
    cases hk
  | some n =>
    obtain ⟨rfl, -⟩ := h.number?_eq_some_iff.1 hnumber
    refine ⟨by rw [hcount, ← h.next], fun k closure => ?_, ?_⟩
    · rw [hstored, ← h.get?]
      dsimp only
      rw [Table.get?_erase]
      split <;> simp_all
    · exact h.sorted.sublist (List.filter_sublist.map _)

theorem Reflects.clear (h : c.Reflects changes) : c.clear.Reflects (changes ++ [.clear]) := by
  refine ⟨?_, fun k closure => ?_, .nil⟩
  · rw [registered_append]
    exact h.next.trans (by simp [registered, Change.closure?])
  · rw [stored_concat]
    simp [Callbacks.clear]

theorem Reflects.apply (h : c.Reflects changes) (change : Change) :
    (c.apply change).Reflects (changes ++ [change]) := by
  cases change with
  | register closure => exact h.register closure
  | unregister id => exact h.unregister id
  | clear => exact h.clear

/-- The ids that a registry lists are those of the closures that are stored, in the order in which
these were registered. -/
theorem Reflects.ids (h : c.Reflects changes) :
    ∃ numbers : List Nat, c.ids = numbers.map idOf ∧ numbers.Pairwise (· < ·) ∧
      ∀ k, k ∈ numbers ↔ ∃ closure, Stored changes k closure :=
  ⟨c.entries.keys, rfl, h.sorted, fun _ => h.mem_keys⟩

end ScriptHost.Callbacks
