/-!
# Tables

A finite map kept as a list of pairs in order of first insertion. Every table of the library is one
of these, so listings are deterministic and the lemmas below serve all of them.
-/

namespace ScriptHost

/-- A finite map from keys to values, in order of first insertion. -/
structure Table (κ α : Type) where
  entries : List (κ × α) := []
deriving Inhabited

namespace Table

variable {κ α : Type} [DecidableEq κ]

/-- The table without entries. -/
def empty : Table κ α := ⟨[]⟩

instance : EmptyCollection (Table κ α) := ⟨empty⟩

/-- The value that a list of pairs gives to a key. -/
def lookup (k : κ) : List (κ × α) → Option α
  | [] => none
  | (k', a) :: rest => if k' = k then some a else lookup k rest

/-- The pairs with the value of a key set: in place if the key occurs, at the end otherwise. -/
def put (k : κ) (a : α) : List (κ × α) → List (κ × α)
  | [] => [(k, a)]
  | (k', a') :: rest => if k' = k then (k, a) :: rest else (k', a') :: put k a rest

/-- The value of a key. -/
def get? (t : Table κ α) (k : κ) : Option α :=
  lookup k t.entries

/-- The value of a key, or a default. -/
def getD (t : Table κ α) (k : κ) (default : α) : α :=
  (t.get? k).getD default

/-- Whether a key has a value. -/
def contains (t : Table κ α) (k : κ) : Bool :=
  (t.get? k).isSome

/-- Set the value of a key. -/
def insert (t : Table κ α) (k : κ) (a : α) : Table κ α :=
  ⟨put k a t.entries⟩

/-- Remove a key. -/
def erase (t : Table κ α) (k : κ) : Table κ α :=
  ⟨t.entries.filter fun entry => entry.1 ≠ k⟩

/-- Change the value of a key that has one. -/
def modify (t : Table κ α) (k : κ) (f : α → α) : Table κ α :=
  match t.get? k with
  | some a => t.insert k (f a)
  | none => t

/-- The keys in order of first insertion. -/
def keys (t : Table κ α) : List κ :=
  t.entries.map (·.1)

/-- The values in order of the first insertion of their keys. -/
def values (t : Table κ α) : List α :=
  t.entries.map (·.2)

/-- The number of keys. -/
def size (t : Table κ α) : Nat :=
  t.entries.length

/-- A table with the given entries; a later entry of a key replaces an earlier one. -/
def ofList (entries : List (κ × α)) : Table κ α :=
  entries.foldl (fun t (k, a) => t.insert k a) empty

@[simp] theorem get?_empty (k : κ) : (empty : Table κ α).get? k = none := rfl

theorem lookup_put (k k' : κ) (a : α) (entries : List (κ × α)) :
    lookup k' (put k a entries) = if k = k' then some a else lookup k' entries := by
  induction entries with
  | nil => simp [put, lookup]
  | cons entry rest ih =>
    obtain ⟨k₀, a₀⟩ := entry
    by_cases h₀ : k₀ = k
    · subst h₀
      by_cases h : k₀ = k' <;> simp [put, lookup, h]
    · by_cases h₁ : k₀ = k'
      · subst h₁
        simp [put, lookup, h₀, Ne.symm h₀]
      · simp [put, lookup, h₀, h₁, ih]

theorem put_put (k : κ) (a b : α) (entries : List (κ × α)) :
    put k b (put k a entries) = put k b entries := by
  induction entries with
  | nil => simp [put]
  | cons entry rest ih =>
    obtain ⟨k₀, a₀⟩ := entry
    by_cases h : k₀ = k <;> simp [put, h, ih]

theorem put_of_lookup {k : κ} {a : α} {entries : List (κ × α)} (h : lookup k entries = some a) :
    put k a entries = entries := by
  induction entries with
  | nil => cases h
  | cons entry rest ih =>
    obtain ⟨k₀, a₀⟩ := entry
    by_cases h₀ : k₀ = k
    · simp_all [put, lookup]
    · simp_all [put, lookup]

theorem get?_insert (t : Table κ α) (k k' : κ) (a : α) :
    (t.insert k a).get? k' = if k = k' then some a else t.get? k' :=
  lookup_put k k' a t.entries

theorem lookup_filter (k k' : κ) (entries : List (κ × α)) :
    lookup k' (entries.filter fun entry => entry.1 ≠ k) =
      if k = k' then none else lookup k' entries := by
  induction entries with
  | nil => simp [lookup]
  | cons entry rest ih =>
    obtain ⟨k₀, a₀⟩ := entry
    by_cases h₀ : k₀ = k
    · subst h₀
      by_cases h : k₀ = k' <;> simp_all [lookup]
    · by_cases h₁ : k₀ = k'
      · subst h₁
        simp [lookup, h₀, Ne.symm h₀]
      · simp_all [lookup]

theorem get?_erase (t : Table κ α) (k k' : κ) :
    (t.erase k).get? k' = if k = k' then none else t.get? k' :=
  lookup_filter k k' t.entries

theorem get?_modify (t : Table κ α) (k k' : κ) (f : α → α) :
    (t.modify k f).get? k' = if k = k' then (t.get? k').map f else t.get? k' := by
  unfold modify
  cases h : t.get? k with
  | none =>
    by_cases hk : k = k'
    · subst hk
      simp [h]
    · simp [hk]
  | some a =>
    rw [get?_insert]
    by_cases hk : k = k'
    · subst hk
      simp [h]
    · simp [hk]

theorem insert_insert (t : Table κ α) (k : κ) (a b : α) :
    (t.insert k a).insert k b = t.insert k b :=
  congrArg Table.mk (put_put k a b t.entries)

theorem modify_modify (t : Table κ α) (k : κ) (f g : α → α) :
    (t.modify k f).modify k g = t.modify k fun a => g (f a) := by
  cases h : t.get? k with
  | none => simp [modify, h]
  | some a => simp [modify, h, get?_insert, insert_insert]

theorem modify_eq_self {t : Table κ α} {k : κ} {f : α → α} (hf : ∀ a, t.get? k = some a → f a = a) :
    t.modify k f = t := by
  cases h : t.get? k with
  | none => simp [modify, h]
  | some a =>
    have hput : put k a t.entries = t.entries := put_of_lookup h
    simp [modify, h, hf a h, insert, hput]

/-! ### Keys -/

theorem lookup_eq_none_iff {k : κ} {entries : List (κ × α)} :
    lookup k entries = none ↔ k ∉ entries.map (·.1) := by
  induction entries with
  | nil => simp [lookup]
  | cons entry rest ih =>
    by_cases h : entry.1 = k
    · simp [lookup, h]
    · simp [lookup, h, ih, Ne.symm h]

theorem map_put (k : κ) (a : α) (entries : List (κ × α)) :
    (put k a entries).map (·.1) =
      if k ∈ entries.map (·.1) then entries.map (·.1) else entries.map (·.1) ++ [k] := by
  induction entries with
  | nil => rfl
  | cons entry rest ih =>
    by_cases h : entry.1 = k
    · simp [put, h]
    · by_cases hmem : k ∈ rest.map (·.1)
      · rw [if_pos hmem] at ih
        simp [put, h, ih, List.mem_cons_of_mem _ hmem]
      · rw [if_neg hmem] at ih
        have hnot : k ∉ (entry :: rest).map (·.1) := by
          rw [List.map_cons, List.mem_cons]
          exact not_or.2 ⟨Ne.symm h, hmem⟩
        rw [if_neg hnot]
        simp [put, h, ih]

omit [DecidableEq κ] in
theorem length_keys (t : Table κ α) : t.keys.length = t.size :=
  List.length_map _

theorem get?_eq_none_iff {t : Table κ α} {k : κ} : t.get? k = none ↔ k ∉ t.keys :=
  lookup_eq_none_iff

theorem mem_keys_iff {t : Table κ α} {k : κ} : k ∈ t.keys ↔ (t.get? k).isSome = true := by
  rw [Option.isSome_iff_ne_none, ne_eq, get?_eq_none_iff, Decidable.not_not]

theorem put_of_not_mem {k : κ} {entries : List (κ × α)} (h : k ∉ entries.map (·.1)) (a : α) :
    put k a entries = entries ++ [(k, a)] := by
  induction entries with
  | nil => rfl
  | cons entry rest ih =>
    rw [List.map_cons, List.mem_cons, not_or] at h
    rw [put, if_neg (Ne.symm h.1), ih h.2, List.cons_append]

theorem entries_insert_of_not_mem {t : Table κ α} {k : κ} (h : k ∉ t.keys) (a : α) :
    (t.insert k a).entries = t.entries ++ [(k, a)] :=
  put_of_not_mem h a

theorem keys_insert_of_not_mem {t : Table κ α} {k : κ} (h : k ∉ t.keys) (a : α) :
    (t.insert k a).keys = t.keys ++ [k] :=
  (map_put k a t.entries).trans (if_neg h)

theorem keys_modify (t : Table κ α) (k : κ) (f : α → α) : (t.modify k f).keys = t.keys := by
  unfold modify
  split
  · next a ha =>
    have hmem : k ∈ t.keys := Decidable.byContradiction fun hnot => by
      rw [get?_eq_none_iff.2 hnot] at ha
      cases ha
    exact (map_put k (f a) t.entries).trans (if_pos hmem)
  · rfl

theorem mem_of_get? {t : Table κ α} {k : κ} {a : α} (h : t.get? k = some a) :
    (k, a) ∈ t.entries := by
  obtain ⟨entries⟩ := t
  simp only [get?] at h
  induction entries with
  | nil => cases h
  | cons entry rest ih =>
    rw [lookup] at h
    split at h
    · next hk =>
      cases h
      rw [← hk]
      exact List.mem_cons_self
    · exact List.mem_cons_of_mem _ (ih h)

theorem mem_values_of_get? {t : Table κ α} {k : κ} {a : α} (h : t.get? k = some a) :
    a ∈ t.values :=
  List.mem_map_of_mem (f := (·.2)) (mem_of_get? h)

theorem mem_values_insert {t : Table κ α} {k : κ} {a b : α} (h : b ∈ (t.insert k a).values) :
    b = a ∨ b ∈ t.values := by
  obtain ⟨entries⟩ := t
  simp only [values, insert] at h ⊢
  induction entries with
  | nil => simpa [put] using h
  | cons entry rest ih =>
    obtain ⟨k', a'⟩ := entry
    by_cases hk : k' = k
    · simp only [put, hk, if_true, List.map_cons, List.mem_cons] at h ⊢
      exact h.imp_right .inr
    · simp only [put, hk, if_false, List.map_cons, List.mem_cons] at h ⊢
      rcases h with hb | hb
      · exact .inr (.inl hb)
      · exact (ih hb).imp_right .inr

theorem get?_of_mem {t : Table κ α} {k : κ} {a : α} (hkeys : t.keys.Nodup)
    (h : (k, a) ∈ t.entries) : t.get? k = some a := by
  obtain ⟨entries⟩ := t
  simp only [keys, get?] at hkeys h ⊢
  induction entries with
  | nil => cases h
  | cons entry rest ih =>
    rw [List.map_cons, List.nodup_cons] at hkeys
    rcases List.mem_cons.1 h with heq | hmem
    · subst heq
      simp [lookup]
    · have hne : entry.1 ≠ k := by
        rintro rfl
        exact hkeys.1 (List.mem_map_of_mem (f := (·.1)) hmem)
      rw [lookup, if_neg hne]
      exact ih hkeys.2 hmem

end Table

end ScriptHost
