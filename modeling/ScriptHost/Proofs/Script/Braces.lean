import ScriptHost.Proofs.Script.Literal
import ScriptHost.Proofs.WordList.Grammar

/-!
# Balanced braces

Three functions count braces: one tells whether a word can stand in braces, one reads a word in braces
from a list and one reads a word in braces from a script. They start with different counts and stop at
different places, but what they take in braces is the same: exactly the texts with balanced braces.
-/

namespace ScriptHost.Script

open WordList

/-! ### Words in braces of a script -/

theorem balancedFrom_of_closeBrace {depth : Nat} {cs text rest : List Char}
    (h : closeBrace (depth + 1) cs = some (text, rest)) : balancedFrom depth text = true := by
  generalize hopen : depth + 1 = opened at h
  fun_induction closeBrace opened cs generalizing depth text rest with
  | case1 | case2 => simp at h
  | case3 opened c cs ih =>
    obtain ⟨⟨text, _⟩, hclose, heq⟩ := Option.map_eq_some_iff.1 h
    cases heq
    rw [balancedFrom]
    exact ih hopen hclose
  | case4 opened c cs hslash hlast =>
    -- No other brace is open: the text ends here.
    cases h
    have hdepth : depth = 0 := by omega
    simp [balancedFrom, hdepth]
  | case5 opened c cs hslash hgoes inner =>
    rename_i ih
    obtain ⟨⟨text, _⟩, hclose, heq⟩ := Option.map_eq_some_iff.1 h
    cases heq
    by_cases hbrace : c = '{'
    · subst hbrace
      rw [balancedFrom]
      exact ih (by simp [inner, ← hopen]) hclose
    · by_cases hend : c = '}'
      · subst hend
        obtain ⟨depth, rfl⟩ : ∃ n, depth = n + 1 := Nat.exists_eq_add_one.2 (by simp at hgoes; omega)
        rw [balancedFrom]
        exact ih (by simp [inner, ← hopen]) hclose
      · rw [balancedFrom_cons hslash hbrace hend]
        exact ih (by simp [inner, hbrace, hend, hopen]) hclose

/-- A word in braces goes up to the brace in front of which the others are balanced. -/
theorem closeBrace_eq_some_iff {cs text rest : List Char} :
    closeBrace 1 cs = some (text, rest) ↔ cs = text ++ '}' :: rest ∧ balanced text = true := by
  constructor
  · intro h
    exact ⟨eq_append_of_closeBrace h, balancedFrom_of_closeBrace h⟩
  · rintro ⟨rfl, hbalanced⟩
    exact closeBrace_append rest hbalanced

/-! ### Lists of one word -/

/-- A text in braces is a list of that one word if its braces are balanced. Otherwise the word ends
before the last brace, or nowhere. -/
theorem words_enclosed_iff {cs : List Char} :
    words ('{' :: (cs ++ ['}'])) = .ok [cs] ↔ balanced cs = true := by
  constructor
  · intro h
    rw [words_eq, List.dropWhile_cons_of_neg (by decide)] at h
    dsimp only at h
    rw [firstWord] at h
    cases hword : bracedWord 0 (cs ++ ['}']) with
    | none =>
      rw [hword] at h
      cases h
    | some found =>
      obtain ⟨word, rest⟩ := found
      rw [hword] at h
      dsimp only at h
      split at h
      · cases h
      · next read hread =>
        split at hread
        · cases hread
          obtain ⟨more, -, heq⟩ := Text.map_eq_ok_iff.1 h
          obtain ⟨rfl, -⟩ := List.cons.inj heq
          exact balanced_iff.2 (bracedWord_eq_some_iff.1 hword).2
        · cases hread
  · intro h
    have hwords : words ('{' :: cs ++ ['}'] ++ []) = (words []).map (cs :: ·) := words_braced h rfl
    rw [words_nil, List.append_nil] at hwords
    exact hwords

/-! ### All three -/

theorem split_enclosed_iff {t : String} :
    split ("\x7b" ++ t ++ "\x7d") = .ok [t] ↔ balanced t.toList = true := by
  have htext : ("\x7b" ++ t ++ "\x7d").toList = '{' :: (t.toList ++ ['}']) := by simp
  rw [← words_enclosed_iff, split, htext]
  constructor
  · intro h
    obtain ⟨ws, hwords, heq⟩ := Text.map_eq_ok_iff.1 h
    obtain ⟨w, rfl, hw⟩ := List.map_eq_singleton_iff.1 heq
    rw [hwords, ← hw, String.toList_ofList]
  · intro h
    rw [h]
    simp [Except.map]

/-- A text has balanced braces exactly if it is the one word of the list that consists of it in braces,
and exactly if it is what a script has in braces when it goes on with the text and a closing brace,
whatever comes next. A script has nothing else in braces than such texts, and reading goes on right
behind the closing brace. -/
theorem braces_agree (t : String) :
    (balanced t.toList = true ↔ split ("\x7b" ++ t ++ "\x7d") = .ok [t]) ∧
      (∀ rest, balanced t.toList = true ↔ braced (t.toList ++ '}' :: rest) = .ok (t, rest)) ∧
      ∀ cs rest, braced cs = .ok (t, rest) ↔
        cs = t.toList ++ '}' :: rest ∧ balanced t.toList = true := by
  have hbraced (cs rest : List Char) : braced cs = .ok (t, rest) ↔
      cs = t.toList ++ '}' :: rest ∧ balanced t.toList = true :=
    braced_eq_ok_iff.trans closeBrace_eq_some_iff
  refine ⟨split_enclosed_iff.symm, fun rest => ?_, hbraced⟩
  rw [hbraced]
  exact (and_iff_right rfl).symm

/-- A backslash at the end hides the closing brace. -/
example : balanced ['a', '\\'] = false ∧ braced ['a', '\\', '}'] = .error .missingBrace := by
  decide +kernel

end ScriptHost.Script
