import ScriptHost.Engine
import ScriptHost.Proofs.Script.Readers

/-!
# Scripts in brackets

Where a script in brackets ends is found by counting: brackets do not count inside of braces. The count
takes every brace for the beginning or the end of a word in braces, also in a bare word, in quotes and
in a comment, where braces are characters like any other. So a script without brackets and
backslashes can stand in brackets exactly if each brace that is opened in it is closed later.
Braces that are closed without being open do no harm.
-/

namespace ScriptHost.Script

open Text

/-! ### Counting braces -/

/-- The number of braces that are open behind a text if `n` are open before it. Where none is open, a
closing brace changes nothing. -/
def openBraces (n : Nat) : List Char → Nat
  | [] => n
  | c :: cs => openBraces (if c = '{' then n + 1 else if c = '}' then n - 1 else n) cs

/-- Every brace that is opened in the text is closed later in it. -/
def ClosesBraces (cs : List Char) : Prop :=
  ∀ tail, tail <:+ cs → tail.count '{' ≤ tail.count '}'

theorem closesBraces_nil : ClosesBraces [] := by
  intro tail htail
  rw [List.suffix_nil.1 htail]
  exact Nat.le_refl _

theorem closesBraces_cons {c : Char} {cs : List Char} :
    ClosesBraces (c :: cs) ↔ (c :: cs).count '{' ≤ (c :: cs).count '}' ∧ ClosesBraces cs := by
  constructor
  · intro h
    exact ⟨h _ (List.suffix_refl _), fun tail htail => h tail (htail.trans (List.suffix_cons c cs))⟩
  · rintro ⟨hall, h⟩ tail htail
    rcases List.suffix_cons_iff.1 htail with rfl | htail
    · exact hall
    · exact h tail htail

theorem openBraces_eq_zero_iff {n : Nat} {cs : List Char} :
    openBraces n cs = 0 ↔ n + cs.count '{' ≤ cs.count '}' ∧ ClosesBraces cs := by
  induction cs generalizing n with
  | nil => simp [openBraces, closesBraces_nil]
  | cons c cs ih =>
    rw [openBraces, ih, closesBraces_cons]
    simp only [← and_assoc]
    refine and_congr_left fun h => ?_
    -- What is closed in the rest is enough for what is opened there.
    have hrest : cs.count '{' ≤ cs.count '}' := h cs (List.suffix_refl _)
    by_cases hopen : c = '{'
    · simp only [hopen, if_true, List.count_cons_self, List.count_cons_of_ne (by decide : '{' ≠ '}')]
      omega
    · by_cases hclose : c = '}'
      · simp only [hclose, (by decide : '}' ≠ '{'), if_false, if_true, List.count_cons_self,
          List.count_cons_of_ne (by decide : '}' ≠ '{')]
        omega
      · simp only [hopen, hclose, if_false, List.count_cons_of_ne hopen,
          List.count_cons_of_ne hclose]
        omega

/-! ### The end of a script in brackets -/

/-- The text means nothing to the count of brackets but by its braces. -/
def IsFlat (cs : List Char) : Prop :=
  ∀ c ∈ cs, c ≠ '[' ∧ c ≠ ']' ∧ c ≠ '\\'

theorem closeBracket_append_of_isFlat {cs : List Char} (hcs : IsFlat cs) (n : Nat)
    (rest : List Char) :
    closeBracket 1 n (cs ++ rest) =
      (closeBracket 1 (openBraces n cs) rest).map fun (text, rest) => (cs ++ text, rest) := by
  induction cs generalizing n with
  | nil => simp [openBraces]
  | cons c cs ih =>
    obtain ⟨hopen, hclose, hslash⟩ := hcs c (by simp)
    have hflat : IsFlat cs := fun d hd => hcs d (by simp [hd])
    rw [List.cons_append, closeBracket_cons hslash, if_neg fun h => hclose h.1]
    simp only [hopen, hclose, if_false, ite_self, ih hflat, openBraces, Option.map_map]
    rfl

theorem bracketed_of_closesBraces {s : String} (hs : IsFlat s.toList)
    (h : ClosesBraces s.toList) (rest : List Char) :
    bracketed (s.toList ++ ']' :: rest) = .ok (s, rest) := by
  have hclosed : openBraces 0 s.toList = 0 :=
    openBraces_eq_zero_iff.2 ⟨by simpa using h _ (List.suffix_refl _), h⟩
  rw [bracketed_eq_ok_iff, closeBracket_append_of_isFlat hs, hclosed, closeBracket_cons (by decide)]
  simp

theorem bracketed_of_not_closesBraces {s : String} (hs : IsFlat s.toList)
    (h : ¬ClosesBraces s.toList) : bracketed (s.toList ++ [']']) = .error .missingBracket := by
  have hopen : openBraces 0 s.toList ≠ 0 := fun hzero => h (openBraces_eq_zero_iff.1 hzero).2
  rw [bracketed, closeBracket_append_of_isFlat hs, closeBracket_cons (by decide)]
  simp [hopen, closeBracket]

/-! ### Words in brackets -/

theorem word_bracket (cs : List Char) : word ('[' :: cs) = parts .word ('[' :: cs) :=
  word_eq_parts (by simp) (by simp)

theorem not_ends_bracket (cs : List Char) : ¬Stop.word.Ends '[' cs := by
  simp [Stop.Ends, endsWord, isInlineBlank]

/-- Putting the result of a script in the place of a word is evaluating the script. -/
theorem substitute_script (fuel : Nat) (i : InterpId) (s : String) :
    substitute ⟨fuel + 1, runWithin (fuel + 1)⟩ i [.script s] =
      evalScript ⟨fuel, runWithin fuel⟩ i s := by
  simp only [substitute, substituteFrom, String.empty_append, bind_pure]
  rfl

theorem word_of_bracketed {cs : List Char} {s : String} (h : bracketed cs = .ok (s, [])) :
    word ('[' :: cs) = .ok ([.script s], []) := by
  have hread : ReadsPieces .word ('[' :: cs) [.script s] [] :=
    .script (not_ends_bracket cs) h (.finish (by decide))
  rw [word_bracket, parts, pieces_eq_ok_iff.2 hread]
  simp [Except.map, joinPieces]

theorem word_of_bracketed_eq_error {cs : List Char} {e : SyntaxError}
    (h : bracketed cs = .error e) : word ('[' :: cs) = .error e := by
  rw [word_bracket, parts, pieces_cons_of_not_ends (not_ends_bracket cs), h]
  rfl

/-- A script without brackets and backslashes can stand in brackets, and make up a word, exactly if each
brace that is opened in it is closed later. Otherwise the closing bracket is said to be missing. The
word is that script, and putting in what it stands for is evaluating the script. -/
theorem word_bracketed_iff {s : String} (hs : ∀ c ∈ s.toList, c ≠ '[' ∧ c ≠ ']' ∧ c ≠ '\\') :
    (word ('[' :: (s.toList ++ [']'])) = .ok ([.script s], []) ↔ ClosesBraces s.toList) ∧
      (word ('[' :: (s.toList ++ [']'])) = .error .missingBracket ↔ ¬ClosesBraces s.toList) ∧
      ∀ fuel i, substitute ⟨fuel + 1, runWithin (fuel + 1)⟩ i [.script s] =
        evalScript ⟨fuel, runWithin fuel⟩ i s := by
  refine and_assoc.1 ⟨?_, fun fuel i => substitute_script fuel i s⟩
  by_cases h : ClosesBraces s.toList
  · have hword := word_of_bracketed (bracketed_of_closesBraces hs h [])
    simp [hword, h]
  · have hword := word_of_bracketed_eq_error (bracketed_of_not_closesBraces hs h)
    simp [hword, h]

/-- Braces in quotes, in a comment, around a word and as a bare word: each that is opened is closed
later. -/
theorem word_bracketed_closed :
    (∀ c ∈ "set x \"\x7b\" ;# \x7d\nlist \x7b a \x7d \x7d".toList, c ≠ '[' ∧ c ≠ ']' ∧ c ≠ '\\') ∧
      word "[set x \"\x7b\" ;# \x7d\nlist \x7b a \x7d \x7d]".toList =
        .ok ([.script "set x \"\x7b\" ;# \x7d\nlist \x7b a \x7d \x7d"], []) := by
  have hs : ∀ c ∈ "set x \"\x7b\" ;# \x7d\nlist \x7b a \x7d \x7d".toList,
      c ≠ '[' ∧ c ≠ ']' ∧ c ≠ '\\' := by
    simp
  have hclosed : ClosesBraces "set x \"\x7b\" ;# \x7d\nlist \x7b a \x7d \x7d".toList :=
    ((openBraces_eq_zero_iff (n := 0)).1 (by decide)).2
  exact ⟨hs, (word_bracketed_iff hs).1.2 hclosed⟩

/-- A script can be read where it stands alone and not in brackets: its brace is part of a bare word. -/
theorem word_bracketed_open_brace :
    parse "set x a\x7b" = .ok [[[.text "set"], [.text "x"], [.text "a\x7b"]]] ∧
      word "[set x a\x7b]".toList = .error .missingBracket := by
  decide +kernel

end ScriptHost.Script
