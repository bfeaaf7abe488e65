import ScriptHost.Command.Children
import ScriptHost.Command.Strings
import Mathlib.Tactic.Common

/-!
# What patterns fit

`Produces` is the meaning of a pattern: a star gives any characters, a question mark any one
character, and every other character itself. `Reads` is the same with one exception: where the rest
of the text begins with a star, a star of the pattern gives exactly that star. The matcher keeps one
point to go back to and meets a star of the text before it tries the star of the pattern, so it
decides `Reads`. The two meanings agree where one side has no star.
-/

namespace ScriptHost.Glob

/-- A text got from a pattern by putting characters in the place of its stars and one character in
the place of each question mark. -/
inductive Produces : List Char → List Char → Prop
  | nil : Produces [] []
  | star {pattern text : List Char} (taken : List Char) :
    Produces pattern text → Produces ('*' :: pattern) (taken ++ text)
  | any {pattern text : List Char} (c : Char) :
    Produces pattern text → Produces ('?' :: pattern) (c :: text)
  | char {pattern text : List Char} {c : Char} (hstar : c ≠ '*') (hany : c ≠ '?') :
    Produces pattern text → Produces (c :: pattern) (c :: text)

/-- A text got from a pattern in which a star before a star of the text takes just that one. -/
inductive Reads : List Char → List Char → Prop
  | nil : Reads [] []
  | star {pattern text : List Char} (taken : List Char) (hhead : (taken ++ text).head? ≠ some '*') :
    Reads pattern text → Reads ('*' :: pattern) (taken ++ text)
  | same {pattern text : List Char} :
    Reads pattern text → Reads ('*' :: pattern) ('*' :: text)
  | any {pattern text : List Char} (c : Char) :
    Reads pattern text → Reads ('?' :: pattern) (c :: text)
  | char {pattern text : List Char} {c : Char} (hstar : c ≠ '*') (hany : c ≠ '?') :
    Reads pattern text → Reads (c :: pattern) (c :: text)

variable {pattern text pattern' text' s : List Char} {p c : Char}

/-! ### The two meanings -/

theorem Reads.produces (h : Reads pattern text) : Produces pattern text := by
  induction h with
  | nil => exact .nil
  | star taken _ _ ih => exact .star taken ih
  | same _ ih => exact .star ['*'] ih
  | any c _ ih => exact .any c ih
  | char hstar hany _ ih => exact .char hstar hany ih

theorem Produces.reads_of_text (h : Produces pattern text) (htext : '*' ∉ text) :
    Reads pattern text := by
  induction h with
  | nil => exact .nil
  | star taken _ ih =>
    refine .star taken (fun hhead => htext (List.mem_of_head? hhead)) (ih fun hmem => ?_)
    exact htext (List.mem_append_right taken hmem)
  | any c _ ih => exact .any c (ih fun hmem => htext (List.mem_cons_of_mem c hmem))
  | char hstar hany _ ih =>
    exact .char hstar hany (ih fun hmem => htext (List.mem_cons_of_mem _ hmem))

theorem Produces.reads_of_pattern (h : Produces pattern text) (hpattern : '*' ∉ pattern) :
    Reads pattern text := by
  induction h with
  | nil => exact .nil
  | star => exact absurd List.mem_cons_self hpattern
  | any c _ ih => exact .any c (ih fun hmem => hpattern (List.mem_cons_of_mem _ hmem))
  | char hstar hany _ ih =>
    exact .char hstar hany (ih fun hmem => hpattern (List.mem_cons_of_mem _ hmem))

/-! ### Inversion -/

theorem reads_nil_iff : Reads pattern [] ↔ ∀ p ∈ pattern, p = '*' := by
  constructor
  · intro h
    generalize htext : [] = text at h
    induction h with
    | nil => simp
    | star taken _ _ ih =>
      rw [List.forall_mem_cons]
      exact ⟨rfl, ih (List.append_eq_nil_iff.1 htext.symm).2.symm⟩
    | same => cases htext
    | any => cases htext
    | char => cases htext
  · intro h
    induction pattern with
    | nil => exact .nil
    | cons p pattern ih =>
      rw [List.forall_mem_cons] at h
      rw [h.1]
      exact .star [] (by simp) (ih h.2)

theorem not_reads_nil_cons : ¬ Reads [] (c :: text) := by
  rintro ⟨⟩

/-- A character of the pattern that fits the next one of the text is read with it. -/
theorem reads_cons_of_fits (hfits : p = '?' ∨ p = c) :
    Reads (p :: pattern) (c :: text) ↔ Reads pattern text := by
  constructor
  · intro h
    generalize hwhole : c :: text = whole at h
    cases h with
    | star taken hhead =>
      -- The text begins with no star, so the star of the pattern cannot fit its first character.
      rw [← hwhole, List.head?_cons] at hhead
      rcases hfits with hany | rfl
      · exact absurd hany (by decide)
      · exact absurd rfl hhead
    | same h => cases hwhole; exact h
    | any _ h => cases hwhole; exact h
    | char _ _ h => cases hwhole; exact h
  · intro h
    rcases hfits with rfl | rfl
    · exact .any c h
    · by_cases hstar : p = '*'
      · rw [hstar]
        exact .same h
      · by_cases hany : p = '?'
        · rw [hany]
          exact .any _ h
        · exact .char hstar hany h

/-- Before another character a star is read with some beginning of the text. -/
theorem reads_star_cons (hc : c ≠ '*') :
    Reads ('*' :: pattern) (c :: text) ↔ ∃ s, s <:+ c :: text ∧ Reads pattern s := by
  constructor
  · intro h
    generalize hwhole : c :: text = whole at h
    cases h with
    | star taken _ h => exact ⟨_, List.suffix_append taken _, h⟩
    | same => exact absurd (List.cons.inj hwhole).1 hc
    | char hstar => exact absurd rfl hstar
  · rintro ⟨s, ⟨taken, htaken⟩, h⟩
    rw [← htaken]
    refine .star taken ?_ h
    rw [htaken]
    simpa using hc

theorem not_reads_cons (hany : p ≠ '?') (hsame : p ≠ c) (hstar : p ≠ '*') :
    ¬ Reads (p :: pattern) (c :: text) := by
  intro h
  generalize hwhole : c :: text = whole at h
  cases h with
  | star => exact hstar rfl
  | same => exact hstar rfl
  | any => exact hany rfl
  | char => exact hsame (List.cons.inj hwhole).1.symm

/-! ### Following a pattern -/

theorem reads_of_segment_done {fits : Bool} (h : segment pattern text = .done fits) :
    Reads pattern text ↔ fits = true := by
  fun_induction segment pattern text with
  | case1 pattern =>
    cases h
    simp [reads_nil_iff]
  | case2 => cases h
  | case3 p pattern c text hfits ih =>
    rw [reads_cons_of_fits (by simpa using hfits)]
    exact ih h
  | case4 => cases h
  | case5 => cases h

theorem reads_of_segment_star (h : segment pattern text = .star pattern' text') :
    Reads pattern text ↔ ∃ s, s <:+ text' ∧ Reads pattern' s := by
  fun_induction segment pattern text with
  | case1 => cases h
  | case2 => cases h
  | case3 p pattern c text hfits ih =>
    rw [reads_cons_of_fits (by simpa using hfits)]
    exact ih h
  | case4 pattern c text hfits =>
    cases h
    exact reads_star_cons fun hc => hfits (by simp [hc])
  | case5 => cases h

theorem not_reads_of_segment_mismatch (h : segment pattern text = .mismatch) :
    ¬ Reads pattern text := by
  fun_induction segment pattern text with
  | case1 => cases h
  | case2 => exact not_reads_nil_cons
  | case3 p pattern c text hfits ih =>
    rw [reads_cons_of_fits (by simpa using hfits)]
    exact ih h
  | case4 => cases h
  | case5 p pattern c text hfits hstar =>
    simp only [Bool.or_eq_true, decide_eq_true_eq, not_or] at hfits
    exact not_reads_cons hfits.1 hfits.2 hstar

/-! ### Starting later

A reading that starts later in the text stays behind the one that starts here: where this one takes
a character of the pattern with a character of the text, the later one takes at least as many, since
a star can be read with nothing only where the text has no star. So an end of the text that fits is
never lost by keeping only the last star. -/

theorem exists_reads_tail (hfits : p = '?' ∨ p = c) (hs : s <:+ c :: text)
    (h : Reads (p :: pattern) s) : ∃ t, t <:+ text ∧ Reads pattern t := by
  have hcons {x : Char} {t : List Char} (ht : x :: t <:+ c :: text) : t <:+ text := by
    rcases List.suffix_cons_iff.1 ht with heq | htail
    · exact (List.cons.inj heq).2 ▸ List.suffix_rfl
    · exact (List.suffix_cons x t).trans htail
  cases h with
  | @star _ t taken hhead h =>
    refine ⟨t, ?_, h⟩
    cases taken with
    | nil =>
      rcases List.suffix_cons_iff.1 hs with rfl | htail
      · rcases hfits with hany | rfl
        · exact absurd hany (by decide)
        · exact absurd rfl hhead
      · exact htail
    | cons x taken => exact (List.suffix_append taken t).trans (hcons hs)
  | same h => exact ⟨_, hcons hs, h⟩
  | any _ h => exact ⟨_, hcons hs, h⟩
  | char _ _ h => exact ⟨_, hcons hs, h⟩

theorem fits_of_reads_suffix {fits : Bool} (h : segment pattern text = .done fits)
    (hs : s <:+ text) (hreads : Reads pattern s) : fits = true := by
  fun_induction segment pattern text generalizing s with
  | case1 pattern =>
    rw [List.suffix_nil.1 hs, reads_nil_iff] at hreads
    cases h
    simpa using hreads
  | case2 => cases h
  | case3 p pattern c text hfits ih =>
    obtain ⟨t, ht, hreads⟩ := exists_reads_tail (by simpa using hfits) hs hreads
    exact ih h ht hreads
  | case4 => cases h
  | case5 => cases h

theorem exists_reads_star (h : segment pattern text = .star pattern' text')
    (hs : s <:+ text) (hreads : Reads pattern s) : ∃ t, t <:+ text' ∧ Reads pattern' t := by
  fun_induction segment pattern text generalizing s with
  | case1 => cases h
  | case2 => cases h
  | case3 p pattern c text hfits ih =>
    obtain ⟨t, ht, hreads⟩ := exists_reads_tail (by simpa using hfits) hs hreads
    exact ih h ht hreads
  | case4 pattern c text =>
    cases h
    cases hreads with
    | star taken _ h => exact ⟨_, (List.suffix_append taken _).trans hs, h⟩
    | same h => exact ⟨_, (List.suffix_cons _ _).trans hs, h⟩
    | char hstar => exact absurd rfl hstar
  | case5 => cases h

/-- Behind a star the search finds an end of the text that the rest of the pattern reads, if there
is one. -/
theorem search_eq_true_iff (pattern text : List Char) :
    search pattern text = true ↔ ∃ s, s <:+ text ∧ Reads pattern s := by
  fun_induction search pattern text with
  | case1 pattern text fits h =>
    rw [← reads_of_segment_done h]
    constructor
    · exact fun hreads => ⟨text, List.suffix_rfl, hreads⟩
    · rintro ⟨s, hs, hreads⟩
      exact (reads_of_segment_done h).2 (fits_of_reads_suffix h hs hreads)
  | case2 pattern text pattern' text' h ih =>
    rw [ih, ← reads_of_segment_star h]
    constructor
    · exact fun hreads => ⟨text, List.suffix_rfl, hreads⟩
    · rintro ⟨s, hs, hreads⟩
      exact (reads_of_segment_star h).2 (exists_reads_star h hs hreads)
  | case3 pattern h =>
    have hnot := not_reads_of_segment_mismatch h
    simpa using hnot
  | case4 pattern c text h ih =>
    have hnot := not_reads_of_segment_mismatch h
    rw [ih]
    constructor
    · rintro ⟨s, hs, hreads⟩
      exact ⟨s, hs.trans (List.suffix_cons c text), hreads⟩
    · rintro ⟨s, hs, hreads⟩
      rcases List.suffix_cons_iff.1 hs with rfl | hs
      · exact absurd hreads hnot
      · exact ⟨s, hs, hreads⟩

theorem isMatch_eq_true_iff (pattern text : String) :
    isMatch pattern text = true ↔ Reads pattern.toList text.toList := by
  unfold isMatch
  split
  · next fits h => rw [reads_of_segment_done h]
  · next pattern' text' h => rw [reads_of_segment_star h, search_eq_true_iff]
  · next h => simpa using not_reads_of_segment_mismatch h

/-! ### Patterns and texts -/

instance (pattern text : String) : Decidable (Reads pattern.toList text.toList) :=
  decidable_of_iff _ (isMatch_eq_true_iff pattern text)

theorem produces_of_isMatch {pattern text : String} (h : isMatch pattern text = true) :
    Produces pattern.toList text.toList :=
  ((isMatch_eq_true_iff pattern text).1 h).produces

theorem isMatch_of_produces {pattern text : String} (h : Produces pattern.toList text.toList)
    (hstar : '*' ∉ pattern.toList ∨ '*' ∉ text.toList) : isMatch pattern text = true := by
  rw [isMatch_eq_true_iff]
  rcases hstar with hpattern | htext
  · exact h.reads_of_pattern hpattern
  · exact h.reads_of_text htext

/-- The matcher decides `Reads`, in `string match` and in the filter of `info commands` too. It
takes no text that the pattern does not produce, and it takes every text that the pattern produces
when the pattern or the text has no star. -/
theorem isMatch_exact (pattern text : String) :
    (isMatch pattern text = true ↔ Reads pattern.toList text.toList) ∧
      (isMatch pattern text = true → Produces pattern.toList text.toList) ∧
      ('*' ∉ pattern.toList ∨ '*' ∉ text.toList →
        (isMatch pattern text = true ↔ Produces pattern.toList text.toList)) ∧
      Command.string ["match", pattern, text] =
        pure (if Reads pattern.toList text.toList then "1" else "0") ∧
      ∀ i, Command.info i ["commands", pattern] = do
        let r ← getInterp i
        return WordList.merge
          (r.commandNames.filter fun name => decide (Reads pattern.toList name.toList)) := by
  have hiff (text : String) : isMatch pattern text = decide (Reads pattern.toList text.toList) :=
    Bool.eq_iff_iff.2 (by rw [isMatch_eq_true_iff, decide_eq_true_iff])
  refine ⟨isMatch_eq_true_iff pattern text, produces_of_isMatch, fun hstar => ?_, ?_, fun i => ?_⟩
  · exact ⟨produces_of_isMatch, fun h => isMatch_of_produces h hstar⟩
  · simp only [Command.string, hiff, Command.truthText, decide_eq_true_eq]
  · simp only [Command.info, Command.info.names, ← hiff]

/-- A star of the pattern that meets a star of the text takes nothing else. -/
theorem not_isMatch_star_star :
    Produces "*".toList "*a".toList ∧ isMatch "*" "*a" = false ∧
      Command.string ["match", "*", "*a"] = pure "0" := by
  have hmatch : isMatch "*" "*a" = false := by decide
  exact ⟨.star ['*', 'a'] .nil, hmatch, by simp only [Command.string, hmatch]; rfl⟩

end ScriptHost.Glob
