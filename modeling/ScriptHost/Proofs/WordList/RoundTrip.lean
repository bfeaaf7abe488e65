import Mathlib.Data.List.TakeWhile
import ScriptHost.WordList

/-!
# Writing a list and reading it back

A word that is written bare or in braces is read back as it was. The written form with backslashes
leaves a vertical tab and a form feed as they are, and both of them end a word. So a list is read
back exactly if every word without balanced braces is free of these two blanks.
-/

namespace ScriptHost.WordList

open Text

/-- The blanks that the written form with backslashes leaves as they are. -/
def isLoose (c : Char) : Bool :=
  c = '\x0b' || c = '\x0c'

/-- Whether the written form of a word keeps it in one piece. -/
def isKept (cs : List Char) : Bool :=
  balanced cs || cs.all fun c => !isLoose c

/-- What is left of a word when its written form is read. -/
def remains (cs : List Char) : List Char :=
  if isKept cs then cs else cs.filter fun c => !isLoose c

/-! ### Unfolding the reader -/

theorem words_eq (cs : List Char) :
    words cs =
      match cs.dropWhile isSpace with
      | [] => .ok []
      | c :: rest =>
        match firstWord (c :: rest) with
        | .error e => .error e
        | .ok (word, rest') => (words rest').map (word :: ·) := by
  rw [words]
  split <;> rename_i h <;> rw [h]
  dsimp only
  split <;> rename_i h' <;> rw [h']

theorem words_nil : words [] = .ok [] := by
  rw [words_eq]
  rfl

theorem words_blank {c : Char} (hc : isSpace c = true) (cs : List Char) :
    words (c :: cs) = words cs := by
  rw [words_eq, words_eq, List.dropWhile_cons_of_pos hc]

/-- A text that begins with a word reads as that word and the words of what follows it. -/
theorem words_of_firstWord {c : Char} {cs word rest : List Char} (hc : isSpace c = false)
    (h : firstWord (c :: cs) = .ok (word, rest)) :
    words (c :: cs) = (words rest).map (word :: ·) := by
  rw [words_eq, List.dropWhile_cons_of_neg (by simp [hc])]
  simp only [h]

/-! ### Bare words and words in braces -/

theorem bareWord_cons {c : Char} (hc : c ≠ '\\') (cs : List Char) :
    bareWord (c :: cs) =
      if isSpace c then ([], c :: cs) else (c :: (bareWord cs).1, (bareWord cs).2) := by
  simp [bareWord]

theorem bracedWord_cons {c : Char} (h₁ : c ≠ '\\') (h₂ : c ≠ '{') (h₃ : c ≠ '}') (depth : Nat)
    (cs : List Char) :
    bracedWord depth (c :: cs) =
      (bracedWord depth cs).map fun (word, rest) => (c :: word, rest) := by
  rw [bracedWord] <;> simp_all

theorem firstWord_bare {c : Char} (h₁ : c ≠ '{') (h₂ : c ≠ '"') (cs : List Char) :
    firstWord (c :: cs) = .ok (bareWord (c :: cs)) := by
  rw [firstWord] <;> simp_all

theorem isSpace_of_atWordEnd {c : Char} {cs : List Char} (h : atWordEnd (c :: cs) = true) :
    isSpace c = true := h

theorem bareWord_of_atWordEnd {cs : List Char} (h : atWordEnd cs = true) :
    bareWord cs = ([], cs) := by
  cases cs with
  | nil => simp [bareWord]
  | cons c cs =>
    have hspace := isSpace_of_atWordEnd h
    have hslash : c ≠ '\\' := by
      rintro rfl
      simp [isSpace] at hspace
    rw [bareWord_cons hslash, if_pos hspace]

theorem bareWord_append {cs rest : List Char} (hcs : ∀ c ∈ cs, isSpace c = false ∧ c ≠ '\\')
    (hrest : atWordEnd rest = true) : bareWord (cs ++ rest) = (cs, rest) := by
  induction cs with
  | nil => exact bareWord_of_atWordEnd hrest
  | cons c cs ih =>
    obtain ⟨hspace, hslash⟩ := hcs c (by simp)
    rw [List.cons_append, bareWord_cons hslash, ih fun d hd => hcs d (by simp [hd])]
    simp [hspace]

theorem bracedWord_append {depth : Nat} {cs : List Char} (rest : List Char)
    (h : balancedFrom depth cs = true) :
    bracedWord depth (cs ++ '}' :: rest) = some (cs, rest) := by
  fun_induction balancedFrom depth cs with
  | case1 depth =>
    obtain rfl : depth = 0 := by simpa using h
    simp [bracedWord]
  | case2 => simp at h
  | case3 depth c cs ih => simp [bracedWord, ih h]
  | case4 depth cs ih => simp [bracedWord, ih h]
  | case5 => simp at h
  | case6 cs depth ih => simp [bracedWord, ih h]
  | case7 depth c cs h₁ h₂ h₃ ih =>
    rw [List.cons_append, bracedWord_cons h₁ h₂ h₃, ih h]
    rfl

/-! ### Words with backslashes -/

theorem decodeEscape_self {c : Char} (h : (c = ' ' || isSpecial c || c = '#') = true)
    (cs : List Char) : decodeEscape (c :: cs) = (c, cs) := by
  simp only [isSpecial, Bool.or_eq_true, decide_eq_true_eq] at h
  rcases h with (h | (((((((h | h) | h) | h) | h) | h) | h) | h)) | h <;> subst h <;> rfl

theorem isSpace_of_isLoose {c : Char} (h : isLoose c = true) : isSpace c = true := by
  simp only [isLoose, Bool.or_eq_true, decide_eq_true_eq] at h
  rcases h with rfl | rfl <;> rfl

theorem escape_of_isLoose {c : Char} (h : isLoose c = true) : escape c = [c] := by
  simp only [isLoose, Bool.or_eq_true, decide_eq_true_eq] at h
  rcases h with rfl | rfl <;> rfl

/-- A character that is written as it stands is neither a blank nor a special one, unless it is
one of the blanks that are left as they are. -/
theorem plain_of_not_escaped {c : Char} (hloose : isLoose c = false) (h₁ : c ≠ '\n') (h₂ : c ≠ '\t')
    (h₃ : c ≠ '\r') (h₄ : ¬(c = ' ' || isSpecial c || c = '#') = true) :
    isSpace c = false ∧ isSpecial c = false := by
  simp_all [isSpace, isLoose]

theorem ne_of_not_isSpecial {c : Char} (h : isSpecial c = false) :
    c ≠ '{' ∧ c ≠ '"' ∧ c ≠ '\\' := by
  refine ⟨?_, ?_, ?_⟩ <;> rintro rfl <;> simp [isSpecial] at h

theorem bareWord_escape {c : Char} (hc : isLoose c = false) (cs : List Char) :
    bareWord (escape c ++ cs) = (c :: (bareWord cs).1, (bareWord cs).2) := by
  rw [escape]
  split_ifs with h₁ h₂ h₃ h₄
  · simp [bareWord, decodeEscape, escaped, h₁]
  · simp [bareWord, decodeEscape, escaped, h₂]
  · simp [bareWord, decodeEscape, escaped, h₃]
  · simp [bareWord, decodeEscape_self h₄]
  · obtain ⟨hspace, hspecial⟩ := plain_of_not_escaped hc h₁ h₂ h₃ h₄
    simp [bareWord_cons (ne_of_not_isSpecial hspecial).2.2, hspace]

/-- The form of a character that ends no word begins a bare word. -/
theorem escape_eq_cons {c : Char} (hc : isLoose c = false) :
    ∃ d ds, escape c = d :: ds ∧ isSpace d = false ∧ d ≠ '{' ∧ d ≠ '"' := by
  rw [escape]
  split_ifs with h₁ h₂ h₃ h₄
  · exact ⟨'\\', ['n'], rfl, rfl, by decide, by decide⟩
  · exact ⟨'\\', ['t'], rfl, rfl, by decide, by decide⟩
  · exact ⟨'\\', ['r'], rfl, rfl, by decide, by decide⟩
  · exact ⟨'\\', [c], rfl, rfl, by decide, by decide⟩
  · obtain ⟨hspace, hspecial⟩ := plain_of_not_escaped hc h₁ h₂ h₃ h₄
    obtain ⟨hbrace, hquote, _⟩ := ne_of_not_isSpecial hspecial
    exact ⟨c, [], rfl, hspace, hbrace, hquote⟩

theorem bareWord_flatMap_escape {cs rest : List Char} (hcs : ∀ c ∈ cs, isLoose c = false)
    (hrest : atWordEnd rest = true) : bareWord (cs.flatMap escape ++ rest) = (cs, rest) := by
  induction cs with
  | nil => exact bareWord_of_atWordEnd hrest
  | cons c cs ih =>
    rw [List.flatMap_cons, List.append_assoc, bareWord_escape (hcs c (by simp)),
      ih fun d hd => hcs d (by simp [hd])]

/-- A written word that no blank ends early is one word. -/
theorem words_flatMap_escape {cs rest : List Char} (hne : cs ≠ [])
    (hcs : ∀ c ∈ cs, isLoose c = false) (hrest : atWordEnd rest = true) :
    words (cs.flatMap escape ++ rest) = (words rest).map (cs :: ·) := by
  have hbare := bareWord_flatMap_escape hcs hrest
  obtain ⟨c, cs, rfl⟩ := List.exists_cons_of_ne_nil hne
  obtain ⟨d, ds, hd, hspace, hbrace, hquote⟩ := escape_eq_cons (hcs c (by simp))
  rw [List.flatMap_cons, hd] at hbare ⊢
  exact words_of_firstWord hspace (by rw [← hbare]; exact firstWord_bare hbrace hquote _)

theorem exists_words_of_forall_isLoose {cs rest : List Char} (hcs : ∀ c ∈ cs, isLoose c = false)
    (hrest : atWordEnd rest = true) :
    ∃ pieces, words (cs.flatMap escape ++ rest) = (words rest).map (pieces ++ ·) ∧
      pieces.flatten = cs := by
  by_cases hne : cs = []
  · subst hne
    exact ⟨[], by cases h : words rest <;> simp [h, Except.map], rfl⟩
  · exact ⟨[cs], words_flatMap_escape hne hcs hrest, by simp⟩

/-- A written word falls apart at the blanks that are left as they are. -/
theorem exists_words_flatMap_escape (cs : List Char) {rest : List Char}
    (hrest : atWordEnd rest = true) :
    ∃ pieces, words (cs.flatMap escape ++ rest) = (words rest).map (pieces ++ ·) ∧
      pieces.flatten = cs.filter fun c => !isLoose c := by
  -- Each step takes the piece before the first loose blank and this blank away.
  induction hn : cs.length using Nat.strongRecOn generalizing cs with
  | _ n ih =>
    have hsplit := List.takeWhile_append_dropWhile (p := fun c => !isLoose c) (l := cs)
    have hfirst : ∀ c ∈ cs.takeWhile fun c => !isLoose c, isLoose c = false := by
      intro c hc
      simpa using List.mem_takeWhile_imp hc
    have hfilter : (cs.takeWhile fun c => !isLoose c).filter (fun c => !isLoose c) =
        cs.takeWhile fun c => !isLoose c :=
      List.filter_eq_self.2 fun c hc => by simp [hfirst c hc]
    generalize cs.takeWhile (fun c => !isLoose c) = first at *
    cases hrest' : cs.dropWhile fun c => !isLoose c with
    | nil =>
      obtain rfl : first = cs := by simpa [hrest'] using hsplit
      rw [hfilter]
      exact exists_words_of_forall_isLoose hfirst hrest
    | cons c after =>
      have hc : isLoose c = true := by
        simpa using head?_dropWhile (fun c => !isLoose c) cs c (by simp [hrest'])
      obtain rfl : first ++ c :: after = cs := by rw [← hrest', hsplit]
      obtain ⟨pieces, hpieces, hflat⟩ :=
        ih after.length (by rw [← hn]; simp; omega) after rfl
      have hblank := isSpace_of_isLoose hc
      have hend : atWordEnd (c :: (after.flatMap escape ++ rest)) = true := hblank
      obtain ⟨start, hstart, hstartFlat⟩ := exists_words_of_forall_isLoose hfirst hend
      refine ⟨start ++ pieces, ?_, ?_⟩
      · rw [List.flatMap_append, List.flatMap_cons, escape_of_isLoose hc, List.append_assoc]
        simp only [List.cons_append, List.nil_append]
        rw [hstart, words_blank hblank, hpieces]
        cases words rest <;> simp [Except.map]
      · rw [List.flatten_append, hstartFlat, hflat, List.filter_append, hfilter,
          List.filter_cons_of_neg (by simp [hc])]

/-! ### One word -/

theorem exists_of_not_needsQuoting {cs : List Char} (h : needsQuoting cs = false) :
    cs ≠ [] ∧ ∀ c ∈ cs, isSpace c = false ∧ isSpecial c = false := by
  simp only [needsQuoting, Bool.or_eq_false_iff, List.any_eq_false, Bool.or_eq_true,
    not_or, Bool.not_eq_true] at h
  exact ⟨by simpa using h.1.1, h.2⟩

theorem words_bare {cs rest : List Char} (h : needsQuoting cs = false)
    (hrest : atWordEnd rest = true) : words (cs ++ rest) = (words rest).map (cs :: ·) := by
  obtain ⟨hne, hplain⟩ := exists_of_not_needsQuoting h
  have hbare : bareWord (cs ++ rest) = (cs, rest) :=
    bareWord_append (fun c hc => ⟨(hplain c hc).1, (ne_of_not_isSpecial (hplain c hc).2).2.2⟩) hrest
  obtain ⟨c, cs, rfl⟩ := List.exists_cons_of_ne_nil hne
  obtain ⟨hspace, hspecial⟩ := hplain c (by simp)
  obtain ⟨hbrace, hquote, _⟩ := ne_of_not_isSpecial hspecial
  rw [List.cons_append] at hbare ⊢
  exact words_of_firstWord hspace (by rw [firstWord_bare hbrace hquote, hbare])

theorem words_braced {cs rest : List Char} (h : balanced cs = true)
    (hrest : atWordEnd rest = true) :
    words ('{' :: cs ++ ['}'] ++ rest) = (words rest).map (cs :: ·) := by
  have hword : bracedWord 0 (cs ++ '}' :: rest) = some (cs, rest) := bracedWord_append rest h
  simp only [List.cons_append, List.append_assoc, List.nil_append]
  refine words_of_firstWord rfl ?_
  simp [firstWord, hword, hrest]

/-- A word without special characters has balanced braces. -/
theorem balancedFrom_zero_of_plain {cs : List Char} (h : ∀ c ∈ cs, isSpecial c = false) :
    balancedFrom 0 cs = true := by
  induction cs with
  | nil => rfl
  | cons c cs ih =>
    obtain ⟨hbrace, _, hslash⟩ := ne_of_not_isSpecial (h c (by simp))
    have hclose : c ≠ '}' := by
      rintro rfl
      exact absurd (h '}' (by simp)) (by decide)
    rw [balancedFrom]
    · exact ih fun d hd => h d (by simp [hd])
    all_goals simp_all

/-- What is read of a written word: the word, or what is left of it. -/
theorem exists_words_quoteChars (cs : List Char) {rest : List Char}
    (hrest : atWordEnd rest = true) :
    ∃ pieces, words (quoteChars cs ++ rest) = (words rest).map (pieces ++ ·) ∧
      pieces.flatten = remains cs ∧ (isKept cs = true → pieces = [cs]) := by
  rw [quoteChars]
  split_ifs with hquoting hbalanced
  · have hkept : isKept cs = true := by simp [isKept, hbalanced]
    exact ⟨[cs], words_braced hbalanced hrest, by simp [remains, hkept], fun _ => rfl⟩
  · by_cases hkept : isKept cs = true
    · have hcs : ∀ c ∈ cs, isLoose c = false := by simpa [isKept, hbalanced] using hkept
      have hne : cs ≠ [] := by
        rintro rfl
        exact hbalanced rfl
      exact ⟨[cs], words_flatMap_escape hne hcs hrest, by simp [remains, hkept], fun _ => rfl⟩
    · obtain ⟨pieces, hwords, hflat⟩ := exists_words_flatMap_escape cs hrest
      exact ⟨pieces, hwords, by rw [hflat, remains, if_neg hkept], fun h => absurd h hkept⟩
  · have hplain := (exists_of_not_needsQuoting (Bool.not_eq_true _ ▸ hquoting)).2
    have hkept : isKept cs = true := by
      simp [isKept, balanced, balancedFrom_zero_of_plain fun c hc => (hplain c hc).2]
    exact ⟨[cs], words_bare (by simpa using hquoting) hrest, by simp [remains, hkept], fun _ => rfl⟩

/-! ### Lists -/

/-- What is read of a written list: its words, or what is left of them. -/
theorem exists_words_intercalate (ws : List (List Char)) :
    ∃ pieces, words ([' '].intercalate (ws.map quoteChars)) = .ok pieces ∧
      pieces.flatten = ws.flatMap remains ∧ ((∀ w ∈ ws, isKept w = true) → pieces = ws) := by
  induction ws with
  | nil => exact ⟨[], words_nil, rfl, fun _ => rfl⟩
  | cons w ws ih =>
    obtain ⟨later, hlater, hlaterFlat, hlaterKept⟩ := ih
    -- The text behind the first word is empty or begins with the blank between two words.
    obtain ⟨rest, hrest, hend, hwords⟩ : ∃ rest,
        [' '].intercalate ((w :: ws).map quoteChars) = quoteChars w ++ rest ∧
          atWordEnd rest = true ∧ words rest = .ok later := by
      cases ws with
      | nil => exact ⟨[], by simp, rfl, hlater⟩
      | cons w' ws =>
        refine ⟨' ' :: [' '].intercalate ((w' :: ws).map quoteChars), by simp, rfl, ?_⟩
        rw [words_blank rfl, hlater]
    obtain ⟨pieces, hpieces, hflat, hkept⟩ := exists_words_quoteChars w hend
    refine ⟨pieces ++ later, ?_, ?_, ?_⟩
    · rw [hrest, hpieces, hwords]
      rfl
    · rw [List.flatten_append, hflat, hlaterFlat, List.flatMap_cons]
    · intro h
      rw [hkept (h w (by simp)), hlaterKept fun v hv => h v (by simp [hv])]
      rfl

theorem length_remains_lt {cs : List Char} (h : isKept cs = false) :
    (remains cs).length < cs.length := by
  obtain ⟨c, hc, hloose⟩ : ∃ c ∈ cs, isLoose c = true := by
    simpa [isKept] using (Bool.or_eq_false_iff.1 h).2
  rw [remains, if_neg (by simp [h])]
  exact List.length_filter_lt_length_iff_exists.2 ⟨c, hc, by simp [hloose]⟩

theorem length_remains_le (cs : List Char) : (remains cs).length ≤ cs.length := by
  cases h : isKept cs with
  | true => simp [remains, h]
  | false => exact Nat.le_of_lt (length_remains_lt h)

/-- Reading loses characters as soon as one word is not kept. -/
theorem length_flatMap_remains_lt {ws : List (List Char)} (h : ∃ w ∈ ws, isKept w = false) :
    (ws.flatMap remains).length < ws.flatten.length := by
  have hle (ws : List (List Char)) : (ws.flatMap remains).length ≤ ws.flatten.length := by
    induction ws with
    | nil => simp
    | cons w ws ih => simpa using Nat.add_le_add (length_remains_le w) ih
  induction ws with
  | nil => simp at h
  | cons w ws ih =>
    have hw := length_remains_le w
    have hws := hle ws
    simp only [List.flatMap_cons, List.flatten_cons, List.length_append]
    cases hkept : isKept w with
    | false =>
      have := length_remains_lt hkept
      omega
    | true =>
      have := ih (by simpa [hkept] using h)
      omega

theorem words_intercalate_eq_ok_iff (ws : List (List Char)) :
    words ([' '].intercalate (ws.map quoteChars)) = .ok ws ↔ ∀ w ∈ ws, isKept w = true := by
  obtain ⟨pieces, hpieces, hflat, hkept⟩ := exists_words_intercalate ws
  constructor
  · intro h
    by_contra hnot
    have hlost : ∃ w ∈ ws, isKept w = false := by simpa using hnot
    have hlt := length_flatMap_remains_lt hlost
    obtain rfl : pieces = ws := by simpa [hpieces] using h
    rw [← hflat] at hlt
    exact absurd hlt (Nat.lt_irrefl _)
  · intro h
    rw [hpieces, hkept h]

/-- A written list is read back exactly if each of its words has balanced braces or holds neither a
vertical tab nor a form feed. -/
theorem split_merge_eq_ok_iff (ws : List String) :
    split (merge ws) = .ok ws ↔
      ∀ w ∈ ws, balanced w.toList = true ∨ ∀ c ∈ w.toList, c ≠ '\x0b' ∧ c ≠ '\x0c' := by
  have hchars : (merge ws).toList = [' '].intercalate ((ws.map String.toList).map quoteChars) := by
    simp [merge, String.toList_intercalate, quote, Function.comp_def]
  have hwords := words_intercalate_eq_ok_iff (ws.map String.toList)
  have hsplit : split (merge ws) = .ok ws ↔
      words (merge ws).toList = .ok (ws.map String.toList) := by
    rw [split]
    cases words (merge ws).toList with
    | error e => simp [Except.map]
    | ok vs =>
      constructor
      · intro h
        obtain rfl : vs.map String.ofList = ws := by simpa [Except.map] using h
        simp [Function.comp_def]
      · intro h
        obtain rfl : vs = ws.map String.toList := by simpa using h
        simp [Except.map, Function.comp_def]
  rw [hsplit, hchars, hwords]
  simp [isKept, isLoose]

/-- An unbalanced word loses the vertical tab at its end. -/
theorem split_merge_verticalTab :
    split (merge ["\x7d\x0b"]) = .ok ["\x7d"] ∧ split (merge ["\x7d\x0b"]) ≠ .ok ["\x7d\x0b"] := by
  decide +kernel

end ScriptHost.WordList
