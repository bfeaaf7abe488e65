import ScriptHost.Proofs.WordList.RoundTrip

/-!
# The grammar of lists

A list is a sequence of elements between blanks. An element is a group in braces, a group in double
quotes or a bare run of characters, and its contents are taken as they stand or with their backslash
sequences decoded. The grammar says so without saying how a text is read. The reader takes exactly
the texts of this grammar and answers the contents of their elements in order.

A backslash with a newline takes all spaces and tabs that come next, and a backslash stands for
itself only where the text ends. So what a sequence may be depends on what follows it, which is
the parameter `rest` of the relations.
-/

namespace ScriptHost.WordList

open Text

/-! ### Elements -/

/-- A text whose braces are balanced. A backslash hides the character behind it. -/
inductive Balanced : List Char → Prop
  | nil : Balanced []
  | plain {c : Char} {cs : List Char} (hslash : c ≠ '\\') (hopen : c ≠ '{') (hclose : c ≠ '}')
      (h : Balanced cs) : Balanced (c :: cs)
  | hidden (c : Char) {cs : List Char} (h : Balanced cs) : Balanced ('\\' :: c :: cs)
  | group {inner cs : List Char} (hinner : Balanced inner) (h : Balanced cs) :
      Balanced ('{' :: (inner ++ '}' :: cs))

/-- The letters that stand for another character when they are behind a backslash. -/
def letters : List (Char × Char) :=
  [('n', '\n'), ('t', '\t'), ('r', '\r'), ('a', '\x07'), ('b', '\x08'), ('f', '\x0c'), ('v', '\x0b')]

/-- The characters between a backslash and `rest` that belong to the backslash, and the character
that is meant. -/
inductive Sequence (rest : List Char) : List Char → Char → Prop
  | letter {c d : Char} (h : (c, d) ∈ letters) : Sequence rest [c] d
  | self {c : Char} (hletter : c ∉ letters.map Prod.fst) (hline : c ≠ '\n') : Sequence rest [c] c
  | newline {blanks : List Char} (hblanks : ∀ c ∈ blanks, isIndent c = true)
      (hrest : ∀ c ∈ rest.head?, isIndent c = false) : Sequence rest ('\n' :: blanks) ' '
  | last (hrest : rest = []) : Sequence rest [] '\\'

/-- Characters in front of `rest` of which none ends the run unless a backslash hides it, and what
they mean. -/
inductive Unbroken (ends : Char → Bool) (rest : List Char) : List Char → List Char → Prop
  | nil : Unbroken ends rest [] []
  | plain {c : Char} {text word : List Char} (hend : ends c = false) (hslash : c ≠ '\\')
      (h : Unbroken ends rest text word) : Unbroken ends rest (c :: text) (c :: word)
  | sequence {seq text word : List Char} {c : Char} (hseq : Sequence (text ++ rest) seq c)
      (h : Unbroken ends rest text word) :
      Unbroken ends rest ('\\' :: (seq ++ text)) (c :: word)

/-- An element in front of `rest`, and its contents. -/
inductive Element (rest : List Char) : List Char → List Char → Prop
  | braced {word : List Char} (h : Balanced word) : Element rest ('{' :: (word ++ ['}'])) word
  | quoted {text word : List Char} (h : Unbroken (· == '"') ('"' :: rest) text word) :
      Element rest ('"' :: (text ++ ['"'])) word
  | bare {c : Char} {text word : List Char} (hbrace : c ≠ '{') (hquote : c ≠ '"')
      (h : Unbroken isSpace rest (c :: text) word) : Element rest (c :: text) word

/-- The text is made up of elements with these contents. There are blanks between them, and there may
be blanks at both ends. -/
inductive IsList : List Char → List (List Char) → Prop
  | blank {cs : List Char} (h : ∀ c ∈ cs, isSpace c = true) : IsList cs []
  | element {blanks text word rest : List Char} {words : List (List Char)}
      (hblanks : ∀ c ∈ blanks, isSpace c = true) (helement : Element rest text word)
      (hrest : ∀ c ∈ rest.head?, isSpace c = true) (h : IsList rest words) :
      IsList (blanks ++ (text ++ rest)) (word :: words)

/-! ### Braces -/

/-- Balanced texts between closing braces, one more than there are such braces. -/
def Closes : Nat → List Char → Prop
  | 0, cs => Balanced cs
  | depth + 1, cs => ∃ inner rest, cs = inner ++ '}' :: rest ∧ Balanced inner ∧ Closes depth rest

/-- What keeps a balanced text balanced can stand in front of the first of them. -/
theorem Closes.prepend {depth : Nat} {cs : List Char} (h : Closes depth cs) (start : List Char)
    (hstart : ∀ cs, Balanced cs → Balanced (start ++ cs)) : Closes depth (start ++ cs) := by
  cases depth with
  | zero => exact hstart cs h
  | succ depth =>
    obtain ⟨inner, rest, rfl, hinner, hrest⟩ := h
    exact ⟨start ++ inner, rest, by simp, hstart inner hinner, hrest⟩

theorem closes_of_balancedFrom {depth : Nat} {cs : List Char}
    (h : balancedFrom depth cs = true) : Closes depth cs := by
  fun_induction balancedFrom depth cs with
  | case1 depth =>
    obtain rfl : depth = 0 := by simpa using h
    exact Balanced.nil
  | case2 | case5 => simp at h
  | case3 depth c cs ih => exact (ih h).prepend ['\\', c] fun _ => Balanced.hidden c
  | case4 depth cs ih =>
    -- The text up to the brace that closes this one is a group in front of what comes next.
    obtain ⟨inner, rest, rfl, hinner, hrest⟩ := ih h
    have hgroup := hrest.prepend ('{' :: (inner ++ ['}'])) fun cs hcs => by
      simpa using Balanced.group hinner hcs
    simpa using hgroup
  | case6 cs depth ih => exact ⟨[], cs, rfl, Balanced.nil, ih h⟩
  | case7 depth c cs h₁ h₂ h₃ ih =>
    exact (ih h).prepend [c] fun _ => Balanced.plain h₁ h₂ h₃

theorem balancedFrom_cons {c : Char} (h₁ : c ≠ '\\') (h₂ : c ≠ '{') (h₃ : c ≠ '}') (depth : Nat)
    (cs : List Char) : balancedFrom depth (c :: cs) = balancedFrom depth cs := by
  rw [balancedFrom] <;> simp_all

/-- A balanced text leaves the count of open braces as it is. -/
theorem Balanced.balancedFrom_append {cs : List Char} (h : Balanced cs) (depth : Nat)
    (rest : List Char) : balancedFrom depth (cs ++ rest) = balancedFrom depth rest := by
  induction h generalizing depth rest with
  | nil => rfl
  | plain h₁ h₂ h₃ _ ih => rw [List.cons_append, balancedFrom_cons h₁ h₂ h₃, ih]
  | hidden c _ ih => exact ih depth rest
  | group _ _ ihInner ih =>
    rw [List.cons_append, List.append_assoc, List.cons_append, balancedFrom, ihInner, balancedFrom,
      ih]

theorem balanced_iff {cs : List Char} : balanced cs = true ↔ Balanced cs := by
  constructor
  · exact closes_of_balancedFrom
  · intro h
    have := h.balancedFrom_append 0 []
    rwa [List.append_nil] at this

theorem eq_append_of_bracedWord {depth : Nat} {cs word rest : List Char}
    (h : bracedWord depth cs = some (word, rest)) :
    cs = word ++ '}' :: rest ∧ balancedFrom depth word = true := by
  fun_induction bracedWord depth cs generalizing word rest with
  | case1 | case2 => simp at h
  | case5 =>
    cases h
    exact ⟨rfl, rfl⟩
  | case3 | case4 | case6 =>
    rename_i ih
    obtain ⟨⟨word, rest⟩, hw, he⟩ := Option.map_eq_some_iff.1 h
    cases he
    obtain ⟨rfl, hbalanced⟩ := ih hw
    exact ⟨rfl, hbalanced⟩
  | case7 depth c cs hlast hslash hopen hclose ih =>
    have hne : c ≠ '\\' := by
      intro hc
      cases cs with
      | nil => exact hlast hc rfl
      | cons d cs => exact hslash d cs hc rfl
    obtain ⟨⟨word, rest⟩, hw, he⟩ := Option.map_eq_some_iff.1 h
    cases he
    obtain ⟨rfl, hbalanced⟩ := ih hw
    exact ⟨rfl, by rw [balancedFrom_cons hne hopen hclose, hbalanced]⟩

/-- The word in braces goes up to the brace in front of which the others are balanced. -/
theorem bracedWord_eq_some_iff {cs word rest : List Char} :
    bracedWord 0 cs = some (word, rest) ↔ cs = word ++ '}' :: rest ∧ Balanced word := by
  rw [← balanced_iff, balanced]
  constructor
  · exact eq_append_of_bracedWord
  · rintro ⟨rfl, hbalanced⟩
    exact bracedWord_append rest hbalanced

/-! ### Backslash sequences -/

theorem escaped_eq_of_mem {c d : Char} (h : (c, d) ∈ letters) : escaped c = d ∧ c ≠ '\n' := by
  simp only [letters, List.mem_cons, Prod.mk.injEq, List.not_mem_nil, or_false] at h
  rcases h with h | h | h | h | h | h | h <;> obtain ⟨rfl, rfl⟩ := h <;> exact ⟨rfl, by decide⟩

theorem escaped_eq_self {c : Char} (h : c ∉ letters.map Prod.fst) : escaped c = c := by
  unfold escaped
  split
  case h_8 => rfl
  all_goals exact absurd (by decide) h

theorem sequence_escaped (rest : List Char) {c : Char} (hline : c ≠ '\n') :
    Sequence rest [c] (escaped c) := by
  by_cases h : c ∈ letters.map Prod.fst
  · obtain ⟨⟨_, d⟩, hd, rfl⟩ := List.mem_map.1 h
    rw [(escaped_eq_of_mem hd).1]
    exact .letter hd
  · rw [escaped_eq_self h]
    exact .self h hline

theorem decodeEscape_of_ne {c : Char} (h : c ≠ '\n') (cs : List Char) :
    decodeEscape (c :: cs) = (escaped c, cs) := by
  rw [decodeEscape]
  simpa using h

/-- One backslash sequence is decoded. -/
theorem decodeEscape_eq_iff {cs rest : List Char} {c : Char} :
    decodeEscape cs = (c, rest) ↔ ∃ seq, cs = seq ++ rest ∧ Sequence rest seq c := by
  constructor
  · intro h
    unfold decodeEscape at h
    split at h
    · cases h
      exact ⟨[], rfl, .last rfl⟩
    · next cs =>
      cases h
      refine ⟨'\n' :: cs.takeWhile isIndent, by simp, .newline ?_ ?_⟩
      · exact fun c hc => List.mem_takeWhile_imp hc
      · exact head?_dropWhile isIndent cs
    · next c cs hline =>
      cases h
      exact ⟨[c], rfl, sequence_escaped _ hline⟩
  · rintro ⟨seq, rfl, hseq⟩
    cases hseq with
    | letter h =>
      obtain ⟨hescaped, hline⟩ := escaped_eq_of_mem h
      rw [← hescaped]
      exact decodeEscape_of_ne hline rest
    | self hletter hline =>
      have hdecode := decodeEscape_of_ne hline rest
      rw [escaped_eq_self hletter] at hdecode
      exact hdecode
    | newline hblanks hrest =>
      rename_i blanks
      have hstop : rest.dropWhile isIndent = rest := by
        cases rest with
        | nil => rfl
        | cons c rest => exact List.dropWhile_cons_of_neg (by simp [hrest c rfl])
      rw [List.cons_append, decodeEscape, List.dropWhile_append_of_pos hblanks, hstop]
    | last hrest =>
      rw [hrest]
      rfl

theorem exists_sequence (cs : List Char) :
    ∃ seq, cs = seq ++ (decodeEscape cs).2 ∧ Sequence (decodeEscape cs).2 seq (decodeEscape cs).1 :=
  decodeEscape_eq_iff.1 rfl

/-! ### Quoted and bare elements -/

theorem quotedWord_cons {c : Char} (hquote : c ≠ '"') (hslash : c ≠ '\\') (cs : List Char) :
    quotedWord (c :: cs) = (quotedWord cs).map fun (word, rest) => (c :: word, rest) := by
  rw [quotedWord] <;> simp_all

theorem exists_unbroken_of_quotedWord {cs word rest : List Char}
    (h : quotedWord cs = some (word, rest)) :
    ∃ text, cs = text ++ '"' :: rest ∧ Unbroken (· == '"') ('"' :: rest) text word := by
  fun_induction quotedWord cs generalizing word rest with
  | case1 => simp at h
  | case2 =>
    cases h
    exact ⟨[], rfl, .nil⟩
  | case3 cs ih =>
    obtain ⟨⟨word, rest⟩, hw, he⟩ := Option.map_eq_some_iff.1 h
    cases he
    obtain ⟨text, htext, hunbroken⟩ := ih hw
    obtain ⟨seq, hcs, hseq⟩ := exists_sequence cs
    rw [htext] at hcs hseq
    exact ⟨'\\' :: (seq ++ text), by simp [hcs], .sequence hseq hunbroken⟩
  | case4 c cs hquote hslash ih =>
    obtain ⟨⟨word, rest⟩, hw, he⟩ := Option.map_eq_some_iff.1 h
    cases he
    obtain ⟨text, rfl, hunbroken⟩ := ih hw
    exact ⟨c :: text, rfl, .plain (by simpa using hquote) hslash hunbroken⟩

theorem quotedWord_of_unbroken {text word rest : List Char}
    (h : Unbroken (· == '"') ('"' :: rest) text word) :
    quotedWord (text ++ '"' :: rest) = some (word, rest) := by
  induction h with
  | nil => simp [quotedWord]
  | plain hend hslash _ ih =>
    rw [List.cons_append, quotedWord_cons (by simpa using hend) hslash, ih]
    rfl
  | sequence hseq _ ih =>
    have hdecode := decodeEscape_eq_iff.2 ⟨_, rfl, hseq⟩
    rw [List.cons_append, List.append_assoc, quotedWord, hdecode, ih]
    rfl

theorem bareWord_backslash (cs : List Char) :
    bareWord ('\\' :: cs) =
      ((decodeEscape cs).1 :: (bareWord (decodeEscape cs).2).1,
        (bareWord (decodeEscape cs).2).2) := by
  rw [bareWord]

/-- A bare run is read up to the first blank that no backslash hides. -/
theorem exists_unbroken_bareWord (cs : List Char) :
    ∃ text, cs = text ++ (bareWord cs).2 ∧
      Unbroken isSpace (bareWord cs).2 text (bareWord cs).1 ∧
      ∀ c ∈ (bareWord cs).2.head?, isSpace c = true := by
  fun_induction bareWord cs with
  | case1 => exact ⟨[], rfl, .nil, by simp⟩
  | case2 cs word rest hbare ih =>
    rw [hbare] at ih
    obtain ⟨text, htext, hunbroken, hrest⟩ := ih
    obtain ⟨seq, hcs, hseq⟩ := exists_sequence cs
    rw [htext] at hcs hseq
    exact ⟨'\\' :: (seq ++ text), by simp [hcs], .sequence hseq hunbroken, hrest⟩
  | case3 c cs hslash hspace => exact ⟨[], rfl, .nil, by simpa using hspace⟩
  | case4 c cs hslash hspace word rest hbare ih =>
    rw [hbare] at ih
    obtain ⟨text, htext, hunbroken, hrest⟩ := ih
    exact ⟨c :: text, by simp [htext], .plain (by simpa using hspace) hslash hunbroken, hrest⟩

theorem bareWord_of_unbroken {text word rest : List Char} (h : Unbroken isSpace rest text word)
    (hrest : atWordEnd rest = true) : bareWord (text ++ rest) = (word, rest) := by
  induction h with
  | nil => exact bareWord_of_atWordEnd hrest
  | plain hend hslash _ ih =>
    rw [List.cons_append, bareWord_cons hslash, ih]
    simp [hend]
  | sequence hseq _ ih =>
    have hdecode := decodeEscape_eq_iff.2 ⟨_, rfl, hseq⟩
    rw [List.cons_append, List.append_assoc, bareWord_backslash, hdecode, ih]

/-! ### Lists -/

theorem atWordEnd_iff {cs : List Char} :
    atWordEnd cs = true ↔ ∀ c ∈ cs.head?, isSpace c = true := by
  cases cs <;> simp [atWordEnd]

/-- An element begins with a character that is no blank. -/
theorem Element.exists_cons {rest text word : List Char} (h : Element rest text word) :
    ∃ c cs, text = c :: cs ∧ isSpace c = false := by
  cases h with
  | braced | quoted => exact ⟨_, _, rfl, rfl⟩
  | bare _ _ h =>
    cases h with
    | plain hend => exact ⟨_, _, rfl, hend⟩
    | sequence => exact ⟨_, _, rfl, rfl⟩

/-- The first word of a text is an element at its beginning. -/
theorem firstWord_eq_ok_iff {c : Char} {cs word rest : List Char} :
    firstWord (c :: cs) = .ok (word, rest) ∧ isSpace c = false ↔
      ∃ text, c :: cs = text ++ rest ∧ Element rest text word ∧ ∀ c ∈ rest.head?, isSpace c = true := by
  constructor
  · rintro ⟨h, hspace⟩
    unfold firstWord at h
    split at h
    · next hcs =>
      cases hcs
      split at h
      · simp at h
      · next hword =>
        split at h
        · next hend =>
          cases h
          obtain ⟨rfl, hbalanced⟩ := bracedWord_eq_some_iff.1 hword
          exact ⟨'{' :: (word ++ ['}']), by simp, .braced hbalanced, atWordEnd_iff.1 hend⟩
        · simp at h
    · next hcs =>
      cases hcs
      split at h
      · simp at h
      · next hword =>
        split at h
        · next hend =>
          cases h
          obtain ⟨text, rfl, hunbroken⟩ := exists_unbroken_of_quotedWord hword
          exact ⟨'"' :: (text ++ ['"']), by simp, .quoted hunbroken, atWordEnd_iff.1 hend⟩
        · simp at h
    · next hbrace hquote =>
      have hbare : bareWord (c :: cs) = (word, rest) := by simpa using h
      obtain ⟨text, htext, hunbroken, hrest⟩ := exists_unbroken_bareWord (c :: cs)
      rw [hbare] at htext hunbroken hrest
      refine ⟨text, htext, ?_, hrest⟩
      cases text with
      | nil =>
        -- The run is not empty, because it begins with no blank.
        obtain rfl : c :: cs = rest := htext
        simp [hspace] at hrest
      | cons d text =>
        obtain ⟨rfl, -⟩ := List.cons.inj htext
        refine .bare ?_ ?_ hunbroken
        · rintro rfl
          exact hbrace _ rfl
        · rintro rfl
          exact hquote _ rfl
  · rintro ⟨text, htext, helement, hrest⟩
    have hend := atWordEnd_iff.2 hrest
    constructor
    · rw [htext]
      cases helement with
      | braced h =>
        have hword : bracedWord 0 (word ++ '}' :: rest) = some (word, rest) :=
          bracedWord_eq_some_iff.2 ⟨rfl, h⟩
        simp [firstWord, hword, hend]
      | quoted h => simp [firstWord, quotedWord_of_unbroken h, hend]
      | bare hbrace hquote h =>
        have hbare := bareWord_of_unbroken h hend
        rw [List.cons_append] at hbare ⊢
        rw [firstWord_bare hbrace hquote, hbare]
    · obtain ⟨d, ds, rfl, hd⟩ := helement.exists_cons
      obtain ⟨rfl, -⟩ := List.cons.inj htext
      exact hd

theorem isList_of_words {cs : List Char} {ws : List (List Char)} (h : words cs = .ok ws) :
    IsList cs ws := by
  fun_induction words cs generalizing ws with
  | case1 cs hcs =>
    cases h
    exact .blank fun c hc => by simpa using List.dropWhile_eq_nil_iff.1 hcs c hc
  | case2 => simp at h
  | case3 cs c rest hcs word rest' hword ih =>
    have hspace := head?_dropWhile isSpace cs c (by simp [hcs])
    obtain ⟨text, htext, helement, hrest⟩ := firstWord_eq_ok_iff.1 ⟨hword, hspace⟩
    obtain ⟨ws', hws, rfl⟩ := map_eq_ok_iff.1 h
    have hsplit := List.takeWhile_append_dropWhile (p := isSpace) (l := cs)
    rw [hcs, htext] at hsplit
    rw [← hsplit]
    exact .element (fun c hc => List.mem_takeWhile_imp hc) helement hrest (ih hws)

theorem words_of_isList {cs : List Char} {ws : List (List Char)} (h : IsList cs ws) :
    words cs = .ok ws := by
  induction h with
  | blank h => rw [words_eq, List.dropWhile_eq_nil_iff.2 fun c hc => by simpa using h c hc]
  | element hblanks helement hrest _ ih =>
    rename_i blanks text word rest ws _
    obtain ⟨c, cs, hcs, hspace⟩ := helement.exists_cons
    have htext : text ++ rest = c :: (cs ++ rest) := by rw [hcs, List.cons_append]
    have hword := (firstWord_eq_ok_iff.2 ⟨text, htext.symm, helement, hrest⟩).1
    have hblank : words (blanks ++ (text ++ rest)) = words (text ++ rest) := by
      rw [words_eq, words_eq, List.dropWhile_append_of_pos hblanks]
    rw [hblank, htext, words_of_firstWord hspace hword, ih]
    rfl

theorem words_eq_ok_iff {cs : List Char} {ws : List (List Char)} :
    words cs = .ok ws ↔ IsList cs ws :=
  ⟨isList_of_words, words_of_isList⟩

/-- A text is split into exactly the contents of its elements if it is a list, and refused if it is
none. -/
theorem split_exact (text : String) :
    (∀ es, split text = .ok es ↔ IsList text.toList (es.map String.toList)) ∧
      ((∃ e, split text = .error e) ↔ ¬∃ ws, IsList text.toList ws) := by
  have hsplit : split text = (words text.toList).map (·.map String.ofList) := rfl
  simp only [← words_eq_ok_iff, hsplit]
  cases hwords : words text.toList with
  | error e => simp [Except.map]
  | ok ws =>
    constructor
    · intro es
      simp only [Except.map, Except.ok.injEq]
      constructor
      · rintro rfl
        simp [Function.comp_def]
      · rintro rfl
        simp [Function.comp_def]
    · simp [Except.map]

example : split "{a {b}} \"c d\"\te\\ f\\\n  g" = .ok ["a {b}", "c d", "e f g"] := by
  decide +kernel

end ScriptHost.WordList
