import ScriptHost.Engine
import ScriptHost.Proofs.Script.Blanks
import ScriptHost.Proofs.Script.Readers
import ScriptHost.Proofs.WordList.RoundTrip

/-!
# Written lists as scripts

A list that is written out is meant to be a command whose words stand for themselves. A word in
braces always does. A bare word and one with backslashes do unless a blank in them means something
to the reader of scripts: a vertical tab and a form feed end a word, and white space that lists do
not know is skipped where a command begins. Lines of lists are literal commands exactly if
none of this happens.
-/

namespace ScriptHost.Script

open Text WordList

/-- The text of a part that is literal. -/
def Part.literal? : Part → Option String
  | .text value => some value
  | .variable _ | .script _ => none

/-- The text of a word that consists of literal parts. -/
def literal? (w : Word) : Option String :=
  (w.mapM Part.literal?).map String.join

/-- The statements are literal and consist of the given words. -/
def AreLiteral (ss : List Statement) (commands : List (List (List Char))) : Prop :=
  ss.map (·.map literal?) = commands.map (·.map fun w => some (String.ofList w))

/-- Whether a word is written in braces. -/
def isBraced (cs : List Char) : Bool :=
  needsQuoting cs && balanced cs

/-- Whether the reader of scripts finds the beginning of a word that begins a command. -/
def beginsCommand (cs : List Char) : Bool :=
  isBraced cs || cs.head?.all fun c => !isWide c

/-- Whether the words of a command are still the same when it is read as a script. -/
def staysLiteral (ws : List (List Char)) : Bool :=
  ws.all isKept && ws.head?.all beginsCommand

/-- The words as one line. -/
def line (ws : List (List Char)) : List Char :=
  [' '].intercalate (ws.map quoteChars)

/-- The commands as lines. -/
def lines (commands : List (List (List Char))) : List Char :=
  ['\n'].intercalate (commands.map line)

/-- A word that consists of the given characters. -/
def literalWord (cs : List Char) : Word :=
  [.text (String.ofList cs)]

/-! ### Literal words -/

@[simp] theorem literal?_literalWord (cs : List Char) :
    literal? (literalWord cs) = some (String.ofList cs) := by
  simp [literal?, literalWord, Part.literal?, String.join]

theorem joinPieces_char {cs : List Char} (h : cs ≠ []) :
    joinPieces (cs.map .char) = literalWord cs := by
  have hleading (cs : List Char) : leadingText (cs.map .char) = (cs, []) := by
    induction cs with
    | nil => rfl
    | cons c cs ih => simp [leadingText, ih]
  obtain ⟨c, cs, rfl⟩ := List.exists_cons_of_ne_nil h
  rw [List.map_cons, joinPieces, hleading]
  simp [joinPieces, literalWord]

theorem isSpace_eq (c : Char) : isSpace c = (isInlineBlank c || c = '\n') := by
  simp only [isSpace, isInlineBlank]
  grind

/-- A character that can stand bare in a list can stand bare in a script. -/
theorem endsWord_of_plain {c : Char} (hspace : isSpace c = false) (hspecial : isSpecial c = false)
    (cs : List Char) : endsWord (c :: cs) = false := by
  rw [isSpace_eq] at hspace
  unfold endsWord
  split <;> simp_all [isSpecial]

theorem endsWord_of_isSpace {c : Char} (h : isSpace c = true) (cs : List Char) :
    endsWord (c :: cs) = true := by
  rw [isSpace_eq] at h
  unfold endsWord
  split <;> simp_all

theorem pieces_plain {c : Char} (hspace : isSpace c = false) (hspecial : isSpecial c = false)
    (cs : List Char) : pieces .word (c :: cs) = prepend (.char c) (pieces .word cs) := by
  have hend := endsWord_of_plain hspace hspecial cs
  have hne : c ≠ '\\' ∧ c ≠ '$' ∧ c ≠ '[' := by
    refine ⟨?_, ?_, ?_⟩ <;> rintro rfl <;> simp [isSpecial] at hspecial
  rw [pieces]
  simp [hend, hne]

theorem pieces_backslash {c : Char} (h : c ≠ '\n') (cs : List Char) :
    pieces .word ('\\' :: c :: cs) =
      prepend (.char (decodeEscape (c :: cs)).1) (pieces .word (decodeEscape (c :: cs)).2) := by
  have hend : endsWord ('\\' :: c :: cs) = false := by
    rw [endsWord] <;> simp [isInlineBlank, h]
  rw [pieces]
  simp [hend]

theorem pieces_escape {c : Char} (hc : isLoose c = false) (cs : List Char) :
    pieces .word (escape c ++ cs) = prepend (.char c) (pieces .word cs) := by
  rw [escape]
  split_ifs with h₁ h₂ h₃ h₄
  · subst h₁
    exact pieces_backslash (by decide) cs
  · subst h₂
    exact pieces_backslash (by decide) cs
  · subst h₃
    exact pieces_backslash (by decide) cs
  · simp only [List.cons_append, List.nil_append]
    rw [pieces_backslash h₁, decodeEscape_self h₄]
  · obtain ⟨hspace, hspecial⟩ := plain_of_not_escaped hc h₁ h₂ h₃ h₄
    exact pieces_plain hspace hspecial cs

theorem pieces_plain_append {cs rest : List Char}
    (hcs : ∀ c ∈ cs, isSpace c = false ∧ isSpecial c = false) (hrest : endsWord rest = true) :
    pieces .word (cs ++ rest) = .ok (cs.map .char, rest) := by
  induction cs with
  | nil => exact pieces_of_endsWord hrest
  | cons c cs ih =>
    obtain ⟨hspace, hspecial⟩ := hcs c (by simp)
    rw [List.cons_append, pieces_plain hspace hspecial, ih fun d hd => hcs d (by simp [hd])]
    rfl

theorem pieces_flatMap_escape {cs rest : List Char} (hcs : ∀ c ∈ cs, isLoose c = false)
    (hrest : endsWord rest = true) :
    pieces .word (cs.flatMap escape ++ rest) = .ok (cs.map .char, rest) := by
  induction cs with
  | nil => exact pieces_of_endsWord hrest
  | cons c cs ih =>
    rw [List.flatMap_cons, List.append_assoc, pieces_escape (hcs c (by simp)),
      ih fun d hd => hcs d (by simp [hd])]
    rfl

theorem closeBrace_append {depth : Nat} {cs : List Char} (rest : List Char)
    (h : balancedFrom depth cs = true) :
    closeBrace (depth + 1) (cs ++ '}' :: rest) = some (cs, rest) := by
  fun_induction balancedFrom depth cs with
  | case1 depth =>
    obtain rfl : depth = 0 := by simpa using h
    simp [closeBrace_cons]
  | case2 | case5 => simp at h
  | case3 depth c cs ih =>
    rw [List.cons_append, List.cons_append, closeBrace_backslash, ih h]
    rfl
  | case4 depth cs ih =>
    rw [List.cons_append, closeBrace_cons (by decide)]
    simp [ih h]
  | case6 cs depth ih =>
    rw [List.cons_append, closeBrace_cons (by decide)]
    simp [ih h]
  | case7 depth c cs h₁ h₂ h₃ ih =>
    rw [List.cons_append, closeBrace_cons h₁]
    simp_all

theorem word_braced {cs rest : List Char} (h : balanced cs = true) (hrest : endsWord rest = true) :
    word ('{' :: cs ++ ['}'] ++ rest) = .ok (literalWord cs, rest) := by
  have hclose : closeBrace 1 (cs ++ '}' :: rest) = some (cs, rest) := closeBrace_append rest h
  simp [word, braced, hclose, hrest, literalWord]

theorem word_of_pieces {cs text rest : List Char} (hne : cs ≠ [])
    (hhead : ∃ c, text.head? = some c ∧ c ≠ '{' ∧ c ≠ '"')
    (h : pieces .word (text ++ rest) = .ok (cs.map .char, rest)) :
    word (text ++ rest) = .ok (literalWord cs, rest) := by
  obtain ⟨c, hc, hbrace, hquote⟩ := hhead
  obtain ⟨text, rfl⟩ := List.head?_eq_some_iff.1 hc
  rw [List.cons_append, word_eq_parts (by simpa using hbrace) (by simpa using hquote), parts, ← List.cons_append, h]
  simp [Except.map, joinPieces_char hne]

theorem word_flatMap_escape {cs rest : List Char} (hne : cs ≠ [])
    (hcs : ∀ c ∈ cs, isLoose c = false) (hrest : endsWord rest = true) :
    word (cs.flatMap escape ++ rest) = .ok (literalWord cs, rest) := by
  refine word_of_pieces hne ?_ (pieces_flatMap_escape hcs hrest)
  obtain ⟨c, cs, rfl⟩ := List.exists_cons_of_ne_nil hne
  obtain ⟨d, ds, hd, _, hbrace, hquote⟩ := escape_eq_cons (hcs c (by simp))
  exact ⟨d, by simp [hd], hbrace, hquote⟩

theorem word_bare {cs rest : List Char} (h : needsQuoting cs = false)
    (hrest : endsWord rest = true) : word (cs ++ rest) = .ok (literalWord cs, rest) := by
  obtain ⟨hne, hplain⟩ := exists_of_not_needsQuoting h
  refine word_of_pieces hne ?_ (pieces_plain_append hplain hrest)
  obtain ⟨c, cs, rfl⟩ := List.exists_cons_of_ne_nil hne
  obtain ⟨hbrace, hquote, _⟩ := ne_of_not_isSpecial (hplain c (by simp)).2
  exact ⟨c, rfl, hbrace, hquote⟩

/-- A word that the list keeps is read as it was. -/
theorem word_quoteChars {cs rest : List Char} (hkept : isKept cs = true)
    (hrest : endsWord rest = true) :
    word (quoteChars cs ++ rest) = .ok (literalWord cs, rest) := by
  rw [quoteChars]
  split_ifs with hquoting hbalanced
  · exact word_braced hbalanced hrest
  · have hcs : ∀ c ∈ cs, isLoose c = false := by simpa [isKept, hbalanced] using hkept
    have hne : cs ≠ [] := by
      rintro rfl
      exact hbalanced rfl
    exact word_flatMap_escape hne hcs hrest
  · exact word_bare (by simpa using hquoting) hrest

/-! ### Statements -/

theorem skipInline_of_not_endsWord {cs : List Char} (h : endsWord cs = false) :
    skipInline cs = cs := by
  fun_cases skipInline cs with
  | case1 => rfl
  | case2 c rest hblank =>
    have hslash : c ≠ '\\' := by
      rintro rfl
      simp [isInlineBlank] at hblank
    rw [endsWord] at h <;> simp_all
  | case3 => simp [endsWord] at h
  | case4 | case5 => rfl

theorem statement_blank {c : Char} (h : isInlineBlank c = true) (cs : List Char) :
    statement (c :: cs) = statement cs := by
  rw [statement, statement, skipInline_blank h]

theorem statement_of_word {cs rest : List Char} {w : Word} (hend : endsWord cs = false)
    (h : word cs = .ok (w, rest)) : statement cs = prepend w (statement rest) := by
  obtain ⟨c, cs, rfl⟩ : ∃ c cs', cs = c :: cs' :=
    List.exists_cons_of_ne_nil (by rintro rfl; simp [endsWord] at hend)
  have hc : ¬(c = '\n' ∨ c = ';') := by
    rintro (rfl | rfl) <;> simp [endsWord] at hend
  rw [statement, skipInline_of_not_endsWord hend]
  simp only [hc, dite_false]
  split <;> simp_all

/-- The written form of a word, unless blanks come first, is no end of a word. -/
theorem endsWord_escape {c : Char} (hc : isLoose c = false) (cs : List Char) :
    endsWord (escape c ++ cs) = false := by
  rw [escape]
  split_ifs with h₁ h₂ h₃ h₄
  · rfl
  · rfl
  · rfl
  · simp only [List.cons_append, List.nil_append]
    rw [endsWord] <;> simp [isInlineBlank, h₁]
  · obtain ⟨hspace, hspecial⟩ := plain_of_not_escaped hc h₁ h₂ h₃ h₄
    exact endsWord_of_plain hspace hspecial cs

theorem endsWord_quoteChars {cs : List Char} (hkept : isKept cs = true) (rest : List Char) :
    endsWord (quoteChars cs ++ rest) = false := by
  rw [quoteChars]
  split_ifs with hquoting hbalanced
  · rfl
  · have hcs : ∀ c ∈ cs, isLoose c = false := by simpa [isKept, hbalanced] using hkept
    obtain ⟨c, cs, rfl⟩ : ∃ c cs', cs = c :: cs' :=
      List.exists_cons_of_ne_nil (by rintro rfl; exact hbalanced rfl)
    rw [List.flatMap_cons, List.append_assoc]
    exact endsWord_escape (hcs c (by simp)) _
  · obtain ⟨hne, hplain⟩ := exists_of_not_needsQuoting (by simpa using hquoting)
    obtain ⟨c, cs, rfl⟩ := List.exists_cons_of_ne_nil hne
    exact endsWord_of_plain (hplain c (by simp)).1 (hplain c (by simp)).2 _

theorem statement_quoteChars {cs rest : List Char} (hkept : isKept cs = true)
    (hrest : endsWord rest = true) :
    statement (quoteChars cs ++ rest) = prepend (literalWord cs) (statement rest) :=
  statement_of_word (endsWord_quoteChars hkept rest) (word_quoteChars hkept hrest)

/-- What stands behind a line: nothing, further lines, or further commands behind a semicolon. -/
inductive Follows : List Char → List Char → Prop
  | nothing : Follows [] []
  | lines (cs : List Char) : Follows ('\n' :: cs) cs
  | commands (cs : List Char) : Follows (';' :: cs) cs

theorem Follows.endsWord {after cs : List Char} (h : Follows after cs) :
    Script.endsWord after = true := by
  cases h <;> rfl

theorem Follows.statement {after cs : List Char} (h : Follows after cs) :
    Script.statement after = .ok ([], cs) := by
  cases h with
  | nothing => simp [Script.statement, skipInline]
  | lines cs =>
    have hskip : skipInline ('\n' :: cs) = '\n' :: cs := by
      rw [skipInline.eq_def]
      simp [isInlineBlank]
    rw [Script.statement, hskip]
    simp
  | commands cs =>
    have hskip : skipInline (';' :: cs) = ';' :: cs := by
      rw [skipInline.eq_def]
      simp [isInlineBlank]
    rw [Script.statement, hskip]
    simp

theorem line_cons_cons (w w' : List Char) (ws : List (List Char)) :
    line (w :: w' :: ws) = quoteChars w ++ ' ' :: line (w' :: ws) := by
  simp [line]

/-- The text behind the first word of a line ends that word. -/
theorem exists_line_cons (w : List Char) (ws : List (List Char)) {after cs : List Char}
    (hafter : Follows after cs) :
    ∃ rest, line (w :: ws) ++ after = quoteChars w ++ rest ∧ endsWord rest = true ∧
      statement rest = statement (line ws ++ after) := by
  cases ws with
  | nil => exact ⟨after, by simp [line], hafter.endsWord, by simp [line]⟩
  | cons w' ws =>
    refine ⟨' ' :: (line (w' :: ws) ++ after), ?_, rfl, statement_blank rfl _⟩
    simp [line_cons_cons]

theorem statement_line {ws : List (List Char)} {after cs : List Char} (hafter : Follows after cs)
    (hkept : ∀ w ∈ ws, isKept w = true) :
    statement (line ws ++ after) = .ok (ws.map literalWord, cs) := by
  induction ws with
  | nil => exact hafter.statement
  | cons w ws ih =>
    obtain ⟨rest, hline, hend, hrest⟩ := exists_line_cons w ws hafter
    rw [hline, statement_quoteChars (hkept w (by simp)) hend, hrest,
      ih fun v hv => hkept v (by simp [hv])]
    rfl

/-! ### Words that are not kept -/

theorem flatMap_escape_of_isLoose {blanks : List Char} (h : ∀ c ∈ blanks, isLoose c = true) :
    blanks.flatMap escape = blanks := by
  induction blanks with
  | nil => rfl
  | cons c blanks ih =>
    rw [List.flatMap_cons, escape_of_isLoose (h c (by simp)), ih fun d hd => h d (by simp [hd])]
    rfl

theorem quoteChars_of_not_isKept {w : List Char} (h : isKept w = false) :
    quoteChars w = w.flatMap escape := by
  obtain ⟨hbalanced, c, hc, hloose⟩ : balanced w = false ∧ ∃ c ∈ w, isLoose c = true := by
    simpa [isKept] using h
  have hquoting : needsQuoting w = true := by
    simp only [needsQuoting, Bool.or_eq_true, List.any_eq_true]
    exact .inr ⟨c, hc, .inl (isSpace_of_isLoose hloose)⟩
  rw [quoteChars, if_pos hquoting, if_neg (by simp [hbalanced])]

theorem not_isSpecial_of_isLoose {c : Char} (h : isLoose c = true) : isSpecial c = false := by
  simp only [isLoose, Bool.or_eq_true, decide_eq_true_eq] at h
  rcases h with rfl | rfl <;> rfl

theorem exists_not_isLoose_of_not_isKept {w : List Char} (h : isKept w = false) :
    ∃ c ∈ w, isLoose c = false := by
  -- A word of nothing but such blanks could stand in braces.
  by_contra hall
  have hplain : ∀ c ∈ w, isSpecial c = false :=
    fun c hc => not_isSpecial_of_isLoose (by simpa using fun hc' => hall ⟨c, hc, hc'⟩)
  simp [isKept, balanced, balancedFrom_zero_of_plain hplain] at h

/-- A word that is not kept is some blanks that are left as they are, a piece without them, and what
comes behind the next of them. -/
theorem exists_piece_of_not_isKept {w : List Char} (h : isKept w = false) :
    ∃ blanks piece more, w = blanks ++ (piece ++ more) ∧ (∀ c ∈ blanks, isLoose c = true) ∧
      piece ≠ [] ∧ (∀ c ∈ piece, isLoose c = false) ∧ ∀ c ∈ more.head?, isLoose c = true := by
  have hne : w.dropWhile isLoose ≠ [] := by
    obtain ⟨c, hc, hloose⟩ := exists_not_isLoose_of_not_isKept h
    intro hnil
    simp [List.dropWhile_eq_nil_iff.1 hnil c hc] at hloose
  have hhead := head?_dropWhile isLoose w
  refine ⟨w.takeWhile isLoose, (w.dropWhile isLoose).takeWhile fun c => !isLoose c,
    (w.dropWhile isLoose).dropWhile fun c => !isLoose c, ?_, ?_, ?_, ?_, ?_⟩
  · rw [List.takeWhile_append_dropWhile, List.takeWhile_append_dropWhile]
  · exact fun c hc => List.mem_takeWhile_imp hc
  · obtain ⟨d, ds, hd⟩ := List.exists_cons_of_ne_nil hne
    rw [hd, List.takeWhile_cons_of_pos (by simp [hhead d (by simp [hd])])]
    simp
  · intro c hc
    simpa using List.mem_takeWhile_imp hc
  · intro c hc
    simpa using head?_dropWhile (fun c => !isLoose c) _ c hc

theorem isInlineBlank_of_isLoose {c : Char} (h : isLoose c = true) : isInlineBlank c = true := by
  simp only [isLoose, Bool.or_eq_true, decide_eq_true_eq] at h
  rcases h with rfl | rfl <;> rfl

theorem statement_blanks {blanks : List Char} (h : ∀ c ∈ blanks, isLoose c = true)
    (cs : List Char) : statement (blanks ++ cs) = statement cs := by
  induction blanks with
  | nil => rfl
  | cons c blanks ih =>
    rw [List.cons_append, statement_blank (isInlineBlank_of_isLoose (h c (by simp))),
      ih fun d hd => h d (by simp [hd])]

/-- In the place of a word that is not kept another word is read. -/
theorem exists_statement_of_not_isKept {w rest : List Char} (h : isKept w = false)
    (hrest : endsWord rest = true) :
    ∃ piece rest', statement (quoteChars w ++ rest) = prepend (literalWord piece) (statement rest') ∧
      piece ≠ w := by
  obtain ⟨blanks, piece, more, hw, hblanks, hpiece, hfree, hmore⟩ := exists_piece_of_not_isKept h
  have hend : endsWord (more.flatMap escape ++ rest) = true := by
    cases more with
    | nil => exact hrest
    | cons c more =>
      have hc : isLoose c = true := hmore c (by simp)
      rw [List.flatMap_cons, escape_of_isLoose hc]
      exact endsWord_of_isSpace (isSpace_of_isLoose hc) _
  have hbegin : endsWord (piece.flatMap escape ++ (more.flatMap escape ++ rest)) = false := by
    obtain ⟨c, piece, rfl⟩ := List.exists_cons_of_ne_nil hpiece
    rw [List.flatMap_cons, List.append_assoc]
    exact endsWord_escape (hfree c (by simp)) _
  refine ⟨piece, more.flatMap escape ++ rest, ?_, ?_⟩
  · rw [quoteChars_of_not_isKept h, hw, List.flatMap_append, List.flatMap_append,
      flatMap_escape_of_isLoose hblanks, List.append_assoc, List.append_assoc,
      statement_blanks hblanks]
    exact statement_of_word hbegin (word_flatMap_escape hpiece hfree hend)
  · rintro rfl
    obtain ⟨-, c, hc, hloose⟩ : balanced piece = false ∧ ∃ c ∈ piece, isLoose c = true := by
      simpa [isKept] using h
    simp [hfree c hc] at hloose

theorem literal?_ne_of_statement_line {ws : List (List Char)} {after cs rest : List Char}
    {s : Statement} (hafter : Follows after cs) (hlost : ∃ w ∈ ws, isKept w = false)
    (h : statement (line ws ++ after) = .ok (s, rest)) :
    s ≠ [] ∧ s.map literal? ≠ ws.map fun w => some (String.ofList w) := by
  induction ws generalizing s rest with
  | nil => simp at hlost
  | cons w ws ih =>
    obtain ⟨behind, hline, hend, hbehind⟩ := exists_line_cons w ws hafter
    rw [hline] at h
    by_cases hkept : isKept w = true
    · rw [statement_quoteChars hkept hend, hbehind] at h
      obtain ⟨s', hs', rfl⟩ := prepend_eq_ok.1 h
      have hlost' : ∃ v ∈ ws, isKept v = false := by simpa [hkept] using hlost
      simpa using (ih hlost' hs').2
    · obtain ⟨piece, rest', hstatement, hne⟩ :=
        exists_statement_of_not_isKept (by simpa using hkept) hend
      rw [hstatement] at h
      obtain ⟨s', hs', rfl⟩ := prepend_eq_ok.1 h
      simp [String.ofList_inj, hne]

/-! ### Where a command begins -/

theorem isSeparator_of_plain {c : Char} (hspace : isSpace c = false)
    (hspecial : isSpecial c = false) : isSeparator c = isWide c := by
  have hsemicolon : c ≠ ';' := by
    rintro rfl
    simp [isSpecial] at hspecial
  simp [isSeparator, isWide, hspace, hsemicolon]

theorem isSeparator_of_isLoose {c : Char} (h : isLoose c = true) : isSeparator c = true := by
  simp only [isLoose, Bool.or_eq_true, decide_eq_true_eq] at h
  rcases h with rfl | rfl <;> rfl

theorem escape_eq_cons_separator {c : Char} (hc : isLoose c = false) :
    ∃ d ds, escape c = d :: ds ∧ d ≠ '#' ∧ isSeparator d = isWide d := by
  rw [escape]
  split_ifs with h₁ h₂ h₃ h₄
  · exact ⟨'\\', ['n'], rfl, by decide, rfl⟩
  · exact ⟨'\\', ['t'], rfl, by decide, rfl⟩
  · exact ⟨'\\', ['r'], rfl, by decide, rfl⟩
  · exact ⟨'\\', [c], rfl, by decide, rfl⟩
  · obtain ⟨hspace, hspecial⟩ := plain_of_not_escaped hc h₁ h₂ h₃ h₄
    refine ⟨c, [], rfl, ?_, isSeparator_of_plain hspace hspecial⟩
    rintro rfl
    simp at h₄

/-- Behind the blanks that are left as they are, a written word begins with a character that the
reader of scripts skips only if it is a wide blank. -/
theorem exists_quoteChars_eq (w : List Char) :
    ∃ blanks c more, quoteChars w = blanks ++ c :: more ∧ (∀ b ∈ blanks, isLoose b = true) ∧
      c ≠ '#' ∧ isSeparator c = isWide c := by
  by_cases hkept : isKept w = true
  · rw [quoteChars]
    split_ifs with hquoting hbalanced
    · exact ⟨[], '{', w ++ ['}'], rfl, by simp, by decide, rfl⟩
    · have hcs : ∀ c ∈ w, isLoose c = false := by simpa [isKept, hbalanced] using hkept
      obtain ⟨c, w, rfl⟩ : ∃ c w', w = c :: w' :=
        List.exists_cons_of_ne_nil (by rintro rfl; exact hbalanced rfl)
      obtain ⟨d, ds, hd, hcomment, hseparator⟩ := escape_eq_cons_separator (hcs c (by simp))
      exact ⟨[], d, ds ++ w.flatMap escape, by simp [hd], by simp, hcomment, hseparator⟩
    · obtain ⟨hne, hplain⟩ := exists_of_not_needsQuoting (by simpa using hquoting)
      obtain ⟨c, w, rfl⟩ := List.exists_cons_of_ne_nil hne
      refine ⟨[], c, w, rfl, by simp, ?_,
        isSeparator_of_plain (hplain c (by simp)).1 (hplain c (by simp)).2⟩
      rintro rfl
      simp [needsQuoting] at hquoting
  · have hnot : isKept w = false := by simpa using hkept
    obtain ⟨blanks, piece, more, hw, hblanks, hpiece, hfree, -⟩ := exists_piece_of_not_isKept hnot
    obtain ⟨c, piece, rfl⟩ := List.exists_cons_of_ne_nil hpiece
    obtain ⟨d, ds, hd, hcomment, hseparator⟩ := escape_eq_cons_separator (hfree c (by simp))
    refine ⟨blanks, d, ds ++ (piece ++ more).flatMap escape, ?_, hblanks, hcomment, hseparator⟩
    rw [quoteChars_of_not_isKept hnot, hw, List.flatMap_append, flatMap_escape_of_isLoose hblanks]
    simp [hd]

theorem isWide_of_isLoose {c : Char} (h : isLoose c = true) : isWide c = false := by
  simp [isWide, isSpace_of_isLoose h]

theorem escape_of_isWide {c : Char} (h : isWide c = true) : escape c = [c] := by
  rw [escape]
  split_ifs with h₁ h₂ h₃ h₄
  · subst h₁; simp [isWide, isSpace] at h
  · subst h₂; simp [isWide, isSpace] at h
  · subst h₃; simp [isWide, isSpace] at h
  · simp only [isSpecial, Bool.or_eq_true, decide_eq_true_eq] at h₄
    rcases h₄ with (h₄ | (((((((h₄ | h₄) | h₄) | h₄) | h₄) | h₄) | h₄) | h₄)) | h₄ <;> subst h₄ <;>
      simp [isWide, isBlank, isSpace] at h
  · rfl

/-- The reader of scripts finds the beginning of the word exactly if the written form begins with no
wide blank. -/
theorem beginsCommand_eq (w : List Char) :
    beginsCommand w = (quoteChars w).head?.all fun c => !isWide c := by
  rw [beginsCommand, isBraced, quoteChars]
  split_ifs with hquoting hbalanced
  · have : isWide '{' = false := rfl
    simp [hquoting, hbalanced, this]
  · cases w with
    | nil => simp
    | cons c w =>
      simp only [hbalanced, Bool.and_false, Bool.false_or, List.head?_cons, Option.all_some,
        List.flatMap_cons]
      cases hc : isWide c with
      | true => simp [escape_of_isWide hc, hc]
      | false =>
        rw [escape]
        have : isWide '\\' = false := rfl
        split_ifs <;> simp [hc, this]
  · simp [hquoting]

/-! ### Counting -/

theorem wide_escape (c : Char) : wide (escape c) = (isWide c).toNat := by
  cases hc : isWide c with
  | true => simp [escape_of_isWide hc, hc]
  | false =>
    have hslash : isWide '\\' = false := rfl
    have hn : isWide 'n' = false := rfl
    have ht : isWide 't' = false := rfl
    have hr : isWide 'r' = false := rfl
    rw [escape]
    split_ifs <;> simp [hc, hslash, hn, ht, hr]

theorem wide_flatMap_escape (cs : List Char) : wide (cs.flatMap escape) = wide cs := by
  induction cs with
  | nil => rfl
  | cons c cs ih =>
    rw [List.flatMap_cons, wide_append, wide_escape, ih, wide_cons]
    omega

theorem wide_quoteChars (cs : List Char) : wide (quoteChars cs) = wide cs := by
  have hopen : isWide '{' = false := rfl
  have hclose : isWide '}' = false := rfl
  rw [quoteChars]
  split_ifs with _ hbalanced
  · simp [hopen, hclose]
  · exact wide_flatMap_escape cs
  · rfl

theorem wide_intercalate {c : Char} (hc : isWide c = false) (texts : List (List Char)) :
    wide ([c].intercalate texts) = (texts.map wide).sum := by
  induction texts with
  | nil => rfl
  | cons text texts ih =>
    cases texts with
    | nil => simp
    | cons text' texts =>
      simp only [List.intercalate_cons_cons, wide_append, ih, List.map_cons, List.sum_cons,
        wide_cons, hc, wide_nil, Bool.toNat_false]
      omega

theorem wide_line (ws : List (List Char)) : wide (line ws) = (ws.map wide).sum := by
  rw [line, wide_intercalate rfl, List.map_map]
  congr 1
  exact List.map_congr_left fun w _ => wide_quoteChars w

theorem wide_lines (commands : List (List (List Char))) :
    wide (lines commands) = (commands.map fun ws => (ws.map wide).sum).sum := by
  rw [lines, wide_intercalate rfl, List.map_map]
  congr 1
  exact List.map_congr_left fun ws _ => wide_line ws

theorem wide_of_literal? {w : Word} {text : String} (h : literal? w = some text) :
    (w.map Part.wide).sum = wide text.toList := by
  unfold literal? at h
  obtain ⟨texts, htexts, rfl⟩ := Option.map_eq_some_iff.1 h
  clear h
  induction w generalizing texts with
  | nil =>
    obtain rfl : texts = [] := by simpa using htexts.symm
    rfl
  | cons part w ih =>
    cases part with
    | text value =>
      have hbind : (w.mapM Part.literal?).bind (fun texts => some (value :: texts)) = some texts := by
        simpa [Part.literal?] using htexts
      obtain ⟨texts', htexts', hcons⟩ := Option.bind_eq_some_iff.1 hbind
      obtain rfl : value :: texts' = texts := by simpa using hcons
      rw [List.map_cons, List.sum_cons, ih texts' htexts', String.join_cons, String.toList_append,
        wide_append]
      rfl
    | _ => simp [Part.literal?] at htexts

theorem wide_of_literal {s : Statement} {ws : List (List Char)}
    (h : s.map literal? = ws.map fun w => some (String.ofList w)) :
    s.wide = (ws.map wide).sum := by
  induction s generalizing ws with
  | nil =>
    obtain rfl : ws = [] := by simpa using h.symm
    rfl
  | cons word s ih =>
    obtain ⟨w, ws, rfl⟩ : ∃ w ws', ws = w :: ws' :=
      List.exists_cons_of_ne_nil (by rintro rfl; simp at h)
    obtain ⟨hword, hs⟩ : literal? word = some (String.ofList w) ∧
        s.map literal? = ws.map fun w => some (String.ofList w) := by simpa using h
    have := ih hs
    simp only [Statement.wide, List.map_cons, List.sum_cons] at this ⊢
    rw [this, wide_of_literal? hword, String.toList_ofList]

theorem wide_of_areLiteral {ss : List Statement} {commands : List (List (List Char))}
    (h : AreLiteral ss commands) : (ss.map Statement.wide).sum = wide (lines commands) := by
  rw [wide_lines]
  induction ss generalizing commands with
  | nil =>
    obtain rfl : commands = [] := by simpa [AreLiteral] using h.symm
    rfl
  | cons s ss ih =>
    obtain ⟨ws, commands, rfl⟩ : ∃ ws commands', commands = ws :: commands' :=
      List.exists_cons_of_ne_nil (by rintro rfl; simp [AreLiteral] at h)
    obtain ⟨hs, hss⟩ : s.map literal? = (ws.map fun w => some (String.ofList w)) ∧
        AreLiteral ss commands := by simpa [AreLiteral] using h
    rw [List.map_cons, List.sum_cons, List.map_cons, List.sum_cons, wide_of_literal hs, ih hss]

/-! ### Lines of commands -/

/-- Behind the first line there is nothing, or there are the other ones. -/
theorem exists_lines_cons (ws : List (List Char)) (commands : List (List (List Char))) :
    ∃ after, lines (ws :: commands) = line ws ++ after ∧ Follows after (lines commands) := by
  cases commands with
  | nil => exact ⟨[], by simp [lines], .nothing⟩
  | cons ws' commands => exact ⟨'\n' :: lines (ws' :: commands), by simp [lines], .lines _⟩

theorem statements_of_statement {c : Char} {cs rest : List Char} {s : Statement}
    (hseparator : isSeparator c = false) (hcomment : c ≠ '#')
    (h : statement (c :: cs) = .ok (s, rest)) :
    statements (c :: cs) = (statements rest).map (addStatement s) := by
  rw [statements, List.dropWhile_cons_of_neg (by simp [hseparator])]
  simp only [hcomment, if_false]
  split <;> simp_all

theorem exists_statement_of_statements {c : Char} {cs : List Char} {ss : List Statement}
    (hseparator : isSeparator c = false) (hcomment : c ≠ '#')
    (h : statements (c :: cs) = .ok ss) :
    ∃ s rest ss', statement (c :: cs) = .ok (s, rest) ∧ statements rest = .ok ss' ∧
      ss = addStatement s ss' := by
  cases hs : statement (c :: cs) with
  | error e =>
    rw [statements, List.dropWhile_cons_of_neg (by simp [hseparator])] at h
    simp only [hcomment, if_false] at h
    split at h <;> simp_all
  | ok r =>
    obtain ⟨s, rest⟩ := r
    rw [statements_of_statement hseparator hcomment hs] at h
    obtain ⟨ss', hss, rfl⟩ := map_eq_ok_iff.1 h
    exact ⟨s, rest, ss', rfl, hss, rfl⟩

theorem statements_blanks {blanks : List Char} (h : ∀ c ∈ blanks, isLoose c = true)
    (cs : List Char) : statements (blanks ++ cs) = statements cs :=
  statements_separators (fun c hc => isSeparator_of_isLoose (h c hc)) cs

theorem statements_line {ws : List (List Char)} {after cs : List Char} (hne : ws ≠ [])
    (h : staysLiteral ws = true) (hafter : Follows after cs) :
    statements (line ws ++ after) = (statements cs).map (ws.map literalWord :: ·) := by
  obtain ⟨w, ws, rfl⟩ := List.exists_cons_of_ne_nil hne
  obtain ⟨hkept, hbegins⟩ : (∀ v ∈ w :: ws, isKept v = true) ∧ beginsCommand w = true := by
    simpa [staysLiteral] using h
  have hstatement := statement_line hafter hkept
  obtain ⟨behind, hline, -, -⟩ := exists_line_cons w ws hafter
  obtain ⟨blanks, c, more, hquote, hblanks, hcomment, hseparator⟩ := exists_quoteChars_eq w
  obtain rfl : blanks = [] := by
    -- Such a blank would end the word before it begins.
    have hend := endsWord_quoteChars (hkept w (by simp)) behind
    cases blanks with
    | nil => rfl
    | cons b blanks =>
      rw [hquote, List.cons_append, List.cons_append,
        endsWord_of_isSpace (isSpace_of_isLoose (hblanks b (by simp)))] at hend
      simp at hend
  have hwide : isWide c = false := by simpa [beginsCommand_eq, hquote] using hbegins
  rw [hline, hquote, List.nil_append, List.cons_append] at hstatement ⊢
  rw [statements_of_statement (by rw [hseparator, hwide]) hcomment hstatement]
  rfl

/-- A line that is no literal command is not read as one, and what the reader of scripts skips in
it cannot make up for that later. -/
theorem not_areLiteral_of_not_staysLiteral {ws : List (List Char)}
    {commands : List (List (List Char))} {ss : List Statement} (hne : ws ≠ [])
    (h : staysLiteral ws = false) (hss : statements (lines (ws :: commands)) = .ok ss) :
    ¬AreLiteral ss (ws :: commands) := by
  intro hliteral
  obtain ⟨w, ws, rfl⟩ := List.exists_cons_of_ne_nil hne
  have hcount := wide_of_areLiteral hliteral
  obtain ⟨after, hlines, hafter⟩ := exists_lines_cons (w :: ws) commands
  obtain ⟨behind, hline, -, -⟩ := exists_line_cons w ws hafter
  obtain ⟨blanks, c, more, hquote, hblanks, hcomment, hseparator⟩ := exists_quoteChars_eq w
  have htext : lines ((w :: ws) :: commands) = blanks ++ c :: (more ++ behind) := by
    rw [hlines, hline, hquote, List.append_assoc, List.cons_append]
  rw [htext] at hss hcount
  rw [statements_blanks hblanks] at hss
  cases hwide : isWide c with
  | true =>
    rw [statements_separator (by rw [hseparator, hwide])] at hss
    have := wide_statements_le hss
    simp only [wide_append, wide_cons, hwide, Bool.toNat_true] at this hcount
    omega
  | false =>
    obtain ⟨s, rest, ss', hstatement, -, rfl⟩ :=
      exists_statement_of_statements (by rw [hseparator, hwide]) hcomment hss
    have hread : statement (line (w :: ws) ++ after) = .ok (s, rest) := by
      rw [← hlines, htext, statement_blanks hblanks, hstatement]
    by_cases hkept : ∀ v ∈ w :: ws, isKept v = true
    · -- Every word is kept, so the written form of the first one begins with a wide blank.
      have hbegins : beginsCommand w = false := by
        by_contra hbegins
        simp only [staysLiteral, List.all_eq_true.2 hkept, List.head?_cons, Option.all_some] at h
        simp_all
      rw [beginsCommand_eq, hquote] at hbegins
      cases blanks with
      | nil => simp [hwide] at hbegins
      | cons b blanks => simp [isWide_of_isLoose (hblanks b (by simp))] at hbegins
    · have hlost : ∃ v ∈ w :: ws, isKept v = false := by
        simpa only [not_forall, Bool.not_eq_true, exists_prop] using hkept
      obtain ⟨hs, hother⟩ := literal?_ne_of_statement_line hafter hlost hread
      refine hother ?_
      have hstatements : AreLiteral (s :: ss') ((w :: ws) :: commands) := by
        simpa [addStatement, hs] using hliteral
      exact (List.cons.inj hstatements).1

/-- Lines of commands are read as these commands exactly if each of them stays literal. -/
theorem statements_lines_iff {commands : List (List (List Char))} (hne : ∀ ws ∈ commands, ws ≠ []) :
    (∃ ss, statements (lines commands) = .ok ss ∧ AreLiteral ss commands) ↔
      ∀ ws ∈ commands, staysLiteral ws = true := by
  induction commands with
  | nil => simp [lines, statements, AreLiteral]
  | cons ws commands ih =>
    have hws : ws ≠ [] := hne ws (by simp)
    cases h : staysLiteral ws with
    | false =>
      simp only [List.mem_cons, forall_eq_or_imp, h, Bool.false_eq_true, false_and, iff_false]
      rintro ⟨ss, hss, hliteral⟩
      exact not_areLiteral_of_not_staysLiteral hws h hss hliteral
    | true =>
      simp only [List.mem_cons, forall_eq_or_imp, h, true_and,
        ← ih fun ws hws => hne ws (by simp [hws])]
      obtain ⟨after, hlines, hafter⟩ := exists_lines_cons ws commands
      rw [hlines, statements_line hws h hafter]
      constructor
      · rintro ⟨ss, hss, hliteral⟩
        obtain ⟨ss', hrest, rfl⟩ := map_eq_ok_iff.1 hss
        exact ⟨ss', hrest, (List.cons.inj hliteral).2⟩
      · rintro ⟨ss, hss, hliteral⟩
        refine ⟨ws.map literalWord :: ss, by simp [hss, Except.map], ?_⟩
        simp only [AreLiteral, List.map_cons, List.cons.injEq]
        exact ⟨by simp, hliteral⟩

/-! ### Evaluating a written command -/

theorem substituteAll_literalWord (e : Engine) (i : InterpId) (ws : List (List Char)) :
    substituteAll e i (ws.map literalWord) = pure (ws.map String.ofList) := by
  induction ws with
  | nil => rfl
  | cons w ws ih =>
    have hword : substitute e i (literalWord w) = pure (String.ofList w) := by
      simp [substitute, literalWord, substituteFrom]
    rw [List.map_cons, substituteAll, hword, ih]
    simp

/-- Looking twice whether an interpreter is live is looking once. -/
theorem checkLive_bind_checkLive {α : Type} (i : InterpId) (code : Exec α) :
    (checkLive i >>= fun _ => checkLive i >>= fun _ => code) = checkLive i >>= fun _ => code := by
  have hrun {β : Type} (next : Exec β) (w : World) : (checkLive i >>= fun _ => next) w =
      if (w.interp i).deleted then
        .ok (.error (.error "attempt to call eval in deleted interpreter")) w
      else next w := by
    have h : (checkLive i >>= fun _ => next) w =
        ((if (w.interp i).deleted = true then
          Exec.fail "attempt to call eval in deleted interpreter" else pure () : Exec Unit) >>=
            fun _ => next) w := rfl
    rw [h]
    split <;> rfl
  funext w
  rw [hrun, hrun]
  split <;> rfl

theorem toList_merge (ws : List String) : (merge ws).toList = line (ws.map String.toList) := by
  simp [merge, line, String.toList_intercalate, quote, Function.comp_def]

theorem toList_lines (commands : List (List String)) :
    ("\n".intercalate (commands.map merge)).toList =
      lines (commands.map (·.map String.toList)) := by
  simp [lines, String.toList_intercalate, toList_merge, Function.comp_def]

theorem parse_merge {ws : List String} (hne : ws ≠ [])
    (h : staysLiteral (ws.map String.toList) = true) :
    parse (merge ws) = .ok [ws.map fun w => literalWord w.toList] := by
  have := statements_line (by simpa using hne) h .nothing
  rw [List.append_nil] at this
  rw [parse, toList_merge, this]
  simp [statements, Except.map, Function.comp_def]

theorem evalScript_merge (e : Engine) (i : InterpId) {ws : List String} (hne : ws ≠ [])
    (h : staysLiteral (ws.map String.toList) = true) :
    evalScript e i (merge ws) = invokeWords e i ws := by
  obtain ⟨name, args, rfl⟩ := List.exists_cons_of_ne_nil hne
  rw [evalScript, parse_merge hne h]
  have hwords := substituteAll_literalWord e i ((name :: args).map String.toList)
  rw [List.map_map] at hwords
  simp only [Function.comp_def] at hwords
  simp only [runStatements, hwords, invokeWords, pure_bind, bind_pure, List.map_map]
  simp only [Function.comp_def, String.ofList_toList, List.map_id']
  exact checkLive_bind_checkLive i _

/-- A written script and the words it was written from are the same to every engine. -/
theorem runWithin_merge (fuel : Nat) (i : InterpId) {ws : List String} (hne : ws ≠ [])
    (h : staysLiteral (ws.map String.toList) = true) :
    runWithin fuel (.script i (merge ws)) = runWithin fuel (.words i ws) := by
  cases fuel with
  | zero => rfl
  | succ fuel => exact congrArg ExceptT.run (evalScript_merge _ i hne h)

/-- The words of a command stay what they are when the command is written out and read as a script:
the list keeps each of them, and the first one is in braces or begins with no white space other than
the blanks of lists. -/
def StaysLiteral (ws : List String) : Prop :=
  (∀ w ∈ ws, balanced w.toList = true ∨ ∀ c ∈ w.toList, c ≠ '\x0b' ∧ c ≠ '\x0c') ∧
    ∀ w ∈ ws.head?, (needsQuoting w.toList = true ∧ balanced w.toList = true) ∨
      ∀ c ∈ w.toList.head?, isBlank c = true → isSpace c = true

theorem staysLiteral_iff (ws : List String) :
    staysLiteral (ws.map String.toList) = true ↔ StaysLiteral ws := by
  have hkept (w : String) : isKept w.toList = true ↔
      (balanced w.toList = true ∨ ∀ c ∈ w.toList, c ≠ '\x0b' ∧ c ≠ '\x0c') := by
    simp [isKept, isLoose]
  have hbegins (w : String) : beginsCommand w.toList = true ↔
      ((needsQuoting w.toList = true ∧ balanced w.toList = true) ∨
        ∀ c ∈ w.toList.head?, isBlank c = true → isSpace c = true) := by
    simp only [beginsCommand, isBraced, isWide, Bool.or_eq_true, Bool.and_eq_true,
      Option.all_eq_true]
    simp [imp_iff_not_or]
  have hhead : (ws.map String.toList).head?.all beginsCommand = true ↔
      ∀ w ∈ ws.head?, beginsCommand w.toList = true := by
    cases ws <;> simp
  simp only [staysLiteral, StaysLiteral, Bool.and_eq_true, hhead, hbegins, List.all_eq_true,
    List.forall_mem_map, hkept]

/-- Lines of written commands are read as these commands, each word literally, exactly if every
command stays literal. Evaluating a written command that does is invoking it. -/
theorem parse_lines_iff_and_eval_eq_invoke {commands : List (List String)}
    (hne : ∀ ws ∈ commands, ws ≠ []) :
    ((∃ ss, parse ("\n".intercalate (commands.map merge)) = .ok ss ∧
        ss.map (·.map literal?) = commands.map (·.map some)) ↔
      ∀ ws ∈ commands, StaysLiteral ws) ∧
    ∀ ws ∈ commands, StaysLiteral ws → ∀ i,
      evalFrom engine i (merge ws) = invokeFrom engine i ws := by
  constructor
  · have hchars := @statements_lines_iff (commands.map (·.map String.toList)) (by simpa using hne)
    simp only [AreLiteral, List.map_map, Function.comp_def, String.ofList_toList, List.mem_map,
      forall_exists_index, and_imp, forall_apply_eq_imp_iff₂, staysLiteral_iff] at hchars
    rw [parse, toList_lines]
    exact hchars
  · intro ws hws h i
    have hrun := runWithin_merge ampleFuel i (hne ws hws) ((staysLiteral_iff ws).2 h)
    exact congrArg (· >>= finish i) hrun

/-- Two commands with an empty word, a comment sign, a substitution and a newline in their words. -/
theorem literal_lines_example :
    (∀ ws ∈ [["puts", "", "a b"], ["#x", "$y[z]", "\n;"]], ws ≠ []) ∧
      (∃ ss, parse ("\n".intercalate ([["puts", "", "a b"], ["#x", "$y[z]", "\n;"]].map merge)) =
          .ok ss ∧
        ss.map (·.map literal?) = [["puts", "", "a b"], ["#x", "$y[z]", "\n;"]].map (·.map some)) :=
  have hne : ∀ ws ∈ [["puts", "", "a b"], ["#x", "$y[z]", "\n;"]], ws ≠ [] := by simp
  ⟨hne, (parse_lines_iff_and_eval_eq_invoke hne).1.2 fun ws hws =>
    (staysLiteral_iff ws).1 (by
      revert ws
      decide +kernel)⟩

/-- A vertical tab is lost behind a closing brace, and white space that lists do not know is lost
where a command begins. -/
theorem parse_merge_ne_literal :
    (¬∃ ss, parse (merge ["list", "\x7d\x0b"]) = .ok ss ∧
        ss.map (·.map literal?) = [[some "list", some "\x7d\x0b"]]) ∧
      ¬∃ ss, parse (merge ["\u00a0x"]) = .ok ss ∧ ss.map (·.map literal?) = [[some "\u00a0x"]] := by
  have htab : parse (merge ["list", "\x7d\x0b"]) = .ok [[[.text "list"], [.text "\x7d"]]] := by
    decide +kernel
  have hspace : parse (merge ["\u00a0x"]) = .ok [[[.text "x"]]] := by decide +kernel
  rw [htab, hspace]
  constructor
  · rintro ⟨ss, hss, hwords⟩
    cases hss
    revert hwords
    decide +kernel
  · rintro ⟨ss, hss, hwords⟩
    cases hss
    revert hwords
    decide +kernel

end ScriptHost.Script
