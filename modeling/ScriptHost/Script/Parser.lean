import ScriptHost.Script
import ScriptHost.Text.Escape
import ScriptHost.Text.Letter

/-!
# Reading scripts

Every reader takes the characters that are left and returns what it read and what is left then.
The `length` lemmas say that the readers make progress, which is why `statements` ends.
-/

namespace ScriptHost.Script

open Text

/-- A reader of something of type `α`. -/
abbrev Reader (α : Type) := List Char → Except SyntaxError (α × List Char)

/-- The blanks that separate words of one statement. -/
def isInlineBlank (c : Char) : Bool :=
  c = ' ' || c = '\t' || c = '\r' || c = '\x0b' || c = '\x0c'

/-! ### Braces, brackets and names -/

/-- The text up to the brace that closes `depth` open ones, and what follows that brace. A
backslash hides the next character from the count. -/
def closeBrace : Nat → List Char → Option (List Char × List Char)
  | _, [] => none
  | depth, c :: rest =>
    if c = '\\' then
      match rest with
      | [] => none
      | d :: rest => (closeBrace depth rest).map fun (text, rest) => (c :: d :: text, rest)
    else if c = '}' ∧ depth ≤ 1 then some ([], rest)
    else
      let depth := if c = '{' then depth + 1 else if c = '}' then depth - 1 else depth
      (closeBrace depth rest).map fun (text, rest) => (c :: text, rest)

/-- The text in braces, the opening one being read already. -/
def braced : Reader String := fun cs =>
  match closeBrace 1 cs with
  | none => .error .missingBrace
  | some (text, rest) => .ok (String.ofList text, rest)

/-- The text up to the bracket that closes `depth` open ones. A backslash hides the next
character, and brackets inside `braces` open braces do not count. -/
def closeBracket : Nat → Nat → List Char → Option (List Char × List Char)
  | _, _, [] => none
  | depth, braces, c :: rest =>
    if c = '\\' then
      match rest with
      | [] => none
      | d :: rest =>
        (closeBracket depth braces rest).map fun (text, rest) => (c :: d :: text, rest)
    else if c = ']' ∧ braces = 0 ∧ depth ≤ 1 then some ([], rest)
    else
      let depth :=
        if braces ≠ 0 then depth
        else if c = '[' then depth + 1 else if c = ']' then depth - 1 else depth
      let braces := if c = '{' then braces + 1 else if c = '}' then braces - 1 else braces
      (closeBracket depth braces rest).map fun (text, rest) => (c :: text, rest)

/-- The script in brackets, the opening one being read already. -/
def bracketed : Reader String := fun cs =>
  match closeBracket 1 0 cs with
  | none => .error .missingBracket
  | some (text, rest) => .ok (String.ofList text, rest)

/-- The longest run of letters, numerals, underscores and double colons. -/
def nameRun : List Char → List Char × List Char
  | [] => ([], [])
  | c :: rest =>
    if isLetterOrNumeral c || c = '_' then
      let run := nameRun rest
      (c :: run.1, run.2)
    else if c = ':' then
      match rest with
      | ':' :: rest =>
        let run := nameRun rest
        (':' :: ':' :: run.1, run.2)
      | rest => ([], c :: rest)
    else ([], c :: rest)

/-- The variable name after a dollar sign, if there is one. A name in braces may be empty. -/
def variableName : Reader (Option String)
  | '{' :: rest =>
    match rest.dropWhile (· ≠ '}') with
    | [] => .error .missingNameBrace
    | _ :: after => .ok (some (String.ofList (rest.takeWhile (· ≠ '}'))), after)
  | cs =>
    match nameRun cs with
    | ([], _) => .ok (none, cs)
    | (name, rest) => .ok (some (String.ofList name), rest)

theorem length_closeBrace_lt {depth : Nat} {cs text rest : List Char}
    (h : closeBrace depth cs = some (text, rest)) : rest.length < cs.length := by
  fun_induction closeBrace depth cs generalizing text rest with
  | case1 | case2 => simp at h
  | case3 _ _ _ ih =>
    obtain ⟨⟨_, rest⟩, hw, he⟩ := Option.map_eq_some_iff.1 h
    cases he
    have := ih hw
    simp only [List.length_cons]
    omega
  | case4 => simp_all
  | case5 =>
    rename_i ih
    obtain ⟨⟨_, rest⟩, hw, he⟩ := Option.map_eq_some_iff.1 h
    cases he
    have := ih hw
    simp only [List.length_cons]
    omega

theorem length_braced_lt {cs rest : List Char} {text : String}
    (h : braced cs = .ok (text, rest)) : rest.length < cs.length := by
  unfold braced at h
  split at h
  · simp at h
  · next hc =>
    cases h
    exact length_closeBrace_lt hc

theorem length_closeBracket_lt {depth braces : Nat} {cs text rest : List Char}
    (h : closeBracket depth braces cs = some (text, rest)) : rest.length < cs.length := by
  fun_induction closeBracket depth braces cs generalizing text rest with
  | case1 | case2 => simp at h
  | case3 _ _ _ _ ih =>
    obtain ⟨⟨_, rest⟩, hw, he⟩ := Option.map_eq_some_iff.1 h
    cases he
    have := ih hw
    simp only [List.length_cons]
    omega
  | case4 => simp_all
  | case5 =>
    rename_i ih
    obtain ⟨⟨_, rest⟩, hw, he⟩ := Option.map_eq_some_iff.1 h
    cases he
    have := ih hw
    simp only [List.length_cons]
    omega

theorem length_bracketed_lt {cs rest : List Char} {text : String}
    (h : bracketed cs = .ok (text, rest)) : rest.length < cs.length := by
  unfold bracketed at h
  split at h
  · simp at h
  · next hc =>
    cases h
    exact length_closeBracket_lt hc

theorem length_nameRun_le (cs : List Char) : (nameRun cs).2.length ≤ cs.length := by
  fun_induction nameRun cs with
  | case1 => simp
  | case2 _ _ _ _ ih => exact Nat.le_succ_of_le ih
  | case3 =>
    rename_i ih
    exact Nat.le_succ_of_le (Nat.le_succ_of_le ih)
  | case4 => simp
  | case5 => simp

theorem length_variableName_le {cs rest : List Char} {name : Option String}
    (h : variableName cs = .ok (name, rest)) : rest.length ≤ cs.length := by
  unfold variableName at h
  split at h
  · next cs' =>
    have := length_dropWhile_le (fun c : Char => decide (c ≠ '}')) cs'
    split at h
    · simp at h
    · next hd =>
      cases h
      rw [hd] at this
      simp only [List.length_cons] at this ⊢
      omega
  · split at h
    · cases h; exact Nat.le_refl _
    · next hn =>
      cases h
      have := length_nameRun_le cs
      rw [hn] at this
      exact this

/-! ### Words -/

/-- Where the pieces of a word end: at a blank or at the end of the statement, at a quote, or only
at the end of the text. -/
inductive Stop
  | word
  | quote
  | finish
deriving DecidableEq, Repr

/-- A part of a word with its literal text still in single characters. -/
inductive Piece
  | char (c : Char)
  | variable (name : String)
  | script (source : String)
deriving DecidableEq, Repr

/-- Put something in front of what a reader read. -/
def prepend {α : Type} (a : α) :
    Except SyntaxError (List α × List Char) → Except SyntaxError (List α × List Char)
  | .ok (as, rest) => .ok (a :: as, rest)
  | .error e => .error e

/-- Whether a bare word ends before these characters. -/
def endsWord : List Char → Bool
  | [] => true
  | '\\' :: '\n' :: _ => true
  | c :: _ => isInlineBlank c || c = '\n' || c = ';'

/-- The pieces up to a stop, which is read if it is a quote. -/
def pieces (stop : Stop) : Reader (List Piece)
  | [] => if stop = .quote then .error .missingQuote else .ok ([], [])
  | c :: rest =>
    if stop = .quote ∧ c = '"' then .ok ([], rest)
    else if stop = .word ∧ endsWord (c :: rest) then .ok ([], c :: rest)
    else if c = '\\' then
      prepend (.char (decodeEscape rest).1) (pieces stop (decodeEscape rest).2)
    else if c = '$' then
      match _h : variableName rest with
      | .error e => .error e
      | .ok (some name, rest) => prepend (.variable name) (pieces stop rest)
      | .ok (none, rest) => prepend (.char '$') (pieces stop rest)
    else if c = '[' then
      match _h : bracketed rest with
      | .error e => .error e
      | .ok (source, rest) => prepend (.script source) (pieces stop rest)
    else prepend (.char c) (pieces stop rest)
termination_by cs => cs.length
decreasing_by
  · exact Nat.lt_succ_of_le (length_decodeEscape_le _)
  · exact Nat.lt_succ_of_le (length_variableName_le _h)
  · exact Nat.lt_succ_of_le (length_variableName_le _h)
  · exact Nat.lt_succ_of_lt (length_bracketed_lt _h)
  · simp

/-- The literal characters that a list of pieces begins with, and the other pieces. -/
def leadingText : List Piece → List Char × List Piece
  | .char c :: rest =>
    let (text, rest) := leadingText rest
    (c :: text, rest)
  | rest => ([], rest)

theorem length_leadingText_le (ps : List Piece) : (leadingText ps).2.length ≤ ps.length := by
  fun_induction leadingText ps with
  | case1 _ _ _ _ h ih => simp only [h, List.length_cons] at ih ⊢; omega
  | case2 => simp

/-- The parts that the pieces make up, neighbouring characters joined. -/
def joinPieces : List Piece → List Part
  | [] => []
  | .variable name :: rest => .variable name :: joinPieces rest
  | .script source :: rest => .script source :: joinPieces rest
  | .char c :: rest =>
    .text (String.ofList (c :: (leadingText rest).1)) :: joinPieces (leadingText rest).2
termination_by ps => ps.length
decreasing_by
  · simp
  · simp
  · exact Nat.lt_succ_of_le (length_leadingText_le _)

/-- The parts up to a stop. -/
def parts (stop : Stop) : Reader Word := fun cs =>
  (pieces stop cs).map fun (ps, rest) => (joinPieces ps, rest)

/-- The word that a text begins with. -/
def word : Reader Word
  | '{' :: rest =>
    match braced rest with
    | .error e => .error e
    | .ok (text, rest) =>
      if endsWord rest then .ok ([.text text], rest) else .error .afterBrace
  | '"' :: rest =>
    match parts .quote rest with
    | .error e => .error e
    | .ok (ps, rest) => if endsWord rest then .ok (ps, rest) else .error .afterQuote
  | cs => parts .word cs

theorem prepend_eq_ok {α : Type} {a : α} {r : Except SyntaxError (List α × List Char)}
    {as : List α} {rest : List Char} :
    prepend a r = .ok (as, rest) ↔ ∃ as', r = .ok (as', rest) ∧ as = a :: as' := by
  unfold prepend
  split
  · next as' rest' =>
    constructor
    · intro h
      cases h
      exact ⟨as', rfl, rfl⟩
    · rintro ⟨_, h, rfl⟩
      cases h
      rfl
  · simp

theorem length_pieces_le {stop : Stop} {cs rest : List Char} {ps : List Piece}
    (h : pieces stop cs = .ok (ps, rest)) : rest.length ≤ cs.length := by
  fun_induction pieces stop cs generalizing ps rest with
  | case1 | case6 | case9 => simp at h
  | case2 => cases h; simp
  | case3 => cases h; simp
  | case4 => cases h; simp
  | case5 =>
    rename_i ih
    obtain ⟨_, hp, _⟩ := prepend_eq_ok.1 h
    exact Nat.le_succ_of_le (Nat.le_trans (ih hp) (length_decodeEscape_le _))
  | case7 | case8 =>
    rename_i ih
    obtain ⟨_, hp, _⟩ := prepend_eq_ok.1 h
    exact Nat.le_succ_of_le
      (Nat.le_trans (ih hp) (length_variableName_le ‹variableName _ = .ok _›))
  | case10 =>
    rename_i ih
    obtain ⟨_, hp, _⟩ := prepend_eq_ok.1 h
    exact Nat.le_succ_of_le
      (Nat.le_trans (ih hp) (Nat.le_of_lt (length_bracketed_lt ‹bracketed _ = .ok _›)))
  | case11 =>
    rename_i ih
    obtain ⟨_, hp, _⟩ := prepend_eq_ok.1 h
    exact Nat.le_succ_of_le (ih hp)

theorem length_pieces_lt {c : Char} {cs rest : List Char} {ps : List Piece}
    (hc : endsWord (c :: cs) = false) (h : pieces .word (c :: cs) = .ok (ps, rest)) :
    rest.length < (c :: cs).length := by
  rw [pieces] at h
  simp only [reduceCtorEq, false_and, if_false, hc, Bool.false_eq_true, and_false] at h
  refine Nat.lt_succ_of_le ?_
  split at h
  · obtain ⟨_, hp, _⟩ := prepend_eq_ok.1 h
    exact Nat.le_trans (length_pieces_le hp) (length_decodeEscape_le _)
  · split at h
    · split at h
      · simp at h
      · obtain ⟨_, hp, _⟩ := prepend_eq_ok.1 h
        exact Nat.le_trans (length_pieces_le hp) (length_variableName_le ‹_›)
      · obtain ⟨_, hp, _⟩ := prepend_eq_ok.1 h
        exact Nat.le_trans (length_pieces_le hp) (length_variableName_le ‹_›)
    · split at h
      · split at h
        · simp at h
        · obtain ⟨_, hp, _⟩ := prepend_eq_ok.1 h
          exact Nat.le_trans (length_pieces_le hp) (Nat.le_of_lt (length_bracketed_lt ‹_›))
      · obtain ⟨_, hp, _⟩ := prepend_eq_ok.1 h
        exact length_pieces_le hp

theorem pieces_of_parts {stop : Stop} {cs rest : List Char} {w : Word}
    (h : parts stop cs = .ok (w, rest)) : ∃ ps, pieces stop cs = .ok (ps, rest) := by
  obtain ⟨⟨ps, _⟩, hp, heq⟩ := map_eq_ok_iff.1 h
  cases heq
  exact ⟨ps, hp⟩

/-- A word that is read where one may begin takes at least one character. -/
theorem length_word_lt {c : Char} {cs rest : List Char} {w : Word}
    (hc : endsWord (c :: cs) = false) (h : word (c :: cs) = .ok (w, rest)) :
    rest.length < (c :: cs).length := by
  unfold word at h
  split at h
  · next hcs =>
    cases hcs
    split at h
    · simp at h
    · next hb =>
      split at h
      · cases h
        exact Nat.lt_succ_of_lt (length_braced_lt hb)
      · simp at h
  · next hcs =>
    cases hcs
    split at h
    · simp at h
    · next hq =>
      split at h
      · cases h
        obtain ⟨_, hp⟩ := pieces_of_parts hq
        exact Nat.lt_succ_of_le (length_pieces_le hp)
      · simp at h
  · obtain ⟨_, hp⟩ := pieces_of_parts h
    exact length_pieces_lt hc hp

/-! ### Statements -/

/-- What follows the blanks between two words; a backslash with a newline is such a blank. -/
def skipInline : List Char → List Char
  | [] => []
  | c :: rest =>
    if isInlineBlank c then skipInline rest
    else if c = '\\' then
      match rest with
      | '\n' :: rest => skipInline rest
      | rest => c :: rest
    else c :: rest

/-- What follows a comment, which ends at the first newline that no backslash hides. -/
def skipComment : List Char → List Char
  | [] => []
  | c :: rest =>
    if c = '\n' then rest
    else if c = '\\' then
      match rest with
      | [] => []
      | _ :: rest => skipComment rest
    else skipComment rest

theorem length_skipInline_le (cs : List Char) : (skipInline cs).length ≤ cs.length := by
  fun_induction skipInline cs with
  | case1 => simp
  | case2 _ _ _ ih => exact Nat.le_succ_of_le ih
  | case3 => rename_i ih; exact Nat.le_succ_of_le (Nat.le_succ_of_le ih)
  | case4 => simp
  | case5 => simp

theorem length_skipComment_le (cs : List Char) : (skipComment cs).length ≤ cs.length := by
  fun_induction skipComment cs with
  | case1 => simp
  | case2 => simp
  | case3 => simp
  | case4 => rename_i ih; exact Nat.le_succ_of_le (Nat.le_succ_of_le ih)
  | case5 => rename_i ih; exact Nat.le_succ_of_le ih

theorem skipInline_cons {c : Char} {cs rest : List Char} (h : skipInline cs = c :: rest) :
    c = '\n' ∨ c = ';' ∨ endsWord (c :: rest) = false := by
  fun_induction skipInline cs with
  | case1 => simp at h
  | case2 => simp_all
  | case3 => simp_all
  | case4 rest' hb hnl =>
    cases h
    right; right
    unfold endsWord
    split
    · simp_all
    · next hcs => cases hcs; exact (hb _ rfl).elim
    · next hcs => cases hcs; simp_all
  | case5 c' rest' hb hs =>
    cases h
    by_cases h₁ : c = '\n'
    · exact .inl h₁
    by_cases h₂ : c = ';'
    · exact .inr (.inl h₂)
    right; right
    unfold endsWord
    split
    · simp_all
    · next hcs => cases hcs; simp at hs
    · next hcs => cases hcs; simp_all

/-- The words up to the end of a statement, which is read. -/
def statement (cs : List Char) : Except SyntaxError (Statement × List Char) :=
  match _hcs : skipInline cs with
  | [] => .ok ([], [])
  | c :: rest =>
    if _hc : c = '\n' ∨ c = ';' then .ok ([], rest)
    else
      match _hw : word (c :: rest) with
      | .error e => .error e
      | .ok (w, rest) => prepend w (statement rest)
termination_by cs.length
decreasing_by
  have hend := (or_assoc.2 (skipInline_cons _hcs)).resolve_left _hc
  have hlt := length_word_lt hend _hw
  have hle := length_skipInline_le cs
  rw [_hcs] at hle
  omega

theorem length_statement_le {cs rest : List Char} {ws : Statement}
    (h : statement cs = .ok (ws, rest)) : rest.length ≤ cs.length := by
  fun_induction statement cs generalizing ws rest with
  | case1 => cases h; simp
  | case2 cs c rest' hcs hc =>
    cases h
    have := length_skipInline_le cs
    rw [hcs] at this
    exact Nat.le_trans (Nat.le_succ _) this
  | case3 => simp at h
  | case4 cs c rest' hcs hc w rest'' hw ih =>
    obtain ⟨_, hs, _⟩ := prepend_eq_ok.1 h
    have hlt := length_word_lt ((or_assoc.2 (skipInline_cons hcs)).resolve_left hc) hw
    have hle := length_skipInline_le cs
    rw [hcs] at hle
    have := ih hs
    omega

/-- A statement that is read before the end of the text takes at least one character. -/
theorem length_statement_lt {c : Char} {cs rest : List Char} {ws : Statement}
    (h : statement (c :: cs) = .ok (ws, rest)) : rest.length < (c :: cs).length := by
  rw [statement] at h
  have hle := length_skipInline_le (c :: cs)
  split at h
  · cases h; simp
  · next hcs =>
    rw [hcs] at hle
    split at h
    · cases h
      simp only [List.length_cons] at hle ⊢
      omega
    · next hc =>
      split at h
      · simp at h
      · next hw =>
        obtain ⟨_, hs, _⟩ := prepend_eq_ok.1 h
        have hlt := length_word_lt ((or_assoc.2 (skipInline_cons hcs)).resolve_left hc) hw
        have := length_statement_le hs
        omega

/-- White space and semicolons between statements. -/
def isSeparator (c : Char) : Bool :=
  isBlank c || c = ';'

/-- Put a statement in front of others unless it has no words. -/
def addStatement (s : Statement) (rest : List Statement) : List Statement :=
  if s.isEmpty then rest else s :: rest

/-- The statements of a script. -/
def statements (cs : List Char) : Except SyntaxError (List Statement) :=
  match _hcs : cs.dropWhile isSeparator with
  | [] => .ok []
  | c :: rest =>
    if c = '#' then statements (skipComment rest)
    else
      match _hs : statement (c :: rest) with
      | .error e => .error e
      | .ok (s, rest) => (statements rest).map (addStatement s)
termination_by cs.length
decreasing_by
  · have hle := length_dropWhile_le isSeparator cs
    have := length_skipComment_le rest
    rw [_hcs] at hle
    simp only [List.length_cons] at hle
    omega
  · have hle := length_dropWhile_le isSeparator cs
    have := length_statement_lt _hs
    rw [_hcs] at hle
    omega

/-- The statements that a text consists of. -/
def parse (source : String) : Except SyntaxError (List Statement) :=
  statements source.toList

/-- The parts of a text that is one word to its end. -/
def template (text : String) : Except SyntaxError Word :=
  (parts .finish text.toList).map (·.1)

end ScriptHost.Script
