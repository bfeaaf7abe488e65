import Mathlib.Data.List.Infix
import Mathlib.Data.List.TakeWhile
import ScriptHost.Script.Parser
import ScriptHost.WordList

/-!
# Reading scripts step by step

How the readers go on after one character, and what they leave: the end of the text that they were
given. The readers of braces and brackets also say what they took, the text that they answer and
the sign that closes it.
-/

namespace ScriptHost.Script

open Text WordList

/-! ### Braces, brackets and names -/

theorem closeBrace_backslash (depth : Nat) (c : Char) (cs : List Char) :
    closeBrace depth ('\\' :: c :: cs) =
      (closeBrace depth cs).map fun (text, rest) => ('\\' :: c :: text, rest) := by
  rw [closeBrace.eq_def]
  simp

theorem closeBrace_cons {c : Char} (hc : c ≠ '\\') (depth : Nat) (cs : List Char) :
    closeBrace depth (c :: cs) =
      if c = '}' ∧ depth ≤ 1 then some ([], cs)
      else
        (closeBrace (if c = '{' then depth + 1 else if c = '}' then depth - 1 else depth) cs).map
          fun (text, rest) => (c :: text, rest) := by
  rw [closeBrace.eq_def]
  simp [hc]

theorem closeBracket_backslash (depth braces : Nat) (c : Char) (cs : List Char) :
    closeBracket depth braces ('\\' :: c :: cs) =
      (closeBracket depth braces cs).map fun (text, rest) => ('\\' :: c :: text, rest) := by
  rw [closeBracket.eq_def]
  simp

theorem closeBracket_cons {c : Char} (hc : c ≠ '\\') (depth braces : Nat) (cs : List Char) :
    closeBracket depth braces (c :: cs) =
      if c = ']' ∧ braces = 0 ∧ depth ≤ 1 then some ([], cs)
      else
        (closeBracket
          (if braces ≠ 0 then depth
            else if c = '[' then depth + 1 else if c = ']' then depth - 1 else depth)
          (if c = '{' then braces + 1 else if c = '}' then braces - 1 else braces) cs).map
          fun (text, rest) => (c :: text, rest) := by
  rw [closeBracket.eq_def]
  simp [hc]

theorem eq_append_of_closeBrace {depth : Nat} {cs text rest : List Char}
    (h : closeBrace depth cs = some (text, rest)) : cs = text ++ '}' :: rest := by
  fun_induction closeBrace depth cs generalizing text rest with
  | case1 | case2 => simp at h
  | case4 _ _ _ _ hclose =>
    cases h
    rw [hclose.1]
    rfl
  | case3 | case5 =>
    rename_i ih
    obtain ⟨⟨_, _⟩, hw, he⟩ := Option.map_eq_some_iff.1 h
    cases he
    rw [ih hw]
    rfl

theorem eq_append_of_closeBracket {depth braces : Nat} {cs text rest : List Char}
    (h : closeBracket depth braces cs = some (text, rest)) : cs = text ++ ']' :: rest := by
  fun_induction closeBracket depth braces cs generalizing text rest with
  | case1 | case2 => simp at h
  | case4 _ _ _ _ _ hclose =>
    cases h
    rw [hclose.1]
    rfl
  | case3 | case5 =>
    rename_i ih
    obtain ⟨⟨_, _⟩, hw, he⟩ := Option.map_eq_some_iff.1 h
    cases he
    rw [ih hw]
    rfl

theorem braced_eq_ok_iff {cs rest : List Char} {text : String} :
    braced cs = .ok (text, rest) ↔ closeBrace 1 cs = some (text.toList, rest) := by
  unfold braced
  split
  · next hc => simp [hc]
  · next hc => simp [hc, ← String.toList_inj]

theorem bracketed_eq_ok_iff {cs rest : List Char} {source : String} :
    bracketed cs = .ok (source, rest) ↔ closeBracket 1 0 cs = some (source.toList, rest) := by
  unfold bracketed
  split
  · next hc => simp [hc]
  · next hc => simp [hc, ← String.toList_inj]

theorem suffix_of_braced {cs rest : List Char} {text : String} (h : braced cs = .ok (text, rest)) :
    rest <:+ cs := by
  rw [eq_append_of_closeBrace (braced_eq_ok_iff.1 h)]
  exact (List.suffix_cons _ rest).trans (List.suffix_append _ _)

theorem suffix_of_bracketed {cs rest : List Char} {source : String}
    (h : bracketed cs = .ok (source, rest)) : rest <:+ cs := by
  rw [eq_append_of_closeBracket (bracketed_eq_ok_iff.1 h)]
  exact (List.suffix_cons _ rest).trans (List.suffix_append _ _)

theorem nameRun_cons {c : Char} (hname : (isLetterOrNumeral c || c = '_') = true) (cs : List Char) :
    nameRun (c :: cs) = (c :: (nameRun cs).1, (nameRun cs).2) := by
  rw [nameRun.eq_def]
  simp only [hname, if_true]

theorem nameRun_colons (cs : List Char) :
    nameRun (':' :: ':' :: cs) = (':' :: ':' :: (nameRun cs).1, (nameRun cs).2) := by
  have hcolon : isLetterOrNumeral ':' = false := by decide
  rw [nameRun.eq_def]
  simp [hcolon]

/-- A name ends before anything else, a single colon included. -/
theorem nameRun_of_stops {c : Char} {cs : List Char}
    (hname : ¬(isLetterOrNumeral c || c = '_') = true)
    (hcolons : ∀ ds, c :: cs ≠ ':' :: ':' :: ds) : nameRun (c :: cs) = ([], c :: cs) := by
  rw [nameRun.eq_def]
  dsimp only
  rw [if_neg hname]
  split_ifs with hcolon
  · split
    · next ds => exact absurd (by rw [hcolon]) (hcolons ds)
    · rfl
  · rfl

theorem nameRun_append (cs : List Char) : (nameRun cs).1 ++ (nameRun cs).2 = cs := by
  fun_induction nameRun cs with
  | case1 | case4 | case5 => rfl
  | case2 _ _ _ run ih => simp [run, ih]
  | case3 =>
    rename_i run _ ih
    simp [run, ih]

/-- A name in braces goes up to the first closing brace. -/
theorem variableName_brace_eq_ok_iff {cs rest : List Char} {name : Option String} :
    variableName ('{' :: cs) = .ok (name, rest) ↔
      ∃ text, cs = text ++ '}' :: rest ∧ '}' ∉ text ∧ name = some (String.ofList text) := by
  simp only [variableName]
  constructor
  · intro h
    have hsplit := List.takeWhile_append_dropWhile (p := fun c => decide (c ≠ '}')) (l := cs)
    have hhead := head?_dropWhile (fun c => decide (c ≠ '}')) cs
    split at h
    · simp at h
    · next d ds hdrop =>
      cases h
      rw [hdrop] at hsplit hhead
      obtain rfl : d = '}' := by simpa using hhead d rfl
      refine ⟨_, hsplit.symm, fun hmem => ?_, rfl⟩
      simpa using List.mem_takeWhile_imp hmem
  · rintro ⟨text, rfl, htext, rfl⟩
    have hall : ∀ c ∈ text, decide (c ≠ '}') = true := by
      intro c hc
      simp only [decide_eq_true_eq]
      rintro rfl
      exact htext hc
    rw [List.dropWhile_append_of_pos hall, List.takeWhile_append_of_pos hall]
    simp

/-- A name without braces is the longest run that can be one. -/
theorem variableName_eq {cs : List Char} (hbrace : cs.head? ≠ some '{') :
    variableName cs =
      .ok (if (nameRun cs).1 = [] then (none, cs)
        else (some (String.ofList (nameRun cs).1), (nameRun cs).2)) := by
  unfold variableName
  split
  · exact absurd rfl hbrace
  · split
    · next hrun => simp [hrun]
    · next hne hrun =>
      rw [hrun, if_neg hne]

theorem suffix_of_variableName {cs rest : List Char} {name : Option String}
    (h : variableName cs = .ok (name, rest)) : rest <:+ cs := by
  by_cases hbrace : cs.head? = some '{'
  · obtain ⟨body, rfl⟩ := List.head?_eq_some_iff.1 hbrace
    obtain ⟨text, rfl, -⟩ := variableName_brace_eq_ok_iff.1 h
    exact ⟨'{' :: (text ++ ['}']), by simp⟩
  · rw [variableName_eq hbrace] at h
    split at h
    · cases h
      exact List.suffix_refl _
    · cases h
      exact ⟨_, nameRun_append cs⟩

/-! ### Words -/

theorem suffix_decodeEscape (cs : List Char) : (decodeEscape cs).2 <:+ cs := by
  unfold decodeEscape
  split
  · exact List.suffix_refl _
  · exact (List.dropWhile_suffix _).trans (List.suffix_cons _ _)
  · exact List.suffix_cons _ _

/-- Whether no piece begins before these characters. -/
def Stop.Ends (stop : Stop) (c : Char) (cs : List Char) : Prop :=
  (stop = .quote ∧ c = '"') ∨ (stop = .word ∧ endsWord (c :: cs) = true)

/-- How pieces are read, one after the other. -/
inductive ReadsPieces (stop : Stop) : List Char → List Piece → List Char → Prop
  | finish (hstop : stop ≠ .quote) : ReadsPieces stop [] [] []
  | quote {cs : List Char} (hstop : stop = .quote) : ReadsPieces stop ('"' :: cs) [] cs
  | word {c : Char} {cs : List Char} (hstop : stop = .word) (hend : endsWord (c :: cs) = true) :
      ReadsPieces stop (c :: cs) [] (c :: cs)
  | escape {cs rest : List Char} {ps : List Piece} (hgoes : ¬stop.Ends '\\' cs)
      (h : ReadsPieces stop (decodeEscape cs).2 ps rest) :
      ReadsPieces stop ('\\' :: cs) (.char (decodeEscape cs).1 :: ps) rest
  | named {cs more rest : List Char} {ps : List Piece} {name : String}
      (hgoes : ¬stop.Ends '$' cs) (hname : variableName cs = .ok (some name, more))
      (h : ReadsPieces stop more ps rest) : ReadsPieces stop ('$' :: cs) (.variable name :: ps) rest
  | dollar {cs more rest : List Char} {ps : List Piece} (hgoes : ¬stop.Ends '$' cs)
      (hname : variableName cs = .ok (none, more)) (h : ReadsPieces stop more ps rest) :
      ReadsPieces stop ('$' :: cs) (.char '$' :: ps) rest
  | script {cs more rest : List Char} {ps : List Piece} {source : String}
      (hgoes : ¬stop.Ends '[' cs) (hscript : bracketed cs = .ok (source, more))
      (h : ReadsPieces stop more ps rest) : ReadsPieces stop ('[' :: cs) (.script source :: ps) rest
  | char {c : Char} {cs rest : List Char} {ps : List Piece} (hgoes : ¬stop.Ends c cs)
      (hslash : c ≠ '\\') (hdollar : c ≠ '$') (hbracket : c ≠ '[')
      (h : ReadsPieces stop cs ps rest) : ReadsPieces stop (c :: cs) (.char c :: ps) rest

theorem readsPieces_of_pieces {stop : Stop} {cs rest : List Char} {ps : List Piece}
    (h : pieces stop cs = .ok (ps, rest)) : ReadsPieces stop cs ps rest := by
  fun_induction pieces stop cs generalizing ps rest with
  | case1 | case6 | case9 => simp at h
  | case2 hstop =>
    cases h
    exact .finish hstop
  | case3 _ _ hstop =>
    cases h
    rw [hstop.2]
    exact .quote hstop.1
  | case4 _ _ _ hstop =>
    cases h
    exact .word hstop.1 hstop.2
  | case5 cs hquote hword =>
    rename_i ih
    obtain ⟨_, hp, rfl⟩ := prepend_eq_ok.1 h
    exact .escape (not_or.2 ⟨hquote, hword⟩) (ih hp)
  | case7 cs _ _ hname hquote hword =>
    rename_i ih
    obtain ⟨_, hp, rfl⟩ := prepend_eq_ok.1 h
    exact .named (not_or.2 ⟨hquote, hword⟩) hname (ih hp)
  | case8 cs _ hname hquote hword =>
    rename_i ih
    obtain ⟨_, hp, rfl⟩ := prepend_eq_ok.1 h
    exact .dollar (not_or.2 ⟨hquote, hword⟩) hname (ih hp)
  | case10 cs _ _ hscript hquote hword =>
    rename_i ih
    obtain ⟨_, hp, rfl⟩ := prepend_eq_ok.1 h
    exact .script (not_or.2 ⟨hquote, hword⟩) hscript (ih hp)
  | case11 c cs hquote hword hslash hdollar hbracket =>
    rename_i ih
    obtain ⟨_, hp, rfl⟩ := prepend_eq_ok.1 h
    exact .char (not_or.2 ⟨hquote, hword⟩) hslash hdollar hbracket (ih hp)

theorem pieces_cons_of_not_ends {stop : Stop} {c : Char} {cs : List Char} (h : ¬stop.Ends c cs) :
    pieces stop (c :: cs) =
      if c = '\\' then
        prepend (.char (decodeEscape cs).1) (pieces stop (decodeEscape cs).2)
      else if c = '$' then
        match variableName cs with
        | .error e => .error e
        | .ok (some name, rest) => prepend (.variable name) (pieces stop rest)
        | .ok (none, rest) => prepend (.char '$') (pieces stop rest)
      else if c = '[' then
        match bracketed cs with
        | .error e => .error e
        | .ok (source, rest) => prepend (.script source) (pieces stop rest)
      else prepend (.char c) (pieces stop cs) := by
  obtain ⟨hquote, hword⟩ := not_or.1 h
  rw [pieces, if_neg hquote, if_neg hword]
  split_ifs
  · rfl
  · split <;> rename_i hname <;> rw [hname]
  · split <;> rename_i hscript <;> rw [hscript]
  · rfl

theorem pieces_of_readsPieces {stop : Stop} {cs rest : List Char} {ps : List Piece}
    (h : ReadsPieces stop cs ps rest) : pieces stop cs = .ok (ps, rest) := by
  induction h with
  | finish hstop => simp [pieces, hstop]
  | quote hstop => simp [pieces, hstop]
  | word hstop hend => simp [pieces, hstop, hend]
  | escape hgoes _ ih =>
    rw [pieces_cons_of_not_ends hgoes, if_pos rfl, ih]
    rfl
  | named hgoes hname _ ih =>
    rw [pieces_cons_of_not_ends hgoes, if_neg (by decide), if_pos rfl, hname]
    exact prepend_eq_ok.2 ⟨_, ih, rfl⟩
  | dollar hgoes hname _ ih =>
    rw [pieces_cons_of_not_ends hgoes, if_neg (by decide), if_pos rfl, hname]
    exact prepend_eq_ok.2 ⟨_, ih, rfl⟩
  | script hgoes hscript _ ih =>
    rw [pieces_cons_of_not_ends hgoes, if_neg (by decide), if_neg (by decide), if_pos rfl, hscript]
    exact prepend_eq_ok.2 ⟨_, ih, rfl⟩
  | char hgoes hslash hdollar hbracket _ ih =>
    rw [pieces_cons_of_not_ends hgoes, if_neg hslash, if_neg hdollar, if_neg hbracket, ih]
    rfl

theorem pieces_eq_ok_iff {stop : Stop} {cs rest : List Char} {ps : List Piece} :
    pieces stop cs = .ok (ps, rest) ↔ ReadsPieces stop cs ps rest :=
  ⟨readsPieces_of_pieces, pieces_of_readsPieces⟩

theorem pieces_of_endsWord {cs : List Char} (h : endsWord cs = true) :
    pieces .word cs = .ok ([], cs) := by
  cases cs with
  | nil => simp [pieces]
  | cons c cs => simp [pieces, h]

theorem ReadsPieces.suffix {stop : Stop} {cs rest : List Char} {ps : List Piece}
    (h : ReadsPieces stop cs ps rest) : rest <:+ cs := by
  induction h with
  | finish | word => exact List.suffix_refl _
  | quote => exact List.suffix_cons _ _
  | escape _ _ ih => exact (ih.trans (suffix_decodeEscape _)).trans (List.suffix_cons _ _)
  | named _ hname _ ih | dollar _ hname _ ih =>
    exact (ih.trans (suffix_of_variableName hname)).trans (List.suffix_cons _ _)
  | script _ hscript _ ih =>
    exact (ih.trans (suffix_of_bracketed hscript)).trans (List.suffix_cons _ _)
  | char _ _ _ _ _ ih => exact ih.trans (List.suffix_cons _ _)

theorem parts_eq_ok_iff {stop : Stop} {cs rest : List Char} {w : Word} :
    parts stop cs = .ok (w, rest) ↔ ∃ ps, pieces stop cs = .ok (ps, rest) ∧ joinPieces ps = w := by
  rw [parts, map_eq_ok_iff]
  constructor
  · rintro ⟨⟨ps, _⟩, hps, heq⟩
    cases heq
    exact ⟨ps, hps, rfl⟩
  · rintro ⟨ps, hps, rfl⟩
    exact ⟨(ps, rest), hps, rfl⟩

theorem suffix_of_parts {stop : Stop} {cs rest : List Char} {w : Word}
    (h : parts stop cs = .ok (w, rest)) : rest <:+ cs := by
  obtain ⟨ps, hps, -⟩ := parts_eq_ok_iff.1 h
  exact (pieces_eq_ok_iff.1 hps).suffix

/-- How a word is read: in braces, in quotes, or piece by piece up to where it ends. -/
inductive ReadsWord : List Char → Word → List Char → Prop
  | braced {body rest : List Char} {text : String} (hbody : braced body = .ok (text, rest))
      (hend : endsWord rest = true) : ReadsWord ('{' :: body) [.text text] rest
  | quoted {body rest : List Char} {w : Word} (hbody : parts .quote body = .ok (w, rest))
      (hend : endsWord rest = true) : ReadsWord ('"' :: body) w rest
  | bare {cs rest : List Char} {w : Word} (hbrace : cs.head? ≠ some '{')
      (hquote : cs.head? ≠ some '"') (hparts : parts .word cs = .ok (w, rest)) :
      ReadsWord cs w rest

theorem readsWord_of_word {cs rest : List Char} {w : Word} (h : word cs = .ok (w, rest)) :
    ReadsWord cs w rest := by
  unfold word at h
  split at h
  · split at h
    · simp at h
    · next hbody =>
      split at h
      · next hend =>
        cases h
        exact .braced hbody hend
      · simp at h
  · split at h
    · simp at h
    · next hbody =>
      split at h
      · next hend =>
        cases h
        exact .quoted hbody hend
      · simp at h
  · next hbrace hquote =>
    refine .bare ?_ ?_ h
    · intro hhead
      obtain ⟨body, rfl⟩ := List.head?_eq_some_iff.1 hhead
      exact hbrace body rfl
    · intro hhead
      obtain ⟨body, rfl⟩ := List.head?_eq_some_iff.1 hhead
      exact hquote body rfl

/-- A word that begins neither with a brace nor with a quote is read piece by piece. -/
theorem word_eq_parts {cs : List Char} (hbrace : cs.head? ≠ some '{')
    (hquote : cs.head? ≠ some '"') : word cs = parts .word cs := by
  unfold word
  split
  · exact absurd rfl hbrace
  · exact absurd rfl hquote
  · rfl

theorem word_of_readsWord {cs rest : List Char} {w : Word} (h : ReadsWord cs w rest) :
    word cs = .ok (w, rest) := by
  cases h with
  | braced hbody hend => simp [word, hbody, hend]
  | quoted hbody hend => simp [word, hbody, hend]
  | bare hbrace hquote hparts => rw [word_eq_parts hbrace hquote, hparts]

theorem word_eq_ok_iff {cs rest : List Char} {w : Word} :
    word cs = .ok (w, rest) ↔ ReadsWord cs w rest :=
  ⟨readsWord_of_word, word_of_readsWord⟩

theorem suffix_of_word {cs rest : List Char} {w : Word} (h : word cs = .ok (w, rest)) :
    rest <:+ cs := by
  cases word_eq_ok_iff.1 h with
  | braced hbody => exact (suffix_of_braced hbody).trans (List.suffix_cons _ _)
  | quoted hbody => exact (suffix_of_parts hbody).trans (List.suffix_cons _ _)
  | bare _ _ hparts => exact suffix_of_parts hparts

/-! ### Statements -/

theorem skipInline_blank {c : Char} (h : isInlineBlank c = true) (cs : List Char) :
    skipInline (c :: cs) = skipInline cs := by
  rw [skipInline.eq_def]
  simp [h]

/-- Nothing but blanks and hidden newlines is skipped between words. -/
theorem skipInline_of_stops {c : Char} {cs : List Char} (hblank : ¬isInlineBlank c = true)
    (hline : ∀ ds, c :: cs ≠ '\\' :: '\n' :: ds) : skipInline (c :: cs) = c :: cs := by
  rw [skipInline.eq_def]
  dsimp only
  rw [if_neg hblank]
  split_ifs with hslash
  · split
    · next ds => exact absurd (by rw [hslash]) (hline ds)
    · rfl
  · rfl

theorem suffix_skipInline (cs : List Char) : skipInline cs <:+ cs := by
  fun_induction skipInline cs with
  | case1 | case4 | case5 => exact List.suffix_refl _
  | case2 _ _ _ ih => exact ih.trans (List.suffix_cons _ _)
  | case3 =>
    rename_i ih
    exact (ih.trans (List.suffix_cons _ _)).trans (List.suffix_cons _ _)

theorem suffix_skipComment (cs : List Char) : skipComment cs <:+ cs := by
  fun_induction skipComment cs with
  | case1 => exact List.suffix_refl _
  | case2 => exact List.suffix_cons _ _
  | case3 => exact List.nil_suffix
  | case4 =>
    rename_i ih
    exact (ih.trans (List.suffix_cons _ _)).trans (List.suffix_cons _ _)
  | case5 =>
    rename_i ih
    exact ih.trans (List.suffix_cons _ _)

theorem statement_eq (cs : List Char) :
    statement cs =
      match skipInline cs with
      | [] => .ok ([], [])
      | c :: rest =>
        if c = '\n' ∨ c = ';' then .ok ([], rest)
        else
          match word (c :: rest) with
          | .error e => .error e
          | .ok (w, rest) => prepend w (statement rest) := by
  rw [statement]
  split
  · next h => rw [h]
  · next h =>
    rw [h]
    dsimp only
    split
    · rfl
    · split <;> rename_i hw <;> rw [hw]

theorem suffix_of_statement {cs rest : List Char} {ws : Statement}
    (h : statement cs = .ok (ws, rest)) : rest <:+ cs := by
  fun_induction statement cs generalizing ws rest with
  | case1 =>
    cases h
    exact List.nil_suffix
  | case2 cs c rest' hcs hc =>
    cases h
    have hskip := suffix_skipInline cs
    rw [hcs] at hskip
    exact (List.suffix_cons _ _).trans hskip
  | case3 => simp at h
  | case4 cs c rest' hcs hc w after hw ih =>
    obtain ⟨_, hs, -⟩ := prepend_eq_ok.1 h
    have hskip := suffix_skipInline cs
    rw [hcs] at hskip
    exact ((ih hs).trans (suffix_of_word hw)).trans hskip

/-! ### Scripts -/

theorem statements_eq (cs : List Char) :
    statements cs =
      match cs.dropWhile isSeparator with
      | [] => .ok []
      | c :: rest =>
        if c = '#' then statements (skipComment rest)
        else
          match statement (c :: rest) with
          | .error e => .error e
          | .ok (s, rest) => (statements rest).map (addStatement s) := by
  rw [statements]
  split
  · next h => rw [h]
  · next h =>
    rw [h]
    dsimp only
    split
    · rfl
    · split <;> rename_i hs <;> rw [hs]

theorem statements_separators {blanks : List Char} (h : ∀ c ∈ blanks, isSeparator c = true)
    (cs : List Char) : statements (blanks ++ cs) = statements cs := by
  rw [statements_eq, statements_eq, List.dropWhile_append_of_pos h]

theorem statements_separator {c : Char} (h : isSeparator c = true) (cs : List Char) :
    statements (c :: cs) = statements cs :=
  @statements_separators [c] (by simpa using h) cs

end ScriptHost.Script
