import ScriptHost.Proofs.Script.Cursor

/-!
# Reading makes progress

The cursor reads what the readers of the characters that are left read. It stays within the text, but
for one position past its end, and every call for a word, a statement or a comment moves it.
-/

namespace ScriptHost.Script

open Text

namespace Cursor

variable {text cs rest : List Char} {limit start rounds : Nat} {c c' : Cursor}

/-! ### Braces, brackets and names -/

/-- How the search for a closing character ends, given what a reader of the text before it found. -/
def sought (d : Char) (error : SyntaxError) :
    Option (List Char × List Char) → Except SyntaxError (Unit × List Char)
  | none => .error error
  | some (_, rest) => .ok ((), d :: rest)

/-- What is read up to a closing character. -/
def readUpTo (error : SyntaxError) :
    Option (List Char × List Char) → Except SyntaxError (String × List Char)
  | none => .error error
  | some (inner, rest) => .ok (String.ofList inner, rest)

theorem braced_eq_readUpTo (cs : List Char) :
    Script.braced cs = readUpTo .missingBrace (closeBrace 1 cs) := by
  rw [Script.braced]
  cases closeBrace 1 cs <;> rfl

theorem bracketed_eq_readUpTo (cs : List Char) :
    Script.bracketed cs = readUpTo .missingBracket (closeBracket 1 0 cs) := by
  rw [Script.bracketed]
  cases closeBracket 1 0 cs <;> rfl

/-- What is put in front of the text before it does not matter. -/
theorem Reads.sought_map {code : Scan Unit} {d : Char} {found : Option (List Char × List Char)}
    {g : List Char × List Char → List Char × List Char} (hg : ∀ p, (g p).2 = p.2)
    (h : Reads text start code c (sought d error found)) :
    Reads text start code c (sought d error (found.map g)) := by
  cases found with
  | none => exact h
  | some p => rwa [Option.map_some, sought, hg]

/-- Text between two characters is read if the closing one is found. -/
theorem reads_enclosed {seek : Scan Unit} {o d : Char} {found : Option (List Char × List Char)}
    (hcs : text.drop c.pos = o :: cs) (hstart : start ≤ c.pos)
    (hfound : ∀ inner rest, found = some (inner, rest) → cs = inner ++ d :: rest)
    (hseek : ∀ c' : Cursor, text.drop c'.pos = cs → start < c'.pos →
      Reads text start seek c' (sought d error found)) :
    Reads text start (enclosed text seek) c (readUpTo error found) := by
  rw [enclosed]
  refine .advance_cons hcs fun c₁ hpos hcs₁ => .position ?_
  have hsought := hseek c₁ hcs₁ (by omega)
  match found with
  | none => exact hsought.bind_error _
  | some (inner, rest) =>
    refine hsought.bind fun c₂ hle hcs₂ => .position ?_
    have hslice := slice_of_drop (hcs₁.trans (hfound inner rest rfl)) hcs₂ hle
      (lt_of_drop_cons hcs₂).le c₂
    exact .run hslice (.advance_cons hcs₂ fun c₃ _ hcs₃ => .pure hcs₃ _)

theorem reads_seekBrace_nil {depth : Nat} (hcs : text.drop c.pos = []) (hrounds : 0 < rounds)
    (hstart : start < c.pos) :
    Reads text start (seekBrace text rounds depth) c (.error .missingBrace) := by
  obtain ⟨rounds, rfl⟩ := Nat.exists_eq_add_one.2 hrounds
  rw [seekBrace]
  exact .peek_nil hcs (.reject hstart .missingBrace)

theorem reads_seekBrace {depth : Nat} (hcs : text.drop c.pos = cs) (hrounds : cs.length < rounds)
    (hstart : start < c.pos) : Reads text start (seekBrace text rounds depth) c
      (sought '}' .missingBrace (closeBrace depth cs)) := by
  fun_induction closeBrace depth cs generalizing c rounds with
  | case1 => exact reads_seekBrace_nil hcs hrounds hstart
  | case2 depth =>
    obtain ⟨rounds, rfl⟩ := Nat.exists_eq_add_one.2 (Nat.zero_lt_of_lt hrounds)
    rw [seekBrace]
    refine .peek_cons hcs ?_
    dsimp only
    rw [if_pos rfl]
    refine .advance_hidden hcs fun c' hpos hcs' => reads_seekBrace_nil hcs' ?_ (by omega)
    rw [List.length_singleton] at hrounds
    omega
  | case3 depth d rest ih =>
    obtain ⟨rounds, rfl⟩ := Nat.exists_eq_add_one.2 (Nat.zero_lt_of_lt hrounds)
    rw [seekBrace]
    refine .sought_map (fun _ => rfl) ?_
    refine .peek_cons hcs ?_
    dsimp only
    rw [if_pos rfl]
    refine .advance_hidden hcs fun c' hpos hcs' => ih hcs' ?_ (by omega)
    rw [List.length_cons, List.length_cons] at hrounds
    omega
  | case4 depth d rest hd hclose =>
    obtain ⟨rounds, rfl⟩ := Nat.exists_eq_add_one.2 (Nat.zero_lt_of_lt hrounds)
    rw [seekBrace]
    refine .peek_cons hcs ?_
    dsimp only
    rw [if_neg hd, if_pos hclose]
    exact .pure (hclose.1 ▸ hcs) ()
  | case5 depth d rest hd hclose =>
    rename_i ih
    obtain ⟨rounds, rfl⟩ := Nat.exists_eq_add_one.2 (Nat.zero_lt_of_lt hrounds)
    rw [seekBrace]
    refine .sought_map (fun _ => rfl) ?_
    refine .peek_cons hcs ?_
    dsimp only
    rw [if_neg hd, if_neg hclose]
    refine .advance_cons hcs fun c' hpos hcs' => ih hcs' ?_ (by omega)
    rw [List.length_cons] at hrounds
    omega

theorem reads_braced (hcs : text.drop c.pos = '{' :: cs) (hlimit : text.length < limit)
    (hstart : start ≤ c.pos) :
    Reads text start (braced text limit) c (Script.braced cs) := by
  rw [braced_eq_readUpTo]
  refine reads_enclosed hcs hstart (fun _ _ => eq_append_of_closeBrace) fun c' hcs' hstart' => ?_
  exact reads_seekBrace hcs' (length_lt_of_drop hcs' hlimit) hstart'

theorem reads_seekBracket_nil {depth braces : Nat} (hcs : text.drop c.pos = []) (hrounds : 0 < rounds)
    (hstart : start < c.pos) :
    Reads text start (seekBracket text rounds depth braces) c (.error .missingBracket) := by
  obtain ⟨rounds, rfl⟩ := Nat.exists_eq_add_one.2 hrounds
  rw [seekBracket]
  exact .peek_nil hcs (.reject hstart .missingBracket)

theorem reads_seekBracket {depth braces : Nat} (hcs : text.drop c.pos = cs)
    (hrounds : cs.length < rounds) (hstart : start < c.pos) :
    Reads text start (seekBracket text rounds depth braces) c
      (sought ']' .missingBracket (closeBracket depth braces cs)) := by
  fun_induction closeBracket depth braces cs generalizing c rounds with
  | case1 => exact reads_seekBracket_nil hcs hrounds hstart
  | case2 depth braces =>
    obtain ⟨rounds, rfl⟩ := Nat.exists_eq_add_one.2 (Nat.zero_lt_of_lt hrounds)
    rw [seekBracket]
    refine .peek_cons hcs ?_
    dsimp only
    rw [if_pos rfl]
    refine .advance_hidden hcs fun c' hpos hcs' => reads_seekBracket_nil hcs' ?_ (by omega)
    rw [List.length_singleton] at hrounds
    omega
  | case3 depth braces d rest ih =>
    obtain ⟨rounds, rfl⟩ := Nat.exists_eq_add_one.2 (Nat.zero_lt_of_lt hrounds)
    rw [seekBracket]
    refine .sought_map (fun _ => rfl) ?_
    refine .peek_cons hcs ?_
    dsimp only
    rw [if_pos rfl]
    refine .advance_hidden hcs fun c' hpos hcs' => ih hcs' ?_ (by omega)
    rw [List.length_cons, List.length_cons] at hrounds
    omega
  | case4 depth braces d rest hd hclose =>
    obtain ⟨rounds, rfl⟩ := Nat.exists_eq_add_one.2 (Nat.zero_lt_of_lt hrounds)
    rw [seekBracket]
    refine .peek_cons hcs ?_
    dsimp only
    rw [if_neg hd, if_pos hclose]
    exact .pure (hclose.1 ▸ hcs) ()
  | case5 depth braces d rest hd hclose =>
    rename_i ih
    obtain ⟨rounds, rfl⟩ := Nat.exists_eq_add_one.2 (Nat.zero_lt_of_lt hrounds)
    rw [seekBracket]
    refine .sought_map (fun _ => rfl) ?_
    refine .peek_cons hcs ?_
    dsimp only
    rw [if_neg hd, if_neg hclose]
    refine .advance_cons hcs fun c' hpos hcs' => ih hcs' ?_ (by omega)
    rw [List.length_cons] at hrounds
    omega

theorem reads_bracketed (hcs : text.drop c.pos = '[' :: cs) (hlimit : text.length < limit)
    (hstart : start ≤ c.pos) :
    Reads text start (bracketed text limit) c (Script.bracketed cs) := by
  rw [bracketed_eq_readUpTo]
  refine reads_enclosed hcs hstart (fun _ _ => eq_append_of_closeBracket) fun c' hcs' hstart' => ?_
  exact reads_seekBracket hcs' (length_lt_of_drop hcs' hlimit) hstart'

theorem run_braceIndex_nil {i : Nat} (hcs : text.drop i = cs) (hrounds : cs.length < rounds)
    (hdrop : cs.dropWhile (· ≠ '}') = []) (c : Cursor) :
    braceIndex text rounds i c = .error (.malformed .missingNameBrace) c := by
  induction cs generalizing i rounds with
  | nil =>
    obtain ⟨rounds, rfl⟩ := Nat.exists_eq_add_one.2 hrounds
    rw [braceIndex, getElem?_of_drop_nil hcs]
    rfl
  | cons d cs ih =>
    obtain ⟨rounds, rfl⟩ := Nat.exists_eq_add_one.2 (Nat.zero_lt_of_lt hrounds)
    have hd : d ≠ '}' := by
      rintro rfl
      cases hdrop
    rw [List.dropWhile_cons_of_pos (by simpa using hd)] at hdrop
    rw [braceIndex, getElem?_of_drop_cons hcs]
    dsimp only
    rw [if_neg hd]
    exact ih (drop_succ_of_drop_cons hcs) (Nat.lt_of_succ_lt_succ hrounds) hdrop

theorem exists_run_braceIndex {i : Nat} {d : Char} (hcs : text.drop i = cs)
    (hrounds : cs.length < rounds) (hdrop : cs.dropWhile (· ≠ '}') = d :: rest) (c : Cursor) :
    ∃ stop, braceIndex text rounds i c = .ok stop c ∧ i ≤ stop ∧ text.drop stop = d :: rest := by
  induction cs generalizing i rounds with
  | nil => cases hdrop
  | cons d' cs ih =>
    obtain ⟨rounds, rfl⟩ := Nat.exists_eq_add_one.2 (Nat.zero_lt_of_lt hrounds)
    rw [braceIndex, getElem?_of_drop_cons hcs]
    dsimp only
    by_cases hd : d' = '}'
    · rw [if_pos hd]
      rw [List.dropWhile_cons_of_neg (by simpa using hd)] at hdrop
      exact ⟨i, rfl, le_rfl, hcs.trans hdrop⟩
    · rw [if_neg hd]
      rw [List.dropWhile_cons_of_pos (by simpa using hd)] at hdrop
      obtain ⟨stop, hrun, hle, hstop⟩ :=
        ih (drop_succ_of_drop_cons hcs) (Nat.lt_of_succ_lt_succ hrounds) hdrop
      exact ⟨stop, hrun, Nat.le_of_succ_le hle, hstop⟩

/-- The end of a name is as far away as the run of its characters is long. -/
theorem run_nameEnd {i : Nat} (hcs : text.drop i = cs) (hrounds : cs.length < rounds) (c : Cursor) :
    nameEnd text rounds i c = .ok (i + (nameRun cs).1.length) c := by
  fun_induction nameRun cs generalizing i rounds with
  | case1 =>
    obtain ⟨rounds, rfl⟩ := Nat.exists_eq_add_one.2 hrounds
    rw [nameEnd, getElem?_of_drop_nil hcs]
    rfl
  | case2 d cs hd =>
    rename_i ih
    obtain ⟨rounds, rfl⟩ := Nat.exists_eq_add_one.2 (Nat.zero_lt_of_lt hrounds)
    rw [nameEnd, getElem?_of_drop_cons hcs]
    dsimp only
    rw [if_pos hd, ih (drop_succ_of_drop_cons hcs) (Nat.lt_of_succ_lt_succ hrounds), List.length_cons,
      Nat.add_right_comm, Nat.add_assoc]
  | case3 cs run hd =>
    rename_i ih
    obtain ⟨rounds, rfl⟩ := Nat.exists_eq_add_one.2 (Nat.zero_lt_of_lt hrounds)
    have hnext := drop_succ_of_drop_cons hcs
    rw [List.length_cons, List.length_cons] at hrounds
    rw [nameEnd, getElem?_of_drop_cons hcs]
    dsimp only
    rw [if_neg hd, if_pos ⟨rfl, getElem?_of_drop_cons hnext⟩,
      ih (drop_succ_of_drop_cons hnext) (by omega), List.length_cons, List.length_cons]
    refine congrArg (EStateM.Result.ok · c) ?_
    change i + 2 + run.1.length = _
    omega
  | case4 cs hnot hd =>
    obtain ⟨rounds, rfl⟩ := Nat.exists_eq_add_one.2 (Nat.zero_lt_of_lt hrounds)
    have hcolons : ¬(':' = ':' ∧ text[i + 1]? = some ':') := by
      rintro ⟨-, hnext⟩
      rw [← List.head?_drop, drop_succ_of_drop_cons hcs, List.head?_eq_some_iff] at hnext
      obtain ⟨rest, hrest⟩ := hnext
      exact hnot rest hrest
    rw [nameEnd, getElem?_of_drop_cons hcs]
    dsimp only
    rw [if_neg hd, if_neg hcolons]
    rfl
  | case5 d cs hd hcolon =>
    obtain ⟨rounds, rfl⟩ := Nat.exists_eq_add_one.2 (Nat.zero_lt_of_lt hrounds)
    rw [nameEnd, getElem?_of_drop_cons hcs]
    dsimp only
    rw [if_neg hd, if_neg fun hcolons => hcolon hcolons.1]
    rfl

/-- What is read at a dollar sign, given what is read behind it: the dollar sign is left if there is no
name. -/
def atDollar :
    Except SyntaxError (Option String × List Char) → Except SyntaxError (Option String × List Char)
  | .ok (none, rest) => .ok (none, '$' :: rest)
  | r => r

theorem reads_variableName (start : Nat) (hcs : text.drop c.pos = '$' :: cs) (hlimit : text.length < limit) :
    Reads text start (variableName text limit) c (atDollar (Script.variableName cs)) := by
  have hnext := drop_succ_of_drop_cons hcs
  rw [variableName]
  refine .position ?_
  by_cases hbrace : cs.head? = some '{'
  · obtain ⟨body, rfl⟩ := List.head?_eq_some_iff.1 hbrace
    have hbody := drop_succ_of_drop_cons hnext
    rw [if_pos (getElem?_of_drop_cons hnext), Script.variableName]
    cases hdrop : body.dropWhile (· ≠ '}') with
    | nil =>
      have hrun := run_braceIndex_nil hbody (length_lt_of_drop hbody hlimit) hdrop c
      exact .bind_error ⟨c, hrun, .refl text _ c, .inr rfl⟩ _
    | cons d after =>
      have hsplit := List.takeWhile_append_dropWhile (p := (· ≠ '}')) (l := body)
      rw [hdrop] at hsplit
      obtain ⟨stop, hrun, hle, hstop⟩ :=
        exists_run_braceIndex hbody (length_lt_of_drop hbody hlimit) hdrop c
      have hlt := lt_of_drop_cons hstop
      have hslice := slice_of_drop (hbody.trans hsplit.symm) hstop hle hlt.le c
      refine .run hrun (.run hslice ?_)
      exact .of_step (.pure (drop_succ_of_drop_cons hstop) _) rfl (leads_goTo (by omega) (by omega))
  · have hhead : ¬text[c.pos + 1]? = some '{' := by
      rwa [← List.head?_drop, hnext]
    have hsplit := nameRun_append cs
    have hrun := run_nameEnd hnext (length_lt_of_drop hnext hlimit) c
    have hlength := congrArg List.length (hnext.trans hsplit.symm)
    rw [List.length_drop, List.length_append] at hlength
    have hlt := lt_of_drop_cons hcs
    rw [if_neg hhead, variableName_eq hbrace]
    refine .run hrun ?_
    by_cases hname : (nameRun cs).1 = []
    · rw [if_pos hname, if_pos (by rw [hname]; rfl)]
      exact .pure hcs none
    · have hpos := List.length_pos_iff.2 hname
      have hstop := drop_add_of_drop (hnext.trans hsplit.symm)
      have hslice := slice_of_drop (hnext.trans hsplit.symm) hstop (by omega) (by omega) c
      rw [if_neg hname, if_neg (by omega)]
      refine .run hslice ?_
      exact .of_step (.pure hstop _) rfl (leads_goTo (by omega) (by omega))

/-! ### Words -/

theorem exists_run_indent {i n : Nat} (hcs : text.drop (i + n) = cs) (hrounds : cs.length < rounds)
    (hpos : i + n ≤ text.length) (c : Cursor) :
    ∃ m, indent text rounds i n c = .ok m c ∧ n ≤ m ∧ i + m ≤ text.length ∧
      text.drop (i + m) = cs.dropWhile isIndent := by
  induction cs generalizing n rounds with
  | nil =>
    obtain ⟨rounds, rfl⟩ := Nat.exists_eq_add_one.2 hrounds
    rw [indent, getElem?_of_drop_nil hcs]
    exact ⟨n, rfl, le_rfl, hpos, hcs⟩
  | cons d cs ih =>
    obtain ⟨rounds, rfl⟩ := Nat.exists_eq_add_one.2 (Nat.zero_lt_of_lt hrounds)
    rw [indent, getElem?_of_drop_cons hcs]
    dsimp only
    by_cases hd : isIndent d = true
    · rw [if_pos hd, List.dropWhile_cons_of_pos hd]
      obtain ⟨m, hrun, hle, hm, hdrop⟩ := ih (n := n + 1) (drop_succ_of_drop_cons hcs)
        (Nat.lt_of_succ_lt_succ hrounds) (lt_of_drop_cons hcs)
      exact ⟨m, hrun, Nat.le_of_succ_le hle, hm, hdrop⟩
    · rw [if_neg hd, List.dropWhile_cons_of_neg hd]
      exact ⟨n, rfl, le_rfl, hpos, hcs⟩

theorem exists_run_backslash {i : Nat} (hcs : text.drop i = cs) (hlimit : text.length < limit)
    (hpos : i ≤ text.length) (c : Cursor) :
    ∃ n, backslash text limit i c = .ok ((decodeEscape cs).1, n) c ∧ i + n ≤ text.length ∧
      text.drop (i + n) = (decodeEscape cs).2 := by
  cases cs with
  | nil =>
    rw [backslash, getElem?_of_drop_nil hcs]
    exact ⟨0, rfl, hpos, hcs⟩
  | cons d cs =>
    have hnext := drop_succ_of_drop_cons hcs
    have hlt := lt_of_drop_cons hcs
    rw [backslash, getElem?_of_drop_cons hcs]
    dsimp only
    by_cases hd : d = '\n'
    · subst hd
      obtain ⟨n, hrun, -, hn, hdrop⟩ := exists_run_indent hnext
        (length_lt_of_drop hnext hlimit) hlt c
      refine ⟨n, ?_, hn, hdrop⟩
      rw [if_pos rfl]
      simp only [Bind.bind, EStateM.bind, hrun]
      rfl
    · rw [if_neg hd]
      have hdecode : decodeEscape (d :: cs) = (escaped d, cs) := by
        simp [decodeEscape]
      rw [hdecode]
      exact ⟨1, rfl, hlt, hnext⟩

/-- The word that is made up of pieces and what was read before them. -/
def wordFrom (literal : List Char) (ps : List Part) :
    Except SyntaxError (List Piece × List Char) → Except SyntaxError (Word × List Char) :=
  Except.map fun (qs, rest) => (ps ++ joinPieces (literal.map .char ++ qs), rest)

theorem leadingText_append {qs : List Piece} (hqs : leadingText qs = ([], qs))
    (literal : List Char) : leadingText (literal.map .char ++ qs) = (literal, qs) := by
  induction literal with
  | nil => exact hqs
  | cons d literal ih => rw [List.map_cons, List.cons_append, leadingText, ih]

theorem append_joinPieces {qs : List Piece} (hqs : leadingText qs = ([], qs)) (literal : List Char)
    (ps : List Part) :
    ps ++ joinPieces (literal.map .char ++ qs) = flush literal ps ++ joinPieces qs := by
  cases literal with
  | nil => rfl
  | cons d literal =>
    rw [List.map_cons, List.cons_append, joinPieces, leadingText_append hqs, flush]
    simp

theorem wordFrom_nil (literal : List Char) (ps : List Part) (rest : List Char) :
    wordFrom literal ps (.ok ([], rest)) = .ok (flush literal ps, rest) := by
  have hjoin : ps ++ joinPieces (literal.map .char ++ []) = flush literal ps := by
    rw [append_joinPieces rfl, joinPieces, List.append_nil]
  exact congrArg (fun w => Except.ok (w, rest)) hjoin

theorem wordFrom_char (literal : List Char) (ps : List Part) (d : Char)
    (r : Except SyntaxError (List Piece × List Char)) :
    wordFrom literal ps (prepend (.char d) r) = wordFrom (literal ++ [d]) ps r := by
  rcases r with error | ⟨qs, rest⟩
  · rfl
  · simp [wordFrom, prepend, Except.map]

theorem wordFrom_variable (literal : List Char) (ps : List Part) (name : String)
    (r : Except SyntaxError (List Piece × List Char)) :
    wordFrom literal ps (prepend (.variable name) r) =
      wordFrom [] (flush literal ps ++ [.variable name]) r := by
  rcases r with error | ⟨qs, rest⟩
  · rfl
  · have hleading : leadingText (.variable name :: qs) = ([], .variable name :: qs) := rfl
    simp [wordFrom, prepend, Except.map, append_joinPieces hleading, joinPieces]

theorem wordFrom_script (literal : List Char) (ps : List Part) (source : String)
    (r : Except SyntaxError (List Piece × List Char)) :
    wordFrom literal ps (prepend (.script source) r) =
      wordFrom [] (flush literal ps ++ [.script source]) r := by
  rcases r with error | ⟨qs, rest⟩
  · rfl
  · have hleading : leadingText (.script source :: qs) = ([], .script source :: qs) := rfl
    simp [wordFrom, prepend, Except.map, append_joinPieces hleading, joinPieces]

theorem endsWord_cons_iff {d : Char} : endsWord (d :: cs) = true ↔
    (isInlineBlank d || d = '\n' || d = ';') = true ∨ d = '\\' ∧ cs.head? = some '\n' := by
  unfold endsWord
  split
  · next heq => cases heq
  · next heq =>
    cases heq
    simp
  · next hnot heq =>
    cases heq
    refine (or_iff_left ?_).symm
    rintro ⟨rfl, hhead⟩
    obtain ⟨rest, rfl⟩ := List.head?_eq_some_iff.1 hhead
    exact hnot rest rfl rfl

/-- What does not end a bare word. -/
theorem goes_of_not_endsWord {stop : Stop} {d : Char}
    (h : ¬(stop = .word ∧ endsWord (d :: cs) = true)) :
    ¬(stop = .word ∧ (isInlineBlank d || d = '\n' || d = ';') = true) ∧
      (d = '\\' → ¬(stop = .word ∧ cs.head? = some '\n')) := by
  rw [endsWord_cons_iff] at h
  exact ⟨fun hblank => h ⟨hblank.1, .inl hblank.2⟩,
    fun hd hline => h ⟨hline.1, .inr ⟨hd, hline.2⟩⟩⟩

section

/-! A character that neither closes a quoted word nor ends a bare one is looked at for what it begins. -/

variable {stop : Stop} {literal : List Char} {ps : List Part} {r : Except SyntaxError (Word × List Char)}

theorem reads_partsFrom_backslash (hcs : text.drop c.pos = '\\' :: cs) (hlimit : text.length < limit)
    (hnot : ¬(stop = .quote ∧ '\\' = '"')) (hend : ¬(stop = .word ∧ endsWord ('\\' :: cs) = true))
    (hnext : ∀ c' : Cursor, c.pos < c'.pos → text.drop c'.pos = (decodeEscape cs).2 →
      Reads text start (partsFrom text limit stop rounds (literal ++ [(decodeEscape cs).1]) ps) c' r) :
    Reads text start (partsFrom text limit stop (rounds + 1) literal ps) c r := by
  obtain ⟨hblank, hline⟩ := goes_of_not_endsWord hend
  have hlt := lt_of_drop_cons hcs
  obtain ⟨n, hrun, hn, hdrop⟩ := exists_run_backslash (drop_succ_of_drop_cons hcs) hlimit hlt c
  rw [partsFrom]
  refine .peek_cons hcs ?_
  dsimp only
  rw [if_neg hnot, if_neg hblank, if_pos rfl]
  refine .peek_next hcs ?_
  rw [if_neg (hline rfl)]
  refine .position (.run hrun (.advance (by omega) ?_))
  rw [← Nat.add_assoc]
  have hmoved : c.pos < c.pos + 1 + n := by omega
  exact hnext _ hmoved hdrop

theorem reads_partsFrom_dollar (hcs : text.drop c.pos = '$' :: cs)
    (hnot : ¬(stop = .quote ∧ '$' = '"')) (hend : ¬(stop = .word ∧ endsWord ('$' :: cs) = true))
    (hread : Reads text start (do
      match ← variableName text limit with
      | some name => partsFrom text limit stop rounds [] (flush literal ps ++ [.variable name])
      | none => do
        advance 1
        partsFrom text limit stop rounds (literal ++ ['$']) ps) c r) :
    Reads text start (partsFrom text limit stop (rounds + 1) literal ps) c r := by
  obtain ⟨hblank, -⟩ := goes_of_not_endsWord hend
  rw [partsFrom]
  refine .peek_cons hcs ?_
  dsimp only
  rwa [if_neg hnot, if_neg hblank, if_neg (by decide), if_pos rfl]

theorem reads_partsFrom_bracket (hcs : text.drop c.pos = '[' :: cs)
    (hnot : ¬(stop = .quote ∧ '[' = '"')) (hend : ¬(stop = .word ∧ endsWord ('[' :: cs) = true))
    (hread : Reads text start (do
      let source ← bracketed text limit
      partsFrom text limit stop rounds [] (flush literal ps ++ [.script source])) c r) :
    Reads text start (partsFrom text limit stop (rounds + 1) literal ps) c r := by
  obtain ⟨hblank, -⟩ := goes_of_not_endsWord hend
  rw [partsFrom]
  refine .peek_cons hcs ?_
  dsimp only
  rwa [if_neg hnot, if_neg hblank, if_neg (by decide), if_neg (by decide), if_pos rfl]

theorem reads_partsFrom_plain {d : Char} (hcs : text.drop c.pos = d :: cs)
    (hnot : ¬(stop = .quote ∧ d = '"')) (hend : ¬(stop = .word ∧ endsWord (d :: cs) = true))
    (hslash : d ≠ '\\') (hdollar : d ≠ '$') (hbracket : d ≠ '[')
    (hnext : ∀ c' : Cursor, c'.pos = c.pos + 1 → text.drop c'.pos = cs →
      Reads text start (partsFrom text limit stop rounds (literal ++ [d]) ps) c' r) :
    Reads text start (partsFrom text limit stop (rounds + 1) literal ps) c r := by
  obtain ⟨hblank, -⟩ := goes_of_not_endsWord hend
  rw [partsFrom]
  refine .peek_cons hcs ?_
  dsimp only
  rw [if_neg hnot, if_neg hblank, if_neg hslash, if_neg hdollar, if_neg hbracket]
  exact .advance_cons hcs hnext

end

theorem reads_partsFrom {stop : Stop} {literal : List Char} {ps : List Part}
    (hcs : text.drop c.pos = cs) (hlimit : text.length < limit) (hrounds : cs.length < rounds)
    (hstart : start ≤ c.pos) (hquote : stop = .quote → start < c.pos) :
    Reads text start (partsFrom text limit stop rounds literal ps) c
      (wordFrom literal ps (pieces stop cs)) := by
  fun_induction pieces stop cs generalizing c rounds literal ps with
  | case1 hstop =>
    obtain ⟨rounds, rfl⟩ := Nat.exists_eq_add_one.2 hrounds
    rw [partsFrom]
    refine .peek_nil hcs ?_
    dsimp only
    rw [if_pos hstop]
    exact .reject (hquote hstop) .missingQuote
  | case2 hstop =>
    obtain ⟨rounds, rfl⟩ := Nat.exists_eq_add_one.2 hrounds
    rw [partsFrom, wordFrom_nil]
    refine .peek_nil hcs ?_
    dsimp only
    rw [if_neg hstop]
    exact .pure hcs _
  | case3 d cs hstop =>
    obtain ⟨rounds, rfl⟩ := Nat.exists_eq_add_one.2 (Nat.zero_lt_of_lt hrounds)
    rw [partsFrom, wordFrom_nil]
    refine .peek_cons hcs ?_
    dsimp only
    rw [if_pos hstop]
    exact .advance_cons hcs fun c' _ hcs' => .pure hcs' _
  | case4 d cs hnot hstop =>
    obtain ⟨rounds, rfl⟩ := Nat.exists_eq_add_one.2 (Nat.zero_lt_of_lt hrounds)
    rw [partsFrom, wordFrom_nil]
    refine .peek_cons hcs ?_
    dsimp only
    rw [if_neg hnot]
    rcases endsWord_cons_iff.1 hstop.2 with hblank | ⟨rfl, hline⟩
    · rw [if_pos ⟨hstop.1, hblank⟩]
      exact .pure hcs _
    · rw [if_neg (by simp [isInlineBlank]), if_pos rfl]
      refine .peek_next hcs ?_
      rw [if_pos ⟨hstop.1, hline⟩]
      exact .pure hcs _
  | case5 cs hnot hend =>
    rename_i ih
    obtain ⟨rounds, rfl⟩ := Nat.exists_eq_add_one.2 (Nat.zero_lt_of_lt hrounds)
    have hle := length_decodeEscape_le cs
    rw [List.length_cons] at hrounds
    rw [wordFrom_char]
    refine reads_partsFrom_backslash hcs hlimit hnot hend fun c' hmoved hrest => ?_
    exact ih hrest (by omega) (by omega) fun hstop => (hquote hstop).trans hmoved
  | case6 cs error hname hnot hend =>
    obtain ⟨rounds, rfl⟩ := Nat.exists_eq_add_one.2 (Nat.zero_lt_of_lt hrounds)
    have hread := reads_variableName start hcs hlimit
    rw [hname] at hread
    exact reads_partsFrom_dollar hcs hnot hend (hread.bind_error _)
  | case7 cs name rest hname hnot hend =>
    rename_i ih
    obtain ⟨rounds, rfl⟩ := Nat.exists_eq_add_one.2 (Nat.zero_lt_of_lt hrounds)
    have hread := reads_variableName start hcs hlimit
    have hle := length_variableName_le hname
    rw [List.length_cons] at hrounds
    rw [hname] at hread
    rw [wordFrom_variable]
    refine reads_partsFrom_dollar hcs hnot hend (hread.bind fun c' hmoved hrest => ?_)
    exact ih hrest (by omega) (hstart.trans hmoved) fun hstop => (hquote hstop).trans_le hmoved
  | case8 cs rest hname hnot hend =>
    rename_i ih
    obtain ⟨rounds, rfl⟩ := Nat.exists_eq_add_one.2 (Nat.zero_lt_of_lt hrounds)
    have hread := reads_variableName start hcs hlimit
    have hle := length_variableName_le hname
    rw [List.length_cons] at hrounds
    rw [hname] at hread
    rw [wordFrom_char]
    refine reads_partsFrom_dollar hcs hnot hend (hread.bind fun c₁ hmoved hdollar => ?_)
    refine .advance_cons hdollar fun c₂ hpos hrest => ?_
    exact ih hrest (by omega) (by omega) fun hstop => (hquote hstop).trans (by omega)
  | case9 cs error hscript hnot hend =>
    obtain ⟨rounds, rfl⟩ := Nat.exists_eq_add_one.2 (Nat.zero_lt_of_lt hrounds)
    have hread := reads_bracketed hcs hlimit hstart
    rw [hscript] at hread
    exact reads_partsFrom_bracket hcs hnot hend (hread.bind_error _)
  | case10 cs source rest hscript hnot hend =>
    rename_i ih
    obtain ⟨rounds, rfl⟩ := Nat.exists_eq_add_one.2 (Nat.zero_lt_of_lt hrounds)
    have hread := reads_bracketed hcs hlimit hstart
    have hle := length_bracketed_lt hscript
    rw [List.length_cons] at hrounds
    rw [hscript] at hread
    rw [wordFrom_script]
    refine reads_partsFrom_bracket hcs hnot hend (hread.bind fun c' hmoved hrest => ?_)
    exact ih hrest (by omega) (hstart.trans hmoved) fun hstop => (hquote hstop).trans_le hmoved
  | case11 d cs hnot hend hslash hdollar hbracket =>
    rename_i ih
    obtain ⟨rounds, rfl⟩ := Nat.exists_eq_add_one.2 (Nat.zero_lt_of_lt hrounds)
    rw [List.length_cons] at hrounds
    rw [wordFrom_char]
    refine reads_partsFrom_plain hcs hnot hend hslash hdollar hbracket fun c' hpos hrest => ?_
    exact ih hrest (by omega) (by omega) fun hstop => (hquote hstop).trans (by omega)

theorem reads_parts {stop : Stop} (hcs : text.drop c.pos = cs) (hlimit : text.length < limit)
    (hstart : start ≤ c.pos) (hquote : stop = .quote → start < c.pos) :
    Reads text start (partsFrom text limit stop limit [] []) c (parts stop cs) :=
  reads_partsFrom hcs hlimit (length_lt_of_drop hcs hlimit) hstart hquote

theorem reads_expectWordEnd (hcs : text.drop c.pos = cs) (hstart : start < c.pos)
    (error : SyntaxError) :
    Reads text start (expectWordEnd text error) c
      (if endsWord cs then .ok ((), cs) else .error error) := by
  rw [expectWordEnd]
  cases cs with
  | nil => exact .peek_nil hcs (.pure hcs ())
  | cons d cs =>
    refine .peek_cons hcs (.peek_next hcs ?_)
    by_cases hblank : (isInlineBlank d || d = '\n' || d = ';') = true
    · rw [if_pos hblank, if_pos (endsWord_cons_iff.2 (.inl hblank))]
      exact .pure hcs ()
    rw [if_neg hblank]
    by_cases hline : d = '\\' ∧ cs.head? = some '\n'
    · rw [if_pos hline, if_pos (endsWord_cons_iff.2 (.inr hline))]
      exact .pure hcs ()
    · rw [if_neg hline, if_neg fun hend => (endsWord_cons_iff.1 hend).elim hblank hline]
      exact .reject hstart error

/-- A word that stands between two characters is followed by the end of the word. -/
theorem Reads.expectWordEnd {w : Word} (hcs : text.drop c.pos = cs) (hstart : start < c.pos)
    (error : SyntaxError) :
    Reads text start (Cursor.expectWordEnd text error >>= fun _ => Pure.pure w) c
      (if endsWord cs then .ok (w, cs) else .error error) := by
  have hread := reads_expectWordEnd hcs hstart error
  by_cases hend : endsWord cs = true
  · rw [if_pos hend] at hread ⊢
    exact hread.bind fun c' _ hrest => .pure hrest w
  · rw [if_neg hend] at hread ⊢
    exact hread.bind_error _

theorem reads_word {d : Char} (hcs : text.drop c.pos = d :: cs) (hlimit : text.length < limit)
    (hstart : start ≤ c.pos) : Reads text start (word text limit) c (Script.word (d :: cs)) := by
  rw [word]
  refine .peek_cons hcs ?_
  by_cases hbrace : d = '{'
  · subst hbrace
    have hread := reads_braced hcs hlimit hstart
    rw [if_pos rfl, Script.word]
    cases hinner : Script.braced cs with
    | error error =>
      rw [hinner] at hread
      exact hread.bind_error _
    | ok found =>
      obtain ⟨inner, rest⟩ := found
      rw [hinner] at hread
      refine hread.bind fun c' _ hrest => .expectWordEnd hrest (hstart.trans_lt ?_) .afterBrace
      exact pos_lt_of_length_lt hcs hrest (Nat.lt_succ_of_lt (length_braced_lt hinner))
  by_cases hquote : d = '"'
  · subst hquote
    rw [if_neg (by simp), if_pos rfl, Script.word]
    refine .advance_cons hcs fun c₁ hpos hcs₁ => ?_
    have hread : Reads text start (partsFrom text limit .quote limit [] []) c₁ (parts .quote cs) :=
      reads_parts hcs₁ hlimit (by omega) fun _ => by omega
    cases hparts : parts .quote cs with
    | error error =>
      rw [hparts] at hread
      exact hread.bind_error _
    | ok found =>
      obtain ⟨w, rest⟩ := found
      rw [hparts] at hread
      exact hread.bind fun c₂ hle hrest => .expectWordEnd hrest (by omega) .afterQuote
  · rw [if_neg (by simpa using hbrace), if_neg (by simpa using hquote),
      word_eq_parts (by simpa using hbrace) (by simpa using hquote)]
    exact reads_parts hcs hlimit hstart (by simp)

/-! ### Statements -/

theorem reads_skipInline (start : Nat) (hcs : text.drop c.pos = cs) (hrounds : cs.length < rounds) :
    Reads text start (skipInline text rounds) c (.ok ((), Script.skipInline cs)) := by
  fun_induction Script.skipInline cs generalizing c rounds with
  | case1 =>
    obtain ⟨rounds, rfl⟩ := Nat.exists_eq_add_one.2 hrounds
    rw [skipInline]
    exact .peek_nil hcs (.pure hcs ())
  | case2 d cs hblank ih =>
    obtain ⟨rounds, rfl⟩ := Nat.exists_eq_add_one.2 (Nat.zero_lt_of_lt hrounds)
    rw [skipInline]
    refine .peek_cons hcs (.peek_next hcs ?_)
    rw [if_pos hblank]
    exact .advance_cons hcs fun c' _ hcs' => ih hcs' (Nat.lt_of_succ_lt_succ hrounds)
  | case3 cs hblank =>
    rename_i ih
    obtain ⟨rounds, rfl⟩ := Nat.exists_eq_add_one.2 (Nat.zero_lt_of_lt hrounds)
    have hnext := drop_succ_of_drop_cons hcs
    have hlt := lt_of_drop_cons hnext
    rw [List.length_cons, List.length_cons] at hrounds
    rw [skipInline]
    refine .peek_cons hcs (.peek_next hcs ?_)
    rw [if_neg hblank, if_pos ⟨rfl, rfl⟩]
    exact .advance (by omega) (ih (drop_succ_of_drop_cons hnext) (by omega))
  | case4 cs hnot hblank =>
    obtain ⟨rounds, rfl⟩ := Nat.exists_eq_add_one.2 (Nat.zero_lt_of_lt hrounds)
    have hline : ¬('\\' = '\\' ∧ cs.head? = some '\n') := by
      rintro ⟨-, hhead⟩
      obtain ⟨rest, rfl⟩ := List.head?_eq_some_iff.1 hhead
      exact hnot rest rfl
    rw [skipInline]
    refine .peek_cons hcs (.peek_next hcs ?_)
    rw [if_neg hblank, if_neg hline]
    exact .pure hcs ()
  | case5 d cs hblank hslash =>
    obtain ⟨rounds, rfl⟩ := Nat.exists_eq_add_one.2 (Nat.zero_lt_of_lt hrounds)
    rw [skipInline]
    refine .peek_cons hcs (.peek_next hcs ?_)
    rw [if_neg hblank, if_neg fun hline => hslash hline.1]
    exact .pure hcs ()

/-- A statement after some words. -/
def statementAfter (ws : Statement) :
    Except SyntaxError (Statement × List Char) → Except SyntaxError (Statement × List Char) :=
  Except.map fun (more, rest) => (ws ++ more, rest)

theorem statementAfter_nil (ws : Statement) (rest : List Char) :
    statementAfter ws (.ok ([], rest)) = .ok (ws, rest) := by
  simp [statementAfter, Except.map]

theorem statementAfter_empty (r : Except SyntaxError (Statement × List Char)) :
    statementAfter [] r = r := by
  cases r <;> rfl

theorem statementAfter_prepend (ws : Statement) (w : Word)
    (r : Except SyntaxError (Statement × List Char)) :
    statementAfter ws (prepend w r) = statementAfter (ws ++ [w]) r := by
  rcases r with error | ⟨more, rest⟩
  · rfl
  · simp [statementAfter, prepend, Except.map]

theorem reads_noted_word {d : Char} (hcs : text.drop c.pos = d :: cs)
    (hbegins : endsWord (d :: cs) = false) (hlimit : text.length < limit) (hstart : start ≤ c.pos) :
    Reads text start (noted .word (word text limit)) c (Script.word (d :: cs)) := by
  refine (reads_word hcs hlimit le_rfl).noted ?_ hstart
  rw [hcs]
  exact fun _ _ => length_word_lt hbegins

/-- The words of a statement. Each call for a word comes where one begins, so it moves the cursor. -/
theorem reads_statementFrom (ws : Statement) (hcs : text.drop c.pos = cs)
    (hlimit : text.length < limit) (hrounds : cs.length < rounds) (hstart : start ≤ c.pos) :
    Reads text start (statementFrom text limit rounds ws) c (statementAfter ws (statement cs)) := by
  fun_induction statement cs generalizing c rounds ws with
  | case1 cs hskip =>
    obtain ⟨rounds, rfl⟩ := Nat.exists_eq_add_one.2 (Nat.zero_lt_of_lt hrounds)
    have hblanks := reads_skipInline start hcs (length_lt_of_drop hcs hlimit)
    rw [hskip] at hblanks
    rw [statementFrom, statementAfter_nil]
    exact hblanks.bind fun c' _ hrest => .peek_nil hrest (.pure hrest ws)
  | case2 cs d rest hskip hd =>
    obtain ⟨rounds, rfl⟩ := Nat.exists_eq_add_one.2 (Nat.zero_lt_of_lt hrounds)
    have hblanks := reads_skipInline start hcs (length_lt_of_drop hcs hlimit)
    rw [hskip] at hblanks
    rw [statementFrom, statementAfter_nil]
    refine hblanks.bind fun c₁ _ hcs₁ => .peek_cons hcs₁ ?_
    dsimp only
    rw [if_pos hd]
    exact .advance_cons hcs₁ fun c₂ _ hcs₂ => .pure hcs₂ ws
  | case3 cs d rest hskip hd error hword =>
    obtain ⟨rounds, rfl⟩ := Nat.exists_eq_add_one.2 (Nat.zero_lt_of_lt hrounds)
    have hblanks := reads_skipInline start hcs (length_lt_of_drop hcs hlimit)
    have hbegins := (or_assoc.2 (skipInline_cons hskip)).resolve_left hd
    rw [hskip] at hblanks
    rw [statementFrom]
    refine hblanks.bind fun c₁ hle₁ hcs₁ => .peek_cons hcs₁ ?_
    dsimp only
    rw [if_neg hd]
    have hread := reads_noted_word hcs₁ hbegins hlimit (hstart.trans hle₁)
    rw [hword] at hread
    exact hread.bind_error _
  | case4 cs d rest hskip hd w rest' hword ih =>
    obtain ⟨rounds, rfl⟩ := Nat.exists_eq_add_one.2 (Nat.zero_lt_of_lt hrounds)
    have hblanks := reads_skipInline start hcs (length_lt_of_drop hcs hlimit)
    have hle := length_skipInline_le cs
    have hbegins := (or_assoc.2 (skipInline_cons hskip)).resolve_left hd
    have hlt := length_word_lt hbegins hword
    rw [hskip] at hblanks hle
    rw [statementFrom, statementAfter_prepend]
    refine hblanks.bind fun c₁ hle₁ hcs₁ => .peek_cons hcs₁ ?_
    dsimp only
    rw [if_neg hd]
    have hread := reads_noted_word hcs₁ hbegins hlimit (hstart.trans hle₁)
    rw [hword] at hread
    exact hread.bind fun c₂ hle₂ hcs₂ =>
      ih _ hcs₂ (by omega) (hstart.trans (hle₁.trans hle₂))

/-! ### Scripts -/

theorem reads_skipComment (start : Nat) (hcs : text.drop c.pos = cs) (hrounds : cs.length < rounds) :
    Reads text start (skipComment text rounds) c (.ok ((), Script.skipComment cs)) := by
  fun_induction Script.skipComment cs generalizing c rounds with
  | case1 =>
    obtain ⟨rounds, rfl⟩ := Nat.exists_eq_add_one.2 hrounds
    rw [skipComment]
    exact .peek_nil hcs (.pure hcs ())
  | case2 cs =>
    obtain ⟨rounds, rfl⟩ := Nat.exists_eq_add_one.2 (Nat.zero_lt_of_lt hrounds)
    rw [skipComment]
    refine .peek_cons hcs (.advance_cons hcs fun c' _ hcs' => ?_)
    rw [if_neg (by decide), if_pos rfl]
    exact .pure hcs' ()
  | case3 hline =>
    obtain ⟨rounds, rfl⟩ := Nat.exists_eq_add_one.2 (Nat.zero_lt_of_lt hrounds)
    rw [List.length_singleton] at hrounds
    obtain ⟨rounds, rfl⟩ := Nat.exists_eq_add_one.2 (Nat.lt_of_succ_lt_succ hrounds)
    rw [skipComment]
    refine .peek_cons hcs ?_
    dsimp only
    rw [if_pos rfl]
    refine .advance_hidden hcs fun c' _ hcs' => ?_
    rw [skipComment]
    exact .peek_nil hcs' (.pure hcs' ())
  | case4 d cs hline =>
    rename_i ih
    obtain ⟨rounds, rfl⟩ := Nat.exists_eq_add_one.2 (Nat.zero_lt_of_lt hrounds)
    rw [List.length_cons, List.length_cons] at hrounds
    rw [skipComment]
    refine .peek_cons hcs ?_
    dsimp only
    rw [if_pos rfl]
    exact .advance_hidden hcs fun c' _ hcs' => ih hcs' (by omega)
  | case5 d cs hline hslash ih =>
    obtain ⟨rounds, rfl⟩ := Nat.exists_eq_add_one.2 (Nat.zero_lt_of_lt hrounds)
    rw [skipComment]
    refine .peek_cons hcs (.advance_cons hcs fun c' _ hcs' => ?_)
    rw [if_neg hslash, if_neg hline]
    exact ih hcs' (Nat.lt_of_succ_lt_succ hrounds)

theorem reads_skipSeparators (start : Nat) (hcs : text.drop c.pos = cs) (hrounds : cs.length < rounds) :
    Reads text start (skipSeparators text rounds) c (.ok ((), cs.dropWhile isSeparator)) := by
  induction cs generalizing c rounds with
  | nil =>
    obtain ⟨rounds, rfl⟩ := Nat.exists_eq_add_one.2 hrounds
    rw [skipSeparators]
    exact .peek_nil hcs (.pure hcs ())
  | cons d cs ih =>
    obtain ⟨rounds, rfl⟩ := Nat.exists_eq_add_one.2 (Nat.zero_lt_of_lt hrounds)
    rw [skipSeparators]
    refine .peek_cons hcs ?_
    dsimp only
    by_cases hd : isSeparator d = true
    · rw [if_pos hd, List.dropWhile_cons_of_pos hd]
      exact .advance_cons hcs fun c' _ hcs' => ih hcs' (Nat.lt_of_succ_lt_succ hrounds)
    · rw [if_neg hd, List.dropWhile_cons_of_neg hd]
      exact .pure hcs ()

/-- All statements of a script after some others. -/
def statementsAfter (ss : List Statement) :
    Except SyntaxError (List Statement) → Except SyntaxError (List Statement × List Char) :=
  Except.map fun more => (ss ++ more, [])

theorem statementsAfter_nil (ss : List Statement) : statementsAfter ss (.ok []) = .ok (ss, []) := by
  simp [statementsAfter, Except.map]

theorem statementsAfter_addStatement (ss : List Statement) (s : Statement)
    (r : Except SyntaxError (List Statement)) :
    statementsAfter ss (r.map (addStatement s)) =
      statementsAfter (if s.isEmpty then ss else ss ++ [s]) r := by
  rcases r with error | more
  · rfl
  · by_cases hs : s.isEmpty = true
    · simp [statementsAfter, Except.map, addStatement, hs]
    · simp [statementsAfter, Except.map, addStatement, hs]

theorem reads_noted_comment (hcs : text.drop c.pos = '#' :: cs) (hlimit : text.length < limit)
    (hstart : start ≤ c.pos) :
    Reads text start (noted .comment (skipComment text limit)) c
      (.ok ((), Script.skipComment cs)) := by
  have hskip : Script.skipComment ('#' :: cs) = Script.skipComment cs := by
    rw [Script.skipComment.eq_def]
    rfl
  have hread := reads_skipComment c.pos hcs (length_lt_of_drop hcs hlimit)
  rw [hskip] at hread
  refine hread.noted ?_ hstart
  rintro _ _ ⟨⟩
  rw [hcs]
  exact Nat.lt_succ_of_le (length_skipComment_le cs)

theorem reads_noted_statement {d : Char} (hcs : text.drop c.pos = d :: cs)
    (hlimit : text.length < limit) (hstart : start ≤ c.pos) :
    Reads text start (noted .statement (statementFrom text limit limit [])) c
      (statement (d :: cs)) := by
  have hread := reads_statementFrom [] hcs hlimit (length_lt_of_drop hcs hlimit)
    (le_refl c.pos)
  rw [statementAfter_empty] at hread
  refine hread.noted ?_ hstart
  rw [hcs]
  exact fun _ _ => length_statement_lt

/-- The statements of a script. Each call comes where there is a character to read, so it moves the
cursor. -/
theorem reads_statementsFrom {ss : List Statement} (hcs : text.drop c.pos = cs)
    (hlimit : text.length < limit) (hrounds : cs.length < rounds) (hstart : start ≤ c.pos) :
    Reads text start (statementsFrom text limit rounds ss) c
      (statementsAfter ss (statements cs)) := by
  fun_induction statements cs generalizing c rounds ss with
  | case1 cs hskip =>
    obtain ⟨rounds, rfl⟩ := Nat.exists_eq_add_one.2 (Nat.zero_lt_of_lt hrounds)
    have hblanks := reads_skipSeparators start hcs (length_lt_of_drop hcs hlimit)
    rw [hskip] at hblanks
    rw [statementsFrom, statementsAfter_nil]
    exact hblanks.bind fun c' _ hrest => .peek_nil hrest (.pure hrest ss)
  | case2 cs rest hskip =>
    rename_i ih
    obtain ⟨rounds, rfl⟩ := Nat.exists_eq_add_one.2 (Nat.zero_lt_of_lt hrounds)
    have hblanks := reads_skipSeparators start hcs (length_lt_of_drop hcs hlimit)
    have hle := length_dropWhile_le isSeparator cs
    have hle' := length_skipComment_le rest
    rw [hskip] at hblanks hle
    rw [List.length_cons] at hle
    rw [statementsFrom]
    refine hblanks.bind fun c₁ hle₁ hcs₁ => .peek_cons hcs₁ ?_
    dsimp only
    rw [if_pos rfl]
    exact (reads_noted_comment hcs₁ hlimit (hstart.trans hle₁)).bind fun c₂ hle₂ hcs₂ =>
      ih hcs₂ (by omega) (hstart.trans (hle₁.trans hle₂))
  | case3 cs d rest hskip hd error hstatement =>
    obtain ⟨rounds, rfl⟩ := Nat.exists_eq_add_one.2 (Nat.zero_lt_of_lt hrounds)
    have hblanks := reads_skipSeparators start hcs (length_lt_of_drop hcs hlimit)
    rw [hskip] at hblanks
    rw [statementsFrom]
    refine hblanks.bind fun c₁ hle₁ hcs₁ => .peek_cons hcs₁ ?_
    dsimp only
    rw [if_neg hd]
    have hread := reads_noted_statement hcs₁ hlimit (hstart.trans hle₁)
    rw [hstatement] at hread
    exact hread.bind_error _
  | case4 cs d rest hskip hd s rest' hstatement =>
    rename_i ih
    obtain ⟨rounds, rfl⟩ := Nat.exists_eq_add_one.2 (Nat.zero_lt_of_lt hrounds)
    have hblanks := reads_skipSeparators start hcs (length_lt_of_drop hcs hlimit)
    have hle := length_dropWhile_le isSeparator cs
    have hlt := length_statement_lt hstatement
    rw [hskip] at hblanks hle
    rw [statementsFrom, statementsAfter_addStatement]
    refine hblanks.bind fun c₁ hle₁ hcs₁ => .peek_cons hcs₁ ?_
    dsimp only
    rw [if_neg hd]
    have hread := reads_noted_statement hcs₁ hlimit (hstart.trans hle₁)
    rw [hstatement] at hread
    exact hread.bind fun c₂ hle₂ hcs₂ =>
      ih hcs₂ (by omega) (hstart.trans (hle₁.trans hle₂))

end Cursor

/-- The cursor reads a script as the readers of characters do, whatever larger bound is set for the
rounds of its loops: no loop takes more rounds than the text has characters and one, and no slice is
outside of the text. All positions are within the text or one past its end. Every call for a word, a
statement or a comment moves the cursor on if it returns. A call that fails does so too, unless it
stands before a variable in braces that are not closed, and it ends the reading with its error. -/
theorem scan_makes_progress (source : String) (n : Nat) :
    ∃ c : Cursor,
      scan source (source.length + 1 + n) =
        (match parse source with
          | .ok ss => .ok ss c
          | .error error => .error (.malformed error) c) ∧
      (∀ pos ∈ c.trail, pos ≤ source.length + 1) ∧
      (∀ call ∈ c.calls, call.failure = none → call.start < call.stop) ∧
      ∀ call ∈ c.calls, ∀ error, call.failure = some error →
        (call.start < call.stop ∨ error = .missingNameBrace) ∧ parse source = .error error := by
  have hlength : source.toList.length = source.length := String.length_toList
  have hreads : Cursor.Reads source.toList 0
      (Cursor.statementsFrom source.toList (source.length + 1 + n) (source.length + 1 + n) []) {}
      (Cursor.statementsAfter [] (parse source)) :=
    Cursor.reads_statementsFrom rfl (by omega) (by omega) le_rfl
  cases hparse : parse source with
  | ok ss =>
    rw [hparse] at hreads
    obtain ⟨c, hrun, hleads, -⟩ := hreads
    obtain ⟨htrail, hfine⟩ := hleads.of_start
    refine ⟨c, hrun, hlength ▸ htrail, fun call hcall => (hfine call hcall).lt_of_none, ?_⟩
    intro call hcall error herror
    exact absurd ((hfine call hcall).failure_of_some herror) nofun
  | error error =>
    rw [hparse] at hreads
    obtain ⟨c, hrun, hleads, -⟩ := hreads
    obtain ⟨htrail, hfine⟩ := hleads.of_start
    refine ⟨c, hrun, hlength ▸ htrail, fun call hcall => (hfine call hcall).lt_of_none, ?_⟩
    intro call hcall error' herror
    have hmoved := (hfine call hcall).moved
    have hends := (hfine call hcall).failure_of_some herror
    rw [herror, Option.some_inj] at hmoved
    exact ⟨hmoved, congrArg Except.error (Option.some.inj hends)⟩

/-- A backslash at the end of a comment moves the cursor past the end, and a name without its closing
brace leaves it where it is. -/
example : (scan "#\\" 3 = .ok [] ⟨3, [3, 2, 1], [⟨.comment, 0, 3, none⟩]⟩) ∧
    scan "$\x7ba" 4 = .error (.malformed .missingNameBrace) ⟨0, [],
      [⟨.statement, 0, 0, some .missingNameBrace⟩, ⟨.word, 0, 0, some .missingNameBrace⟩]⟩ :=
  ⟨rfl, rfl⟩

end ScriptHost.Script
