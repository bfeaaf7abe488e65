import ScriptHost.Proofs.Script.Readers

/-!
# Scripts in lines

A newline ends whatever may end where a text ends: a name, a word, a statement and a comment. Braces,
brackets and quotes do not look behind the sign that closes them. So a script that is read as a
whole is read the same way when a newline and another script follow, and that one is read as if it
stood alone. Only a backslash at the end would hide the newline.
-/

namespace ScriptHost.Script

open Text

/-- No backslash at the end of the text hides what is put behind it. -/
def EndsPlain (cs : List Char) : Prop :=
  cs.getLast? ≠ some '\\'

theorem EndsPlain.of_suffix {cs rest : List Char} (h : EndsPlain cs) (hrest : rest <:+ cs) :
    EndsPlain rest := by
  obtain ⟨start, rfl⟩ := hrest
  intro hlast
  exact h (by simp [List.getLast?_append, hlast])

theorem EndsPlain.of_cons {c : Char} {cs : List Char} (h : EndsPlain (c :: cs)) : EndsPlain cs :=
  h.of_suffix (List.suffix_cons c cs)

theorem EndsPlain.ne_nil_of_backslash {cs : List Char} (h : EndsPlain ('\\' :: cs)) : cs ≠ [] := by
  rintro rfl
  exact h rfl

variable {cs rest : List Char} (after : List Char)

/-! ### Braces, brackets and names -/

theorem closeBrace_append_of_eq_some {depth : Nat} {text : List Char}
    (h : closeBrace depth cs = some (text, rest)) :
    closeBrace depth (cs ++ after) = some (text, rest ++ after) := by
  fun_induction closeBrace depth cs generalizing text rest with
  | case1 | case2 => simp at h
  | case3 depth d cs ih =>
    obtain ⟨_, hw, he⟩ := Option.map_eq_some_iff.1 h
    cases he
    rw [List.cons_append, List.cons_append, closeBrace_backslash, ih hw]
    rfl
  | case4 depth c cs hslash hclose =>
    cases h
    rw [List.cons_append, closeBrace_cons hslash, if_pos hclose]
  | case5 depth c cs hslash hclose =>
    rename_i ih
    obtain ⟨_, hw, he⟩ := Option.map_eq_some_iff.1 h
    cases he
    rw [List.cons_append, closeBrace_cons hslash, if_neg hclose, ih hw]
    rfl

theorem closeBracket_append_of_eq_some {depth braces : Nat} {text : List Char}
    (h : closeBracket depth braces cs = some (text, rest)) :
    closeBracket depth braces (cs ++ after) = some (text, rest ++ after) := by
  fun_induction closeBracket depth braces cs generalizing text rest with
  | case1 | case2 => simp at h
  | case3 depth braces d cs ih =>
    obtain ⟨_, hw, he⟩ := Option.map_eq_some_iff.1 h
    cases he
    rw [List.cons_append, List.cons_append, closeBracket_backslash, ih hw]
    rfl
  | case4 depth braces c cs hslash hclose =>
    cases h
    rw [List.cons_append, closeBracket_cons hslash, if_pos hclose]
  | case5 depth braces c cs hslash hclose =>
    rename_i ih
    obtain ⟨_, hw, he⟩ := Option.map_eq_some_iff.1 h
    cases he
    rw [List.cons_append, closeBracket_cons hslash, if_neg hclose, ih hw]
    rfl

/-- What stands behind the closing brace does not matter. -/
theorem braced_append {text : String} (h : braced cs = .ok (text, rest)) :
    braced (cs ++ after) = .ok (text, rest ++ after) :=
  braced_eq_ok_iff.2 (closeBrace_append_of_eq_some after (braced_eq_ok_iff.1 h))

/-- What stands behind the closing bracket does not matter. -/
theorem bracketed_append {source : String} (h : bracketed cs = .ok (source, rest)) :
    bracketed (cs ++ after) = .ok (source, rest ++ after) :=
  bracketed_eq_ok_iff.2 (closeBracket_append_of_eq_some after (bracketed_eq_ok_iff.1 h))

theorem nameRun_newline : nameRun ('\n' :: after) = ([], '\n' :: after) :=
  nameRun_of_stops (by decide) (by simp)

/-- A name ends before a newline. -/
theorem nameRun_append_newline (cs : List Char) :
    nameRun (cs ++ '\n' :: after) = ((nameRun cs).1, (nameRun cs).2 ++ '\n' :: after) := by
  fun_induction nameRun cs with
  | case1 => exact nameRun_newline after
  | case2 c cs hname run ih => rw [List.cons_append, nameRun_cons hname, ih]
  | case3 =>
    rename_i ih
    rw [List.cons_append, List.cons_append, nameRun_colons, ih]
  | case4 cs hcs hname =>
    -- A single colon is no part of a name, whether another character follows or not.
    refine nameRun_of_stops hname fun ds hds => ?_
    cases cs with
    | nil => simp at hds
    | cons d cs => exact hcs cs (by simpa using congrArg (List.take 1) (List.cons.inj hds).2)
  | case5 c cs hname hcolon =>
    exact nameRun_of_stops hname fun ds hds => hcolon (List.cons.inj hds).1

theorem variableName_append_newline {name : Option String}
    (h : variableName cs = .ok (name, rest)) :
    variableName (cs ++ '\n' :: after) = .ok (name, rest ++ '\n' :: after) := by
  by_cases hbrace : cs.head? = some '{'
  · obtain ⟨body, rfl⟩ := List.head?_eq_some_iff.1 hbrace
    obtain ⟨text, rfl, htext, rfl⟩ := variableName_brace_eq_ok_iff.1 h
    exact variableName_brace_eq_ok_iff.2 ⟨text, by simp, htext, rfl⟩
  · have hbrace' : (cs ++ '\n' :: after).head? ≠ some '{' := by
      cases cs with
      | nil => simp
      | cons c cs => exact hbrace
    rw [variableName_eq hbrace] at h
    rw [variableName_eq hbrace', nameRun_append_newline]
    split at h
    · next hnone =>
      cases h
      rw [if_pos hnone]
    · next hsome =>
      cases h
      rw [if_neg hsome]

/-! ### Words -/

theorem decodeEscape_append_newline (hne : cs ≠ []) :
    decodeEscape (cs ++ '\n' :: after) =
      ((decodeEscape cs).1, (decodeEscape cs).2 ++ '\n' :: after) := by
  fun_cases decodeEscape cs with
  | case1 => exact absurd rfl hne
  | case2 cs =>
    have hline : isIndent '\n' = false := rfl
    rw [List.cons_append, decodeEscape, List.dropWhile_append]
    split
    · next hblank => simp [List.isEmpty_iff.1 hblank, hline]
    · rfl
  | case3 c cs hc =>
    rw [List.cons_append, decodeEscape]
    exact hc

theorem endsWord_cons {c : Char} (hc : c ≠ '\\') (cs : List Char) :
    endsWord (c :: cs) = (isInlineBlank c || c = '\n' || c = ';') := by
  rw [endsWord]
  exact fun _ h => absurd h hc

theorem endsWord_backslash (c : Char) (cs : List Char) :
    endsWord ('\\' :: c :: cs) = decide (c = '\n') := by
  by_cases hc : c = '\n'
  · simp [endsWord, hc]
  · rw [endsWord] <;> simp [isInlineBlank, hc]

theorem endsWord_append_newline (hcs : EndsPlain cs) :
    endsWord (cs ++ '\n' :: after) = endsWord cs := by
  cases cs with
  | nil => rfl
  | cons c cs =>
    by_cases hc : c = '\\'
    · subst hc
      obtain ⟨d, cs, rfl⟩ := List.exists_cons_of_ne_nil hcs.ne_nil_of_backslash
      rw [List.cons_append, List.cons_append, endsWord_backslash, endsWord_backslash]
    · rw [List.cons_append, endsWord_cons hc, endsWord_cons hc]

theorem not_ends_append_newline {stop : Stop} {c : Char} (hcs : EndsPlain (c :: cs))
    (h : ¬stop.Ends c cs) : ¬stop.Ends c (cs ++ '\n' :: after) := by
  rwa [Stop.Ends, ← List.cons_append, endsWord_append_newline after hcs]

/-- A newline ends a word as the end of the text does, and in quotes nothing behind the closing quote
is looked at. -/
theorem ReadsPieces.append_newline {stop : Stop} {ps : List Piece} (h : ReadsPieces stop cs ps rest)
    (hstop : stop ≠ .finish) (hcs : EndsPlain cs) :
    ReadsPieces stop (cs ++ '\n' :: after) ps (rest ++ '\n' :: after) := by
  induction h with
  | finish hquote =>
    have hword : stop = .word := by
      cases stop with
      | word => rfl
      | quote => exact absurd rfl hquote
      | finish => exact absurd rfl hstop
    exact .word hword rfl
  | quote hquote => exact .quote hquote
  | word hword hend =>
    rw [← endsWord_append_newline after hcs] at hend
    exact .word hword hend
  | @escape cs _ _ hgoes _ ih =>
    have hdecode := decodeEscape_append_newline after hcs.ne_nil_of_backslash
    have hmore := ih (hcs.of_cons.of_suffix (suffix_decodeEscape cs))
    have hread : ReadsPieces stop ('\\' :: (cs ++ '\n' :: after)) _ _ :=
      .escape (not_ends_append_newline after hcs hgoes) (by rwa [hdecode])
    rwa [hdecode] at hread
  | named hgoes hname _ ih =>
    exact .named (not_ends_append_newline after hcs hgoes) (variableName_append_newline after hname)
      (ih (hcs.of_cons.of_suffix (suffix_of_variableName hname)))
  | dollar hgoes hname _ ih =>
    exact .dollar (not_ends_append_newline after hcs hgoes) (variableName_append_newline after hname)
      (ih (hcs.of_cons.of_suffix (suffix_of_variableName hname)))
  | script hgoes hscript _ ih =>
    exact .script (not_ends_append_newline after hcs hgoes) (bracketed_append _ hscript)
      (ih (hcs.of_cons.of_suffix (suffix_of_bracketed hscript)))
  | char hgoes hslash hdollar hbracket _ ih =>
    exact .char (not_ends_append_newline after hcs hgoes) hslash hdollar hbracket (ih hcs.of_cons)

theorem parts_append_newline {stop : Stop} {w : Word} (h : parts stop cs = .ok (w, rest))
    (hstop : stop ≠ .finish) (hcs : EndsPlain cs) :
    parts stop (cs ++ '\n' :: after) = .ok (w, rest ++ '\n' :: after) := by
  obtain ⟨ps, hps, hw⟩ := parts_eq_ok_iff.1 h
  have hread := (pieces_eq_ok_iff.1 hps).append_newline after hstop hcs
  exact parts_eq_ok_iff.2 ⟨ps, pieces_eq_ok_iff.2 hread, hw⟩

theorem word_append_newline {w : Word} (h : word cs = .ok (w, rest)) (hcs : EndsPlain cs) :
    word (cs ++ '\n' :: after) = .ok (w, rest ++ '\n' :: after) := by
  refine word_eq_ok_iff.2 ?_
  have hrest := hcs.of_suffix (suffix_of_word h)
  have hends := endsWord_append_newline after hrest
  cases word_eq_ok_iff.1 h with
  | braced hbody hend => exact .braced (braced_append _ hbody) (hends.trans hend)
  | quoted hbody hend =>
    exact .quoted (parts_append_newline after hbody (by decide) hcs.of_cons) (hends.trans hend)
  | bare hbrace hquote hparts =>
    have hhead {d : Char} (hd : d ≠ '\n') (hne : cs.head? ≠ some d) :
        (cs ++ '\n' :: after).head? ≠ some d := by
      cases cs with
      | nil => simpa using hd.symm
      | cons c cs => exact hne
    exact .bare (hhead (by decide) hbrace) (hhead (by decide) hquote)
      (parts_append_newline after hparts (by decide) hcs)

/-! ### Statements -/

theorem skipInline_append_newline (hcs : EndsPlain cs) :
    skipInline (cs ++ '\n' :: after) = skipInline cs ++ '\n' :: after := by
  fun_induction skipInline cs with
  | case1 => exact skipInline_of_stops (by decide) (by simp)
  | case2 c cs hblank ih => rw [List.cons_append, skipInline_blank hblank, ih hcs.of_cons]
  | case3 =>
    rename_i ih
    rw [List.cons_append, List.cons_append, skipInline.eq_def]
    simpa [isInlineBlank] using ih hcs.of_cons.of_cons
  | case4 cs hline hblank =>
    refine skipInline_of_stops hblank fun ds hds => ?_
    obtain ⟨d, cs, rfl⟩ := List.exists_cons_of_ne_nil hcs.ne_nil_of_backslash
    exact hline cs (by simpa using congrArg (List.take 1) (List.cons.inj hds).2)
  | case5 c cs hblank hslash =>
    exact skipInline_of_stops hblank fun ds hds => hslash (List.cons.inj hds).1

/-- A comment ends at a newline, and so it does at one that is put behind the text. -/
theorem statements_skipComment_append_newline (hcs : EndsPlain cs) :
    statements (skipComment (cs ++ '\n' :: after)) =
      statements (skipComment cs ++ '\n' :: after) := by
  fun_induction skipComment cs with
  | case1 =>
    rw [List.nil_append, skipComment.eq_def]
    exact (statements_separator rfl after).symm
  | case2 cs =>
    rw [List.cons_append, skipComment.eq_def]
    rfl
  | case3 => exact absurd rfl hcs.ne_nil_of_backslash
  | case4 hline d cs ih =>
    rw [List.cons_append, List.cons_append, skipComment.eq_def]
    simpa using ih hcs.of_cons.of_cons
  | case5 c cs hline hslash ih =>
    rw [List.cons_append, skipComment.eq_def]
    simpa [hline, hslash] using ih hcs.of_cons

/-- A newline ends a statement as the end of the text does. What is left then is read the same way,
whether this newline is read already or not. -/
theorem exists_statement_append_newline {ws : Statement} (h : statement cs = .ok (ws, rest))
    (hcs : EndsPlain cs) :
    ∃ behind, statement (cs ++ '\n' :: after) = .ok (ws, behind) ∧
      statements behind = statements (rest ++ '\n' :: after) := by
  fun_induction statement cs generalizing ws rest with
  | case1 cs hskip =>
    cases h
    refine ⟨after, ?_, (statements_separator rfl after).symm⟩
    rw [statement_eq, skipInline_append_newline after hcs, hskip]
    rfl
  | case2 cs c more hskip hc =>
    cases h
    refine ⟨more ++ '\n' :: after, ?_, rfl⟩
    rw [statement_eq, skipInline_append_newline after hcs, hskip]
    exact if_pos hc
  | case3 => simp at h
  | case4 cs c more hskip hc w next hw ih =>
    obtain ⟨ws', hs, rfl⟩ := prepend_eq_ok.1 h
    have hplain : EndsPlain (c :: more) := hskip ▸ hcs.of_suffix (suffix_skipInline cs)
    have hword : word (c :: (more ++ '\n' :: after)) = .ok (w, next ++ '\n' :: after) :=
      word_append_newline after hw hplain
    obtain ⟨behind, hbehind, hsame⟩ := ih hs (hplain.of_suffix (suffix_of_word hw))
    refine ⟨behind, ?_, hsame⟩
    rw [statement_eq, skipInline_append_newline after hcs, hskip]
    simp only [List.cons_append, hc, if_false, hword]
    exact prepend_eq_ok.2 ⟨ws', hbehind, rfl⟩

/-! ### Scripts -/

theorem addStatement_append (s : Statement) (ss more : List Statement) :
    addStatement s (ss ++ more) = addStatement s ss ++ more := by
  unfold addStatement
  split <;> rfl

theorem statements_append_newline {ss : List Statement} (h : statements cs = .ok ss)
    (hcs : EndsPlain cs) :
    statements (cs ++ '\n' :: after) = (statements after).map (ss ++ ·) := by
  have hline : statements ('\n' :: after) = statements after := statements_separator rfl after
  fun_induction statements cs generalizing ss with
  | case1 cs hdrop =>
    cases h
    rw [statements_separators (by simpa using hdrop), hline]
    cases statements after <;> rfl
  | case2 cs more hdrop ih =>
    have hplain : EndsPlain more :=
      (hdrop ▸ hcs.of_suffix (List.dropWhile_suffix isSeparator)).of_cons
    rw [statements_eq, List.dropWhile_append, hdrop]
    simp only [List.isEmpty_cons, Bool.false_eq_true, if_false, List.cons_append, if_true]
    rw [statements_skipComment_append_newline after hplain]
    exact ih h (hplain.of_suffix (suffix_skipComment more))
  | case3 => simp at h
  | case4 cs c more hdrop hc s behind hs ih =>
    obtain ⟨ss', hss, rfl⟩ := map_eq_ok_iff.1 h
    have hplain : EndsPlain (c :: more) := hdrop ▸ hcs.of_suffix (List.dropWhile_suffix isSeparator)
    obtain ⟨next, hnext, hsame⟩ := exists_statement_append_newline after hs hplain
    have hbehind := ih hss (hplain.of_suffix (suffix_of_statement hs))
    rw [List.cons_append] at hnext
    rw [statements_eq, List.dropWhile_append, hdrop]
    simp only [List.isEmpty_cons, Bool.false_eq_true, if_false, List.cons_append, hc, hnext]
    rw [hsame, hbehind]
    cases statements after with
    | error e => rfl
    | ok more => simp [Except.map, addStatement_append]

/-- A script that is read as a whole and does not end in a backslash can be followed by a newline and
any other text: that text is read as if it stood alone, and its statements come after those of
the script. -/
theorem parse_append_newline {a : String} {ss : List Statement} (h : parse a = .ok ss)
    (hend : a.toList.getLast? ≠ some '\\') (b : String) :
    parse (a ++ "\n" ++ b) = (parse b).map (ss ++ ·) := by
  have htext : (a ++ "\n" ++ b).toList = a.toList ++ '\n' :: b.toList := by simp
  rw [parse, htext]
  exact statements_append_newline b.toList h hend

/-- The first script ends in a comment with a hidden newline in it, the second one in an open quote. -/
theorem parse_append_newline_open_quote :
    parse "set x ${a}; # b \\\n c" = .ok [[[.text "set"], [.text "x"], [.variable "a"]]] ∧
      "set x ${a}; # b \\\n c".toList.getLast? ≠ some '\\' ∧
      parse ("set x ${a}; # b \\\n c" ++ "\n" ++ "puts \"y") = .error .missingQuote := by
  have ha : parse "set x ${a}; # b \\\n c" = .ok [[[.text "set"], [.text "x"], [.variable "a"]]] := by
    decide +kernel
  have hend : "set x ${a}; # b \\\n c".toList.getLast? ≠ some '\\' := by decide
  have hb : parse "puts \"y" = .error .missingQuote := by decide +kernel
  refine ⟨ha, hend, ?_⟩
  rw [parse_append_newline ha hend, hb]
  rfl

end ScriptHost.Script
