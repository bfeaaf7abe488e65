import Mathlib.Algebra.Ring.Nat
import ScriptHost.Script.Parser
import ScriptHost.WordList

/-!
# What reading a script does to its blanks

Lists are written with regard to the blanks of ASCII. The reader of scripts skips all white space
before a statement. The white space that is no blank of a list is counted here: no reader makes
more of it than there is, so what was skipped cannot turn up again.
-/

namespace ScriptHost.Script

open Text WordList

/-- White space that lists do not know as a blank. -/
def isWide (c : Char) : Bool :=
  isBlank c && !isSpace c

/-- The number of wide blanks in a text. -/
def wide (cs : List Char) : Nat :=
  cs.countP isWide

@[simp] theorem wide_nil : wide [] = 0 := rfl

@[simp] theorem wide_cons (c : Char) (cs : List Char) :
    wide (c :: cs) = wide cs + (isWide c).toNat := by
  cases h : isWide c <;> simp [wide, h]

@[simp] theorem wide_append (cs ds : List Char) : wide (cs ++ ds) = wide cs + wide ds :=
  List.countP_append

theorem wide_dropWhile_le (p : Char → Bool) (cs : List Char) :
    wide (cs.dropWhile p) ≤ wide cs :=
  (List.dropWhile_sublist p).countP_le

/-! ### Braces, brackets and names -/

theorem wide_closeBrace_le {depth : Nat} {cs text rest : List Char}
    (h : closeBrace depth cs = some (text, rest)) : wide text + wide rest ≤ wide cs := by
  fun_induction closeBrace depth cs generalizing text rest with
  | case1 | case2 => simp at h
  | case4 =>
    cases h
    simp
  | case3 =>
    rename_i ih
    obtain ⟨⟨_, _⟩, hw, he⟩ := Option.map_eq_some_iff.1 h
    cases he
    have := ih hw
    simp only [wide_cons]
    omega
  | case5 =>
    rename_i ih
    obtain ⟨⟨_, _⟩, hw, he⟩ := Option.map_eq_some_iff.1 h
    cases he
    have := ih hw
    simp only [wide_cons]
    omega

theorem wide_closeBracket_le {depth braces : Nat} {cs text rest : List Char}
    (h : closeBracket depth braces cs = some (text, rest)) :
    wide text + wide rest ≤ wide cs := by
  fun_induction closeBracket depth braces cs generalizing text rest with
  | case1 | case2 => simp at h
  | case4 =>
    cases h
    simp
  | case3 =>
    rename_i ih
    obtain ⟨⟨_, _⟩, hw, he⟩ := Option.map_eq_some_iff.1 h
    cases he
    have := ih hw
    simp only [wide_cons]
    omega
  | case5 =>
    rename_i ih
    obtain ⟨⟨_, _⟩, hw, he⟩ := Option.map_eq_some_iff.1 h
    cases he
    have := ih hw
    simp only [wide_cons]
    omega

theorem wide_braced_le {cs rest : List Char} {text : String}
    (h : braced cs = .ok (text, rest)) : wide text.toList + wide rest ≤ wide cs := by
  unfold braced at h
  split at h
  · simp at h
  · next hc =>
    cases h
    simpa using wide_closeBrace_le hc

theorem wide_bracketed_le {cs rest : List Char} {text : String}
    (h : bracketed cs = .ok (text, rest)) : wide text.toList + wide rest ≤ wide cs := by
  unfold bracketed at h
  split at h
  · simp at h
  · next hc =>
    cases h
    simpa using wide_closeBracket_le hc

theorem wide_nameRun (cs : List Char) :
    wide (nameRun cs).1 + wide (nameRun cs).2 = wide cs := by
  fun_induction nameRun cs with
  | case1 | case4 | case5 => simp
  | case2 _ _ _ run ih =>
    simp only [wide_cons, run]
    omega
  | case3 =>
    rename_i run _ ih
    simp only [wide_cons, run]
    omega

theorem wide_variableName_le {cs rest : List Char} {name : Option String}
    (h : variableName cs = .ok (name, rest)) :
    wide (name.elim [] String.toList) + wide rest ≤ wide cs := by
  unfold variableName at h
  split at h
  · next cs' =>
    have hsplit : wide (cs'.takeWhile (· ≠ '}')) + wide (cs'.dropWhile (· ≠ '}')) = wide cs' := by
      rw [← wide_append, List.takeWhile_append_dropWhile]
    split at h
    · simp at h
    · next hd =>
      cases h
      rw [hd] at hsplit
      simp only [wide_cons, Option.elim, String.toList_ofList] at hsplit ⊢
      omega
  · have hrun := wide_nameRun cs
    split at h
    · cases h
      simp
    · next hn =>
      cases h
      rw [hn] at hrun
      simpa using Nat.le_of_eq hrun

/-! ### Words -/

/-- The number of wide blanks in a piece. -/
def Piece.wide : Piece → Nat
  | .char c => (isWide c).toNat
  | .variable name => Script.wide name.toList
  | .script source => Script.wide source.toList

/-- The number of wide blanks in a part. -/
def Part.wide : Part → Nat
  | .text value => Script.wide value.toList
  | .variable name => Script.wide name.toList
  | .script source => Script.wide source.toList

/-- The number of wide blanks in the words of a statement. -/
def Statement.wide (s : Statement) : Nat :=
  (s.map fun word => (word.map Part.wide).sum).sum

theorem isWide_escaped (c : Char) : (isWide (escaped c)).toNat ≤ (isWide c).toNat := by
  unfold escaped
  split
  case h_8 => exact Nat.le_refl _
  all_goals exact Nat.zero_le _

theorem wide_decodeEscape_le (cs : List Char) :
    (isWide (decodeEscape cs).1).toNat + wide (decodeEscape cs).2 ≤ wide cs := by
  unfold decodeEscape
  split
  · simp [isWide, isBlank]
  · next rest =>
    have hblank : isWide ' ' = false := rfl
    have := wide_dropWhile_le isIndent rest
    simp only [wide_cons, hblank, Bool.toNat_false]
    omega
  · next c rest _ =>
    have := isWide_escaped c
    simp only [wide_cons]
    omega

theorem wide_pieces_le {stop : Stop} {cs rest : List Char} {ps : List Piece}
    (h : pieces stop cs = .ok (ps, rest)) :
    (ps.map Piece.wide).sum + wide rest ≤ wide cs := by
  fun_induction pieces stop cs generalizing ps rest with
  | case1 | case6 | case9 => simp at h
  | case2 | case4 =>
    cases h
    simp
  | case3 =>
    cases h
    simp
  | case5 cs =>
    rename_i ih
    obtain ⟨_, hp, rfl⟩ := prepend_eq_ok.1 h
    have := ih hp
    have := wide_decodeEscape_le cs
    simp only [List.map_cons, List.sum_cons, Piece.wide, wide_cons]
    omega
  | case7 | case8 =>
    rename_i ih
    obtain ⟨_, hp, rfl⟩ := prepend_eq_ok.1 h
    have := ih hp
    have := wide_variableName_le ‹variableName _ = .ok _›
    simp only [List.map_cons, List.sum_cons, Piece.wide, wide_cons, Option.elim, wide_nil] at *
    simp_all [isWide, isBlank]
    omega
  | case10 =>
    rename_i ih
    obtain ⟨_, hp, rfl⟩ := prepend_eq_ok.1 h
    have := ih hp
    have := wide_bracketed_le ‹bracketed _ = .ok _›
    simp only [List.map_cons, List.sum_cons, Piece.wide, wide_cons]
    omega
  | case11 =>
    rename_i ih
    obtain ⟨_, hp, rfl⟩ := prepend_eq_ok.1 h
    have := ih hp
    simp only [List.map_cons, List.sum_cons, Piece.wide, wide_cons]
    omega

theorem wide_leadingText (ps : List Piece) :
    wide (leadingText ps).1 + ((leadingText ps).2.map Piece.wide).sum =
      (ps.map Piece.wide).sum := by
  fun_induction leadingText ps with
  | case1 c rest text rest' h ih =>
    simp only [h, List.map_cons, List.sum_cons, Piece.wide, wide_cons] at ih ⊢
    omega
  | case2 => simp

theorem wide_joinPieces (ps : List Piece) :
    ((joinPieces ps).map Part.wide).sum = (ps.map Piece.wide).sum := by
  fun_induction joinPieces ps with
  | case1 => rfl
  | case2 _ _ ih | case3 _ _ ih =>
    simp only [List.map_cons, List.sum_cons, Part.wide, Piece.wide, ih]
  | case4 c rest ih =>
    have := wide_leadingText rest
    simp only [List.map_cons, List.sum_cons, Part.wide, Piece.wide, ih, String.toList_ofList,
      wide_cons]
    omega

theorem wide_parts_le {stop : Stop} {cs rest : List Char} {w : Word}
    (h : parts stop cs = .ok (w, rest)) : (w.map Part.wide).sum + wide rest ≤ wide cs := by
  obtain ⟨⟨ps, _⟩, hp, heq⟩ := map_eq_ok_iff.1 h
  cases heq
  rw [wide_joinPieces]
  exact wide_pieces_le hp

theorem wide_word_le {cs rest : List Char} {w : Word} (h : word cs = .ok (w, rest)) :
    (w.map Part.wide).sum + wide rest ≤ wide cs := by
  unfold word at h
  split at h
  · split at h
    · simp at h
    · next hb =>
      split at h
      · cases h
        have := wide_braced_le hb
        simp only [List.map_cons, List.map_nil, List.sum_cons, List.sum_nil, Part.wide, wide_cons]
        omega
      · simp at h
  · split at h
    · simp at h
    · next hq =>
      split at h
      · cases h
        have := wide_parts_le hq
        simp only [wide_cons]
        omega
      · simp at h
  · exact wide_parts_le h

/-! ### Statements -/

theorem wide_skipInline_le (cs : List Char) : wide (skipInline cs) ≤ wide cs := by
  fun_induction skipInline cs with
  | case1 | case4 | case5 => simp
  | case2 _ _ _ ih =>
    simp only [wide_cons]
    omega
  | case3 =>
    rename_i ih
    simp only [wide_cons]
    omega

theorem wide_skipComment_le (cs : List Char) : wide (skipComment cs) ≤ wide cs := by
  fun_induction skipComment cs with
  | case1 | case2 | case3 => simp
  | case4 =>
    rename_i ih
    simp only [wide_cons]
    omega
  | case5 =>
    rename_i ih
    simp only [wide_cons]
    omega

theorem wide_statement_le {cs rest : List Char} {s : Statement}
    (h : statement cs = .ok (s, rest)) : s.wide + wide rest ≤ wide cs := by
  fun_induction statement cs generalizing s rest with
  | case1 cs hcs =>
    cases h
    simp [Statement.wide]
  | case2 cs c rest' hcs hc =>
    cases h
    have := wide_skipInline_le cs
    rw [hcs] at this
    simp only [wide_cons, Statement.wide, List.map_nil, List.sum_nil] at this ⊢
    omega
  | case3 => simp at h
  | case4 cs c rest' hcs hc w rest'' hw ih =>
    obtain ⟨s', hs, rfl⟩ := prepend_eq_ok.1 h
    have hskip := wide_skipInline_le cs
    rw [hcs] at hskip
    have hword := wide_word_le hw
    have := ih hs
    simp only [Statement.wide, List.map_cons, List.sum_cons] at this ⊢
    omega

/-- A script that is read has no more wide blanks in its words than there are in its text. -/
theorem wide_statements_le {cs : List Char} {ss : List Statement} (h : statements cs = .ok ss) :
    (ss.map Statement.wide).sum ≤ wide cs := by
  fun_induction statements cs generalizing ss with
  | case1 => cases h; simp
  | case2 cs rest hcs ih =>
    have hdrop := wide_dropWhile_le isSeparator cs
    rw [hcs] at hdrop
    have hskip := wide_skipComment_le rest
    have := ih h
    simp only [wide_cons] at hdrop
    omega
  | case3 => simp at h
  | case4 cs c rest hcs hc s rest' hs ih =>
    have hdrop := wide_dropWhile_le isSeparator cs
    rw [hcs] at hdrop
    have hstatement := wide_statement_le hs
    obtain ⟨ss', hrest, rfl⟩ := map_eq_ok_iff.1 h
    have := ih hrest
    unfold addStatement
    split
    · omega
    · simp only [List.map_cons, List.sum_cons]
      omega

end ScriptHost.Script
