/-!
# Patterns

A star in a pattern stands for any characters, a question mark for any one character, and every
other character for itself. A star that meets a star in the text takes it for itself.
-/

namespace ScriptHost.Glob

/-- How far a pattern can be followed without trying a star. -/
inductive Segment
  | done (fits : Bool)
  | star (pattern text : List Char)
  | mismatch
deriving DecidableEq, Repr

/-- Follow a pattern up to the end of the text, to a star or to the first mismatch. -/
def segment : List Char → List Char → Segment
  | pattern, [] => .done (pattern.all (· = '*'))
  | [], _ :: _ => .mismatch
  | p :: pattern, c :: text =>
    if p = '?' || p = c then segment pattern text
    else if p = '*' then .star pattern (c :: text)
    else .mismatch

theorem length_segment_star {pattern text pattern' text' : List Char}
    (h : segment pattern text = .star pattern' text') :
    pattern'.length < pattern.length ∧ text'.length ≤ text.length := by
  fun_induction segment pattern text with
  | case1 => simp at h
  | case2 => simp at h
  | case3 _ _ _ _ _ ih =>
    have := ih h
    simp only [List.length_cons]
    omega
  | case4 => cases h; simp
  | case5 => simp at h

/-- Try a pattern behind a star at the text and at all its ends, the longest first. A later star
settles what the earlier ones take. -/
def search (pattern text : List Char) : Bool :=
  match _h : segment pattern text with
  | .done fits => fits
  | .star pattern' text' => search pattern' text'
  | .mismatch =>
    match text with
    | [] => false
    | _ :: text => search pattern text
termination_by pattern.length + text.length
decreasing_by
  · have := length_segment_star _h
    omega
  · simp

/-- Whether a pattern fits a text. -/
def isMatch (pattern text : String) : Bool :=
  match segment pattern.toList text.toList with
  | .done fits => fits
  | .star pattern text => search pattern text
  | .mismatch => false

end ScriptHost.Glob
