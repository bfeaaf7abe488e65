/-!
# Backslash sequences

One character written with a backslash, as lists, words and quoted texts read it.
-/

namespace ScriptHost.Text

/-- Blanks that a backslash before a newline swallows behind it. -/
def isIndent (c : Char) : Bool :=
  c = ' ' || c = '\t'

/-- The character that a letter after a backslash stands for; most stand for themselves. -/
def escaped : Char → Char
  | 'n' => '\n'
  | 't' => '\t'
  | 'r' => '\r'
  | 'a' => '\x07'
  | 'b' => '\x08'
  | 'f' => '\x0c'
  | 'v' => '\x0b'
  | c => c

/-- The character that the text after a backslash begins with, and what follows it. A newline and
the blanks behind it are one space, and at the end of the text the backslash stands for itself. -/
def decodeEscape : List Char → Char × List Char
  | [] => ('\\', [])
  | '\n' :: rest => (' ', rest.dropWhile isIndent)
  | c :: rest => (escaped c, rest)

/-- A result that has been worked on comes from one before it. -/
theorem map_eq_ok_iff {ε α β : Type} {f : α → β} {result : Except ε α} {b : β} :
    result.map f = .ok b ↔ ∃ a, result = .ok a ∧ f a = b := by
  cases result <;> simp [Except.map]

theorem length_dropWhile_le {α : Type} (p : α → Bool) (xs : List α) :
    (xs.dropWhile p).length ≤ xs.length := by
  induction xs with
  | nil => simp
  | cons x xs ih =>
    by_cases h : p x
    · simpa [h] using Nat.le_succ_of_le ih
    · simp [h]

theorem length_decodeEscape_le (cs : List Char) : (decodeEscape cs).2.length ≤ cs.length := by
  unfold decodeEscape
  split
  · simp
  · simpa using Nat.le_succ_of_le (length_dropWhile_le _ _)
  · simp

end ScriptHost.Text
