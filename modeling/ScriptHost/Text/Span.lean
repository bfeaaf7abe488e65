/-!
# Spans of code points

A property of characters is stored as a list of closed spans of code points in increasing order.
-/

namespace ScriptHost.Text

/-- A closed span of code points. -/
abbrev Span := Nat × Nat

/-- Whether one of the spans holds the character. -/
def inSpans (spans : Array Span) (c : Char) : Bool :=
  spans.any fun (low, high) => low ≤ c.toNat && c.toNat ≤ high

end ScriptHost.Text
