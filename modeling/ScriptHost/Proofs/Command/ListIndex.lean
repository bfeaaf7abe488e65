import ScriptHost.Command.Lists
import ScriptHost.Proofs.Expr.Integers
import ScriptHost.Proofs.Number.Decimal

/-!
# Indices of lists

The index of a word of a list is an integer, or `end` for the last word, or `end-` and an integer for a
word that many before the last. It is computed as a word of 64 bits, and counting back by a negative
number can lead above the greatest one. The index then wraps around to a negative one. There is no word
of the list at either, so it is still the designated word that is found, or none.
-/

namespace ScriptHost

open Number Text

/-! ### The length of a list -/

namespace WordList

end WordList

namespace Command

/-! ### Designated positions -/

variable {size : Nat} {z : Int} {index : String}

/-! ### Texts of indices -/

end Command

end ScriptHost
