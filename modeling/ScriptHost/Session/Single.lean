import ScriptHost.Engine
import ScriptHost.Session.Report

/-!
# Single requests

Requests that need no session.
-/

namespace ScriptHost.Session

/-- The parts of the version. -/
def version : Report :=
  let v := Version.current
  [ ("major", .count v.major), ("minor", .count v.minor), ("serial", .count v.patch),
    ("release_level", .count 2), ("patchlevel", .text v.full) ]

/-- The words of a list, or why there are none. -/
def wordsOf (text : String) : Report × Option (List String) :=
  match WordList.split text with
  | .ok words => (Report.ok (.texts words), some words)
  | .error e => (Report.completion (.fail e.message), none)

/-- Split a list and write its words again. -/
def splitList (text : String) : Report :=
  match wordsOf text with
  | (report, some words) => report ++ [("merged", .text (WordList.merge words))]
  | (report, none) => report

/-- Write a list and split it again. -/
def mergeList (words : List String) : Report :=
  let text := WordList.merge words
  Report.ok (.text text) ++ [("split", .record (wordsOf text).1)]

/-- The written form of a word. -/
def quoteElement (text : String) : Report :=
  Report.ok (.text (WordList.quote text))

/-- The code that a text denotes. -/
def code (text : String) : Report :=
  match Code.ofText? text with
  | some c =>
    Report.ok (.record [("name", .text c.name), ("number", .count c.number)])
  | none => Report.done

/-- Two sets of flags compared. -/
def flags (a b : Nat) : Report :=
  let a := EventFlags.ofBits a
  let b := EventFlags.ofBits b
  [ ("a", .count a.bits), ("b", .count b.bits), ("or", .count (a.union b).bits),
    ("contains", .truth (a.contains b)), ("intersects", .truth (a.intersects b)),
    ("default", .count EventFlags.default.bits) ]

/-- An outcome as a completion and back. -/
def outcome (o : Outcome) : Report :=
  match o.completion with
  | .ok completion =>
    [ ("foreign", .record (Report.completion completion)),
      ("back", .record (Report.outcome (.ofCompletion completion))) ]
  | .error signal => Report.halt (.unwind signal)

/-- An abrupt end in all its forms. -/
def abrupt (e : Abrupt) : Report :=
  [ ("display", .text e.value), ("is_error", .truth (e.code = .error)),
    ("bridge_error", .record (Report.error (.ofAbrupt e))),
    ("outcome", .record (Report.outcome (.ofCompletion (.error e)))) ]

/-- An error of a call in all its forms. -/
def hostError (e : HostError) : Report :=
  [ ("bridge_error", .record (Report.error e)), ("is_fatal", .truth e.isFatal),
    ("outcome", .record (Report.outcome e.outcome)) ]

/-- Evaluate a script in a new interpreter. -/
def evalOnce (files : Machine.Files) (safe raw : Bool) (script : String) : Report :=
  let (i, w) := ({ files } : World).newInterp "" safe none
  let act : Act Report := do
    let completion ← if raw then engine.call (.script i script) else evalFrom engine i script
    return Report.completion completion
  let (report, w) := reportOf act w
  report ++ Report.printed w

end ScriptHost.Session
