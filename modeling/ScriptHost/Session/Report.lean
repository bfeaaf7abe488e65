import ScriptHost.Act

/-!
# Reports

What a session tells about each of its steps: a record of named data.
-/

namespace ScriptHost.Session

/-- Data in a report. -/
inductive Datum
  | none
  | truth (value : Bool)
  | number (value : Int)
  | text (value : String)
  | list (items : List Datum)
  | record (fields : List (String × Datum))
deriving Inhabited

/-- What is told about one step. -/
abbrev Report := List (String × Datum)

namespace Datum

/-- A list of texts. -/
def texts (values : List String) : Datum :=
  .list (values.map .text)

/-- A text that may be missing. -/
def optional (value : Option String) : Datum :=
  value.elim .none .text

/-- A count. -/
def count (n : Nat) : Datum :=
  .number n

end Datum

namespace Report

/-- A step that answered something. -/
def ok (value : Datum) : Report := [("ok", value)]

/-- A step that answered nothing in particular. -/
def done : Report := ok .none

/-- A completion. -/
def completion : Completion → Report
  | .ok value => ok (.text value)
  | .error e => [("error", .text e.code.name), ("message", .text e.value)]

/-- The kind of an error. -/
def kindOf : HostError → String
  | .initialization _ => "Initialization"
  | .eval _ => "Eval"
  | .invalidArgument _ => "InvalidArgument"
  | .deleted => "Deleted"
  | .unknownCallback _ => "UnknownCallback"
  | .timeout => "Timeout"
  | .ownerGone => "OwnerGone"
  | .fatal _ => "Fatal"

/-- An error of a call. -/
def error (e : HostError) : Report :=
  [("error", .text (kindOf e)), ("message", .text e.message)]

/-- The result of a call. -/
def result {α : Type} (value : α → Datum) : Except HostError α → Report
  | .ok a => ok (value a)
  | .error e => error e

/-- An outcome. -/
def outcome : Outcome → Report
  | .normal value => [("outcome", .text "normal"), ("value", .optional value)]
  | .breaking => [("outcome", .text "break")]
  | .continuing => [("outcome", .text "continue")]
  | .returning value => [("outcome", .text "return"), ("value", .optional value)]
  | .error message => [("outcome", .text "error"), ("value", .text message)]
  | .fatal (.exit code) => [("outcome", .text "fatal"), ("exit", .number code)]
  | .fatal .interrupt => [("outcome", .text "fatal"), ("exit", .none)]

/-- What cut a step short. -/
def halt : Halt → Report
  | .unwind signal => [("unwind", .text signal.message)]
  | .panic payload => [("error", .text "panic"), ("message", .text payload.message)]
  | .stalled => [("error", .text "stalled")]

/-- A field that is told only if there is something to tell. -/
def noted (name : String) (value : String) : Report :=
  if value.isEmpty then [] else [(name, .text value)]

/-- What was printed. -/
def printed (w : World) : Report :=
  noted "stdout" w.stdout ++ noted "stderr" w.stderr

/-- What was logged. -/
def logged (w : World) : Report :=
  if w.log.isEmpty then [] else [("log", .texts w.log)]

/-- What is pending on the thread. -/
def pending (w : World) : Report :=
  ok (.record
    [ ("any", .truth w.agenda.hasPending), ("thread_events", .count w.agenda.events.length) ])

end Report

/-- The report of an action, and the state after it. -/
def reportOf (act : Act Report) (w : World) : Report × World :=
  match act w with
  | .ok report w => (report, w)
  | .error halt w => (Report.halt halt, w)

/-- Start to print anew. -/
def clearPrinted (w : World) : World :=
  { w with stdout := "", stderr := "" }

/-- Start to log anew. -/
def clearLogged (w : World) : World :=
  { w with log := [] }

end ScriptHost.Session
