import ScriptHost.Cli.Job
import ScriptHost.Cli.Json

/-!
# Stress

Many threads call one worker. Every call counts in the interpreter and asks a closure of the host
for twice its number, so that calls that are lost or mixed up show.
-/

namespace ScriptHost.Cli.Stress

/-- What came of a run. -/
structure Result where
  threads : Nat
  count : Nat
  elapsedTicks : Nat
  counter : String
  mismatched : Nat
  mailbox : Mailbox

/-- Make the calls of one thread from a number on, and count the wrong answers. -/
def calls (h : HandleId) (id : String) (next : Nat) : Nat → Act (Except HostError Nat)
  | 0 => return .ok 0
  | left + 1 => do
    match ← Handle.evaluate engine h s!"incr counter; {Callbacks.command id} {next}" with
    | .error error => return .error error
    | .ok value =>
      let wrong := if value = toString (next * 2) then 0 else 1
      return (← calls h id (next + 1) left).map (wrong + ·)

/-- Make the calls of all threads, and count the wrong answers. -/
def callers (h : HandleId) (id : String) (count : Nat) : Nat → Act (Except HostError Nat)
  | 0 => return .ok 0
  | left + 1 => do
    let (t, w) := (← get).newThread
    set w
    let result ← asThread t (calls h id 0 count)
    modify fun w => w.endThread t
    match result with
    | .error error => return .error error
    | .ok wrong => return (← callers h id count left).map (wrong + ·)

/-- Run many calls on a new worker. -/
def measure (settings : Settings) (threads count : Nat) : Job Result := do
  let h ← (Worker.spawn settings.interpreter : Act HandleId)
  let _ ← Job.call (Handle.evaluate engine h "set counter 0")
  let id ← Job.call (Handle.register h .double)
  let started := (← get).clock
  let mismatched ← Job.call (callers h id count threads)
  let elapsedTicks := (← get).clock - started
  let counter ← Job.call (Handle.run engine h (.job (.getVar "counter")))
  let mailbox := (((← get).handles.get? h).map (·.mailbox)).getD {}
  let owner := (← get).ownerOf h
  Job.call (Worker.shutdown engine owner h)
  let counter :=
    match counter with
    | .optional value => value.getD ""
    | _ => ""
  return { threads, count, elapsedTicks, counter, mismatched, mailbox }

namespace Result

/-- The number of calls. -/
def total (r : Result) : Nat :=
  r.threads * r.count

/-- How long the calls took, in milliseconds. -/
def elapsedMs (r : Result) : Nat :=
  r.elapsedTicks / milliseconds 1

/-- How many calls there were in a second. -/
def perSecond (r : Result) : Nat :=
  r.total * milliseconds 1000 / max 1 r.elapsedTicks

/-- Whether every call was answered as it should be. -/
def isSound (r : Result) : Bool :=
  r.mismatched == 0 && r.counter == toString r.total

/-- The result in lines. -/
def lines (r : Result) : List String :=
  [ "Stress Run",
    "==========",
    "",
    s!"Threads:      {r.threads}",
    s!"Per thread:   {r.count}",
    s!"Elapsed:      {r.elapsedMs} ms",
    s!"Throughput:   {r.perSecond} commands/s",
    s!"Counter:      {r.counter}",
    s!"Mismatched:   {r.mismatched}",
    "",
    "Dispatch:",
    s!"  Submitted:  {r.mailbox.submitted}",
    s!"  Completed:  {r.mailbox.completed}",
    s!"  Failed:     {r.mailbox.failed}" ]

/-- The result in JSON. -/
def json (r : Result) : Json :=
  .object
    [ ("threads", .number r.threads),
      ("count", .number r.count),
      ("elapsed_ms", .number r.elapsedMs),
      ("commands_per_sec", .number r.perSecond),
      ("counter", .text r.counter),
      ("mismatched", .number r.mismatched),
      ("dispatch", .object
        [ ("submitted", .number r.mailbox.submitted),
          ("completed", .number r.mailbox.completed),
          ("failed", .number r.mailbox.failed) ]) ]

end Result

/-- Run many calls on a new worker and tell what came of it. -/
def run (settings : Settings) (threads count : Nat) (json : Bool) : Job Unit := do
  if threads = 0 then throw (.message "--threads must be at least 1")
  let result ← measure settings threads count
  if json then Job.printLine (result.json.render 0) else result.lines.forM Job.printLine
  if !result.isSound then throw (.message "stress run lost or mixed up results")

end ScriptHost.Cli.Stress
