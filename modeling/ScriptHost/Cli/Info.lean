import ScriptHost.Cli.Grammar
import ScriptHost.Cli.Job
import ScriptHost.Cli.Json

/-!
# Info

What the program tells about itself and its settings.
-/

namespace ScriptHost.Cli.Info

/-- What is told. -/
structure About where
  settings : Settings
  patchLevel : String

/-- The number of threads that are taken to be available. -/
def availableThreads : Nat := 4

/-- The release level of the command language. -/
def releaseLevel : String := "final"

namespace About

/-- What is told in lines. -/
def lines (about : About) : List String :=
  let settings := about.settings
  let source := settings.source.getD "(defaults)"
  let timeout := settings.interpreter.waitTimeoutMs.elim "none" fun ms => s!"{ms} ms"
  [ "tkbridge Runtime Information",
    "============================",
    "",
    s!"CLI Version:       {Grammar.version}",
    s!"Runtime Version:   {Version.current.short}",
    s!"Patchlevel:        {about.patchLevel}",
    s!"Release Level:     {releaseLevel}",
    s!"Threads:           {availableThreads}",
    "",
    "Configuration:",
    s!"  File:            {source}",
    s!"  Global timer:    {settings.globalTimerMs} ms",
    s!"  Timer interval:  {settings.interpreter.timerMs} ms",
    s!"  Wait timeout:    {timeout}",
    s!"  Safe:            {settings.interpreter.safe}" ]

/-- What is told in JSON. -/
def json (about : About) : Json :=
  let settings := about.settings
  .object
    [ ("cli_version", .text Grammar.version),
      ("runtime_version", .text Version.current.short),
      ("patchlevel", .text about.patchLevel),
      ("release_level", .text releaseLevel),
      ("available_threads", .number availableThreads),
      ("config_file", settings.source.elim .null .text),
      ("bridge", .object [("global_timer_interval_ms", .number settings.globalTimerMs)]),
      ("interpreter", .object
        [ ("timer_interval_ms", .number settings.interpreter.timerMs),
          ("wait_timeout_ms", settings.interpreter.waitTimeoutMs.elim .null .number),
          ("safe", .truth settings.interpreter.safe) ]) ]

end About

/-- Tell about the program and its settings. -/
def run (settings : Settings) (json : Bool) : Job Unit := do
  let h ← (Worker.create settings.interpreter : Act HandleId)
  let product ← Job.call (Handle.run engine h (.job (.getVar "tcl_patchLevel")))
  modify fun w => w.deleteHandle h
  let patchLevel :=
    match product with
    | .optional value => value.getD ""
    | _ => ""
  let about : About := { settings, patchLevel }
  if json then Job.printLine (about.json.render 0) else about.lines.forM Job.printLine

end ScriptHost.Cli.Info
