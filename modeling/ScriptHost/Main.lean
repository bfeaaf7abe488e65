import ScriptHost.Cli.Program

/-!
# The command line program

Takes the arguments, the environment and the files of the working directory, runs the program and
prints what it has to say.
-/

open ScriptHost

/-- The files of the working directory that hold text. -/
def readFiles : IO Machine.Files := do
  let mut files : Machine.Files := .empty
  for entry in ← (← IO.currentDir).readDir do
    let text ← (IO.FS.readFile entry.path).toBaseIO
    match text with
    | .ok text => files := files.insert entry.fileName text
    | .error _ => pure ()
  return files

/-- Run the program. -/
def main (args : List String) : IO UInt32 := do
  let timer ← IO.getEnv Cli.Settings.timerVariable
  let ran := Cli.run (← readFiles) timer args
  (← IO.getStdout).putStr ran.stdout
  (← IO.getStderr).putStr ran.stderr
  return ran.status.toUInt32
