import ScriptHost.Command.Basic
import ScriptHost.Machine.Programs

/-!
# Commands that reach the system

Safe interpreters lack these commands.
-/

namespace ScriptHost.Command

/-- A text without one newline at its end. -/
def dropNewline (text : String) : String :=
  match text.toList.reverse with
  | '\n' :: rest => String.ofList rest.reverse
  | _ => text

/-- Execute a program and answer what it printed. -/
def exec : List String → Exec String
  | [] => Exec.wrongArgs "exec arg ?arg ...?"
  | program :: args => do
    match Machine.execute (← get).files program args with
    | .error reason => Exec.fail s!"couldn't execute \"{program}\": {reason}"
    | .ok ran =>
      if ran.status = .exited 0 then return dropNewline ran.stdout
      else if ran.stderr.isEmpty then
        Exec.fail s!"child process exited abnormally: {ran.status.message}"
      else Exec.fail (Text.trimEnd ran.stderr)

/-- Tell whether a file exists. -/
def file : List String → Exec String
  | [option, name] => do
    if option = "exists" then return truthText (Machine.fileExists (← get).files name)
    else Exec.fail s!"bad option \"{option}\": must be exists"
  | _ => Exec.wrongArgs "file exists name"

/-- Evaluate the script in a file; it may return early. -/
def source (e : Engine) (i : InterpId) : List String → Exec String
  | [name] => do
    match Machine.readFile (← get).files name with
    | .error error => Exec.fail s!"couldn't read file \"{name}\": {error.message}"
    | .ok script =>
      match ← (e.script i script).observe with
      | .ok value => return value
      | .error end_ => if end_.code = .returning then return end_.value else throw end_
  | _ => Exec.wrongArgs "source fileName"

end ScriptHost.Command
