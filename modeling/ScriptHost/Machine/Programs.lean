import ScriptHost.Machine.Files

/-!
# Programs

The programs that scripts may execute: printing, reading files, and a shell for sequences of such
commands. A program answers what it printed and how it ended.
-/

namespace ScriptHost.Machine

/-- How a program ended. -/
inductive Status
  | exited (code : Nat)
  | signaled (number : Nat)
deriving DecidableEq, Repr

/-- What a program printed and how it ended. -/
structure Execution where
  stdout : String := ""
  stderr : String := ""
  status : Status := .exited 0
deriving DecidableEq, Repr

/-- The names of signals. -/
def signalNames : Table Nat String :=
  ⟨[ (1, "SIGHUP"), (2, "SIGINT"), (3, "SIGQUIT"), (4, "SIGILL"), (5, "SIGTRAP"),
    (6, "SIGABRT"), (7, "SIGBUS"), (8, "SIGFPE"), (9, "SIGKILL"), (10, "SIGUSR1"),
    (11, "SIGSEGV"), (12, "SIGUSR2"), (13, "SIGPIPE"), (14, "SIGALRM"), (15, "SIGTERM") ]⟩

/-- The text of a status. -/
def Status.message : Status → String
  | .exited code => s!"exit status: {code}"
  | .signaled number =>
    match signalNames.get? number with
    | some name => s!"signal: {number} ({name})"
    | none => s!"signal: {number}"

/-- The output of a format, whose backslash sequences and places for arguments are filled in. -/
def formatted : List Char → List String → List Char
  | [], _ => []
  | '\\' :: 'n' :: rest, args => '\n' :: formatted rest args
  | '\\' :: 't' :: rest, args => '\t' :: formatted rest args
  | '\\' :: '\\' :: rest, args => '\\' :: formatted rest args
  | '%' :: '%' :: rest, args => '%' :: formatted rest args
  | '%' :: 's' :: rest, args => (args.headD "").toList ++ formatted rest args.tail
  | '%' :: 'd' :: rest, args => (args.headD "0").toList ++ formatted rest args.tail
  | c :: rest, args => c :: formatted rest args

/-- The texts of some files, with complaints about those that cannot be read. -/
def concatenate (files : Files) (paths : List String) : Execution :=
  paths.foldl (fun ran path =>
    match lookup files path with
    | .ok (.file text) => { ran with stdout := ran.stdout ++ text }
    | .ok .directory =>
      { ran with stderr := ran.stderr ++ s!"cat: {path}: Is a directory\n", status := .exited 1 }
    | .error _ =>
      { ran with
        stderr := ran.stderr ++ s!"cat: {path}: No such file or directory\n"
        status := .exited 1 }) {}

/-- A program other than the shell. -/
def runProgram (files : Files) (name : String) (args : List String) : Option Execution :=
  match name with
  | "echo" =>
    match args with
    | "-n" :: args => some { stdout := " ".intercalate args }
    | args => some { stdout := " ".intercalate args ++ "\n" }
  | "printf" =>
    match args with
    | [] => some { stderr := "printf: usage: printf format [arguments]\n", status := .exited 2 }
    | format :: args => some { stdout := String.ofList (formatted format.toList args) }
  | "true" | ":" => some {}
  | "false" => some { status := .exited 1 }
  | "cat" => some (concatenate files args)
  | "ls" =>
    let names := (files.keys.map fun name => (name.splitOn "/").headD "").eraseDups
    some { stdout := String.join ((names.mergeSort fun a b => a ≤ b).map fun n => n ++ "\n") }
  | _ => none

/-! ### The shell -/

/-- A piece of a shell script. -/
inductive ShellToken
  | word (text : String)
  | operator (text : String)
deriving DecidableEq, Repr

/-- Where the shell stands while it reads a word. -/
inductive Quoting
  | bare
  | single
  | double
deriving DecidableEq, Repr

/-- Close the word that is being read, if there is one. -/
def closeWord (word : Option (List Char)) (tokens : List ShellToken) : List ShellToken :=
  match word with
  | some cs => .word (String.ofList cs.reverse) :: tokens
  | none => tokens

/-- Put a character onto the word that is being read. -/
def extend (word : Option (List Char)) (c : Char) : Option (List Char) :=
  some (c :: word.getD [])

/-- The tokens of a shell script. -/
def shellTokens (mode : Quoting) (word : Option (List Char)) : List Char → List ShellToken
  | [] => closeWord word []
  | c :: rest =>
    match mode with
    | .single =>
      if c = '\x27' then shellTokens .bare (some (word.getD [])) rest
      else shellTokens .single (extend word c) rest
    | .double =>
      if c = '"' then shellTokens .bare (some (word.getD [])) rest
      else shellTokens .double (extend word c) rest
    | .bare =>
      if c = '\x27' then shellTokens .single (some (word.getD [])) rest
      else if c = '"' then shellTokens .double (some (word.getD [])) rest
      else if c = ' ' || c = '\t' then closeWord word (shellTokens .bare none rest)
      else if c = ';' || c = '\n' then
        closeWord word (.operator ";" :: shellTokens .bare none rest)
      else
        match c, rest with
        | '&', '&' :: rest => closeWord word (.operator "&&" :: shellTokens .bare none rest)
        | '|', '|' :: rest => closeWord word (.operator "||" :: shellTokens .bare none rest)
        | '\\', d :: rest => shellTokens .bare (extend word d) rest
        | c, rest => shellTokens .bare (extend word c) rest

/-- What the shell has done so far. -/
structure ShellState where
  ran : Execution := {}
  /-- Whether the shell has ended. -/
  ended : Bool := false

/-- The code of a status as the shell sees it. -/
def Status.code : Status → Nat
  | .exited code => code
  | .signaled number => 128 + number

/-- Where the output of a command goes. -/
structure Redirect where
  outToError : Bool := false
  dropOut : Bool := false
  dropError : Bool := false

/-- Take the redirections out of the words of a command. -/
def redirections : List String → List String × Redirect
  | [] => ([], {})
  | word :: rest =>
    let (words, redirect) := redirections rest
    if word = ">&2" ∨ word = "1>&2" then (words, { redirect with outToError := true })
    else if word = ">/dev/null" then (words, { redirect with dropOut := true })
    else if word = "2>/dev/null" then (words, { redirect with dropError := true })
    else (word :: words, redirect)

/-- Run one command of the shell. -/
def shellCommand (files : Files) (state : ShellState) (words : List String) : ShellState :=
  let (words, redirect) := redirections words
  let finish (ran : Execution) : ShellState :=
    let out := if redirect.dropOut then "" else ran.stdout
    let error := if redirect.dropError then "" else ran.stderr
    let (out, error) := if redirect.outToError then ("", out ++ error) else (out, error)
    { state with
      ran :=
        { stdout := state.ran.stdout ++ out
          stderr := state.ran.stderr ++ error
          status := ran.status } }
  match words with
  | [] => state
  | ["exit"] => { state with ended := true }
  | "exit" :: code :: _ =>
    { ran := { state.ran with status := .exited (code.toNat?.getD 2 % 256) }, ended := true }
  | ["kill", signal, "$$"] =>
    let number := (String.ofList (signal.toList.drop 1)).toNat?.getD 15
    { ran := { state.ran with status := .signaled number }, ended := true }
  | ["kill", "$$"] => { ran := { state.ran with status := .signaled 15 }, ended := true }
  | name :: args =>
    match runProgram files name args with
    | some ran => finish ran
    | none => finish { stderr := s!"sh: 1: {name}: not found\n", status := .exited 127 }

/-- Run the tokens of a shell script; `skip` passes the command over that is being read. -/
def shellRun (files : Files) (state : ShellState) (words : List String) (skip : Bool) :
    List ShellToken → ShellState
  | [] =>
    if state.ended || skip then state else shellCommand files state words
  | .word text :: rest => shellRun files state (words ++ [text]) skip rest
  | .operator op :: rest =>
    let state := if state.ended || skip then state else shellCommand files state words
    let failed := state.ran.status.code ≠ 0
    let skip := (op = "&&" && failed) || (op = "||" && !failed)
    shellRun files state [] skip rest

/-- What executing a program does; the name of a program may be a path to it. -/
def execute (files : Files) (program : String) (args : List String) :
    Except String Execution :=
  if (program :: args).any fun word => word.toList.contains '\x00' then
    .error "nul byte found in provided data"
  else
    let name :=
      match program.splitOn "/" with
      | ["", "bin", name] => name
      | ["", "usr", "bin", name] => name
      | _ => program
    match name, args with
    | "sh", "-c" :: script :: _ =>
      .ok (shellRun files {} [] false (shellTokens .bare none script.toList)).ran
    | "sh", [] => .ok {}
    | name, args =>
      match if name = ":" then none else runProgram files name args with
      | some ran => .ok ran
      | none => .error FileError.notFound.message

end ScriptHost.Machine
