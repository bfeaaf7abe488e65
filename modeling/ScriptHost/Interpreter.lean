import ScriptHost.Agenda
import ScriptHost.Mailbox
import ScriptHost.Table

/-!
# Interpreters

An interpreter holds commands, a stack of variable frames, children and scheduled scripts. The
innermost frame comes first and the global frame last.
-/

namespace ScriptHost

/-- The commands that every interpreter starts with, apart from those that reach the system. -/
inductive Builtin
  | after
  | append
  | breakLoop
  | catchCode
  | concat
  | continueLoop
  | raise
  | expression
  | forLoop
  | forEach
  | global
  | ifElse
  | incr
  | info
  | interp
  | join
  | lappend
  | lindex
  | list
  | llength
  | proc
  | puts
  | returnValue
  | set
  | split
  | string
  | subst
  | unset
  | update
  | vwait
  | whileLoop
  | exec
  | file
  | source
deriving DecidableEq, Repr

/-- The commands of a safe interpreter, sorted by name. -/
def Builtin.safe : List (String × Builtin) :=
  [ ("after", .after), ("append", .append), ("break", .breakLoop), ("catch", .catchCode),
    ("concat", .concat), ("continue", .continueLoop), ("error", .raise), ("expr", .expression),
    ("for", .forLoop), ("foreach", .forEach), ("global", .global), ("if", .ifElse),
    ("incr", .incr), ("info", .info), ("interp", .interp), ("join", .join),
    ("lappend", .lappend), ("lindex", .lindex), ("list", .list), ("llength", .llength),
    ("proc", .proc), ("puts", .puts), ("return", .returnValue), ("set", .set),
    ("split", .split), ("string", .string), ("subst", .subst), ("unset", .unset),
    ("update", .update), ("vwait", .vwait), ("while", .whileLoop) ]

/-- The commands that a safe interpreter lacks. -/
def Builtin.restricted : List (String × Builtin) :=
  [("exec", .exec), ("file", .file), ("source", .source)]

/-- A formal parameter with its default. -/
structure Param where
  name : String
  default : Option String
deriving DecidableEq, Repr

/-- A procedure. -/
structure Procedure where
  params : List Param
  body : String
  /-- How a call looks, for the complaint about a wrong number of arguments. -/
  usage : String
deriving DecidableEq, Repr

/-- What a command made by the host does when it is called. -/
inductive Behaviour
  | args
  | complete (code : Code) (value : String)
  | eval (script : String)
  | evalRaw (script : String)
  | invokeArgs
  | evalCode (script : String)
  | busy
  | getVar
  | setVar
  | unsetVar
  | deleteCommand
  | log
  | delete
deriving DecidableEq, Repr

/-- What a command name stands for. -/
inductive Command
  | builtin (builtin : Builtin)
  | procedure (procedure : Procedure)
  | host (behaviour : Behaviour)
  /-- Call a closure registered with a handle. -/
  | callback (handle : HandleId)
  /-- Hand code to the evaluator of a handle. -/
  | evaluator (handle : HandleId)
deriving DecidableEq, Repr

/-- The variables of one procedure call, or the global ones. -/
structure Frame where
  vars : Table String String := .empty
  /-- Names that stand for global variables. -/
  globals : List String := []

/-- Settings of a handle. -/
structure HandleConfig where
  timerMs : Nat := 5
  waitTimeoutMs : Option Nat := none
  safe : Bool := false
deriving DecidableEq, Repr

/-- What happens when an interpreter is deleted. -/
inductive DeleteHook
  /-- Write the label and the state of the interpreter to the log. -/
  | log (label : String)
  /-- Forget the handle of the interpreter. -/
  | untrack (handle : HandleId)
  /-- Delete an interpreter. -/
  | delete (interp : InterpId)
  /-- Install a hook on an interpreter. -/
  | watch (interp : InterpId) (hook : DeleteHook)
deriving DecidableEq, Repr

/-- What happens when an interpreter gets a child. -/
inductive ChildHook
  /-- Write the label and the child to the log. -/
  | log (label : String)
  /-- Make a handle for the child. -/
  | adopt (config : HandleConfig)
deriving DecidableEq, Repr

/-- A scheduled script of an interpreter in the agenda of its thread. -/
inductive AfterToken
  | timer (token : Token)
  | idle (token : Token)
deriving DecidableEq, Repr

/-- An interpreter. -/
structure Interpreter where
  /-- The name within the parent; empty for an interpreter without parent. -/
  name : String := ""
  safe : Bool := false
  deleted : Bool := false
  parent : Option InterpId := none
  commands : Table String Command := .empty
  /-- The innermost frame first, the global one last. -/
  frames : List Frame := [{}]
  /-- How often each global variable was written. -/
  writes : Table String Nat := .empty
  children : Table String InterpId := .empty
  nextChild : Nat := 0
  deleteHooks : List DeleteHook := []
  childHooks : List ChildHook := []
  /-- How many commands are running. -/
  depth : Nat := 0
  afters : Table String AfterToken := .empty
  nextAfter : Nat := 0

/-- The version of the command language. -/
structure Version where
  major : Nat
  minor : Nat
  patch : Nat
deriving DecidableEq, Repr

/-- The version of this library's command language. -/
def Version.current : Version := ⟨0, 1, 0⟩

/-- The version with its patch level. -/
def Version.full (v : Version) : String := s!"{v.major}.{v.minor}.{v.patch}"

/-- The version without its patch level. -/
def Version.short (v : Version) : String := s!"{v.major}.{v.minor}"

namespace Interpreter

/-- How many commands may be running in one interpreter. -/
def maxDepth : Nat := 1000

/-- The commands of a new interpreter. -/
def initialCommands (safe : Bool) : Table String Command :=
  ⟨(Builtin.safe ++ if safe then [] else Builtin.restricted).map fun (name, b) =>
    (name, .builtin b)⟩

/-- The global frame of a new interpreter. -/
def initialFrame : Frame :=
  { vars :=
      ⟨[("tcl_patchLevel", Version.current.full), ("tcl_version", Version.current.short)]⟩ }

/-- A new interpreter. -/
def fresh (name : String) (safe : Bool) (parent : Option InterpId) : Interpreter :=
  { name, safe, parent, commands := initialCommands safe, frames := [initialFrame] }

/-- Whether a command is running. -/
def isBusy (r : Interpreter) : Bool :=
  0 < r.depth

/-- The names of a table in sorted order. -/
def sortedNames {α : Type} (t : Table String α) : List String :=
  t.keys.mergeSort fun a b => a ≤ b

/-- The names of all commands in sorted order. -/
def commandNames (r : Interpreter) : List String :=
  sortedNames r.commands

/-- The names of all children in sorted order. -/
def childNames (r : Interpreter) : List String :=
  sortedNames r.children

/-- The ids of the scheduled scripts in sorted order. -/
def afterIds (r : Interpreter) : List String :=
  sortedNames r.afters

/-- A name without the prefix that makes it global. -/
def globalName (name : String) : String :=
  match name.toList with
  | ':' :: ':' :: rest => String.ofList rest
  | _ => name

/-- Whether a name has the prefix that makes it global. -/
def hasGlobalPrefix (name : String) : Bool :=
  match name.toList with
  | ':' :: ':' :: _ => true
  | _ => false

/-- How often a global variable was written. -/
def writeCount (r : Interpreter) (name : String) : Nat :=
  r.writes.getD (globalName name) 0

/-- Count a write of a global variable. -/
def countWrite (r : Interpreter) (name : String) : Interpreter :=
  { r with writes := r.writes.insert name (r.writes.getD name 0 + 1) }

/-- Whether a name means a global variable where the interpreter stands. -/
def refersGlobal (r : Interpreter) (name : String) : Bool :=
  hasGlobalPrefix name ||
    match r.frames with
    | [_] => true
    | top :: _ => top.globals.contains name
    | [] => true

/-- The global frame. -/
def globalFrame? (r : Interpreter) : Option Frame :=
  r.frames.getLast?

/-- Change the last element of a list. -/
def modifyLast {α : Type} (f : α → α) : List α → List α
  | [] => []
  | [a] => [f a]
  | a :: as => a :: modifyLast f as

/-- Change the global frame. -/
def modifyGlobal (r : Interpreter) (f : Frame → Frame) : Interpreter :=
  { r with frames := modifyLast f r.frames }

/-- Change the innermost frame. -/
def modifyTop (r : Interpreter) (f : Frame → Frame) : Interpreter :=
  { r with
    frames :=
      match r.frames with
      | [] => []
      | top :: rest => f top :: rest }

/-- The frame that holds a variable where the interpreter stands. -/
def frameOf? (r : Interpreter) (name : String) : Option Frame :=
  if r.refersGlobal name then r.globalFrame? else r.frames.head?

/-- Change the frame that holds a variable where the interpreter stands. -/
def modifyFrameOf (r : Interpreter) (name : String) (f : Frame → Frame) : Interpreter :=
  if r.refersGlobal name then r.modifyGlobal f else r.modifyTop f

/-- The value of a variable. -/
def var? (r : Interpreter) (name : String) : Option String :=
  (r.frameOf? name).bind fun frame => frame.vars.get? (globalName name)

/-- Set a variable; a write of a global one is counted. -/
def setVar (r : Interpreter) (name value : String) : Interpreter :=
  let written :=
    r.modifyFrameOf name fun frame =>
      { frame with vars := frame.vars.insert (globalName name) value }
  if r.refersGlobal name then written.countWrite (globalName name) else written

/-- Remove a variable. -/
def unsetVar (r : Interpreter) (name : String) : Interpreter :=
  r.modifyFrameOf name fun frame => { frame with vars := frame.vars.erase (globalName name) }

/-- The value of a global variable. -/
def global? (r : Interpreter) (name : String) : Option String :=
  r.globalFrame?.bind fun frame => frame.vars.get? (globalName name)

/-- Set a global variable. -/
def setGlobal (r : Interpreter) (name value : String) : Interpreter :=
  (r.modifyGlobal fun frame =>
    { frame with vars := frame.vars.insert (globalName name) value }).countWrite (globalName name)

/-- Remove a global variable. -/
def unsetGlobal (r : Interpreter) (name : String) : Interpreter :=
  r.modifyGlobal fun frame => { frame with vars := frame.vars.erase (globalName name) }

/-- Make a name in the innermost frame stand for the global variable. -/
def linkGlobal (r : Interpreter) (name : String) : Interpreter :=
  match r.frames with
  | top :: next :: rest =>
    { r with frames := { top with globals := name :: top.globals } :: next :: rest }
  | _ => r

/-- Enter a procedure call with its variables. -/
def enterCall (r : Interpreter) (vars : Table String String) : Interpreter :=
  { r with frames := { vars } :: r.frames }

/-- Leave a procedure call: the innermost frame goes. -/
def leaveCall (r : Interpreter) : Interpreter :=
  { r with frames := r.frames.tail }

/-- The frames of procedure calls, which are all but the global one. -/
def callFrames (r : Interpreter) : List Frame :=
  r.frames.dropLast

/-- Keep the global frame only. -/
def dropCalls (r : Interpreter) : Interpreter :=
  { r with frames := r.frames.getLast?.toList }

/-- Put the frames of procedure calls back on top of those that are there. -/
def restoreCalls (r : Interpreter) (saved : List Frame) : Interpreter :=
  { r with frames := saved ++ r.frames }

/-- The children in the order of their names. -/
def childIds (r : Interpreter) : List InterpId :=
  r.childNames.filterMap r.children.get?

/-- Begin to delete an interpreter: it counts as deleted and lets its children go. -/
def condemn (r : Interpreter) : Interpreter :=
  { r with deleted := true, children := .empty }

/-- Finish deleting an interpreter: its commands and variables go. -/
def wipe (r : Interpreter) : Interpreter :=
  { r with commands := .empty, frames := [{}] }

/-- The number of procedure calls around the innermost frame. -/
def level (r : Interpreter) : Nat :=
  r.frames.length - 1

/-- The first generated name from a number on that no child has, and the number after it. At most
as many names are taken as there are children. -/
def freeName (r : Interpreter) : Nat → Nat → String × Nat
  | 0, n => (s!"interp{n}", n + 1)
  | tries + 1, n =>
    if r.children.contains s!"interp{n}" then r.freeName tries (n + 1) else (s!"interp{n}", n + 1)

/-- A generated name for a child, and the interpreter that will not generate it again. -/
def generateName (r : Interpreter) : String × Interpreter :=
  let (name, next) := r.freeName r.children.size r.nextChild
  (name, { r with nextChild := next })

end Interpreter

end ScriptHost
