import ScriptHost.Outcome

/-!
# Mailboxes

Work for an interpreter that comes from another thread waits in the mailbox of its handle until
the owning thread takes it out. The counters also cover work that runs in place.
-/

namespace ScriptHost

/-- Names an interpreter. -/
abbrev InterpId := Nat

/-- Names a handle. -/
abbrev HandleId := Nat

/-- Names a reply that a caller waits for. -/
abbrev ReplyId := Nat

/-- Names a thread. -/
abbrev ThreadId := Nat

/-- What a handle may ask of its interpreter besides running a script or a command. -/
inductive Job
  | getVar (name : String)
  | setVar (name value : String)
  | unsetVar (name : String)
  | evalOutcome (script : String)
  | describe
  | fail (error : HostError)
  | panic (text : String)
  | log (label : String)
  | createChild (name : String) (safe : Bool)
deriving DecidableEq, Repr

/-- Work for the thread that owns an interpreter. -/
inductive Work
  | eval (script : String)
  | invoke (words : List String)
  | job (job : Job)
deriving DecidableEq, Repr

/-- What work produced. -/
inductive Product
  | none
  | text (value : String)
  | optional (value : Option String)
  | truth (value : Bool)
  | outcome (value : Outcome)
  | handle (id : HandleId)
deriving DecidableEq, Repr

/-- The text of a product, where there is one. -/
def Product.text? : Product → Option String
  | .text value => some value
  | _ => .none

/-- What the caller of some work is told. -/
abbrev Envelope := Except HostError Product

/-- Whether an envelope reports a failure. -/
def Envelope.failed : Envelope → Bool
  | .ok _ => false
  | .error _ => true

/-- Work in a mailbox, with the reply that its caller waits for, if any. -/
structure Queued where
  work : Work
  reply : Option ReplyId
deriving DecidableEq, Repr

/-- The work that waits for an interpreter, the oldest first, and what became of all work. -/
structure Mailbox where
  queue : List Queued := []
  /-- Work handed to the interpreter, from any thread. -/
  submitted : Nat := 0
  /-- Work that finished, successfully or not. -/
  completed : Nat := 0
  /-- Work that finished with an error. -/
  failed : Nat := 0
deriving DecidableEq, Repr

namespace Mailbox

/-- Count work that is handed over. -/
def submit (m : Mailbox) : Mailbox :=
  { m with submitted := m.submitted + 1 }

/-- Count work that finished. -/
def finish (m : Mailbox) (failed : Bool) : Mailbox :=
  { m with completed := m.completed + 1, failed := m.failed + if failed then 1 else 0 }

/-- Append work. -/
def push (m : Mailbox) (queued : Queued) : Mailbox :=
  { m.submit with queue := m.queue ++ [queued] }

/-- Take the oldest work out. -/
def pop? (m : Mailbox) : Option (Queued × Mailbox) :=
  match m.queue with
  | [] => none
  | queued :: rest => some (queued, { m with queue := rest })

/-- Take all work out without finishing it. -/
def takeAll (m : Mailbox) : List Queued × Mailbox :=
  (m.queue, { m with queue := [] })

/-- Finish all waiting work as failed and answer it. -/
def drain (m : Mailbox) : List Queued × Mailbox :=
  (m.queue,
    { m with
      queue := []
      completed := m.completed + m.queue.length
      failed := m.failed + m.queue.length })

/-- The amount of work that is not finished. -/
def inFlight (m : Mailbox) : Nat :=
  m.submitted - m.completed

end Mailbox

end ScriptHost
