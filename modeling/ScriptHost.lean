import ScriptHost.Main
import ScriptHost.Session.Host
import ScriptHost.Session.Script
import ScriptHost.Session.Single
import ScriptHost.Proofs.WordList.RoundTrip
import ScriptHost.Proofs.World.Interps
import ScriptHost.Proofs.Frames.Machine
import ScriptHost.Proofs.Run.Action
import ScriptHost.Proofs.Run.Eval
import ScriptHost.Proofs.Run.World
import ScriptHost.Proofs.Run.Command
import ScriptHost.Proofs.Run.Invoke
import ScriptHost.Proofs.Run.Handle
import ScriptHost.Proofs.Run.Engine
import ScriptHost.Proofs.Run.Session
import ScriptHost.Proofs.Frames.Nonempty
import ScriptHost.Proofs.Handle.Fatal
import ScriptHost.Proofs.Dispatch.History
import ScriptHost.Proofs.Dispatch.Calls
import ScriptHost.Proofs.Dispatch.ExactlyOnce
import ScriptHost.Proofs.Frames.Depth
import ScriptHost.Proofs.Run.Leads
import ScriptHost.Proofs.Frames.Discipline
import ScriptHost.Proofs.Handle.Scope
import ScriptHost.Proofs.Script.Blanks
import ScriptHost.Proofs.Script.Literal
import ScriptHost.Proofs.World.Agendas
import ScriptHost.Proofs.World.Ledger
import ScriptHost.Proofs.Run.Course
import ScriptHost.Proofs.Run.Calls
import ScriptHost.Proofs.Handle.Amend
import ScriptHost.Proofs.Handle.Books
import ScriptHost.Proofs.Handle.Adopt
import ScriptHost.Proofs.Handle.Bookkeeping
import ScriptHost.Proofs.Handle.Agreement
import ScriptHost.Proofs.World.Removal
import ScriptHost.Proofs.World.Trees
import ScriptHost.Proofs.World.Births
import ScriptHost.Proofs.World.DeleteHooks
import ScriptHost.Proofs.World.Scripts
import ScriptHost.Proofs.World.Teardown
import ScriptHost.Proofs.Handle.CutShort
import ScriptHost.Proofs.Handle.Outlived
import ScriptHost.Proofs.Frames.Busy
import ScriptHost.Proofs.Handle.PutOff
import ScriptHost.Proofs.Handle.Deletion
import ScriptHost.Proofs.Handle.Later
import ScriptHost.Proofs.World.Confined
import ScriptHost.Proofs.Run.Confinement
import ScriptHost.Proofs.World.Mail
import ScriptHost.Proofs.Handle.Account
import ScriptHost.Proofs.Handle.LoopEnd
import ScriptHost.Proofs.Run.Built
import ScriptHost.Proofs.Run.Proper
import ScriptHost.Proofs.World.Scene
import ScriptHost.Proofs.Run.Carry
import ScriptHost.Proofs.Run.Faithful
import ScriptHost.Proofs.Handle.Faithful
import ScriptHost.Proofs.Run.Escape
import ScriptHost.Proofs.Handle.Routes
import ScriptHost.Proofs.World.Enclosed
import ScriptHost.Proofs.Run.Enclosed
import ScriptHost.Proofs.Number.Decimal
import ScriptHost.Proofs.Expr.Reading
import ScriptHost.Proofs.Expr.RoundTrip
import ScriptHost.Proofs.Agenda.Exact
import ScriptHost.Proofs.Agenda.Order
import ScriptHost.Proofs.Stress.Paired
import ScriptHost.Proofs.Glob.Exact
import ScriptHost.Proofs.Run.Background
import ScriptHost.Proofs.Timetable.Machine
import ScriptHost.Proofs.Timetable.Booked
import ScriptHost.Proofs.Timetable.Exact
import ScriptHost.Proofs.Timetable.Host
import ScriptHost.Proofs.Loop.Machine
import ScriptHost.Proofs.Loop.Tended
import ScriptHost.Proofs.Loop.Host
import ScriptHost.Proofs.Loop.Ends
import ScriptHost.Proofs.Expr.Integers
import ScriptHost.Proofs.Frames.Stores
import ScriptHost.Proofs.Frames.Tallies
import ScriptHost.Proofs.Frames.Writes
import ScriptHost.Proofs.Loop.Returns
import ScriptHost.Proofs.Number.Numeral
import ScriptHost.Proofs.Expr.Operand
import ScriptHost.Proofs.Expr.Spacing
import ScriptHost.Proofs.Expr.TextEquality
import ScriptHost.Proofs.Command.Variables
import ScriptHost.Proofs.Command.Counter
import ScriptHost.Proofs.WordList.Grammar
import ScriptHost.Proofs.Script.Lines
import ScriptHost.Proofs.Script.Brackets
import ScriptHost.Proofs.Command.ListIndex
import ScriptHost.Proofs.Script.Braces
import ScriptHost.Proofs.Command.Parameters
import ScriptHost.Proofs.Script.Progress
import ScriptHost.Proofs.Callbacks.Dispatch
import ScriptHost.Proofs.Naming.Search
import ScriptHost.Proofs.Naming.Unique
