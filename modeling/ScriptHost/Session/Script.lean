import ScriptHost.Engine
import ScriptHost.Session.Report

/-!
# Script sessions

A session on one thread that keeps interpreters under names and goes through steps.
-/

namespace ScriptHost.Session

/-- What a step does with the interpreter it names. -/
inductive ScriptAction
  | eval (script : String)
  | evalRaw (script : String)
  | invoke (words : List String)
  | getVar (name : String)
  | setVar (name value : String)
  | unsetVar (name : String)
  | command (name : String) (behaviour : Behaviour)
  | deleteCommand (name : String)
  | hasCommand (name : String)
  | commandNames
  | new (keep : String) (safe : Bool)
  | createChild (name : String) (safe : Bool) (keep : String)
  | child (name : String) (keep : String)
  | same (other : String)
  | info
  | delete
  | drop
  | onDelete (label : String)
  | onChild (label : String)
  | timer (ms : Nat) (label : String) (script : Option String)
  | idle (label : String) (script : Option String)
  | cancelTimer (label : String)
  | cancelIdle (label : String)
  | queue (label : String)
  | queueDead
  | alert
  | oneEvent (flags : Nat)
  | pending

/-- A step of a script session. -/
structure ScriptStep where
  target : String
  action : ScriptAction

/-- What a script session keeps under names. -/
structure ScriptSession where
  kept : Table String InterpId := .empty
  timers : Table String Token := .empty
  idles : Table String Token := .empty

/-- The interpreters that a handler refers to. -/
def Handler.interps : Handler → List InterpId
  | .after i _ _ => [i]
  | .delete i => [i]
  | .label i _ _ => [i]
  | .keepalive _ => []

/-- The interpreters that something other than a parent holds on to. -/
def holdings (session : ScriptSession) (w : World) : List InterpId :=
  session.kept.values ++
    w.agenda.timers.flatMap (fun t => Handler.interps t.handler) ++
    w.agenda.idle.flatMap fun entry => Handler.interps entry.2

/-- Whether an interpreter is held, by itself or through the parents above it. -/
def isHeld (roots : List InterpId) (w : World) : Nat → InterpId → Bool
  | 0, _ => false
  | fuel + 1, i =>
    roots.contains i ||
      match (w.interp i).parent with
      | some p => (w.interp p).children.values.contains i && isHeld roots w fuel p
      | none => false

/-- The name of the parent of an interpreter, if that is still held. -/
def parentName (session : ScriptSession) (w : World) (i : InterpId) : Option String :=
  (w.interp i).parent.bind fun p =>
    if isHeld (holdings session w) w w.interps.size p then some (w.interp p).name else none

/-- What an interpreter is like. -/
def describe (session : ScriptSession) (w : World) (i : InterpId) : Datum :=
  let r := w.interp i
  .record
    [ ("name", .text r.name), ("safe", .truth r.safe), ("deleted", .truth r.deleted),
      ("busy", .truth r.isBusy), ("children", .texts r.childNames),
      ("parent", .optional (parentName session w i)) ]

/-- Go through a step with the interpreter it names. -/
def ScriptAction.run (session : ScriptSession) (i : InterpId) (target : String) :
    ScriptAction → Act (Report × ScriptSession)
  | .eval script => do return (Report.completion (← evalFrom engine i script), session)
  | .evalRaw script => do
    return (Report.completion (← engine.call (.script i script)), session)
  | .invoke words => do return (Report.completion (← invokeFrom engine i words), session)
  | .getVar name => do return (Report.ok (.optional (← getGlobal i name)), session)
  | .setVar name value => do
    let completion ← (setGlobal i name value).run
    return (Report.completion completion, session)
  | .unsetVar name => do return (Report.ok (.truth (← unsetGlobal i name)), session)
  | .command name behaviour => do
    modify fun w => w.defineCommand i name (.host behaviour)
    return (Report.ok (.truth ((← getInterp i).commands.contains name)), session)
  | .deleteCommand name => do
    let existed := (← getInterp i).commands.contains name
    updateInterp i fun r => { r with commands := r.commands.erase name }
    return (Report.ok (.truth existed), session)
  | .hasCommand name => do
    return (Report.ok (.truth ((← getInterp i).commands.contains name)), session)
  | .commandNames => do return (Report.ok (.texts (← getInterp i).commandNames), session)
  | .new keep safe => do
    let (j, w) := (← get).newInterp "" safe none
    set w
    return (Report.done, { session with kept := session.kept.insert keep j })
  | .createChild name safe keep => do
    let (result, w) := (← get).createChild i name safe
    set w
    match result with
    | .ok j => return (Report.done, { session with kept := session.kept.insert keep j })
    | .error end_ => return (Report.completion (.error end_), session)
  | .child name keep => do
    match (← getInterp i).children.get? name with
    | some j =>
      return (Report.ok (.truth true), { session with kept := session.kept.insert keep j })
    | none => return (Report.ok (.truth false), session)
  | .same other => return (Report.ok (.truth (session.kept.get? other = some i)), session)
  | .info => do return (Report.ok (describe session (← get) i), session)
  | .delete => do
    modify fun w => w.delete i
    return (Report.done, session)
  | .drop => return (Report.done, { session with kept := session.kept.erase target })
  | .onDelete label => do
    modify fun w => w.callWhenDeleted i (.log label)
    return (Report.done, session)
  | .onChild label => do
    updateInterp i fun r => { r with childHooks := r.childHooks ++ [.log label] }
    return (Report.done, session)
  | .timer ms label script => do
    let w ← get
    let (token, agenda) := w.agenda.addTimer (w.clock + milliseconds ms) (.label i label script)
    set (w.setAgenda agenda)
    return (Report.done, { session with timers := session.timers.insert label token })
  | .idle label script => do
    let w ← get
    let (token, agenda) := w.agenda.addIdle (.label i label script)
    set (w.setAgenda agenda)
    return (Report.done, { session with idles := session.idles.insert label token })
  | .cancelTimer label => do
    let w ← get
    match session.timers.get? label with
    | some token =>
      let (cancelled, agenda) := w.agenda.cancelTimer token
      set (w.setAgenda agenda)
      return (Report.ok (.truth cancelled), session)
    | none => return (Report.ok (.truth false), session)
  | .cancelIdle label => do
    let w ← get
    match session.idles.get? label with
    | some token =>
      let (cancelled, agenda) := w.agenda.cancelIdle token
      set (w.setAgenda agenda)
      return (Report.ok (.truth cancelled), session)
    | none => return (Report.ok (.truth false), session)
  | .queue label => do
    modify fun w => w.setAgenda (w.agenda.post (.print label))
    return (Report.ok (.truth true), session)
  | .queueDead => do
    let (t, w) := (← get).newThread
    let w := w.endThread t
    set w
    let answer (reached : Bool) : Datum := .text (if reached then "ok" else "NoNotifier")
    let registered := w.isRegistered t
    return (Report.ok (.record
      [ ("registered", .truth registered), ("queue", answer registered),
        ("alert", answer registered) ]), session)
  | .alert => do
    modify fun w => w.alert w.current
    return (Report.ok (.truth true), session)
  | .oneEvent flags => do
    return (Report.ok (.truth (← ScriptHost.oneEvent engine (.ofBits flags))), session)
  | .pending => do return (Report.pending (← get), session)

/-- Go through a step; one that is cut short keeps the session as it was. -/
def ScriptStep.run (step : ScriptStep) (session : ScriptSession) (w : World) :
    Report × ScriptSession × World :=
  let i := session.kept.getD step.target w.nextInterp
  let (report, session, w) :=
    match step.action.run session i step.target w with
    | .ok (report, session) w => (report, session, w)
    | .error halt w => (Report.halt halt, session, w)
  (report ++ Report.logged w ++ Report.printed w, session, clearLogged (clearPrinted w))

/-- Go through steps and report on each. -/
def runScriptSteps (session : ScriptSession) (w : World) : List ScriptStep → List Report
  | [] => []
  | step :: rest =>
    let (report, session, w) := step.run session w
    report :: runScriptSteps session w rest

/-- A script session with one interpreter to begin with. -/
def runScriptSession (files : Machine.Files) (safe : Bool) (steps : List ScriptStep) :
    List Report :=
  let (i, w) := ({ files } : World).newInterp "" safe none
  runScriptSteps { kept := ⟨[("main", i)]⟩ } w steps

end ScriptHost.Session
