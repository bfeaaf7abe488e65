import ScriptHost.Command.Basic
import ScriptHost.Schedule

/-!
# Commands on pending work
-/

namespace ScriptHost

namespace World

/-- Put a script onto the agenda of the thread that is running and answer its id. -/
def scheduleAfter (w : World) (i : InterpId) (delay : Option Nat) (script : String) :
    String × World :=
  let r := w.interp i
  let id := s!"after#{r.nextAfter}"
  let handler := Handler.after i id script
  let (token, agenda) :=
    match delay with
    | some ms =>
      let (token, agenda) := w.agenda.addTimer (w.clock + milliseconds ms) handler
      (AfterToken.timer token, agenda)
    | none =>
      let (token, agenda) := w.agenda.addIdle handler
      (AfterToken.idle token, agenda)
  (id,
    (w.setAgenda agenda).modifyInterp i fun r =>
      { r with nextAfter := r.nextAfter + 1, afters := r.afters.insert id token })

/-- Forget a scheduled script of an interpreter and answer where it was pending. -/
def takeAfter (w : World) (i : InterpId) (id : String) : Option AfterToken × World :=
  ((w.interp i).afters.get? id,
    w.modifyInterp i fun r => { r with afters := r.afters.erase id })

end World

namespace Command

/-- Schedule a script. -/
def schedule (i : InterpId) (delay : Option Nat) (scripts : List String) : Exec String := do
  let (id, w) := (← get).scheduleAfter i delay (joinWords scripts)
  MonadState.set w
  return id

/-- Schedule scripts, cancel or list them, or wait. -/
def after (e : Engine) (i : InterpId) : List String → Exec String
  | [] => Exec.wrongArgs "after option ?arg ...?"
  | "idle" :: scripts =>
    if scripts.isEmpty then Exec.wrongArgs "after idle script ?script ...?"
    else schedule i none scripts
  | "cancel" :: args =>
    match args with
    | [] => Exec.wrongArgs "after cancel id|command"
    | id :: _ => do
      let (token, w) := (← get).takeAfter i id
      MonadState.set (token.elim w w.cancelAfter)
      return ""
  | "info" :: _ => do return WordList.merge (← getInterp i).afterIds
  | time :: scripts => do
    let ms := (← intArg time).toInt.toNat
    if scripts.isEmpty then
      sleep e ms
      return ""
    else schedule i (some ms) scripts

/-- Serve work without waiting until none is left, for a number of rounds. -/
def drainRounds (e : Engine) (flags : EventFlags) : Nat → Act Unit
  | 0 => Act.halt .stalled
  | rounds + 1 => do
    if ← e.call (.event flags) then drainRounds e flags rounds

/-- Serve all pending work. -/
def update (e : Engine) : List String → Exec String
  | [] => do
    drainRounds e (EventFlags.all.union .dontWait) e.fuel
    return ""
  | ["idletasks"] => do
    drainRounds e (EventFlags.idle.union .dontWait) e.fuel
    return ""
  | [option] => Exec.fail s!"bad option \"{option}\": must be idletasks"
  | _ => Exec.wrongArgs "update ?idletasks?"

/-- Serve work until a variable has been written, for a number of rounds. -/
def vwaitRounds (e : Engine) (i : InterpId) (name : String) (before : Nat) : Nat → Exec String
  | 0 => Act.halt .stalled
  | rounds + 1 => do
    let r ← getInterp i
    if r.writeCount name ≠ before then return ""
    else if r.deleted then
      Exec.fail s!"can't wait for variable \"{name}\": interpreter deleted"
    else
      let _ ← (e.call (.event .all) : Act Bool)
      vwaitRounds e i name before rounds

/-- Serve work until a global variable has been written. -/
def vwait (e : Engine) (i : InterpId) : List String → Exec String
  | [name] => do
    let r ← getInterp i
    vwaitRounds e i name (r.writeCount name) e.fuel
  | _ => Exec.wrongArgs "vwait name"

end Command

end ScriptHost
