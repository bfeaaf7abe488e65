import ScriptHost.Proofs.Run.Engine
import ScriptHost.Session.Call

/-!
# The calls that a session makes on a handle as pieces of code
-/

namespace ScriptHost.Session

open Run

variable {L R : World → World → Prop} [Tracks L R]

include L

theorem HandleCall.moves_describe (h : HandleId) (datum : Handle → Datum) :
    (describe h datum).Moves R := by
  refine .get_bind fun w => ?_
  split <;> exact .refl w rfl

variable [Roams L] [∀ fuel, Notes ⟨fuel, runWithin fuel⟩ L]
  [∀ fuel, Notes ⟨fuel, runWithin fuel⟩ R]

theorem moves_keep (name : String) (h : HandleId) : (keep name h).Moves R := by
  refine .get_bind fun w => .modify_bind (Tracks.same rfl) ?_
  split
  · exact Handle.moves_release moves_engine _ _
  · exact .refl _ rfl

theorem Request.moves_accept (request : Request) (answer : Except HostError Envelope) :
    (request.accept answer).Moves R := by
  unfold accept
  split
  · exact .bind (moves_keep _ _) fun _ => .pure _
  · exact .bind (.pure _) fun _ => .pure _

theorem Request.moves_run (h : HandleId) (awaited : Bool) (request : Request) :
    (request.run h awaited).Moves R := by
  rw [run]
  split
  · exact .pure _
  · exact .bind (Handle.moves_request moves_engine h _ awaited) fun answer =>
      request.moves_accept answer

variable [∀ l, Tends R l]

theorem HandleCall.moves_run (h : HandleId) (call : HandleCall) : (call.run h).Moves R := by
  cases call with
  | request request awaited => exact request.moves_run h awaited
  | post work => exact .bind (Handle.moves_enqueue moves_engine h work false) fun _ => .pure _
  | register closure => exact .bind (Handle.moves_register h closure) fun _ => .pure _
  | unregister id => exact .bind (Handle.moves_unregister h id) fun _ => .pure _
  | setEvaluator closure => exact .bind (Handle.moves_setEvaluator h closure) fun _ => .pure _
  | dispatch id args => exact .bind (moves_dispatch moves_engine h id args) fun _ => .pure _
  | callbacks id => exact moves_describe h _
  | runLoop => exact .bind (EventLoop.moves_ofHandle moves_engine h) fun _ => .pure _
  | stopLoop => exact .bind (Handle.moves_stopLoop h) fun _ => .pure _
  | delete => exact .bind (.modify fun w => Follows.deleteHandle w h) fun _ => .pure _
  | info => exact .get_bind fun w => moves_describe h _ w
  | setTimer ms =>
    refine .bind (.modify fun w => Tracks.modifyHandle ?_ w h) fun _ => moves_describe h _
    exact fun _ => ⟨rfl, rfl⟩
  | stats => exact moves_describe h _

end ScriptHost.Session
