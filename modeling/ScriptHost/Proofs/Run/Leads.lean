import ScriptHost.Proofs.Frames.Depth

/-!
# Pieces of code as runs of the machine

What code does to a world is one change after the other, and changes inside of brackets that are
closed again. So the machine can do it at any moment of a run, with its own brackets left alone.
-/

namespace ScriptHost

namespace Run

/-- What a piece of code may do to a world: one change after the other, and changes inside of a
bracket that is closed in the end. -/
inductive Leads : World → World → Prop
  | rest {w w' : World} (h : w'.interpreters = w.interpreters) : Leads w w'
  | edit {f : Interpreter → Interpreter} (hf : Interpreter.Edit f) (w : World) (i : InterpId) :
      Leads w (w.modifyInterp i f)
  | create (w : World) (name : String) (safe : Bool) (parent : Option InterpId) :
      Leads w (w.newInterp name safe parent).2
  | delete (w : World) (i : InterpId) : Leads w (w.delete i)
  | trans {w w' w'' : World} (h : Leads w w') (h' : Leads w' w'') : Leads w w''
  | call {w w' : World} {i : InterpId} {vars : Table String String}
      (hlive : (w.interp i).deleted = false)
      (h : Leads (w.modifyInterp i fun r => r.enterCall vars) w') :
      Leads w (w'.modifyInterp i Interpreter.leaveCall)
  | aside {w w' : World} {i : InterpId} (hlive : (w.interp i).deleted = false)
      (h : Leads (w.modifyInterp i Interpreter.dropCalls) w') :
      Leads w (w'.modifyInterp i fun r => r.restoreCalls (w.interp i).callFrames)
  | command {w w' : World} {i : InterpId} (hlive : (w.interp i).deleted = false)
      (hdepth : (w.interp i).depth < Interpreter.maxDepth)
      (h : Leads (w.modifyInterp i fun r => { r with depth := (w.interp i).depth + 1 }) w') :
      Leads w (w'.modifyInterp i fun r => { r with depth := (w.interp i).depth })

section

variable {w w' : World}

theorem Leads.refl (w : World) : Leads w w :=
  .rest rfl

/-- At any moment of a run the machine can do what the code does, and it leaves the brackets as they
are. -/
theorem Leads.steps (h : Leads w w') (K : List Bracket) (cut : Set InterpId) :
    ∃ cut', Steps ⟨w, K, cut⟩ ⟨w', K, cut'⟩ := by
  induction h generalizing K cut with
  | rest h => exact ⟨cut, .single (.rest h)⟩
  | edit hf w i => exact ⟨cut, .single (.edit i hf)⟩
  | create w name safe parent => exact ⟨cut, .single (.create name safe parent)⟩
  | delete w i => exact ⟨_, .single (.delete i)⟩
  | trans _ _ ih ih' =>
    obtain ⟨cut', h⟩ := ih K cut
    obtain ⟨cut'', h'⟩ := ih' K cut'
    exact ⟨cut'', h.trans h'⟩
  | @call w w' i vars hlive _ ih =>
    obtain ⟨cut', h⟩ := ih (.call i :: K) cut
    exact ⟨cut', .head (.enterCall vars hlive) (h.tail .leaveCall)⟩
  | @aside w w' i hlive _ ih =>
    obtain ⟨cut', h⟩ := ih (.aside i (w.interp i).callFrames :: K) cut
    exact ⟨cut', .head (.setAside hlive) (h.tail .putBack)⟩
  | @command w w' i hlive hdepth _ ih =>
    obtain ⟨cut', h⟩ := ih (.command i (w.interp i).depth :: K) cut
    exact ⟨cut', .head (.enterCommand hlive hdepth) (h.tail .leaveCommand)⟩

theorem Leads.foldl {α : Type} {f : World → α → World} (hf : ∀ w a, Leads w (f w a))
    (as : List α) (w : World) : Leads w (as.foldl f w) := by
  induction as generalizing w with
  | nil => exact .refl w
  | cons a as ih => exact (hf w a).trans (ih (f w a))

theorem Leads.tidy (h : Leads w w') (hw : w.Tidy) : w'.Tidy := by
  induction h with
  | rest h => exact hw.of_interpreters_eq h
  | edit hf w i => exact hw.edit hf
  | create w name safe parent => exact hw.newInterp name safe parent
  | delete w i => exact hw.prune (World.prunes_delete w i)
  | trans _ _ ih ih' => exact ih' (ih hw)
  | call _ _ ih => exact (ih (hw.modifyInterp fun r hr => hr)).modifyInterp fun r hr => hr
  | aside _ _ ih => exact (ih (hw.modifyInterp fun r hr => hr)).modifyInterp fun r hr => hr
  | @command w w' i _ hdepth _ ih =>
    exact (ih (hw.modifyInterp fun r _ => hdepth)).modifyInterp fun r _ => hw.interp_depth_le i

end

end Run

end ScriptHost
