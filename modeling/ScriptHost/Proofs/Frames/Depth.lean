import ScriptHost.Proofs.Frames.Machine

/-!
# How deep commands are nested

A command is invoked one level deeper than the code around it, and only below the limit. A deletion
does not change the depth of an interpreter. So no interpreter is nested too deeply at any moment.
-/

namespace ScriptHost

/-- The ids of the interpreters are below the next one, and none of them is nested too deeply. -/
structure World.Tidy (w : World) : Prop where
  known : ∀ i r, w.interps.get? i = some r → i < w.nextInterp
  depth_le : ∀ i r, w.interps.get? i = some r → r.depth ≤ Interpreter.maxDepth

namespace World

variable {w w' : World} {i : InterpId}

theorem Tidy.interp_depth_le (hw : w.Tidy) (i : InterpId) :
    (w.interp i).depth ≤ Interpreter.maxDepth := by
  cases hr : w.interps.get? i with
  | none =>
    rw [interp, Table.getD, hr]
    exact Nat.zero_le _
  | some r =>
    rw [interp_of_get? hr]
    exact hw.depth_le i r hr

theorem Tidy.of_interpreters_eq (hw : w.Tidy) (h : w'.interpreters = w.interpreters) :
    w'.Tidy := by
  obtain ⟨hi, hn⟩ : w'.interps = w.interps ∧ w'.nextInterp = w.nextInterp := by
    simpa [interpreters] using h
  obtain ⟨known, depth_le⟩ := hw
  rw [← hi] at known depth_le
  rw [← hn] at known
  exact ⟨known, depth_le⟩

theorem Tidy.modifyInterp {f : Interpreter → Interpreter} (hw : w.Tidy)
    (hf : ∀ r, r.depth ≤ Interpreter.maxDepth → (f r).depth ≤ Interpreter.maxDepth) :
    (w.modifyInterp i f).Tidy where
  known j r hr := by
    rw [get?_modifyInterp] at hr
    split at hr
    · obtain ⟨r', hr', -⟩ := Option.map_eq_some_iff.1 hr
      exact hw.known j r' hr'
    · exact hw.known j r hr
  depth_le j r hr := by
    rw [get?_modifyInterp] at hr
    split at hr
    · obtain ⟨r', hr', rfl⟩ := Option.map_eq_some_iff.1 hr
      exact hf r' (hw.depth_le j r' hr')
    · exact hw.depth_le j r hr

theorem Tidy.edit {f : Interpreter → Interpreter} (hw : w.Tidy) (hf : Interpreter.Edit f) :
    (w.modifyInterp i f).Tidy :=
  hw.modifyInterp fun r hr => by rwa [hf.depth_eq]

theorem Tidy.newInterp (hw : w.Tidy) (name : String) (safe : Bool) (parent : Option InterpId) :
    (w.newInterp name safe parent).2.Tidy where
  known i r hr := by
    rw [get?_newInterp] at hr
    split at hr
    · next hi => exact hi ▸ Nat.lt_succ_self _
    · exact Nat.lt_succ_of_lt (hw.known i r hr)
  depth_le i r hr := by
    rw [get?_newInterp] at hr
    split at hr
    · obtain rfl : Interpreter.fresh name safe parent = r := by simpa using hr
      exact Nat.zero_le _
    · exact hw.depth_le i r hr

theorem Tidy.prune (hw : w.Tidy) (h : w.Prunes w') : w'.Tidy := by
  have hwas (i : InterpId) (r' : Interpreter) (hr' : w'.interps.get? i = some r') :
      ∃ r, w.interps.get? i = some r ∧ r'.depth = r.depth := by
    have hi := h.each i
    rw [hr'] at hi
    generalize hr : w.interps.get? i = a at hi
    obtain ⟨hpruned⟩ | - := hi
    exact ⟨_, rfl, hpruned.1⟩
  refine ⟨fun i r' hr' => ?_, fun i r' hr' => ?_⟩
  · obtain ⟨r, hr, -⟩ := hwas i r' hr'
    exact h.next ▸ hw.known i r hr
  · obtain ⟨r, hr, hdepth⟩ := hwas i r' hr'
    exact hdepth ▸ hw.depth_le i r hr

theorem tidy_of_no_interps (h : w.interps = .empty) : w.Tidy :=
  ⟨fun i r hr => by simp [h] at hr, fun i r hr => by simp [h] at hr⟩

end World

namespace Run

/-- No interpreter is nested too deeply, also not when the open commands end. -/
structure Shallow (c : Config) : Prop where
  tidy : c.world.Tidy
  saved : ∀ i depth, .command i depth ∈ c.brackets → depth ≤ Interpreter.maxDepth

variable {c c' : Config}

theorem Shallow.step (hc : Shallow c) (h : Step c c') : Shallow c' := by
  obtain ⟨hw, hsaved⟩ := hc
  cases h with
  | rest h => exact ⟨hw.of_interpreters_eq h, hsaved⟩
  | edit i hf => exact ⟨hw.edit hf, hsaved⟩
  | create name safe parent => exact ⟨hw.newInterp name safe parent, hsaved⟩
  | delete i => exact ⟨hw.prune (World.prunes_delete _ i), hsaved⟩
  | enterCall vars _ | setAside _ =>
    refine ⟨hw.modifyInterp fun r hr => hr, fun j depth hb => hsaved j depth ?_⟩
    simpa using hb
  | leaveCall | putBack =>
    refine ⟨hw.modifyInterp fun r hr => hr, fun j depth hb => ?_⟩
    exact hsaved j depth (List.mem_cons_of_mem _ hb)
  | enterCommand hlive hdepth =>
    refine ⟨hw.modifyInterp fun r _ => hdepth, fun j depth hb => ?_⟩
    rcases List.mem_cons.1 hb with hb | hb
    · cases hb
      exact Nat.le_of_lt hdepth
    · exact hsaved j depth hb
  | leaveCommand =>
    refine ⟨hw.modifyInterp fun _ _ => hsaved _ _ List.mem_cons_self, fun j depth hb => ?_⟩
    exact hsaved j depth (List.mem_cons_of_mem _ hb)

theorem Shallow.steps (hc : Shallow c) (h : Steps c c') : Shallow c' := by
  induction h with
  | refl => exact hc
  | tail _ h ih => exact ih.step h

theorem Reachable.tidy (h : Reachable c) : c.world.Tidy := by
  obtain ⟨w, hw, h⟩ := h
  exact (Shallow.steps ⟨World.tidy_of_no_interps hw, by simp⟩ h).tidy

end Run

end ScriptHost
