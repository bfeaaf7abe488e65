import ScriptHost.Proofs.Frames.Stores
import ScriptHost.Proofs.Frames.Tallies
import ScriptHost.Proofs.Handle.Fatal

/-!
# Writes of global variables are counted

A command that waits for a variable looks at how often it was written. Whether a name means a global
variable depends on the procedures that are running, and the code tells it from the frames. The two
agree unless the interpreter was deleted from within one of its procedures: then the frame of a
procedure may be the last one that is left, and writes of its variables are taken for global ones.
-/

namespace ScriptHost

open Interpreter

namespace Run

variable {c c' c'' : Config} {i : InterpId} {name value : String}

/-! ### What names mean -/

/-- A name means a global variable if it has the prefix for that, if no procedure is running, or if it
was linked to the global variable in the procedure that is running. -/
def Config.MeansGlobal (c : Config) (i : InterpId) (name : String) : Prop :=
  hasGlobalPrefix name = true ∨ openCalls i c.brackets = 0 ∨
    ∃ top ∈ (c.world.interp i).frames.head?, name ∈ top.globals

/-- An interpreter was deleted from within its procedures, and not more than one frame is left to it. -/
def Config.Bare (c : Config) (i : InterpId) : Prop :=
  i ∈ c.cut ∧ (c.world.interp i).frames.length ≤ 1

/-- Variables are looked up as the procedures that are running demand, but for an interpreter that was
deleted from within them: of its last frame every variable passes for a global one. -/
theorem refersGlobal_iff (hc : Sound c) (hi : c.world.Knows i) (name : String) :
    (c.world.interp i).refersGlobal name = true ↔ c.MeansGlobal i name ∨ c.Bare i := by
  have hfits := hc.fits i _ hi.get?
  rw [refersGlobal, Bool.or_eq_true, Config.MeansGlobal, or_assoc, Config.Bare]
  refine or_congr_right ?_
  by_cases hcut : i ∈ c.cut
  · have hlength := (hfits.2 hcut).2
    cases hframes : (c.world.interp i).frames with
    | nil => simp [hcut]
    | cons top tail =>
      cases tail with
      | nil => simp [hcut]
      | cons next rest =>
        have hopen : openCalls i c.brackets ≠ 0 := by
          rw [hframes, List.length_cons] at hlength
          omega
        simp [hopen]
  · have hlength := hfits.1 hcut
    cases hframes : (c.world.interp i).frames with
    | nil => simp [hframes] at hlength
    | cons top tail =>
      cases tail with
      | nil =>
        have hopen : openCalls i c.brackets = 0 := by simpa [hframes] using hlength.symm
        simp [hopen]
      | cons next rest =>
        have hopen : openCalls i c.brackets ≠ 0 := by
          rw [hframes, List.length_cons, List.length_cons] at hlength
          omega
        simp [hcut, hopen]

/-! ### Steps -/

/-- Change an interpreter. -/
def Config.modify (c : Config) (i : InterpId) (f : Interpreter → Interpreter) : Config :=
  ⟨c.world.modifyInterp i f, c.brackets, c.cut⟩

/-- From one moment to another a global variable is set: by a script with a name that means it, or by
the host. -/
def SetsGlobal (i : InterpId) (name value : String) (c c' : Config) : Prop :=
  ∃ name', globalName name' = globalName name ∧
    (c.MeansGlobal i name' ∧ c' = c.modify i (fun r => r.setVar name' value) ∨
      c' = c.modify i fun r => r.setGlobal name' value)

theorem frames_ne_nil (hc : Sound c) (hi : c.world.Knows i) (hcut : i ∉ c.cut) :
    (c.world.interp i).frames ≠ [] := by
  rw [← List.length_pos_iff, (hc.fits i _ hi.get?).1 hcut]
  exact Nat.succ_pos _

theorem SetsGlobal.interp_eq (hc : Sound c) (hi : c.world.Knows i)
    (h : SetsGlobal i name value c c') :
    ∃ name', globalName name' = globalName name ∧
      c'.world.interp i = (c.world.interp i).setGlobal name' value := by
  obtain ⟨name', hname, ⟨hmeans, rfl⟩ | rfl⟩ := h
  · refine ⟨name', hname, ?_⟩
    have hglobal := (refersGlobal_iff hc hi name').2 (.inl hmeans)
    exact (hi.interp_modifyInterp i _).trans ((if_pos rfl).trans (setVar_of_global hglobal value))
  · exact ⟨name', hname, (hi.interp_modifyInterp i _).trans (if_pos rfl)⟩

theorem SetsGlobal.writeCount (hc : Sound c) (hi : c.world.Knows i)
    (h : SetsGlobal i name value c c') :
    (c'.world.interp i).writeCount name = (c.world.interp i).writeCount name + 1 := by
  obtain ⟨name', hname, hinterp⟩ := h.interp_eq hc hi
  rw [hinterp, writeCount_setGlobal, if_pos hname]

theorem SetsGlobal.wrote (hc : Sound c) (hi : c.world.Knows i) (hcut : i ∉ c.cut)
    (h : SetsGlobal i name value c c') :
    Wrote name value (c.world.interp i) (c'.world.interp i) := by
  obtain ⟨name', hname, hinterp⟩ := h.interp_eq hc hi
  rw [hinterp]
  exact wrote_setGlobal (frames_ne_nil hc hi hcut) hname value

theorem unwritten_modifyInterp {w : World} {j : InterpId} {f : Interpreter → Interpreter}
    (hi : w.Knows i) (hf : j = i → Unwritten name (w.interp i) (f (w.interp i))) :
    Unwritten name (w.interp i) ((w.modifyInterp j f).interp i) := by
  rw [hi.interp_modifyInterp]
  split
  · next hji => exact hf hji
  · exact .refl name _

theorem Step.knows (hc : Sound c) (h : Step c c') (hi : c.world.Knows i) : c'.world.Knows i := by
  cases h with
  | rest hrest =>
    have hinterps := congrArg Prod.fst hrest
    exact (congrArg (fun t => (Table.get? t i).isSome = true) hinterps).mpr hi
  | create name safe parent =>
    exact (hi.newInterp (Nat.ne_of_lt (hc.known i _ hi.get?)) name safe parent).1
  | delete j => exact ((World.prunes_delete _ j).pruned hi).1
  | edit | enterCall | leaveCall | setAside | putBack | enterCommand | leaveCommand =>
    exact hi.modifyInterp _ _

/-- A step either sets a global variable or does not write it. -/
theorem Step.setsGlobal_or_unwritten (hc : Sound c) (hi : c.world.Knows i) (hcut : i ∉ c.cut)
    (h : Step c c') (name : String) :
    (∃ value, SetsGlobal i name value c c') ∨
      Unwritten name (c.world.interp i) (c'.world.interp i) := by
  have hframes := frames_ne_nil hc hi hcut
  have hlength := (hc.fits i _ hi.get?).1 hcut
  cases h with
  | @edit w K cut j f hf =>
    by_cases hji : j = i
    · subst hji
      obtain ⟨name', value, rfl⟩ | ⟨name', value, rfl⟩ | hquiet := hf.cases
      · cases hglobal : (w.interp j).refersGlobal name' with
        | false =>
          exact .inr (unwritten_modifyInterp hi fun _ => unwritten_setVar_of_local hglobal value)
        | true =>
          have hmeans : Config.MeansGlobal ⟨w, K, cut⟩ j name' :=
            ((refersGlobal_iff hc hi name').1 hglobal).resolve_right fun h => hcut h.1
          by_cases hname : globalName name' = globalName name
          · exact .inl ⟨value, name', hname, .inl ⟨hmeans, rfl⟩⟩
          · refine .inr (unwritten_modifyInterp hi fun _ => ?_)
            dsimp only
            rw [setVar_of_global hglobal]
            exact unwritten_setGlobal_of_ne hframes hname value
      · by_cases hname : globalName name' = globalName name
        · exact .inl ⟨value, name', hname, .inr rfl⟩
        · exact .inr (unwritten_modifyInterp hi fun _ =>
            unwritten_setGlobal_of_ne hframes hname value)
      · exact .inr (unwritten_modifyInterp hi fun _ => hquiet name _)
    · exact .inr (unwritten_modifyInterp hi fun h => absurd h hji)
  | rest hrest =>
    rw [World.interp_eq_of_interpreters_eq hrest]
    exact .inr (.refl name _)
  | create name' safe parent =>
    rw [(hi.newInterp (Nat.ne_of_lt (hc.known i _ hi.get?)) name' safe parent).2]
    exact .inr (.refl name _)
  | @delete w K cut j =>
    exact .inr (unwritten_of_pruned ((World.prunes_delete w j).pruned hi).2
      (congrFun (World.tallies_delete w j) i))
  | enterCall vars =>
    exact .inr (unwritten_modifyInterp hi fun _ => unwritten_enterCall hframes vars)
  | leaveCall =>
    refine .inr (unwritten_modifyInterp hi fun hji => unwritten_leaveCall ?_)
    rw [hlength, openCalls, if_pos hji]
    omega
  | setAside => exact .inr (unwritten_modifyInterp hi fun _ => unwritten_dropCalls)
  | putBack => exact .inr (unwritten_modifyInterp hi fun _ => unwritten_restoreCalls hframes _)
  | enterCommand | leaveCommand =>
    exact .inr (unwritten_modifyInterp hi fun _ => .of_eq rfl rfl)

/-- No step makes a counter smaller. -/
theorem Step.writeCount_le (hc : Sound c) (hi : c.world.Knows i) (h : Step c c') (name : String) :
    (c.world.interp i).writeCount name ≤ (c'.world.interp i).writeCount name := by
  have hsame (h : c'.world.tallies = c.world.tallies) :
      (c.world.interp i).writeCount name ≤ (c'.world.interp i).writeCount name :=
    Nat.le_of_eq (congrArg (Table.getD · (globalName name) 0) (congrFun h i).symm)
  cases h with
  | @edit w K cut j f hf =>
    dsimp only
    rw [hi.interp_modifyInterp]
    split
    · obtain ⟨name', value, rfl⟩ | ⟨name', value, rfl⟩ | hquiet := hf.cases
      · rw [writeCount_setVar]
        exact Nat.le_add_right _ _
      · rw [writeCount_setGlobal]
        exact Nat.le_add_right _ _
      · exact Nat.le_of_eq (hquiet name _).count.symm
    · exact Nat.le_refl _
  | rest hrest => exact hsame (World.tallies_of_interpreters_eq hrest)
  | create name' safe parent =>
    rw [(hi.newInterp (Nat.ne_of_lt (hc.known i _ hi.get?)) name' safe parent).2]
  | delete j => exact hsame (World.tallies_delete _ j)
  | enterCall | leaveCall | setAside | putBack | enterCommand | leaveCommand =>
    exact hsame (World.tallies_modifyInterp fun _ => rfl)

/-! ### Runs -/

/-- A run, with the values that a global variable is set to on the way. -/
inductive Written (i : InterpId) (name : String) : List String → Config → Config → Prop
  | refl (c : Config) : Written i name [] c c
  | write {values : List String} {value : String} {c c' c'' : Config}
      (h : Written i name values c c') (hset : SetsGlobal i name value c' c'') :
      Written i name (values ++ [value]) c c''
  | other {values : List String} {c c' c'' : Config} (h : Written i name values c c')
      (hstep : Step c' c'') (hnot : ∀ value, ¬SetsGlobal i name value c' c'') :
      Written i name values c c''

theorem SetsGlobal.step (h : SetsGlobal i name value c c') : Step c c' := by
  obtain ⟨name', -, ⟨-, rfl⟩ | rfl⟩ := h
  · exact .edit i (.setVar name' value)
  · exact .edit i (.setGlobal name' value)

variable {values : List String}

theorem Written.steps (h : Written i name values c c') : Steps c c' := by
  induction h with
  | refl c => exact .refl
  | write _ hset ih => exact ih.tail hset.step
  | other _ hstep _ ih => exact ih.tail hstep

/-- Of every run it can be told which values a global variable is set to. -/
theorem Steps.exists_written (h : Steps c c') (i : InterpId) (name : String) :
    ∃ values, Written i name values c c' := by
  induction h with
  | refl => exact ⟨[], .refl c⟩
  | @tail u u' _ hstep ih =>
    obtain ⟨values, h⟩ := ih
    by_cases hset : ∃ value, SetsGlobal i name value u u'
    · obtain ⟨value, hset⟩ := hset
      exact ⟨values ++ [value], h.write hset⟩
    · exact ⟨values, h.other hstep (not_exists.1 hset)⟩

theorem Steps.knows (hc : Sound c) (hi : c.world.Knows i) (h : Steps c c') : c'.world.Knows i := by
  induction h with
  | refl => exact hi
  | tail hsteps hstep ih => exact hstep.knows (hc.steps hsteps) ih

/-- Every write of a global variable is counted. -/
theorem Written.le_writeCount (hc : Sound c) (hi : c.world.Knows i)
    (h : Written i name values c c') :
    (c.world.interp i).writeCount name + values.length ≤ (c'.world.interp i).writeCount name := by
  induction h with
  | refl c => exact Nat.le_refl _
  | write h hset ih =>
    rw [hset.writeCount (hc.steps h.steps) (h.steps.knows hc hi), List.length_append]
    exact Nat.succ_le_succ (ih hc hi)
  | other h hstep _ ih =>
    exact (ih hc hi).trans (hstep.writeCount_le (hc.steps h.steps) (h.steps.knows hc hi) _)

/-- Nothing else is counted, and a global variable has the value that was written last, unless the
interpreter is deleted from within one of its procedures. -/
theorem Written.writeCount_eq (hc : Sound c) (hi : c.world.Knows i)
    (h : Written i name values c c') (hcut : i ∉ c'.cut) :
    (c'.world.interp i).writeCount name = (c.world.interp i).writeCount name + values.length ∧
      ((c'.world.interp i).global? name = values.getLast?.or ((c.world.interp i).global? name) ∨
        (c'.world.interp i).global? name = none) := by
  induction h with
  | refl c => exact ⟨rfl, .inl rfl⟩
  | @write values value c u u' h hset ih =>
    have huncut : i ∉ u.cut := fun h => hcut (hset.step.cut_subset h)
    obtain ⟨hcount, -⟩ := ih hc hi huncut
    have hwrote := hset.wrote (hc.steps h.steps) (h.steps.knows hc hi) huncut
    refine ⟨?_, .inl ?_⟩
    · rw [hwrote.count, hcount, List.length_append, Nat.add_assoc]
      rfl
    · rw [hwrote.value, List.getLast?_concat, Option.some_or]
  | @other values c u u' h hstep hnot ih =>
    have huncut : i ∉ u.cut := fun h => hcut (hstep.cut_subset h)
    obtain ⟨hcount, hvalue⟩ := ih hc hi huncut
    have hunwritten := (hstep.setsGlobal_or_unwritten (hc.steps h.steps)
      (h.steps.knows hc hi) huncut name).resolve_left (not_exists.2 hnot)
    refine ⟨hunwritten.count.trans hcount, ?_⟩
    rcases hunwritten.value with hsame | hgone
    · rw [hsame]
      exact hvalue
    · exact .inr hgone

end Run

/-! ### Waiting for a variable -/

namespace Command

variable {e : Engine} {i : InterpId} {name value : String} {before rounds : Nat} {w w' : World}

theorem run_vwaitRounds (e : Engine) (i : InterpId) (name : String) (before rounds : Nat)
    (w : World) :
    (vwaitRounds e i name before (rounds + 1)).run w =
      (if (w.interp i).writeCount name ≠ before then return ""
        else if (w.interp i).deleted then
          Exec.fail s!"can't wait for variable \"{name}\": interpreter deleted"
        else do
          let _ ← (e.call (.event .all) : Act Bool)
          vwaitRounds e i name before rounds : Exec String).run w :=
  rfl

/-- Waiting is over at the first check that finds the counter changed. -/
theorem vwaitRounds_of_ne (e : Engine) (rounds : Nat)
    (h : (w.interp i).writeCount name ≠ before) :
    (vwaitRounds e i name before (rounds + 1)).run w = .ok (.ok "") w := by
  rw [run_vwaitRounds, if_pos h]
  rfl

/-- Waiting comes to a good end only if the counter has changed. -/
theorem writeCount_ne_of_vwaitRounds
    (h : (vwaitRounds e i name before rounds).run w = .ok (.ok value) w') :
    (w'.interp i).writeCount name ≠ before := by
  induction rounds generalizing w with
  | zero => cases h
  | succ rounds ih =>
    by_cases hchanged : (w.interp i).writeCount name ≠ before
    · rw [vwaitRounds_of_ne e rounds hchanged] at h
      cases h
      exact hchanged
    · rw [run_vwaitRounds, if_neg hchanged] at h
      split at h
      · cases h
      · obtain ⟨served, u, hserved, hrest⟩ := Act.exists_of_bind_ok h
        cases served with
        | error abrupt => cases hrest
        | ok served => exact ih hrest

end Command

namespace Run

open Session

variable {c : Config} {i : InterpId}

/-- What a command that waits for a variable does, from a moment on at which an interpreter is there. -/
structure WaitsFor (c : Config) (i : InterpId) (name : String) : Prop where
  /-- If waiting comes to a good end, the variable was written in between. -/
  written : ∀ {fuel : Nat} {value : String} {w' : World},
    (Command.vwait ⟨fuel, runWithin fuel⟩ i [name]).run c.world = .ok (.ok value) w' →
      (∃ cut values, Written i name values c ⟨w', c.brackets, cut⟩) ∧
      ∀ {cut values}, Written i name values c ⟨w', c.brackets, cut⟩ → i ∉ cut → values ≠ []
  /-- Waiting goes in rounds, and it is over in the first round that finds the variable written. -/
  rounds : ∀ e : Engine, (Command.vwait e i [name]).run c.world =
    (Command.vwaitRounds e i name ((c.world.interp i).writeCount name) e.fuel).run c.world
  next : ∀ {c' : Config} {values : List String}, Written i name values c c' → values ≠ [] →
    ∀ (e : Engine) (rounds : Nat),
      (Command.vwaitRounds e i name ((c.world.interp i).writeCount name) (rounds + 1)).run c'.world =
        .ok (.ok "") c'.world

theorem waitsFor (hc : Reachable c) (hi : c.world.Knows i) (name : String) : WaitsFor c i name where
  written {fuel value w'} hwait := by
    have hcount : (w'.interp i).writeCount name ≠ (c.world.interp i).writeCount name :=
      Command.writeCount_ne_of_vwaitRounds hwait
    have hmoves : Exec.Moves Leads (Command.vwait ⟨fuel, runWithin fuel⟩ i [name]) :=
      Command.moves_vwait (fun task => moves_runWithin fuel task) i [name]
    have hleads := (hmoves c.world hc.tidy).leads
    rw [Act.after_of_ok hwait] at hleads
    refine ⟨?_, fun {cut values} h huncut hnone => hcount ?_⟩
    · obtain ⟨cut, hsteps⟩ := hleads.steps c.brackets c.cut
      exact ⟨cut, hsteps.exists_written i name⟩
    · have heq := (h.writeCount_eq hc.sound hi huncut).1
      rwa [hnone, List.length_nil, Nat.add_zero] at heq
  rounds _ := rfl
  next {c' values} h hsome e rounds := by
    refine Command.vwaitRounds_of_ne e rounds (Nat.ne_of_gt ?_)
    have hle := h.le_writeCount hc.sound hi
    have hpos := List.length_pos_iff.2 hsome
    omega

/-- The counter of a global variable grows by one with every write of it, and with nothing else unless
its interpreter was deleted from within one of its procedures. So the counter tells a command that waits
for the variable whether it was written. -/
theorem writes_counted_unless_cut {w : World} (hw : w.interps = .empty)
    (hc : Steps ⟨w, [], ∅⟩ c) (hi : c.world.Knows i) (name : String) :
    ((c.world.interp i).refersGlobal name = true ↔ c.MeansGlobal i name ∨ c.Bare i) ∧
    (∀ {c' : Config} {values : List String}, Written i name values c c' →
      (c.world.interp i).writeCount name + values.length ≤ (c'.world.interp i).writeCount name ∧
      (i ∉ c'.cut →
        (c'.world.interp i).writeCount name =
          (c.world.interp i).writeCount name + values.length ∧
        ((c'.world.interp i).global? name = values.getLast?.or ((c.world.interp i).global? name) ∨
          (c'.world.interp i).global? name = none))) ∧
    (∀ {c' : Config}, Steps c c' → i ∉ c'.cut →
      (c'.world.interp i).writeCount name = (c.world.interp i).writeCount name →
      (c'.world.interp i).global? name = (c.world.interp i).global? name ∨
        (c'.world.interp i).global? name = none) ∧
    Command.SetsOnce i ∧ WaitsFor c i name ∧
    (∀ {α : Type} (task : Task α), ∃ cut values,
      Written i name values c ⟨(engine.call task).after c.world, c.brackets, cut⟩) ∧
    (∀ (step : HostStep) (session : HostSession), ∃ cut values,
      Written i name values c ⟨(step.run session c.world).2.2, c.brackets, cut⟩) ∧
    ∀ (step : ScriptStep) (session : ScriptSession), ∃ cut values,
      Written i name values c ⟨(step.run session c.world).2.2, c.brackets, cut⟩ := by
  have hreach : Reachable c := ⟨w, hw, hc⟩
  have hsound := hreach.sound
  have hwritten {w' : World} (hleads : Leads c.world w') :
      ∃ cut values, Written i name values c ⟨w', c.brackets, cut⟩ := by
    obtain ⟨cut, hsteps⟩ := hleads.steps c.brackets c.cut
    exact ⟨cut, hsteps.exists_written i name⟩
  refine ⟨refersGlobal_iff hsound hi name, fun h => ⟨h.le_writeCount hsound hi, ?_⟩,
    fun hsteps hcut hcount => ?_, Command.setsOnce i, waitsFor hreach hi name, fun task => ?_,
    fun step session => ?_, fun step session => ?_⟩
  · exact h.writeCount_eq hsound hi
  · obtain ⟨values, h⟩ := hsteps.exists_written i name
    obtain ⟨heq, hvalue⟩ := h.writeCount_eq hsound hi hcut
    have hnone : values = [] := by
      rw [← List.length_eq_zero_iff]
      omega
    rwa [hnone] at hvalue
  · exact hwritten (leads_engine task c.world hreach.tidy).leads
  · exact hwritten (step.leads_run session hreach.tidy)
  · exact hwritten (step.leads_run session hreach.tidy)

/-- The moment when the first interpreter was made. -/
def firstMade : Config :=
  ⟨(({} : World).newInterp "" true none).2, [], ∅⟩

theorem writes_counted_firstMade :
    let c := firstMade.modify 0 fun r => r.setVar "n" "1"
    (c.world.interp 0).writeCount "::n" = (firstMade.world.interp 0).writeCount "::n" + 1 ∧
      (c.world.interp 0).global? "::n" = some "1" := by
  intro c
  have hset : SetsGlobal 0 "::n" "1" firstMade c := ⟨"n", by decide, .inl ⟨.inr (.inl rfl), rfl⟩⟩
  have hall := writes_counted_unless_cut rfl (.single (.create "" true none)) (c := firstMade)
    (i := 0) rfl "::n"
  obtain ⟨hcount, hvalue⟩ := (hall.2.1 (.write (.refl _) hset)).2 (Set.notMem_empty 0)
  exact ⟨hcount, hvalue.resolve_right (by decide +kernel)⟩

/-! ### A write that does not count -/

/-- An event handler of an interpreter is in a procedure, while another one was put aside. -/
def inHandler : World :=
  (inCall.modifyInterp 0 Interpreter.dropCalls).modifyInterp 0 fun r => r.enterCall .empty

/-- The moment when the procedure goes on that was put aside, after its interpreter was deleted from
within the handler. -/
def goesOn : Config :=
  ⟨((inHandler.delete 0).modifyInterp 0 Interpreter.leaveCall).modifyInterp 0
      fun r => r.restoreCalls (inCall.interp 0).callFrames,
    [.call 0], ∅ ∪ cutBetween inHandler (inHandler.delete 0)⟩

theorem reachable_goesOn : Reachable goesOn :=
  ⟨{}, rfl, .head (.create "" true none) <| .head (.enterCall .empty rfl) <| .head (.setAside rfl) <|
    .head (.enterCall .empty rfl) <| .head (.delete 0) <| .head .leaveCall <| .single .putBack⟩

/-- A child waits for a variable and is deleted by its parent, while two of its procedures are running:
the one that was called last keeps what an update ended with in a variable of its own. -/
def waiting : World :=
  (engine.call (.script 0 ("interp create c; interp eval c \x7bproc q \x7b\x7d update; " ++
    "proc p \x7b\x7d \x7bcatch update n\x7d; after 0 p; after idle q\x7d; " ++
    "after idle \x7binterp delete c\x7d"))).after firstMade.world

/-- A procedure writes a variable of its own, and the write is counted as one of the global variable. So
waiting for the global variable comes to a good end, though nothing wrote it. -/
theorem local_write_counted :
    Reachable goesOn ∧ ¬goesOn.MeansGlobal 0 "n" ∧
      ((goesOn.modify 0 fun r => r.setVar "n" "0").world.interp 0).writeCount "n" =
        (goesOn.world.interp 0).writeCount "n" + 1 ∧
      (engine.call (.script 0 "interp eval c \x7bvwait n\x7d")).value? waiting = some (.ok "") := by
  refine ⟨reachable_goesOn, ?_, by decide +kernel, by decide +kernel⟩
  rintro (hname | hopen | ⟨top, htop, hlinked⟩)
  · cases hname
  · cases hopen
  · have hnone : (goesOn.world.interp 0).frames.head?.map (·.globals) = some [] := by decide +kernel
    rw [Option.mem_def.1 htop] at hnone
    have hempty : top.globals = [] := Option.some.inj hnone
    rw [hempty] at hlinked
    cases hlinked

end Run

end ScriptHost
