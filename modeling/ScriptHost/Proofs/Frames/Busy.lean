import ScriptHost.Proofs.Frames.Depth
import ScriptHost.Proofs.World.Trees

/-!
# Which interpreters are busy

At every moment of a run the depth of an interpreter is the number of its commands that have begun
and not ended yet, also after the interpreter was deleted.
-/

namespace ScriptHost

namespace World

variable {w w' : World}

/-- A deletion changes no depth. -/
theorem Prunes.depth (h : w.Prunes w') (i : InterpId) :
    (w'.interp i).depth = (w.interp i).depth := by
  have hi := h.each i
  rw [interp, interp, Table.getD, Table.getD]
  generalize w.interps.get? i = a, w'.interps.get? i = b at hi
  cases hi with
  | none => rfl
  | some hpruned => exact hpruned.1

/-- A new interpreter is idle, as an unknown one is. -/
theorem depth_newInterp (hknown : ∀ i r, w.interps.get? i = some r → i < w.nextInterp)
    (name : String) (safe : Bool) (parent : Option InterpId) (i : InterpId) :
    ((w.newInterp name safe parent).2.interp i).depth = (w.interp i).depth := by
  simp only [interp, Table.getD, get?_newInterp]
  split
  · next hi =>
    have hnone : w.interps.get? i = none :=
      Option.eq_none_iff_forall_ne_some.2 fun r hr =>
        absurd (hknown i r hr) (hi ▸ Nat.lt_irrefl i)
    rw [hnone]
    rfl
  · rfl

end World

namespace Run

open World

variable {c c' : Config} {i : InterpId}

/-- The number of open commands of an interpreter. -/
def openCommands (i : InterpId) : List Bracket → Nat
  | [] => 0
  | .call _ :: K => openCommands i K
  | .aside _ _ :: K => openCommands i K
  | .command j _ :: K => if j = i then openCommands i K + 1 else openCommands i K

/-- Whether every command remembers how many others were open when it began. -/
def DepthsFit : List Bracket → Prop
  | [] => True
  | .call _ :: K => DepthsFit K
  | .aside _ _ :: K => DepthsFit K
  | .command i depth :: K => depth = openCommands i K ∧ DepthsFit K

theorem openCommands_pos_iff {K : List Bracket} :
    0 < openCommands i K ↔ ∃ depth, .command i depth ∈ K := by
  induction K with
  | nil => simp [openCommands]
  | cons b K ih =>
    cases b with
    | call | aside => simpa [openCommands] using ih
    | command j depth =>
      by_cases hj : j = i
      · subst hj
        simp only [openCommands, if_true, Nat.succ_pos, true_iff]
        exact ⟨depth, List.mem_cons_self⟩
      · rw [openCommands, if_neg hj, ih]
        have hne (d : Nat) : Bracket.command i d ≠ .command j depth := by
          rintro heq
          cases heq
          exact hj rfl
        simp only [List.mem_cons, hne, false_or]

/-- What holds at every moment. -/
structure Counted (c : Config) : Prop where
  saved : DepthsFit c.brackets
  known : ∀ i depth, .command i depth ∈ c.brackets → (c.world.interps.get? i).isSome = true
  depth : ∀ i, (c.world.interp i).depth = openCommands i c.brackets

section

variable {w w' : World} {K K' : List Bracket} {cut cut' : Set InterpId}

theorem isSome_modifyInterp {f : Interpreter → Interpreter} (j : InterpId) :
    ((w.modifyInterp i f).interps.get? j).isSome = (w.interps.get? j).isSome := by
  rw [get?_modifyInterp]
  split
  · exact Option.isSome_map
  · rfl

/-- A change that has to do with no command. -/
theorem Counted.of_commands_eq (hc : Counted ⟨w, K, cut⟩)
    (hdepth : ∀ i, (w'.interp i).depth = (w.interp i).depth)
    (hknown : ∀ i, (w.interps.get? i).isSome = true → (w'.interps.get? i).isSome = true)
    (hsaved : DepthsFit K') (hopen : ∀ i, openCommands i K' = openCommands i K) :
    Counted ⟨w', K', cut'⟩ where
  saved := hsaved
  known j depth hj := by
    have hpos := openCommands_pos_iff.2 ⟨depth, hj⟩
    rw [hopen] at hpos
    obtain ⟨depth', hj'⟩ := openCommands_pos_iff.1 hpos
    exact hknown j (hc.known j depth' hj')
  depth j := (hdepth j).trans ((hc.depth j).trans (hopen j).symm)

theorem Counted.modifyInterp {f : Interpreter → Interpreter} (hc : Counted ⟨w, K, cut⟩)
    (hf : ∀ r, (f r).depth = r.depth) (hsaved : DepthsFit K')
    (hopen : ∀ i, openCommands i K' = openCommands i K) :
    Counted ⟨w.modifyInterp i f, K', cut'⟩ :=
  hc.of_commands_eq (fun j => keeps_modifyInterp (·.depth) hf w i j)
    (fun j hj => by rwa [isSome_modifyInterp]) hsaved hopen

theorem Counted.create (hc : Counted ⟨w, K, cut⟩) (hsound : Sound ⟨w, K, cut⟩) (name : String)
    (safe : Bool) (parent : Option InterpId) :
    Counted ⟨(w.newInterp name safe parent).2, K, cut⟩ := by
  refine hc.of_commands_eq (fun i => ?_) (fun i hi => ?_) hc.saved fun i => rfl
  · exact depth_newInterp hsound.known name safe parent i
  · rw [get?_newInterp]
    split
    · rfl
    · exact hi

theorem Counted.enterCommand (hc : Counted ⟨w, K, cut⟩) (hlive : (w.interp i).deleted = false) :
    Counted ⟨w.modifyInterp i fun r => { r with depth := (w.interp i).depth + 1 },
      .command i (w.interp i).depth :: K, cut⟩ where
  saved := ⟨hc.depth i, hc.saved⟩
  known j depth hj := by
    rw [isSome_modifyInterp]
    rcases List.mem_cons.1 hj with heq | hj
    · cases heq
      rw [get?_of_live hlive]
      rfl
    · exact hc.known j depth hj
  depth j := by
    by_cases hij : i = j
    · subst hij
      rw [interp_modifyInterp_of_live hlive, openCommands, if_pos rfl, ← hc.depth i]
    · rw [interp_modifyInterp_of_ne hij, openCommands, if_neg hij]
      exact hc.depth j

theorem Counted.leaveCommand {depth : Nat} (hc : Counted ⟨w, .command i depth :: K, cut⟩) :
    Counted ⟨w.modifyInterp i fun r => { r with depth }, K, cut⟩ where
  saved := hc.saved.2
  known j d hj := by
    rw [isSome_modifyInterp]
    exact hc.known j d (List.mem_cons_of_mem _ hj)
  depth j := by
    by_cases hij : i = j
    · subst hij
      rw [interp_modifyInterp_self (hc.known i depth List.mem_cons_self)]
      exact hc.saved.1
    · rw [interp_modifyInterp_of_ne hij, hc.depth j, openCommands, if_neg hij]

end

theorem Counted.step (hc : Counted c) (hsound : Sound c) (h : Step c c') : Counted c' := by
  cases h with
  | @rest w w' K cut h =>
    obtain ⟨hinterps, -⟩ := Prod.mk.inj h
    refine hc.of_commands_eq (fun i => ?_) (fun i hi => ?_) hc.saved fun i => rfl
    · rw [interp_eq_of_interpreters_eq h]
    · rwa [hinterps]
  | edit i hf => exact hc.modifyInterp hf.depth_eq hc.saved fun i => rfl
  | create name safe parent => exact hc.create hsound name safe parent
  | @delete w K cut i =>
    have hpruned := prunes_delete w i
    exact hc.of_commands_eq hpruned.depth (fun j hj => (hpruned.isSome_eq j).trans hj) hc.saved
      fun j => rfl
  | enterCall vars _ => exact hc.modifyInterp (fun r => rfl) hc.saved fun i => rfl
  | leaveCall => exact hc.modifyInterp (fun r => rfl) hc.saved fun i => rfl
  | setAside _ => exact hc.modifyInterp (fun r => rfl) hc.saved fun i => rfl
  | putBack => exact hc.modifyInterp (fun r => rfl) hc.saved fun i => rfl
  | enterCommand hlive _ => exact hc.enterCommand hlive
  | leaveCommand => exact hc.leaveCommand

theorem Counted.steps (hc : Counted c) (hsound : Sound c) (h : Steps c c') : Counted c' := by
  induction h with
  | refl => exact hc
  | tail h hstep ih => exact ih.step (hsound.steps h) hstep

theorem counted_of_no_interps {w : World} (h : w.interps = .empty) : Counted ⟨w, [], ∅⟩ where
  saved := trivial
  known i depth hi := by cases hi
  depth i := by
    simp only [interp, Table.getD, h]
    rfl

theorem Reachable.counted (h : Reachable c) : Counted c := by
  obtain ⟨w, hw, h⟩ := h
  exact (counted_of_no_interps hw).steps (sound_of_no_interps hw) h

/-- An interpreter is busy exactly as long as one of its commands is open. -/
theorem Reachable.isBusy_iff (h : Reachable c) :
    (c.world.interp i).isBusy = true ↔ ∃ depth, .command i depth ∈ c.brackets := by
  rw [Interpreter.isBusy, decide_eq_true_iff, h.counted.depth, openCommands_pos_iff]

end Run

end ScriptHost
