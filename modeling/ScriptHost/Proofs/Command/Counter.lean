import ScriptHost.Proofs.Command.Variables
import ScriptHost.Proofs.Expr.Integers

/-!
# Counters

A counter is a variable that is set to the decimal text of a word and then added to, one command after
another. The sums wrap around at 64 bits. They do so up to the first time that the text of the least word
is to be read, as the value of the counter or as what is added: this text is refused.
-/

namespace ScriptHost

open Interpreter Number

/-! ### Sums -/

namespace Counter

/-- A counter after some numbers have been added. -/
def total (c : Int64) (ds : List Int64) : Int64 :=
  ds.foldl (· + ·) c

/-- The numbers that are added to a counter: those before the first one that meets the least word. -/
def added (c : Int64) : List Int64 → List Int64
  | [] => []
  | d :: ds => if c = Int64.minValue ∨ d = Int64.minValue then [] else d :: added (c + d) ds

variable {c d : Int64} {ds : List Int64}

theorem toInt_total (c : Int64) (ds : List Int64) :
    (total c ds).toInt = Expr.wrap (c.toInt + (ds.map Int64.toInt).sum) := by
  induction ds generalizing c with
  | nil => simp [total, Expr.wrap_toInt]
  | cons d ds ih =>
    have htotal : total c (d :: ds) = total (c + d) ds := rfl
    rw [htotal, ih, Int64.toInt_add, List.map_cons, List.sum_cons, ← Int.add_assoc]
    exact Int.bmod_add_bmod

theorem total_eq_minValue_iff :
    total c ds = Int64.minValue ↔ Expr.wrap (c.toInt + (ds.map Int64.toInt).sum) = -2 ^ 63 := by
  have hleast : Int64.minValue.toInt = -2 ^ 63 := rfl
  rw [← toInt_total, ← hleast, Int64.toInt_inj]

theorem added_cons_of_least (h : c = Int64.minValue ∨ d = Int64.minValue) : added c (d :: ds) = [] :=
  if_pos h

theorem added_cons (hc : c ≠ Int64.minValue) (hd : d ≠ Int64.minValue) :
    added c (d :: ds) = d :: added (c + d) ds :=
  if_neg (not_or.2 ⟨hc, hd⟩)

/-- All numbers are added unless one of them is the least word or the counter is the least word before it
is added to. -/
theorem added_eq_self_iff : added c ds = ds ↔ Int64.minValue ∉ ds ∧
    ∀ done rest, ds = done ++ rest → rest ≠ [] → total c done ≠ Int64.minValue := by
  induction ds generalizing c with
  | nil => simp [added]
  | cons d ds ih =>
    by_cases hleast : c = Int64.minValue ∨ d = Int64.minValue
    · rw [added_cons_of_least hleast]
      constructor
      · intro h
        cases h
      · rintro ⟨hmem, htotal⟩
        rcases hleast with hc | hd
        · exact absurd hc (htotal [] (d :: ds) rfl (List.cons_ne_nil d ds))
        · exact absurd (hd ▸ List.mem_cons_self) hmem
    · obtain ⟨hc, hd⟩ := not_or.1 hleast
      rw [added_cons hc hd, List.cons_inj_right, ih]
      constructor
      · rintro ⟨hmem, htotal⟩
        refine ⟨?_, ?_⟩
        · rw [List.mem_cons, not_or]
          exact ⟨Ne.symm hd, hmem⟩
        · intro done rest happend hrest
          cases done with
          | nil => exact hc
          | cons d' done =>
            rw [List.cons_append] at happend
            cases happend
            exact htotal done rest rfl hrest
      · rintro ⟨hmem, htotal⟩
        rw [List.mem_cons, not_or] at hmem
        refine ⟨hmem.2, ?_⟩
        intro done rest happend hrest
        exact htotal (d :: done) rest (congrArg _ happend) hrest

end Counter

/-! ### Steps -/

variable {e : Engine} {w : World} {i : InterpId} {name : String} {c d : Int64} {ds : List Int64}

/-- A world in which an interpreter can count: its commands for this are there and can be invoked. -/
structure World.CanCount (w : World) (i : InterpId) : Prop where
  live : (w.interp i).deleted = false
  set : (w.interp i).commands.get? "set" = some (.builtin .set)
  incr : (w.interp i).commands.get? "incr" = some (.builtin .incr)
  depth : (w.interp i).depth < maxDepth
  frames : (w.interp i).frames ≠ []

/-- The message about the text of the least word. -/
def leastRefused : Abrupt :=
  .error "expected integer but got \"-9223372036854775808\""

namespace World.CanCount

theorem record (hw : w.CanCount i) (what : Occurrence) : (w.record what).CanCount i :=
  ⟨hw.live, hw.set, hw.incr, hw.depth, hw.frames⟩

theorem setVar (hw : w.CanCount i) (name value : String) :
    (w.modifyInterp i fun r => r.setVar name value).CanCount i ∧
      ((w.modifyInterp i fun r => r.setVar name value).interp i).var? name = some value := by
  have hinterp := interp_modifyInterp_of_live hw.live fun r => r.setVar name value
  obtain ⟨hcommands, hdeleted, hdepth⟩ := (w.interp i).setVar_keeps name value
  refine ⟨⟨?_, ?_, ?_, ?_, ?_⟩, ?_⟩ <;> rw [hinterp]
  · exact hdeleted.trans hw.live
  · rw [hcommands]
    exact hw.set
  · rw [hcommands]
    exact hw.incr
  · rw [hdepth]
    exact hw.depth
  · exact frames_setVar_ne_nil hw.frames name value
  · exact var?_setVar hw.frames name value

/-- A counter is set to a word. -/
theorem run_set (hw : w.CanCount i) (name : String) (c : Int64) :
    ∃ w', (invokeWords e i ["set", name, integerText c]).run w = .ok (.ok (integerText c)) w' ∧
      w'.CanCount i ∧ (w'.interp i).var? name = some (integerText c) := by
  have hrun : (writeVar i name (integerText c)).run
      (w.beginCommand i "set" (.builtin .set) (w.interp i).depth) =
        .ok (.ok (integerText c))
          ((w.beginCommand i "set" (.builtin .set) (w.interp i).depth).modifyInterp i
            fun r => r.setVar name (integerText c)) := by
    apply run_writeVar
    rw [frames_beginCommand hw.live]
    exact hw.frames
  exact ⟨_, run_invokeWords_of_writes hw.live hw.set hw.depth hrun, (hw.record _).setVar name _⟩

/-- A number is added to a counter if neither of them is the least word. -/
theorem run_incr (hw : w.CanCount i) (hvar : (w.interp i).var? name = some (integerText c))
    (hc : c ≠ Int64.minValue) (hd : d ≠ Int64.minValue) :
    ∃ w', (invokeWords e i ["incr", name, integerText d]).run w =
        .ok (.ok (integerText (c + d))) w' ∧
      w'.CanCount i ∧ (w'.interp i).var? name = some (integerText (c + d)) := by
  have hrun : (Command.incr i [name, integerText d]).run
      (w.beginCommand i "incr" (.builtin .incr) (w.interp i).depth) =
        .ok (.ok (integerText (c + d)))
          ((w.beginCommand i "incr" (.builtin .incr) (w.interp i).depth).modifyInterp i
            fun r => r.setVar name (integerText (c + d))) := by
    have hframes := (frames_beginCommand hw.live "incr" (.builtin .incr) (w.interp i).depth).trans_ne
      hw.frames
    rw [Command.incr, intArg_integerText hd, pure_bind, Command.incrBy, run_lookupVar_bind hframes,
      var?_beginCommand hw.live, hvar]
    dsimp only
    rw [intArg_integerText hc, pure_bind]
    exact run_writeVar hframes name _
  exact ⟨_, run_invokeWords_of_writes hw.live hw.incr hw.depth hrun, (hw.record _).setVar name _⟩

/-- If a counter or what is added to it is the least word, its text is refused, and nothing happens. -/
theorem run_incr_of_least (hw : w.CanCount i) (hvar : (w.interp i).var? name = some (integerText c))
    (hleast : c = Int64.minValue ∨ d = Int64.minValue) :
    ∃ w', (invokeWords e i ["incr", name, integerText d]).run w = .ok (.error leastRefused) w' ∧
      (w'.interp i).var? name = some (integerText c) := by
  have hrun : (Command.incr i [name, integerText d]).run
      (w.beginCommand i "incr" (.builtin .incr) (w.interp i).depth) =
        .ok (.error leastRefused) (w.beginCommand i "incr" (.builtin .incr) (w.interp i).depth) := by
    have hframes := (frames_beginCommand hw.live "incr" (.builtin .incr) (w.interp i).depth).trans_ne
      hw.frames
    by_cases hd : d = Int64.minValue
    · rw [hd, Command.incr, intArg_integerText_minValue]
      rfl
    · have hc : c = Int64.minValue := hleast.resolve_right hd
      rw [Command.incr, intArg_integerText hd, pure_bind, Command.incrBy, run_lookupVar_bind hframes,
        var?_beginCommand hw.live, hvar, hc]
      dsimp only
      rw [intArg_integerText_minValue]
      rfl
  exact ⟨_, run_invokeWords_of_fails hw.live hw.incr hw.depth hrun, hvar⟩

end World.CanCount

/-! ### Runs -/

/-- Add numbers to a variable, one command after another. -/
def addAll (e : Engine) (i : InterpId) (name : String) : List Int64 → Exec Unit
  | [] => pure ()
  | d :: ds => do
    let _ ← invokeWords e i ["incr", name, integerText d]
    addAll e i name ds

/-- Set a counter to a number and add numbers to it. -/
def tally (e : Engine) (i : InterpId) (name : String) (c : Int64) (ds : List Int64) : Exec Unit := do
  let _ ← invokeWords e i ["set", name, integerText c]
  addAll e i name ds

/-- How a counter ends: normally if all numbers are added. -/
def Counter.completion (c : Int64) (ds : List Int64) : Except Abrupt Unit :=
  if added c ds = ds then .ok () else .error leastRefused

/-- What adding numbers does. By induction on them: the counter takes in those before the first one that
meets the least word, and there the run ends. -/
theorem World.CanCount.run_addAll (hw : w.CanCount i)
    (hvar : (w.interp i).var? name = some (integerText c)) (e : Engine) (ds : List Int64) :
    ∃ w', (addAll e i name ds).run w = .ok (Counter.completion c ds) w' ∧
      (w'.interp i).var? name = some (integerText (Counter.total c (Counter.added c ds))) := by
  induction ds generalizing c w with
  | nil => exact ⟨w, rfl, hvar⟩
  | cons d ds ih =>
    by_cases hleast : c = Int64.minValue ∨ d = Int64.minValue
    · obtain ⟨w', hrun, hvar'⟩ := hw.run_incr_of_least (e := e) hvar hleast
      refine ⟨w', ?_, ?_⟩
      · rw [addAll, Exec.run_bind_of_error hrun, Counter.completion, Counter.added_cons_of_least hleast]
        rfl
      · rw [Counter.added_cons_of_least hleast]
        exact hvar'
    · obtain ⟨hc, hd⟩ := not_or.1 hleast
      obtain ⟨w₁, hrun, hw₁, hvar₁⟩ := hw.run_incr (e := e) hvar hc hd
      obtain ⟨w', hrest, hvar'⟩ := ih hw₁ hvar₁
      refine ⟨w', ?_, ?_⟩
      · rw [addAll, Exec.run_bind_of_ok hrun, hrest, Counter.completion, Counter.completion,
          Counter.added_cons hc hd]
        simp only [List.cons_inj_right]
      · rw [Counter.added_cons hc hd]
        exact hvar'

/-- A counter that is set to a word and then added to holds the sum of the word and all numbers that were
added, brought into the range of words. All numbers are added, and then the run ends normally, unless one
of them is the least word or the counter comes to the least word before the last of them. There the run
fails, because the text of the least word is no integer. -/
theorem tally_wraps_until_least (e : Engine) (hw : w.CanCount i) (name : String) (c : Int64)
    (ds : List Int64) :
    ∃ w', (tally e i name c ds).run w =
        .ok (if Counter.added c ds = ds then .ok () else .error leastRefused) w' ∧
      (w'.interp i).var? name =
        some (toString (Expr.wrap (c.toInt + ((Counter.added c ds).map Int64.toInt).sum))) ∧
      (Counter.added c ds = ds ↔ Int64.minValue ∉ ds ∧ ∀ done rest, ds = done ++ rest → rest ≠ [] →
        Expr.wrap (c.toInt + (done.map Int64.toInt).sum) ≠ -2 ^ 63) := by
  obtain ⟨w₁, hset, hw₁, hvar₁⟩ := hw.run_set (e := e) name c
  obtain ⟨w', hrun, hvar⟩ := hw₁.run_addAll hvar₁ e ds
  refine ⟨w', ?_, ?_, ?_⟩
  · rw [tally, Exec.run_bind_of_ok hset, hrun, Counter.completion]
  · rw [hvar, integerText, Counter.toInt_total]
  · simp only [Counter.added_eq_self_iff, ne_eq, Counter.total_eq_minValue_iff]

/-- A world with one interpreter. -/
def Counter.world : World :=
  (({} : World).newInterp "" true none).2

/-- The greatest word and two and five make a sum that wraps around. -/
theorem tally_wraps_greatest :
    Counter.world.CanCount 0 ∧
      ∃ w', (tally engine 0 "x" Int64.maxValue [2, 5]).run Counter.world = .ok (.ok ()) w' ∧
        (w'.interp 0).var? "x" = some "-9223372036854775802" := by
  have hw : Counter.world.CanCount 0 := ⟨rfl, rfl, rfl, by decide, List.cons_ne_nil _ _⟩
  obtain ⟨w', hrun, hvar, -⟩ := tally_wraps_until_least engine hw "x" Int64.maxValue [2, 5]
  have hadded : Counter.added Int64.maxValue [2, 5] = [2, 5] := by decide
  rw [hadded] at hrun hvar
  exact ⟨hw, w', hrun, hvar⟩

/-- One can be added to the greatest word, and then nothing any more. -/
theorem tally_stops_at_least :
    Act.result (tally engine 0 "x" Int64.maxValue [1]).run Counter.world = .ok (.ok ()) ∧
      Act.result (tally engine 0 "x" Int64.maxValue [1, 1]).run Counter.world =
        .ok (.error (.error "expected integer but got \"-9223372036854775808\"")) := by
  decide +kernel

end ScriptHost
