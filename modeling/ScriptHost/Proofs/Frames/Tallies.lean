import ScriptHost.Proofs.Frames.Machine
import ScriptHost.Proofs.World.Removal

/-!
# Global variables and their counters

An interpreter counts how often each global variable was written. Setting a variable writes a global
one if its name means one; everything else leaves the counters alone, and a global variable either
keeps its value or is gone.
-/

namespace ScriptHost

/-! ### One interpreter -/

namespace Interpreter

variable {r r' r'' : Interpreter} {name : String}

/-- Between two moments a global variable is not written: it keeps its value unless it is removed, and
the counter stays. -/
structure Unwritten (name : String) (r r' : Interpreter) : Prop where
  count : r'.writeCount name = r.writeCount name
  value : r'.global? name = r.global? name ∨ r'.global? name = none

/-- A global variable is written. -/
structure Wrote (name value : String) (r r' : Interpreter) : Prop where
  count : r'.writeCount name = r.writeCount name + 1
  value : r'.global? name = some value

theorem Unwritten.refl (name : String) (r : Interpreter) : Unwritten name r r :=
  ⟨rfl, .inl rfl⟩

theorem Unwritten.trans (h : Unwritten name r r') (h' : Unwritten name r' r'') :
    Unwritten name r r'' := by
  refine ⟨h'.count.trans h.count, ?_⟩
  rcases h'.value with hvalue | hvalue
  · rw [hvalue]
    exact h.value
  · exact .inr hvalue

theorem global?_eq_bind (r : Interpreter) (name : String) :
    r.global? name = r.frames.getLast?.bind fun frame => frame.vars.get? (globalName name) :=
  rfl

/-- What leaves the global frame and the counters alone writes no global variable. -/
theorem Unwritten.of_eq (hwrites : r'.writes = r.writes)
    (hframe : r'.frames.getLast? = r.frames.getLast?) : Unwritten name r r' := by
  refine ⟨?_, .inl ?_⟩
  · rw [writeCount, hwrites, writeCount]
  · rw [global?_eq_bind, hframe, global?_eq_bind]

/-! #### The global frame -/

theorem getLast?_modifyLast {α : Type} (f : α → α) (as : List α) :
    (modifyLast f as).getLast? = as.getLast?.map f := by
  fun_induction modifyLast f as with
  | case1 => rfl
  | case2 => rfl
  | case3 a as h ih =>
    obtain ⟨b, bs, rfl⟩ := List.exists_cons_of_ne_nil h
    rw [List.getLast?_cons_cons, ← ih]
    cases hmodified : modifyLast f (b :: bs) with
    | nil =>
      have hlength := length_modifyLast f (b :: bs)
      rw [hmodified] at hlength
      cases hlength
    | cons c cs => rw [List.getLast?_cons_cons]

@[simp]
theorem writes_modifyFrameOf (r : Interpreter) (name : String) (f : Frame → Frame) :
    (r.modifyFrameOf name f).writes = r.writes := by
  rw [modifyFrameOf]
  split <;> rfl

theorem global?_modifyGlobal (r : Interpreter) (f : Frame → Frame) (name : String) :
    (r.modifyGlobal f).global? name =
      r.frames.getLast?.bind fun frame => (f frame).vars.get? (globalName name) := by
  rw [global?_eq_bind, modifyGlobal, getLast?_modifyLast, Option.bind_map]
  rfl

theorem writeCount_countWrite (r : Interpreter) (key name : String) :
    (r.countWrite key).writeCount name =
      r.writeCount name + if key = globalName name then 1 else 0 := by
  rw [writeCount, countWrite, Table.getD, Table.get?_insert]
  split
  · next hkey =>
    rw [hkey]
    rfl
  · rfl

/-! #### Writes -/

theorem writeCount_setGlobal (r : Interpreter) (name' value name : String) :
    (r.setGlobal name' value).writeCount name =
      r.writeCount name + if globalName name' = globalName name then 1 else 0 :=
  writeCount_countWrite ..

theorem writeCount_setVar (r : Interpreter) (name' value name : String) :
    (r.setVar name' value).writeCount name = r.writeCount name +
      if r.refersGlobal name' = true ∧ globalName name' = globalName name then 1 else 0 := by
  have hsame (f : Frame → Frame) : (r.modifyFrameOf name' f).writeCount name = r.writeCount name :=
    congrArg (Table.getD · (globalName name) 0) (r.writes_modifyFrameOf name' f)
  rw [setVar]
  split
  · next hglobal => simp only [writeCount_countWrite, hsame, hglobal, true_and]
  · next hlocal => rw [hsame, if_neg fun h => hlocal h.1, Nat.add_zero]

theorem global?_setGlobal (hframes : r.frames ≠ []) (name' value name : String) :
    (r.setGlobal name' value).global? name =
      if globalName name' = globalName name then some value else r.global? name := by
  have hcounted : (r.setGlobal name' value).global? name =
      (r.modifyGlobal fun frame =>
        { frame with vars := frame.vars.insert (globalName name') value }).global? name := rfl
  rw [hcounted, global?_modifyGlobal, global?_eq_bind, List.getLast?_eq_some_getLast hframes,
    Option.bind_some, Option.bind_some, Table.get?_insert]

/-- A name that does not mean a global variable means one of the innermost frame, which is not the
global one. -/
theorem exists_frames_of_local (hlocal : r.refersGlobal name = false) :
    ∃ top next rest, r.frames = top :: next :: rest ∧ hasGlobalPrefix name = false ∧
      top.globals.contains name = false := by
  rw [refersGlobal, Bool.or_eq_false_iff] at hlocal
  obtain ⟨hname, hframes⟩ := hlocal
  split at hframes
  · cases hframes
  · next top tail hne heq =>
    cases tail with
    | nil => exact absurd rfl hne
    | cons next rest => exact ⟨top, next, rest, heq, hname, hframes⟩
  · cases hframes

theorem setVar_of_global (hglobal : r.refersGlobal name = true) (value : String) :
    r.setVar name value = r.setGlobal name value := by
  simp only [setVar, setGlobal, modifyFrameOf, hglobal, if_true]

theorem unwritten_modifyFrameOf_of_local {name' : String} (hlocal : r.refersGlobal name' = false)
    (f : Frame → Frame) : Unwritten name r (r.modifyFrameOf name' f) := by
  obtain ⟨top, next, rest, hframes, -⟩ := exists_frames_of_local hlocal
  refine .of_eq (r.writes_modifyFrameOf name' f) ?_
  simp only [modifyFrameOf, hlocal, modifyTop, hframes]
  rfl

theorem unwritten_setVar_of_local {name' : String} (hlocal : r.refersGlobal name' = false)
    (value : String) : Unwritten name r (r.setVar name' value) := by
  simp only [setVar, hlocal]
  exact unwritten_modifyFrameOf_of_local hlocal _

theorem unwritten_setGlobal_of_ne (hframes : r.frames ≠ []) {name' : String}
    (hname : globalName name' ≠ globalName name) (value : String) :
    Unwritten name r (r.setGlobal name' value) := by
  refine ⟨?_, .inl ?_⟩
  · rw [writeCount_setGlobal, if_neg hname, Nat.add_zero]
  · rw [global?_setGlobal hframes, if_neg hname]

theorem wrote_setGlobal (hframes : r.frames ≠ []) {name' : String}
    (hname : globalName name' = globalName name) (value : String) :
    Wrote name value r (r.setGlobal name' value) := by
  refine ⟨?_, ?_⟩
  · rw [writeCount_setGlobal, if_pos hname]
  · rw [global?_setGlobal hframes, if_pos hname]

/-! #### Other changes -/

theorem unwritten_unsetGlobal (name' : String) : Unwritten name r (r.unsetGlobal name') := by
  refine ⟨rfl, ?_⟩
  rw [unsetGlobal, global?_modifyGlobal, global?_eq_bind]
  cases r.frames.getLast? with
  | none => exact .inl rfl
  | some frame =>
    simp only [Option.bind_some, Table.get?_erase]
    split
    · exact .inr rfl
    · exact .inl rfl

theorem unwritten_unsetVar (name' : String) : Unwritten name r (r.unsetVar name') := by
  cases hglobal : r.refersGlobal name' with
  | true =>
    have hunset : r.unsetVar name' = r.unsetGlobal name' := by
      simp only [unsetVar, unsetGlobal, modifyFrameOf, hglobal, if_true]
    exact hunset ▸ unwritten_unsetGlobal name'
  | false => exact unwritten_modifyFrameOf_of_local hglobal _

theorem unwritten_linkGlobal (name' : String) : Unwritten name r (r.linkGlobal name') := by
  rw [linkGlobal]
  split
  · next hframes => exact .of_eq rfl (by simp [hframes])
  · exact .refl name r

theorem unwritten_enterCall (hframes : r.frames ≠ []) (vars : Table String String) :
    Unwritten name r (r.enterCall vars) := by
  obtain ⟨top, rest, heq⟩ := List.exists_cons_of_ne_nil hframes
  exact .of_eq rfl (by rw [enterCall, heq, List.getLast?_cons_cons])

theorem unwritten_leaveCall (hframes : 2 ≤ r.frames.length) : Unwritten name r r.leaveCall := by
  obtain ⟨top, tail, htop⟩ := List.exists_cons_of_length_pos (Nat.lt_of_lt_of_le Nat.two_pos hframes)
  rw [htop, List.length_cons] at hframes
  obtain ⟨next, rest, rfl⟩ := List.exists_cons_of_length_pos (Nat.le_of_succ_le_succ hframes)
  exact .of_eq rfl (by rw [leaveCall, htop, List.tail_cons, List.getLast?_cons_cons])

theorem unwritten_dropCalls : Unwritten name r r.dropCalls := by
  refine .of_eq rfl ?_
  rw [dropCalls]
  cases r.frames.getLast? <;> rfl

theorem unwritten_restoreCalls (hframes : r.frames ≠ []) (saved : List Frame) :
    Unwritten name r (r.restoreCalls saved) :=
  .of_eq rfl (List.getLast?_append_of_ne_nil saved hframes)

theorem unwritten_of_pruned (hpruned : World.Pruned r r') (hwrites : r'.writes = r.writes) :
    Unwritten name r r' := by
  refine ⟨by rw [writeCount, hwrites, writeCount], ?_⟩
  rcases hpruned.2 with ⟨hsame, -⟩ | ⟨-, -, hwiped⟩
  · rw [global?_eq_bind, hsame]
    exact .inl rfl
  · rw [global?_eq_bind, hwiped]
    exact .inr rfl

/-- A change that has nothing to do with frames sets a variable, or no global one is written. -/
theorem Edit.cases {f : Interpreter → Interpreter} (hf : Edit f) :
    (∃ name value, f = fun r => r.setVar name value) ∨
    (∃ name value, f = fun r => r.setGlobal name value) ∨ ∀ name r, Unwritten name r (f r) := by
  cases hf with
  | setVar name value => exact .inl ⟨name, value, rfl⟩
  | setGlobal name value => exact .inr (.inl ⟨name, value, rfl⟩)
  | unsetVar name => exact .inr (.inr fun _ r => unwritten_unsetVar name)
  | unsetGlobal name => exact .inr (.inr fun _ r => unwritten_unsetGlobal name)
  | linkGlobals names =>
    refine .inr (.inr fun name r => ?_)
    induction names generalizing r with
    | nil => exact .refl name r
    | cons name' names ih => exact (unwritten_linkGlobal name').trans (ih (r.linkGlobal name'))
  | define name command =>
    refine .inr (.inr fun _ r => ?_)
    dsimp only
    split <;> exact .of_eq rfl rfl
  | undefine | generateName | addChild | schedule | unschedule | onDelete | onChild =>
    exact .inr (.inr fun _ r => .of_eq rfl rfl)

end Interpreter

/-! ### The interpreters of a world -/

namespace World

variable {w w' : World} {i j : InterpId}

/-- An interpreter was made. -/
def Knows (w : World) (i : InterpId) : Prop :=
  (w.interps.get? i).isSome = true

theorem Knows.get? (hi : w.Knows i) : w.interps.get? i = some (w.interp i) := by
  obtain ⟨r, hr⟩ := Option.isSome_iff_exists.1 hi
  rw [interp_of_get? hr, hr]

theorem Knows.modifyInterp (hi : w.Knows i) (j : InterpId) (f : Interpreter → Interpreter) :
    (w.modifyInterp j f).Knows i := by
  rw [Knows, get?_modifyInterp, hi.get?]
  split <;> rfl

theorem Knows.interp_modifyInterp (hi : w.Knows i) (j : InterpId) (f : Interpreter → Interpreter) :
    (w.modifyInterp j f).interp i = if j = i then f (w.interp i) else w.interp i := by
  split
  · next hji => exact hji ▸ interp_modifyInterp_self (hji ▸ hi) f
  · next hji => exact interp_modifyInterp_of_ne hji f

theorem Knows.newInterp (hi : w.Knows i) (hnew : i ≠ w.nextInterp) (name : String) (safe : Bool)
    (parent : Option InterpId) :
    (w.newInterp name safe parent).2.Knows i ∧
      (w.newInterp name safe parent).2.interp i = w.interp i := by
  have hget : (w.newInterp name safe parent).2.interps.get? i = some (w.interp i) := by
    rw [get?_newInterp, if_neg hnew.symm, hi.get?]
  exact ⟨Option.isSome_iff_exists.2 ⟨_, hget⟩, interp_of_get? hget⟩

theorem Prunes.pruned (h : w.Prunes w') (hi : w.Knows i) :
    w'.Knows i ∧ Pruned (w.interp i) (w'.interp i) := by
  have hrel := h.each i
  rw [hi.get?] at hrel
  generalize hr' : w'.interps.get? i = a at hrel
  obtain ⟨hpruned⟩ | - := hrel
  rw [interp_of_get? hr']
  exact ⟨Option.isSome_iff_exists.2 ⟨_, hr'⟩, hpruned⟩

/-- What has been counted in an interpreter. -/
def tallies (w : World) (i : InterpId) : Table String Nat :=
  (w.interp i).writes

theorem tallies_of_interpreters_eq (h : w'.interpreters = w.interpreters) :
    w'.tallies = w.tallies :=
  funext fun i => congrArg (·.writes) (interp_eq_of_interpreters_eq h i)

theorem tallies_modifyInterp {f : Interpreter → Interpreter} (hf : ∀ r, (f r).writes = r.writes) :
    (w.modifyInterp i f).tallies = w.tallies :=
  funext fun j => keeps_modifyInterp (·.writes) hf w i j

/-- What a deletion leaves to an interpreter: what has been counted in it, and the number of the next name
that it generates. -/
def remains (w : World) (i : InterpId) : Table String Nat × Nat :=
  ((w.interp i).writes, (w.interp i).nextChild)

theorem remains_of_interpreters_eq (h : w'.interpreters = w.interpreters) :
    w'.remains = w.remains :=
  funext fun i =>
    congrArg (fun r : Interpreter => (r.writes, r.nextChild)) (interp_eq_of_interpreters_eq h i)

theorem remains_modifyInterp {f : Interpreter → Interpreter}
    (hf : ∀ r, ((f r).writes, (f r).nextChild) = (r.writes, r.nextChild)) :
    (w.modifyInterp i f).remains = w.remains :=
  funext fun j => keeps_modifyInterp (fun r => (r.writes, r.nextChild)) hf w i j

theorem remains_secede (w : World) (r : Interpreter) (i : InterpId) :
    (w.secede r i).remains = w.remains := by
  have hdetach : (w.detach r).remains = w.remains := by
    rw [detach]
    split
    · exact remains_modifyInterp fun _ => rfl
    · rfl
  have hcancel := interpreters_foldl (fun w token => interpreters_cancelAfter w token)
    ((w.detach r).interp i).afters.values
    ((w.detach r).modifyInterp i fun r => { r with afters := .empty })
  rw [secede, cancelAfters, remains_of_interpreters_eq hcancel, ← hdetach]
  exact remains_modifyInterp fun _ => rfl

end World

namespace Removal

open World

/-- A deletion takes variables and children away. What was counted, and how many names were generated, is
kept. -/
theorem Runs.remains {job : Removal} {w w' : World} {ran : List HookRun} (h : Runs job w ran w') :
    w'.remains = w.remains := by
  induction h with
  | gone => rfl
  | @tree i w u v _ _ _ _ _ ihchildren ihhooks =>
    have hwipe : (v.modifyInterp i Interpreter.wipe).remains = v.remains :=
      remains_modifyInterp fun _ => rfl
    have hdisarm : ((u.secede (w.interp i) i).disarm i).remains = (u.secede (w.interp i) i).remains :=
      remains_modifyInterp fun _ => rfl
    have hcondemn : (w.modifyInterp i Interpreter.condemn).remains = w.remains :=
      remains_modifyInterp fun _ => rfl
    rw [hwipe, ihhooks, hdisarm, remains_secede, ihchildren, hcondemn]
  | noTrees => rfl
  | trees _ _ ih ih' => exact ih'.trans ih
  | log => rfl
  | untrack => exact remains_of_interpreters_eq (interpreters_untrack _ _)
  | delete _ ih => exact ih
  | install => exact remains_modifyInterp fun _ => rfl
  | late _ _ ih => exact ih
  | noHooks => rfl
  | hooks _ _ ih ih' => exact ih'.trans ih

end Removal

namespace World

theorem remains_delete (w : World) (i : InterpId) : (w.delete i).remains = w.remains := by
  obtain ⟨ran, hruns⟩ := Removal.exists_runs_delete w i
  exact hruns.remains

theorem tallies_delete (w : World) (i : InterpId) : (w.delete i).tallies = w.tallies :=
  funext fun j => congrArg Prod.fst (congrFun (w.remains_delete i) j)

end World

end ScriptHost
