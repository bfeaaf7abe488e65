import Mathlib.Logic.Relation
import Mathlib.Data.Set.Basic
import ScriptHost.Proofs.World.Interps

/-!
# How frames come and go

Frames are pushed and popped around procedure calls, put aside and put back around event handlers,
and replaced when an interpreter is deleted. The machine of this module makes one such change in
each step and keeps what is still to be undone on a stack of brackets. A bracket is closed whatever
happened in between: also if the interpreter was deleted and the frame to be popped is gone.

So the number of frames of an interpreter is known in every state unless it was deleted while a
procedure of it was running, and from then on it is too small by one at least.
-/

namespace ScriptHost

/-- The changes of an interpreter that have nothing to do with frames, calls or its deletion. -/
inductive Interpreter.Edit : (Interpreter → Interpreter) → Prop
  | setVar (name value : String) : Edit fun r => r.setVar name value
  | unsetVar (name : String) : Edit fun r => r.unsetVar name
  | setGlobal (name value : String) : Edit fun r => r.setGlobal name value
  | unsetGlobal (name : String) : Edit fun r => r.unsetGlobal name
  | linkGlobals (names : List String) :
      Edit fun r => names.foldl (fun r name => r.linkGlobal name) r
  | define (name : String) (command : Command) :
      Edit fun r => if r.deleted then r else { r with commands := r.commands.insert name command }
  | undefine (name : String) : Edit fun r => { r with commands := r.commands.erase name }
  | generateName : Edit fun r => r.generateName.2
  | addChild (name : String) (child : InterpId) :
      Edit fun r => { r with children := r.children.insert name child }
  | schedule (id : String) (token : AfterToken) :
      Edit fun r => { r with nextAfter := r.nextAfter + 1, afters := r.afters.insert id token }
  | unschedule (id : String) : Edit fun r => { r with afters := r.afters.erase id }
  | onDelete (hook : DeleteHook) :
      Edit fun r => { r with deleteHooks := r.deleteHooks ++ [hook] }
  | onChild (hook : ChildHook) : Edit fun r => { r with childHooks := r.childHooks ++ [hook] }

namespace Interpreter

variable {r r' r'' : Interpreter}

/-! ### Changes of variables -/

/-- At most variables are different: what the frames hold, and how often global variables were written. -/
def OnlyVars (r r' : Interpreter) : Prop :=
  ∃ frames writes, frames.length = r.frames.length ∧ r' = { r with frames, writes }

theorem OnlyVars.refl (r : Interpreter) : OnlyVars r r :=
  ⟨r.frames, r.writes, rfl, rfl⟩

theorem OnlyVars.trans (h : OnlyVars r r') (h' : OnlyVars r' r'') : OnlyVars r r'' := by
  obtain ⟨frames, writes, hlength, rfl⟩ := h
  obtain ⟨frames', writes', hlength', rfl⟩ := h'
  exact ⟨frames', writes', hlength'.trans hlength, rfl⟩

theorem OnlyVars.length_frames (h : OnlyVars r r') : r'.frames.length = r.frames.length := by
  obtain ⟨frames, writes, hlength, rfl⟩ := h
  exact hlength

/-- What has nothing to do with variables is the same. -/
theorem OnlyVars.keeps {α : Type} (h : OnlyVars r r') (field : Interpreter → α)
    (hfield : ∀ frames writes, field { r with frames, writes } = field r) : field r' = field r := by
  obtain ⟨frames, writes, -, rfl⟩ := h
  exact hfield frames writes

theorem length_modifyLast {α : Type} (f : α → α) (as : List α) :
    (modifyLast f as).length = as.length := by
  fun_induction modifyLast f as with
  | case1 => rfl
  | case2 => rfl
  | case3 a as h ih => simp [ih]

theorem onlyVars_modifyGlobal (r : Interpreter) (f : Frame → Frame) :
    OnlyVars r (r.modifyGlobal f) :=
  ⟨_, r.writes, length_modifyLast f r.frames, rfl⟩

theorem onlyVars_modifyTop (r : Interpreter) (f : Frame → Frame) : OnlyVars r (r.modifyTop f) := by
  refine ⟨_, r.writes, ?_, rfl⟩
  cases r.frames <;> rfl

theorem onlyVars_modifyFrameOf (r : Interpreter) (name : String) (f : Frame → Frame) :
    OnlyVars r (r.modifyFrameOf name f) := by
  rw [modifyFrameOf]
  split
  · exact onlyVars_modifyGlobal r f
  · exact onlyVars_modifyTop r f

theorem onlyVars_countWrite (r : Interpreter) (name : String) : OnlyVars r (r.countWrite name) :=
  ⟨r.frames, _, rfl, rfl⟩

theorem onlyVars_setVar (r : Interpreter) (name value : String) : OnlyVars r (r.setVar name value) := by
  rw [setVar]
  split
  · exact (onlyVars_modifyFrameOf r name _).trans (onlyVars_countWrite _ _)
  · exact onlyVars_modifyFrameOf r name _

theorem onlyVars_unsetVar (r : Interpreter) (name : String) : OnlyVars r (r.unsetVar name) :=
  onlyVars_modifyFrameOf r name _

theorem onlyVars_setGlobal (r : Interpreter) (name value : String) :
    OnlyVars r (r.setGlobal name value) :=
  (onlyVars_modifyGlobal r _).trans (onlyVars_countWrite _ _)

theorem onlyVars_unsetGlobal (r : Interpreter) (name : String) : OnlyVars r (r.unsetGlobal name) :=
  onlyVars_modifyGlobal r _

theorem onlyVars_linkGlobal (r : Interpreter) (name : String) : OnlyVars r (r.linkGlobal name) := by
  rw [linkGlobal]
  split
  · next hframes => exact ⟨_, r.writes, by rw [hframes]; rfl, rfl⟩
  · exact .refl r

theorem onlyVars_linkGlobals (r : Interpreter) (names : List String) :
    OnlyVars r (names.foldl (fun r name => r.linkGlobal name) r) := by
  induction names generalizing r with
  | nil => exact .refl r
  | cons name names ih => exact (onlyVars_linkGlobal r name).trans (ih _)

/-- A change that has nothing to do with frames is one of variables, or it leaves the frames alone. -/
theorem Edit.onlyVars_or {f : Interpreter → Interpreter} (hf : Edit f) (r : Interpreter) :
    OnlyVars r (f r) ∨
      (f r).frames = r.frames ∧ (f r).deleted = r.deleted ∧ (f r).depth = r.depth := by
  cases hf with
  | setVar name value => exact .inl (onlyVars_setVar r name value)
  | unsetVar name => exact .inl (onlyVars_unsetVar r name)
  | setGlobal name value => exact .inl (onlyVars_setGlobal r name value)
  | unsetGlobal name => exact .inl (onlyVars_unsetGlobal r name)
  | linkGlobals names => exact .inl (onlyVars_linkGlobals r names)
  | define name command =>
    dsimp only
    split <;> exact .inr ⟨rfl, rfl, rfl⟩
  | undefine | generateName | addChild | schedule | unschedule | onDelete | onChild =>
    exact .inr ⟨rfl, rfl, rfl⟩

theorem Edit.length_frames {f : Interpreter → Interpreter} (hf : Edit f) (r : Interpreter) :
    (f r).frames.length = r.frames.length := by
  obtain hvars | ⟨hframes, -, -⟩ := hf.onlyVars_or r
  · exact hvars.length_frames
  · rw [hframes]

theorem Edit.deleted_eq {f : Interpreter → Interpreter} (hf : Edit f) (r : Interpreter) :
    (f r).deleted = r.deleted := by
  obtain hvars | ⟨-, hdeleted, -⟩ := hf.onlyVars_or r
  · exact hvars.keeps deleted fun _ _ => rfl
  · exact hdeleted

theorem Edit.depth_eq {f : Interpreter → Interpreter} (hf : Edit f) (r : Interpreter) :
    (f r).depth = r.depth := by
  obtain hvars | ⟨-, -, hdepth⟩ := hf.onlyVars_or r
  · exact hvars.keeps depth fun _ _ => rfl
  · exact hdepth

end Interpreter

/-! ### The machine -/

namespace Run

/-- What is still to be undone when some code ends. -/
inductive Bracket
  /-- A procedure call of an interpreter. -/
  | call (i : InterpId)
  /-- The frames of procedure calls that were put aside. -/
  | aside (i : InterpId) (saved : List Frame)
  /-- A command, with the depth at which it was invoked. -/
  | command (i : InterpId) (depth : Nat)

/-- The interpreter of a bracket. -/
def Bracket.interp : Bracket → InterpId
  | .call i => i
  | .aside i _ => i
  | .command i _ => i

/-- A moment of a run. -/
structure Config where
  world : World
  /-- What is still to be undone, the innermost first. -/
  brackets : List Bracket
  /-- The interpreters that were deleted while a procedure of theirs was running. -/
  cut : Set InterpId

/-- The interpreters that go from one world to another while a procedure of theirs is running. -/
def cutBetween (w w' : World) : Set InterpId :=
  {i | (w.interp i).deleted = false ∧ (w.interp i).callFrames ≠ [] ∧
    (w'.interp i).deleted = true}

/-- One change of a world. -/
inductive Step : Config → Config → Prop
  | rest {w w' : World} {K : List Bracket} {cut : Set InterpId}
      (h : w'.interpreters = w.interpreters) : Step ⟨w, K, cut⟩ ⟨w', K, cut⟩
  | edit {w : World} {K : List Bracket} {cut : Set InterpId} (i : InterpId)
      {f : Interpreter → Interpreter} (hf : Interpreter.Edit f) :
      Step ⟨w, K, cut⟩ ⟨w.modifyInterp i f, K, cut⟩
  | create {w : World} {K : List Bracket} {cut : Set InterpId} (name : String) (safe : Bool)
      (parent : Option InterpId) :
      Step ⟨w, K, cut⟩ ⟨(w.newInterp name safe parent).2, K, cut⟩
  | delete {w : World} {K : List Bracket} {cut : Set InterpId} (i : InterpId) :
      Step ⟨w, K, cut⟩ ⟨w.delete i, K, cut ∪ cutBetween w (w.delete i)⟩
  | enterCall {w : World} {K : List Bracket} {cut : Set InterpId} {i : InterpId}
      (vars : Table String String) (hlive : (w.interp i).deleted = false) :
      Step ⟨w, K, cut⟩ ⟨w.modifyInterp i fun r => r.enterCall vars, .call i :: K, cut⟩
  | leaveCall {w : World} {K : List Bracket} {cut : Set InterpId} {i : InterpId} :
      Step ⟨w, .call i :: K, cut⟩ ⟨w.modifyInterp i Interpreter.leaveCall, K, cut⟩
  | setAside {w : World} {K : List Bracket} {cut : Set InterpId} {i : InterpId}
      (hlive : (w.interp i).deleted = false) :
      Step ⟨w, K, cut⟩
        ⟨w.modifyInterp i Interpreter.dropCalls, .aside i (w.interp i).callFrames :: K, cut⟩
  | putBack {w : World} {K : List Bracket} {cut : Set InterpId} {i : InterpId}
      {saved : List Frame} :
      Step ⟨w, .aside i saved :: K, cut⟩
        ⟨w.modifyInterp i fun r => r.restoreCalls saved, K, cut⟩
  | enterCommand {w : World} {K : List Bracket} {cut : Set InterpId} {i : InterpId}
      (hlive : (w.interp i).deleted = false)
      (hdepth : (w.interp i).depth < Interpreter.maxDepth) :
      Step ⟨w, K, cut⟩
        ⟨w.modifyInterp i fun r => { r with depth := (w.interp i).depth + 1 },
          .command i (w.interp i).depth :: K, cut⟩
  | leaveCommand {w : World} {K : List Bracket} {cut : Set InterpId} {i : InterpId} {depth : Nat} :
      Step ⟨w, .command i depth :: K, cut⟩
        ⟨w.modifyInterp i fun r => { r with depth }, K, cut⟩

/-- Any number of changes. -/
abbrev Steps : Config → Config → Prop :=
  Relation.ReflTransGen Step

/-- The moments of all runs that begin without interpreters. -/
def Reachable (c : Config) : Prop :=
  ∃ w : World, w.interps = .empty ∧ Steps ⟨w, [], ∅⟩ c

theorem Reachable.steps {c c' : Config} (hc : Reachable c) (h : Steps c c') : Reachable c' := by
  obtain ⟨w, hw, hwc⟩ := hc
  exact ⟨w, hw, hwc.trans h⟩

theorem Reachable.step {c c' : Config} (hc : Reachable c) (h : Step c c') : Reachable c' :=
  hc.steps (.single h)

/-! ### The interpreters that are cut -/

section

variable {c c' : Config} {i : InterpId}

theorem Step.cut_subset (h : Step c c') : c.cut ⊆ c'.cut := by
  cases h with
  | delete => exact Set.subset_union_left
  | _ => exact subset_rfl

theorem Steps.cut_subset (h : Steps c c') : c.cut ⊆ c'.cut := by
  induction h with
  | refl => exact subset_rfl
  | tail _ h ih => exact ih.trans h.cut_subset

/-- Only a deletion makes a live interpreter a deleted one. -/
theorem Step.mem_cut (h : Step c c') (hlive : (c.world.interp i).deleted = false)
    (hcalls : (c.world.interp i).callFrames ≠ []) (hgone : (c'.world.interp i).deleted = true) :
    i ∈ c'.cut := by
  have hstill (hsame : (c'.world.interp i).deleted = (c.world.interp i).deleted) :
      i ∈ c'.cut := by
    rw [hgone, hlive] at hsame
    exact Bool.noConfusion hsame
  cases h with
  | rest h =>
    obtain ⟨hi, -⟩ := Prod.mk.inj h
    refine hstill ?_
    simp only [World.interp, hi]
  | edit j hf => exact hstill (World.deleted_modifyInterp hf.deleted_eq _ j i)
  | create name safe parent =>
    exact hstill ((World.live_newInterp name safe parent hlive).trans hlive.symm)
  | delete j => exact .inr ⟨hlive, hcalls, hgone⟩
  | enterCall | leaveCall | setAside | putBack | enterCommand | leaveCommand =>
    refine hstill (World.deleted_modifyInterp (fun r => ?_) _ _ i)
    rfl

theorem Step.of_mem_cut (h : Step c c') (hi : i ∉ c.cut) (hi' : i ∈ c'.cut) :
    (c.world.interp i).deleted = false ∧ (c.world.interp i).callFrames ≠ [] ∧
      (c'.world.interp i).deleted = true := by
  cases h with
  | delete => exact hi'.resolve_left hi
  | _ => exact absurd hi' hi

/-- An interpreter is cut if some step deleted it while a procedure of it was running. -/
theorem mem_cut_iff {w : World} (h : Steps ⟨w, [], ∅⟩ c) :
    i ∈ c.cut ↔ ∃ u u', Steps ⟨w, [], ∅⟩ u ∧ Step u u' ∧ Steps u' c ∧
      (u.world.interp i).deleted = false ∧ (u.world.interp i).callFrames ≠ [] ∧
      (u'.world.interp i).deleted = true := by
  constructor
  · intro hi
    induction h with
    | refl => exact absurd hi (Set.notMem_empty i)
    | @tail u u' hu hstep ih =>
      by_cases hcut : i ∈ u.cut
      · obtain ⟨v, v', hv, hvstep, hv', hdeleted⟩ := ih hcut
        exact ⟨v, v', hv, hvstep, hv'.tail hstep, hdeleted⟩
      · exact ⟨u, u', hu, hstep, .refl, hstep.of_mem_cut hcut hi⟩
  · rintro ⟨u, u', -, hstep, hu', hlive, hcalls, hgone⟩
    exact Steps.cut_subset hu' (hstep.mem_cut hlive hcalls hgone)

end

/-! ### The invariant -/

/-- The number of calls of an interpreter that are open since its frames were put aside. -/
def openCalls (i : InterpId) : List Bracket → Nat
  | [] => 0
  | .call j :: K => if j = i then openCalls i K + 1 else openCalls i K
  | .aside j _ :: K => if j = i then 0 else openCalls i K
  | .command _ _ :: K => openCalls i K

/-- Whether as many frames were put aside as calls were open. -/
def SavedFit : List Bracket → Prop
  | [] => True
  | .aside i saved :: K => saved.length = openCalls i K ∧ SavedFit K
  | _ :: K => SavedFit K

/-- How many frames an interpreter has, by the calls that are open. -/
def Fits (cut : Set InterpId) (i : InterpId) (r : Interpreter) (calls : Nat) : Prop :=
  (i ∉ cut → r.frames.length = calls + 1) ∧
    (i ∈ cut → r.deleted = true ∧ r.frames.length ≤ calls)

/-- What holds at every moment. -/
structure Sound (c : Config) : Prop where
  known : ∀ i r, c.world.interps.get? i = some r → i < c.world.nextInterp
  ofBrackets : ∀ b ∈ c.brackets, b.interp < c.world.nextInterp
  ofCut : ∀ i ∈ c.cut, ∃ r, c.world.interps.get? i = some r
  saved : SavedFit c.brackets
  fits : ∀ i r, c.world.interps.get? i = some r → Fits c.cut i r (openCalls i c.brackets)

theorem openCalls_eq_zero {i : InterpId} {K : List Bracket} (h : ∀ b ∈ K, b.interp < i) :
    openCalls i K = 0 := by
  induction K with
  | nil => rfl
  | cons b K ih =>
    have hK := ih fun b hb => h b (by simp [hb])
    have hb : b.interp ≠ i := Nat.ne_of_lt (h b (by simp))
    cases b with
    | call j =>
      have hj : j ≠ i := hb
      rwa [openCalls, if_neg hj]
    | aside j saved =>
      have hj : j ≠ i := hb
      rwa [openCalls, if_neg hj]
    | command j depth => exact hK

section

variable {w w' : World} {K K' : List Bracket} {cut : Set InterpId} {i : InterpId}

/-- A change of one interpreter and of the brackets that belong to it. -/
theorem Sound.modify {f : Interpreter → Interpreter} (h : Sound ⟨w, K, cut⟩)
    (hb : ∀ b ∈ K', b ∈ K ∨ b.interp = i ∧ (w.interp i).deleted = false) (hsaved : SavedFit K')
    (hother : ∀ j, j ≠ i → openCalls j K' = openCalls j K)
    (hfits : ∀ r, w.interps.get? i = some r → Fits cut i r (openCalls i K) →
      Fits cut i (f r) (openCalls i K')) :
    Sound ⟨w.modifyInterp i f, K', cut⟩ where
  known j r hr := by
    rw [World.get?_modifyInterp] at hr
    split at hr
    · obtain ⟨r', hr', -⟩ := Option.map_eq_some_iff.1 hr
      exact h.known j r' hr'
    · exact h.known j r hr
  ofBrackets b hbK := by
    rcases hb b hbK with hbK | ⟨rfl, hlive⟩
    · exact h.ofBrackets b hbK
    · exact h.known _ _ (World.get?_of_live hlive)
  ofCut j hj := by
    obtain ⟨r, hr⟩ := h.ofCut j hj
    rw [World.get?_modifyInterp, hr]
    split
    · exact ⟨f r, rfl⟩
    · exact ⟨r, rfl⟩
  saved := hsaved
  fits j r hr := by
    rw [World.get?_modifyInterp] at hr
    by_cases hij : i = j
    · subst hij
      rw [if_pos rfl] at hr
      obtain ⟨r', hr', rfl⟩ := Option.map_eq_some_iff.1 hr
      exact hfits r' hr' (h.fits i r' hr')
    · rw [if_neg hij] at hr
      rw [hother j (Ne.symm hij)]
      exact h.fits j r hr

theorem Sound.edit {f : Interpreter → Interpreter} (hf : Interpreter.Edit f)
    (h : Sound ⟨w, K, cut⟩) : Sound ⟨w.modifyInterp i f, K, cut⟩ := by
  refine h.modify (fun b hb => .inl hb) h.saved (fun _ _ => rfl) fun r _ hr => ?_
  rwa [Fits, hf.length_frames, hf.deleted_eq]

theorem Sound.rest (hw : w'.interpreters = w.interpreters) (h : Sound ⟨w, K, cut⟩) :
    Sound ⟨w', K, cut⟩ := by
  obtain ⟨hi, hn⟩ : w'.interps = w.interps ∧ w'.nextInterp = w.nextInterp := by
    simpa [World.interpreters] using hw
  obtain ⟨known, ofBrackets, ofCut, saved, fits⟩ := h
  simp only [← hi, ← hn] at known ofBrackets ofCut fits
  exact ⟨known, ofBrackets, ofCut, saved, fits⟩

/-- A new interpreter has the id that no bracket mentions yet. -/
theorem Sound.create (name : String) (safe : Bool) (parent : Option InterpId)
    (h : Sound ⟨w, K, cut⟩) : Sound ⟨(w.newInterp name safe parent).2, K, cut⟩ where
  known i r hr := by
    rw [World.get?_newInterp] at hr
    split at hr
    · next hi => exact hi ▸ Nat.lt_succ_self _
    · exact Nat.lt_succ_of_lt (h.known i r hr)
  ofBrackets b hb := Nat.lt_succ_of_lt (h.ofBrackets b hb)
  ofCut i hi := by
    rw [World.get?_newInterp]
    split
    · exact ⟨_, rfl⟩
    · exact h.ofCut i hi
  saved := h.saved
  fits i r hr := by
    rw [World.get?_newInterp] at hr
    split at hr
    · next hi =>
      subst hi
      obtain rfl : Interpreter.fresh name safe parent = r := by simpa using hr
      have hnone := openCalls_eq_zero h.ofBrackets
      refine ⟨fun _ => hnone ▸ rfl, fun hcut => ?_⟩
      obtain ⟨r, hr⟩ := h.ofCut _ hcut
      exact absurd (h.known _ r hr) (Nat.lt_irrefl _)
    · exact h.fits i r hr

/-- A deletion leaves one frame, which fits unless a procedure is running. -/
theorem Sound.prune (hw : w.Prunes w') (h : Sound ⟨w, K, cut⟩) :
    Sound ⟨w', K, cut ∪ cutBetween w w'⟩ where
  known i r' hr' := by
    have hi := hw.each i
    rw [hr'] at hi
    generalize hr : w.interps.get? i = a at hi
    obtain - | - := hi
    exact hw.next ▸ h.known i _ hr
  ofBrackets b hb := hw.next ▸ h.ofBrackets b hb
  ofCut i hi := by
    obtain ⟨r, hr⟩ : ∃ r, w.interps.get? i = some r := by
      rcases hi with hi | ⟨hlive, -⟩
      · exact h.ofCut i hi
      · exact ⟨_, World.get?_of_live hlive⟩
    have hi := hw.each i
    rw [hr] at hi
    generalize w'.interps.get? i = a at hi ⊢
    cases hi with
    | some _ => exact ⟨_, rfl⟩
  saved := h.saved
  fits i r' hr' := by
    have hi := hw.each i
    rw [hr'] at hi
    generalize hr : w.interps.get? i = a at hi
    obtain ⟨hpruned⟩ | - := hi
    next r =>
    have hwas := World.interp_of_get? hr
    have his := World.interp_of_get? hr'
    have hfits := h.fits i r hr
    rcases hpruned with ⟨-, ⟨hf, hd⟩ | ⟨hd, hd', hf⟩⟩
    · have hnot : i ∉ cutBetween w w' := by
        rintro ⟨hlive, -, hgone⟩
        rw [hwas] at hlive
        rw [his, hd, hlive] at hgone
        exact Bool.noConfusion hgone
      rw [Fits, hf, hd]
      refine ⟨fun hcut => hfits.1 fun hi => hcut (.inl hi), fun hcut => hfits.2 ?_⟩
      exact hcut.resolve_right hnot
    · have huncut : i ∉ cut := fun hcut => by
        simp [(hfits.2 hcut).1] at hd
      have hlen : r.frames.length = openCalls i K + 1 := hfits.1 huncut
      have hcalls : i ∈ cutBetween w w' ↔ 0 < openCalls i K := by
        rw [cutBetween, Set.mem_ofPred_eq, hwas, his]
        simp only [hd, hd', true_and, and_true, Interpreter.callFrames, ne_eq,
          ← List.length_eq_zero_iff, List.length_dropLast]
        omega
      rw [Fits, hf, Set.mem_union, hcalls]
      refine ⟨fun hcut => ?_, fun hcut => ⟨hd', ?_⟩⟩
      · simp only [List.length_singleton]
        omega
      · exact hcut.resolve_left huncut

theorem Sound.enterCall (vars : Table String String) (hlive : (w.interp i).deleted = false)
    (h : Sound ⟨w, K, cut⟩) :
    Sound ⟨w.modifyInterp i fun r => r.enterCall vars, .call i :: K, cut⟩ := by
  refine h.modify (fun b hb => ?_) h.saved (fun j hj => ?_) fun r _ hr => ?_
  · rcases List.mem_cons.1 hb with rfl | hb
    · exact .inr ⟨rfl, hlive⟩
    · exact .inl hb
  · rw [openCalls, if_neg (Ne.symm hj)]
  · rw [openCalls, if_pos rfl]
    refine ⟨fun hcut => congrArg Nat.succ (hr.1 hcut), fun hcut => ?_⟩
    exact ⟨(hr.2 hcut).1, Nat.succ_le_succ (hr.2 hcut).2⟩

theorem Sound.leaveCall (h : Sound ⟨w, .call i :: K, cut⟩) :
    Sound ⟨w.modifyInterp i Interpreter.leaveCall, K, cut⟩ := by
  refine h.modify (fun b hb => .inl (List.mem_cons_of_mem _ hb)) h.saved (fun j hj => ?_)
    fun r _ hr => ?_
  · rw [openCalls, if_neg (Ne.symm hj)]
  · rw [openCalls, if_pos rfl] at hr
    simp only [Fits, Interpreter.leaveCall, List.length_tail]
    refine ⟨fun hcut => ?_, fun hcut => ⟨(hr.2 hcut).1, ?_⟩⟩
    · rw [hr.1 hcut]
      rfl
    · exact Nat.sub_le_of_le_add (hr.2 hcut).2

theorem Sound.setAside (hlive : (w.interp i).deleted = false) (h : Sound ⟨w, K, cut⟩) :
    Sound ⟨w.modifyInterp i Interpreter.dropCalls,
      .aside i (w.interp i).callFrames :: K, cut⟩ := by
  have hfits := h.fits i _ (World.get?_of_live hlive)
  have huncut : i ∉ cut := fun hcut => by
    simp [(hfits.2 hcut).1] at hlive
  have hlen := hfits.1 huncut
  refine h.modify (fun b hb => ?_) ⟨?_, h.saved⟩ (fun j hj => ?_) fun r hr _ => ?_
  · rcases List.mem_cons.1 hb with rfl | hb
    · exact .inr ⟨rfl, hlive⟩
    · exact .inl hb
  · simp [Interpreter.callFrames, hlen]
  · rw [openCalls, if_neg (Ne.symm hj)]
  · rw [openCalls, if_pos rfl]
    refine ⟨fun _ => ?_, fun hcut => absurd hcut huncut⟩
    rw [World.interp_of_get? hr] at hlen
    cases hf : r.frames with
    | nil => simp [hf] at hlen
    | cons f fs => simp [Interpreter.dropCalls, hf, List.getLast?_cons]

theorem Sound.putBack {saved : List Frame} (h : Sound ⟨w, .aside i saved :: K, cut⟩) :
    Sound ⟨w.modifyInterp i fun r => r.restoreCalls saved, K, cut⟩ := by
  obtain ⟨hsaved, hsavedK⟩ := h.saved
  refine h.modify (fun b hb => .inl (List.mem_cons_of_mem _ hb)) hsavedK (fun j hj => ?_)
    fun r _ hr => ?_
  · rw [openCalls, if_neg (Ne.symm hj)]
  · rw [openCalls, if_pos rfl] at hr
    simp only [Fits, Interpreter.restoreCalls, List.length_append, hsaved]
    refine ⟨fun hcut => ?_, fun hcut => ⟨(hr.2 hcut).1, ?_⟩⟩
    · rw [hr.1 hcut]
    · have := (hr.2 hcut).2
      omega

theorem Sound.enterCommand (depth : Nat) (d : Nat) (hlive : (w.interp i).deleted = false)
    (h : Sound ⟨w, K, cut⟩) :
    Sound ⟨w.modifyInterp i fun r => { r with depth }, .command i d :: K, cut⟩ := by
  refine h.modify (fun b hb => ?_) h.saved (fun j hj => rfl) fun r _ hr => hr
  rcases List.mem_cons.1 hb with rfl | hb
  · exact .inr ⟨rfl, hlive⟩
  · exact .inl hb

theorem Sound.leaveCommand {depth : Nat} (h : Sound ⟨w, .command i depth :: K, cut⟩) :
    Sound ⟨w.modifyInterp i fun r => { r with depth }, K, cut⟩ :=
  h.modify (fun _ hb => .inl (List.mem_cons_of_mem _ hb)) h.saved (fun _ _ => rfl)
    fun _ _ hr => hr

end

/-- Every change of a world keeps the frames and the open calls in step. -/
theorem Sound.step {c c' : Config} (hc : Sound c) (h : Step c c') : Sound c' := by
  cases h with
  | rest h => exact hc.rest h
  | edit i hf => exact hc.edit hf
  | create name safe parent => exact hc.create name safe parent
  | delete i => exact hc.prune (World.prunes_delete _ i)
  | enterCall vars hlive => exact hc.enterCall vars hlive
  | leaveCall => exact hc.leaveCall
  | setAside hlive => exact hc.setAside hlive
  | putBack => exact hc.putBack
  | enterCommand hlive _ => exact hc.enterCommand _ _ hlive
  | leaveCommand => exact hc.leaveCommand

theorem Sound.steps {c c' : Config} (hc : Sound c) (h : Steps c c') : Sound c' := by
  induction h with
  | refl => exact hc
  | tail _ h ih => exact ih.step h

theorem sound_of_no_interps {w : World} (h : w.interps = .empty) : Sound ⟨w, [], ∅⟩ where
  known i r hr := by simp [h] at hr
  ofBrackets := by simp
  ofCut := by simp
  saved := trivial
  fits i r hr := by simp [h] at hr

theorem Reachable.sound {c : Config} (h : Reachable c) : Sound c := by
  obtain ⟨w, hw, h⟩ := h
  exact (sound_of_no_interps hw).steps h

end Run

end ScriptHost
