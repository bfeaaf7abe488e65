import ScriptHost.Engine

/-!
# The interpreters of a world

Most of what the host does leaves the interpreters alone. What changes them changes one of them,
makes a new one or deletes some. A deletion leaves the variables of an interpreter as they are, or
it takes all of them away and the interpreter was live before.
-/

namespace ScriptHost.World

variable {w w' w'' : World} {i j : InterpId} {r : Interpreter}

/-- The interpreters of a world, with the id of the next one. -/
def interpreters (w : World) : Table InterpId Interpreter × InterpId :=
  (w.interps, w.nextInterp)

/-! ### One interpreter -/

theorem interp_of_get? (h : w.interps.get? i = some r) : w.interp i = r := by
  simp [interp, Table.getD, h]

theorem get?_of_live (h : (w.interp i).deleted = false) :
    w.interps.get? i = some (w.interp i) := by
  rw [interp, Table.getD] at h ⊢
  cases hr : w.interps.get? i with
  | none => simp [hr] at h
  | some r => rfl

theorem get?_modifyInterp (w : World) (i j : InterpId) (f : Interpreter → Interpreter) :
    (w.modifyInterp i f).interps.get? j =
      if i = j then (w.interps.get? j).map f else w.interps.get? j := by
  by_cases h : i = j <;> simp [modifyInterp, Table.get?_modify, h]

theorem interp_modifyInterp_of_ne (h : i ≠ j) (f : Interpreter → Interpreter) :
    (w.modifyInterp i f).interp j = w.interp j := by
  simp only [interp, Table.getD, get?_modifyInterp, if_neg h]

theorem interp_modifyInterp_self (h : (w.interps.get? i).isSome = true)
    (f : Interpreter → Interpreter) : (w.modifyInterp i f).interp i = f (w.interp i) := by
  obtain ⟨r, hr⟩ := Option.isSome_iff_exists.1 h
  refine interp_of_get? ?_
  rw [get?_modifyInterp, if_pos rfl, hr, interp_of_get? hr, Option.map_some]

theorem interp_modifyInterp_of_live (h : (w.interp i).deleted = false)
    (f : Interpreter → Interpreter) : (w.modifyInterp i f).interp i = f (w.interp i) :=
  interp_modifyInterp_self (Option.isSome_iff_exists.2 ⟨_, get?_of_live h⟩) f

/-- What a change of an interpreter leaves alone. -/
theorem keeps_modifyInterp {α : Type} (field : Interpreter → α) {f : Interpreter → Interpreter}
    (hf : ∀ r, field (f r) = field r) (w : World) (i j : InterpId) :
    field ((w.modifyInterp i f).interp j) = field (w.interp j) := by
  unfold interp Table.getD
  rw [get?_modifyInterp]
  cases w.interps.get? j with
  | none => split <;> rfl
  | some r =>
    split
    · exact hf r
    · rfl

theorem deleted_modifyInterp {f : Interpreter → Interpreter}
    (hf : ∀ r, (f r).deleted = r.deleted) (w : World) (i j : InterpId) :
    ((w.modifyInterp i f).interp j).deleted = (w.interp j).deleted :=
  keeps_modifyInterp (·.deleted) hf w i j

theorem get?_newInterp (w : World) (name : String) (safe : Bool) (parent : Option InterpId)
    (j : InterpId) :
    (w.newInterp name safe parent).2.interps.get? j =
      if w.nextInterp = j then some (.fresh name safe parent) else w.interps.get? j :=
  Table.get?_insert ..

theorem live_newInterp (name : String) (safe : Bool) (parent : Option InterpId)
    (h : (w.interp i).deleted = false) :
    ((w.newInterp name safe parent).2.interp i).deleted = false := by
  rw [interp, Table.getD, get?_newInterp]
  split
  · rfl
  · rwa [get?_of_live h]

theorem modifyInterp_congr {f g : Interpreter → Interpreter}
    (h : ∀ r, w.interps.get? i = some r → f r = g r) :
    w.modifyInterp i f = w.modifyInterp i g := by
  unfold modifyInterp Table.modify
  cases hr : w.interps.get? i with
  | none => rfl
  | some r => simp [h r hr]

/-- An interpreter is replaced by what a change makes of it. -/
theorem modifyInterp_const (w : World) (i : InterpId) (f : Interpreter → Interpreter) :
    (w.modifyInterp i fun _ => f (w.interp i)) = w.modifyInterp i f :=
  modifyInterp_congr fun r hr => by rw [interp_of_get? hr]

/-! ### What leaves the interpreters alone -/

theorem interp_eq_of_interpreters_eq (h : w'.interpreters = w.interpreters) (j : InterpId) :
    w'.interp j = w.interp j := by
  obtain ⟨hinterps, -⟩ := Prod.mk.inj h
  simp only [interp, hinterps]

@[simp]
theorem interpreters_modifyHandle (w : World) (h : HandleId) (f : Handle → Handle) :
    (w.modifyHandle h f).interpreters = w.interpreters := rfl

@[simp]
theorem interpreters_modifyThread (w : World) (t : ThreadId) (f : Thread → Thread) :
    (w.modifyThread t f).interpreters = w.interpreters := rfl

@[simp]
theorem interpreters_modifyAgenda (w : World) (t : ThreadId)
    (f : Agenda Event Handler → Agenda Event Handler) :
    (w.modifyAgenda t f).interpreters = w.interpreters := rfl

@[simp]
theorem interpreters_setAgenda (w : World) (a : Agenda Event Handler) :
    (w.setAgenda a).interpreters = w.interpreters := rfl

@[simp]
theorem interpreters_unregister (w : World) (h : HandleId) :
    (w.unregister h).interpreters = w.interpreters := rfl

@[simp]
theorem interpreters_track (w : World) (h : HandleId) :
    (w.track h).interpreters = w.interpreters := rfl

@[simp]
theorem interpreters_addHandle (w : World) (i : InterpId) (config : HandleConfig) :
    (w.addHandle i config).2.interpreters = w.interpreters := rfl

@[simp]
theorem interpreters_post (w : World) (t : ThreadId) (event : Event) :
    (w.post t event).interpreters = w.interpreters := rfl

@[simp]
theorem interpreters_answerQueued (w : World) (queued : Queued) (envelope : Envelope) :
    (w.answerQueued queued envelope).interpreters = w.interpreters := by
  rw [answerQueued]
  split <;> rfl

theorem interpreters_foldl {α : Type} {f : World → α → World}
    (hf : ∀ w a, (f w a).interpreters = w.interpreters) (as : List α) (w : World) :
    (as.foldl f w).interpreters = w.interpreters := by
  induction as generalizing w with
  | nil => rfl
  | cons a as ih => rw [List.foldl_cons, ih, hf]

@[simp]
theorem interpreters_alertAll (w : World) : w.alertAll.interpreters = w.interpreters := by
  rw [alertAll]
  exact interpreters_foldl (fun w t => interpreters_modifyAgenda w t .alert) _ w

@[simp]
theorem interpreters_drainMailbox (w : World) (h : HandleId) (error : HostError) :
    (w.drainMailbox h error).interpreters = w.interpreters := by
  rw [drainMailbox]
  split
  · rfl
  · exact interpreters_foldl (fun w queued => interpreters_answerQueued w queued _) _ _

@[simp]
theorem interpreters_markDeleted (w : World) (h : HandleId) :
    (w.markDeleted h).interpreters = w.interpreters := by
  rw [markDeleted]
  split
  · rfl
  · split
    · rfl
    · simp

@[simp]
theorem interpreters_untrack (w : World) (h : HandleId) :
    (w.untrack h).interpreters = w.interpreters := by
  rw [untrack]
  simp only [interpreters_modifyHandle]
  split
  · split <;> simp
  · simp

@[simp]
theorem interpreters_cancelAfter (w : World) (token : AfterToken) :
    (w.cancelAfter token).interpreters = w.interpreters := by
  cases token <;> rfl

@[simp]
theorem interpreters_loseReplies (w : World) (pending : List Queued) :
    (w.loseReplies pending).interpreters = w.interpreters := by
  refine interpreters_foldl (fun w queued => ?_) pending w
  split <;> rfl

/-! ### Deletions -/

/-- What a deletion may do to an interpreter. -/
def Pruned (r r' : Interpreter) : Prop :=
  r'.depth = r.depth ∧ ((r'.frames = r.frames ∧ r'.deleted = r.deleted) ∨
    (r.deleted = false ∧ r'.deleted = true ∧ r'.frames = [{}]))

theorem Pruned.refl (r : Interpreter) : Pruned r r :=
  ⟨rfl, .inl ⟨rfl, rfl⟩⟩

theorem Pruned.trans {r r' r'' : Interpreter} (h : Pruned r r') (h' : Pruned r' r'') :
    Pruned r r'' := by
  obtain ⟨hdepth, h⟩ := h
  obtain ⟨hdepth', h'⟩ := h'
  refine ⟨hdepth'.trans hdepth, ?_⟩
  rcases h with ⟨hf, hd⟩ | ⟨hd, hd', hf⟩
  · rcases h' with ⟨hf', hd'⟩ | ⟨hd', hd'', hf'⟩
    · exact .inl ⟨hf'.trans hf, hd'.trans hd⟩
    · exact .inr ⟨hd ▸ hd', hd'', hf'⟩
  · rcases h' with ⟨hf', hd''⟩ | ⟨hd'', -, -⟩
    · exact .inr ⟨hd, hd''.trans hd', hf'.trans hf⟩
    · exact absurd (hd'.symm.trans hd'') (by decide)

/-- Some interpreters are deleted and nothing else happens to frames. -/
structure Prunes (w w' : World) : Prop where
  next : w'.nextInterp = w.nextInterp
  each : ∀ i, Option.Rel Pruned (w.interps.get? i) (w'.interps.get? i)

theorem Prunes.of_interpreters_eq (h : w'.interpreters = w.interpreters) : Prunes w w' := by
  obtain ⟨hi, hn⟩ : w'.interps = w.interps ∧ w'.nextInterp = w.nextInterp := by
    simpa [interpreters] using h
  refine ⟨hn, fun i => ?_⟩
  rw [hi]
  cases w.interps.get? i with
  | none => exact .none
  | some r => exact .some (.refl r)

theorem Prunes.refl (w : World) : Prunes w w :=
  .of_interpreters_eq rfl

theorem Prunes.trans (h : Prunes w w') (h' : Prunes w' w'') : Prunes w w'' := by
  refine ⟨h'.next.trans h.next, fun i => ?_⟩
  have hi := h.each i
  have hi' := h'.each i
  revert hi hi'
  generalize w.interps.get? i = a, w'.interps.get? i = b, w''.interps.get? i = c
  rintro (hr | -) (hr' | -)
  · exact .some (hr.trans hr')
  · exact .none

theorem Prunes.modifyInterp {f : Interpreter → Interpreter}
    (hf : ∀ r, (f r).depth = r.depth ∧ (f r).frames = r.frames ∧ (f r).deleted = r.deleted)
    (w : World) (i : InterpId) : Prunes w (w.modifyInterp i f) := by
  refine ⟨rfl, fun j => ?_⟩
  rw [get?_modifyInterp]
  cases w.interps.get? j with
  | none => split <;> exact .none
  | some r =>
    split
    · exact .some ⟨(hf r).1, .inl (hf r).2⟩
    · exact .some (.refl r)

theorem Prunes.foldl {α : Type} {f : World → α → World} (hf : ∀ w a, Prunes w (f w a))
    (as : List α) (w : World) : Prunes w (as.foldl f w) := by
  induction as generalizing w with
  | nil => exact .refl w
  | cons a as ih => exact (hf w a).trans (ih (f w a))

theorem prunes_runDeleteHook {delete : InterpId → World → World}
    (hdelete : ∀ i w, Prunes w (delete i w)) (self : InterpId) (hook : DeleteHook) (w : World) :
    Prunes w (runDeleteHook delete self hook w) := by
  induction hook generalizing self w with
  | log label =>
    rw [runDeleteHook]
    exact .of_interpreters_eq rfl
  | untrack h =>
    rw [runDeleteHook]
    exact .of_interpreters_eq (interpreters_untrack w h)
  | delete i => exact hdelete i w
  | watch i hook ih =>
    rw [runDeleteHook]
    split
    · exact ih i w
    · refine .modifyInterp (fun r => ?_) w i
      exact ⟨rfl, rfl, rfl⟩

theorem prunes_detach (w : World) (r : Interpreter) : Prunes w (w.detach r) := by
  rw [detach]
  split
  · refine .modifyInterp (fun r => ?_) w _
    exact ⟨rfl, rfl, rfl⟩
  · exact .refl w

theorem prunes_cancelAfters (w : World) (i : InterpId) : Prunes w (w.cancelAfters i) := by
  have hforget : Prunes w (w.modifyInterp i fun r => { r with afters := .empty }) := by
    refine .modifyInterp (fun r => ?_) w i
    exact ⟨rfl, rfl, rfl⟩
  refine hforget.trans (.foldl (fun w token => ?_) _ _)
  exact .of_interpreters_eq (interpreters_cancelAfter w token)

theorem prunes_runDeleteHooks {delete : InterpId → World → World}
    (hdelete : ∀ i w, Prunes w (delete i w)) (i : InterpId) (w : World) :
    Prunes w (runDeleteHooks delete i w) := by
  have hforget :
      Prunes w (w.modifyInterp i fun r => { r with childHooks := [], deleteHooks := [] }) := by
    refine .modifyInterp (fun r => ?_) w i
    exact ⟨rfl, rfl, rfl⟩
  exact hforget.trans (.foldl (fun w hook => prunes_runDeleteHook hdelete i hook w) _ _)

/-- What happens between the first and the last step of a deletion leaves the variables of the
interpreter alone, since it counts as deleted then. -/
theorem Prunes.wipe (hlive : (w.interp i).deleted = false)
    (h : Prunes (w.modifyInterp i Interpreter.condemn) w') :
    Prunes w (w'.modifyInterp i Interpreter.wipe) := by
  refine ⟨h.next, fun j => ?_⟩
  have hj := h.each j
  rw [get?_modifyInterp] at hj ⊢
  by_cases hij : i = j
  · subst hij
    rw [if_pos rfl, get?_of_live hlive] at hj
    rw [if_pos rfl, get?_of_live hlive]
    generalize w'.interps.get? i = a at hj
    obtain ⟨hr⟩ | - := hj
    rcases hr with ⟨hdepth, ⟨-, hd⟩ | ⟨hd, -, -⟩⟩
    · exact .some ⟨hdepth, .inr ⟨hlive, hd, rfl⟩⟩
    · exact Bool.noConfusion hd
  · rw [if_neg hij] at hj ⊢
    exact hj

theorem prunes_deleteTree (fuel : Nat) (i : InterpId) (w : World) :
    Prunes w (deleteTree fuel i w) := by
  induction fuel generalizing i w with
  | zero => exact .refl w
  | succ fuel ih =>
    rw [deleteTree]
    split
    · exact .refl w
    · next hlive =>
      refine .wipe (Bool.eq_false_iff.2 hlive) ?_
      have hchildren := Prunes.foldl (fun w child => ih child w) (w.interp i).childIds
        (w.modifyInterp i Interpreter.condemn)
      refine hchildren.trans ((prunes_detach _ (w.interp i)).trans ?_)
      exact (prunes_cancelAfters _ i).trans (prunes_runDeleteHooks ih i _)

theorem prunes_delete (w : World) (i : InterpId) : Prunes w (w.delete i) :=
  prunes_deleteTree _ i w

end ScriptHost.World
