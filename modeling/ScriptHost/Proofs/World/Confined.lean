import ScriptHost.Proofs.World.Births
import ScriptHost.Proofs.World.Mail

/-!
# Safe interpreters

A safe interpreter lacks the commands that reach the system. Its children are safe as well, and
nothing that happens to an interpreter later gives it a built-in command that it lacks. So no
restricted command ever begins in a safe interpreter or below one.
-/

namespace ScriptHost

open Removal

/-- Whether safe interpreters lack a built-in command. -/
def Builtin.isRestricted (b : Builtin) : Bool :=
  (Builtin.restricted.map Prod.snd).contains b

namespace Interpreter

variable {r r' r'' : Interpreter}

/-- The interpreter is as safe as before and has no built-in command that it lacked. -/
structure Weakens (r r' : Interpreter) : Prop where
  safe : r'.safe = r.safe
  builtins : ∀ name b, r'.commands.get? name = some (.builtin b) →
    r.commands.get? name = some (.builtin b)

/-- Besides, the interpreter has the parent that it had and no child that it lacked. -/
structure Loses (r r' : Interpreter) : Prop extends Weakens r r' where
  parent : r'.parent = r.parent
  children : ∀ name c, r'.children.get? name = some c → r.children.get? name = some c

theorem Weakens.of_commands_eq (hsafe : r'.safe = r.safe) (h : r'.commands = r.commands) :
    Weakens r r' := by
  refine ⟨hsafe, fun name b hb => ?_⟩
  rwa [h] at hb

theorem Weakens.trans (h : Weakens r r') (h' : Weakens r' r'') : Weakens r r'' where
  safe := h'.safe.trans h.safe
  builtins name b hb := h.builtins name b (h'.builtins name b hb)

theorem Weakens.loses (h : Weakens r r') (hfamily : r'.family = r.family) : Loses r r' := by
  simp only [family, Prod.mk.injEq] at hfamily
  refine ⟨h, hfamily.1, fun name c hc => ?_⟩
  rwa [hfamily.2.2.2] at hc

theorem Loses.refl (r : Interpreter) : Loses r r :=
  ⟨.of_commands_eq rfl rfl, rfl, fun _ _ => id⟩

theorem Loses.trans (h : Loses r r') (h' : Loses r' r'') : Loses r r'' where
  toWeakens := h.toWeakens.trans h'.toWeakens
  parent := h'.parent.trans h.parent
  children name c hc := h.children name c (h'.children name c hc)

/-- A command that is none of the built-in ones may take the place of another one. -/
theorem weakens_insert (r : Interpreter) (name : String) {command : Command}
    (hcommand : ∀ b, command ≠ .builtin b) :
    Weakens r { r with commands := r.commands.insert name command } := by
  refine ⟨rfl, fun name' b hb => ?_⟩
  dsimp only at hb
  rw [Table.get?_insert] at hb
  split at hb
  · exact absurd (Option.some.inj hb) (hcommand b)
  · exact hb

theorem weakens_erase (r : Interpreter) (name : String) :
    Weakens r { r with commands := r.commands.erase name } := by
  refine ⟨rfl, fun name' b hb => ?_⟩
  dsimp only at hb
  rw [Table.get?_erase] at hb
  split at hb
  · cases hb
  · exact hb

/-- A new safe interpreter has no restricted command. -/
theorem not_isRestricted_of_fresh {label name : String} {parent : Option InterpId} {b : Builtin}
    (h : (fresh label true parent).commands.get? name = some (.builtin b)) :
    b.isRestricted = false := by
  have hsafe : ∀ entry ∈ Builtin.safe, entry.2.isRestricted = false := by decide
  obtain ⟨entry, hmem, hentry⟩ := List.mem_map.1 (Table.mem_of_get? h)
  rw [if_pos rfl, List.append_nil] at hmem
  cases hentry
  exact hsafe entry hmem

end Interpreter

namespace World

variable {w u w' : World} {i j p c : InterpId} {f : Interpreter → Interpreter}

/-! ### What makes no interpreter stronger -/

/-- Interpreters lose commands and children at most, none is made, and no command begins. -/
structure Loses (w w' : World) : Prop where
  next : w'.nextInterp = w.nextInterp
  each : ∀ i, Option.Rel Interpreter.Loses (w.interps.get? i) (w'.interps.get? i)
  silent : w.Silent w'

theorem Loses.of_interpreters_eq (h : w'.interpreters = w.interpreters) (hsilent : w.Silent w') :
    Loses w w' := by
  obtain ⟨hinterps, hnext⟩ := Prod.mk.inj h
  refine ⟨hnext, fun i => ?_, hsilent⟩
  rw [hinterps]
  cases w.interps.get? i with
  | none => exact .none
  | some r => exact .some (.refl r)

theorem Loses.refl (w : World) : Loses w w :=
  .of_interpreters_eq rfl (.of_trace_eq rfl)

theorem Loses.trans (h : Loses w u) (h' : Loses u w') : Loses w w' := by
  refine ⟨h'.next.trans h.next, fun i => ?_, h.silent.trans h'.silent⟩
  have hi := h.each i
  have hi' := h'.each i
  revert hi hi'
  generalize w.interps.get? i = a, u.interps.get? i = b, w'.interps.get? i = c
  rintro (hr | -) (hr' | -)
  · exact .some (hr.trans hr')
  · exact .none

theorem Loses.foldl {α : Type} {g : World → α → World} (hg : ∀ w a, Loses w (g w a))
    (as : List α) (w : World) : Loses w (as.foldl g w) := by
  induction as generalizing w with
  | nil => exact .refl w
  | cons a as ih => exact (hg w a).trans (ih (g w a))

theorem loses_modifyInterp (hf : ∀ r, Interpreter.Loses r (f r)) (w : World) (i : InterpId) :
    Loses w (w.modifyInterp i f) := by
  refine ⟨rfl, fun j => ?_, .of_trace_eq rfl⟩
  rw [get?_modifyInterp]
  cases w.interps.get? j with
  | none => split <;> exact .none
  | some r =>
    split
    · exact .some (hf r)
    · exact .some (.refl r)

/-- An interpreter changes apart from its commands and its family. -/
theorem loses_modifyInterp_of_eq
    (hf : ∀ r, (f r).safe = r.safe ∧ (f r).commands = r.commands ∧ (f r).family = r.family)
    (w : World) (i : InterpId) : Loses w (w.modifyInterp i f) := by
  refine loses_modifyInterp (fun r => ?_) w i
  obtain ⟨hsafe, hcommands, hfamily⟩ := hf r
  exact (Interpreter.Weakens.of_commands_eq hsafe hcommands).loses hfamily

theorem Loses.interp (h : Loses w w') (i : InterpId) : (w.interp i).Loses (w'.interp i) := by
  have hi := h.each i
  unfold World.interp Table.getD
  revert hi
  generalize w.interps.get? i = a, w'.interps.get? i = b
  rintro (hr | -)
  · exact hr
  · exact .refl _

/-! ### Deletions -/

theorem silent_untrack (w : World) (h : HandleId) : w.Silent (w.untrack h) := by
  have hmark : w.Silent ((w.modifyHandle h fun handle => { handle with interp := none }).unregister
      h |>.markDeleted h) := .trans (.of_trace_eq rfl) (still_markDeleted _ h).silent
  rw [untrack]
  split
  · split
    · exact hmark.trans (.of_trace_eq rfl)
    · exact .of_trace_eq rfl
  · exact .of_trace_eq rfl

theorem loses_untrack (w : World) (h : HandleId) : Loses w (w.untrack h) :=
  .of_interpreters_eq (interpreters_untrack w h) (w.silent_untrack h)

theorem loses_cancelAfter (w : World) (token : AfterToken) : Loses w (w.cancelAfter token) :=
  .of_interpreters_eq (interpreters_cancelAfter w token) (w.retains_cancelAfter token).silent

theorem loses_secede (w : World) (r : Interpreter) (i : InterpId) :
    Loses w ((w.secede r i).disarm i) := by
  have hdetach : Loses w (w.detach r) := by
    rw [detach]
    split
    · refine loses_modifyInterp (fun parent => ?_) w _
      refine ⟨.of_commands_eq rfl rfl, rfl, fun name c hc => ?_⟩
      dsimp only at hc
      rw [Table.get?_erase] at hc
      split at hc
      · cases hc
      · exact hc
    · exact .refl w
  have hforget (w : World) : Loses w (w.modifyInterp i fun r => { r with afters := .empty }) := by
    refine loses_modifyInterp_of_eq (fun _ => ?_) w i
    exact ⟨rfl, rfl, rfl⟩
  have hcancel := (hforget (w.detach r)).trans
    (.foldl loses_cancelAfter ((w.detach r).interp i).afters.values _)
  refine (hdetach.trans hcancel).trans (loses_modifyInterp_of_eq (fun _ => ?_) _ i)
  exact ⟨rfl, rfl, rfl⟩

end World

theorem Removal.Runs.loses {job : Removal} {ran : List HookRun} {w w' : World}
    (h : Runs job w ran w') : w.Loses w' := by
  induction h with
  | gone => exact .refl _
  | @tree i w u v _ _ _ _ _ ihchildren ihhooks =>
    have hcondemn : w.Loses (w.modifyInterp i Interpreter.condemn) := by
      refine World.loses_modifyInterp (fun r => ?_) w i
      exact ⟨.of_commands_eq rfl rfl, rfl, nofun⟩
    have hwipe : v.Loses (v.modifyInterp i Interpreter.wipe) := by
      refine World.loses_modifyInterp (fun r => ?_) v i
      exact ⟨⟨rfl, nofun⟩, rfl, fun _ _ => id⟩
    have hbegin := hcondemn.trans ihchildren
    exact (hbegin.trans ((u.loses_secede (w.interp i) i).trans ihhooks)).trans hwipe
  | noTrees => exact .refl _
  | trees _ _ ih ih' => exact ih.trans ih'
  | log => exact .of_interpreters_eq rfl (.of_trace_eq rfl)
  | untrack => exact World.loses_untrack _ _
  | delete _ ih => exact ih
  | @install _ j _ _ w _ =>
    refine World.loses_modifyInterp_of_eq (fun _ => ?_) w j
    exact ⟨rfl, rfl, rfl⟩
  | late _ _ ih => exact ih
  | noHooks => exact .refl _
  | hooks _ _ ih ih' => exact ih.trans ih'

namespace World

variable {w w' : World} {i p : InterpId}

theorem loses_delete (w : World) (i : InterpId) : Loses w (w.delete i) := by
  obtain ⟨ran, hruns⟩ := exists_runs_delete w i
  exact hruns.loses

theorem loses_giveUp (w : World) (h : HandleId) : Loses w (w.giveUp h) := by
  have htake : Loses w (w.takeInterp h).2 := .of_interpreters_eq rfl (.of_trace_eq rfl)
  rw [giveUp]
  split
  · next i u hu =>
    rw [hu] at htake
    refine htake.trans ?_
    rw [deleteInterp]
    split
    · exact .of_interpreters_eq rfl (.of_trace_eq rfl)
    · exact loses_delete u i
  · next u hu =>
    rw [hu] at htake
    exact htake

theorem loses_deleteHandle (w : World) (h : HandleId) : Loses w (w.deleteHandle h) := by
  have hmark (w : World) : Loses w (w.markDeleted h) :=
    .of_interpreters_eq (interpreters_markDeleted w h) (w.still_markDeleted h).silent
  rw [deleteHandle]
  split
  · exact .refl w
  · split
    · exact .refl w
    · split
      · exact (loses_giveUp w h).trans (hmark _)
      · exact (hmark w).trans
          (.of_interpreters_eq (interpreters_post _ _ _) (still_post _ _ _).silent)

theorem loses_endThread (w : World) (t : ThreadId) : Loses w (w.endThread t) := by
  have henter : Loses w { w with current := t } := .of_interpreters_eq rfl (.of_trace_eq rfl)
  have horphans (w : World) : Loses w (w.deleteOrphans t) := by
    refine .foldl (fun w orphan => ?_) _ w
    have htake : Loses w (w.takeInterp orphan.1).2 := .of_interpreters_eq rfl (.of_trace_eq rfl)
    exact htake.trans (loses_delete _ _)
  have hunpin (w : World) : Loses w (w.unpinAll t) := by
    refine .foldl (fun w entry => ?_) _ w
    dsimp only
    split <;> exact .of_interpreters_eq rfl (.of_trace_eq rfl)
  have hlose (w : World) (pending : List Queued) : Loses w (w.loseReplies pending) :=
    .of_interpreters_eq (interpreters_loseReplies w pending) (w.still_loseReplies pending).silent
  have hended := (henter.trans (horphans _)).trans (hunpin _)
  exact (hended.trans (hlose _ _)).trans (.of_interpreters_eq rfl (.of_trace_eq rfl))

/-! ### Handles for interpreters -/

theorem loses_runDeleteHook (self : InterpId) (hook : DeleteHook) (w : World) :
    Loses w (runDeleteHook (fun j w => w.delete j) self hook w) := by
  induction hook generalizing self with
  | log label => exact .of_interpreters_eq rfl (.of_trace_eq rfl)
  | untrack h => exact loses_untrack w h
  | delete j => exact loses_delete w j
  | watch j hook ih =>
    rw [runDeleteHook]
    split
    · exact ih j
    · refine loses_modifyInterp_of_eq (fun _ => ?_) w j
      exact ⟨rfl, rfl, rfl⟩

theorem loses_defineCommand (w : World) (i : InterpId) (name : String) {command : Command}
    (hcommand : ∀ b, command ≠ .builtin b) : Loses w (w.defineCommand i name command) := by
  refine loses_modifyInterp (fun r => ?_) w i
  split
  · exact .refl r
  · exact (r.weakens_insert name hcommand).loses rfl

theorem loses_adopt (w : World) (i : InterpId) (config : HandleConfig) :
    Loses w (w.adopt i config).2 := by
  have hadd : Loses w (w.addHandle i config).2 := .of_interpreters_eq rfl (.of_trace_eq rfl)
  have hhook (w : World) : Loses w
      (w.modifyInterp i fun r => { r with childHooks := r.childHooks ++ [.adopt config] }) := by
    refine loses_modifyInterp_of_eq (fun _ => ?_) w i
    exact ⟨rfl, rfl, rfl⟩
  have hcallback (b : Builtin) : Command.callback w.hub.nextHandle ≠ .builtin b := nofun
  have hevaluator (b : Builtin) : Command.evaluator w.hub.nextHandle ≠ .builtin b := nofun
  have hcommands := (hadd.trans (loses_defineCommand _ i "host_callback" hcallback)).trans
    (loses_defineCommand _ i "host_eval" hevaluator)
  have hwatched := (hcommands.trans (hhook _)).trans 
    (loses_runDeleteHook i (.watch i (.untrack w.hub.nextHandle)) _)
  exact hwatched.trans (.of_interpreters_eq (interpreters_track _ _) (.of_trace_eq rfl))

theorem loses_runChildHook (child : InterpId) (w : World) (hook : ChildHook) :
    Loses w (runChildHook child w hook) := by
  cases hook with
  | log label => exact .of_interpreters_eq rfl (.of_trace_eq rfl)
  | adopt config =>
    exact (loses_adopt w child _).trans (.of_interpreters_eq rfl (.of_trace_eq rfl))

/-! ### Confinement -/

/-- Children of safe interpreters are safe, no safe interpreter has a restricted command, and none
ever began one. -/
structure Confined (w : World) : Prop where
  numbered : w.Numbered
  listed : ∀ p name c, (w.interp p).children.get? name = some c → (w.interp c).parent = some p
  parents : ∀ c p, (w.interp c).parent = some p → p < w.nextInterp
  inherits : ∀ c p, (w.interp c).parent = some p → (w.interp p).safe = true →
    (w.interp c).safe = true
  barred : ∀ i, (w.interp i).safe = true → ∀ name b,
    (w.interp i).commands.get? name = some (.builtin b) → b.isRestricted = false
  begun : ∀ incident ∈ w.trace, ∀ i name command, incident.what = .invoked i name command →
    i < w.nextInterp ∧
      ((w.interp i).safe = true → ∀ b, command = .builtin b → b.isRestricted = false)

theorem lt_of_safe (hw : w.Numbered) (hsafe : (w.interp i).safe = true) : i < w.nextInterp := by
  cases hknown : w.interps.get? i with
  | none => simp [interp, Table.getD, hknown] at hsafe
  | some r => exact hw i (by rw [hknown]; rfl)

theorem lt_of_parent (hw : w.Numbered) (hparent : (w.interp i).parent = some p) :
    i < w.nextInterp := by
  cases hknown : w.interps.get? i with
  | none => simp [interp, Table.getD, hknown] at hparent
  | some r => exact hw i (by rw [hknown]; rfl)

/-- A world without interpreters in which nothing has happened yet. -/
theorem confined_of_no_interps (hinterps : w.interps = .empty) (htrace : w.trace = []) :
    w.Confined := by
  have hinterp (i : InterpId) : w.interp i = { deleted := true } := by
    rw [interp, hinterps]
    rfl
  constructor
  case numbered =>
    intro i hi
    rw [hinterps] at hi
    cases hi
  case listed =>
    intro p name c hc
    rw [hinterp] at hc
    cases hc
  case parents =>
    intro c p hp
    rw [hinterp] at hp
    cases hp
  case inherits =>
    intro c p hp
    rw [hinterp] at hp
    cases hp
  case barred =>
    intro i hsafe
    rw [hinterp] at hsafe
    cases hsafe
  case begun =>
    intro incident hmem
    rw [htrace] at hmem
    cases hmem

theorem Loses.numbered (h : Loses w w') (hw : w.Numbered) : w'.Numbered := by
  intro i hi
  rw [h.next]
  refine hw i ?_
  have hrel := h.each i
  revert hi hrel
  generalize w.interps.get? i = a, w'.interps.get? i = b
  rintro hb (- | -)
  · rfl
  · cases hb

theorem Confined.loses (hw : w.Confined) (h : Loses w w') : w'.Confined := by
  have hsafe (i : InterpId) := (h.interp i).safe
  have hparent (i : InterpId) := (h.interp i).parent
  constructor
  case numbered => exact h.numbered hw.numbered
  case listed =>
    intro p name c hc
    rw [hparent]
    exact hw.listed p name c ((h.interp p).children name c hc)
  case parents =>
    intro c p hp
    rw [hparent] at hp
    rw [h.next]
    exact hw.parents c p hp
  case inherits =>
    intro c p hp
    rw [hparent] at hp
    rw [hsafe, hsafe]
    exact hw.inherits c p hp
  case barred =>
    intro i hi name b hb
    rw [hsafe] at hi
    exact hw.barred i hi name b ((h.interp i).builtins name b hb)
  case begun =>
    intro incident hmem i name command hwhat
    obtain ⟨new, htrace, hnew⟩ := h.silent
    rw [htrace] at hmem
    rw [h.next, hsafe]
    rcases List.mem_append.1 hmem with hlater | hformer
    · have hsilent := hnew incident hlater
      rw [hwhat] at hsilent
      cases hsilent
    · exact hw.begun incident hformer i name command hwhat

/-- A command begins that is in the table of the interpreter. -/
theorem Confined.record (hw : w.Confined) {name : String} {command : Command}
    (hlive : (w.interp i).deleted = false)
    (hentry : (w.interp i).commands.get? name = some command) :
    (w.record (.invoked i name command)).Confined := by
  refine ⟨hw.numbered, hw.listed, hw.parents, hw.inherits, hw.barred, ?_⟩
  intro incident hmem j label what hwhat
  rcases List.mem_cons.1 hmem with rfl | hformer
  · cases hwhat
    refine ⟨hw.numbered i (by rw [get?_of_live hlive]; rfl), fun hsafe b hb => ?_⟩
    exact hw.barred i hsafe name b (hb ▸ hentry)
  · exact hw.begun incident hformer j label what hwhat

/-- A new interpreter without a parent. -/
theorem Confined.newInterp (hw : w.Confined) (name : String) (safe : Bool) :
    (w.newInterp name safe none).2.Confined := by
  have hinterp := interp_newInterp w name safe none
  constructor
  case numbered => exact hw.numbered.newInterp
  case listed =>
    intro p label c hc
    rw [hinterp] at hc ⊢
    split at hc
    · cases hc
    · have hparent := hw.listed p label c hc
      rwa [if_neg (Nat.ne_of_gt (lt_of_parent hw.numbered hparent))]
  case parents =>
    intro c p hp
    rw [hinterp] at hp
    split at hp
    · cases hp
    · exact Nat.lt_succ_of_lt (hw.parents c p hp)
  case inherits =>
    intro c p hp hsafe
    rw [hinterp] at hp hsafe ⊢
    split at hp
    · cases hp
    · next hc =>
      rw [if_neg (Nat.ne_of_gt (hw.parents c p hp))] at hsafe
      rw [if_neg hc]
      exact hw.inherits c p hp hsafe
  case barred =>
    intro i hsafe label b hb
    rw [hinterp] at hsafe hb
    split at hsafe
    · next hi =>
      rw [if_pos hi] at hb
      cases hsafe
      exact Interpreter.not_isRestricted_of_fresh hb
    · next hi =>
      rw [if_neg hi] at hb
      exact hw.barred i hsafe label b hb
  case begun =>
    intro incident hmem i label command hwhat
    obtain ⟨hlt, hbarred⟩ := hw.begun incident hmem i label command hwhat
    rw [hinterp, if_neg (Nat.ne_of_gt hlt)]
    exact ⟨Nat.lt_succ_of_lt hlt, hbarred⟩

section

variable {name : String} {safe : Bool} (hw : w.Confined) (hlive : (w.interp p).deleted = false)

include hw hlive

theorem Confined.listed_bear {q : InterpId} {label : String}
    (hc : ((w.bear p name safe).interp q).children.get? label = some c) :
    ((w.bear p name safe).interp c).parent = some q := by
  rw [(parent_bear hw.numbered hlive c).1]
  rw [get?_children_bear hw.numbered hlive] at hc
  split at hc
  · next hnew =>
    cases hc
    rw [if_pos rfl, hnew.1]
  · split at hc
    · cases hc
    · have hold := hw.listed q label c hc
      rwa [if_neg (Nat.ne_of_gt (lt_of_parent hw.numbered hold))]

/-- A new child is safe if it is to be or if its parent is. -/
theorem Confined.inherits_bear {q : InterpId}
    (hq : ((w.bear p name (safe || (w.interp p).safe)).interp c).parent = some q)
    (hqsafe : ((w.bear p name (safe || (w.interp p).safe)).interp q).safe = true) :
    ((w.bear p name (safe || (w.interp p).safe)).interp c).safe = true := by
  have hknown : p < w.nextInterp := hw.numbered p (by rw [get?_of_live hlive]; rfl)
  rw [(parent_bear hw.numbered hlive c).1] at hq
  split at hq
  · next hc =>
    cases hq
    rw [safe_bear w p name _ hknown] at hqsafe
    rw [interp_bear hw.numbered hlive, if_pos hc]
    exact Bool.or_eq_true_iff.2 (.inr hqsafe)
  · rw [safe_bear w p name _ (hw.parents c q hq)] at hqsafe
    rw [safe_bear w p name _ (lt_of_parent hw.numbered hq)]
    exact hw.inherits c q hq hqsafe

theorem Confined.barred_bear (hi : ((w.bear p name safe).interp i).safe = true) {label : String}
    {b : Builtin} (hb : ((w.bear p name safe).interp i).commands.get? label = some (.builtin b)) :
    b.isRestricted = false := by
  rw [interp_bear hw.numbered hlive] at hi hb
  split at hi
  · next hnew =>
    rw [if_pos hnew] at hb
    have hsafe : safe = true := hi
    rw [hsafe] at hb
    exact Interpreter.not_isRestricted_of_fresh hb
  · next hold =>
    rw [if_neg hold] at hb
    split at hi
    · next hpi =>
      rw [if_pos hpi] at hb
      exact hw.barred p hi label b hb
    · next hpi =>
      rw [if_neg hpi] at hb
      exact hw.barred i hi label b hb

end

/-- A new child of a safe interpreter that is safe as well. -/
theorem Confined.bear (hw : w.Confined) (hlive : (w.interp p).deleted = false) (name : String)
    (safe : Bool) : (w.bear p name (safe || (w.interp p).safe)).Confined := by
  constructor
  case numbered => exact hw.numbered.bear
  case listed =>
    intro q label c hc
    exact hw.listed_bear hlive hc
  case parents =>
    intro c q hq
    rw [(parent_bear hw.numbered hlive c).1] at hq
    split at hq
    · cases hq
      exact Nat.lt_succ_of_lt (hw.numbered p (by rw [get?_of_live hlive]; rfl))
    · exact Nat.lt_succ_of_lt (hw.parents c q hq)
  case inherits =>
    intro c q hq hqsafe
    exact hw.inherits_bear hlive hq hqsafe
  case barred =>
    intro i hi label b hb
    exact hw.barred_bear hlive hi hb
  case begun =>
    intro incident hmem i label command hwhat
    obtain ⟨hlt, hbarred⟩ := hw.begun incident hmem i label command hwhat
    rw [safe_bear w p name _ hlt]
    exact ⟨Nat.lt_succ_of_lt hlt, hbarred⟩

end World

end ScriptHost
