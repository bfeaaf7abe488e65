import ScriptHost.Proofs.Run.Escape
import ScriptHost.Proofs.World.Enclosed
import ScriptHost.Proofs.World.Teardown

/-!
# Evaluation in a child

A script stays among the interpreters that are closed off around the one in which it is evaluated: it
runs commands, procedures and scripts there and below, it waits, and it makes and deletes what is below.
Only commands that serve what is pending or call the host lead elsewhere, and a wait in which another
thread goes on. All of these are noted in the trace.
-/

namespace ScriptHost

open World

variable {α β : Type} {e : Engine} {i c : InterpId} {w u w' : World} {S : Set InterpId}

/-! ### What was noted meanwhile -/

/-- Whether a command begins that neither serves what is pending nor calls the host. -/
def Occurrence.isInward : Occurrence → Bool
  | .invoked _ _ command => !command.isOutward
  | _ => false

namespace World

/-- In the meantime commands began that neither serve what is pending nor call the host, and nothing
else was noted. -/
def Calm (w w' : World) : Prop :=
  ∀ incident ∈ news w w', incident.what.isInward = true

theorem calm_trans_iff (h : w.trace <:+ u.trace) (h' : u.trace <:+ w'.trace) :
    Calm w w' ↔ Calm w u ∧ Calm u w' := by
  rw [Calm, news_trans h h', List.forall_mem_append, and_comm]
  rfl

theorem not_calm_record {what : Occurrence} (hwhat : what.isInward = false) :
    ¬Calm w (w.record what) := by
  intro hcalm
  have hinward := hcalm ⟨w.current, what⟩ (by rw [news_record]; exact List.mem_singleton_self _)
  rw [hwhat] at hinward
  cases hinward

theorem Encloses.beginCommand (hi : i ∈ S) (name : String) (command : Command) (depth : Nat) :
    Encloses S c w (w.beginCommand i name command depth) := by
  have hrecord : Encloses S c w (w.record (.invoked i name command)) := .of_eq rfl rfl
  refine hrecord.trans (.narrow hi (fun _ => ?_) (fun _ _ _ => id) (fun _ => ?_) fun _ => ?_)
  · rfl
  · exact List.Subset.refl _
  · exact List.Subset.refl _

theorem Encloses.setDepth (hi : i ∈ S) (depth : Nat) :
    Encloses S c w (w.modifyInterp i fun r => { r with depth }) := by
  refine .narrow hi (fun _ => ?_) (fun _ _ _ => id) (fun _ => ?_) fun _ => ?_
  · rfl
  · exact List.Subset.refl _
  · exact List.Subset.refl _

end World

/-! ### Actions that stay inside -/

namespace Act

variable {act : Act α} {f : α → Act β}

/-- An action of a thread that is under way stays among some interpreters if it remains calm. -/
structure Encloses (S : Set InterpId) (c : InterpId) (act : Act α) (w : World) : Prop where
  faithful : act.Faithful 0 w
  encloses : w.current ∈ w.engaged → Calm w (act.after w) → World.Encloses S c w (act.after w)

theorem Encloses.of_encloses (hscene : (act.after w).scene = w.scene)
    (h : World.Encloses S c w (act.after w)) : act.Encloses S c w :=
  ⟨.of_scene_eq hscene, fun _ _ => h⟩

/-- An action that leaves the world as it is. -/
theorem Encloses.refl (h : act.after w = w) : act.Encloses S c w :=
  .of_encloses (by rw [h]) (by rw [h]; exact .refl w)

/-- An action that first takes a step and then goes on as another one. -/
theorem Encloses.of_eq {act' : Act α} (hrun : act w = act' u)
    (hstep : w.current ∈ w.engaged → Carries 0 none w u)
    (hencloses : w.current ∈ w.engaged → Calm w u → World.Encloses S c w u)
    (h : act'.Encloses S c u) : act.Encloses S c w := by
  refine ⟨.of_eq hrun hstep h.faithful, fun hw hcalm => ?_⟩
  have hfirst := hstep hw
  have hu : u.current ∈ u.engaged := by rwa [hfirst.current, hfirst.engaged]
  have hafter : act.after w = act'.after u := by rw [after, hrun, after]
  rw [hafter] at hcalm ⊢
  obtain ⟨hbefore, hlater⟩ := (calm_trans_iff hfirst.grows (h.faithful hu).grows).1 hcalm
  exact (hencloses hw hbefore).trans (h.encloses hu hlater)

/-- An action whose first step is not calm may go on as it likes. -/
theorem Encloses.of_stir {act' : Act α} (hrun : act w = act' u)
    (hstep : w.current ∈ w.engaged → Carries 0 none w u) (hstir : ¬Calm w u)
    (h : act'.Faithful 0 u) : act.Encloses S c w := by
  refine ⟨.of_eq hrun hstep h, fun hw hcalm => ?_⟩
  have hfirst := hstep hw
  have hu : u.current ∈ u.engaged := by rwa [hfirst.current, hfirst.engaged]
  have hafter : act.after w = act'.after u := by rw [after, hrun, after]
  rw [hafter] at hcalm
  exact absurd ((calm_trans_iff hfirst.grows (h hu).grows).1 hcalm).1 hstir

theorem Encloses.bind (h : act.Encloses S c w)
    (hf : ∀ a w', act w = .ok a w' → (f a).Encloses S c w') : (act >>= f).Encloses S c w := by
  cases hrun : act w with
  | ok a w' =>
    refine .of_eq (bind_of_ok hrun f) (h.faithful.carries_of_ok hrun) (fun hw hcalm => ?_)
      (hf a w' hrun)
    have hencloses := h.encloses hw
    rw [after_of_ok hrun] at hencloses
    exact hencloses hcalm
  | error halt w' =>
    have hboth := bind_of_error hrun f
    refine ⟨h.faithful.bind fun a w' hok => ?_, fun hw => ?_⟩
    · cases hrun.symm.trans hok
    · have hencloses := h.encloses hw
      rw [after_of_error hrun] at hencloses
      rwa [after_of_error hboth]

theorem Encloses.pure (a : α) (w : World) : (pure a : Act α).Encloses S c w :=
  .refl rfl

theorem Encloses.halt (halt : Halt) (w : World) : (Act.halt halt : Act α).Encloses S c w :=
  .refl rfl

theorem Encloses.get_bind {f : World → Act β} (h : (f w).Encloses S c w) :
    (get >>= f : Act β).Encloses S c w :=
  .bind (.refl rfl) fun _ _ hrun => by cases hrun; exact h

/-- What is done to the world after an action, however it ends. -/
theorem Encloses.ensuring {g : World → World} (h : act.Encloses S c w)
    (hscene : ∀ u, (g u).scene = u.scene) (hg : ∀ u, World.Encloses S c u (g u)) :
    (act.ensuring g).Encloses S c w := by
  refine ⟨h.faithful.ensuring hscene, fun hw hcalm => ?_⟩
  rw [after_ensuring] at hcalm ⊢
  have htrace : (g (act.after w)).trace = (act.after w).trace := congrArg Prod.fst (hscene _)
  rw [Calm, news, htrace] at hcalm
  exact (h.encloses hw hcalm).trans (hg _)

end Act

namespace Exec

variable {code : Exec α} {f : α → Exec β}

/-- Code of a thread that is under way stays among some interpreters if it remains calm. -/
def Encloses (S : Set InterpId) (c : InterpId) (code : Exec α) (w : World) : Prop :=
  Act.Encloses S c code.run w

theorem Encloses.bind (h : code.Encloses S c w)
    (hf : ∀ a w', code.run w = .ok (.ok a) w' → (f a).Encloses S c w') :
    (code >>= f).Encloses S c w := by
  refine Act.Encloses.bind h fun result w' hrun => ?_
  cases result with
  | ok a => exact hf a w' hrun
  | error end_ => exact .refl rfl

theorem Encloses.lift {act : Act α} (h : act.Encloses S c w) :
    (liftM act : Exec α).Encloses S c w :=
  Act.Encloses.bind h fun _ w' _ => .pure _ w'

theorem Encloses.observe (h : code.Encloses S c w) : code.observe.Encloses S c w :=
  Act.Encloses.bind h fun _ w' _ => .pure _ w'

end Exec

/-! ### Waiting -/

/-- A thread that waits lets no other one go on as long as it is calm. -/
theorem encloses_moveFirst (he : e.Faithful) (threads : List ThreadId) (w : World) :
    (moveFirst e threads).Encloses S c w := by
  induction threads with
  | nil => exact .pure _ w
  | cons t rest ih =>
    refine .get_bind ?_
    split
    · next hmay =>
      have ht : t ∉ (w.record (.yielded t)).engaged := not_mem_engaged_of_mayMove hmay
      refine .of_stir (Act.modify_bind _ _ w) (fun _ => carries_yielded w t)
        (not_calm_record rfl) (.bind (he.turn ht) fun moved w' _ => ?_)
      split
      · exact .pure _ w'
      · exact faithful_moveFirst he rest w'
    · exact ih

theorem encloses_waitRounds (he : e.Faithful) (ready hopeless : World → Bool)
    (deadline : Option Time) (rounds : Nat) (w : World) :
    (waitRounds e ready hopeless deadline rounds).Encloses S c w := by
  induction rounds generalizing w with
  | zero => exact .halt _ w
  | succ rounds ih =>
    refine .get_bind ?_
    split
    · exact .pure _ w
    · refine .bind (.get_bind (encloses_moveFirst he _ w)) fun moved w' _ => ?_
      split
      · exact ih w'
      · refine .get_bind ?_
        split
        · exact .pure _ w'
        · split
          · exact .halt _ w'
          · exact .of_eq (Act.set_bind _ _ w') (fun _ => .of_scene_eq rfl)
              (fun _ _ => .of_eq rfl rfl) (ih _)

theorem encloses_sleep (he : e.Faithful) (ms : Nat) (w : World) :
    (sleep e ms).Encloses S c w :=
  .get_bind (encloses_waitRounds he _ _ _ _ w)

/-! ### Scripts -/

/-- An engine whose scripts stay among the interpreters that are closed off around theirs. -/
structure Engine.Encloses (S : Set InterpId) (c : InterpId) (e : Engine) : Prop where
  faithful : e.Faithful
  script {i : InterpId} (hi : i ∈ S) (source : String) (w : World) :
    (e.call (.script i source)).Encloses S c w

theorem encloses_evalFrom (he : e.Encloses S c) (hi : i ∈ S) (source : String) (w : World) :
    (evalFrom e i source).Encloses S c w := by
  refine .bind (he.script hi source w) fun completion w' _ => .get_bind ?_
  split <;> exact .pure _ w'

/-- What a built-in command of an interpreter does by itself stays inside. -/
theorem Builtin.Step.encloses (h : Builtin.Step i w w') (hi : i ∈ S) : World.Encloses S c w w' := by
  cases h with
  | same => exact .refl w
  | print | printError => exact .of_eq rfl rfl
  | edit hf => exact .mild hi hf
  | schedule _ delay script => exact .scheduleAfter hi delay script
  | unschedule _ id => exact .unschedule hi id
  | createChild _ name safe => exact .createChild hi name safe
  | deleteChild hchild =>
    intro hw
    obtain ⟨hk, hne⟩ := (hw.inside i hi).children _ _ hchild
    exact World.Encloses.delete hk hne hw

theorem Procedure.encloses_enter (he : e.Encloses S c) (hi : i ∈ S) (p : Procedure)
    (vars : Table String String) (w : World) : (p.enter e i vars).Encloses S c w := by
  have henter (w : World) : World.Encloses S c w (w.modifyInterp i fun r => r.enterCall vars) := by
    refine .narrow hi (fun _ => ?_) (fun _ _ _ => id) (fun _ => ?_) fun _ => ?_
    · rfl
    · exact List.Subset.refl _
    · exact List.Subset.refl _
  have hleave (w : World) : World.Encloses S c w (w.modifyInterp i Interpreter.leaveCall) := by
    refine .narrow hi (fun _ => ?_) (fun _ _ _ => id) (fun _ => ?_) fun _ => ?_
    · rfl
    · exact List.Subset.refl _
    · exact List.Subset.refl _
  have hbody := (he.script hi p.body (w.modifyInterp i fun r => r.enterCall vars)).ensuring
    (g := fun w => w.modifyInterp i Interpreter.leaveCall) (fun _ => rfl) hleave
  exact .of_eq (Act.modify_bind _ _ w) (fun _ => .of_scene_eq rfl) (fun _ _ => henter w)
    (.bind hbody fun _ w' _ => .pure _ w')

/-- Code that is built of the pieces of scripts stays inside as long as it is calm. -/
theorem Exec.Built.encloses {code : Exec α} (he : e.Encloses S c) (hi : i ∈ S)
    (h : Built e i code w) : code.Encloses S c w := by
  induction h with
  | step hrun hstep _ =>
    refine .of_encloses ?_ ?_
    · rw [Act.after_of_ok hrun]
      exact hstep.scene_eq
    · rw [Act.after_of_ok hrun]
      exact hstep.encloses hi
  | stop hrun _ => exact .refl (Act.after_of_error hrun)
  | sleep ms w => exact .lift (encloses_sleep he.faithful ms w)
  | script source w => exact he.script hi source w
  | @child w name k hchild source =>
    -- whether the child is inside is known only of interpreters that are closed off
    refine ⟨faithful_evalFrom he.faithful k source w, fun hengaged hcalm hw => ?_⟩
    have hk := ((hw.inside i hi).children name k hchild).1
    exact (encloses_evalFrom he hk source w).encloses hengaged hcalm hw
  | observe _ ih => exact ih.observe
  | bind _ _ ih ihf => exact .bind ih ihf
  | call _ p vars => exact p.encloses_enter he hi vars _
  | @command w name command args _ _ _ _ _ ih =>
    exact .of_eq (Act.modify_bind _ _ w)
      (fun _ => Command.carries_beginCommand w i name command _)
      (fun _ _ => .beginCommand hi name _ _) (ih.ensuring (fun _ => rfl) fun _ => .setDepth hi _)
  | @outward w name command args _ _ _ houtward =>
    have hstir : ¬Calm w (w.beginCommand i name command (w.interp i).depth) := by
      have hwhat : (Occurrence.invoked i name command).isInward = false := by
        rw [Occurrence.isInward, houtward]
        rfl
      exact not_calm_record hwhat
    exact .of_stir (Act.modify_bind _ _ w)
      (fun _ => Command.carries_beginCommand w i name command _) hstir
      ((Command.faithful_outward he.faithful houtward name args _).ensuring fun _ => rfl)

theorem encloses_runWithin (fuel bound : Nat) : Engine.Encloses S c ⟨bound, runWithin fuel⟩ := by
  refine ⟨faithful_runWithin fuel bound, ?_⟩
  induction fuel with
  | zero => exact fun _ _ w => .halt _ w
  | succ fuel ih =>
    exact fun hi source w => (built_evalScript source w).encloses
      ⟨faithful_runWithin fuel fuel, ih⟩ hi

/-! ### The command that evaluates in a child -/

variable {p : InterpId} {cmd name script : String} {rest : List String}

/-- Code that looks at the end of other code and changes nothing itself. -/
theorem Exec.after_observe_bind {code : Exec α} {f : Except Abrupt α → Exec β}
    (hf : ∀ result w, Act.after (f result).run w = w) (w : World) :
    Act.after (code.observe >>= f).run w = Act.after code.run w := by
  cases hrun : code.run w with
  | ok result u =>
    have hobserve : code.observe.run w = .ok (.ok result) u := Act.bind_of_ok hrun _
    rw [Act.after_of_ok hrun, Act.after, run_bind_of_ok hobserve]
    exact hf result u
  | error halt u =>
    have hobserve : code.observe.run w = .error halt u := Act.bind_of_error hrun _
    have hboth : (code.observe >>= f).run w = .error halt u := Act.bind_of_error hobserve _
    rw [Act.after_of_error hrun, Act.after_of_error hboth]

namespace Command

theorem run_childNamed_bind {f : InterpId → Exec β}
    (hchild : (w.interp p).children.get? name = some c) :
    (childNamed p name >>= f).run w = (f c).run w := by
  rw [childNamed, bind_assoc, run_getInterp_bind, hchild]
  rfl

/-- All that evaluating in a child changes is what the evaluation changes. -/
theorem after_interp_eval (hchild : (w.interp p).children.get? name = some c) :
    Act.after (interp e p ("eval" :: name :: script :: rest)).run w =
      (evalFrom e c (joinWords (script :: rest))).after w := by
  rw [Act.after]
  simp only [interp]
  rw [run_childNamed_bind hchild]
  refine Exec.after_observe_bind (fun result u => ?_) w
  cases result <;> rfl

theorem after_runDeeper (command : Command) (i : InterpId) (name : String) (args : List String)
    (depth : Nat) (w : World) :
    Act.after (command.runDeeper e i name args depth).run w =
      (Act.after (command.run e i name args).run
        (w.beginCommand i name command depth)).modifyInterp i fun r => { r with depth } :=
  (Act.after_modify_bind _ _ w).trans (Act.after_ensuring _ _ _)

end Command

/-- What is closed off stays so when a command begins outside. -/
theorem World.Sealed.beginCommand (hw : w.Sealed S c) (hp : p ∉ S) (name : String)
    (command : Command) (depth : Nat) : (w.beginCommand p name command depth).Sealed S c := by
  have hinterp {i : InterpId} (hi : i ∈ S) :
      (w.beginCommand p name command depth).interp i = w.interp i := by
    have hpi : p ≠ i := fun hpi => hp (hpi ▸ hi)
    exact interp_modifyInterp_of_ne hpi _
  refine ⟨fun i hi => ?_, fun i hi hne q hq => ?_, hw.unborn, hw.numbered⟩
  · rw [hinterp hi]
    exact hw.inside i hi
  · rw [hinterp hi] at hq
    exact hw.parents i hi hne q hq

/-- A command outside that spares all outside while it is running spares itself as well. -/
theorem World.Spares.command {name : String} {command : Command}
    (hlive : (w.interp p).deleted = false)
    (h : (w.beginCommand p name command (w.interp p).depth).Spares S u) :
    w.Spares S (u.modifyInterp p fun r => { r with depth := (w.interp p).depth }) := by
  refine ⟨h.current, fun i hi => ?_, h.threads, h.agenda⟩
  have hsame := h.interps i hi
  by_cases hpi : p = i
  · subst hpi
    rw [interp_beginCommand_of_live hlive] at hsame
    have hstill : (u.interp p).deleted = false := by
      rw [hsame]
      exact hlive
    rw [interp_modifyInterp_of_live hstill, hsame]
  · rw [interp_modifyInterp_of_ne hpi, hsame]
    exact interp_modifyInterp_of_ne hpi _

namespace Command

theorem spares_runDeeper_eval (he : e.Encloses S c) (hsealed : w.Sealed S c) (hc : c ∈ S)
    (hp : p ∉ S) (hunder : w.current ∈ w.engaged) (hlive : (w.interp p).deleted = false)
    (hchild : (w.interp p).children.get? name = some c)
    (hcalm : Calm w (Act.after ((Command.builtin .interp).runDeeper e p cmd
      ("eval" :: name :: script :: rest) (w.interp p).depth).run w)) :
    w.Spares S (Act.after ((Command.builtin .interp).runDeeper e p cmd
      ("eval" :: name :: script :: rest) (w.interp p).depth).run w) := by
  let begun := w.beginCommand p cmd (.builtin .interp) (w.interp p).depth
  have hbefore : Carries 0 none w begun := carries_beginCommand w p cmd (.builtin .interp) _
  have hlisted : (begun.interp p).children.get? name = some c := by
    rw [interp_beginCommand_of_live hlive]
    exact hchild
  have hafter := after_runDeeper (e := e) (.builtin .interp) p cmd
    ("eval" :: name :: script :: rest) (w.interp p).depth w
  have heval : Act.after ((Command.builtin .interp).run e p cmd
      ("eval" :: name :: script :: rest)).run begun = _ := after_interp_eval hlisted
  have hcode := encloses_evalFrom he hc (joinWords (script :: rest)) begun
  rw [heval] at hafter
  rw [hafter] at hcalm ⊢
  have hrest := ((calm_trans_iff hbefore.grows (hcode.faithful hunder).grows).1 hcalm).2
  exact .command hlive (hcode.encloses hunder hrest (hsealed.beginCommand hp _ _ _)).toSpares

/-- **Evaluating in a child does not leak into the parent.** A command of an interpreter evaluates a
script in a child, which with all that is below it keeps to itself. However that ends, if meanwhile
nothing pending was served, the host was not called and no other thread went on, then the interpreter
is as it was before, and so is every other one that is not below the child, with all its variables and
frames, commands, counts of writes, children and scheduled scripts; and nothing that is pending on any
thread has changed apart from the scripts of what is below the child. -/
theorem interp_eval_spares (fuel : Nat) (hw : w.Trees ∅) (hnumbered : w.Numbered)
    (hunder : w.current ∈ w.engaged) (hsecluded : w.Secluded c)
    (hcommand : (w.interp p).commands.get? cmd = some (.builtin .interp))
    (hchild : (w.interp p).children.get? name = some c)
    (hcalm : Calm w ((runWithin fuel
      (.words p (cmd :: "eval" :: name :: script :: rest))).after w)) :
    let w' := (runWithin fuel (.words p (cmd :: "eval" :: name :: script :: rest))).after w
    w'.interp p = w.interp p ∧ w.Spares (w.offspring c) w' := by
  have hparent := (hw.child p name c hchild).1
  have hlt := hw.parent_lt c p hparent
  have hc := lt_of_parent hnumbered hparent
  have hp : p ∉ w.offspring c := by
    rintro (hbeneath | hunborn)
    · exact absurd hlt (Nat.not_lt.2 (hw.le_of_beneath hbeneath))
    · exact absurd (hlt.trans hc) (Nat.not_lt.2 hunborn)
  have hlive : (w.interp p).deleted = false := by
    by_contra hgone
    rw [hw.childless p (Bool.eq_true_of_not_eq_false hgone)] at hchild
    cases hchild
  suffices hspares : w.Spares (w.offspring c)
      ((runWithin fuel (.words p (cmd :: "eval" :: name :: script :: rest))).after w) from
    ⟨hspares.interps p hp, hspares⟩
  cases fuel with
  | zero => exact .refl w
  | succ fuel =>
    have hperform : Act.after (runWithin (fuel + 1)
        (.words p (cmd :: "eval" :: name :: script :: rest))) w =
          Act.after (invokeWords ⟨fuel, runWithin fuel⟩ p
            (cmd :: "eval" :: name :: script :: rest)).run w := rfl
    rw [hperform] at hcalm ⊢
    by_cases hdepth : (w.interp p).depth < Interpreter.maxDepth
    · rw [Act.after, run_invokeWords hlive hcommand hdepth, ← Act.after] at hcalm ⊢
      exact spares_runDeeper_eval (encloses_runWithin fuel fuel)
        (hsecluded.isSealed hw hnumbered hc) (.inl .refl) hp hunder hlive hchild hcalm
    · -- the command is nested too deeply and does not begin
      have hdeep : Act.after (invokeWords ⟨fuel, runWithin fuel⟩ p
          (cmd :: "eval" :: name :: script :: rest)).run w = w := by
        rw [Act.after, invokeWords, run_checkLive_bind hlive, run_getInterp_bind, hcommand]
        simp only [Nat.not_lt.1 hdepth, if_true]
        rfl
      rw [hdeep]
      exact .refl w

/-- Interpreters with a timer of the first one and an idle handler of its grandchild. -/
def nursery : World :=
  ((grove.scheduleAfter 0 (some 5) "set x 1").2.scheduleAfter 2 none "set y 2").2

theorem trees_nursery : nursery.Trees ∅ := by
  refine trees_grove.congr fun i => ?_
  have hscript (w : World) (j : InterpId) (id : String) (token : AfterToken) :=
    keeps_modifyInterp Interpreter.family (f := fun r => { r with
      nextAfter := r.nextAfter + 1, afters := r.afters.insert id token }) (fun r => rfl) w j i
  exact (hscript _ 2 "after#0" (.idle 2)).trans (hscript grove 0 "after#0" (.timer 1))

theorem numbered_nursery : nursery.Numbered := by
  have hgrove : grove.Numbered := numbered_empty.newInterp.bear.bear.bear
  have hscript {w : World} (hw : w.Numbered) (i : InterpId) (delay : Option Nat) (script : String) :
      (w.scheduleAfter i delay script).2.Numbered := by
    cases delay <;> exact Numbered.modifyInterp (w := w.setAgenda _) hw _
  exact hscript (hscript hgrove 0 (some 5) "set x 1") 2 none "set y 2"

theorem secluded_nursery : nursery.Secluded 1 := by
  have hidle : nursery.agenda.idle = [(2, .after 2 "after#0" "set y 2")] := rfl
  have htimers : nursery.agenda.timers = [⟨5000, 1, .after 0 "after#0" "set x 1"⟩] := rfl
  have hbelow : nursery.Beneath 1 2 := .single (rfl : (nursery.interp 2).parent = some 1)
  -- what an interpreter below the first child may have to do with others
  have hmodest (i : InterpId) (hi : nursery.Beneath 1 i) :
      (nursery.interp i).deleteHooks = [] ∧ (nursery.interp i).afters.values ⊆ [.idle 2] := by
    have hcases (k : Nat) (hle : 1 ≤ k) (hlt : k < 4) : k = 1 ∨ k = 2 ∨ k = 3 := by omega
    by_cases hknown : i < nursery.nextInterp
    · rcases hcases i (trees_nursery.le_of_beneath hi) hknown with rfl | rfl | rfl
      · exact ⟨rfl, List.nil_subset _⟩
      · exact ⟨rfl, List.Subset.refl _⟩
      · exact ⟨rfl, List.nil_subset _⟩
    · rw [numbered_nursery.interp_of_le (Nat.not_lt.1 hknown)]
      exact ⟨rfl, List.nil_subset _⟩
  refine ⟨fun i hi token hmem => ?_, fun i hi hook hmem => ?_, ⟨fun t ht => ?_, fun entry hentry => ?_⟩⟩
  · rw [List.mem_singleton.1 ((hmodest i hi).2 hmem)]
    intro entry hentry _
    rw [hidle, List.mem_singleton] at hentry
    rw [hentry]
    exact ⟨2, hbelow, "after#0", rfl⟩
  · rw [(hmodest i hi).1] at hmem
    cases hmem
  · rw [htimers, List.mem_singleton] at ht
    rw [ht]
    decide
  · rw [hidle, List.mem_singleton] at hentry
    rw [hentry]
    decide

/-- A script that cancels and schedules, deletes a child and makes another one, and ends in a
procedure with an error. -/
def busyScript : String :=
  "interp eval b {after cancel after#0}; after idle {set z 3}; interp delete b; interp create d; " ++
    "proc p {} {global x; set x 2; error boom}; p"

theorem interp_eval_spares_nursery :
    let w' := (runWithin ampleFuel (.words 0 ["interp", "eval", "a", busyScript])).after nursery
    Calm nursery w' ∧ w'.interp 0 = nursery.interp 0 ∧
      nursery.Spares (nursery.offspring 1) w' := by
  have hcalm : ((news nursery ((runWithin ampleFuel
      (.words 0 ["interp", "eval", "a", busyScript])).after nursery)).all
        fun incident => incident.what.isInward) = true := by decide +kernel
  have hcalm := List.all_eq_true.1 hcalm
  exact ⟨hcalm, interp_eval_spares ampleFuel trees_nursery numbered_nursery (by decide)
    secluded_nursery rfl rfl hcalm⟩

end Command

end ScriptHost
