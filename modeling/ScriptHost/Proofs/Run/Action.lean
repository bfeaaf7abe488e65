import ScriptHost.Proofs.Run.Covers

/-!
# Actions as pieces of code

An action moves by a relation that covers what code does if the world that it leaves is related to
the one that it finds: also if a fatal signal or a panic cuts the action short. If the action
stalls, which nothing in the code of a host gets over, this is asked only of patient relations; for
the others it is enough that the machine leads from one world to the other. Nothing is said about
worlds that are not tidy, so code that moves asks for nothing in such a world.
-/

namespace ScriptHost

/-- The world that an action leaves, however it ends. -/
def Act.after {α : Type} (act : Act α) (w : World) : World :=
  match act w with
  | .ok _ w => w
  | .error _ w => w

/-- An action does not come to an end because every thread waits. -/
def Act.Stalls {α : Type} (act : Act α) (w : World) : Prop :=
  ∃ w', act w = .error .stalled w'

/-! ### Actions -/

namespace Act

section

variable {α β : Type} {act : Act α} {w w' : World}

theorem bind_of_ok {a : α} (h : act w = .ok a w') (f : α → Act β) : (act >>= f) w = f a w' := by
  simp only [Bind.bind, EStateM.bind, h]

theorem bind_of_error {halt : Halt} (h : act w = .error halt w') (f : α → Act β) :
    (act >>= f) w = .error halt w' := by
  simp only [Bind.bind, EStateM.bind, h]

theorem exists_of_bind_ok {f : α → Act β} {b : β} (h : (act >>= f) w = .ok b w') :
    ∃ a u, act w = .ok a u ∧ f a u = .ok b w' := by
  cases hact : act w with
  | ok a u =>
    rw [bind_of_ok hact] at h
    exact ⟨a, u, rfl, h⟩
  | error halt u =>
    rw [bind_of_error hact] at h
    cases h

theorem after_of_ok {a : α} (h : act w = .ok a w') : act.after w = w' := by
  rw [Act.after, h]

theorem after_of_error {halt : Halt} (h : act w = .error halt w') : act.after w = w' := by
  rw [Act.after, h]

theorem get_bind (f : World → Act β) (w : World) : (get >>= f : Act β) w = f w w := rfl

theorem set_bind (w' : World) (f : PUnit → Act β) (w : World) :
    (MonadStateOf.set w' >>= f : Act β) w = f () w' := rfl

theorem modify_bind (g : World → World) (f : PUnit → Act β) (w : World) :
    (modify g >>= f : Act β) w = f () (g w) := rfl

theorem attempt_of_ok {a : α} (h : act w = .ok a w') : act.attempt w = .ok (.ok a) w' := by
  simp only [attempt, h]

theorem attempt_of_error {halt : Halt} (h : act w = .error halt w') :
    act.attempt w = .ok (.error halt) w' := by
  simp only [attempt, h]

theorem after_attempt (act : Act α) (w : World) : act.attempt.after w = act.after w := by
  unfold Act.after Act.attempt
  cases act w <;> rfl

/-- What is done after an attempt, however it ended, is done next. -/
theorem attempt_ensuring_bind (act : Act α) (g : World → World) (f : Except Halt α → Act β) :
    (act.attempt.ensuring g >>= f) =
      (act.attempt >>= fun result => modify g >>= fun _ => f result) := by
  funext w
  simp only [Bind.bind, EStateM.bind, ensuring, attempt]
  cases act w <;> rfl

theorem not_stalls_of_ok {a : α} (h : act w = .ok a w') : ¬act.Stalls w := by
  rintro ⟨w'', hw''⟩
  rw [h] at hw''
  cases hw''

theorem stalls_bind (h : act.Stalls w) (f : α → Act β) : (act >>= f).Stalls w := by
  obtain ⟨w', hw⟩ := h
  exact ⟨w', bind_of_error hw f⟩

theorem map_of_ok {a : α} (h : act w = .ok a w') (f : α → β) :
    (f <$> act) w = .ok (f a) w' := by
  rw [map_eq_pure_bind, bind_of_ok h]
  rfl

theorem after_map (f : α → β) (act : Act α) (w : World) : (f <$> act).after w = act.after w := by
  cases hact : act w with
  | ok a u => rw [after_of_ok hact, after_of_ok (map_of_ok hact f)]
  | error halt u =>
    rw [map_eq_pure_bind, after_of_error hact, after_of_error (bind_of_error hact _)]

theorem after_modify_bind (g : World → World) (f : PUnit → Act β) (w : World) :
    (modify g >>= f : Act β).after w = (f ()).after (g w) := rfl

theorem after_ensuring (act : Act α) (g : World → World) (w : World) :
    (act.ensuring g).after w = g (act.after w) := by
  unfold Act.after Act.ensuring
  cases act w <;> rfl

theorem stalls_ensuring (h : act.Stalls w) (g : World → World) : (act.ensuring g).Stalls w := by
  obtain ⟨w', hw⟩ := h
  exact ⟨g w', by simp only [ensuring, hw]⟩

end

open Run

variable {α β : Type}

/-- An action that stalls counts only for a patient relation. -/
def Counts (R : World → World → Prop) (act : Act α) (w : World) : Prop :=
  act.Stalls w → Patient R

/-- The world that an action leaves is related to the one at hand. -/
structure Arrives (R : World → World → Prop) (act : Act α) (w : World) : Prop where
  leads : Leads w (act.after w)
  rel : act.Counts R w → R w (act.after w)

/-- The world that an action leaves is related to the one at hand, if this is tidy. -/
def MovesFrom (R : World → World → Prop) (act : Act α) (w : World) : Prop :=
  w.Tidy → act.Arrives R w

/-- The world that an action leaves is related to the one that it finds. -/
def Moves (R : World → World → Prop) (act : Act α) : Prop :=
  ∀ w, act.MovesFrom R w

section

variable {R : World → World → Prop} {act : Act α} {act' : Act β} {w w' : World}

theorem Counts.of_ok {a : α} (h : act w = .ok a w') : act.Counts R w :=
  fun hstalls => absurd hstalls (not_stalls_of_ok h)

theorem Counts.of_patient [hR : Patient R] : act.Counts R w :=
  fun _ => hR

/-- An action counts if one does that stalls whenever it does. -/
theorem Counts.of_stalls (h : act'.Counts R w') (hstalls : act.Stalls w → act'.Stalls w') :
    act.Counts R w :=
  fun hact => h (hstalls hact)

end

section

variable {act : Act α}

theorem Moves.of_leads (h : ∀ w, w.Tidy → Leads w (act.after w)) : act.Moves Leads :=
  fun w htidy => ⟨h w htidy, fun _ => h w htidy⟩

theorem Moves.attempt (h : act.Moves Leads) : act.attempt.Moves Leads := by
  refine .of_leads fun w htidy => ?_
  rw [after_attempt]
  exact (h w htidy).leads

end

section

variable {L R : World → World → Prop} {act : Act α} {f : α → Act β} {w w' : World}

theorem Moves.leads (h : act.Moves R) : act.Moves Leads :=
  .of_leads fun w htidy => (h w htidy).leads

/-- What happens between two changes of the world. -/
theorem MovesFrom.bracket {enter leave : World → World} (hact : act.MovesFrom R (enter w))
    (htidy : w.Tidy → (enter w).Tidy)
    (hleads : Leads (enter w) (act.after (enter w)) → Leads w (leave (act.after (enter w))))
    (hrel : R (enter w) (act.after (enter w)) → R w (leave (act.after (enter w)))) :
    ((modify enter : Act PUnit) >>= fun _ => act.ensuring leave).MovesFrom R w := by
  intro hw
  obtain ⟨hleads', hrel'⟩ := hact (htidy hw)
  have hafter := (after_modify_bind enter (fun _ => act.ensuring leave) w).trans
    (after_ensuring act leave (enter w))
  refine ⟨?_, fun hcounts => ?_⟩
  · rw [hafter]
    exact hleads hleads'
  · rw [hafter]
    exact hrel (hrel' (hcounts.of_stalls fun hstalls => stalls_ensuring hstalls leave))

variable [Tracks L R]

theorem MovesFrom.all (h : act.MovesFrom R w) : act.MovesFrom L w := by
  intro htidy
  obtain ⟨hleads, hrel⟩ := h htidy
  refine ⟨hleads, fun hcounts => ?_⟩
  by_cases hcountsR : act.Counts R w
  · exact Follows.all (hrel hcountsR)
  · obtain ⟨hstalls, hR⟩ := Classical.not_imp.1 hcountsR
    exact Follows.coarse (hcounts hstalls) hR hleads

theorem Moves.all (h : act.Moves R) : act.Moves L :=
  fun w => (h w).all

/-- When other threads act, it is enough that the action moves as they do. -/
theorem MovesFrom.foreign (hw : ¬w.Solo) (h : act.MovesFrom L w) : act.MovesFrom R w := by
  intro htidy
  obtain ⟨hleads, hrel⟩ := h htidy
  refine ⟨hleads, fun hcounts => Follows.foreign hw (hrel fun hstalls => ?_)⟩
  exact Follows.patient (hcounts hstalls)

include L

theorem MovesFrom.of_rel (h : R w (act.after w)) : act.MovesFrom R w :=
  fun _ => ⟨Follows.leads h, fun _ => h⟩

theorem MovesFrom.of_after (h : act.after w = w') (hl : R w w') : act.MovesFrom R w :=
  .of_rel (h ▸ hl)

theorem MovesFrom.set (h : R w w') : (set w' : Act PUnit).MovesFrom R w :=
  .of_rel h

theorem Moves.modify {f : World → World} (h : ∀ w, R w (f w)) :
    (modify f : Act PUnit).Moves R :=
  fun w => .of_rel (h w)

/-- An action that first takes a step and then goes on as another one. -/
theorem Arrives.of_eq {act' : Act α} (hrun : act w = act' w') (hleads : Leads w w')
    (hrel : act.Counts R w → R w w') (h : act'.Arrives R w') : act.Arrives R w := by
  have hafter : act.after w = act'.after w' := by
    rw [Act.after, hrun, Act.after]
  refine ⟨?_, fun hcounts => ?_⟩
  · rw [hafter]
    exact hleads.trans h.leads
  · rw [hafter]
    exact Follows.trans (hrel hcounts)
      (h.rel (hcounts.of_stalls fun ⟨w'', hw''⟩ => ⟨w'', hrun.trans hw''⟩))

/-- What is done next may rely on what has been done. -/
theorem MovesFrom.andThen (hact : act.MovesFrom R w)
    (hf : ∀ a w', act w = .ok a w' → R w w' → (f a).MovesFrom R w') :
    (act >>= f).MovesFrom R w := by
  intro htidy
  obtain ⟨hleads, hrel⟩ := hact htidy
  have hrel' (hcounts : (act >>= f).Counts R w) : R w (act.after w) :=
    hrel (hcounts.of_stalls fun hstalls => stalls_bind hstalls f)
  unfold Act.after at hleads hrel'
  cases hw : act w with
  | ok a w' =>
    rw [hw] at hleads hrel'
    have hdone : R w w' := after_of_ok hw ▸ hrel (.of_ok hw)
    exact .of_eq (bind_of_ok hw f) hleads hrel' (hf a w' hw hdone (hleads.tidy htidy))
  | error halt w' =>
    rw [hw] at hleads hrel'
    have hafter := after_of_error (bind_of_error hw f)
    exact ⟨hafter ▸ hleads, hafter ▸ hrel'⟩

theorem MovesFrom.bind (hact : act.MovesFrom R w)
    (hf : ∀ a w', act w = .ok a w' → (f a).MovesFrom R w') : (act >>= f).MovesFrom R w :=
  hact.andThen fun a w' hw _ => hf a w' hw

theorem Moves.bind (hact : act.Moves R) (hf : ∀ a, (f a).Moves R) : (act >>= f).Moves R :=
  fun w => (hact w).bind fun a w' _ => hf a w'

/-- Code that goes on after an attempt, and that stalls if the attempt did so. -/
theorem MovesFrom.attempt_bind {f : Except Halt α → Act β} (hact : act.MovesFrom R w)
    (hf : ∀ result, (f result).Moves R) (hstalls : ∀ w', (f (.error .stalled)).Stalls w') :
    (act.attempt >>= f).MovesFrom R w := by
  intro htidy
  obtain ⟨hleads, hrel⟩ := hact htidy
  have hrel' (hcounts : (act.attempt >>= f).Counts R w) : R w (act.after w) := by
    refine hrel (hcounts.of_stalls fun ⟨w', hw⟩ => ?_)
    obtain ⟨w'', hw''⟩ := hstalls w'
    exact ⟨w'', (bind_of_ok (attempt_of_error hw) f).trans hw''⟩
  unfold Act.after at hleads hrel'
  cases hw : act w with
  | ok a w' =>
    rw [hw] at hleads hrel'
    exact .of_eq (bind_of_ok (attempt_of_ok hw) f) hleads hrel' (hf _ w' (hleads.tidy htidy))
  | error halt w' =>
    rw [hw] at hleads hrel'
    exact .of_eq (bind_of_ok (attempt_of_error hw) f) hleads hrel' (hf _ w' (hleads.tidy htidy))

theorem Moves.attempt_bind {f : Except Halt α → Act β} (hact : act.Moves R)
    (hf : ∀ result, (f result).Moves R) (hstalls : ∀ w, (f (.error .stalled)).Stalls w) :
    (act.attempt >>= f).Moves R :=
  fun w => (hact w).attempt_bind hf hstalls

/-- An action that leaves the world as it is moves. -/
theorem MovesFrom.refl (w : World) (h : act.after w = w) : act.MovesFrom R w :=
  .of_after h (Tracks.refl w)

theorem MovesFrom.pure (a : α) (w : World) : (pure a : Act α).MovesFrom R w :=
  .refl w rfl

theorem Moves.pure (a : α) : (pure a : Act α).Moves R :=
  fun w => .refl w rfl

theorem Moves.halt (h : Halt) : (Act.halt h : Act α).Moves R :=
  fun w => .refl w rfl

theorem Moves.raise (signal : FatalSignal) : (Act.raise signal : Act α).Moves R :=
  fun w => .refl w rfl

theorem Moves.beginUnwind (signal : FatalSignal) : (Act.beginUnwind signal : Act α).Moves R :=
  fun w => .of_after rfl (Tracks.record w rfl)

theorem Moves.panic (text : String) : (Act.panic text : Act α).Moves R :=
  fun w => .refl w rfl

theorem MovesFrom.get_bind {f : World → Act β} (h : (f w).MovesFrom R w) :
    (get >>= f : Act β).MovesFrom R w :=
  .bind (.refl w rfl) fun _ _ hw => by cases hw; exact h

theorem Moves.get_bind {f : World → Act β} (h : ∀ w, (f w).MovesFrom R w) :
    (get >>= f : Act β).Moves R :=
  fun w => .get_bind (h w)

theorem MovesFrom.set_bind {f : PUnit → Act β} (h : R w w') (hf : (f ()).MovesFrom R w') :
    (MonadStateOf.set w' >>= f : Act β).MovesFrom R w :=
  .bind (.of_rel h) fun _ _ hw => by cases hw; exact hf

theorem MovesFrom.modify_bind {g : World → World} {f : PUnit → Act β} (h : R w (g w))
    (hf : (f ()).MovesFrom R (g w)) : (modify g >>= f : Act β).MovesFrom R w :=
  .bind (.of_rel h) fun _ _ hw => by cases hw; exact hf

/-- Two changes of the world that go together. -/
theorem MovesFrom.set_modify_bind {g : World → World} {f : PUnit → Act β} (h : R w (g w'))
    (hf : (f ()).MovesFrom R (g w')) :
    (MonadStateOf.set w' >>= fun _ => modify g >>= f : Act β).MovesFrom R w := by
  have hset : (MonadStateOf.set (g w') >>= f : Act β).MovesFrom R w := .set_bind h hf
  exact hset

end

end Act

/-! ### Code that may complete abruptly -/

namespace Exec

open Run

variable {α β : Type}

/-- The world that some code leaves is related to the one at hand, if this is tidy. -/
def MovesFrom (R : World → World → Prop) (code : Exec α) (w : World) : Prop :=
  Act.MovesFrom R code.run w

/-- The world that some code leaves is related to the one that it finds. -/
def Moves (R : World → World → Prop) (code : Exec α) : Prop :=
  Act.Moves R code.run

variable {L R : World → World → Prop} {code : Exec α} {f : α → Exec β} {w w' : World}

theorem run_bind_of_ok {a : α} (h : code.run w = .ok (.ok a) w') (f : α → Exec β) :
    (code >>= f).run w = (f a).run w' :=
  Act.bind_of_ok h _

theorem run_bind_of_error {failure : Abrupt} (h : code.run w = .ok (.error failure) w')
    (f : α → Exec β) : (code >>= f).run w = .ok (.error failure) w' :=
  (Act.bind_of_ok h _).trans rfl

theorem Moves.ofAct {act : Act (Except Abrupt α)} (h : act.Moves R) : Exec.Moves R (Exec.ofAct act) :=
  h

variable [Tracks L R]

include L

theorem Moves.modify {f : World → World} (h : ∀ w, R w (f w)) :
    Exec.Moves R (modify f : Exec PUnit) :=
  fun w => .of_rel (h w)

theorem MovesFrom.bind (hcode : Exec.MovesFrom R code w)
    (hf : ∀ a w', code.run w = .ok (.ok a) w' → Exec.MovesFrom R (f a) w') :
    Exec.MovesFrom R (code >>= f) w := by
  refine Act.MovesFrom.bind hcode fun a w' hw => ?_
  cases a with
  | ok a => exact hf a w' hw
  | error e => exact .refl w' rfl

theorem Moves.bind (hcode : Exec.Moves R code) (hf : ∀ a, Exec.Moves R (f a)) :
    Exec.Moves R (code >>= f) :=
  fun w => MovesFrom.bind (hcode w) fun a w' _ => hf a w'

theorem Moves.pure (a : α) : Exec.Moves R (pure a : Exec α) :=
  fun w => .refl w rfl

theorem Moves.throw (e : Abrupt) : Exec.Moves R (throw e : Exec α) :=
  fun w => .refl w rfl

theorem Moves.fail (message : String) : Exec.Moves R (Exec.fail message : Exec α) :=
  fun w => .refl w rfl

theorem Moves.wrongArgs (usage : String) : Exec.Moves R (Exec.wrongArgs usage : Exec α) :=
  fun w => .refl w rfl

theorem Moves.ofExcept (result : Except Abrupt α) : Exec.Moves R (Exec.ofExcept result) :=
  fun w => .refl w rfl

theorem MovesFrom.lift {act : Act α} (h : act.MovesFrom R w) :
    Exec.MovesFrom R (liftM act : Exec α) w :=
  Act.MovesFrom.bind h fun _ w' _ => .refl w' rfl

theorem Moves.lift {act : Act α} (h : act.Moves R) : Exec.Moves R (liftM act : Exec α) :=
  fun w => Exec.MovesFrom.lift (h w)

theorem Moves.observe (h : Exec.Moves R code) : Exec.Moves R code.observe :=
  Act.Moves.bind h fun _ => .pure _

theorem MovesFrom.get_bind {f : World → Exec β} (h : Exec.MovesFrom R (f w) w) :
    Exec.MovesFrom R (get >>= f) w :=
  .bind (.refl w rfl) fun _ _ hw => by cases hw; exact h

theorem Moves.get_bind {f : World → Exec β} (h : ∀ w, Exec.MovesFrom R (f w) w) :
    Exec.Moves R (get >>= f) :=
  fun w => Exec.MovesFrom.get_bind (h w)

theorem MovesFrom.set_bind {f : PUnit → Exec β} (h : R w w')
    (hf : Exec.MovesFrom R (f ()) w') : Exec.MovesFrom R (MonadState.set w' >>= f) w :=
  .bind (.of_rel h) fun _ _ hw => by cases hw; exact hf

end Exec

end ScriptHost
