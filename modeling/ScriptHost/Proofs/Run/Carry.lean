import ScriptHost.Proofs.Handle.Fatal
import ScriptHost.Proofs.World.Scene

/-!
# Code that carries a fatal signal on

When host code raises a fatal signal, the code around it is to do nothing more than to pass the signal
on. Code carries signals in this sense if whatever its thread raises is the last thing that happens,
and the code is cut short by it. This is kept when pieces of code are put together, as long as nothing
stops the signal; letting the last holder of a handle go is the one thing that may be done on the way.
-/

namespace ScriptHost

namespace World

variable {w u w' : World} {n m : Nat} {sig : Option FatalSignal} {new new' : List Incident}
  {t : ThreadId} {f : FatalSignal}

/-! ### What happened between two worlds -/

/-- What happened between two worlds, the newest first. -/
def news (w w' : World) : List Incident :=
  w'.trace.take (w'.trace.length - w.trace.length)

theorem news_eq (h : w'.trace = new ++ w.trace) : news w w' = new := by
  rw [news, h, List.length_append, Nat.add_sub_cancel, List.take_left']
  rfl

theorem news_append (h : w.trace <:+ w'.trace) : news w w' ++ w.trace = w'.trace := by
  obtain ⟨new, hnew⟩ := h
  rw [news_eq hnew.symm, hnew]

theorem news_of_trace_eq (h : w'.trace = w.trace) : news w w' = [] :=
  news_eq h

theorem news_self (w : World) : news w w = [] :=
  news_of_trace_eq rfl

theorem news_record (w : World) (what : Occurrence) :
    news w (w.record what) = [⟨w.current, what⟩] :=
  news_eq rfl

theorem news_trans (h : w.trace <:+ u.trace) (h' : u.trace <:+ w'.trace) :
    news w w' = news u w' ++ news w u := by
  refine news_eq ?_
  rw [List.append_assoc, news_append h, news_append h']

/-! ### What code of a thread leaves alone -/

/-- Code of the thread that is running leaves alone which threads are under way and the closures that
run on the others; only threads that were not under way do anything besides. -/
structure Keeps (w w' : World) : Prop where
  current : w'.current = w.current
  engaged : w'.engaged = w.engaged
  callbacks : ∀ t ∈ w.engaged, t ≠ w.current → w'.callbacksOf t = w.callbacksOf t
  grows : w.trace <:+ w'.trace
  told : ∀ incident ∈ news w w', incident.thread = w.current ∨ incident.thread ∉ w.engaged

theorem Keeps.of_scene_eq (h : w'.scene = w.scene) : Keeps w w' := by
  simp only [scene, Prod.mk.injEq] at h
  obtain ⟨htrace, hcurrent, hengaged, hcallbacks⟩ := h
  refine ⟨hcurrent, hengaged, fun t _ _ => congrFun hcallbacks t, ?_, ?_⟩
  · rw [htrace]
  · rw [news_of_trace_eq htrace]
    exact fun incident hmem => absurd hmem List.not_mem_nil

theorem Keeps.trans (h : Keeps w u) (h' : Keeps u w') : Keeps w w' where
  current := h'.current.trans h.current
  engaged := h'.engaged.trans h.engaged
  callbacks t ht hne :=
    (h'.callbacks t (h.engaged ▸ ht) (h.current ▸ hne)).trans (h.callbacks t ht hne)
  grows := h.grows.trans h'.grows
  told incident hmem := by
    rw [news_trans h.grows h'.grows, List.mem_append] at hmem
    rcases hmem with hlater | hearlier
    · have htold := h'.told incident hlater
      rwa [h.current, h.engaged] at htold
    · exact h.told incident hearlier

/-- At least a number of host closures run on the thread that is running. -/
def Within (n : Nat) (w : World) : Prop :=
  ∃ depth, w.callbacksOf w.current = some depth ∧ n ≤ depth

theorem Within.mono (h : w.Within n) (hm : m ≤ n) : w.Within m := by
  obtain ⟨depth, hdepth, hn⟩ := h
  exact ⟨depth, hdepth, Nat.le_trans hm hn⟩

theorem within_one_iff : w.Within 1 ↔ w.inCallback = true := by
  rw [Within, inCallback, callbacksOf]
  cases w.threads.get? w.current with
  | none => simp
  | some thread => simp [Nat.one_le_iff_ne_zero, Nat.pos_iff_ne_zero]

theorem within_zero_iff : w.Within 0 ↔ w.isRegistered w.current = true := by
  rw [Within, callbacksOf, isRegistered, Table.contains]
  cases w.threads.get? w.current <;> simp

theorem Within.keeps (h : w.Within n) (hkeeps : Keeps w w')
    (hown : w'.callbacksOf w.current = w.callbacksOf w.current) : w'.Within n := by
  obtain ⟨depth, hdepth, hn⟩ := h
  exact ⟨depth, by rw [hkeeps.current, hown, hdepth], hn⟩

theorem Keeps.inCallback_eq (h : Keeps w w')
    (hown : w'.callbacksOf w.current = w.callbacksOf w.current) : w'.inCallback = w.inCallback := by
  have hwithin : w'.Within 1 ↔ w.Within 1 := by rw [Within, Within, h.current, hown]
  rwa [within_one_iff, within_one_iff, ← Bool.eq_iff_iff] at hwithin

/-! ### Signals that are handed on -/

/-- What a thread raised among some incidents is the newest of them, and it is the signal that is
handed on. -/
def Handed (t : ThreadId) (new : List Incident) (sig : Option FatalSignal) : Prop :=
  ∀ f, ⟨t, .raised f⟩ ∈ new →
    sig = some f ∧ ∃ rest, new = ⟨t, .raised f⟩ :: rest ∧ ∀ g, ⟨t, .raised g⟩ ∉ rest

theorem Handed.of_unraised (h : ∀ f, ⟨t, .raised f⟩ ∉ new) : Handed t new sig :=
  fun f hf => absurd hf (h f)

theorem Handed.unraised (h : Handed t new none) (f : FatalSignal) : ⟨t, .raised f⟩ ∉ new :=
  fun hf => by cases (h f hf).1

/-- What comes after code that was not cut short hands its own signals on. -/
theorem Handed.append (h : Handed t new none) (h' : Handed t new' sig) :
    Handed t (new' ++ new) sig := by
  intro f hf
  rcases List.mem_append.1 hf with hf | hf
  · obtain ⟨hsig, rest, hrest, hunraised⟩ := h' f hf
    refine ⟨hsig, rest ++ new, by rw [hrest, List.cons_append], fun g hg => ?_⟩
    rcases List.mem_append.1 hg with hg | hg
    · exact hunraised g hg
    · exact h.unraised g hg
  · exact absurd hf (h.unraised f)

/-- What code does whose signals are handed on: as long as at least `n` host closures run on the
thread, it leaves as many there, and what the thread raises is the last thing that happens, unless the
last holder of a handle goes. -/
structure Carries (n : Nat) (sig : Option FatalSignal) (w w' : World) : Prop extends Keeps w w' where
  own : w.Within n → w'.callbacksOf w.current = w.callbacksOf w.current
  signal : w.Within n →
    (∃ h, ⟨w.current, .letGo h⟩ ∈ news w w') ∨ Handed w.current (news w w') sig

theorem Carries.mono (h : Carries m sig w w') (hm : m ≤ n) : Carries n sig w w' :=
  ⟨h.toKeeps, fun hn => h.own (hn.mono hm), fun hn => h.signal (hn.mono hm)⟩

theorem Carries.of_scene_eq (h : w'.scene = w.scene) : Carries n sig w w' := by
  refine ⟨.of_scene_eq h, fun _ => ?_, fun _ => .inr ?_⟩
  · simp only [scene, Prod.mk.injEq] at h
    exact congrFun h.2.2.2 w.current
  · rw [news_of_trace_eq (congrArg Prod.fst h)]
    exact fun f hf => absurd hf List.not_mem_nil

theorem Carries.trans (h : Carries n none w u) (h' : Carries n sig u w') : Carries n sig w w' := by
  refine ⟨h.toKeeps.trans h'.toKeeps, fun hn => ?_, fun hn => ?_⟩
  · have hown := h'.own (hn.keeps h.toKeeps (h.own hn))
    rw [h.current] at hown
    exact hown.trans (h.own hn)
  · rw [news_trans h.grows h'.grows]
    have hlater := h'.signal (hn.keeps h.toKeeps (h.own hn))
    rw [h.current] at hlater
    rcases h.signal hn with ⟨k, hk⟩ | hfirst
    · exact .inl ⟨k, List.mem_append_right _ hk⟩
    · rcases hlater with ⟨k, hk⟩ | hsecond
      · exact .inl ⟨k, List.mem_append_left _ hk⟩
      · exact .inr (hfirst.append hsecond)

theorem Carries.of_scene_eq_right (h : Carries n sig w u) (hscene : w'.scene = u.scene) :
    Carries n sig w w' := by
  have hkeeps := h.toKeeps.trans (.of_scene_eq hscene)
  simp only [scene, Prod.mk.injEq] at hscene
  obtain ⟨htrace, -, -, hcallbacks⟩ := hscene
  refine ⟨hkeeps, fun hn => ?_, fun hn => ?_⟩
  · rw [hcallbacks]
    exact h.own hn
  · rw [news, htrace]
    exact h.signal hn

theorem keeps_record (w : World) (what : Occurrence) : Keeps w (w.record what) := by
  refine ⟨rfl, rfl, fun _ _ _ => rfl, List.suffix_cons _ _, fun incident hmem => .inl ?_⟩
  rw [news_record, List.mem_singleton] at hmem
  rw [hmem]

theorem carries_record (w : World) (what : Occurrence) (hwhat : ∀ f, what ≠ .raised f) :
    Carries n sig w (w.record what) := by
  refine ⟨keeps_record w what, fun _ => rfl, fun _ => .inr (.of_unraised fun f hf => ?_)⟩
  rw [news_record, List.mem_singleton, Incident.mk.injEq] at hf
  exact hwhat f hf.2.symm

theorem carries_yielded (w : World) (t : ThreadId) : Carries n sig w (w.record (.yielded t)) :=
  carries_record w (.yielded t) nofun

theorem carries_raised (w : World) (f : FatalSignal) :
    Carries n (some f) w (w.record (.raised f)) := by
  refine ⟨keeps_record w _, fun _ => rfl, fun _ => .inr fun g hg => ?_⟩
  rw [news_record] at hg ⊢
  rw [List.mem_singleton] at hg
  cases hg
  exact ⟨rfl, [], rfl, fun g hg => absurd hg List.not_mem_nil⟩

/-- Where fewer closures run than are asked for, nothing is said about signals. -/
theorem Carries.of_not_within (hn : ¬w.Within n) (h : Keeps w w') : Carries n sig w w' :=
  ⟨h, fun hwithin => absurd hwithin hn, fun hwithin => absurd hwithin hn⟩

end World

open World

/-- The signal that unwinds. -/
def Halt.signal? : Halt → Option FatalSignal
  | .unwind signal => some signal
  | .panic _ => none
  | .stalled => none

namespace Act

variable {α β : Type} {act : Act α} {f : α → Act β} {w u w' : World} {n m : Nat}
  {signal : FatalSignal} {t : ThreadId}

theorem signal?_of_ok {a : α} (hrun : act w = .ok a w') : act.signal? w = none := by
  rw [signal?, hrun]

theorem signal?_of_error {halt : Halt} (hrun : act w = .error halt w') :
    act.signal? w = halt.signal? := by
  rw [signal?, hrun]
  cases halt <;> rfl

/-! ### Actions that hand signals on -/

/-- An action of a thread that is under way hands on what it raises. -/
def Faithful (n : Nat) (act : Act α) (w : World) : Prop :=
  w.current ∈ w.engaged → Carries n (act.signal? w) w (act.after w)

theorem Faithful.mono (h : act.Faithful m w) (hm : m ≤ n) : act.Faithful n w :=
  fun hw => (h hw).mono hm

theorem Faithful.of_scene_eq (h : (act.after w).scene = w.scene) : act.Faithful n w :=
  fun _ => .of_scene_eq h

/-- An action that leaves the world as it is. -/
theorem Faithful.refl (h : act.after w = w) : act.Faithful n w :=
  .of_scene_eq (by rw [h])

/-- An action that first takes a step and then goes on as another one. -/
theorem Faithful.of_eq {act' : Act α} (hrun : act w = act' u)
    (hstep : w.current ∈ w.engaged → Carries n none w u) (h : act'.Faithful n u) :
    act.Faithful n w := by
  intro hw
  have hfirst := hstep hw
  have hrest := h (by rwa [hfirst.current, hfirst.engaged])
  have hafter : act.after w = act'.after u := by rw [after, hrun, after]
  have hsignal : act.signal? w = act'.signal? u := by rw [signal?, hrun, signal?]
  rw [hafter, hsignal]
  exact hfirst.trans hrest

theorem Faithful.carries_of_ok {a : α} (h : act.Faithful n w) (hrun : act w = .ok a w')
    (hw : w.current ∈ w.engaged) : Carries n none w w' := by
  have hcarries := h hw
  rwa [signal?_of_ok hrun, after_of_ok hrun] at hcarries

theorem Faithful.bind (h : act.Faithful n w)
    (hf : ∀ a w', act w = .ok a w' → (f a).Faithful n w') : (act >>= f).Faithful n w := by
  cases hrun : act w with
  | ok a w' => exact .of_eq (bind_of_ok hrun f) (h.carries_of_ok hrun) (hf a w' hrun)
  | error halt w' =>
    have hboth := bind_of_error hrun f
    intro hw
    have hcarries := h hw
    rw [after_of_error hrun, signal?_of_error hrun] at hcarries
    rwa [after_of_error hboth, signal?_of_error hboth]

theorem Faithful.pure (a : α) (w : World) : (pure a : Act α).Faithful n w :=
  .refl rfl

theorem Faithful.halt (halt : Halt) (w : World) : (Act.halt halt : Act α).Faithful n w :=
  .refl rfl

theorem Faithful.of_modify {g : World → World} (h : (g w).scene = w.scene) :
    (modify g : Act PUnit).Faithful n w :=
  .of_scene_eq h

theorem Faithful.get_bind {f : World → Act β} (h : (f w).Faithful n w) :
    (get >>= f : Act β).Faithful n w :=
  .bind (.refl rfl) fun _ _ hrun => by cases hrun; exact h

theorem Faithful.set_bind {f : PUnit → Act β} (h : w'.scene = w.scene) (hf : (f ()).Faithful n w') :
    (MonadStateOf.set w' >>= f : Act β).Faithful n w :=
  .bind (.of_scene_eq h) fun _ _ hrun => by cases hrun; exact hf

theorem Faithful.modify_bind {g : World → World} {f : PUnit → Act β} (h : (g w).scene = w.scene)
    (hf : (f ()).Faithful n (g w)) : (modify g >>= f : Act β).Faithful n w :=
  .bind (.of_scene_eq h) fun _ _ hrun => by cases hrun; exact hf

theorem signal?_ensuring (act : Act α) (g : World → World) (w : World) :
    (act.ensuring g).signal? w = act.signal? w := by
  cases hrun : act w with
  | ok a u =>
    have hboth : act.ensuring g w = .ok a (g u) := by simp only [ensuring, hrun]
    rw [signal?_of_ok hrun, signal?_of_ok hboth]
  | error halt u =>
    have hboth : act.ensuring g w = .error halt (g u) := by simp only [ensuring, hrun]
    rw [signal?_of_error hrun, signal?_of_error hboth]

/-- What is done to the world after an action, however it ends. -/
theorem Faithful.ensuring {g : World → World} (h : act.Faithful n w) (hg : ∀ u, (g u).scene = u.scene) :
    (act.ensuring g).Faithful n w := by
  intro hw
  rw [after_ensuring, signal?_ensuring]
  exact (h hw).of_scene_eq_right (hg _)

/-- Begin to unwind. -/
theorem Faithful.beginUnwind (signal : FatalSignal) (w : World) :
    (Act.beginUnwind signal : Act α).Faithful n w :=
  fun _ => carries_raised w signal

/-- Something is noted that is no signal. -/
theorem Faithful.record_bind (what : Occurrence) (hwhat : ∀ f, what ≠ .raised f)
    {f : PUnit → Act β} (hf : (f ()).Faithful n (w.record what)) :
    (modify (·.record what) >>= f : Act β).Faithful n w :=
  .of_eq (Act.modify_bind _ f w) (fun _ => carries_record w what hwhat) hf

/-! ### Actions on other threads -/

/-- An action of a certain thread leaves alone what goes on elsewhere. -/
def KeepsFrom (t : ThreadId) (act : Act α) (w : World) : Prop :=
  w.current = t → t ∈ w.engaged → Keeps w (act.after w)

theorem Faithful.keeps (h : act.Faithful n w) : act.KeepsFrom t w :=
  fun hcurrent ht => (h (hcurrent ▸ ht)).toKeeps

theorem KeepsFrom.of_eq {act' : Act α} (hrun : act w = act' u)
    (hstep : w.current = t → Keeps w u) (h : act'.KeepsFrom t u) : act.KeepsFrom t w := by
  intro hcurrent ht
  have hkeeps := hstep hcurrent
  rw [after, hrun, ← after]
  exact hkeeps.trans (h (hkeeps.current.trans hcurrent) (by rwa [hkeeps.engaged]))

theorem KeepsFrom.of_scene_eq (h : (act.after w).scene = w.scene) : act.KeepsFrom t w :=
  fun _ _ => .of_scene_eq h

theorem KeepsFrom.bind (h : act.KeepsFrom t w)
    (hf : ∀ a w', act w = .ok a w' → (f a).KeepsFrom t w') : (act >>= f).KeepsFrom t w := by
  intro hcurrent ht
  have hkeeps := h hcurrent ht
  cases hrun : act w with
  | ok a w' =>
    rw [after_of_ok hrun] at hkeeps
    exact KeepsFrom.of_eq (bind_of_ok hrun f) (fun _ => hkeeps) (hf a w' hrun) hcurrent ht
  | error halt w' =>
    rw [after_of_error hrun] at hkeeps
    rwa [after_of_error (bind_of_error hrun f)]

theorem KeepsFrom.attempt (h : act.KeepsFrom t w) : act.attempt.KeepsFrom t w := by
  intro hcurrent ht
  rw [after_attempt]
  exact h hcurrent ht

theorem KeepsFrom.pure (a : α) (w : World) : (pure a : Act α).KeepsFrom t w :=
  .of_scene_eq rfl

theorem KeepsFrom.halt (halt : Halt) (w : World) : (Act.halt halt : Act α).KeepsFrom t w :=
  .of_scene_eq rfl

theorem KeepsFrom.get_bind {f : World → Act β} (h : (f w).KeepsFrom t w) :
    (get >>= f : Act β).KeepsFrom t w :=
  .of_eq (Act.get_bind f w) (fun _ => .of_scene_eq rfl) h

theorem KeepsFrom.modify_bind {g : World → World} {f : PUnit → Act β}
    (h : (g w).scene = w.scene) (hf : (f ()).KeepsFrom t (g w)) :
    (modify g >>= f : Act β).KeepsFrom t w :=
  .of_eq (Act.modify_bind g f w) (fun _ => .of_scene_eq h) hf

end Act

end ScriptHost
