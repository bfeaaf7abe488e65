import ScriptHost.Proofs.Handle.Deletion

/-!
# What is left of handles and interpreters later

Whatever the code of a host does, interpreters keep their parents and stay deleted, no hook is
forgotten, and a handle loses its interpreter only when that is deleted or its deletion is put off.
A history of what was done says which hooks were run and which deletions were put off.
-/

namespace ScriptHost.World

open Removal

variable {w u w' : World} {h k : HandleId} {i j : InterpId} {ran ran' : List HookRun}
  {put put' : Set InterpId} {out : Set HandleId} {f : Standing → Standing}

/-- A handle that has an interpreter had it before. -/
theorem Ripens.interp_eq {s : Standing} (hw : Ripens w w') (hs : w.standing? h = some s)
    (hi : w'.interpOf? h = some i) : s.interp = some i := by
  obtain ⟨s', hs', hages⟩ := hw.each h s hs
  obtain ⟨s'', hs'', hinterp⟩ := interpOf?_eq_some_iff.1 hi
  rw [hs'] at hs''
  cases hs''
  rcases hages.interp with hsame | hnone
  · rw [← hsame, hinterp]
  · rw [hnone] at hinterp
    cases hinterp

/-- What is left of handles and interpreters after some hooks were run and some deletions were put
off. -/
structure Later (ran : List HookRun) (put : Set InterpId) (w w' : World) : Prop
    extends Ripens w w' where
  parent : ∀ i, i < w.nextInterp → (w'.interp i).parent = (w.interp i).parent
  deleted : ∀ i, i < w.nextInterp → (w.interp i).deleted = true → (w'.interp i).deleted = true
  /-- Every hook was run or is still there. -/
  hooks : ∀ i hook, i < w.nextInterp → (w.interp i).deleteHooks.count hook ≤
    (own i ran).count hook + (w'.interp i).deleteHooks.count hook
  /-- A handle loses its interpreter when that is deleted or its deletion is put off. -/
  slot : ∀ h i, i < w.nextInterp → w.interpOf? h = some i →
    w'.interpOf? h = some i ∨ (w'.interp i).deleted = true ∨ i ∈ put
  /-- A thread does not end before the interpreters that it keeps. -/
  here : ∀ h s, w.standing? h = some s → (w'.interpOf? h).isSome = true →
    w.isRegistered s.owner = true → w'.isRegistered s.owner = true
  nextInterp : w.nextInterp ≤ w'.nextInterp
  nextThread : w.nextThread ≤ w'.nextThread

theorem Later.trans (h' : Later ran put w u) (h'' : Later ran' put' u w') :
    Later (ran ++ ran') (put ∪ put') w w' := by
  have hnext {i : InterpId} (hi : i < w.nextInterp) : i < u.nextInterp :=
    Nat.lt_of_lt_of_le hi h'.nextInterp
  refine ⟨h'.toRipens.trans h''.toRipens, ?_, ?_, ?_, ?_, ?_, ?_, ?_⟩
  · intro i hi
    rw [h''.parent i (hnext hi), h'.parent i hi]
  · intro i hi hgone
    exact h''.deleted i (hnext hi) (h'.deleted i hi hgone)
  · intro i hook hi
    have hfirst := h'.hooks i hook hi
    have hsecond := h''.hooks i hook (hnext hi)
    rw [own_append, List.count_append]
    omega
  · intro h i hi hslot
    rcases h'.slot h i hi hslot with hu | hgone | hput
    · rcases h''.slot h i (hnext hi) hu with hw' | hgone | hput
      · exact .inl hw'
      · exact .inr (.inl hgone)
      · exact .inr (.inr (.inr hput))
    · exact .inr (.inl (h''.deleted i (hnext hi) hgone))
    · exact .inr (.inr (.inl hput))
  · intro h s hs hi ht
    obtain ⟨i, hi⟩ := Option.isSome_iff_exists.1 hi
    obtain ⟨s', hs', hages⟩ := h'.each h s hs
    have hu : u.interpOf? h = some i :=
      interpOf?_eq_some_iff.2 ⟨s', hs', h''.toRipens.interp_eq hs' hi⟩
    have hthere := h'.here h s hs (by rw [hu]; rfl) ht
    rw [← hages.owner] at hthere ⊢
    exact h''.here h s' hs' (by rw [hi]; rfl) hthere
  · exact h'.nextInterp.trans h''.nextInterp
  · exact h'.nextThread.trans h''.nextThread

/-- A deletion is not put off that is carried out in the end. -/
theorem Later.settle (h' : Later ran (insert i put) w w') (hgone : (w'.interp i).deleted = true) :
    Later ran put w w' := by
  refine { h' with slot := fun h j hj hslot => ?_ }
  rcases h'.slot h j hj hslot with hstays | hdead | hput
  · exact .inl hstays
  · exact .inr (.inl hdead)
  · rcases hput with rfl | hput
    · exact .inr (.inl hgone)
    · exact .inr (.inr hput)

/-! ### Single changes -/

/-- Interpreters may come, and handles may lose holders. -/
theorem Eases.later (h' : Eases out w w') (hw : w.Orderly out) : Later [] ∅ w w' := by
  refine ⟨h'.ripens, fun i hi => (h'.kin i hi).1, fun i hi hgone => ?_, fun i hook _ => ?_,
    fun h i _ hslot => .inl ?_, fun h s hs hi ht => ?_, h'.nextInterp, h'.nextThread⟩
  · rw [(h'.kin i hi).2, hgone]
  · rw [h'.hooks]
    simp
  · obtain ⟨s, hs, hinterp⟩ := interpOf?_eq_some_iff.1 hslot
    have hh := h'.standing h
    rw [hs] at hh
    rw [interpOf?_eq_some_iff]
    revert hh
    generalize w'.standing? h = b
    rintro (heases | -)
    exact ⟨_, rfl, heases.interp.trans hinterp⟩
  · obtain ⟨i, hi⟩ := Option.isSome_iff_exists.1 hi
    have hinterp := h'.ripens.interp_eq hs hi
    rw [h'.here h s hs (by rw [hinterp]; rfl) (hw.owners h s hs), ht]

/-- The entry of a handle changes, and it may lose an interpreter whose deletion is put off. -/
theorem later_amends (h' : Amends h f w w') (hmail : w.Retains w')
    (hf : ∀ s, w.standing? h = some s → s.Ages (f s))
    (hput : ∀ s i, w.standing? h = some s → s.interp = some i → (f s).interp = some i ∨ i ∈ put) :
    Later [] put w w' := by
  have hinterp (j : InterpId) := interp_eq_of_interpreters_eq h'.interpreters j
  obtain ⟨-, hnext⟩ := Prod.mk.inj h'.interpreters
  refine ⟨.of_amends h' hf, fun i _ => by rw [hinterp], fun i _ hgone => by rwa [hinterp],
    fun i hook _ => ?_, fun k i _ hslot => ?_, fun k s _ _ ht => ?_, Nat.le_of_eq hnext.symm,
    Nat.le_of_eq hmail.nextThread.symm⟩
  · rw [hinterp]
    simp
  · obtain ⟨s, hs, hi⟩ := interpOf?_eq_some_iff.1 hslot
    by_cases hk : h = k
    · subst hk
      rcases hput s i hs hi with hsame | hmem
      · refine .inl (interpOf?_eq_some_iff.2 ⟨f s, ?_, hsame⟩)
        rw [h'.standing_self, hs]
        rfl
      · exact .inr (.inr hmem)
    · refine .inl (interpOf?_eq_some_iff.2 ⟨s, ?_, hi⟩)
      rw [h'.standing_of_ne hk, hs]
  · rw [h'.threads.isRegistered, ht]

/-- A deletion runs the hooks that the interpreters lose, and handles lose the interpreters that are
deleted. -/
theorem Orderly.later_runs (hw : w.Orderly out) (hruns : Runs (.tree i) w ran w') :
    Later ran ∅ w w' := by
  have hstrips := hruns.strips hw.trees.childless
  have hquiet := hruns.quiet
  obtain ⟨hfits, -⟩ := hruns.meets (P := w.HookFits) (fun _ _ _ hfits => hfits) hw.fits trivial
  refine ⟨hruns.ripens, fun i _ => (hstrips.kin i).1, fun i _ => hruns.prunes.deleted,
    fun j hook _ => ?_, fun h j _ hslot => ?_, fun h s _ _ ht => ?_,
    Nat.le_of_eq hruns.prunes.next.symm, Nat.le_of_eq hquiet.nextThread.symm⟩
  · have hcount := (hruns.perm j).count_eq hook
    rw [List.count_append, List.count_append] at hcount
    omega
  · obtain ⟨s, hs, hj⟩ := interpOf?_eq_some_iff.1 hslot
    cases hoff : takesOff h ran with
    | false =>
      refine .inl (interpOf?_eq_some_iff.2 ⟨s, ?_, hj⟩)
      rw [hruns.standing?, hoff, hs]
      rfl
    | true =>
      obtain ⟨run, hrun, hhook⟩ := takesOff_iff.1 hoff
      have hfit := hfits run hrun
      rw [hhook] at hfit
      obtain rfl : j = run.interp := hfit.2 j hslot
      exact .inr (.inl (hruns.deleted_of_run trivial run hrun))
  · rw [hquiet.registered, ht]

/-- An interpreter gets a handle. -/
theorem Orderly.later_adopted (hw : w.Orderly out) (hlive : (w.interp i).deleted = false)
    {config : HandleConfig} (h' : Amends w.hub.nextHandle f (w.adopt i config).2 w')
    (hthreads : w'.threads = w.threads) (hnextThread : w'.nextThread = w.nextThread) :
    Later [] ∅ w w' ∧ ∀ j, (w'.interp j).deleted = (w.interp j).deleted := by
  have hsame (j : InterpId) := interp_eq_of_interpreters_eq h'.interpreters j
  have hfamily (j : InterpId) : (w'.interp j).family = (w.interp j).family := by
    rw [hsame, family_adopt hlive]
  have hdeleted (j : InterpId) : (w'.interp j).deleted = (w.interp j).deleted :=
    congrArg (·.2.2.1) (hfamily j)
  obtain ⟨-, hnextInterp⟩ := Prod.mk.inj h'.interpreters
  obtain ⟨interps, hadopt⟩ := adopt_eq_of_live hlive config
  refine ⟨⟨ripens_adopted hw.standing_nextHandle hlive h', fun j _ => congrArg (·.1) (hfamily j),
    fun j _ hgone => by rw [hdeleted, hgone], fun j hook _ => ?_, fun k j _ hslot => .inl ?_,
    fun k s _ _ ht => ?_, ?_, Nat.le_of_eq hnextThread.symm⟩, hdeleted⟩
  · rw [hsame, deleteHooks_adopt hlive, List.count_append, own_nil]
    omega
  · obtain ⟨s, hs, hj⟩ := interpOf?_eq_some_iff.1 hslot
    rw [interpOf?_eq_some_iff, standing?_adopted hlive h', if_neg, hs]
    · exact ⟨s, rfl, hj⟩
    · rintro rfl
      rw [hw.standing_nextHandle] at hs
      cases hs
  · rw [isRegistered, hthreads]
    exact ht
  · rw [hnextInterp, hadopt]
    exact Nat.le_refl _

/-! ### Histories -/

/-- What is done between two worlds, with the hooks that are run and with the interpreters whose
deletion is put off because a command of theirs is running. -/
inductive History : List HookRun → Set InterpId → World → World → Prop
  | calm {w w' : World} (h : Later [] ∅ w w')
      (hlive : ∀ i, i < w.nextInterp → (w'.interp i).deleted = (w.interp i).deleted) :
      History [] ∅ w w'
  | delete {w w' : World} {out : Set HandleId} {i : InterpId} {ran : List HookRun}
      (hw : w.Orderly out) (hruns : Runs (.tree i) w ran w') : History ran ∅ w w'
  /-- A handle gives its interpreter up, which is deleted at once. -/
  | giveUp {w w' : World} {out : Set HandleId} {h : HandleId} {i : InterpId} {ran : List HookRun}
      (hw : w.Orderly out) (hi : w.interpOf? h = some i)
      (hruns : Runs (.tree i) (w.takeInterp h).2 ran w') : History ran ∅ w w'
  /-- A handle gives its interpreter up while a command of it is running. -/
  | putOff {w : World} {h : HandleId} {i : InterpId} (hi : w.interpOf? h = some i)
      (hbusy : (w.interp i).isBusy = true) : History [] {i} w (w.giveUp h)
  | trans {w u w' : World} {ran ran' : List HookRun} {put put' : Set InterpId}
      (h : History ran put w u) (h' : History ran' put' u w') :
      History (ran ++ ran') (put ∪ put') w w'

theorem later_takeInterp (hi : w.interpOf? h = some i) : Later [] {i} w (w.takeInterp h).2 := by
  refine later_amends (amends_takeInterp w h) (.of_threads_eq rfl rfl rfl) (fun _ _ => ?_) fun s j hs hj => ?_
  · exact ⟨rfl, id, id, .inr rfl⟩
  · right
    rw [interpOf?_eq_of_standing hs, hj] at hi
    exact Option.some.inj hi

/-- An interpreter that is busy when its handle gives it up stays as it is. -/
theorem amends_giveUp (hi : w.interpOf? h = some i) (hbusy : (w.interp i).isBusy = true) :
    Amends h (fun s => { s with interp := none }) w (w.giveUp h) ∧ w.Retains (w.giveUp h) := by
  have hbusy' : ((w.takeInterp h).2.interp i).isBusy = true := hbusy
  rw [giveUp_eq, hi]
  change Amends h _ w ((w.takeInterp h).2.deleteInterp i) ∧
    w.Retains ((w.takeInterp h).2.deleteInterp i)
  rw [deleteInterp, if_pos hbusy']
  constructor
  · exact (amends_takeInterp w h).trans (.of_rests (rests_addIdle _ _))
  · exact .of_agendaOf_eq (events_setAgenda (w := (w.takeInterp h).2) rfl) rfl rfl

theorem History.later (h' : History ran put w w') : Later ran put w w' := by
  induction h' with
  | calm h => exact h
  | delete hw hruns => exact hw.later_runs hruns
  | @giveUp w w' out h i ran hw hi hruns =>
    have hboth := (later_takeInterp hi).trans ((hw.takeInterp h).later_runs hruns)
    rw [List.nil_append, ← Set.insert_eq] at hboth
    exact hboth.settle hruns.deleted
  | putOff hi hbusy =>
    obtain ⟨hamends, hretains⟩ := amends_giveUp hi hbusy
    refine later_amends hamends hretains (fun _ _ => ?_) fun s j hs hj => ?_
    · exact ⟨rfl, id, id, .inr rfl⟩
    · right
      rw [interpOf?_eq_of_standing hs, hj] at hi
      exact Option.some.inj hi
  | trans _ _ ih ih' => exact ih.trans ih'

end ScriptHost.World
