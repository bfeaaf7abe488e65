import ScriptHost.Proofs.Handle.Bookkeeping
import ScriptHost.Proofs.World.Births
import ScriptHost.Proofs.World.DeleteHooks

/-!
# Order among handles, interpreters and events

However many threads act, the ledger, the hooks of the interpreters and the events on the agendas
belong together. An interpreter that is kept for a handle will take it off the ledger when it is
deleted, and no other interpreter does so. A live handle that somebody holds has its interpreter. If
another thread deleted a handle whose interpreter is still there, the owner is told by an event, and
whatever handle such an event is about was ended before it was posted.
-/

namespace ScriptHost

/-- How the entry of a handle may change while the handle keeps what it has. -/
structure Standing.Eases (s s' : Standing) : Prop where
  owner : s'.owner = s.owner
  deleted : s'.deleted = s.deleted
  interp : s'.interp = s.interp
  held : s'.held = true → s.held = true

namespace Standing

variable {s s' s'' : Standing}

theorem Eases.refl (s : Standing) : Eases s s :=
  ⟨rfl, rfl, rfl, id⟩

theorem Eases.ages (h : Eases s s') : Ages s s' := by
  constructor
  · exact h.owner
  · intro hs
    rw [h.deleted, hs]
  · intro hs
    by_contra hheld
    rw [h.held (Bool.eq_true_of_not_eq_false hheld)] at hs
    cases hs
  · exact .inl h.interp

end Standing

namespace World

variable {w u w' : World} {h k : HandleId} {i j : InterpId} {t : ThreadId} {event : Event}
  {f : Standing → Standing} {out : Set HandleId}

theorem interpOf?_eq_some_iff :
    w.interpOf? h = some i ↔ ∃ s, w.standing? h = some s ∧ s.interp = some i := by
  rw [interpOf?, standing?]
  cases w.handles.get? h with
  | none => simp
  | some handle => simp [Handle.standing]

/-! ### The course of time -/

/-- Every handle stays, no entry is changed back, and new handles get new ids. -/
structure Ripens (w w' : World) : Prop where
  each : ∀ h s, w.standing? h = some s → ∃ s', w'.standing? h = some s' ∧ s.Ages s'
  fresh : ∀ h s', w'.standing? h = some s' → w.standing? h = none → w.hub.nextHandle ≤ h
  nextHandle : w.hub.nextHandle ≤ w'.hub.nextHandle

theorem Ripens.trans (hw : Ripens w u) (hu : Ripens u w') : Ripens w w' where
  each h s hs := by
    obtain ⟨s', hs', hages⟩ := hw.each h s hs
    obtain ⟨s'', hs'', hages'⟩ := hu.each h s' hs'
    exact ⟨s'', hs'', hages.trans hages'⟩
  fresh h s'' hs'' hs := by
    cases hs' : u.standing? h with
    | none => exact hw.nextHandle.trans (hu.fresh h s'' hs'' hs')
    | some s' => exact hw.fresh h s' hs' hs
  nextHandle := hw.nextHandle.trans hu.nextHandle

/-- All entries change as they may. -/
theorem Ripens.of_rel (hw : ∀ h, Option.Rel Standing.Ages (w.standing? h) (w'.standing? h))
    (hnext : w'.hub.nextHandle = w.hub.nextHandle) : Ripens w w' := by
  refine ⟨fun h s hs => ?_, fun h s' hs' hs => ?_, Nat.le_of_eq hnext.symm⟩
  · have hh := hw h
    rw [hs] at hh
    cases hs' : w'.standing? h with
    | none => simp [hs'] at hh
    | some s' =>
      rw [hs'] at hh
      cases hh with
      | some hages => exact ⟨s', rfl, hages⟩
  · have hh := hw h
    rw [hs, hs'] at hh
    cases hh

theorem Ripens.of_amends (h' : Amends h f w w')
    (hf : ∀ s, w.standing? h = some s → s.Ages (f s)) : Ripens w w' := by
  refine .of_rel (fun k => ?_) h'.nextHandle
  rw [h'.standing]
  cases hs : w.standing? k with
  | none => split <;> exact .none
  | some s =>
    split
    · next hk =>
      subst hk
      exact .some (hf s hs)
    · exact .some (.refl s)

/-- No handle gets an interpreter again. -/
theorem Ripens.interpOf? (hw : Ripens w w') (hh : h < w.hub.nextHandle)
    (hi : w'.interpOf? h = some i) : w.interpOf? h = some i := by
  obtain ⟨s', hs', hinterp⟩ := interpOf?_eq_some_iff.1 hi
  cases hs : w.standing? h with
  | none => exact absurd hh (Nat.not_lt.2 (hw.fresh h s' hs' hs))
  | some s =>
    obtain ⟨s₁, hs₁, hages⟩ := hw.each h s hs
    rw [hs'] at hs₁
    cases hs₁
    rw [interpOf?_eq_some_iff]
    refine ⟨s, hs, ?_⟩
    rcases hages.interp with hsame | hnone
    · rw [← hsame, hinterp]
    · rw [hnone] at hinterp
      cases hinterp

theorem Ripens.gone (hw : Ripens w w') (hgone : w.Gone h) : w'.Gone h := by
  obtain ⟨s, hs, hheld⟩ := hgone
  obtain ⟨s', hs', hages⟩ := hw.each h s hs
  exact ⟨s', hs', hages.gone hheld⟩

/-- A handle is deleted. -/
def Ended (w : World) (h : HandleId) : Prop :=
  ∃ s, w.standing? h = some s ∧ s.deleted = true

theorem Ripens.ended (hw : Ripens w w') (hended : w.Ended h) : w'.Ended h := by
  obtain ⟨s, hs, hdeleted⟩ := hended
  obtain ⟨s', hs', hages⟩ := hw.each h s hs
  exact ⟨s', hs', hages.deleted hdeleted⟩

/-! ### Order -/

/-- A hook takes no handle off the ledger that has another interpreter. -/
def HookFits (w : World) (i : InterpId) : DeleteHook → Prop
  | .log _ => True
  | .untrack h => h < w.hub.nextHandle ∧ ∀ j, w.interpOf? h = some j → j = i
  | .delete _ => True
  | .watch j hook => w.HookFits j hook

theorem HookFits.ripens {hook : DeleteHook} (hfits : w.HookFits i hook) (hw : Ripens w w') :
    w'.HookFits i hook := by
  induction hook generalizing i with
  | log label => trivial
  | untrack h =>
    refine ⟨Nat.lt_of_lt_of_le hfits.1 hw.nextHandle, fun j hj => ?_⟩
    exact hfits.2 j (hw.interpOf? hfits.1 hj)
  | delete j => trivial
  | watch j hook ih => exact ih hfits

/-- The handle is ended of which an event tells the end. -/
def Sent (w : World) : Event → Prop
  | .serve _ => True
  | .release h _ => w.Gone h
  | .delete h => w.Ended h
  | .print _ => True

theorem sent_of_isLocal (hevent : event.isLocal = true) : w.Sent event := by
  cases event with
  | serve h => trivial
  | release h pending => cases hevent
  | delete h => cases hevent
  | print label => trivial

theorem Sent.ripens (hsent : w.Sent event) (hw : Ripens w w') : w'.Sent event := by
  cases event with
  | serve h => trivial
  | release h pending => exact hw.gone hsent
  | delete h => exact hw.ended hsent
  | print label => trivial

/-- Handles, interpreters, events and threads belong together. Handles that are out may be held
without an interpreter, and their owners need not be told. -/
structure Orderly (out : Set HandleId) (w : World) : Prop where
  trees : w.Trees ∅
  numbered : w.Numbered
  /-- A deleted interpreter has no hooks. -/
  spent : ∀ i, (w.interp i).deleted = true → (w.interp i).deleteHooks = []
  fits : ∀ i, ∀ hook ∈ (w.interp i).deleteHooks, w.HookFits i hook
  keys : w.handles.keys.Nodup
  known : ∀ h s, w.standing? h = some s → h < w.hub.nextHandle
  watched : ∀ h s i, w.standing? h = some s → s.interp = some i →
    .untrack h ∈ (w.interp i).deleteHooks
  kept : ∀ h s, w.standing? h = some s → h ∉ out → s.held = true → s.deleted = false →
    s.interp.isSome = true
  told : ∀ h s, w.standing? h = some s → h ∉ out → s.deleted = true → s.interp.isSome = true →
    w.isRegistered s.owner = true → .delete h ∈ (w.agendaOf s.owner).events
  mail : ∀ t, ∀ event ∈ (w.agendaOf t).events, w.Sent event
  threads : ∀ t, w.isRegistered t = true → t < w.nextThread
  owners : ∀ h s, w.standing? h = some s → s.owner < w.nextThread

/-- An interpreter that is kept for a handle is live. -/
theorem Orderly.live (hw : w.Orderly out) (hi : w.interpOf? h = some i) :
    (w.interp i).deleted = false := by
  obtain ⟨s, hs, hinterp⟩ := interpOf?_eq_some_iff.1 hi
  have hhook := hw.watched h s i hs hinterp
  by_contra hgone
  rw [hw.spent i (Bool.eq_true_of_not_eq_false hgone)] at hhook
  cases hhook

theorem Orderly.standing_nextHandle (hw : w.Orderly out) :
    w.standing? w.hub.nextHandle = none := by
  cases hs : w.standing? w.hub.nextHandle with
  | none => rfl
  | some s => exact absurd (hw.known _ s hs) (Nat.lt_irrefl _)

theorem Orderly.mono {out' : Set HandleId} (hw : w.Orderly out) (hout : out ⊆ out') :
    w.Orderly out' :=
  { hw with
    kept := fun h s hs hh => hw.kept h s hs fun hmem => hh (hout hmem)
    told := fun h s hs hh => hw.told h s hs fun hmem => hh (hout hmem) }

/-- A handle is out no longer that is complete or ended. -/
theorem Orderly.settle (hw : w.Orderly (insert h out))
    (hkept : ∀ s, w.standing? h = some s → s.held = true → s.deleted = false →
      s.interp.isSome = true)
    (htold : ∀ s, w.standing? h = some s → s.deleted = true → s.interp.isSome = true →
      w.isRegistered s.owner = true → .delete h ∈ (w.agendaOf s.owner).events) :
    w.Orderly out := by
  have hnot {k : HandleId} (hk : k ≠ h) (hout : k ∉ out) : k ∉ insert h out := by
    simp [hk, hout]
  refine { hw with kept := fun k s hs hout => ?_, told := fun k s hs hout => ?_ }
  · by_cases hk : k = h
    · subst hk
      exact hkept s hs
    · exact hw.kept k s hs (hnot hk hout)
  · by_cases hk : k = h
    · subst hk
      exact htold s hs
    · exact hw.told k s hs (hnot hk hout)

/-- A handle is out no longer that lost its interpreter and that nobody finds any more. -/
theorem Orderly.settle_of_none (hw : w.Orderly (insert h out)) (hnone : w.interpOf? h = none)
    (hended : w.Ended h ∨ w.Gone h) : w.Orderly out := by
  have hinterp (s : Standing) (hs : w.standing? h = some s) : s.interp = none := by
    cases hi : s.interp with
    | none => rfl
    | some i =>
      rw [interpOf?_eq_some_iff.2 ⟨s, hs, hi⟩] at hnone
      cases hnone
  refine hw.settle (fun s hs hheld hlive => ?_) fun s hs _ hi => ?_
  · rcases hended with ⟨s', hs', hdeleted⟩ | ⟨s', hs', hgone⟩
    · rw [hs] at hs'
      cases hs'
      rw [hlive] at hdeleted
      cases hdeleted
    · rw [hs] at hs'
      cases hs'
      rw [hheld] at hgone
      cases hgone
  · rw [hinterp s hs] at hi
    cases hi

/-! ### Changes of one entry -/

/-- The events on the agendas are those that were there, and events that end no handle. -/
theorem ThreadsRest.events (hw : ThreadsRest w w') (hmem : event ∈ (w'.agendaOf t).events) :
    event ∈ (w.agendaOf t).events ∨ event.isLocal = true := by
  have ht := hw t
  rw [agendaOf] at hmem ⊢
  revert ht hmem
  generalize w.threads.get? t = a, w'.threads.get? t = b
  rintro hmem (hrests | -)
  · exact hrests.agenda.events event hmem
  · exact .inl hmem

theorem ThreadsRest.isRegistered (hw : ThreadsRest w w') (t : ThreadId) :
    w'.isRegistered t = w.isRegistered t :=
  hw.isSome_eq t

/-- The entry of a handle changes, which is out from then on. -/
theorem Orderly.amend (hw : w.Orderly out) (h' : Amends h f w w') (hmail : w.Retains w')
    (hf : ∀ s, w.standing? h = some s → s.Ages (f s)) : w'.Orderly (insert h out) := by
  have hripens := Ripens.of_amends h' hf
  have hinterp (j : InterpId) := interp_eq_of_interpreters_eq h'.interpreters j
  have hother {k : HandleId} {s : Standing} (hs : w'.standing? k = some s)
      (hk : k ∉ insert h out) : w.standing? k = some s ∧ k ∉ out := by
    rw [Set.mem_insert_iff, not_or] at hk
    exact ⟨h'.standing_of_ne (Ne.symm hk.1) ▸ hs, hk.2⟩
  have hbefore {k : HandleId} {s' : Standing} (hs' : w'.standing? k = some s') :
      ∃ s, w.standing? k = some s ∧ s.Ages s' := by
    cases hs : w.standing? k with
    | none =>
      rw [h'.standing, hs] at hs'
      split at hs' <;> cases hs'
    | some s =>
      obtain ⟨s₁, hs₁, hages⟩ := hripens.each k s hs
      rw [hs'] at hs₁
      cases hs₁
      exact ⟨s, rfl, hages⟩
  constructor
  case trees => exact hw.trees.congr fun j => by rw [hinterp]
  case numbered =>
    obtain ⟨hinterps, hnext⟩ := Prod.mk.inj h'.interpreters
    unfold Numbered
    rw [hinterps, hnext]
    exact hw.numbered
  case spent =>
    intro j
    rw [hinterp]
    exact hw.spent j
  case fits =>
    intro j hook hhook
    rw [hinterp] at hhook
    exact (hw.fits j hook hhook).ripens hripens
  case keys =>
    rw [h'.keys]
    exact hw.keys
  case known =>
    intro k s' hs'
    obtain ⟨s, hs, -⟩ := hbefore hs'
    rw [h'.nextHandle]
    exact hw.known k s hs
  case watched =>
    intro k s' j hs' hj
    obtain ⟨s, hs, hages⟩ := hbefore hs'
    rw [hinterp]
    refine hw.watched k s j hs ?_
    rcases hages.interp with hsame | hnone
    · rw [← hsame, hj]
    · rw [hnone] at hj
      cases hj
  case kept =>
    intro k s hs hk
    obtain ⟨hs, hk⟩ := hother hs hk
    exact hw.kept k s hs hk
  case told =>
    intro k s hs hk hdeleted hi ht
    obtain ⟨hs, hk⟩ := hother hs hk
    rw [h'.threads.isRegistered] at ht
    exact hmail.events _ _ rfl (hw.told k s hs hk hdeleted hi ht)
  case mail =>
    intro t event hevent
    rcases h'.threads.events hevent with hold | hlocal
    · exact (hw.mail t event hold).ripens hripens
    · exact sent_of_isLocal hlocal
  case threads =>
    intro t ht
    rw [h'.threads.isRegistered] at ht
    rw [hmail.nextThread]
    exact hw.threads t ht
  case owners =>
    intro k s' hs'
    obtain ⟨s, hs, hages⟩ := hbefore hs'
    rw [hages.owner, hmail.nextThread]
    exact hw.owners k s hs

/-! ### Changes that leave every handle what it has -/

/-- Interpreters may come and handles may lose holders, and agendas may change. The deletion of a
handle that is out need not be told any more. -/
structure Eases (out : Set HandleId) (w w' : World) : Prop where
  trees : w.Trees ∅ → w'.Trees ∅
  numbered : w.Numbered → w'.Numbered
  hooks : ∀ i, (w'.interp i).deleteHooks = (w.interp i).deleteHooks
  gone : ∀ i, (w'.interp i).deleted = true → (w.interp i).deleted = true
  kin : ∀ i, i < w.nextInterp → (w'.interp i).parent = (w.interp i).parent ∧
    (w'.interp i).deleted = (w.interp i).deleted
  nextInterp : w.nextInterp ≤ w'.nextInterp
  keys : w'.handles.keys = w.handles.keys
  nextHandle : w'.hub.nextHandle = w.hub.nextHandle
  standing : ∀ h, Option.Rel Standing.Eases (w.standing? h) (w'.standing? h)
  /-- A thread ends only if no interpreter is left that is kept on it. -/
  here : ∀ h s, w.standing? h = some s → s.interp.isSome = true → s.owner < w.nextThread →
    w'.isRegistered s.owner = w.isRegistered s.owner
  told : ∀ h t, h ∉ out → w'.isRegistered t = true → .delete h ∈ (w.agendaOf t).events →
    .delete h ∈ (w'.agendaOf t).events
  mail : ∀ t, ∀ event ∈ (w'.agendaOf t).events,
    event ∈ (w.agendaOf t).events ∨ event.isLocal = true ∨ w.Sent event
  threads : (∀ t, w.isRegistered t = true → t < w.nextThread) →
    ∀ t, w'.isRegistered t = true → t < w'.nextThread
  nextThread : w.nextThread ≤ w'.nextThread

theorem Eases.ripens (h' : Eases out w w') : Ripens w w' := by
  refine .of_rel (fun h => ?_) h'.nextHandle
  have hh := h'.standing h
  revert hh
  generalize w.standing? h = a, w'.standing? h = b
  rintro (heases | -)
  · exact .some heases.ages
  · exact .none

theorem Eases.before {s' : Standing} (h' : Eases out w w') (hs' : w'.standing? h = some s') :
    ∃ s, w.standing? h = some s ∧ s.Eases s' := by
  have hh := h'.standing h
  rw [hs'] at hh
  cases hs : w.standing? h with
  | none =>
    rw [hs] at hh
    cases hh
  | some s =>
    rw [hs] at hh
    cases hh with
    | some heases => exact ⟨s, rfl, heases⟩

theorem Orderly.eases (hw : w.Orderly out) (h' : Eases out w w') : w'.Orderly out := by
  constructor
  case trees => exact h'.trees hw.trees
  case numbered => exact h'.numbered hw.numbered
  case spent =>
    intro i hgone
    rw [h'.hooks]
    exact hw.spent i (h'.gone i hgone)
  case fits =>
    intro i hook hhook
    rw [h'.hooks] at hhook
    exact (hw.fits i hook hhook).ripens h'.ripens
  case keys =>
    rw [h'.keys]
    exact hw.keys
  case known =>
    intro h s' hs'
    obtain ⟨s, hs, -⟩ := h'.before hs'
    rw [h'.nextHandle]
    exact hw.known h s hs
  case watched =>
    intro h s' i hs' hi
    obtain ⟨s, hs, heases⟩ := h'.before hs'
    rw [heases.interp] at hi
    rw [h'.hooks]
    exact hw.watched h s i hs hi
  case kept =>
    intro h s' hs' hh hheld hlive
    obtain ⟨s, hs, heases⟩ := h'.before hs'
    rw [heases.deleted] at hlive
    rw [heases.interp]
    exact hw.kept h s hs hh (heases.held hheld) hlive
  case told =>
    intro h s' hs' hh hdeleted hi ht
    obtain ⟨s, hs, heases⟩ := h'.before hs'
    rw [heases.deleted] at hdeleted
    rw [heases.interp] at hi
    rw [heases.owner] at ht ⊢
    refine h'.told h s.owner hh ht (hw.told h s hs hh hdeleted hi ?_)
    rw [← h'.here h s hs hi (hw.owners h s hs), ht]
  case mail =>
    intro t event hevent
    rcases h'.mail t event hevent with hold | hlocal | hsent
    · exact (hw.mail t event hold).ripens h'.ripens
    · exact sent_of_isLocal hlocal
    · exact hsent.ripens h'.ripens
  case threads => exact h'.threads hw.threads
  case owners =>
    intro h s' hs'
    obtain ⟨s, hs, heases⟩ := h'.before hs'
    rw [heases.owner]
    exact Nat.lt_of_lt_of_le (hw.owners h s hs) h'.nextThread

theorem rel_eases_of_eq (h : ∀ h, w'.standing? h = w.standing? h) (k : HandleId) :
    Option.Rel Standing.Eases (w.standing? k) (w'.standing? k) := by
  rw [h]
  cases w.standing? k with
  | none => exact .none
  | some s => exact .some (.refl s)

/-- Threads come and go, and nothing happens to interpreters and handles. -/
theorem Eases.of_threads {current nextThread : ThreadId} {threads : Table ThreadId Thread}
    (w : World)
    (hhere : ∀ h s, w.standing? h = some s → s.interp.isSome = true → s.owner < w.nextThread →
      { w with current, threads, nextThread }.isRegistered s.owner = w.isRegistered s.owner)
    (htold : ∀ h t, { w with current, threads, nextThread }.isRegistered t = true →
      .delete h ∈ (w.agendaOf t).events →
      .delete h ∈ ({ w with current, threads, nextThread }.agendaOf t).events)
    (hmail : ∀ t, ∀ event ∈ ({ w with current, threads, nextThread }.agendaOf t).events,
      event ∈ (w.agendaOf t).events)
    (hthreads : (∀ t, w.isRegistered t = true → t < w.nextThread) →
      ∀ t, { w with current, threads, nextThread }.isRegistered t = true → t < nextThread)
    (hnext : w.nextThread ≤ nextThread) :
    Eases out w { w with current, threads, nextThread } where
  trees htrees := htrees.congr fun _ => rfl
  numbered := id
  hooks _ := rfl
  gone _ := id
  kin _ _ := ⟨rfl, rfl⟩
  nextInterp := Nat.le_refl _
  keys := rfl
  nextHandle := rfl
  standing := rel_eases_of_eq fun _ => rfl
  here := hhere
  told h t _ := htold h t
  mail t event hevent := .inl (hmail t event hevent)
  threads := hthreads
  nextThread := hnext

/-- Interpreters come, and nothing happens to the others but what has nothing to do with handles. -/
theorem Eases.of_interps {interps : Table InterpId Interpreter} {nextInterp : InterpId}
    (w : World) (htrees : w.Trees ∅ → { w with interps, nextInterp }.Trees ∅)
    (hnumbered : w.Numbered → { w with interps, nextInterp }.Numbered)
    (hhooks : ∀ i, ({ w with interps, nextInterp }.interp i).deleteHooks = (w.interp i).deleteHooks)
    (hgone : ∀ i, ({ w with interps, nextInterp }.interp i).deleted = true →
      (w.interp i).deleted = true)
    (hkin : ∀ i, i < w.nextInterp →
      ({ w with interps, nextInterp }.interp i).parent = (w.interp i).parent ∧
        ({ w with interps, nextInterp }.interp i).deleted = (w.interp i).deleted)
    (hnext : w.nextInterp ≤ nextInterp) : Eases out w { w with interps, nextInterp } where
  trees := htrees
  numbered := hnumbered
  hooks := hhooks
  gone := hgone
  kin := hkin
  nextInterp := hnext
  keys := rfl
  nextHandle := rfl
  standing := rel_eases_of_eq fun _ => rfl
  here _ _ _ _ _ := rfl
  told _ _ _ _ := id
  mail _ _ := .inl
  threads := id
  nextThread := Nat.le_refl _

/-- An interpreter changes apart from its family and its hooks. -/
theorem eases_modifyInterp {g : Interpreter → Interpreter} (hg : ∀ r, (g r).station = r.station)
    (w : World) (i : InterpId) : Eases out w (w.modifyInterp i g) := by
  have hstation (j : InterpId) : ((w.modifyInterp i g).interp j).station = (w.interp j).station :=
    keeps_modifyInterp Interpreter.station hg w i j
  have hfamily (j : InterpId) : ((w.modifyInterp i g).interp j).family = (w.interp j).family :=
    congrArg Prod.fst (hstation j)
  have hdeleted (j : InterpId) := congrArg (·.2.2.1) (hfamily j)
  apply Eases.of_interps
  case htrees =>
    intro htrees
    exact htrees.congr hfamily
  case hnumbered =>
    intro hnumbered
    exact hnumbered.modifyInterp g
  case hhooks =>
    intro j
    exact congrArg Prod.snd (hstation j)
  case hgone =>
    intro j hgone
    exact (hdeleted j).symm.trans hgone
  case hkin =>
    intro j _
    exact ⟨congrArg Prod.fst (hfamily j), hdeleted j⟩
  case hnext => exact Nat.le_refl _

/-- Something is done that leaves the interpreters alone. -/
theorem Eases.of_interpreters (hinterps : w'.interpreters = w.interpreters)
    (hkeys : w'.handles.keys = w.handles.keys) (hnext : w'.hub.nextHandle = w.hub.nextHandle)
    (hstanding : ∀ h, Option.Rel Standing.Eases (w.standing? h) (w'.standing? h))
    (hregistered : ∀ t, w'.isRegistered t = w.isRegistered t)
    (htold : ∀ h t, h ∉ out → .delete h ∈ (w.agendaOf t).events → .delete h ∈ (w'.agendaOf t).events)
    (hmail : ∀ t, ∀ event ∈ (w'.agendaOf t).events,
      event ∈ (w.agendaOf t).events ∨ event.isLocal = true ∨ w.Sent event)
    (hnextThread : w'.nextThread = w.nextThread) : Eases out w w' := by
  have hinterp (i : InterpId) := interp_eq_of_interpreters_eq hinterps i
  obtain ⟨hinterps, hnextInterp⟩ := Prod.mk.inj hinterps
  constructor
  case trees =>
    intro htrees
    exact htrees.congr fun i => by rw [hinterp]
  case numbered =>
    intro hnumbered
    unfold Numbered
    rwa [hinterps, hnextInterp]
  case hooks =>
    intro i
    rw [hinterp]
  case gone =>
    intro i
    rw [hinterp]
    exact id
  case kin =>
    intro i _
    rw [hinterp]
    exact ⟨rfl, rfl⟩
  case nextInterp => exact Nat.le_of_eq hnextInterp.symm
  case keys => exact hkeys
  case nextHandle => exact hnext
  case standing => exact hstanding
  case here =>
    intro h s _ _ _
    exact hregistered s.owner
  case told =>
    intro h t hh _
    exact htold h t hh
  case mail => exact hmail
  case threads =>
    intro hbound t ht
    rw [hregistered] at ht
    rw [hnextThread]
    exact hbound t ht
  case nextThread => exact Nat.le_of_eq hnextThread.symm

/-- The code of one thread does something that leaves the interpreters alone. -/
theorem Eases.of_threadsRest (hinterps : w'.interpreters = w.interpreters)
    (hkeys : w'.handles.keys = w.handles.keys) (hnext : w'.hub.nextHandle = w.hub.nextHandle)
    (hstanding : ∀ h, Option.Rel Standing.Eases (w.standing? h) (w'.standing? h))
    (hthreads : ThreadsRest w w') (hmail : w.Retains w') : Eases out w w' := by
  refine .of_interpreters hinterps hkeys hnext hstanding hthreads.isRegistered (fun h t _ htold => ?_)
    (fun t event hevent => (hthreads.events hevent).imp_right .inl) hmail.nextThread
  exact hmail.events t _ rfl htold

theorem eases_stands (h' : w.Stands w') (hmail : w.Retains w') : Eases out w w' :=
  .of_threadsRest h'.interpreters h'.keys h'.nextHandle (rel_eases_of_eq h'.standing) h'.threads hmail

/-- The entry of a handle changes while the handle keeps what it has. -/
theorem eases_amends (h' : Amends h f w w') (hmail : w.Retains w')
    (hf : ∀ s, w.standing? h = some s → s.Eases (f s)) : Eases out w w' := by
  refine .of_threadsRest h'.interpreters h'.keys h'.nextHandle (fun k => ?_) h'.threads hmail
  rw [h'.standing]
  cases hs : w.standing? k with
  | none => split <;> exact .none
  | some s =>
    split
    · next hk =>
      subst hk
      exact .some (hf s hs)
    · exact .some (.refl s)

/-! ### Making interpreters and handles -/

theorem eases_newInterp (hnumbered : w.Numbered) (name : String) (safe : Bool) :
    Eases out w (w.newInterp name safe none).2 := by
  have hinterp := interp_newInterp w name safe none
  have hunknown := hnumbered.unknown
  apply Eases.of_interps
  case htrees =>
    intro htrees
    exact htrees.newInterp hnumbered
  case hnumbered =>
    intro hnumbered
    exact hnumbered.newInterp
  case hhooks =>
    intro i
    refine (congrArg Interpreter.deleteHooks (hinterp i)).trans ?_
    split
    · next hi =>
      rw [← hi, hunknown]
      rfl
    · rfl
  case hgone =>
    intro i hgone
    have hgone := (congrArg Interpreter.deleted (hinterp i)).symm.trans hgone
    split at hgone
    · cases hgone
    · exact hgone
  case hkin =>
    intro i hi
    have hsame := (hinterp i).trans (if_neg (Nat.ne_of_gt hi))
    exact ⟨congrArg Interpreter.parent hsame, congrArg Interpreter.deleted hsame⟩
  case hnext => exact Nat.le_succ _

theorem eases_bear (hnumbered : w.Numbered) {p : InterpId} (hlive : (w.interp p).deleted = false)
    {name : String} (hname : (w.interp p).children.get? name = none) (safe : Bool) :
    Eases out w (w.bear p name safe) := by
  have hinterp (i : InterpId) : (w.bear p name safe).interp i = _ := interp_bear hnumbered hlive i
  have hkin (i : InterpId) : ((w.bear p name safe).interp i).parent = _ ∧
      ((w.bear p name safe).interp i).name = _ ∧ ((w.bear p name safe).interp i).deleted = _ :=
    parent_bear hnumbered hlive i
  have hunknown := hnumbered.unknown
  apply Eases.of_interps
  case htrees =>
    intro htrees
    exact htrees.bear hnumbered hlive hname
  case hnumbered =>
    intro hnumbered
    exact hnumbered.bear
  case hhooks =>
    intro i
    refine (congrArg Interpreter.deleteHooks (hinterp i)).trans ?_
    split
    · next hi =>
      rw [← hi, hunknown]
      rfl
    · split
      · next hi => rw [hi]
      · rfl
  case hgone =>
    intro i hgone
    have hgone := (hkin i).2.2.symm.trans hgone
    split at hgone
    · cases hgone
    · exact hgone
  case hkin =>
    intro i hi
    have hne := Nat.ne_of_gt hi
    exact ⟨(hkin i).1.trans (if_neg hne), (hkin i).2.2.trans (if_neg hne)⟩
  case hnext => exact Nat.le_succ _

theorem station_outfit (w : World) (i j : InterpId) (config : HandleConfig) :
    ((w.outfit i config).interp j).station = (w.interp j).station := by
  have hdefine (w : World) (name : String) (command : Command) :
      ((w.defineCommand i name command).interp j).station = (w.interp j).station := by
    apply keeps_modifyInterp Interpreter.station
    intro r
    split <;> rfl
  have hhook (w : World) : ((w.modifyInterp i fun r =>
      { r with childHooks := r.childHooks ++ [.adopt config] }).interp j).station =
        (w.interp j).station := by
    apply keeps_modifyInterp Interpreter.station
    intro r
    rfl
  exact (hhook _).trans ((hdefine _ _ _).trans (hdefine _ _ _))

theorem family_adopt (hlive : (w.interp i).deleted = false) (config : HandleConfig) (j : InterpId) :
    ((w.adopt i config).2.interp j).family = (w.interp j).family := by
  have hsame := congrArg Prod.fst (station_outfit w i j config)
  rw [adopt_of_live hlive]
  refine Eq.trans ?_ hsame
  apply keeps_modifyInterp Interpreter.family
  intro r
  rfl

theorem deleteHooks_adopt (hlive : (w.interp i).deleted = false) (config : HandleConfig)
    (j : InterpId) : ((w.adopt i config).2.interp j).deleteHooks =
      (w.interp j).deleteHooks ++ if i = j then [.untrack w.hub.nextHandle] else [] := by
  have hsame := congrArg Prod.snd (station_outfit w i j config)
  have hlive' : ((w.outfit i config).interp i).deleted = false := by
    rwa [deleted_outfit]
  rw [adopt_of_live hlive]
  change ((w.outfit i config).modifyInterp i _ |>.interp j).deleteHooks = _
  by_cases hij : i = j
  · subst hij
    rw [interp_modifyInterp_of_live hlive', if_pos rfl]
    exact congrArg (· ++ [.untrack w.hub.nextHandle]) hsame
  · rw [interp_modifyInterp_of_ne hij, if_neg hij, List.append_nil]
    exact hsame

theorem numbered_adopt (hnumbered : w.Numbered) (hlive : (w.interp i).deleted = false)
    (config : HandleConfig) : (w.adopt i config).2.Numbered := by
  have hadd : (w.addHandle i config).2.Numbered := hnumbered
  have houtfit : (w.outfit i config).Numbered :=
    ((hadd.modifyInterp _).modifyInterp _).modifyInterp _
  rw [adopt_of_live hlive]
  exact houtfit.modifyInterp _

theorem nextHandle_adopt (hlive : (w.interp i).deleted = false) (config : HandleConfig) :
    (w.adopt i config).2.hub.nextHandle = w.hub.nextHandle + 1 := by
  obtain ⟨interps, hadopt⟩ := adopt_eq_of_live hlive config
  rw [hadopt]
  rfl

theorem keys_adopt (hnext : w.standing? w.hub.nextHandle = none)
    (hlive : (w.interp i).deleted = false) (config : HandleConfig) :
    (w.adopt i config).2.handles.keys = w.handles.keys ++ [w.hub.nextHandle] := by
  obtain ⟨interps, hadopt⟩ := adopt_eq_of_live hlive config
  rw [standing?, Option.map_eq_none_iff, Table.get?_eq_none_iff] at hnext
  rw [hadopt]
  exact Table.keys_insert_of_not_mem hnext _

/-- Somebody holds a new handle, and nobody else's entry changes. -/
theorem standing?_adopted (hlive : (w.interp i).deleted = false) {config : HandleConfig}
    (h' : Amends w.hub.nextHandle f (w.adopt i config).2 w') (k : HandleId) :
    w'.standing? k =
      if w.hub.nextHandle = k then some (f (w.newStanding i)) else w.standing? k := by
  rw [h'.standing, standing?_adopt hlive]
  split <;> rfl

theorem ripens_adopted (hnext : w.standing? w.hub.nextHandle = none)
    (hlive : (w.interp i).deleted = false) {config : HandleConfig}
    (h' : Amends w.hub.nextHandle f (w.adopt i config).2 w') : Ripens w w' := by
  constructor
  · intro k s hs
    refine ⟨s, ?_, .refl s⟩
    rw [standing?_adopted hlive h', if_neg, hs]
    rintro rfl
    rw [hnext] at hs
    cases hs
  · intro k s' hs' hs
    rw [standing?_adopted hlive h'] at hs'
    split at hs'
    · next hk => exact Nat.le_of_eq hk
    · rw [hs] at hs'
      cases hs'
  · rw [h'.nextHandle, nextHandle_adopt hlive]
    exact Nat.le_succ _

section

variable (hw : w.Orderly out) (hlive : (w.interp i).deleted = false) {config : HandleConfig}
  (h' : Amends w.hub.nextHandle f (w.adopt i config).2 w')

include hlive h'

theorem family_adopted (j : InterpId) : (w'.interp j).family = (w.interp j).family := by
  rw [interp_eq_of_interpreters_eq h'.interpreters, family_adopt hlive]

theorem deleted_adopted (j : InterpId) : (w'.interp j).deleted = (w.interp j).deleted :=
  congrArg (·.2.2.1) (family_adopted hlive h' j)

theorem deleteHooks_adopted (j : InterpId) : (w'.interp j).deleteHooks =
    (w.interp j).deleteHooks ++ if i = j then [.untrack w.hub.nextHandle] else [] := by
  rw [interp_eq_of_interpreters_eq h'.interpreters, deleteHooks_adopt hlive]

theorem nextHandle_adopted : w'.hub.nextHandle = w.hub.nextHandle + 1 := by
  rw [h'.nextHandle, nextHandle_adopt hlive]

theorem numbered_adopted (hnumbered : w.Numbered) : w'.Numbered := by
  obtain ⟨hinterps, hnextInterp⟩ := Prod.mk.inj h'.interpreters
  unfold Numbered
  rw [hinterps, hnextInterp]
  exact numbered_adopt hnumbered hlive config

/-- An entry is that of the new handle, or it was there before. -/
theorem standing?_adopted_cases {s : Standing} (hs : w'.standing? k = some s) :
    w.hub.nextHandle = k ∧ s = f (w.newStanding i) ∨ w.standing? k = some s := by
  rw [standing?_adopted hlive h'] at hs
  split at hs
  · next hk =>
    cases hs
    exact .inl ⟨hk, rfl⟩
  · exact .inr hs

include hw

theorem Orderly.nodup_keys_adopted : w'.handles.keys.Nodup := by
  have hnext := hw.standing_nextHandle
  rw [h'.keys, keys_adopt hnext hlive, List.nodup_append]
  refine ⟨hw.keys, List.pairwise_singleton _ _, fun k hk l hl => ?_⟩
  rw [List.mem_singleton.1 hl]
  rintro rfl
  rw [standing?, Option.map_eq_none_iff, Table.get?_eq_none_iff] at hnext
  exact hnext hk

variable (hinterp : (f (w.newStanding i)).interp = some i)

include hinterp

/-- The new hook takes the new handle off the ledger, which has the interpreter with the hook. -/
theorem Orderly.fits_adopted (j : InterpId) :
    ∀ hook ∈ (w'.interp j).deleteHooks, w'.HookFits j hook := by
  intro hook hhook
  rw [deleteHooks_adopted hlive h'] at hhook
  rcases List.mem_append.1 hhook with hold | hnew
  · exact (hw.fits j hook hold).ripens (ripens_adopted hw.standing_nextHandle hlive h')
  · split at hnew
    · next hij =>
      rw [List.mem_singleton.1 hnew]
      refine ⟨?_, fun k hk => ?_⟩
      · rw [nextHandle_adopted hlive h']
        exact Nat.lt_succ_self _
      · obtain ⟨s, hs, hk⟩ := interpOf?_eq_some_iff.1 hk
        rw [standing?_adopted hlive h', if_pos rfl] at hs
        cases hs
        rw [hinterp] at hk
        cases hk
        exact hij
    · cases hnew

theorem Orderly.watched_adopted {s : Standing} {j : InterpId} (hs : w'.standing? k = some s)
    (hj : s.interp = some j) : .untrack k ∈ (w'.interp j).deleteHooks := by
  rw [deleteHooks_adopted hlive h']
  rcases standing?_adopted_cases hlive h' hs with ⟨rfl, rfl⟩ | hold
  · rw [hinterp] at hj
    cases hj
    rw [if_pos rfl]
    exact List.mem_append_right _ (List.mem_singleton_self _)
  · exact List.mem_append_left _ (hw.watched k s j hold hj)

end

/-- An interpreter gets a handle, which somebody holds. -/
theorem Orderly.adopted (hw : w.Orderly out) (hlive : (w.interp i).deleted = false)
    (hcurrent : w.current < w.nextThread) {config : HandleConfig}
    (h' : Amends w.hub.nextHandle f (w.adopt i config).2 w') (hthreads : w'.threads = w.threads)
    (hnextThread : w'.nextThread = w.nextThread)
    (hinterp : (f (w.newStanding i)).interp = some i)
    (hfresh : (f (w.newStanding i)).deleted = false)
    (howner : (f (w.newStanding i)).owner = w.current) : w'.Orderly out := by
  have hripens := ripens_adopted hw.standing_nextHandle hlive h'
  have hagenda (t : ThreadId) : w'.agendaOf t = w.agendaOf t := by
    rw [agendaOf, hthreads, agendaOf]
  have hregistered (t : ThreadId) : w'.isRegistered t = w.isRegistered t := by
    rw [isRegistered, hthreads, isRegistered]
  constructor
  case trees => exact hw.trees.congr (family_adopted hlive h')
  case numbered => exact numbered_adopted hlive h' hw.numbered
  case spent =>
    intro j hgone
    rw [deleted_adopted hlive h'] at hgone
    have hij : i ≠ j := by
      rintro rfl
      rw [hlive] at hgone
      cases hgone
    rw [deleteHooks_adopted hlive h', if_neg hij, hw.spent j hgone]
    rfl
  case fits => exact hw.fits_adopted hlive h' hinterp
  case keys => exact hw.nodup_keys_adopted hlive h'
  case known =>
    intro k s hs
    rw [nextHandle_adopted hlive h']
    rcases standing?_adopted_cases hlive h' hs with ⟨rfl, -⟩ | hold
    · exact Nat.lt_succ_self _
    · exact Nat.lt_succ_of_lt (hw.known k s hold)
  case watched => exact fun k s j => hw.watched_adopted hlive h' hinterp
  case kept =>
    intro k s hs hk hheld hkept
    rcases standing?_adopted_cases hlive h' hs with ⟨-, rfl⟩ | hold
    · rw [hinterp]
      rfl
    · exact hw.kept k s hold hk hheld hkept
  case told =>
    intro k s hs hk hended hi ht
    rcases standing?_adopted_cases hlive h' hs with ⟨-, rfl⟩ | hold
    · rw [hfresh] at hended
      cases hended
    · rw [hregistered] at ht
      rw [hagenda]
      exact hw.told k s hold hk hended hi ht
  case mail =>
    intro t event hevent
    rw [hagenda] at hevent
    exact (hw.mail t event hevent).ripens hripens
  case threads =>
    intro t ht
    rw [hregistered] at ht
    rw [hnextThread]
    exact hw.threads t ht
  case owners =>
    intro k s hs
    rw [hnextThread]
    rcases standing?_adopted_cases hlive h' hs with ⟨-, rfl⟩ | hold
    · rw [howner]
      exact hcurrent
    · exact hw.owners k s hold

end World

end ScriptHost
