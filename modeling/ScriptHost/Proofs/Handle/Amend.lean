import Mathlib.Data.Set.Basic
import ScriptHost.Proofs.Run.Course

/-!
# Changes of one entry of the ledger

Holding a handle, letting it go, taking its interpreter and deleting it change one entry of the
ledger, and the registry loses at most this handle. No entry is ever changed back: a handle that is
deleted stays so, one that nobody holds is not found again, and an interpreter that was taken away
from its handle does not return.
-/

namespace ScriptHost

namespace Standing

variable {s s' s'' : Standing}

/-- How the entry of a handle may change in the course of time. -/
structure Ages (s s' : Standing) : Prop where
  owner : s'.owner = s.owner
  deleted : s.deleted = true → s'.deleted = true
  gone : s.held = false → s'.held = false
  interp : s'.interp = s.interp ∨ s'.interp = none

theorem Ages.refl (s : Standing) : Ages s s :=
  ⟨rfl, id, id, .inl rfl⟩

theorem Ages.trans (h : Ages s s') (h' : Ages s' s'') : Ages s s'' := by
  refine ⟨h'.owner.trans h.owner, fun hs => h'.deleted (h.deleted hs),
    fun hs => h'.gone (h.gone hs), ?_⟩
  rcases h'.interp with hsame | hnone
  · rw [hsame]
    exact h.interp
  · exact .inr hnone

/-- The entry of a handle whose interpreter is going away. -/
def untracked (s : Standing) : Standing :=
  { s with deleted := s.deleted || s.held, interp := none, pinned := false }

/-- A handle that nobody holds but whose interpreter is still kept for it. -/
def Going (s : Standing) : Prop :=
  s.held = false ∧ s.interp.isSome = true

end Standing

namespace World

variable {w w' w'' : World} {h : HandleId} {f g : Standing → Standing}

/-- The entry of a handle is changed, the registry loses at most this handle, and nothing else
happens to the interpreters and the ledger. No work is put into mailboxes. -/
structure Amends (h : HandleId) (f : Standing → Standing) (w w' : World) : Prop where
  interpreters : w'.interpreters = w.interpreters
  standing : ∀ k, w'.standing? k = if h = k then (w.standing? k).map f else w.standing? k
  keys : w'.handles.keys = w.handles.keys
  registry : w'.hub.registry = w.hub.registry ∨
    w'.hub.registry = w.hub.registry.filter (· ≠ h)
  nextHandle : w'.hub.nextHandle = w.hub.nextHandle
  current : w'.current = w.current
  threads : ThreadsRest w w'
  waits : ∀ k queued, w'.Waits k queued → w.Waits k queued

theorem Amends.of_rests (hw : w.Rests w') : Amends h id w w' where
  interpreters := hw.interpreters
  standing k := by
    rw [hw.standing k]
    split <;> simp
  keys := hw.keys
  registry := .inl hw.registry
  nextHandle := hw.nextHandle
  current := hw.current
  threads := hw.threads
  waits := hw.waits

theorem Amends.trans (hw : Amends h f w w') (hw' : Amends h g w' w'') :
    Amends h (fun s => g (f s)) w w'' where
  interpreters := hw'.interpreters.trans hw.interpreters
  standing k := by
    rw [hw'.standing k, hw.standing k]
    split
    · rw [Option.map_map]
      rfl
    · rfl
  keys := hw'.keys.trans hw.keys
  registry := by
    rcases hw.registry with hsame | hless
    · rw [← hsame]
      exact hw'.registry
    · right
      rcases hw'.registry with hsame' | hless'
      · rw [hsame', hless]
      · rw [hless', hless, List.filter_filter]
        simp
  nextHandle := hw'.nextHandle.trans hw.nextHandle
  current := hw'.current.trans hw.current
  threads := hw.threads.trans hw'.threads
  waits k queued hq := hw.waits k queued (hw'.waits k queued hq)

theorem Amends.congr (hw : Amends h f w w') (hfg : ∀ s, w.standing? h = some s → f s = g s) :
    Amends h g w w' where
  interpreters := hw.interpreters
  standing k := by
    rw [hw.standing k]
    split
    · next hk =>
      subst hk
      cases hs : w.standing? h with
      | none => rfl
      | some s => rw [Option.map_some, Option.map_some, hfg s hs]
    · rfl
  keys := hw.keys
  registry := hw.registry
  nextHandle := hw.nextHandle
  current := hw.current
  threads := hw.threads
  waits := hw.waits

theorem Amends.standing_self (hw : Amends h f w w') : w'.standing? h = (w.standing? h).map f := by
  rw [hw.standing, if_pos rfl]

theorem Amends.standing_of_ne {k : HandleId} (hw : Amends h f w w') (hk : h ≠ k) :
    w'.standing? k = w.standing? k := by
  rw [hw.standing, if_neg hk]

theorem Amends.mem_registry {k : HandleId} (hw : Amends h f w w') (hk : h ≠ k) :
    k ∈ w'.hub.registry ↔ k ∈ w.hub.registry := by
  rcases hw.registry with hsame | hless
  · rw [hsame]
  · rw [hless, List.mem_filter]
    simp [Ne.symm hk]

theorem Amends.registry_sublist (hw : Amends h f w w') :
    w'.hub.registry.Sublist w.hub.registry := by
  rcases hw.registry with hsame | hless
  · exact hsame ▸ List.Sublist.refl _
  · exact hless ▸ List.filter_sublist

/-! ### The single changes -/

theorem amends_modifyHandle {m : Handle → Handle}
    (hm : ∀ handle, (m handle).standing = f handle.standing ∧ (m handle).mailbox = handle.mailbox)
    (w : World) (h : HandleId) : Amends h f w (w.modifyHandle h m) := by
  refine ⟨rfl, fun k => ?_, Table.keys_modify _ _ _, .inl rfl, rfl, rfl, .of_eq rfl,
    fun k queued hq => hq.of_modifyHandle fun handle _ => ?_⟩
  · rw [standing?_modifyHandle]
    split
    · rw [standing?, Option.map_map]
      exact congrArg (Option.map · _) (funext fun handle => (hm handle).1)
    · rfl
  · rw [(hm handle).2]
    exact List.Subset.refl _

theorem amends_unregister (w : World) (h : HandleId) : Amends h id w (w.unregister h) := by
  refine ⟨rfl, fun k => ?_, rfl, .inr rfl, rfl, rfl, .of_eq rfl, fun _ _ => id⟩
  split
  · rw [Option.map_id]
    rfl
  · rfl

theorem amends_hold (w : World) (h : HandleId) :
    Amends h (fun s => { s with holders := s.holders + 1 }) w (w.hold h) := by
  apply amends_modifyHandle
  intro handle
  exact ⟨rfl, rfl⟩

theorem amends_unhold (w : World) (h : HandleId) :
    Amends h (fun s => { s with holders := s.holders - 1 }) w (w.unhold h) := by
  apply amends_modifyHandle
  intro handle
  exact ⟨rfl, rfl⟩

theorem amends_takeOver (w : World) (h : HandleId) :
    Amends h (fun s => { s with pinned := false, holders := s.holders + 1 }) w (w.takeOver h) := by
  have hunpin : Amends h (fun s => { s with pinned := false }) w
      (w.modifyHandle h fun handle => { handle with pinned := false }) := by
    apply amends_modifyHandle
    intro handle
    exact ⟨rfl, rfl⟩
  exact hunpin.trans (amends_hold _ h)

theorem amends_takeInterp (w : World) (h : HandleId) :
    Amends h (fun s => { s with interp := none }) w (w.takeInterp h).2 := by
  apply amends_modifyHandle
  intro handle
  exact ⟨rfl, rfl⟩

theorem amends_markDeleted (w : World) (h : HandleId) :
    Amends h (fun s => { s with deleted := true }) w (w.markDeleted h) := by
  rw [markDeleted]
  split
  · next hnone =>
    refine (Amends.of_rests (.refl w)).congr fun s hs => ?_
    rw [standing?, hnone] at hs
    cases hs
  · next handle hhandle =>
    split
    · next hdeleted =>
      refine (Amends.of_rests (.refl w)).congr fun s hs => ?_
      rw [standing?, hhandle] at hs
      cases hs
      simp [Handle.standing, hdeleted]
    · have hmark : Amends h (fun s => { s with deleted := true }) w
          (w.modifyHandle h fun handle => { handle with deleted := true }) := by
        apply amends_modifyHandle
        intro handle
        exact ⟨rfl, rfl⟩
      have hdrain := (hmark.trans (amends_unregister _ h)).trans
        (.of_rests (rests_drainMailbox _ h .deleted))
      refine hdrain.trans (.of_rests ?_)
      apply rests_modifyHandle
      intro handle _
      exact ⟨rfl, List.Subset.refl _⟩

theorem amends_untrack (w : World) (h : HandleId) :
    Amends h Standing.untracked w (w.untrack h) := by
  have htake : Amends h (fun s => { s with interp := none }) w
      ((w.modifyHandle h fun handle => { handle with interp := none }).unregister h) := by
    refine .trans (amends_modifyHandle (f := fun s => { s with interp := none }) ?_ w h)
      (amends_unregister _ h)
    intro handle
    exact ⟨rfl, rfl⟩
  have hunpin (w : World) : Amends h (fun s => { s with pinned := false }) w
      (w.modifyHandle h fun handle => { handle with pinned := false }) := by
    apply amends_modifyHandle
    intro handle
    exact ⟨rfl, rfl⟩
  rw [untrack]
  generalize ((w.modifyHandle h fun handle => { handle with interp := none }).unregister h) = u
    at htake
  have hself := htake.standing_self
  refine Amends.trans (f := fun s => { s with deleted := s.deleted || s.held, interp := none })
    ?_ (hunpin _)
  cases hs : w.standing? h with
  | none =>
    rw [hs, standing?, Option.map_none, Option.map_eq_none_iff] at hself
    rw [hself]
    exact htake.congr fun s hs' => by rw [hs] at hs'; cases hs'
  | some s =>
    rw [hs, standing?, Option.map_some] at hself
    obtain ⟨handle, hhandle, hstanding⟩ := Option.map_eq_some_iff.1 hself
    rw [hhandle]
    have hheld : handle.exists = s.held := congrArg Standing.held hstanding
    cases hexists : s.held with
    | true =>
      rw [hexists] at hheld
      simp only [hheld, if_true]
      refine (htake.trans (amends_markDeleted u h)).congr fun s' hs' => ?_
      rw [hs] at hs'
      cases hs'
      simp [hexists]
    | false =>
      rw [hexists] at hheld
      simp only [hheld, Bool.false_eq_true, if_false]
      refine htake.congr fun s' hs' => ?_
      rw [hs] at hs'
      cases hs'
      simp [hexists]

/-! ### The course of time -/

/-- How the ledger may change in the course of time. Handles that nobody holds keep their
interpreters only if they did so before, or if they are among the lost ones. Mailboxes get no work. -/
structure Ages (lost : Set HandleId) (w w' : World) : Prop where
  each : ∀ h s, w.standing? h = some s → ∃ s', w'.standing? h = some s' ∧ s.Ages s'
  fresh : ∀ h s', w'.standing? h = some s' → w.standing? h = none → s'.owner = w.current
  going : ∀ h s', w'.standing? h = some s' → s'.Going →
    h ∈ lost ∨ ∃ s, w.standing? h = some s ∧ s.Going
  current : w'.current = w.current
  here : ∀ t, (w'.threads.get? t).isSome = (w.threads.get? t).isSome
  passive : w.Passive → w'.Passive
  waits : ∀ h queued, w'.Waits h queued → w.Waits h queued

theorem Ages.of_standing_eq (hstanding : ∀ h, w'.standing? h = w.standing? h)
    (hcurrent : w'.current = w.current)
    (hhere : ∀ t, (w'.threads.get? t).isSome = (w.threads.get? t).isSome)
    (hpassive : w.Passive → w'.Passive)
    (hwaits : ∀ h queued, w'.Waits h queued → w.Waits h queued) : Ages ∅ w w' := by
  refine ⟨fun h s hs => ⟨s, ?_, .refl s⟩, fun h s' hs' hs => ?_, fun h s' hs' hgoing => ?_,
    hcurrent, hhere, hpassive, hwaits⟩
  · rw [hstanding, hs]
  · rw [hstanding, hs] at hs'
    cases hs'
  · rw [hstanding] at hs'
    exact .inr ⟨s', hs', hgoing⟩

theorem Ages.of_rests (h : w.Rests w') : Ages ∅ w w' :=
  .of_standing_eq h.standing h.current h.threads.isSome_eq h.threads.passive h.waits

theorem Ages.of_amends (hw : Amends h f w w') {lost : Set HandleId}
    (hf : ∀ s, w.standing? h = some s → s.Ages (f s) ∧ ((f s).Going → h ∈ lost ∨ s.Going)) :
    Ages lost w w' := by
  refine ⟨fun k s hs => ?_, fun k s' hs' hs => ?_, fun k s' hs' hgoing => ?_,
    hw.current, hw.threads.isSome_eq, hw.threads.passive, hw.waits⟩
  · by_cases hk : h = k
    · subst hk
      exact ⟨f s, by rw [hw.standing_self, hs, Option.map_some], (hf s hs).1⟩
    · exact ⟨s, by rw [hw.standing_of_ne hk, hs], .refl s⟩
  · rw [hw.standing, hs] at hs'
    split at hs' <;> cases hs'
  · by_cases hk : h = k
    · subst hk
      rw [hw.standing_self] at hs'
      obtain ⟨s, hs, rfl⟩ := Option.map_eq_some_iff.1 hs'
      rcases (hf s hs).2 hgoing with hlost | hgoing
      · exact .inl hlost
      · exact .inr ⟨s, hs, hgoing⟩
    · rw [hw.standing_of_ne hk] at hs'
      exact .inr ⟨s', hs', hgoing⟩

theorem Ages.trans {lost lost' : Set HandleId} (hw : Ages lost w w') (hw' : Ages lost' w' w'') :
    Ages (lost ∪ lost') w w'' := by
  refine ⟨fun h s hs => ?_, fun h s'' hs'' hs => ?_, fun h s'' hs'' hgoing => ?_,
    hw'.current.trans hw.current, fun t => (hw'.here t).trans (hw.here t),
    fun hp => hw'.passive (hw.passive hp), fun h q hq => hw.waits h q (hw'.waits h q hq)⟩
  · obtain ⟨s', hs', hages⟩ := hw.each h s hs
    obtain ⟨s'', hs'', hages'⟩ := hw'.each h s' hs'
    exact ⟨s'', hs'', hages.trans hages'⟩
  · cases hs' : w'.standing? h with
    | none => exact (hw'.fresh h s'' hs'' hs').trans hw.current
    | some s' =>
      obtain ⟨t, ht, hages⟩ := hw'.each h s' hs'
      rw [hs''] at ht
      cases ht
      exact hages.owner.trans (hw.fresh h s' hs' hs)
  · rcases hw'.going h s'' hs'' hgoing with hlost | ⟨s', hs', hgoing'⟩
    · exact .inl (.inr hlost)
    · rcases hw.going h s' hs' hgoing' with hlost | hbefore
      · exact .inl (.inl hlost)
      · exact .inr hbefore

theorem Ages.refl (w : World) : Ages ∅ w w :=
  .of_rests (.refl w)

theorem Ages.trans_empty (hw : Ages ∅ w w') (hw' : Ages ∅ w' w'') : Ages ∅ w w'' := by
  have h := hw.trans hw'
  rwa [Set.union_empty] at h

theorem Ages.foldl {α : Type} {m : World → α → World} (hm : ∀ w a, Ages ∅ w (m w a))
    (as : List α) (w : World) : Ages ∅ w (as.foldl m w) := by
  induction as generalizing w with
  | nil => exact .refl w
  | cons a as ih => exact (hm w a).trans_empty (ih (m w a))

/-- A handle of which nothing is kept is not among those that keep their interpreters. -/
theorem Ages.settle {lost : Set HandleId} (hw : Ages (insert h lost) w w')
    (hnot : ∀ s, w'.standing? h = some s → ¬s.Going) : Ages lost w w' := by
  refine ⟨hw.each, hw.fresh, fun k s' hs' hgoing => ?_, hw.current, hw.here, hw.passive,
    hw.waits⟩
  rcases hw.going k s' hs' hgoing with (rfl | hlost) | hbefore
  · exact absurd hgoing (hnot s' hs')
  · exact .inl hlost
  · exact .inr hbefore

theorem Ages.solo {lost : Set HandleId} (hw : Ages lost w w') (hsolo : w.Solo) : w'.Solo := by
  refine ⟨?_, fun h s' hs' => ?_, hw.passive hsolo.passive⟩
  · rw [hw.current, hw.here, hsolo.here]
  · rw [hw.current]
    cases hs : w.standing? h with
    | none => exact hw.fresh h s' hs' hs
    | some s =>
      obtain ⟨t, ht, hages⟩ := hw.each h s hs
      rw [hs'] at ht
      cases ht
      exact hages.owner.trans (hsolo.owner h s hs)

/-! ### Deletions -/

theorem ages_modifyInterp (w : World) (i : InterpId) (m : Interpreter → Interpreter) :
    Ages ∅ w (w.modifyInterp i m) :=
  .of_standing_eq (fun _ => rfl) rfl (fun _ => rfl) id fun _ _ => id

/-- Events may go from the agenda of the thread that is running, and other work may come and go. -/
theorem ages_setAgenda {a : Agenda Event Handler}
    (ha : ∀ event ∈ a.events, event ∈ w.agenda.events) : Ages ∅ w (w.setAgenda a) := by
  have hget (t : ThreadId) : (w.setAgenda a).threads.get? t =
      if w.current = t then (w.threads.get? t).map fun thread => { thread with agenda := a }
      else w.threads.get? t :=
    Table.get?_modify w.threads w.current t _
  refine .of_standing_eq (fun _ => rfl) rfl (fun t => ?_) (fun hw t thread hthread => ?_) fun _ _ => id
  · rw [hget]
    split <;> simp
  · rw [hget] at hthread
    split at hthread
    · next ht =>
      obtain ⟨former, hformer, rfl⟩ := Option.map_eq_some_iff.1 hthread
      subst ht
      refine ⟨(hw _ former hformer).role, fun event hevent => ?_⟩
      have hold := ha event hevent
      rw [agenda_eq_of_get? hformer] at hold
      exact (hw _ former hformer).events event hold
    · exact hw t thread hthread

theorem ages_cancelAfter (w : World) (token : AfterToken) : Ages ∅ w (w.cancelAfter token) := by
  cases token with
  | timer token => exact .of_rests (rests_cancelTimer w token)
  | idle token =>
    apply ages_setAgenda
    intro event hevent
    exact hevent

theorem ages_untrack (w : World) (h : HandleId) : Ages ∅ w (w.untrack h) := by
  refine .of_amends (amends_untrack w h) fun s _ => ⟨⟨rfl, fun hd => ?_, fun hgone => ?_, .inr rfl⟩,
    fun hgoing => ?_⟩
  · simp [Standing.untracked, hd]
  · simp only [Standing.held, Bool.or_eq_false_iff] at hgone
    exact hgone.2
  · cases hgoing.2

theorem ages_runDeleteHook {delete : InterpId → World → World}
    (hdelete : ∀ i w, Ages ∅ w (delete i w)) (self : InterpId) (hook : DeleteHook) (w : World) :
    Ages ∅ w (runDeleteHook delete self hook w) := by
  induction hook generalizing self w with
  | log label => exact .of_rests (.of_tables_eq rfl)
  | untrack h => exact ages_untrack w h
  | delete i => exact hdelete i w
  | watch i hook ih =>
    rw [runDeleteHook]
    split
    · exact ih i w
    · exact ages_modifyInterp w i _

theorem ages_detach (w : World) (r : Interpreter) : Ages ∅ w (w.detach r) := by
  rw [detach]
  split
  · exact ages_modifyInterp w _ _
  · exact .refl w

theorem ages_cancelAfters (w : World) (i : InterpId) : Ages ∅ w (w.cancelAfters i) := by
  exact (ages_modifyInterp w i _).trans_empty (.foldl (fun w token => ages_cancelAfter w token) _ _)

theorem ages_runDeleteHooks {delete : InterpId → World → World}
    (hdelete : ∀ i w, Ages ∅ w (delete i w)) (i : InterpId) (w : World) :
    Ages ∅ w (runDeleteHooks delete i w) :=
  (ages_modifyInterp w i _).trans_empty
    (.foldl (fun w hook => ages_runDeleteHook hdelete i hook w) _ _)

theorem ages_deleteTree (fuel : Nat) (i : InterpId) (w : World) :
    Ages ∅ w (deleteTree fuel i w) := by
  induction fuel generalizing i w with
  | zero => exact .refl w
  | succ fuel ih =>
    rw [deleteTree]
    split
    · exact .refl w
    · have hchildren := (ages_modifyInterp w i Interpreter.condemn).trans_empty
        (.foldl (fun w child => ih child w) (w.interp i).childIds _)
      have hafters := (hchildren.trans_empty (ages_detach _ (w.interp i))).trans_empty
        (ages_cancelAfters _ i)
      exact (hafters.trans_empty (ages_runDeleteHooks ih i _)).trans_empty (ages_modifyInterp _ i _)

theorem ages_delete (w : World) (i : InterpId) : Ages ∅ w (w.delete i) :=
  ages_deleteTree _ i w

theorem ages_deleteInterp (w : World) (i : InterpId) : Ages ∅ w (w.deleteInterp i) := by
  rw [deleteInterp]
  split
  · exact .of_rests (rests_addIdle w _)
  · exact ages_delete w i

end World

end ScriptHost
