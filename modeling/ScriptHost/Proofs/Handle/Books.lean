import Mathlib.Data.Set.Insert
import ScriptHost.Proofs.Handle.Amend

/-!
# The books of a host that acts on one thread

The ledger and the interpreters agree at every moment. As long as an interpreter is kept for a
handle, it is live and will take the handle off the ledger when it is deleted. A handle that the
owning thread holds stays pinned without its interpreter only until the deletion of that one, which
was put off, is served. In the middle of a deletion this also holds with regard to the interpreters
that are dying, whose hooks are still to be run, and apart from the handles that are due, because
their hooks are being run.
-/

namespace ScriptHost.World

variable {w w' : World} {h : HandleId} {i : InterpId} {f : Standing → Standing}
  {dying dying' : Set InterpId} {due due' off off' : Set HandleId}

/-- The deletion of an interpreter was put off until the thread is idle. -/
def PutOff (w : World) (i : InterpId) : Prop :=
  ∃ token, (token, Handler.delete i) ∈ w.agenda.idle

/-- The deletion of an interpreter was put off or is under way. -/
def Ending (w : World) (dying : Set InterpId) (i : InterpId) : Prop :=
  w.PutOff i ∨ i ∈ dying

/-- An interpreter that takes a handle off the ledger when it is deleted, which is not yet the case
or not yet finished. -/
def Watches (w : World) (dying : Set InterpId) (i : InterpId) (h : HandleId) : Prop :=
  ∃ r, w.interps.get? i = some r ∧ .untrack h ∈ r.deleteHooks ∧ (r.deleted = true → i ∈ dying)

/-- The entry of a handle agrees with the registry and with the interpreters. Handles that are off
may be held without having an interpreter. -/
structure Fits (w : World) (dying : Set InterpId) (due off : Set HandleId) (h : HandleId)
    (s : Standing) : Prop where
  fresh : s.interp.isSome = true → s.deleted = false
  watched : ∀ i, s.interp = some i → h ∈ due ∨ w.Watches dying i h
  pinned : s.pinned = true → s.interp = none →
    h ∈ due ∨ ∃ i, w.Watches dying i h ∧ w.Ending dying i
  kept : s.held = true → s.deleted = false → h ∈ off ∨ s.interp.isSome = true
  listed : s.held = true → s.deleted = false → h ∈ off ∨ h ∈ w.hub.registry

/-- The scripts that the interpreters scheduled can be cancelled without cancelling a deletion. -/
structure Slated (w : World) : Prop where
  known : w.agenda.Known
  harmless : ∀ i r, w.interps.get? i = some r → ∀ token ∈ r.afters.values, w.agenda.Harmless token

/-- The books agree. -/
structure Books (w : World) (dying : Set InterpId) (due off : Set HandleId) : Prop where
  keys : w.handles.keys.Nodup
  known : ∀ h s, w.standing? h = some s → h < w.hub.nextHandle
  registered : ∀ h ∈ w.hub.registry, h < w.hub.nextHandle
  sorted : w.hub.registry.Pairwise (· < ·)
  fits : ∀ h s, w.standing? h = some s → w.Fits dying due off h s
  slated : w.Slated

/-! ### What leaves the ledger alone -/

theorem PutOff.rests (h : w.PutOff i) (ha : w.agenda.Rests w'.agenda) : w'.PutOff i := by
  obtain ⟨token, hmem⟩ := h
  exact ⟨token, ha.deletions _ hmem rfl⟩

theorem Ending.rests (h : w.Ending dying i) (ha : w.agenda.Rests w'.agenda) : w'.Ending dying i :=
  h.imp_left fun hputOff => hputOff.rests ha

theorem Slated.rests (hw : w.Slated) (hinterps : w'.interps = w.interps)
    (ha : w.agenda.Rests w'.agenda) : w'.Slated := by
  refine ⟨hw.known.rests ha, fun i r hr token htoken => ?_⟩
  rw [hinterps] at hr
  exact (hw.harmless i r hr token htoken).rests ha

theorem Slated.modifyInterp {g : Interpreter → Interpreter} (hw : w.Slated) (i : InterpId)
    (hg : ∀ r, (g r).afters.values ⊆ r.afters.values) : (w.modifyInterp i g).Slated := by
  refine ⟨hw.known, fun j r hr token htoken => ?_⟩
  rw [get?_modifyInterp] at hr
  split at hr
  · obtain ⟨former, hformer, rfl⟩ := Option.map_eq_some_iff.1 hr
    exact hw.harmless j former hformer token (hg former htoken)
  · exact hw.harmless j r hr token htoken

theorem Fits.of_watches {s : Standing} (hs : w.Fits dying due off h s)
    (hwatches : ∀ i, w.Watches dying i h →
      h ∈ due' ∨ w'.Watches dying' i h ∧ (w.Ending dying i → w'.Ending dying' i))
    (hregistry : h ∈ w.hub.registry → h ∈ w'.hub.registry) (hdue : h ∈ due → h ∈ due')
    (hoff : h ∈ off → h ∈ off') : w'.Fits dying' due' off' h s := by
  refine ⟨hs.fresh, fun i hi => ?_, fun hpinned hnone => ?_, fun hheld hlive => ?_,
    fun hheld hlive => ?_⟩
  · rcases hs.watched i hi with hd | hw
    · exact .inl (hdue hd)
    · exact (hwatches i hw).imp_right And.left
  · rcases hs.pinned hpinned hnone with hd | ⟨i, hw, hending⟩
    · exact .inl (hdue hd)
    · exact (hwatches i hw).imp_right fun hw' => ⟨i, hw'.1, hw'.2 hending⟩
  · exact (hs.kept hheld hlive).imp_left hoff
  · exact (hs.listed hheld hlive).imp hoff hregistry

/-- A change of the interpreters keeps the books if no interpreter forgets a hook that is not due. -/
theorem Books.of_watches (hw : w.Books dying due off) (hhandles : w'.handles = w.handles)
    (hhub : w'.hub = w.hub)
    (hwatches : ∀ i h, w.Watches dying i h →
      h ∈ due' ∨ w'.Watches dying' i h ∧ (w.Ending dying i → w'.Ending dying' i))
    (hdue : due ⊆ due') (hslated : w'.Slated) : w'.Books dying' due' off := by
  refine ⟨?_, fun h s hs => ?_, ?_, ?_, fun h s hs => ?_, hslated⟩
  · rw [hhandles]
    exact hw.keys
  · rw [standing?, hhandles] at hs
    rw [hhub]
    exact hw.known h s hs
  · rw [hhub]
    exact hw.registered
  · rw [hhub]
    exact hw.sorted
  · rw [standing?, hhandles] at hs
    refine (hw.fits h s hs).of_watches (hwatches · h) ?_ (fun hd => hdue hd) id
    rw [hhub]
    exact id

theorem Books.modifyInterp {g : Interpreter → Interpreter} (hw : w.Books dying due off)
    (i : InterpId) (hhooks : ∀ r, r.deleteHooks ⊆ (g r).deleteHooks)
    (hdeleted : ∀ r, (g r).deleted = r.deleted) (hslated : (w.modifyInterp i g).Slated) :
    (w.modifyInterp i g).Books dying due off := by
  refine hw.of_watches rfl rfl ?_ subset_rfl hslated
  rintro j h ⟨r, hr, hhook, hdying⟩
  refine .inr ⟨?_, id⟩
  by_cases hij : i = j
  · refine ⟨g r, ?_, hhooks r hhook, fun hd => hdying (hdeleted r ▸ hd)⟩
    rw [get?_modifyInterp, if_pos hij, hr, Option.map_some]
  · refine ⟨r, ?_, hhook, hdying⟩
    rw [get?_modifyInterp, if_neg hij, hr]

theorem Books.edit {g : Interpreter → Interpreter} (hw : w.Books dying due off)
    (hg : Interpreter.Tame g) (i : InterpId) : (w.modifyInterp i g).Books dying due off :=
  hw.modifyInterp i hg.hooks hg.edit.deleted_eq (hw.slated.modifyInterp i hg.afters)

/-- A change of frames and depths, which the books do not speak of. -/
theorem Books.of_plans_eq {g : Interpreter → Interpreter} (hw : w.Books dying due off)
    (i : InterpId) (hg : ∀ r, (g r).plans = r.plans) : (w.modifyInterp i g).Books dying due off := by
  refine hw.modifyInterp i (fun r => ?_) (fun r => congrArg Prod.fst (hg r))
    (hw.slated.modifyInterp i fun r => ?_)
  · rw [show (g r).deleteHooks = r.deleteHooks from congrArg (·.2.1) (hg r)]
    exact List.Subset.refl _
  · rw [show (g r).afters = r.afters from congrArg (·.2.2) (hg r)]
    exact List.Subset.refl _

theorem watches_congr (h : w'.interpreters = w.interpreters) {k : HandleId} :
    w'.Watches dying i k ↔ w.Watches dying i k := by
  have hinterps : w'.interps = w.interps := congrArg Prod.fst h
  unfold Watches
  rw [hinterps]

theorem Books.stands (hw : w.Books dying due off) (h : w.Stands w') : w'.Books dying due off := by
  have hagenda := h.threads.agenda h.current
  refine ⟨?_, fun k s hs => ?_, ?_, ?_, fun k s hs => ?_,
    hw.slated.rests (congrArg Prod.fst h.interpreters) hagenda⟩
  · rw [h.keys]
    exact hw.keys
  · rw [h.standing] at hs
    rw [h.nextHandle]
    exact hw.known k s hs
  · rw [h.registry, h.nextHandle]
    exact hw.registered
  · rw [h.registry]
    exact hw.sorted
  · rw [h.standing] at hs
    refine (hw.fits k s hs).of_watches (fun i hwatch => .inr ⟨?_, (·.rests hagenda)⟩) ?_ id id
    · exact (watches_congr h.interpreters).2 hwatch
    · rw [h.registry]
      exact id

theorem Books.rests (hw : w.Books dying due off) (h : w.Rests w') : w'.Books dying due off :=
  hw.stands h.toStands

/-! ### Changes of one entry -/

theorem Books.amend (hw : w.Books dying due off) (h' : Amends h f w w')
    (hfits : ∀ s, w.standing? h = some s → w'.Fits dying due' off' h (f s))
    (hdue : ∀ k ∈ due, h ≠ k → k ∈ due') (hoff : ∀ k ∈ off, h ≠ k → k ∈ off') :
    w'.Books dying due' off' := by
  have hagenda := h'.threads.agenda h'.current
  refine ⟨?_, fun k s hs => ?_, fun k hk => ?_, ?_, fun k s hs => ?_,
    hw.slated.rests (congrArg Prod.fst h'.interpreters) hagenda⟩
  · rw [h'.keys]
    exact hw.keys
  · rw [h'.nextHandle]
    rw [h'.standing] at hs
    split at hs
    · obtain ⟨s', hs', -⟩ := Option.map_eq_some_iff.1 hs
      exact hw.known k s' hs'
    · exact hw.known k s hs
  · rw [h'.nextHandle]
    exact hw.registered k (h'.registry_sublist.subset hk)
  · exact hw.sorted.sublist h'.registry_sublist
  · by_cases hk : h = k
    · subst hk
      rw [h'.standing_self] at hs
      obtain ⟨s', hs', rfl⟩ := Option.map_eq_some_iff.1 hs
      exact hfits s' hs'
    · rw [h'.standing_of_ne hk] at hs
      refine (hw.fits k s hs).of_watches (fun i hwatch => .inr ⟨?_, (·.rests hagenda)⟩)
        (h'.mem_registry hk).2 (fun hd => hdue k hd hk) fun ho => hoff k ho hk
      exact (watches_congr h'.interpreters).2 hwatch

/-- What is said about the interpreters of a handle also holds after a change of its entry. -/
theorem Amends.watches {k : HandleId} (h' : Amends h f w w') (hwatch : w.Watches dying i k) :
    w'.Watches dying i k :=
  (watches_congr h'.interpreters).2 hwatch

theorem Amends.ending (h' : Amends h f w w') (hending : w.Ending dying i) : w'.Ending dying i :=
  hending.rests (h'.threads.agenda h'.current)

/-- A handle whose interpreter goes away fits wherever its hook was due. -/
theorem fits_untracked (w : World) (dying : Set InterpId) (due off : Set HandleId) (h : HandleId)
    (s : Standing) : w.Fits dying due off h s.untracked := by
  have hnot (hheld : s.untracked.held = true) (hlive : s.untracked.deleted = false) : False := by
    simp only [Standing.untracked, Standing.held, Bool.or_eq_false_iff, Bool.false_or] at hheld hlive
    exact Bool.noConfusion (hheld.symm.trans hlive.2.2)
  refine ⟨fun hi => ?_, fun i hi => ?_, fun hp => ?_, fun hheld hlive => ?_,
    fun hheld hlive => ?_⟩
  · cases hi
  · cases hi
  · cases hp
  · exact (hnot hheld hlive).elim
  · exact (hnot hheld hlive).elim

theorem Books.untrack (hw : w.Books dying due off) (h : HandleId)
    (hdue : ∀ k ∈ due, h ≠ k → k ∈ due') : (w.untrack h).Books dying due' off := by
  refine hw.amend (amends_untrack w h) (fun s _ => ?_) hdue fun k hk _ => hk
  exact fits_untracked _ dying due' off h s

/-! ### Deletions -/

/-- The handles that hooks take off the ledger. -/
def dueOf (hooks : List DeleteHook) : Set HandleId :=
  {h | .untrack h ∈ hooks}

theorem Books.runDeleteHook {delete : InterpId → World → World}
    (hdelete : ∀ i w, w.Books dying due off → (delete i w).Books dying due off) (self : InterpId)
    (hook : DeleteHook) (hw : w.Books dying due off) :
    (runDeleteHook delete self hook w).Books dying due off := by
  induction hook generalizing self w with
  | log label => exact hw.rests (.of_tables_eq rfl)
  | untrack h =>
    rw [World.runDeleteHook]
    exact hw.untrack h fun k hk _ => hk
  | delete i => exact hdelete i w hw
  | watch i hook ih =>
    rw [World.runDeleteHook]
    split
    · exact ih i hw
    · exact hw.edit (.onDelete hook) i

/-- Running the hooks takes the handles that were due because of them off the ledger. -/
theorem Books.foldl_runDeleteHook {delete : InterpId → World → World}
    (hdelete : ∀ due i w, w.Books dying due off → (delete i w).Books dying due off)
    (self : InterpId) (hooks : List DeleteHook) (hw : w.Books dying (due ∪ dueOf hooks) off) :
    (hooks.foldl (fun w hook => World.runDeleteHook delete self hook w) w).Books dying due off := by
  induction hooks generalizing w with
  | nil =>
    refine hw.of_watches rfl rfl (fun i h hwatch => .inr ⟨hwatch, id⟩) ?_ hw.slated
    simp [dueOf]
  | cons hook hooks ih =>
    apply ih
    cases hook with
    | untrack h =>
      refine hw.untrack h fun k hk hne => ?_
      rcases hk with hk | hk
      · exact .inl hk
      · rcases List.mem_cons.1 hk with heq | hmem
        · cases heq
          exact absurd rfl hne
        · exact .inr hmem
    | log | delete | watch =>
      refine Books.runDeleteHook (hdelete _) self _ ?_
      simpa [dueOf] using hw

theorem Books.runDeleteHooks {delete : InterpId → World → World}
    (hdelete : ∀ due i w, w.Books dying due off → (delete i w).Books dying due off) (i : InterpId)
    (hw : w.Books (insert i dying) due off) :
    (runDeleteHooks delete i w).Books dying due off := by
  refine Books.foldl_runDeleteHook hdelete i _ ?_
  refine hw.of_watches rfl rfl ?_ Set.subset_union_left ?_
  · rintro j h ⟨r, hr, hhook, hdying⟩
    by_cases hij : i = j
    · subst hij
      rw [interp_of_get? hr]
      exact .inl (.inr hhook)
    · refine .inr ⟨⟨r, ?_, hhook, fun hd => ?_⟩, fun hending => ?_⟩
      · rw [get?_modifyInterp, if_neg hij, hr]
      · exact (hdying hd).resolve_left (Ne.symm hij)
      · exact hending.imp_right fun hmem => hmem.resolve_left (Ne.symm hij)
  · exact hw.slated.modifyInterp i fun r => List.Subset.refl _

theorem Books.mono (hw : w.Books dying due off) (hdying : dying ⊆ dying') :
    w.Books dying' due off := by
  refine hw.of_watches rfl rfl ?_ subset_rfl hw.slated
  rintro j h ⟨r, hr, hhook, hd⟩
  exact .inr ⟨⟨r, hr, hhook, fun hdel => hdying (hd hdel)⟩, fun hending =>
    hending.imp_right fun hmem => hdying hmem⟩

theorem Books.condemn (hw : w.Books (insert i dying) due off) :
    (w.modifyInterp i Interpreter.condemn).Books (insert i dying) due off := by
  refine hw.of_watches rfl rfl ?_ subset_rfl (hw.slated.modifyInterp i fun r => List.Subset.refl _)
  rintro j h ⟨r, hr, hhook, hdying⟩
  refine .inr ⟨?_, id⟩
  by_cases hij : i = j
  · subst hij
    refine ⟨r.condemn, ?_, hhook, fun _ => Set.mem_insert i dying⟩
    rw [get?_modifyInterp, if_pos rfl, hr, Option.map_some]
  · refine ⟨r, ?_, hhook, hdying⟩
    rw [get?_modifyInterp, if_neg hij, hr]

theorem Books.foldl {α : Type} {g : World → α → World}
    (hg : ∀ w a, w.Books dying due off → (g w a).Books dying due off) (as : List α)
    (hw : w.Books dying due off) : (as.foldl g w).Books dying due off := by
  induction as generalizing w with
  | nil => exact hw
  | cons a as ih => exact ih (hg w a hw)

theorem Books.detach (hw : w.Books dying due off) (r : Interpreter) :
    (w.detach r).Books dying due off := by
  rw [World.detach]
  split
  · exact hw.of_plans_eq _ fun r => rfl
  · exact hw

theorem Books.foldl_cancelAfter (hw : w.Books dying due off) (tokens : List AfterToken)
    (hharmless : ∀ token ∈ tokens, w.agenda.Harmless token) :
    (tokens.foldl World.cancelAfter w).Books dying due off := by
  induction tokens generalizing w with
  | nil => exact hw
  | cons token tokens ih =>
    have hrests := rests_cancelAfter (hharmless token List.mem_cons_self)
    refine ih (hw.rests hrests) fun token' htoken => ?_
    exact (hharmless token' (List.mem_cons_of_mem _ htoken)).rests
      (hrests.threads.agenda hrests.current)

theorem Slated.harmless_interp (hw : w.Slated) (i : InterpId) :
    ∀ token ∈ (w.interp i).afters.values, w.agenda.Harmless token := by
  cases hr : w.interps.get? i with
  | none =>
    intro token htoken
    rw [interp, Table.getD, hr] at htoken
    cases htoken
  | some r =>
    rw [interp_of_get? hr]
    exact hw.harmless i r hr

theorem Books.cancelAfters (hw : w.Books dying due off) (i : InterpId) :
    (w.cancelAfters i).Books dying due off := by
  refine Books.foldl_cancelAfter ?_ _ (hw.slated.harmless_interp i)
  refine hw.modifyInterp i (fun r => List.Subset.refl _) (fun r => rfl) ?_
  exact hw.slated.modifyInterp i fun r => List.nil_subset _

/-- The deletion of a live interpreter is under way from its first to its last step. -/
theorem Books.deleteTree_live {fuel : Nat} (hlive : (w.interp i).deleted = false)
    (hw : w.Books (insert i dying) due off)
    (hdelete : ∀ {dying : Set InterpId} {due : Set HandleId} (i : InterpId) (w : World),
      w.Books dying due off → (deleteTree fuel i w).Books dying due off) :
    (deleteTree (fuel + 1) i w).Books dying due off := by
  rw [World.deleteTree, if_neg (Bool.eq_false_iff.1 hlive)]
  have hchildren := Books.foldl (fun w child hw => hdelete child w hw) (w.interp i).childIds
    hw.condemn
  have hafters := (hchildren.detach (w.interp i)).cancelAfters i
  exact (Books.runDeleteHooks (fun due j w hw => hdelete j w hw) i hafters).of_plans_eq i
    fun r => rfl

theorem Books.deleteTree (fuel : Nat) (i : InterpId) (hw : w.Books dying due off) :
    (deleteTree fuel i w).Books dying due off := by
  induction fuel generalizing dying due i w with
  | zero => exact hw
  | succ fuel ih =>
    by_cases hdead : (w.interp i).deleted = true
    · rw [World.deleteTree, if_pos hdead]
      exact hw
    · exact .deleteTree_live (Bool.eq_false_iff.2 hdead) (hw.mono (Set.subset_insert i dying))
        fun j w hw => ih j hw

theorem Books.delete (hw : w.Books dying due off) (i : InterpId) :
    (w.delete i).Books dying due off :=
  hw.deleteTree _ i

/-- Deleting an interpreter ends its deletion. -/
theorem Books.delete_dying (hw : w.Books (insert i dying) due off)
    (hlive : (w.interp i).deleted = false) : (w.delete i).Books dying due off := by
  have hsize : w.interps.size ≠ 0 := by
    have hmem := Table.mem_of_get? (get?_of_live hlive)
    exact (List.length_pos_of_mem hmem).ne'
  obtain ⟨fuel, hfuel⟩ := Nat.exists_eq_succ_of_ne_zero hsize
  rw [World.delete, hfuel]
  exact .deleteTree_live hlive hw fun j w hw => hw.deleteTree fuel j

end ScriptHost.World
