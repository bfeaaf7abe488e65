import ScriptHost.Proofs.Handle.Books

/-!
# Making handles keeps the books

A handle is listed when its interpreter is kept for it and will take it off the ledger. The books
agree again as soon as somebody holds it.
-/

namespace ScriptHost

namespace World

variable {w w' : World} {h : HandleId} {i : InterpId} {f : Standing → Standing}
  {dying : Set InterpId} {due off : Set HandleId}

/-! ### Interpreters -/

theorem Slated.newInterp (hw : w.Slated) (name : String) (safe : Bool)
    (parent : Option InterpId) : (w.newInterp name safe parent).2.Slated := by
  refine ⟨hw.known, fun j r hr token htoken => ?_⟩
  rw [get?_newInterp] at hr
  split at hr
  · cases hr
    cases htoken
  · exact hw.harmless j r hr token htoken

theorem Books.newInterp (hw : w.Books dying due off) (htidy : w.Tidy) (name : String) (safe : Bool)
    (parent : Option InterpId) : (w.newInterp name safe parent).2.Books dying due off := by
  refine hw.of_watches rfl rfl ?_ subset_rfl (hw.slated.newInterp name safe parent)
  rintro j h ⟨r, hr, hhook, hdying⟩
  refine .inr ⟨⟨r, ?_, hhook, hdying⟩, id⟩
  rw [get?_newInterp, if_neg (Nat.ne_of_gt (htidy.known j r hr)), hr]

theorem ages_newInterp (w : World) (name : String) (safe : Bool) (parent : Option InterpId) :
    Ages ∅ w (w.newInterp name safe parent).2 :=
  .of_standing_eq (fun _ => rfl) rfl (fun _ => rfl) id fun _ _ => id

theorem standing?_modifyInterp (w : World) (i : InterpId) (m : Interpreter → Interpreter)
    (k : HandleId) : (w.modifyInterp i m).standing? k = w.standing? k :=
  rfl

theorem hub_modifyInterp (w : World) (i : InterpId) (m : Interpreter → Interpreter) :
    (w.modifyInterp i m).hub = w.hub :=
  rfl

theorem callWhenDeleted_of_live (hlive : (w.interp i).deleted = false) (hook : DeleteHook) :
    w.callWhenDeleted i hook =
      w.modifyInterp i fun r => { r with deleteHooks := r.deleteHooks ++ [hook] } := by
  rw [callWhenDeleted, runDeleteHook, hlive]
  rfl

/-! ### The entry of a new handle -/

theorem Books.standing_nextHandle (hw : w.Books dying due off) :
    w.standing? w.hub.nextHandle = none := by
  cases hs : w.standing? w.hub.nextHandle with
  | none => rfl
  | some s => exact absurd (hw.known _ s hs) (Nat.lt_irrefl _)

/-- What the ledger says about a new handle that nobody holds yet. -/
def newStanding (w : World) (i : InterpId) : Standing :=
  ⟨w.current, false, some i, false, 0⟩

theorem standing?_addHandle (w : World) (i : InterpId) (config : HandleConfig) (k : HandleId) :
    (w.addHandle i config).2.standing? k =
      if w.hub.nextHandle = k then some (w.newStanding i) else w.standing? k := by
  have hget := Table.get?_insert w.handles w.hub.nextHandle k
    { owner := w.current, name := (w.interp i).name, safe := (w.interp i).safe,
      timerMs := config.timerMs, config, interp := some i }
  rw [standing?, standing?]
  refine (congrArg (Option.map Handle.standing) hget).trans ?_
  split <;> rfl

/-- No work waits for a new handle. -/
theorem Waits.of_addHandle {config : HandleConfig} {k : HandleId} {queued : Queued}
    (h' : (w.addHandle i config).2.Waits k queued) : w.Waits k queued := by
  obtain ⟨handle, hhandle, hqueued⟩ := h'
  have hget := Table.get?_insert w.handles w.hub.nextHandle k
    { owner := w.current, name := (w.interp i).name, safe := (w.interp i).safe,
      timerMs := config.timerMs, config, interp := some i }
  replace hhandle := hget.symm.trans hhandle
  split at hhandle
  · cases hhandle
    cases hqueued
  · exact ⟨handle, hhandle, hqueued⟩

theorem Books.addHandle (hw : w.Books dying due off) (i : InterpId) (config : HandleConfig) :
    (w.addHandle i config).2.Books dying (insert w.hub.nextHandle due)
      (insert w.hub.nextHandle off) := by
  have hnext := hw.standing_nextHandle
  refine ⟨?_, fun k s hs => ?_, fun k hk => ?_, hw.sorted, fun k s hs => ?_,
    hw.slated.rests rfl (.refl _)⟩
  · have hnot : w.hub.nextHandle ∉ w.handles.keys := by
      rwa [standing?, Option.map_eq_none_iff, Table.get?_eq_none_iff] at hnext
    have hkeys : (w.addHandle i config).2.handles.keys = w.handles.keys ++ [w.hub.nextHandle] :=
      Table.keys_insert_of_not_mem hnot _
    rw [hkeys, List.nodup_append]
    refine ⟨hw.keys, List.pairwise_singleton _ _, fun k hk l hl => ?_⟩
    rw [List.mem_singleton.1 hl]
    rintro rfl
    exact hnot hk
  · rw [standing?_addHandle] at hs
    split at hs
    · next hk =>
      subst hk
      exact Nat.lt_succ_self _
    · exact Nat.lt_succ_of_lt (hw.known k s hs)
  · exact Nat.lt_succ_of_lt (hw.registered k hk)
  · rw [standing?_addHandle] at hs
    split at hs
    · next hk =>
      subst hk
      cases hs
      refine ⟨fun _ => rfl, fun i _ => .inl (Set.mem_insert _ _), fun hp => ?_, fun hheld _ => ?_,
        fun hheld _ => ?_⟩
      · cases hp
      · exact .inl (Set.mem_insert _ _)
      · exact .inl (Set.mem_insert _ _)
    · refine (hw.fits k s hs).of_watches (fun i hwatch => .inr ⟨hwatch, id⟩) id ?_ ?_
      · exact Set.mem_insert_of_mem _
      · exact Set.mem_insert_of_mem _

/-! ### Adopting an interpreter -/

/-- The changes of the interpreter that gets a handle: it knows the commands of the handle, adopts
its children and takes the handle off the ledger when it is deleted. -/
def outfit (w : World) (i : InterpId) (config : HandleConfig) : World :=
  let h := w.hub.nextHandle
  let w := ((w.addHandle i config).2.defineCommand i "host_callback" (.callback h)).defineCommand i
    "host_eval" (.evaluator h)
  w.modifyInterp i fun r => { r with childHooks := r.childHooks ++ [.adopt config] }

theorem deleted_outfit (w : World) (i j : InterpId) (config : HandleConfig) :
    ((w.outfit i config).interp j).deleted = (w.interp j).deleted := by
  have hdefine (w : World) (name : String) (command : Command) :
      ((w.defineCommand i name command).interp j).deleted = (w.interp j).deleted := by
    apply deleted_modifyInterp
    intro r
    split <;> rfl
  have hhook (w : World) : ((w.modifyInterp i fun r =>
      { r with childHooks := r.childHooks ++ [.adopt config] }).interp j).deleted =
        (w.interp j).deleted := by
    apply deleted_modifyInterp
    intro r
    rfl
  exact (hhook _).trans ((hdefine _ _ _).trans (hdefine _ _ _))

theorem adopt_of_live (hlive : (w.interp i).deleted = false) (config : HandleConfig) :
    (w.adopt i config).2 =
      ((w.outfit i config).modifyInterp i fun r =>
        { r with deleteHooks := r.deleteHooks ++ [.untrack w.hub.nextHandle] }).track
          w.hub.nextHandle := by
  have hlive' : ((w.outfit i config).interp i).deleted = false := by
    rwa [deleted_outfit]
  exact congrArg (track · w.hub.nextHandle)
    (callWhenDeleted_of_live hlive' (.untrack w.hub.nextHandle))

theorem Books.outfit (hw : w.Books dying due off) (i : InterpId) (config : HandleConfig) :
    (w.outfit i config).Books dying (insert w.hub.nextHandle due)
      (insert w.hub.nextHandle off) := by
  have hdefine {w : World} {due off : Set HandleId} (hw : w.Books dying due off) (name : String)
      (command : Command) : (w.defineCommand i name command).Books dying due off :=
    hw.edit (.define name command) i
  exact (hdefine (hdefine (hw.addHandle i config) _ _) _ _).edit (.onChild _) i

/-- Beside its interpreters, the world gets one entry. -/
theorem outfit_eq (w : World) (i : InterpId) (config : HandleConfig) :
    ∃ interps, w.outfit i config = { (w.addHandle i config).2 with interps } :=
  ⟨_, rfl⟩

theorem standing?_outfit (w : World) (i : InterpId) (config : HandleConfig) (k : HandleId) :
    (w.outfit i config).standing? k =
      if w.hub.nextHandle = k then some (w.newStanding i) else w.standing? k := by
  obtain ⟨interps, houtfit⟩ := outfit_eq w i config
  rw [houtfit]
  exact standing?_addHandle w i config k

theorem hub_outfit (w : World) (i : InterpId) (config : HandleConfig) :
    (w.outfit i config).hub = { w.hub with nextHandle := w.hub.nextHandle + 1 } := by
  obtain ⟨interps, houtfit⟩ := outfit_eq w i config
  rw [houtfit]
  rfl

theorem Books.track (hw : w.Books dying due off) (hnext : h < w.hub.nextHandle)
    (hlast : ∀ k ∈ w.hub.registry, k < h) : (w.track h).Books dying due off := by
  refine ⟨hw.keys, hw.known, fun k hk => ?_, ?_, fun k s hs => ?_, hw.slated.rests rfl (.refl _)⟩
  · rcases List.mem_append.1 hk with hold | hnew
    · exact hw.registered k hold
    · rw [List.mem_singleton.1 hnew]
      exact hnext
  · refine List.pairwise_append.2 ⟨hw.sorted, List.pairwise_singleton _ _, fun k hk l hl => ?_⟩
    rw [List.mem_singleton.1 hl]
    exact hlast k hk
  · refine (hw.fits k s hs).of_watches (fun i hwatch => .inr ⟨hwatch, id⟩) (fun hk => ?_) id id
    exact List.mem_append_left _ hk

/-- Beside its interpreters, the world gets one entry, which is listed. -/
theorem adopt_eq_of_live (hlive : (w.interp i).deleted = false) (config : HandleConfig) :
    ∃ interps, (w.adopt i config).2 =
      track { (w.addHandle i config).2 with interps } w.hub.nextHandle := by
  rw [adopt_of_live hlive]
  exact ⟨_, rfl⟩

theorem standing?_adopt (hlive : (w.interp i).deleted = false) (config : HandleConfig)
    (k : HandleId) :
    (w.adopt i config).2.standing? k =
      if w.hub.nextHandle = k then some (w.newStanding i) else w.standing? k := by
  obtain ⟨interps, hadopt⟩ := adopt_eq_of_live hlive config
  rw [hadopt]
  exact standing?_addHandle w i config k

theorem threads_adopt (hlive : (w.interp i).deleted = false) (config : HandleConfig) :
    (w.adopt i config).2.threads = w.threads := by
  obtain ⟨interps, hadopt⟩ := adopt_eq_of_live hlive config
  rw [hadopt]
  rfl

theorem current_adopt (hlive : (w.interp i).deleted = false) (config : HandleConfig) :
    (w.adopt i config).2.current = w.current := by
  obtain ⟨interps, hadopt⟩ := adopt_eq_of_live hlive config
  rw [hadopt]
  rfl

theorem Waits.of_adopt (hlive : (w.interp i).deleted = false) {config : HandleConfig}
    {k : HandleId} {queued : Queued} (h' : (w.adopt i config).2.Waits k queued) :
    w.Waits k queued := by
  obtain ⟨interps, hadopt⟩ := adopt_eq_of_live hlive config
  rw [hadopt] at h'
  exact Waits.of_addHandle (h'.of_handles_eq rfl)

theorem mem_registry_adopt (hlive : (w.interp i).deleted = false) (config : HandleConfig) :
    w.hub.nextHandle ∈ (w.adopt i config).2.hub.registry := by
  obtain ⟨interps, hadopt⟩ := adopt_eq_of_live hlive config
  rw [hadopt]
  exact List.mem_append_right _ (List.mem_singleton_self _)

theorem deleted_adopt (hlive : (w.interp i).deleted = false) (config : HandleConfig) (j : InterpId) :
    ((w.adopt i config).2.interp j).deleted = (w.interp j).deleted := by
  rw [adopt_of_live hlive, ← deleted_outfit w i j config]
  apply deleted_modifyInterp
  intro r
  rfl

/-- A new handle is not due any more when its interpreter has the hook. -/
theorem Books.settle (hw : w.Books dying (insert h due) off) {s : Standing}
    (hs : w.standing? h = some s) (hinterp : s.interp = some i) (hpinned : s.pinned = false)
    (hwatch : w.Watches dying i h) : w.Books dying due off := by
  refine hw.amend (h := h) (.of_rests (.refl w)) (fun s' hs' => ?_) (fun k hk hne => ?_)
    fun k hk _ => hk
  · rw [hs] at hs'
    cases hs'
    have hfits := hw.fits h s hs
    refine ⟨hfits.fresh, fun j hj => ?_, fun hp => ?_, hfits.kept, hfits.listed⟩
    · rw [id, hinterp] at hj
      cases hj
      exact .inr hwatch
    · rw [id, hpinned] at hp
      cases hp
  · exact hk.resolve_left (Ne.symm hne)

/-- The handle that an interpreter got is off until somebody holds it. -/
theorem Books.adopt (hw : w.Books dying due off) (hlive : (w.interp i).deleted = false)
    (config : HandleConfig) :
    (w.adopt i config).2.Books dying due (insert w.hub.nextHandle off) := by
  rw [adopt_of_live hlive]
  have hlive' : ((w.outfit i config).interp i).deleted = false := by
    rwa [deleted_outfit]
  have hhooked := (hw.outfit i config).edit (.onDelete (.untrack w.hub.nextHandle)) i
  have hs := standing?_outfit w i config w.hub.nextHandle
  rw [if_pos rfl, ← standing?_modifyInterp _ i] at hs
  refine Books.track (hhooked.settle hs rfl rfl ?_) ?_ ?_
  · refine ⟨_, get?_of_live ?_, ?_, fun hd => ?_⟩
    all_goals rw [interp_modifyInterp_of_live hlive'] at *
    · exact hlive'
    · exact List.mem_append_right _ (List.mem_singleton_self _)
    · exact absurd hd (by simp [hlive'])
  · rw [hub_modifyInterp, hub_outfit]
    exact Nat.lt_succ_self _
  · rw [hub_modifyInterp, hub_outfit]
    exact hw.registered

/-- When somebody holds the new handle, the books agree. -/
theorem Books.adopted (hw : w.Books dying due off) (hlive : (w.interp i).deleted = false)
    {config : HandleConfig} (h' : Amends w.hub.nextHandle f (w.adopt i config).2 w')
    (hregistry : w'.hub.registry = (w.adopt i config).2.hub.registry)
    (hinterp : (f (w.newStanding i)).interp = some i)
    (hfresh : (f (w.newStanding i)).deleted = false) : w'.Books dying due off := by
  have hadopt := hw.adopt hlive config
  have hs : (w.adopt i config).2.standing? w.hub.nextHandle = some (w.newStanding i) :=
    (standing?_adopt hlive config _).trans (if_pos rfl)
  have hwatch : w.hub.nextHandle ∈ due ∨ w'.Watches dying i w.hub.nextHandle := by
    rw [watches_congr h'.interpreters]
    exact (hadopt.fits _ _ hs).watched i rfl
  refine hadopt.amend h' (fun s hs' => ?_) (fun k hk _ => hk) fun k hk hne => ?_
  · rw [hs] at hs'
    cases hs'
    refine ⟨fun _ => hfresh, fun j hj => ?_, fun _ hnone => ?_, fun _ _ => ?_, fun _ _ => ?_⟩
    · rw [hinterp] at hj
      cases hj
      exact hwatch
    · rw [hinterp] at hnone
      cases hnone
    · rw [hinterp]
      exact .inr rfl
    · rw [hregistry]
      exact .inr (mem_registry_adopt hlive config)
  · exact hk.resolve_left (Ne.symm hne)

theorem ages_adopted (hfresh : w.standing? w.hub.nextHandle = none)
    (hlive : (w.interp i).deleted = false) {config : HandleConfig}
    (h' : Amends w.hub.nextHandle f (w.adopt i config).2 w')
    (howner : (f (w.newStanding i)).owner = w.current)
    (hheld : (f (w.newStanding i)).held = true) : Ages ∅ w w' := by
  have hnew : w'.standing? w.hub.nextHandle = some (f (w.newStanding i)) := by
    rw [h'.standing_self, standing?_adopt hlive, if_pos rfl, Option.map_some]
  have hold {k : HandleId} (hk : w.hub.nextHandle ≠ k) : w'.standing? k = w.standing? k := by
    rw [h'.standing_of_ne hk, standing?_adopt hlive, if_neg hk]
  refine ⟨fun k s hs => ⟨s, ?_, .refl s⟩, fun k s' hs' hs => ?_, fun k s' hs' hgoing => ?_, ?_,
    fun t => ?_, fun hpassive => h'.threads.passive ?_,
    fun k queued hq => .of_adopt hlive (h'.waits k queued hq)⟩
  · rw [hold, hs]
    rintro rfl
    rw [hfresh] at hs
    cases hs
  · by_cases hk : w.hub.nextHandle = k
    · subst hk
      rw [hnew] at hs'
      cases hs'
      exact howner
    · rw [hold hk, hs] at hs'
      cases hs'
  · by_cases hk : w.hub.nextHandle = k
    · subst hk
      rw [hnew] at hs'
      cases hs'
      exact absurd (hgoing.1.symm.trans hheld) Bool.false_ne_true
    · rw [hold hk] at hs'
      exact .inr ⟨s', hs', hgoing⟩
  · rw [h'.current, current_adopt hlive]
  · rw [h'.threads.isSome_eq, threads_adopt hlive]
  · rw [Passive, threads_adopt hlive]
    exact hpassive

/-! ### Children and new handles -/

theorem live_newInterp_self (w : World) (name : String) (safe : Bool) (parent : Option InterpId) :
    ((w.newInterp name safe parent).2.interp w.nextInterp).deleted = false := by
  have hget := get?_newInterp w name safe parent w.nextInterp
  rw [if_pos rfl] at hget
  rw [interp_of_get? hget]
  rfl

theorem amends_pin (w : World) (h : HandleId) :
    Amends h (fun s => { s with pinned := true }) w
      (w.modifyHandle h fun handle => { handle with pinned := true }) := by
  apply amends_modifyHandle
  intro handle
  exact ⟨rfl, rfl⟩

/-- A hook of the parent makes the child's handle, which the owning thread holds, or only logs. -/
theorem Books.runChildHook (hw : w.Books dying due off) (hlive : (w.interp i).deleted = false)
    (hook : ChildHook) :
    (runChildHook i w hook).Books dying due off ∧ Ages ∅ w (runChildHook i w hook) ∧
      ((runChildHook i w hook).interp i).deleted = false := by
  cases hook with
  | log label =>
    have hrests : w.Rests (World.runChildHook i w (.log label)) := .of_tables_eq rfl
    exact ⟨hw.rests hrests, .of_rests hrests, hlive⟩
  | adopt config =>
    have hpin := amends_pin (w.adopt i { config with safe := (w.interp i).safe }).2 w.hub.nextHandle
    refine ⟨hw.adopted hlive hpin rfl rfl rfl, ?_, ?_⟩
    · exact ages_adopted hw.standing_nextHandle hlive hpin rfl rfl
    · exact (deleted_adopt hlive _ i).trans hlive

theorem Books.foldl_runChildHook (hw : w.Books dying due off)
    (hlive : (w.interp i).deleted = false) (hooks : List ChildHook) :
    (hooks.foldl (World.runChildHook i) w).Books dying due off ∧
      Ages ∅ w (hooks.foldl (World.runChildHook i) w) := by
  induction hooks generalizing w with
  | nil => exact ⟨hw, .refl w⟩
  | cons hook hooks ih =>
    obtain ⟨hbooks, hages, hlive'⟩ := hw.runChildHook hlive hook
    obtain ⟨hbooks', hages'⟩ := ih hbooks hlive'
    exact ⟨hbooks', hages.trans_empty hages'⟩

theorem Books.createChild (hw : w.Books dying due off) (htidy : w.Tidy) (parent : InterpId)
    (name : String) (safe : Bool) :
    (w.createChild parent name safe).2.Books dying due off ∧
      Ages ∅ w (w.createChild parent name safe).2 := by
  rw [World.createChild]
  dsimp only
  split
  · exact ⟨hw, .refl w⟩
  · split
    · exact ⟨hw, .refl w⟩
    · split
      · exact ⟨hw, .refl w⟩
      · have hnew := hw.newInterp htidy name (safe || (w.interp parent).safe) (some parent)
        have hlisted := hnew.of_plans_eq
          (g := fun p => { p with children := p.children.insert name w.nextInterp }) parent
          fun r => rfl
        have hlive := live_newInterp_self w name (safe || (w.interp parent).safe) (some parent)
        obtain ⟨hbooks, hages⟩ := hlisted.foldl_runChildHook (i := w.nextInterp)
          (by rwa [deleted_modifyInterp fun p => by rfl]) (w.interp parent).childHooks
        refine ⟨hbooks, .trans_empty ?_ hages⟩
        exact (ages_newInterp w _ _ _).trans_empty (ages_modifyInterp _ parent _)

theorem Books.found (hw : w.Books dying due off) (htidy : w.Tidy) (config : HandleConfig) :
    (w.found config).2.Books dying due off ∧ Ages ∅ w (w.found config).2 := by
  have hnew := hw.newInterp htidy "" config.safe none
  have hlive := live_newInterp_self w "" config.safe none
  have hhold := amends_hold ((w.newInterp "" config.safe none).2.adopt w.nextInterp config).2
    w.hub.nextHandle
  refine ⟨hnew.adopted hlive hhold rfl rfl rfl, (ages_newInterp w "" config.safe none).trans_empty ?_⟩
  exact ages_adopted hnew.standing_nextHandle hlive hhold rfl rfl

theorem Held.hold (hheld : w.Held h) : (w.hold h).Held h := by
  obtain ⟨s, hs, -⟩ := hheld
  have hstanding := (amends_hold w h).standing_self
  rw [hs, Option.map_some] at hstanding
  refine ⟨_, hstanding, ?_⟩
  simp [Standing.held]

/-- Whoever asked for a new handle holds it. -/
theorem held_found (w : World) (config : HandleConfig) :
    (w.found config).2.Held (w.found config).1 := by
  have hlive := live_newInterp_self w "" config.safe none
  have hhold := amends_hold ((w.newInterp "" config.safe none).2.adopt w.nextInterp config).2
    w.hub.nextHandle
  have hnew := (standing?_adopt hlive config w.hub.nextHandle).trans (if_pos rfl)
  have hstanding := hhold.standing_self
  rw [hnew, Option.map_some] at hstanding
  exact ⟨_, hstanding, rfl⟩

end World

end ScriptHost
