import ScriptHost.Proofs.Callbacks.History
import ScriptHost.Proofs.Run.Carry

/-!
# What happens to registries of closures

Nearly everything that happens in a world leaves the registries of its handles alone. A registry
changes when a closure runs that registers or removes another one, and it is emptied when its handle
is deleted.
-/

namespace ScriptHost

open Callbacks (Change)

/-- The change of a registry that a closure asks for. -/
def Closure.asks? : Closure → Option Change
  | .register _ closure => some (.register closure)
  | .unregister _ id => some (.unregister id)
  | _ => none

/-- The change that is asked for when a closure begins to run. -/
def Incident.asks? (incident : Incident) : Option Change :=
  match incident.what with
  | .ran closure => closure.asks?
  | _ => none

/-- Whether a change is made because a closure asks for it. -/
def Callbacks.Change.isAsked : Change → Bool
  | .register _ => true
  | .unregister _ => true
  | .clear => false

namespace World

variable {w u w' : World} {h : HandleId} {made later : List Change}

/-- The registry of a handle. -/
def registryOf (w : World) (h : HandleId) : Option Callbacks :=
  (w.handles.get? h).map (·.callbacks)

/-- Make a change of the registry of a handle. -/
def changeRegistry (w : World) (h : HandleId) (change : Change) : World :=
  w.modifyHandle h fun handle => { handle with callbacks := handle.callbacks.apply change }

/-- The changes that closures asked for between two worlds, in order. -/
def asked (w w' : World) : List Change :=
  (news w w').reverse.filterMap Incident.asks?

/-- Every handle has a number below the next one. -/
def HandlesNumbered (w : World) : Prop :=
  ∀ h, (w.handles.get? h).isSome = true → h < w.hub.nextHandle

/-- The registry of a handle went through some changes. Those that are made because closures ask for
them were asked for in this order, and all closures are removed at once only from a deleted handle. -/
structure Undergoes (h : HandleId) (made : List Change) (w w' : World) : Prop where
  grows : w.trace <:+ w'.trace
  registry : w'.registryOf h = (w.registryOf h).map (·.replay made)
  asked : (made.filter (·.isAsked)).Sublist (asked w w')
  cleared : .clear ∈ made → w'.isDeleted h = true
  deleted : w.isDeleted h = true → w'.isDeleted h = true

/-- Every registry goes on from what it was. -/
def Continues (w w' : World) : Prop :=
  w.HandlesNumbered → w'.HandlesNumbered ∧
    ∀ h, (w.handles.get? h).isSome = true → ∃ made, Undergoes h made w w'

/-- The registry of a handle, and whether the handle is deleted. -/
def filed? (w : World) (h : HandleId) : Option (Callbacks × Bool) :=
  (w.handles.get? h).map fun handle => (handle.callbacks, handle.deleted)

/-- What is filed for the handles, the number of the next handle, and what happened so far. -/
def registers (w : World) : (HandleId → Option (Callbacks × Bool)) × HandleId × List Incident :=
  (w.filed?, w.hub.nextHandle, w.trace)

theorem registryOf_eq (w : World) (h : HandleId) : w.registryOf h = (w.filed? h).map Prod.fst := by
  rw [registryOf, filed?, Option.map_map]
  rfl

theorem isDeleted_eq (w : World) (h : HandleId) :
    w.isDeleted h = ((w.filed? h).map Prod.snd).any id := by
  rw [isDeleted, filed?]
  cases w.handles.get? h <;> rfl

theorem isSome_filed? (w : World) (h : HandleId) :
    (w.filed? h).isSome = (w.handles.get? h).isSome :=
  Option.isSome_map

/-! ### Going on -/

theorem Undergoes.trans (hfirst : Undergoes h made w u) (hthen : Undergoes h later u w') :
    Undergoes h (made ++ later) w w' := by
  have hasked : World.asked w w' = World.asked w u ++ World.asked u w' := by
    rw [World.asked, news_trans hfirst.grows hthen.grows, List.reverse_append, List.filterMap_append]
    rfl
  refine ⟨hfirst.grows.trans hthen.grows, ?_, ?_, fun hmem => ?_, hthen.deleted ∘ hfirst.deleted⟩
  · rw [hthen.registry, hfirst.registry, Option.map_map]
    congr 1
    funext c
    exact (c.replay_append made later).symm
  · rw [List.filter_append, hasked]
    exact hfirst.asked.append hthen.asked
  · rcases List.mem_append.1 hmem with hmem | hmem
    · exact hthen.deleted (hfirst.cleared hmem)
    · exact hthen.cleared hmem

theorem Undergoes.isSome (h' : Undergoes h made w w') (hw : (w.handles.get? h).isSome = true) :
    (w'.handles.get? h).isSome = true := by
  have hregistry := congrArg Option.isSome h'.registry
  rw [Option.isSome_map, registryOf, registryOf, Option.isSome_map, Option.isSome_map] at hregistry
  exact hregistry.trans hw

/-- The registry of a handle stays as it is. -/
theorem Undergoes.of_filed?_eq (hgrows : w.trace <:+ w'.trace) (hfiled : w'.filed? h = w.filed? h) :
    Undergoes h [] w w' := by
  refine ⟨hgrows, ?_, List.nil_sublist _, fun hmem => absurd hmem List.not_mem_nil, ?_⟩
  · rw [registryOf_eq, registryOf_eq, hfiled]
    exact Option.map_id'.symm
  · rw [isDeleted_eq, isDeleted_eq, hfiled]
    exact id

theorem Continues.of_registers_eq (h : w'.registers = w.registers) : w.Continues w' := by
  have hfiled : w'.filed? = w.filed? := congrArg Prod.fst h
  have htrace : w'.trace = w.trace := congrArg (·.2.2) h
  refine fun hw => ⟨fun k hk => ?_, fun k _ => ⟨[], .of_filed?_eq ?_ (congrFun hfiled k)⟩⟩
  · rw [← isSome_filed?, hfiled, isSome_filed?] at hk
    exact (hw k hk).trans_eq (congrArg (·.2.1) h).symm
  · rw [htrace]

theorem Continues.refl (w : World) : w.Continues w :=
  .of_registers_eq rfl

theorem Continues.trans (hfirst : w.Continues u) (hthen : u.Continues w') : w.Continues w' := by
  intro hw
  obtain ⟨hu, hfirst⟩ := hfirst hw
  obtain ⟨hw', hthen⟩ := hthen hu
  refine ⟨hw', fun h hh => ?_⟩
  obtain ⟨made, hmade⟩ := hfirst h hh
  obtain ⟨later, hlater⟩ := hthen h (hmade.isSome hh)
  exact ⟨made ++ later, hmade.trans hlater⟩

theorem Continues.foldl {α : Type} {f : World → α → World}
    (hf : ∀ (w : World) (a : α), w.Continues (f w a))
    (as : List α) (w : World) : w.Continues (as.foldl f w) := by
  induction as generalizing w with
  | nil => exact .refl w
  | cons a as ih => exact (hf w a).trans (ih _)

/-- Whatever happens, the registries stay as they are while it is noted. -/
theorem continues_record (w : World) (what : Occurrence) : w.Continues (w.record what) :=
  fun hw => ⟨hw, fun _ _ => ⟨[], .of_filed?_eq (List.suffix_cons _ _) rfl⟩⟩

/-! ### Handles -/

/-- A handle changes apart from its registry and from being deleted. -/
theorem registers_modifyHandle (w : World) (h : HandleId) {f : Handle → Handle}
    (hf : ∀ handle, (f handle).callbacks = handle.callbacks ∧ (f handle).deleted = handle.deleted) :
    (w.modifyHandle h f).registers = w.registers := by
  have hfiled : (w.modifyHandle h f).filed? = w.filed? := by
    funext k
    rw [filed?, modifyHandle, Table.get?_modify]
    split
    · rw [Option.map_map]
      refine congrArg (Option.map · _) (funext fun handle => ?_)
      exact Prod.ext (hf handle).1 (hf handle).2
    · rfl
  exact Prod.ext hfiled rfl

theorem HandlesNumbered.modifyHandle (hw : w.HandlesNumbered) (h : HandleId) (f : Handle → Handle) :
    (w.modifyHandle h f).HandlesNumbered := by
  intro k hk
  rw [World.modifyHandle, Table.get?_modify] at hk
  refine hw k ?_
  split at hk
  · rwa [Option.isSome_map] at hk
  · exact hk

/-- A handle changes, and its registry goes through some changes with it. -/
theorem continues_modify (made : List Change) {f : Handle → Handle} (hhandles : u.handles = w.handles)
    (hnext : u.hub.nextHandle = w.hub.nextHandle) (hgrows : w.trace <:+ u.trace)
    (hasked : (made.filter (·.isAsked)).Sublist (World.asked w u))
    (hf : ∀ handle, w.handles.get? h = some handle →
      (f handle).callbacks = handle.callbacks.replay made ∧
        (.clear ∈ made ∨ handle.deleted = true → (f handle).deleted = true)) :
    w.Continues (u.modifyHandle h f) := by
  have hget (k : HandleId) : (u.modifyHandle h f).handles.get? k =
      if h = k then (w.handles.get? k).map f else w.handles.get? k :=
    hhandles ▸ Table.get?_modify u.handles h k f
  refine fun hw => ⟨.modifyHandle (fun k hk => ?_) h f, fun k hk => ?_⟩
  · rw [hhandles] at hk
    exact (hw k hk).trans_eq hnext.symm
  · by_cases hself : h = k
    · subst hself
      obtain ⟨handle, hhandle⟩ := Option.isSome_iff_exists.1 hk
      obtain ⟨hcallbacks, hdeleted⟩ := hf handle hhandle
      have hchanged : (u.modifyHandle h f).handles.get? h = some (f handle) := by
        rw [hget, if_pos rfl, hhandle, Option.map_some]
      refine ⟨made, hgrows, ?_, hasked, fun hmem => ?_, fun hgone => ?_⟩
      · rw [registryOf, registryOf, hchanged, hhandle]
        exact congrArg some hcallbacks
      · rw [isDeleted, hchanged]
        exact hdeleted (.inl hmem)
      · rw [isDeleted, hhandle] at hgone
        rw [isDeleted, hchanged]
        exact hdeleted (.inr hgone)
    · refine ⟨[], .of_filed?_eq hgrows ?_⟩
      rw [filed?, hget, if_neg hself, filed?]

/-- A closure begins to run, and the change is made that it asks for. -/
theorem continues_change {closure : Closure} {change : Change} (hasks : closure.asks? = some change)
    (hasked : change.isAsked = true) (w : World) (h : HandleId) :
    w.Continues ((w.record (.ran closure)).changeRegistry h change) := by
  refine continues_modify [change] rfl rfl (List.suffix_cons _ _) ?_ fun handle _ => ⟨rfl, ?_⟩
  · have hnews : World.asked w (w.record (.ran closure)) = [change] := by
      rw [World.asked, news_record, List.reverse_singleton]
      exact List.filterMap_cons_some hasks
    rw [hnews, List.filter_cons_of_pos hasked]
    exact List.Sublist.refl _
  · rintro (hclear | hgone)
    · rw [← List.mem_singleton.1 hclear] at hasked
      cases hasked
    · exact hgone

/-! ### Work and its replies -/

theorem registers_foldl {α : Type} {f : World → α → World}
    (hf : ∀ (w : World) (a : α), (f w a).registers = w.registers) (as : List α) (w : World) :
    (as.foldl f w).registers = w.registers := by
  induction as generalizing w with
  | nil => rfl
  | cons a as ih => rw [List.foldl_cons, ih, hf]

theorem registers_answerQueued (w : World) (queued : Queued) (envelope : Envelope) :
    (w.answerQueued queued envelope).registers = w.registers := by
  rw [answerQueued]
  split <;> rfl

theorem registers_drainMailbox (w : World) (h : HandleId) (error : HostError) :
    (w.drainMailbox h error).registers = w.registers := by
  rw [drainMailbox]
  split
  · rfl
  · dsimp only
    rw [registers_foldl fun w queued => registers_answerQueued w queued _]
    exact registers_modifyHandle w h (by simp)

theorem registers_loseReplies (w : World) (pending : List Queued) :
    (w.loseReplies pending).registers = w.registers := by
  refine registers_foldl (fun w queued => ?_) pending w
  split <;> rfl

theorem registers_alertAll (w : World) : w.alertAll.registers = w.registers :=
  registers_foldl (f := alert) (fun _ _ => rfl) _ w

theorem registers_submit (w : World) (h : HandleId) (work : Work) (reply : Option ReplyId) :
    (w.submit h work reply).2.registers = w.registers := by
  rw [submit]
  split
  · rfl
  · split
    · rfl
    · next handle _ =>
      have hpush : (w.modifyHandle h fun handle =>
          { handle with mailbox := handle.mailbox.push ⟨work, reply⟩ }).registers = w.registers :=
        registers_modifyHandle w h (by simp)
      dsimp only
      split
      · dsimp only
        split
        · rw [registers_drainMailbox]
          exact hpush
        · exact hpush
      · rw [registers_drainMailbox]
        exact hpush

theorem registers_takeWork? {queued : Queued} (htake : w.takeWork? h = some (queued, w')) :
    w'.registers = w.registers := by
  rw [takeWork?] at htake
  split at htake
  · cases htake
  · split at htake
    · obtain ⟨⟨_, mailbox⟩, -, hw⟩ := Option.map_eq_some_iff.1 htake
      cases hw
      exact (registers_modifyHandle _ h (by simp)).trans (registers_modifyHandle w h (by simp))
    · cases htake

/-! ### Deletions -/

/-- A handle that is deleted loses its closures. -/
theorem continues_markDeleted (w : World) (h : HandleId) : w.Continues (w.markDeleted h) := by
  rw [markDeleted]
  split
  · exact .refl w
  · next handle hhandle =>
    split
    · exact .refl w
    · let marked := w.modifyHandle h fun handle => { handle with deleted := true }
      let drained := (marked.unregister h).drainMailbox h .deleted
      have hmarked : w.Continues marked :=
        continues_modify [] rfl rfl List.suffix_rfl (List.nil_sublist _)
          fun _ _ => ⟨rfl, fun _ => rfl⟩
      have hdrained : drained.registers = marked.registers := registers_drainMailbox _ h _
      refine (hmarked.trans (.of_registers_eq hdrained)).trans ?_
      refine continues_modify [.clear] rfl rfl List.suffix_rfl (List.nil_sublist _)
        fun last hlast => ⟨rfl, fun _ => ?_⟩
      have hget : marked.handles.get? h = some { handle with deleted := true } := by
        refine (Table.get?_modify w.handles h h _).trans ?_
        rw [if_pos rfl, hhandle, Option.map_some]
      have hfiled : drained.filed? h = marked.filed? h := congrFun (congrArg Prod.fst hdrained) h
      rw [filed?, filed?, hlast, hget, Option.map_some, Option.map_some, Option.some_inj] at hfiled
      exact congrArg Prod.snd hfiled

theorem continues_untrack (w : World) (h : HandleId) : w.Continues (w.untrack h) := by
  let unbound := (w.modifyHandle h fun handle => { handle with interp := none }).unregister h
  have hunbound : w.Continues unbound := .of_registers_eq (registers_modifyHandle w h (by simp))
  have hunpin (w : World) :
      w.Continues (w.modifyHandle h fun handle => { handle with pinned := false }) :=
    .of_registers_eq (registers_modifyHandle w h (by simp))
  rw [untrack]
  refine .trans ?_ (hunpin _)
  split
  · split
    · exact hunbound.trans (continues_markDeleted unbound h)
    · exact hunbound
  · exact hunbound

theorem continues_cancelAfter (w : World) (token : AfterToken) :
    w.Continues (w.cancelAfter token) := by
  cases token <;> exact .of_registers_eq rfl

theorem continues_cancelAfters (w : World) (i : InterpId) : w.Continues (w.cancelAfters i) := by
  rw [cancelAfters]
  refine .trans ?_ (.foldl continues_cancelAfter _ _)
  exact .of_registers_eq rfl

theorem continues_detach (w : World) (r : Interpreter) : w.Continues (w.detach r) := by
  rw [detach]
  split <;> exact .of_registers_eq rfl

theorem continues_runDeleteHook {delete : InterpId → World → World}
    (hdelete : ∀ (i : InterpId) (w : World), w.Continues (delete i w)) (self : InterpId)
    (hook : DeleteHook) (w : World) : w.Continues (runDeleteHook delete self hook w) := by
  induction hook generalizing self w with
  | log label =>
    rw [runDeleteHook]
    exact .of_registers_eq rfl
  | untrack h =>
    rw [runDeleteHook]
    exact continues_untrack w h
  | delete i =>
    rw [runDeleteHook]
    exact hdelete i w
  | watch i hook ih =>
    rw [runDeleteHook]
    split
    · exact ih i w
    · exact .of_registers_eq rfl

theorem continues_deleteTree (fuel : Nat) (i : InterpId) (w : World) :
    w.Continues (deleteTree fuel i w) := by
  induction fuel generalizing i w with
  | zero => exact .refl w
  | succ fuel ih =>
    rw [deleteTree]
    dsimp only
    split
    · exact .refl w
    · have hchildren := Continues.foldl (fun w child => ih child w) (w.interp i).childIds
        (w.modifyInterp i Interpreter.condemn)
      have hcondemned : w.Continues (w.modifyInterp i Interpreter.condemn) := .of_registers_eq rfl
      have hseceded := ((hcondemned.trans hchildren).trans (continues_detach _ (w.interp i))).trans
        (continues_cancelAfters _ i)
      have hhooks (w : World) : w.Continues (runDeleteHooks (deleteTree fuel) i w) := by
        refine .trans ?_ (.foldl (fun w hook => continues_runDeleteHook ih i hook w) _ _)
        exact .of_registers_eq rfl
      exact (hseceded.trans (hhooks _)).trans (.of_registers_eq rfl)

theorem continues_delete (w : World) (i : InterpId) : w.Continues (w.delete i) :=
  continues_deleteTree _ i w

theorem continues_deleteInterp (w : World) (i : InterpId) : w.Continues (w.deleteInterp i) := by
  rw [deleteInterp]
  split
  · exact .of_registers_eq rfl
  · exact continues_delete w i

theorem continues_takeInterp (w : World) (h : HandleId) : w.Continues (w.takeInterp h).2 :=
  .of_registers_eq (registers_modifyHandle w h (by simp))

theorem continues_giveUp (w : World) (h : HandleId) : w.Continues (w.giveUp h) := by
  have htake := continues_takeInterp w h
  rw [giveUp]
  split
  · next i u hu =>
    rw [hu] at htake
    exact htake.trans (continues_deleteInterp u i)
  · next u hu =>
    rw [hu] at htake
    exact htake

theorem continues_deleteHandle (w : World) (h : HandleId) : w.Continues (w.deleteHandle h) := by
  rw [deleteHandle]
  split
  · exact .refl w
  · split
    · exact .refl w
    · split
      · exact (continues_giveUp w h).trans (continues_markDeleted _ h)
      · exact (continues_markDeleted w h).trans (.of_registers_eq rfl)

theorem continues_unhold (w : World) (h : HandleId) : w.Continues (w.unhold h) :=
  .of_registers_eq (registers_modifyHandle w h (by simp))

theorem continues_discard (w : World) (h : HandleId) : w.Continues (w.discard h) := by
  have hunhold := continues_unhold w h
  rw [discard]
  split
  · exact hunhold
  · split
    · exact hunhold
    · refine .trans ?_ (continues_giveUp _ h)
      exact hunhold.trans (.of_registers_eq rfl)

theorem continues_answerDetached (w : World) (queued : Queued) (envelope : Envelope) :
    w.Continues (w.answerDetached queued envelope) := by
  have hanswer : w.Continues (w.answerQueued queued envelope) :=
    .of_registers_eq (registers_answerQueued w queued envelope)
  unfold answerDetached
  split
  · split
    · exact hanswer.trans (continues_discard _ _)
    · exact hanswer
  · exact hanswer

/-! ### Making interpreters and handles -/

/-- A new handle has a registry of its own. -/
theorem continues_addHandle (w : World) (i : InterpId) (config : HandleConfig) :
    w.Continues (w.addHandle i config).2 := by
  intro hw
  have hget (k : HandleId) : ∃ handle, (w.addHandle i config).2.handles.get? k =
      if w.hub.nextHandle = k then some handle else w.handles.get? k :=
    ⟨_, Table.get?_insert _ _ _ _⟩
  refine ⟨fun k hk => ?_, fun k hk => ⟨[], .of_filed?_eq List.suffix_rfl ?_⟩⟩
  · obtain ⟨handle, hget⟩ := hget k
    rw [hget] at hk
    split at hk
    · next hlast =>
      subst hlast
      exact Nat.lt_succ_self _
    · exact Nat.lt_succ_of_lt (hw k hk)
  · obtain ⟨handle, hget⟩ := hget k
    rw [filed?, hget, if_neg (Nat.ne_of_gt (hw k hk)), filed?]

theorem continues_callWhenDeleted (w : World) (i : InterpId) (hook : DeleteHook) :
    w.Continues (w.callWhenDeleted i hook) :=
  continues_runDeleteHook (fun i w => continues_delete w i) i _ w

theorem continues_adopt (w : World) (i : InterpId) (config : HandleConfig) :
    w.Continues (w.adopt i config).2 := by
  have hlist (w : World) (h : HandleId) : w.Continues (w.track h) := .of_registers_eq rfl
  rw [adopt]
  refine .trans ?_ (hlist _ _)
  refine .trans ?_ (continues_callWhenDeleted _ i _)
  exact (continues_addHandle w i config).trans (.of_registers_eq rfl)

theorem continues_runChildHook (child : InterpId) (w : World) (hook : ChildHook) :
    w.Continues (runChildHook child w hook) := by
  cases hook with
  | log label => exact .of_registers_eq rfl
  | adopt config =>
    exact (continues_adopt w child _).trans (.of_registers_eq (registers_modifyHandle _ _ (by simp)))

theorem continues_createChild (w : World) (p : InterpId) (name : String) (safe : Bool) :
    w.Continues (w.createChild p name safe).2 := by
  rw [createChild]
  dsimp only
  split
  · exact .refl w
  · split
    · exact .refl w
    · split
      · exact .refl w
      · refine .trans ?_ (.foldl (fun w hook => continues_runChildHook _ w hook) _ _)
        exact .of_registers_eq rfl

/-! ### Pending work -/

theorem registers_scheduleAfter (w : World) (i : InterpId) (delay : Option Nat) (script : String) :
    (w.scheduleAfter i delay script).2.registers = w.registers := by
  cases delay <;> rfl

theorem registers_armKeepalive (w : World) (l : LoopId) :
    (w.armKeepalive l).registers = w.registers := by
  rcases armKeepalive_cases w l with hforgets | ⟨_, _, -, -, hadds⟩
  · rw [hforgets]
    rfl
  · rw [hadds]
    rfl

theorem registers_ensureArmed (w : World) (l : LoopId) :
    (w.ensureArmed l).registers = w.registers := by
  rw [ensureArmed]
  split
  · rfl
  · exact registers_armKeepalive w l

theorem registers_stopKeepalive (w : World) (l : LoopId) :
    (w.stopKeepalive l).registers = w.registers := by
  rcases stopKeepalive_cases w l with hforgets | ⟨_, _, -, -, hcancels⟩
  · rw [hforgets]
    rfl
  · rw [hcancels]
    rfl

/-! ### The end of a thread -/

theorem continues_endThread (w : World) (t : ThreadId) : w.Continues (w.endThread t) := by
  have horphans (w : World) : w.Continues (w.deleteOrphans t) := by
    refine .foldl (fun w orphan => ?_) _ w
    exact (continues_takeInterp w orphan.1).trans (continues_delete _ orphan.2)
  have hunpin (w : World) : w.Continues (w.unpinAll t) := by
    refine .foldl (fun w entry => ?_) _ w
    dsimp only
    split
    · exact .of_registers_eq (registers_modifyHandle w _ (by simp))
    · exact .refl w
  have henter : w.Continues { w with current := t } := .of_registers_eq rfl
  have hended := (henter.trans (horphans _)).trans (hunpin _)
  have hlose (w : World) (pending : List Queued) : w.Continues (w.loseReplies pending) :=
    .of_registers_eq (registers_loseReplies w pending)
  exact (hended.trans (hlose _ _)).trans (.of_registers_eq rfl)

end World

end ScriptHost
