import ScriptHost.Proofs.Handle.Adopt

/-!
# What the code of a host does keeps the books

Every change that the code of a host makes as long as one thread acts keeps the books and lets the
ledger age. So does a whole run of it.
-/

namespace ScriptHost

namespace World

variable {w w' : World} {h : HandleId} {i : InterpId} {f : Standing → Standing}
  {lost : Set HandleId} {off : Set HandleId}

/-! ### Scheduled scripts -/

theorem Slated.plan {token : AfterToken} (hw : w.Slated) (htoken : w.agenda.Harmless token)
    (i : InterpId) (id : String) :
    (w.modifyInterp i fun r => { r with
      nextAfter := r.nextAfter + 1, afters := r.afters.insert id token }).Slated := by
  refine ⟨hw.known, fun j r hr t ht => ?_⟩
  rw [get?_modifyInterp] at hr
  split at hr
  · obtain ⟨former, hformer, rfl⟩ := Option.map_eq_some_iff.1 hr
    rcases Table.mem_values_insert ht with rfl | hold
    · exact htoken
    · exact hw.harmless j former hformer t hold
  · exact hw.harmless j r hr t ht

theorem Books.scheduleAfter (hw : w.Books ∅ ∅ ∅) (hsolo : w.Solo) (i : InterpId)
    (delay : Option Nat) (script : String) :
    (w.scheduleAfter i delay script).2.Books ∅ ∅ ∅ := by
  have hplan {u : World} {token : AfterToken} {name : String} (hu : u.Books ∅ ∅ ∅)
      (htoken : u.agenda.Harmless token) :
      (u.modifyInterp i fun r => { r with
        nextAfter := r.nextAfter + 1, afters := r.afters.insert name token }).Books ∅ ∅ ∅ :=
    hu.modifyInterp i (fun r => List.Subset.refl _) (fun r => rfl) (hu.slated.plan htoken i name)
  cases delay with
  | some ms => exact hplan (hw.rests (rests_addTimer w _ _)) trivial
  | none =>
    refine hplan (hw.rests (rests_addIdle w _)) ?_
    rw [agenda_setAgenda hsolo.here]
    exact Agenda.harmless_addIdle hw.slated.known rfl

theorem ages_scheduleAfter (w : World) (i : InterpId) (delay : Option Nat) (script : String) :
    Ages ∅ w (w.scheduleAfter i delay script).2 := by
  cases delay with
  | some ms => exact (Ages.of_rests (rests_addTimer w _ _)).trans_empty (ages_modifyInterp _ i _)
  | none => exact (Ages.of_rests (rests_addIdle w _)).trans_empty (ages_modifyInterp _ i _)

theorem Books.unschedule (hw : w.Books ∅ ∅ ∅) (i : InterpId) (id : String) :
    (w.unschedule i id).Books ∅ ∅ ∅ := by
  have htaken : (w.takeAfter i id).2.Books ∅ ∅ ∅ := hw.edit (.unschedule id) i
  rw [World.unschedule]
  cases htoken : (w.takeAfter i id).1 with
  | none => exact htaken
  | some token =>
    have hmem := hw.slated.harmless_interp i token (Table.mem_values_of_get? htoken)
    exact htaken.rests (rests_cancelAfter hmem)

theorem ages_unschedule (w : World) (i : InterpId) (id : String) :
    Ages ∅ w (w.unschedule i id) := by
  have htaken : Ages ∅ w (w.takeAfter i id).2 := ages_modifyInterp w i _
  rw [unschedule]
  cases (w.takeAfter i id).1 with
  | none => exact htaken
  | some token => exact htaken.trans_empty (ages_cancelAfter _ token)

/-! ### Deletions -/

/-- When the deletion of a live interpreter that was put off is taken off the agenda, it is under
way. -/
theorem Books.takeOff {a : Agenda Event Handler} {dying : Set InterpId} (hw : w.Books ∅ ∅ ∅)
    (hsolo : w.Solo) (hpop : w.agenda.popIdle? = some (.idle (.delete i), a))
    (hdying : (w.interp i).deleted = false → i ∈ dying) : (w.takeOff a).Books dying ∅ ∅ := by
  unfold Agenda.popIdle? at hpop
  split at hpop
  · cases hpop
  · next token handler rest hidle =>
    cases hpop
    have hagenda (a : Agenda Event Handler) : (w.takeOff a).agenda = a :=
      agenda_setAgenda hsolo.here _
    have hsub : ∀ entry ∈ rest, entry ∈ w.agenda.idle := by
      intro entry hentry
      rw [hidle]
      exact List.mem_cons_of_mem _ hentry
    refine hw.of_watches rfl rfl ?_ subset_rfl ⟨?_, ?_⟩
    · rintro j k ⟨r, hr, hhook, hdead⟩
      have hlive : r.deleted = false := Bool.eq_false_iff.2 hdead
      refine .inr ⟨⟨r, hr, hhook, fun hd => absurd hd (Bool.eq_false_iff.1 hlive)⟩, ?_⟩
      rintro (⟨t, ht⟩ | hmem)
      · rw [hidle] at ht
        rcases List.mem_cons.1 ht with heq | hrest
        · cases heq
          rw [← interp_of_get? hr] at hlive
          exact .inr (hdying hlive)
        · left
          refine ⟨t, ?_⟩
          rw [hagenda]
          exact hrest
      · cases hmem
    · rw [hagenda]
      exact fun entry hentry => hw.slated.known entry (hsub entry hentry)
    · intro j r hr t ht
      have hbefore := hw.slated.harmless j r hr t ht
      rw [hagenda]
      cases t with
      | timer t => exact hbefore
      | idle t => exact ⟨hbefore.1, fun entry hentry => hbefore.2 entry (hsub entry hentry)⟩

/-- An interpreter that is live and whose deletion is put off at this moment needs no place among
the dying ones. -/
theorem Books.of_putOff (hw : w.Books (insert i ∅) ∅ off) (hlive : (w.interp i).deleted = false)
    (hputOff : w.PutOff i) : w.Books ∅ ∅ off := by
  refine hw.of_watches rfl rfl ?_ subset_rfl hw.slated
  rintro j k ⟨r, hr, hhook, hdying⟩
  refine .inr ⟨⟨r, hr, hhook, fun hd => ?_⟩, fun hending => ?_⟩
  · rcases hdying hd with rfl | hmem
    · rw [interp_of_get? hr, hd] at hlive
      cases hlive
    · exact hmem
  · rcases hending with hp | rfl | hmem
    · exact .inl hp
    · exact .inl hputOff
    · exact .inr hmem

theorem Books.putOff {a : Agenda Event Handler} (hw : w.Books ∅ ∅ ∅) (hsolo : w.Solo)
    (hpop : w.agenda.popIdle? = some (.idle (.delete i), a)) :
    ((w.takeOff a).delete i).Books ∅ ∅ ∅ := by
  by_cases hdead : (w.interp i).deleted = true
  · refine Books.delete (hw.takeOff hsolo hpop fun hlive => ?_) i
    exact absurd hdead (Bool.eq_false_iff.1 hlive)
  · have htaken : (w.takeOff a).Books (insert i ∅) ∅ ∅ :=
      hw.takeOff hsolo hpop fun _ => Set.mem_insert i ∅
    exact htaken.delete_dying (Bool.eq_false_iff.2 hdead)

theorem ages_putOff {a : Agenda Event Handler}
    (hpop : w.agenda.popIdle? = some (.idle (.delete i), a)) :
    Ages ∅ w ((w.takeOff a).delete i) := by
  have htaken : Ages ∅ w (w.setAgenda a) := by
    apply ages_setAgenda
    unfold Agenda.popIdle? at hpop
    split at hpop <;> cases hpop
    exact fun event hevent => hevent
  have htick : Ages ∅ (w.setAgenda a) (w.takeOff a) :=
    .of_standing_eq (fun _ => rfl) rfl (fun _ => rfl) id fun _ _ => id
  exact (htaken.trans_empty htick).trans_empty (ages_delete _ i)

/-! ### Giving interpreters up -/

theorem Books.takeInterp (hw : w.Books ∅ ∅ ∅) (hi : w.interpOf? h = some i) :
    (w.takeInterp h).2.Books (insert i ∅) ∅ (insert h ∅) := by
  have htake := amends_takeInterp w h
  have hmono : w.Books (insert i ∅) ∅ ∅ := hw.mono (Set.empty_subset _)
  refine hmono.amend htake (fun s hs => ?_) (fun k hk _ => hk) fun k hk _ => .inr hk
  have hfits := hmono.fits h s hs
  have hwatch : h ∈ (∅ : Set HandleId) ∨ w.Watches (insert i ∅) i h := by
    refine hfits.watched i ?_
    rw [standing?] at hs
    obtain ⟨handle, hhandle, rfl⟩ := Option.map_eq_some_iff.1 hs
    rw [interpOf?, hhandle] at hi
    exact hi
  refine ⟨fun hi => ?_, fun j hj => ?_, fun _ _ => ?_, fun _ _ => .inl (Set.mem_insert h ∅),
    fun _ _ => .inl (Set.mem_insert h ∅)⟩
  · cases hi
  · cases hj
  · exact hwatch.imp_right fun hwatch =>
      ⟨i, htake.watches hwatch, .inr (Set.mem_insert i ∅)⟩

theorem Books.live_of_interpOf? (hw : w.Books ∅ ∅ ∅) (hi : w.interpOf? h = some i) :
    (w.interp i).deleted = false := by
  obtain ⟨handle, hhandle, hinterp⟩ := Option.bind_eq_some_iff.1 hi
  rcases (hw.fits h _ (standing?_of_get? hhandle)).watched i hinterp with hmem | ⟨r, hr, -, hdead⟩
  · cases hmem
  · rw [interp_of_get? hr]
    exact Bool.eq_false_iff.2 hdead

/-- An interpreter that was taken away from its handle is deleted, or its deletion is put off. -/
theorem Books.deleteInterp (hw : w.Books (insert i ∅) ∅ off) (hsolo : w.Solo)
    (hlive : (w.interp i).deleted = false) : (w.deleteInterp i).Books ∅ ∅ off := by
  rw [World.deleteInterp]
  split
  · refine (hw.rests (rests_addIdle w _)).of_putOff hlive ⟨w.agenda.nextToken, ?_⟩
    rw [agenda_setAgenda hsolo.here]
    exact List.mem_append_right _ (List.mem_singleton_self _)
  · exact hw.delete_dying hlive

theorem ages_takeInterp (w : World) (h : HandleId) : Ages ∅ w (w.takeInterp h).2 := by
  refine .of_amends (amends_takeInterp w h) fun s _ => ⟨⟨rfl, id, id, .inr rfl⟩, fun hgoing => ?_⟩
  cases hgoing.2

theorem giveUp_eq (w : World) (h : HandleId) :
    w.giveUp h = (w.interpOf? h).elim (w.takeInterp h).2 (w.takeInterp h).2.deleteInterp := by
  rw [giveUp, takeInterp]
  cases w.interpOf? h <;> rfl

theorem ages_giveUp (w : World) (h : HandleId) : Ages ∅ w (w.giveUp h) := by
  rw [giveUp_eq]
  cases w.interpOf? h with
  | none => exact ages_takeInterp w h
  | some i => exact (ages_takeInterp w h).trans_empty (ages_deleteInterp _ i)

/-- Nothing is kept for a handle whose interpreter was given up. -/
theorem interp_giveUp {s : Standing} (hs : w.standing? h = some s) :
    ∃ s', (w.giveUp h).standing? h = some s' ∧ s.Ages s' ∧ s'.interp = none := by
  have htaken : (w.takeInterp h).2.standing? h = some { s with interp := none } := by
    rw [(amends_takeInterp w h).standing_self, hs, Option.map_some]
  have hages : s.Ages { s with interp := none } := ⟨rfl, id, id, .inr rfl⟩
  rw [giveUp_eq]
  cases w.interpOf? h with
  | none => exact ⟨_, htaken, hages, rfl⟩
  | some i =>
    obtain ⟨s', hs', hages'⟩ := (ages_deleteInterp (w.takeInterp h).2 i).each h _ htaken
    exact ⟨s', hs', hages.trans hages', hages'.interp.elim id id⟩

theorem interpOf?_eq_of_standing {s : Standing} (hs : w.standing? h = some s) :
    w.interpOf? h = s.interp := by
  rw [standing?] at hs
  obtain ⟨handle, hhandle, rfl⟩ := Option.map_eq_some_iff.1 hs
  rw [interpOf?, hhandle]
  rfl

/-- The interpreter of a handle was given up: the handle is off if somebody holds it. -/
theorem Books.giveUp (hw : w.Books ∅ ∅ ∅) (hsolo : w.Solo) (h : HandleId) :
    (w.giveUp h).Books ∅ ∅ (insert h ∅) := by
  rw [giveUp_eq]
  cases hi : w.interpOf? h with
  | none =>
    refine hw.amend (amends_takeInterp w h) (fun s hs => ?_) (fun k hk _ => hk) fun k hk _ => .inr hk
    rw [interpOf?_eq_of_standing hs] at hi
    refine ⟨fun hi => ?_, fun j hj => ?_, fun hp _ => ?_, fun _ _ => .inl (Set.mem_insert h ∅),
      fun _ _ => .inl (Set.mem_insert h ∅)⟩
    · cases hi
    · cases hj
    · rcases (hw.fits h s hs).pinned hp hi with hmem | ⟨i, hwatch, hending⟩
      · cases hmem
      · have htake := amends_takeInterp w h
        exact .inr ⟨i, htake.watches hwatch, htake.ending hending⟩
  | some i =>
    refine (hw.takeInterp hi).deleteInterp ((ages_takeInterp w h).solo hsolo) ?_
    exact hw.live_of_interpOf? hi

/-- A handle is not off when nobody holds it or it is deleted. -/
theorem Books.settle_off (hw : w.Books ∅ ∅ (insert h ∅))
    (hs : ∀ s, w.standing? h = some s → s.held = true → s.deleted = true) : w.Books ∅ ∅ ∅ := by
  refine hw.amend (h := h) (.of_rests (.refl w)) (fun s hs' => ?_) (fun k hk _ => hk)
    fun k hk hne => ?_
  · have hfits := hw.fits h s hs'
    refine ⟨hfits.fresh, hfits.watched, hfits.pinned, fun hheld hlive => ?_, fun hheld hlive => ?_⟩
    · rw [id, hs s hs' hheld] at hlive
      cases hlive
    · rw [id, hs s hs' hheld] at hlive
      cases hlive
  · rcases hk with rfl | hmem
    · exact absurd rfl hne
    · exact hmem

/-- A handle without interpreter is not off any more when it is deleted. -/
theorem Books.markDeleted {s : Standing} (hw : w.Books ∅ ∅ (insert h ∅))
    (hs : w.standing? h = some s) (hnone : s.interp = none) : (w.markDeleted h).Books ∅ ∅ ∅ := by
  have hmark := amends_markDeleted w h
  have hfits := hw.fits h s hs
  refine Books.settle_off (h := h) (hw.amend hmark (fun s' hs' => ?_) (fun k hk _ => hk)
    fun k hk _ => hk) fun s' hs' _ => ?_
  · rw [hs] at hs'
    cases hs'
    refine ⟨fun hi => ?_, fun j hj => ?_, fun hp _ => ?_, fun _ _ => .inl (Set.mem_insert h ∅),
      fun _ _ => .inl (Set.mem_insert h ∅)⟩
    · rw [show s.interp = none from hnone] at hi
      cases hi
    · rw [show s.interp = none from hnone] at hj
      cases hj
    · rcases hfits.pinned hp hnone with hmem | ⟨i, hwatch, hending⟩
      · cases hmem
      · exact .inr ⟨i, hmark.watches hwatch, hmark.ending hending⟩
  · rw [hmark.standing_self, hs] at hs'
    cases hs'
    rfl

theorem ages_markDeleted (w : World) (h : HandleId) : Ages ∅ w (w.markDeleted h) :=
  .of_amends (amends_markDeleted w h) fun _ _ => ⟨⟨rfl, fun _ => rfl, id, .inl rfl⟩, .inr⟩

theorem Books.deleteHandle (hw : w.Books ∅ ∅ ∅) (hsolo : w.Solo) (h : HandleId) :
    (w.deleteHandle h).Books ∅ ∅ ∅ ∧ Ages ∅ w (w.deleteHandle h) := by
  rw [World.deleteHandle]
  split
  · exact ⟨hw, .refl w⟩
  · next handle hhandle =>
    have hs := standing?_of_get? hhandle
    have howner : w.onOwner h = true := by
      rw [onOwner, hhandle]
      exact decide_eq_true (hsolo.owner h _ hs)
    split
    · exact ⟨hw, .refl w⟩
    · obtain ⟨s', hs', -, hnone⟩ := interp_giveUp hs
      exact ⟨(hw.giveUp hsolo h).markDeleted hs' hnone,
        (ages_giveUp w h).trans_empty (ages_markDeleted _ h)⟩

/-! ### Holders come and go -/

/-- A change of who holds a handle keeps the books, if it is held and listed only as before. -/
theorem Books.rehold (hw : w.Books ∅ ∅ ∅) (h' : Amends h f w w')
    (hf : ∀ s, w.standing? h = some s → (f s).interp = s.interp ∧ (f s).deleted = s.deleted ∧
      ((f s).pinned = true → s.pinned = true) ∧ ((f s).held = true → s.held = true ∧
        (h ∈ w.hub.registry → h ∈ w'.hub.registry))) : w'.Books ∅ ∅ ∅ := by
  refine hw.amend h' (fun s hs => ?_) (fun k hk _ => hk) fun k hk _ => hk
  obtain ⟨hinterp, hdeleted, hpinned, hheld⟩ := hf s hs
  have hfits := hw.fits h s hs
  refine ⟨?_, fun i hi => ?_, fun hp hnone => ?_, fun hh hlive => ?_, fun hh hlive => ?_⟩
  · rw [hinterp, hdeleted]
    exact hfits.fresh
  · rw [hinterp] at hi
    exact (hfits.watched i hi).imp_right h'.watches
  · rw [hinterp] at hnone
    refine (hfits.pinned (hpinned hp) hnone).imp_right ?_
    rintro ⟨i, hwatch, hending⟩
    exact ⟨i, h'.watches hwatch, h'.ending hending⟩
  · rw [hdeleted] at hlive
    rw [hinterp]
    exact hfits.kept (hheld hh).1 hlive
  · rw [hdeleted] at hlive
    exact (hfits.listed (hheld hh).1 hlive).imp_right (hheld hh).2

/-- A handle that somebody holds may be held otherwise. -/
theorem Books.regrip {s : Standing} (hw : w.Books ∅ ∅ ∅) (h' : Amends h f w w')
    (hs : w.standing? h = some s) (hheld : s.held = true)
    (hsame : (f s).owner = s.owner ∧ (f s).interp = s.interp ∧ (f s).deleted = s.deleted)
    (hpinned : (f s).pinned = true → s.pinned = true) (hregrip : (f s).held = true)
    (hregistry : h ∈ w.hub.registry → h ∈ w'.hub.registry) :
    w'.Books ∅ ∅ ∅ ∧ Ages ∅ w w' := by
  obtain ⟨howner, hinterp, hdeleted⟩ := hsame
  refine ⟨hw.rehold h' fun s' hs' => ?_, .of_amends h' fun s' hs' => ?_⟩
  · cases hs.symm.trans hs'
    exact ⟨hinterp, hdeleted, hpinned, fun _ => ⟨hheld, hregistry⟩⟩
  · cases hs.symm.trans hs'
    refine ⟨⟨howner, fun hgone => hdeleted.trans hgone, fun hgone => ?_, .inl hinterp⟩,
      fun hgoing => ?_⟩
    · exact absurd (hheld.symm.trans hgone) (Ne.symm Bool.false_ne_true)
    · exact absurd (hregrip.symm.trans hgoing.1) (Ne.symm Bool.false_ne_true)

theorem Books.hold (hw : w.Books ∅ ∅ ∅) (hheld : w.Held h) :
    (w.hold h).Books ∅ ∅ ∅ ∧ Ages ∅ w (w.hold h) := by
  obtain ⟨s, hs, hheld⟩ := hheld
  have hgrip : ({ s with holders := s.holders + 1 } : Standing).held = true := by
    simp [Standing.held]
  exact hw.regrip (amends_hold w h) hs hheld ⟨rfl, rfl, rfl⟩ id hgrip id

theorem Books.takeOver {handle : Handle} (hw : w.Books ∅ ∅ ∅)
    (hmem : (h, handle) ∈ w.handles.entries) (hpinned : handle.pinned = true) :
    (w.takeOver h).Books ∅ ∅ ∅ ∧ Ages ∅ w (w.takeOver h) := by
  have hs := standing?_of_get? (Table.get?_of_mem hw.keys hmem)
  have hheld : handle.standing.held = true := by
    rw [Standing.held, Handle.standing, hpinned]
    rfl
  have hgrip : ({ handle.standing with
      pinned := false, holders := handle.standing.holders + 1 } : Standing).held = true := by
    simp [Standing.held]
  exact hw.regrip (amends_takeOver w h) hs hheld ⟨rfl, rfl, rfl⟩ (fun _ => hpinned) hgrip id

/-- Somebody who holds a handle less does not begin to hold it. -/
theorem held_of_held_pred {s : Standing}
    (h : ({ s with holders := s.holders - 1 } : Standing).held = true) : s.held = true := by
  simp only [Standing.held, Bool.or_eq_true, decide_eq_true_eq] at h ⊢
  exact h.imp_right fun hpos => Nat.lt_of_lt_of_le hpos (Nat.sub_le _ _)

theorem gone_pred {s : Standing} (h : s.held = false) :
    ({ s with holders := s.holders - 1 } : Standing).held = false :=
  Bool.eq_false_iff.2 fun hheld => Bool.eq_false_iff.1 h (held_of_held_pred hheld)

theorem Books.unhold (hw : w.Books ∅ ∅ ∅)
    (hstays : ∀ s, (w.unhold h).standing? h = some s → s.held = true ∨ s.deleted = true) :
    (w.unhold h).Books ∅ ∅ ∅ ∧ Ages ∅ w (w.unhold h) := by
  have hunhold := amends_unhold w h
  refine ⟨hw.rehold hunhold fun s hs => ?_, .of_amends hunhold fun s hs => ?_⟩
  · exact ⟨rfl, rfl, id, fun hheld => ⟨held_of_held_pred hheld, id⟩⟩
  · refine ⟨⟨rfl, id, gone_pred, .inl rfl⟩, fun hgoing => ?_⟩
    rw [hunhold.standing_self, hs] at hstays
    rcases hstays _ rfl with hheld | hdeleted
    · exact absurd (hgoing.1.symm.trans hheld) Bool.false_ne_true
    · have hlive := (hw.fits h s hs).fresh hgoing.2
      exact absurd (hlive.symm.trans hdeleted) Bool.false_ne_true

/-- The last holder of a handle is gone and nobody finds the handle any more. -/
theorem Books.drop (hw : w.Books ∅ ∅ ∅) (hgone : (w.unhold h).Gone h) :
    ((w.unhold h).unregister h).Books ∅ ∅ ∅ ∧
      Ages (insert h ∅) w ((w.unhold h).unregister h) := by
  have hdrop := (amends_unhold w h).trans (amends_unregister (w.unhold h) h)
  obtain ⟨t, ht, hgone⟩ := hgone
  rw [(amends_unhold w h).standing_self] at ht
  refine ⟨hw.rehold hdrop fun s hs => ?_, .of_amends hdrop fun s hs => ?_⟩
  · rw [hs] at ht
    cases ht
    exact ⟨rfl, rfl, id, fun hheld => absurd (hgone.symm.trans hheld) Bool.false_ne_true⟩
  · exact ⟨⟨rfl, id, gone_pred, .inl rfl⟩, fun _ => .inl (Set.mem_insert h ∅)⟩

/-- The work of a handle that was let go has been served, and its interpreter is given up. -/
theorem Books.finish {w₁ w₂ : World} (hw : w₂.Books ∅ ∅ ∅) (hsolo : w₂.Solo)
    (hgone : (w.unhold h).Gone h) (hrests : ((w.unhold h).unregister h).Rests w₁)
    (hages : Ages lost w₁ w₂) : (w₂.giveUp h).Books ∅ ∅ ∅ ∧
      ∀ s, (w₂.giveUp h).standing? h = some s → ¬s.Going := by
  obtain ⟨t, ht, hgone⟩ := hgone
  have ht₁ : w₁.standing? h = some t := (hrests.standing h).trans ht
  obtain ⟨s₂, hs₂, hages₂⟩ := hages.each h t ht₁
  obtain ⟨s₃, hs₃, hages₃, hnone⟩ := interp_giveUp hs₂
  refine ⟨(hw.giveUp hsolo h).settle_off fun s hs hheld => ?_, fun s hs hgoing => ?_⟩
  · rw [hs₃] at hs
    cases hs
    have hfalse := hages₃.gone (hages₂.gone hgone)
    exact absurd (hfalse.symm.trans hheld) Bool.false_ne_true
  · rw [hs₃] at hs
    cases hs
    have hsome := hgoing.2
    rw [hnone] at hsome
    cases hsome

end World

/-! ### Whole runs -/

namespace Run

open World

variable {w w' : World} {lost : Set HandleId}

/-- What happens between two changes of one interpreter keeps the books if neither change makes or
forgets plans. -/
theorem books_bracket {i : InterpId} {f g : Interpreter → Interpreter} (hsolo : w.Solo)
    (hw : w.Books ∅ ∅ ∅) (hf : ∀ r, (f r).plans = r.plans) (hg : ∀ r, (g r).plans = r.plans)
    (h : (w.modifyInterp i f).Solo → (w.modifyInterp i f).Books ∅ ∅ ∅ →
      w'.Books ∅ ∅ ∅ ∧ Ages lost (w.modifyInterp i f) w') :
    (w'.modifyInterp i g).Books ∅ ∅ ∅ ∧ Ages lost w (w'.modifyInterp i g) := by
  have hopen := ages_modifyInterp w i f
  obtain ⟨hbooks, hages⟩ := h (hopen.solo hsolo) (hw.of_plans_eq i hf)
  have hall := (hopen.trans hages).trans (ages_modifyInterp w' i g)
  rw [Set.empty_union, Set.union_empty] at hall
  exact ⟨hbooks.of_plans_eq i hg, hall⟩

/-- The last holder of a handle goes and nobody finds the handle any more. -/
theorem books_dropped {w₁ : World} {h : HandleId} (htidy : w.Tidy) (hsolo : w.Solo)
    (hw : w.Books ∅ ∅ ∅) (hgone : (w.unhold h).Gone h)
    (hdropped : ((w.unhold h).unregister h).Rests w₁) :
    w₁.Tidy ∧ w₁.Solo ∧ w₁.Books ∅ ∅ ∅ ∧ Ages (insert h ∅) w w₁ := by
  obtain ⟨hbooks, hages⟩ := hw.drop hgone
  have hdrop := hages.trans (.of_rests hdropped)
  rw [Set.union_empty] at hdrop
  exact ⟨htidy.of_interpreters_eq hdropped.interpreters, hdrop.solo hsolo, hbooks.rests hdropped,
    hdrop⟩

/-- The work of a handle that was let go is served as far as it comes. -/
theorem books_served {w₁ w₂ : World} {h : HandleId} (htidy : w.Tidy) (hsolo : w.Solo)
    (hw : w.Books ∅ ∅ ∅) (hgone : (w.unhold h).Gone h)
    (hdropped : ((w.unhold h).unregister h).Rests w₁)
    (hserved : w₁.Tidy → w₁.Solo → w₁.Books ∅ ∅ ∅ → w₂.Books ∅ ∅ ∅ ∧ Ages lost w₁ w₂) :
    w₁.Solo ∧ w₂.Books ∅ ∅ ∅ ∧ Ages lost w₁ w₂ ∧ Ages (insert h lost) w w₂ := by
  obtain ⟨htidy₁, hsolo₁, hbooks₁, hdrop⟩ := books_dropped htidy hsolo hw hgone hdropped
  obtain ⟨hbooks₂, hages₂⟩ := hserved htidy₁ hsolo₁ hbooks₁
  have hall := hdrop.trans hages₂
  rw [Set.insert_union, Set.empty_union] at hall
  exact ⟨hsolo₁, hbooks₂, hages₂, hall⟩

/-- What the code of a host does as long as one thread acts keeps the books, and apart from the lost
handles none keeps its interpreter when nobody holds it any more. -/
theorem Course.books (h : Course lost w w') (htidy : w.Tidy) (hsolo : w.Solo)
    (hw : w.Books ∅ ∅ ∅) : w'.Books ∅ ∅ ∅ ∧ Ages lost w w' := by
  induction h with
  | rest h => exact ⟨hw.rests h, .of_rests h⟩
  | edit hf w i => exact ⟨hw.edit hf i, ages_modifyInterp w i _⟩
  | schedule w i delay script =>
    exact ⟨hw.scheduleAfter hsolo i delay script, ages_scheduleAfter w i delay script⟩
  | unschedule w i id => exact ⟨hw.unschedule i id, ages_unschedule w i id⟩
  | delete w i => exact ⟨hw.delete i, ages_delete w i⟩
  | putOff hpop => exact ⟨hw.putOff hsolo hpop, ages_putOff hpop⟩
  | trans h h' ih ih' =>
    obtain ⟨hbooks, hages⟩ := ih htidy hsolo hw
    obtain ⟨hbooks', hages'⟩ := ih' (h.leads.tidy htidy) (hages.solo hsolo) hbooks
    exact ⟨hbooks', hages.trans hages'⟩
  | call _ _ ih =>
    refine books_bracket hsolo hw ?_ ?_ (ih (htidy.modifyInterp fun r hr => hr))
    all_goals exact fun r => rfl
  | aside _ _ ih =>
    refine books_bracket hsolo hw ?_ ?_ (ih (htidy.modifyInterp fun r hr => hr))
    all_goals exact fun r => rfl
  | command _ hdepth _ ih =>
    refine books_bracket hsolo hw ?_ ?_ (ih (htidy.modifyInterp fun r _ => hdepth))
    all_goals exact fun r => rfl
  | createChild w parent name safe => exact hw.createChild htidy parent name safe
  | found w config => exact hw.found htidy config
  | hold hheld => exact hw.hold hheld
  | takeOver hmem hpinned => exact hw.takeOver hmem hpinned
  | deleteHandle w h => exact hw.deleteHandle hsolo h
  | unhold hstays => exact hw.unhold hstays
  | @release lost w w₁ w₂ h hgone hdropped _ ih =>
    obtain ⟨hsolo₁, hbooks, hages, hall⟩ := books_served htidy hsolo hw hgone hdropped ih
    obtain ⟨hbooks', hnot⟩ := hbooks.finish (hages.solo hsolo₁) hgone hdropped hages
    have hgiven := hall.trans (ages_giveUp w₂ h)
    rw [Set.union_empty] at hgiven
    exact ⟨hbooks', hgiven.settle hnot⟩
  | cut hgone hdropped _ _ ih =>
    obtain ⟨-, hbooks, -, hall⟩ := books_served htidy hsolo hw hgone hdropped ih
    exact ⟨hbooks, hall⟩
  | foreign hnot _ => exact absurd hsolo hnot

end Run

end ScriptHost
