import ScriptHost.Proofs.Frames.Writes
import ScriptHost.Proofs.Naming.Search
import ScriptHost.Proofs.World.Births
import ScriptHost.Proofs.World.Confined

/-!
# Children without a given name

A child that is made without a name gets a generated one. Scripts and the host may give other children
names that look like generated ones, and children come and go. Still the generated name is always free,
and an interpreter generates no name twice as long as it is there.
-/

namespace ScriptHost

open Interpreter

/-! ### Changes of an interpreter -/

namespace Interpreter

/-- List a child. -/
def listChild (name : String) (child : InterpId) (r : Interpreter) : Interpreter :=
  { r with children := r.children.insert name child }

/-- A change that has nothing to do with frames generates a name, lists a child, or does nothing about
names. -/
theorem Edit.naming_cases {f : Interpreter → Interpreter} (hf : Edit f) :
    (f = fun r => r.generateName.2) ∨ (∃ name child, f = listChild name child) ∨
      ∀ r, (f r).naming = r.naming := by
  have hvars {r r' : Interpreter} (h : OnlyVars r r') : r'.naming = r.naming :=
    h.keeps naming fun _ _ => rfl
  cases hf with
  | generateName => exact .inl rfl
  | addChild name child => exact .inr (.inl ⟨name, child, rfl⟩)
  | setVar name value => exact .inr (.inr fun r => hvars (onlyVars_setVar r name value))
  | unsetVar name => exact .inr (.inr fun r => hvars (onlyVars_unsetVar r name))
  | setGlobal name value => exact .inr (.inr fun r => hvars (onlyVars_setGlobal r name value))
  | unsetGlobal name => exact .inr (.inr fun r => hvars (onlyVars_unsetGlobal r name))
  | linkGlobals names => exact .inr (.inr fun r => hvars (onlyVars_linkGlobals r names))
  | define name command =>
    refine .inr (.inr fun r => ?_)
    dsimp only
    split <;> rfl
  | undefine | schedule | unschedule | onDelete | onChild =>
    exact .inr (.inr fun _ => rfl)

end Interpreter

/-! ### Histories -/

namespace Run

variable {c c' c'' : Config} {i : InterpId} {generated listed : List String}

theorem unnamed_modifyInterp {w : World} {j : InterpId} {f : Interpreter → Interpreter}
    (hi : w.Knows i) (hf : j = i → (f (w.interp i)).naming = (w.interp i).naming) :
    Unnamed (w.interp i) ((w.modifyInterp j f).interp i) := by
  rw [hi.interp_modifyInterp]
  split
  · next hji => exact .of_naming_eq (hf hji)
  · exact .refl _

theorem unnamed_delete (w : World) (i j : InterpId) :
    Unnamed (w.interp i) ((w.delete j).interp i) where
  next := congrArg Prod.snd (congrFun (w.remains_delete j) i)
  children name hname := by
    obtain ⟨child, hchild⟩ := Option.isSome_iff_exists.1 (Table.mem_keys_iff.1 hname)
    have hwas := ((World.loses_delete w j).interp i).children name child hchild
    exact Table.mem_keys_iff.2 (Option.isSome_iff_exists.2 ⟨child, hwas⟩)

/-- A step generates a name of an interpreter, lists a child of it, or does neither. -/
theorem Step.naming_cases (hc : Sound c) (hi : c.world.Knows i) (h : Step c c') :
    (c' = c.modify i fun r => r.generateName.2) ∨
      (∃ name child, c' = c.modify i (listChild name child)) ∨
        Unnamed (c.world.interp i) (c'.world.interp i) := by
  cases h with
  | @edit w K cut j f hf =>
    by_cases hji : j = i
    · subst hji
      obtain rfl | ⟨name, child, rfl⟩ | hsame := hf.naming_cases
      · exact .inl rfl
      · exact .inr (.inl ⟨name, child, rfl⟩)
      · exact .inr (.inr (unnamed_modifyInterp hi fun _ => hsame _))
    · exact .inr (.inr (unnamed_modifyInterp hi fun h => absurd h hji))
  | rest hrest =>
    rw [World.interp_eq_of_interpreters_eq hrest]
    exact .inr (.inr (.refl _))
  | create name safe parent =>
    rw [(hi.newInterp (Nat.ne_of_lt (hc.known i _ hi.get?)) name safe parent).2]
    exact .inr (.inr (.refl _))
  | @delete w K cut j => exact .inr (.inr (unnamed_delete w i j))
  | enterCall | leaveCall | setAside | putBack | enterCommand | leaveCommand =>
    exact .inr (.inr (unnamed_modifyInterp hi fun _ => rfl))

/-- A run, with the names that an interpreter generates on the way and the names under which it lists
children, in the order of time. -/
inductive Naming (i : InterpId) : List String → List String → Config → Config → Prop
  | refl (c : Config) : Naming i [] [] c c
  | generate {generated listed : List String} {c c' : Config}
      (h : Naming i generated listed c c') :
      Naming i (generated ++ [(c'.world.interp i).generateName.1]) listed c
        (c'.modify i fun r => r.generateName.2)
  | list {generated listed : List String} {c c' : Config} (h : Naming i generated listed c c')
      (name : String) (child : InterpId) :
      Naming i generated (listed ++ [name]) c (c'.modify i (listChild name child))
  | other {generated listed : List String} {c c' c'' : Config} (h : Naming i generated listed c c')
      (hstep : Step c' c'') (hidle : Unnamed (c'.world.interp i) (c''.world.interp i)) :
      Naming i generated listed c c''

theorem Naming.steps (h : Naming i generated listed c c') : Steps c c' := by
  induction h with
  | refl c => exact .refl
  | generate _ ih => exact ih.tail (.edit i .generateName)
  | list _ name child ih => exact ih.tail (.edit i (.addChild name child))
  | other _ hstep _ ih => exact ih.tail hstep

/-- However a run goes on, its history of names does. -/
theorem Naming.goesOn (hc : Sound c) (hi : c.world.Knows i) (h : Naming i generated listed c c')
    (hsteps : Steps c' c'') :
    ∃ more others, Naming i (generated ++ more) (listed ++ others) c c'' := by
  induction hsteps with
  | refl => exact ⟨[], [], by rwa [List.append_nil, List.append_nil]⟩
  | @tail u u' _ hstep ih =>
    obtain ⟨more, others, h⟩ := ih
    obtain rfl | ⟨name, child, rfl⟩ | hidle :=
      hstep.naming_cases (hc.steps h.steps) (h.steps.knows hc hi)
    · refine ⟨more ++ [(u.world.interp i).generateName.1], others, ?_⟩
      rw [← List.append_assoc]
      exact h.generate
    · refine ⟨more, others ++ [name], ?_⟩
      rw [← List.append_assoc]
      exact h.list name child
    · exact ⟨more, others, h.other hstep hidle⟩

/-- What a history tells of the interpreter. -/
theorem Naming.told (hc : Sound c) (hi : c.world.Knows i) (h : Naming i generated listed c c') :
    NamesTold (c.world.interp i) (c'.world.interp i) generated listed := by
  have hmodify {c' : Config} (hsteps : Steps c c') (f : Interpreter → Interpreter) :
      (c'.modify i f).world.interp i = f (c'.world.interp i) :=
    ((hsteps.knows hc hi).interp_modifyInterp i f).trans (if_pos rfl)
  induction h with
  | refl c => exact .refl _
  | generate h ih =>
    rw [hmodify h.steps]
    exact (ih hc hi hmodify).generate
  | list h name child ih =>
    rw [hmodify h.steps]
    exact (ih hc hi hmodify).list name child
  | other h _ hidle ih => exact (ih hc hi hmodify).other hidle

end Run

/-! ### Making a child without a name -/

namespace World

open Run

/-- From one world to another nothing is done about names of children. -/
inductive Idles : World → World → Prop
  | rest {w w' : World} (h : w'.interpreters = w.interpreters) : Idles w w'
  | edit {f : Interpreter → Interpreter} (hf : Edit f) (hsame : ∀ r, (f r).naming = r.naming)
      (w : World) (i : InterpId) : Idles w (w.modifyInterp i f)
  | trans {w w' w'' : World} (h : Idles w w') (h' : Idles w' w'') : Idles w w''

variable {w w' : World} {i p : InterpId} {name : String} {safe : Bool}

theorem Idles.naming (h : Idles w w') (i : InterpId) :
    (w'.interp i).naming = (w.interp i).naming := by
  induction h with
  | rest h => rw [interp_eq_of_interpreters_eq h]
  | edit _ hsame w j => exact keeps_modifyInterp Interpreter.naming hsame w j i
  | trans _ _ ih ih' => exact ih'.trans ih

theorem Idles.deleted (h : Idles w w') (i : InterpId) :
    (w'.interp i).deleted = (w.interp i).deleted := by
  induction h with
  | rest h => rw [interp_eq_of_interpreters_eq h]
  | edit hf _ w j => exact deleted_modifyInterp hf.deleted_eq w j i
  | trans _ _ ih ih' => exact ih'.trans ih

theorem Idles.foldl {α : Type} {f : World → α → World} (hf : ∀ w a, Idles w (f w a))
    (as : List α) (w : World) : Idles w (as.foldl f w) := by
  induction as generalizing w with
  | nil => exact .rest rfl
  | cons a as ih => exact (hf w a).trans (ih (f w a))

theorem idles_defineCommand (w : World) (i : InterpId) (name : String) (command : Command) :
    Idles w (w.defineCommand i name command) := by
  refine .edit (.define name command) (fun r => ?_) w i
  split <;> rfl

theorem idles_adopt (w : World) (i : InterpId) (config : HandleConfig) :
    Idles w (w.adopt i config).2 := by
  have hwatch (w : World) (h : HandleId) : Idles w (w.callWhenDeleted i (.untrack h)) := by
    rw [callWhenDeleted, runDeleteHook]
    split
    · rw [runDeleteHook]
      exact .rest (interpreters_untrack w h)
    · exact .edit (.onDelete (.untrack h)) (fun _ => rfl) w i
  refine .trans ?_ (.rest (interpreters_track _ _))
  refine .trans ?_ (hwatch _ _)
  refine .trans ?_ (.edit (.onChild (.adopt config)) (fun _ => rfl) _ i)
  refine .trans ?_ (idles_defineCommand _ i _ _)
  refine .trans ?_ (idles_defineCommand _ i _ _)
  exact .rest (interpreters_addHandle w i config)

theorem idles_runChildHook (child : InterpId) (w : World) (hook : ChildHook) :
    Idles w (runChildHook child w hook) := by
  cases hook with
  | log label => exact .rest rfl
  | adopt config =>
    have hpin (u : World) (h : HandleId) :
        Idles u (u.modifyHandle h fun handle => { handle with pinned := true }) := .rest rfl
    exact (idles_adopt w child _).trans (hpin _ _)

/-- A live interpreter makes a child under every name that is free. -/
theorem createChild_of_free (hlive : (w.interp p).deleted = false) (hname : name.isEmpty = false)
    (hfree : (w.interp p).children.contains name = false) (safe : Bool) :
    w.createChild p name safe =
      (.ok w.nextInterp, (w.interp p).childHooks.foldl (runChildHook w.nextInterp)
        (w.bear p name (safe || (w.interp p).safe))) := by
  simp only [createChild, hlive, hname, hfree]
  rfl

/-- An interpreter makes a child with a generated name. -/
def bearUnnamed (w : World) (p : InterpId) (safe : Bool) : World :=
  ((w.modifyInterp p fun r => r.generateName.2).createChild p (w.interp p).generateName.1 safe).2

/-- Nothing is wrong with a generated name. -/
theorem createChild_generateName (hlive : (w.interp p).deleted = false) (safe : Bool) :
    (w.modifyInterp p fun r => r.generateName.2).createChild p (w.interp p).generateName.1 safe =
      (.ok w.nextInterp, (w.interp p).childHooks.foldl (runChildHook w.nextInterp)
        ((w.modifyInterp p fun r => r.generateName.2).bear p (w.interp p).generateName.1
          (safe || (w.interp p).safe))) := by
  have hinterp : (w.modifyInterp p fun r => r.generateName.2).interp p =
      (w.interp p).generateName.2 := interp_modifyInterp_of_live hlive _
  have hmade := createChild_of_free (w := w.modifyInterp p fun r => r.generateName.2) (p := p)
    (by rw [hinterp]; exact hlive) (w.interp p).generateName_ne_empty
    (by rw [hinterp]; exact (w.interp p).generateName_free) safe
  rw [hmade, hinterp]
  rfl

/-- The new child is live, and it is listed under the generated name. -/
theorem interp_bearUnnamed (hlive : (w.interp p).deleted = false) (hnew : p ≠ w.nextInterp)
    (safe : Bool) :
    ((w.bearUnnamed p safe).interp p).naming =
        ((w.interp p).generateName.2.nextChild,
          (w.interp p).children.insert (w.interp p).generateName.1 w.nextInterp) ∧
      ((w.bearUnnamed p safe).interp w.nextInterp).deleted = false := by
  have hknows : (w.modifyInterp p fun r => r.generateName.2).Knows p :=
    Knows.modifyInterp (Option.isSome_iff_exists.2 ⟨_, get?_of_live hlive⟩) p _
  have hidles := Idles.foldl (idles_runChildHook w.nextInterp) (w.interp p).childHooks
    ((w.modifyInterp p fun r => r.generateName.2).bear p (w.interp p).generateName.1
      (safe || (w.interp p).safe))
  obtain ⟨hmade, hkept⟩ := hknows.newInterp hnew (w.interp p).generateName.1
    (safe || (w.interp p).safe) (some p)
  rw [bearUnnamed, createChild_generateName hlive, hidles.naming, hidles.deleted, bear]
  constructor
  · rw [hmade.interp_modifyInterp, if_pos rfl, hkept, interp_modifyInterp_of_live hlive]
    rfl
  · rw [interp_modifyInterp_of_ne hnew, interp_newInterp]
    exact congrArg Interpreter.deleted (if_pos rfl)

end World

namespace Command

variable {e : Engine} {i : InterpId} {args : List String} {w : World}

/-- No argument is a name if all of them are options. -/
theorem nameArg_eq_none_iff : nameArg args = none ↔ ∀ arg ∈ args, arg = "-safe" ∨ arg = "--" := by
  rw [nameArg, List.getLast?_eq_none_iff, List.filter_eq_nil_iff]
  refine forall₂_congr fun arg _ => ?_
  rw [decide_eq_true_eq, ← not_or, not_not]

theorem run_makeChild (i : InterpId) (name : String) (safe : Bool) (w : World) :
    (makeChild i name safe).run w = .ok (w.createChild i name safe).1 (w.createChild i name safe).2 :=
  rfl

/-- A child that is to be made without a name is made. -/
theorem run_interp_create (e : Engine) (hargs : ∀ arg ∈ args, arg = "-safe" ∨ arg = "--")
    (hlive : (w.interp i).deleted = false) :
    (interp e i ("create" :: args)).run w =
      .ok (.ok (w.interp i).generateName.1) (w.bearUnnamed i (args.contains "-safe")) := by
  have hmake : (makeChild i (w.interp i).generateName.1 (args.contains "-safe")).run
      (w.modifyInterp i fun r => r.generateName.2) =
        .ok (.ok w.nextInterp) (w.bearUnnamed i (args.contains "-safe")) := by
    rw [run_makeChild, World.bearUnnamed, World.createChild_generateName hlive]
  have hcreate : (interp e i ("create" :: args)).run w =
      (makeChild i (w.interp i).generateName.1 (args.contains "-safe") >>=
        fun _ => pure (w.interp i).generateName.1).run
          (w.modifyInterp i fun _ => (w.interp i).generateName.2) := by
    rw [interp, createNamed]
    dsimp only
    rw [nameArg_eq_none_iff.2 hargs]
    rfl
  rw [hcreate, w.modifyInterp_const i fun r => r.generateName.2]
  exact Exec.run_bind_of_ok hmake _

end Command

namespace Run

open Session

variable {c c' : Config} {i : InterpId} {generated listed : List String} {w w' : World}
  {K : List Bracket} {cut : Set InterpId}

theorem Naming.idles (h : Naming i generated listed c ⟨w, K, cut⟩) (hidles : w.Idles w') :
    Naming i generated listed c ⟨w', K, cut⟩ := by
  induction hidles with
  | rest hrest => exact h.other (.rest hrest) (.of_naming_eq ((World.Idles.rest hrest).naming i))
  | edit hf hsame w j =>
    exact h.other (.edit j hf) (.of_naming_eq ((World.Idles.edit hf hsame w j).naming i))
  | trans _ _ ih ih' => exact ih' (ih h)

theorem Naming.bear (hi : w.Knows i) (hnew : i ≠ w.nextInterp)
    (h : Naming i generated listed c ⟨w, K, cut⟩) (name : String) (safe : Bool) :
    Naming i generated (listed ++ [name]) c ⟨w.bear i name safe, K, cut⟩ := by
  have hmade := h.other (.create name safe (some i))
    (by rw [(hi.newInterp hnew name safe (some i)).2]; exact .refl _)
  exact hmade.list name w.nextInterp

/-- A child that is made without a name is listed under a name that is generated for it. -/
theorem Naming.bearUnnamed (hc : Sound c) (hi : c.world.Knows i)
    (h : Naming i generated listed c c') (hlive : (c'.world.interp i).deleted = false)
    (safe : Bool) :
    Naming i (generated ++ [(c'.world.interp i).generateName.1])
      (listed ++ [(c'.world.interp i).generateName.1]) c
      ⟨c'.world.bearUnnamed i safe, c'.brackets, c'.cut⟩ := by
  have hknows := h.steps.knows hc hi
  have hnew : i ≠ c'.world.nextInterp := Nat.ne_of_lt ((hc.steps h.steps).known i _ hknows.get?)
  rw [World.bearUnnamed, World.createChild_generateName hlive]
  refine Naming.idles ?_ (.foldl (World.idles_runChildHook _) _ _)
  exact h.generate.bear (hknows.modifyInterp i _) hnew _ _

/-! ### Names over the life of an interpreter -/

/-- A name that was generated is not generated again, whatever was done since. -/
theorem generateName_ne (hc : Sound c) (hi : c.world.Knows i)
    (h : Steps (c.modify i fun r => r.generateName.2) c') :
    (c'.world.interp i).generateName.1 ≠ (c.world.interp i).generateName.1 := by
  obtain ⟨more, others, hnaming⟩ := (Naming.refl c).generate.goesOn hc hi h
  have hfresh := (hnaming.told hc hi).fresh
  rw [List.nil_append, List.singleton_append] at hfresh
  exact List.ne_of_not_mem_cons hfresh

/-- What holds at the end of a history of names. -/
structure NamesOnce (i : InterpId) (generated listed : List String) (c c' : Config) : Prop where
  /-- No name was generated twice. -/
  distinct : generated.Nodup
  /-- The number of the next name is not greater than the history and the children that were there before
  account for. So a word of 64 bits holds it until as many names are used up as it can count. -/
  counter : (c'.world.interp i).nextChild ≤ (c.world.interp i).nextChild +
    (generated.length + (listed.length + (c.world.interp i).children.size))
  /-- The next name is a new one. -/
  fresh : (c'.world.interp i).generateName.1 ∉ generated
  /-- The next child that is made without a name is live and listed under the next name. -/
  create : (c'.world.interp i).deleted = false → ∀ safe,
    ((c'.world.bearUnnamed i safe).interp i).children = (c'.world.interp i).children.insert
      (c'.world.interp i).generateName.1 c'.world.nextInterp ∧
    ((c'.world.bearUnnamed i safe).interp c'.world.nextInterp).deleted = false ∧
    Naming i (generated ++ [(c'.world.interp i).generateName.1])
      (listed ++ [(c'.world.interp i).generateName.1]) c
      ⟨c'.world.bearUnnamed i safe, c'.brackets, c'.cut⟩
  /-- The history goes on with whatever the program does next. -/
  step : ∀ {c'' : Config}, Steps c' c'' →
    ∃ more others, Naming i (generated ++ more) (listed ++ others) c c''
  task : ∀ {α : Type} (task : Task α), ∃ cut more others,
    Naming i (generated ++ more) (listed ++ others) c
      ⟨(engine.call task).after c'.world, c'.brackets, cut⟩
  hostStep : ∀ (step : HostStep) (session : HostSession), ∃ cut more others,
    Naming i (generated ++ more) (listed ++ others) c
      ⟨(step.run session c'.world).2.2, c'.brackets, cut⟩
  scriptStep : ∀ (step : ScriptStep) (session : ScriptSession), ∃ cut more others,
    Naming i (generated ++ more) (listed ++ others) c
      ⟨(step.run session c'.world).2.2, c'.brackets, cut⟩

theorem Naming.namesOnce (hc : Reachable c) (hi : c.world.Knows i)
    (h : Naming i generated listed c c') : NamesOnce i generated listed c c' := by
  have hreach : Reachable c' := hc.steps h.steps
  have htold := h.told hc.sound hi
  have hleads {w' : World} (hleads : Leads c'.world w') : ∃ cut more others,
      Naming i (generated ++ more) (listed ++ others) c ⟨w', c'.brackets, cut⟩ := by
    obtain ⟨cut, hsteps⟩ := hleads.steps c'.brackets c'.cut
    exact ⟨cut, h.goesOn hc.sound hi hsteps⟩
  refine ⟨htold.distinct, htold.nextChild_le, htold.fresh, fun hlive safe => ?_, ?_, ?_, ?_, ?_⟩
  · have hnew : i ≠ c'.world.nextInterp :=
      Nat.ne_of_lt (hreach.sound.known i _ (World.get?_of_live hlive))
    obtain ⟨hnaming, hchild⟩ := World.interp_bearUnnamed hlive hnew safe
    exact ⟨congrArg Prod.snd hnaming, hchild, h.bearUnnamed hc.sound hi hlive safe⟩
  · exact fun hsteps => h.goesOn hc.sound hi hsteps
  · exact fun task => hleads (leads_engine task c'.world hreach.tidy).leads
  · exact fun step session => hleads (step.leads_run session hreach.tidy)
  · exact fun step session => hleads (step.leads_run session hreach.tidy)

/-- The search for a name comes to its end for every table of children and every counter, and what it finds
is the name of no child. So a live interpreter makes every child that is to be made without a name. And it
generates no name twice as long as it is there, whatever scripts and the host do in the meantime. -/
theorem generated_names_unique {w : World} (hw : w.interps = .empty)
    (hc : Steps ⟨w, [], ∅⟩ c) (hi : c.world.Knows i) :
    (∀ r : Interpreter,
      (∀ found, r.Searches r.nextChild found ↔
        found = (r.generateName.1, r.generateName.2.nextChild)) ∧
      r.generateName.2 = { r with nextChild := r.generateName.2.nextChild } ∧
      r.children.contains r.generateName.1 = false ∧
      r.generateName.2.nextChild ≤ r.nextChild + r.children.size + 1) ∧
    (∀ (e : Engine) (j : InterpId) (args : List String) (u : World),
      (∀ arg ∈ args, arg = "-safe" ∨ arg = "--") → (u.interp j).deleted = false →
        (Command.interp e j ("create" :: args)).run u =
          .ok (.ok (u.interp j).generateName.1) (u.bearUnnamed j (args.contains "-safe"))) ∧
    (∀ {c' c'' : Config}, Steps c c' → Steps (c'.modify i fun r => r.generateName.2) c'' →
      (c''.world.interp i).generateName.1 ≠ (c'.world.interp i).generateName.1) ∧
    ∀ {c' : Config} {generated listed : List String}, Naming i generated listed c c' →
      NamesOnce i generated listed c c' := by
  have hreach : Reachable c := ⟨w, hw, hc⟩
  refine ⟨fun r => ⟨fun found => searches_iff, rfl, r.generateName_free, r.nextChild_generateName_le⟩,
    fun e j args u hargs hlive => ?_, fun hsteps hlater => ?_, fun h => ?_⟩
  · exact Command.run_interp_create e hargs hlive
  · exact generateName_ne (hreach.sound.steps hsteps) (hsteps.knows hreach.sound hi) hlater
  · exact h.namesOnce hreach hi

/-- A name that looks like a generated one was chosen for a child, so the generated names pass over it. -/
theorem generated_names_firstMade :
    let c := firstMade.modify 0 (listChild "interp0" 1)
    (Command.interp engine 0 ["create"]).run c.world =
        .ok (.ok "interp1") (c.world.bearUnnamed 0 false) ∧
      ((c.world.bearUnnamed 0 false).interp 0).generateName.1 ∉ ["interp1"] := by
  intro c
  obtain ⟨-, hcreate, -, honce⟩ := generated_names_unique rfl (.single (.create "" true none))
    (c := firstMade) (i := 0) rfl
  have hname : (c.world.interp 0).generateName.1 = "interp1" := by decide +kernel
  constructor
  · have hanswer := hcreate engine 0 [] c.world (List.forall_mem_nil _) (by decide +kernel)
    rwa [hname] at hanswer
  · have hnext := ((honce (.list (.refl firstMade) "interp0" 1)).create (by decide +kernel) false).2.2
    rw [hname] at hnext
    exact (honce hnext).fresh

end Run

end ScriptHost
