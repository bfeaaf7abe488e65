import Mathlib.Data.List.Chain
import Mathlib.Logic.Relation
import ScriptHost.Proofs.World.Trees

/-!
# The hooks that a deletion runs

Every hook that an interpreter has when its deletion begins, or that is installed on it later, is
run once. Unless hooks delete interpreters themselves, the hooks of an interpreter come after those
of all that is below it, except for hooks that were installed on a deleted interpreter and did not
wait for anything.
-/

namespace ScriptHost

/-! ### Every hook is run once -/

/-- The hooks of an interpreter among those that were run. -/
def own (i : InterpId) (ran : List HookRun) : List DeleteHook :=
  (ran.filter fun run => run.interp = i).map (·.hook)

@[simp]
theorem own_append (i : InterpId) (ran ran' : List HookRun) :
    own i (ran ++ ran') = own i ran ++ own i ran' := by
  simp [own]

@[simp]
theorem own_nil (i : InterpId) : own i [] = [] := rfl

theorem own_cons (i j : InterpId) (hook : DeleteHook) (late : Bool) (ran : List HookRun) :
    own i (⟨j, hook, late⟩ :: ran) = (if j = i then [hook] else []) ++ own i ran := by
  by_cases h : j = i <;> simp [own, h]

theorem installed_cons_delete (i j k : InterpId) (late : Bool) (ran : List HookRun) :
    installed i (⟨j, .delete k, late⟩ :: ran) = installed i ran := rfl

theorem installed_cons_watch (i j k : InterpId) (hook : DeleteHook) (late : Bool)
    (ran : List HookRun) :
    installed i (⟨j, .watch k hook, late⟩ :: ran) = (if k = i then [hook] else []) ++ installed i ran := by
  by_cases h : k = i <;> simp [installed, h]

namespace World

variable {w : World} {i j : InterpId}

theorem deleteHooks_secede (w : World) (r : Interpreter) (i j : InterpId) :
    ((w.secede r i).interp j).deleteHooks = (w.interp j).deleteHooks := by
  have hcancel := interpreters_foldl interpreters_cancelAfter ((w.detach r).interp i).afters.values
    ((w.detach r).modifyInterp i fun r => { r with afters := .empty })
  have hforget := keeps_modifyInterp (·.deleteHooks)
    (f := fun r => { r with afters := .empty }) (fun r => rfl) (w.detach r) i j
  rw [secede, cancelAfters, interp_eq_of_interpreters_eq hcancel, hforget, interp_detach]
  split <;> rfl

/-- The hooks that are taken off an interpreter are those that it loses. -/
theorem deleteHooks_disarm (w : World) (i j : InterpId) :
    (if i = j then (w.interp i).deleteHooks else []) ++ ((w.disarm i).interp j).deleteHooks =
      (w.interp j).deleteHooks := by
  rw [disarm]
  by_cases hij : i = j
  · subst hij
    cases hknown : w.interps.get? i with
    | some r =>
      rw [interp_modifyInterp_self (by rw [hknown]; rfl)]
      simp
    | none =>
      simp only [interp, Table.getD, get?_modifyInterp, hknown]
      simp
  · rw [interp_modifyInterp_of_ne hij]
    simp [hij]

end World

namespace Removal

open World

variable {job : Removal} {ran : List HookRun} {w u v w' : World} {i j : InterpId}

/-- The hooks of an interpreter that a part of a deletion is to run, apart from those that the
interpreter still has. -/
def pending (j : InterpId) : Removal → List DeleteHook
  | .tree _ => []
  | .trees _ => []
  | .hook i h _ => if i = j then [h] else []
  | .hooks i hs => if i = j then hs else []

/-- No hook is lost and none is run twice. -/
theorem Runs.count (h : Runs job w ran w') (j : InterpId) (hook : DeleteHook) :
    (job.pending j).count hook + (w.interp j).deleteHooks.count hook +
        (installed j ran).count hook =
      (own j ran).count hook + (w'.interp j).deleteHooks.count hook := by
  induction h with
  | gone | noTrees | noHooks => simp [pending]
  | @tree i w u v ran ran' hlive _ _ ih ih' =>
    have hcondemn := keeps_modifyInterp (·.deleteHooks) (f := Interpreter.condemn) (fun r => rfl) w i j
    have htaken := congrArg (List.count hook) (deleteHooks_disarm (u.secede (w.interp i) i) i j)
    have hwipe := keeps_modifyInterp (·.deleteHooks) (f := Interpreter.wipe) (fun r => rfl) v i j
    rw [deleteHooks_secede u (w.interp i) i j, List.count_append] at htaken
    rw [hcondemn] at ih
    rw [hwipe, installed_append, own_append, List.count_append, List.count_append]
    simp only [pending, List.count_nil] at ih ih' ⊢
    omega
  | trees _ _ ih ih' =>
    rw [installed_append, own_append, List.count_append, List.count_append]
    simp only [pending, List.count_nil] at ih ih' ⊢
    omega
  | log => simp [pending, own_cons, installed, interp, World.addLog]
  | @untrack i h late w =>
    rw [interp_eq_of_interpreters_eq (interpreters_untrack w h)]
    simp [pending, own_cons, installed]
  | delete _ ih =>
    simp only [pending, own_cons, installed_cons_delete, List.count_append, List.count_nil] at ih ⊢
    omega
  | @install i k hook' late w hlive =>
    rw [own_cons, installed_cons_watch]
    by_cases hkj : k = j
    · subst hkj
      rw [interp_modifyInterp_of_live hlive]
      simp only [pending, own_nil, installed_nil, if_true, List.append_nil, List.count_append]
      omega
    · rw [interp_modifyInterp_of_ne hkj]
      simp [pending, hkj]
  | late hgone _ ih =>
    simp only [pending, own_cons, installed_cons_watch, List.count_append] at ih ⊢
    omega
  | @hooks i hook' hooks _ _ _ ran ran' _ _ ih ih' =>
    rw [installed_append, own_append, List.count_append, List.count_append]
    have hsplit : (pending j (.hooks i (hook' :: hooks))).count hook =
        (pending j (.hook i hook' false)).count hook + (pending j (.hooks i hooks)).count hook := by
      rw [← List.count_append]
      by_cases hij : i = j <;> simp [pending, hij]
    omega

/-- Every hook of an interpreter, and every one that is installed on it, is run once or still
there. -/
theorem Runs.perm (h : Runs (.tree i) w ran w') (j : InterpId) :
    ((w.interp j).deleteHooks ++ installed j ran).Perm (own j ran ++ (w'.interp j).deleteHooks) := by
  rw [List.perm_iff_count]
  intro hook
  have hcount := h.count j hook
  rw [List.count_append, List.count_append]
  simp only [pending, List.count_nil] at hcount
  omega

end Removal

/-! ### What is below an interpreter -/

namespace World

variable {w w' : World} {i j k p c : InterpId} {dying : Set InterpId}

/-- An interpreter is a child of another one. -/
def ChildOf (w : World) (p c : InterpId) : Prop :=
  (w.interp c).parent = some p

/-- An interpreter is another one or below it. -/
def Beneath (w : World) : InterpId → InterpId → Prop :=
  Relation.ReflTransGen w.ChildOf

/-- An interpreter is below another one. -/
def Below (w : World) : InterpId → InterpId → Prop :=
  Relation.TransGen w.ChildOf

theorem childOf_congr (h : ∀ i, (w'.interp i).parent = (w.interp i).parent) :
    w'.ChildOf = w.ChildOf := by
  funext p c
  rw [ChildOf, ChildOf, h]

theorem Strips.childOf {ran : List HookRun} (h : Strips ran w w') : w'.ChildOf = w.ChildOf :=
  childOf_congr fun i => (h.kin i).1

theorem childOf_condemn (hlive : (w.interp i).deleted = false) :
    (w.modifyInterp i Interpreter.condemn).ChildOf = w.ChildOf :=
  childOf_congr fun j => (kin_condemn hlive j).1

theorem beneath_congr (h : w'.ChildOf = w.ChildOf) : w'.Beneath = w.Beneath := by
  rw [Beneath, h, Beneath]

theorem below_congr (h : w'.ChildOf = w.ChildOf) : w'.Below = w.Below := by
  rw [Below, h, Below]

theorem Trees.lt_of_below (hw : w.Trees dying) (h : w.Below i j) : i < j := by
  induction h with
  | single hchild => exact hw.parent_lt _ _ hchild
  | tail _ hchild ih => exact Nat.lt_trans ih (hw.parent_lt _ _ hchild)

theorem Trees.le_of_beneath (hw : w.Trees dying) (h : w.Beneath i j) : i ≤ j := by
  rcases Relation.reflTransGen_iff_eq_or_transGen.1 h with rfl | hbelow
  · exact Nat.le_refl _
  · exact Nat.le_of_lt (hw.lt_of_below hbelow)

/-- Of two interpreters with something below both of them one is below the other. -/
theorem Beneath.total (h : w.Beneath i k) (h' : w.Beneath j k) : w.Beneath i j ∨ w.Beneath j i := by
  induction h with
  | refl => exact .inr h'
  | @tail b c h hchild ih =>
    rcases Relation.ReflTransGen.cases_tail h' with heq | ⟨d, hd, hchild'⟩
    · subst heq
      exact .inl (h.tail hchild)
    · cases hchild.symm.trans hchild'
      exact ih hd

/-- What is below siblings is apart. -/
theorem Trees.apart (hw : w.Trees dying) (hp : w.ChildOf p i) (hp' : w.ChildOf p j) (hij : i ≠ j)
    (hk : w.Beneath i k) : ¬w.Beneath j k := by
  intro hk'
  have hstrict {a b : InterpId} (ha : w.ChildOf p a) (hb : w.ChildOf p b) (hab : a ≠ b) :
      ¬w.Beneath a b := by
    intro hbeneath
    rcases Relation.ReflTransGen.cases_tail hbeneath with heq | ⟨q, hq, hchild⟩
    · exact hab heq.symm
    · cases hb.symm.trans hchild
      exact absurd (hw.parent_lt a p ha) (Nat.not_lt.2 (hw.le_of_beneath hq))
  rcases hk.total hk' with h | h
  · exact hstrict hp hp' hij h
  · exact hstrict hp' hp hij.symm h

end World

/-! ### The order of the hooks -/

namespace Removal

open World

variable {job : Removal} {ran ran' : List HookRun} {w u v w' : World} {i p b : InterpId}
  {dying : Set InterpId}

/-- Of hooks that waited for a deletion, those of an interpreter come after those of all that is
below it. -/
def Ordered (w : World) (ran : List HookRun) : Prop :=
  ran.Pairwise fun a b => a.late = false → b.late = false → ¬w.Below a.interp b.interp

/-- Interpreters that are deleted one after the other are children of the same one. -/
def Siblings (w : World) : Removal → Prop
  | .trees is => ∃ p, ∀ c ∈ is, w.ChildOf p c
  | _ => True

/-- A part of a deletion may run a hook of some interpreter that waited. -/
def Reaches (w : World) : Removal → InterpId → Prop
  | .tree i, b => (w.interp i).deleted = false ∧ w.Beneath i b
  | .trees is, b => ∃ c ∈ is, (w.interp c).deleted = false ∧ w.Beneath c b
  | .hook i _ late, b => late = false ∧ b = i
  | .hooks i _, b => b = i

theorem ordered_congr (h : w'.ChildOf = w.ChildOf) : Ordered w' ran ↔ Ordered w ran := by
  rw [Ordered, below_congr h, Ordered]

theorem siblings_childIds (hw : w.Trees dying) (i : InterpId) :
    Siblings w (.trees (w.interp i).childIds) := by
  refine ⟨i, fun c hc => ?_⟩
  obtain ⟨name, hname⟩ := Interpreter.mem_childIds.1 hc
  exact (hw.child i name c hname).1

theorem childOf_secede (hknown : (u.interps.get? i).isSome = true) (r : Interpreter) :
    ((u.secede r i).disarm i).ChildOf = u.ChildOf := by
  refine childOf_congr fun j => ?_
  have hfamily : (((u.secede r i).disarm i).interp j).parent = ((u.detach r).interp j).parent :=
    congrArg (·.1) (family_secede hknown r j)
  rw [hfamily, (detach_same r j).1]

/-- The hooks that are run when an interpreter is deleted, its own after those of its children. -/
theorem ordered_tree (hw : w.Trees dying) (hlive : (w.interp i).deleted = false)
    (hordered : Ordered w ran) (hordered' : Ordered w ran')
    (hreaches : ∀ run ∈ ran, run.late = false → w.Below i run.interp)
    (hreaches' : ∀ run ∈ ran', run.late = false → run.interp = i) :
    Ordered w (ran ++ ran') ∧
      ∀ run ∈ ran ++ ran', run.late = false → (Removal.tree i).Reaches w run.interp := by
  constructor
  · refine List.pairwise_append.2 ⟨hordered, hordered', fun a ha b hb halate hblate hbelow => ?_⟩
    rw [hreaches' b hb hblate] at hbelow
    exact Nat.lt_asymm (hw.lt_of_below hbelow) (hw.lt_of_below (hreaches a ha halate))
  · intro run hrun hlate
    refine ⟨hlive, ?_⟩
    rcases List.mem_append.1 hrun with hrun | hrun
    · exact (hreaches run hrun hlate).to_reflTransGen
    · rw [hreaches' run hrun hlate]
      exact .refl

/-- The hooks that are run when siblings are deleted. The first one is deleted already when the
others' turn comes, so what is reached then is below another one. -/
theorem ordered_trees {is : List InterpId} (hw : w.Trees dying)
    (hsiblings : ∀ c ∈ i :: is, w.ChildOf p c) (hordered : Ordered w ran)
    (hordered' : Ordered w ran')
    (hreaches : ∀ run ∈ ran, run.late = false → (Removal.tree i).Reaches w run.interp)
    (hreaches' : ∀ run ∈ ran', run.late = false →
      ∃ c ∈ is, c ≠ i ∧ (w.interp c).deleted = false ∧ w.Beneath c run.interp) :
    Ordered w (ran ++ ran') ∧
      ∀ run ∈ ran ++ ran', run.late = false → (Removal.trees (i :: is)).Reaches w run.interp := by
  constructor
  · refine List.pairwise_append.2 ⟨hordered, hordered', fun a ha b hb halate hblate hbelow => ?_⟩
    obtain ⟨c, hc, hci, -, hbeneath⟩ := hreaches' b hb hblate
    refine hw.apart (hsiblings i List.mem_cons_self) (hsiblings c (List.mem_cons_of_mem _ hc))
      hci.symm ?_ hbeneath
    exact (hreaches a ha halate).2.trans hbelow.to_reflTransGen
  · intro run hrun hlate
    rcases List.mem_append.1 hrun with hrun | hrun
    · exact ⟨i, List.mem_cons_self, hreaches run hrun hlate⟩
    · obtain ⟨c, hc, -, hclive, hbeneath⟩ := hreaches' run hrun hlate
      exact ⟨c, List.mem_cons_of_mem _ hc, hclive, hbeneath⟩

/-- The hooks of one interpreter. -/
theorem ordered_hooks {hook : DeleteHook} {hooks : List DeleteHook} (hw : w.Trees dying)
    (hordered : Ordered w ran) (hordered' : Ordered w ran')
    (hreaches : ∀ run ∈ ran, run.late = false → (Removal.hook i hook false).Reaches w run.interp)
    (hreaches' : ∀ run ∈ ran', run.late = false → (Removal.hooks i hooks).Reaches w run.interp) :
    Ordered w (ran ++ ran') ∧
      ∀ run ∈ ran ++ ran', run.late = false →
        (Removal.hooks i (hook :: hooks)).Reaches w run.interp := by
  constructor
  · refine List.pairwise_append.2 ⟨hordered, hordered', fun a ha b hb halate hblate hbelow => ?_⟩
    rw [(hreaches a ha halate).2, hreaches' b hb hblate] at hbelow
    exact Nat.lt_irrefl i (hw.lt_of_below hbelow)
  · intro run hrun hlate
    rcases List.mem_append.1 hrun with hrun | hrun
    · exact (hreaches run hrun hlate).2
    · exact hreaches' run hrun hlate

/-- A hook that installs one on a deleted interpreter, which did not wait for anything. -/
theorem ordered_late {j : InterpId} {hook hook' : DeleteHook} {late : Bool}
    (hordered : Ordered w ran)
    (hreaches : ∀ run ∈ ran, run.late = false → (Removal.hook j hook' true).Reaches w run.interp) :
    Ordered w (⟨i, hook, late⟩ :: ran) ∧
      ∀ run ∈ ⟨i, hook, late⟩ :: ran, run.late = false →
        (Removal.hook i hook late).Reaches w run.interp := by
  have hlate : ∀ run ∈ ran, run.late ≠ false := fun run hrun hearly =>
    Bool.noConfusion (hreaches run hrun hearly).1
  constructor
  · exact List.pairwise_cons.2 ⟨fun b hb _ hbearly => absurd hbearly (hlate b hb), hordered⟩
  · intro run hrun hearly
    rcases List.mem_cons.1 hrun with rfl | hrun
    · exact ⟨hearly, rfl⟩
    · exact absurd hearly (hlate run hrun)

/-- If no hook deletes an interpreter, the hooks that waited are run in order. -/
theorem Runs.ordered (h : Runs job w ran w') (hw : w.Trees dying) (hsiblings : job.Siblings w)
    (hkeep : ∀ run ∈ ran, ∀ k, run.hook ≠ .delete k) :
    Ordered w ran ∧ ∀ run ∈ ran, run.late = false → job.Reaches w run.interp := by
  induction h generalizing dying with
  | gone | noTrees | noHooks => exact ⟨.nil, nofun⟩
  | @tree i w u v ran ran' hlive hchildren hhooks ih ih' =>
    obtain ⟨hu, hbereaves⟩ := hchildren.keeps (hw.condemn hlive)
    obtain ⟨hkeep, hkeep'⟩ := List.forall_mem_append.1 hkeep
    have hstart := childOf_condemn hlive
    have hmiddle := (childOf_secede (isSome_of_condemn hlive hchildren.prunes) (w.interp i)).trans
      ((hchildren.strips (hw.childless.condemn i)).childOf.trans hstart)
    obtain ⟨p, hp⟩ := siblings_childIds hw i
    obtain ⟨hordered, hreaches⟩ := ih (hw.condemn hlive) ⟨p, by rwa [hstart]⟩ hkeep
    obtain ⟨hordered', hreaches'⟩ :=
      ih' (trees_secede hw hlive hchildren hu hbereaves) trivial hkeep'
    refine ordered_tree hw hlive ((ordered_congr hstart).1 hordered)
      ((ordered_congr hmiddle).1 hordered') (fun run hrun hlate => ?_) hreaches'
    obtain ⟨c, hc, -, hbeneath⟩ := hreaches run hrun hlate
    obtain ⟨name, hname⟩ := Interpreter.mem_childIds.1 hc
    rw [beneath_congr hstart] at hbeneath
    exact .head' (hw.child i name c hname).1 hbeneath
  | @trees i is w u w' ran ran' hfirst hrest ih ih' =>
    obtain ⟨p, hp⟩ := hsiblings
    obtain ⟨hkeep, hkeep'⟩ := List.forall_mem_append.1 hkeep
    have hkin := (hfirst.strips hw.childless).childOf
    obtain ⟨hordered, hreaches⟩ := ih hw trivial hkeep
    obtain ⟨hordered', hreaches'⟩ := ih' (hfirst.keeps hw).1
      ⟨p, fun c hc => by rw [hkin]; exact hp c (List.mem_cons_of_mem _ hc)⟩ hkeep'
    refine ordered_trees hw hp hordered ((ordered_congr hkin).1 hordered') hreaches
      fun run hrun hlate => ?_
    obtain ⟨c, hc, hclive, hbeneath⟩ := hreaches' run hrun hlate
    rw [beneath_congr hkin] at hbeneath
    refine ⟨c, hc, ?_, (hfirst.strips hw.childless).live hclive, hbeneath⟩
    rintro rfl
    rw [hfirst.deleted] at hclive
    cases hclive
  | log | untrack | install =>
    refine ⟨List.pairwise_singleton _ _, fun run hrun hlate => ?_⟩
    rw [List.mem_singleton.1 hrun] at hlate ⊢
    exact ⟨hlate, rfl⟩
  | delete => exact absurd rfl (hkeep _ List.mem_cons_self _)
  | late hgone hhook ih =>
    obtain ⟨hordered, hreaches⟩ := ih hw trivial (List.forall_mem_cons.1 hkeep).2
    exact ordered_late hordered hreaches
  | hooks hfirst hrest ih ih' =>
    obtain ⟨hkeep, hkeep'⟩ := List.forall_mem_append.1 hkeep
    have hkin := (hfirst.strips hw.childless).childOf
    obtain ⟨hordered, hreaches⟩ := ih hw trivial hkeep
    obtain ⟨hordered', hreaches'⟩ := ih' (hfirst.keeps hw).1 trivial hkeep'
    exact ordered_hooks hw hordered ((ordered_congr hkin).1 hordered') hreaches hreaches'

/-- A hook that is run at once comes right after the one that installs it. -/
def AtOnce (a b : HookRun) : Prop :=
  b.late = true → a.hook = .watch b.interp b.hook

/-- The first hook that a part of a deletion runs is run at once only if the part is that. -/
def Begins : Removal → List HookRun → Prop
  | .hook i h late, ran => ran.head? = some ⟨i, h, late⟩
  | _, ran => ∀ run ∈ ran.head?, run.late = false

theorem atOnce_append (h : ran.IsChain AtOnce) (h' : ran'.IsChain AtOnce)
    (hhead : ∀ run ∈ ran'.head?, run.late = false) : (ran ++ ran').IsChain AtOnce := by
  refine List.isChain_append.2 ⟨h, h', fun a _ b hb hlate => ?_⟩
  rw [hhead b hb] at hlate
  cases hlate

theorem head_append (h : ∀ run ∈ ran.head?, run.late = false)
    (h' : ∀ run ∈ ran'.head?, run.late = false) :
    ∀ run ∈ (ran ++ ran').head?, run.late = false := by
  cases ran with
  | nil => exact h'
  | cons first rest => exact h

theorem Runs.chain (h : Runs job w ran w') : ran.IsChain AtOnce ∧ job.Begins ran := by
  induction h with
  | gone | noTrees | noHooks => exact ⟨.nil, nofun⟩
  | tree _ _ _ ih ih' => exact ⟨atOnce_append ih.1 ih'.1 ih'.2, head_append ih.2 ih'.2⟩
  | trees _ _ ih ih' => exact ⟨atOnce_append ih.1 ih'.1 ih'.2, head_append ih.2 ih'.2⟩
  | log | untrack | install => exact ⟨.singleton _, rfl⟩
  | delete _ ih =>
    refine ⟨List.isChain_cons.2 ⟨fun b hb hlate => ?_, ih.1⟩, rfl⟩
    rw [ih.2 b hb] at hlate
    cases hlate
  | late _ _ ih =>
    refine ⟨List.isChain_cons.2 ⟨fun b hb _ => ?_, ih.1⟩, rfl⟩
    cases Option.some.inj (ih.2.symm.trans hb)
    rfl
  | hooks _ _ ih ih' =>
    refine ⟨atOnce_append ih.1 ih'.1 ih'.2, head_append (fun run hrun => ?_) ih'.2⟩
    cases Option.some.inj (ih.2.symm.trans hrun)
    rfl

end Removal

end ScriptHost
