import ScriptHost.Proofs.Command.Variables

/-!
# Parameters of procedures

What a procedure does with the arguments of a call. Each parameter takes the argument at its own
position or else its default, and a last parameter `args` takes the list of those that are left. A call
whose arguments do not fit is refused before its frame is there.
-/

namespace ScriptHost

open Interpreter

/-! ### Tables with given keys -/

namespace Table

variable {κ α : Type} [DecidableEq κ] {entries : List (κ × α)}

theorem entries_foldl_insert {t : Table κ α} (hkeys : (t.keys ++ entries.map (·.1)).Nodup) :
    (entries.foldl (fun t (k, a) => t.insert k a) t).entries = t.entries ++ entries := by
  induction entries generalizing t with
  | nil => rw [List.foldl_nil, List.append_nil]
  | cons entry rest ih =>
    obtain ⟨k, a⟩ := entry
    have hkeys' : ((t.keys ++ [k]) ++ rest.map (·.1)).Nodup := by
      rwa [List.append_assoc]
    have hnot : k ∉ t.keys := fun hmem =>
      List.disjoint_of_nodup_append hkeys hmem List.mem_cons_self
    rw [← keys_insert_of_not_mem hnot a] at hkeys'
    rw [List.foldl_cons, ih hkeys', entries_insert_of_not_mem hnot, List.append_assoc]
    rfl

/-- A table made of entries with different keys has just these entries. -/
theorem entries_ofList (hkeys : (entries.map (·.1)).Nodup) : (ofList entries).entries = entries :=
  entries_foldl_insert (t := empty) hkeys

end Table

/-! ### Calls that fit -/

namespace Procedure

variable {p : Param} {ps : List Param} {args : List String} {entries : List (String × String)}

/-- Whether the last parameter takes all arguments that are left. -/
def collects (ps : List Param) : Bool :=
  ps.getLast?.any fun p => p.name = "args"

/-- The parameters that take the argument at their own position. -/
def positional (ps : List Param) : List Param :=
  if collects ps then ps.dropLast else ps

/-- Arguments that fit: those that have to be there are, and none is too much. -/
structure Accepts (ps : List Param) (args : List String) : Prop where
  required : ∀ (k : Nat) (p : Param), (positional ps)[k]? = some p → p.default = none →
    k < args.length
  surplus : collects ps = true ∨ args.length ≤ (positional ps).length

/-- Variables that hold the arguments of a call: one for each parameter, in their order. -/
structure Binds (ps : List Param) (args : List String) (vars : Table String String) : Prop where
  names : vars.keys = ps.map (·.name)
  value : ∀ (k : Nat) (p : Param), (positional ps)[k]? = some p →
    vars.get? p.name = args[k]?.or p.default
  rest : collects ps = true →
    vars.get? "args" = some (WordList.merge (args.drop (positional ps).length))

/-- The same of variables that are listed in the order of the parameters. -/
structure Lists (ps : List Param) (args : List String) (vars : List (String × String)) : Prop where
  names : vars.map (·.1) = ps.map (·.name)
  value : ∀ (k : Nat) (p : Param), (positional ps)[k]? = some p →
    ∃ value, args[k]?.or p.default = some value ∧ vars[k]? = some (p.name, value)
  rest : collects ps = true → ("args", WordList.merge (args.drop (positional ps).length)) ∈ vars

theorem collects_cons (h : ¬(p.name = "args" ∧ ps = [])) : collects (p :: ps) = collects ps := by
  cases ps with
  | nil => simpa [collects] using h
  | cons q ps => rw [collects, List.getLast?_cons_cons, collects]

theorem positional_cons (h : ¬(p.name = "args" ∧ ps = [])) :
    positional (p :: ps) = p :: positional ps := by
  rw [positional, positional, collects_cons h]
  cases ps with
  | nil => rfl
  | cons q ps => rw [List.dropLast_cons_cons, ← apply_ite]

theorem positional_collector (h : p.name = "args") : positional [p] = [] := by
  simp [positional, collects, h]

theorem accepts_nil_iff : Accepts [] args ↔ args = [] := by
  constructor
  · rintro ⟨-, hsurplus⟩
    simpa [collects, positional] using hsurplus
  · rintro rfl
    exact ⟨nofun, .inr le_rfl⟩

theorem accepts_collector (h : p.name = "args") (args : List String) : Accepts [p] args := by
  refine ⟨?_, .inl (by simp [collects, h])⟩
  rw [positional_collector h]
  exact nofun

/-- A parameter in front asks for an argument or a default, and the others for what is left. -/
theorem accepts_cons_iff (h : ¬(p.name = "args" ∧ ps = [])) :
    Accepts (p :: ps) args ↔ (p.default = none → args ≠ []) ∧ Accepts ps args.tail := by
  have hsurplus : args.length ≤ (positional ps).length + 1 ↔
      args.tail.length ≤ (positional ps).length := by
    rw [List.length_tail]
    omega
  constructor
  · rintro ⟨hrequired, hle⟩
    rw [positional_cons h] at hrequired hle
    rw [collects_cons h] at hle
    refine ⟨fun hnone => List.length_pos_iff.1 (hrequired 0 p rfl hnone), ?_, ?_⟩
    · intro k q hq hnone
      have hlt := hrequired (k + 1) q hq hnone
      rw [List.length_tail]
      omega
    · exact hle.imp_right hsurplus.1
  · rintro ⟨hfirst, hrequired, hle⟩
    refine ⟨?_, ?_⟩
    · intro k q hq hnone
      rw [positional_cons h] at hq
      cases k with
      | zero =>
        cases hq
        exact List.length_pos_iff.2 (hfirst hnone)
      | succ k =>
        have hlt := hrequired k q hq hnone
        rw [List.length_tail] at hlt
        omega
    · rw [positional_cons h, collects_cons h]
      exact hle.imp_right hsurplus.2

theorem lists_collector (h : p.name = "args") (args : List String) :
    Lists [p] args [(p.name, WordList.merge args)] := by
  refine ⟨rfl, ?_, fun _ => ?_⟩
  · rw [positional_collector h]
    exact nofun
  · rw [positional_collector h, h]
    exact List.mem_cons_self

theorem Lists.cons {value : String} (h : ¬(p.name = "args" ∧ ps = []))
    (hvalue : args.head?.or p.default = some value) (hlists : Lists ps args.tail entries) :
    Lists (p :: ps) args ((p.name, value) :: entries) := by
  refine ⟨congrArg (p.name :: ·) hlists.names, ?_, ?_⟩
  · intro k q hq
    rw [positional_cons h] at hq
    cases k with
    | zero =>
      cases hq
      exact ⟨value, by rwa [← List.head?_eq_getElem?], rfl⟩
    | succ k =>
      have hrest := hlists.value k q hq
      rwa [List.getElem?_tail] at hrest
  · intro hcollects
    rw [collects_cons h] at hcollects
    have hrest := hlists.rest hcollects
    rw [List.drop_tail] at hrest
    rw [positional_cons h]
    exact List.mem_cons_of_mem _ hrest

/-- A call has variables if its arguments fit, and then they hold its arguments. -/
theorem bind?_spec (ps : List Param) (args : List String) :
    (∃ vars, bind? ps args = some vars ∧ Accepts ps args ∧ Lists ps args vars) ∨
      (bind? ps args = none ∧ ¬Accepts ps args) := by
  fun_induction bind? ps args with
  | case1 => exact .inl ⟨[], rfl, accepts_nil_iff.2 rfl, ⟨rfl, nofun, nofun⟩⟩
  | case2 arg args =>
    refine .inr ⟨rfl, ?_⟩
    rw [accepts_nil_iff]
    exact List.cons_ne_nil arg args
  | case3 p ps args h =>
    obtain ⟨hname, rfl⟩ := h
    exact .inl ⟨_, rfl, accepts_collector hname args, lists_collector hname args⟩
  | case4 p ps h arg args ih =>
    rw [accepts_cons_iff h]
    rcases ih with ⟨vars, hvars, haccepts, hlists⟩ | ⟨hnone, hrefuses⟩
    · rw [hvars]
      exact .inl ⟨_, rfl, ⟨fun _ => List.cons_ne_nil arg args, haccepts⟩, .cons h rfl hlists⟩
    · rw [hnone]
      exact .inr ⟨rfl, fun haccepts => hrefuses haccepts.2⟩
  | case5 p ps h value hdefault ih =>
    rw [accepts_cons_iff h]
    rcases ih with ⟨vars, hvars, haccepts, hlists⟩ | ⟨hnone, hrefuses⟩
    · rw [hvars]
      refine .inl ⟨_, rfl, ⟨fun hnone => ?_, haccepts⟩, .cons h hdefault hlists⟩
      rw [hdefault] at hnone
      cases hnone
    · rw [hnone]
      exact .inr ⟨rfl, fun haccepts => hrefuses haccepts.2⟩
  | case6 p ps h hdefault =>
    rw [accepts_cons_iff h]
    exact .inr ⟨rfl, fun haccepts => haccepts.1 hdefault rfl⟩

theorem bind?_of_accepts (h : Accepts ps args) : ∃ vars, bind? ps args = some vars ∧
    Lists ps args vars := by
  obtain ⟨vars, hvars, -, hlists⟩ | ⟨-, hrefuses⟩ := bind?_spec ps args
  · exact ⟨vars, hvars, hlists⟩
  · exact absurd h hrefuses

theorem bind?_of_not_accepts (h : ¬Accepts ps args) : bind? ps args = none := by
  obtain ⟨-, -, haccepts, -⟩ | ⟨hnone, -⟩ := bind?_spec ps args
  · exact absurd haccepts h
  · exact hnone

theorem Lists.binds (hlists : Lists ps args entries) (hnames : (ps.map (·.name)).Nodup) :
    Binds ps args (.ofList entries) := by
  rw [← hlists.names] at hnames
  have hentries := Table.entries_ofList hnames
  have hkeys : (Table.ofList entries).keys = entries.map (·.1) := by
    rw [Table.keys, hentries]
  have hget {name value : String} (hmem : (name, value) ∈ entries) :
      (Table.ofList entries).get? name = some value :=
    Table.get?_of_mem (hkeys ▸ hnames) (hentries.symm ▸ hmem)
  refine ⟨hkeys.trans hlists.names, ?_, fun hcollects => hget (hlists.rest hcollects)⟩
  intro k p hp
  obtain ⟨value, hvalue, hentry⟩ := hlists.value k p hp
  rw [hvalue]
  exact hget (List.mem_of_getElem? hentry)

end Procedure

/-! ### Formal parameters as scripts write them -/

open Procedure Command

variable {formals name body : String} {params : List Param} {p : Procedure} {e : Engine}
  {w : World} {i : InterpId} {args : List String}

/-- A text that declares a parameter: a list of its name and perhaps its default. -/
def DeclaresParam (declaration : String) (p : Param) : Prop :=
  ∃ rest, WordList.split declaration = .ok (p.name :: rest) ∧ p.default = rest.head?

/-- A text that declares parameters: a list of texts that declare one each. -/
def Declares (formals : String) (params : List Param) : Prop :=
  ∃ declarations, WordList.split formals = .ok declarations ∧
    List.Forall₂ DeclaresParam declarations params

theorem listArg_of_split {text : String} {ws : List String} (h : WordList.split text = .ok ws) :
    listArg text = pure ws := by
  rw [listArg, h]
  rfl

theorem paramsOf_of_forall₂ {declarations : List String}
    (h : List.Forall₂ DeclaresParam declarations params) (name : String) :
    paramsOf name declarations = pure params := by
  induction h with
  | nil => rfl
  | cons hp _ ih =>
    obtain ⟨rest, hsplit, hdefault⟩ := hp
    rw [paramsOf, paramOf, listArg_of_split hsplit, pure_bind, pure_bind, ih, pure_bind, ← hdefault]

/-- The procedure that a definition makes. -/
def Procedure.declared (name body : String) (params : List Param) : Procedure :=
  ⟨params, body, joinWords (name :: params.map Procedure.Param.usage)⟩

/-- A definition with well-formed parameters defines its procedure and does nothing else. -/
theorem run_proc (hformals : Declares formals params) (i : InterpId) (name body : String)
    (w : World) : (Command.proc i [name, formals, body]).run w =
      .ok (.ok "") (w.defineCommand i name (.procedure (declared name body params))) := by
  obtain ⟨declarations, hsplit, hparams⟩ := hformals
  rw [Command.proc, listArg_of_split hsplit, pure_bind, paramsOf_of_forall₂ hparams, pure_bind]
  rfl

/-! ### Calls -/

namespace World

/-- A world in which a call of a procedure has begun: it is noted and counted, and its variables are on
top. -/
def enterProcedure (w : World) (i : InterpId) (name : String) (p : Procedure)
    (vars : Table String String) : World :=
  (w.beginCommand i name (.procedure p) (w.interp i).depth).modifyInterp i fun r => r.enterCall vars

/-- A world in which a call of a procedure is over. -/
def leaveProcedure (w : World) (i : InterpId) (depth : Nat) : World :=
  (w.modifyInterp i leaveCall).modifyInterp i fun r => { r with depth }

theorem interp_enterProcedure (hlive : (w.interp i).deleted = false) (name : String) (p : Procedure)
    (vars : Table String String) : (w.enterProcedure i name p vars).interp i =
      { w.interp i with
        frames := { vars } :: (w.interp i).frames
        depth := (w.interp i).depth + 1 } := by
  have hbegin := interp_beginCommand hlive name (.procedure p) (w.interp i).depth
  have hlive' :
      ((w.beginCommand i name (.procedure p) (w.interp i).depth).interp i).deleted = false := by
    rw [hbegin]
    exact hlive
  rw [enterProcedure, interp_modifyInterp_of_live hlive', hbegin]
  rfl

end World

theorem run_invokeWords_procedure (hlive : (w.interp i).deleted = false)
    (hcommand : (w.interp i).commands.get? name = some (.procedure p))
    (hdepth : (w.interp i).depth < maxDepth) {vars : List (String × String)}
    (hvars : bind? p.params args = some vars) :
    (invokeWords e i (name :: args)).run w =
      Act.ensuring (Procedure.close <$> e.call (.script i p.body))
        (fun w' => w'.leaveProcedure i (w.interp i).depth)
        (w.enterProcedure i name p (.ofList vars)) := by
  rw [run_invokeWords hlive hcommand hdepth, runDeeper, Command.run, Procedure.call, hvars]
  change Act.ensuring (Act.ensuring (e.call (.script i p.body)) _ >>= _) _
    (w.enterProcedure i name p (.ofList vars)) = _
  -- the frame goes and then the depth, whether the body completes or is cut short
  cases hbody : e.call (.script i p.body) (w.enterProcedure i name p (.ofList vars)) with
  | ok completion w' =>
    simp only [Act.ensuring, hbody, Functor.map, EStateM.map, Bind.bind, EStateM.bind]
    rfl
  | error halt w' =>
    simp only [Act.ensuring, hbody, Functor.map, EStateM.map, Bind.bind, EStateM.bind]
    rfl

/-- A procedure that was defined with different parameters takes the arguments of a call as they
declare. If the arguments fit, the body runs once, with a frame on top that holds just the parameters:
each has the argument at its own position or else its default, and a last `args` the list of the
arguments that are left. If they do not fit, the call is refused and leaves no trace but the note of
it: it had no frame, and no other command was called. -/
theorem proc_binds_parameters (hformals : Declares formals params)
    (hnames : (params.map (·.name)).Nodup) (name body : String) :
    (∀ (i : InterpId) (w : World), (Command.proc i [name, formals, body]).run w =
      .ok (.ok "") (w.defineCommand i name (.procedure (declared name body params)))) ∧
    ∀ (e : Engine) (w : World) (i : InterpId) (args : List String),
      (w.interp i).deleted = false →
      (w.interp i).commands.get? name = some (.procedure (declared name body params)) →
      (w.interp i).depth < maxDepth →
      (Accepts params args → ∃ vars, Binds params args vars ∧
        ((w.enterProcedure i name (declared name body params) vars).interp i).frames =
          { vars } :: (w.interp i).frames ∧
        (invokeWords e i (name :: args)).run w =
          Act.ensuring (Procedure.close <$> e.call (.script i body))
            (fun w' => w'.leaveProcedure i (w.interp i).depth)
            (w.enterProcedure i name (declared name body params) vars)) ∧
      (¬Accepts params args → (invokeWords e i (name :: args)).run w =
        .ok (.error (.wrongArgs (declared name body params).usage))
          (w.record (.invoked i name (.procedure (declared name body params))))) := by
  refine ⟨fun i w => run_proc hformals i name body w, ?_⟩
  intro e w i args hlive hcommand hdepth
  constructor
  · intro haccepts
    obtain ⟨vars, hvars, hlists⟩ := bind?_of_accepts haccepts
    refine ⟨.ofList vars, hlists.binds hnames, ?_, ?_⟩
    · rw [World.interp_enterProcedure hlive]
    · exact run_invokeWords_procedure hlive hcommand hdepth hvars
  · intro hrefuses
    refine run_invokeWords_of_fails hlive hcommand hdepth ?_
    rw [Command.run, Procedure.call]
    simp only [declared, bind?_of_not_accepts hrefuses]
    rfl

/-- Three parameters: one with a default, one without, and a collector. -/
def Procedure.mixed : List Param :=
  [⟨"a", some "1"⟩, ⟨"b", none⟩, ⟨"args", none⟩]

/-- A world with one interpreter and a procedure of it. -/
def Procedure.world : World :=
  ((({} : World).newInterp "" true none).2).defineCommand 0 "f"
    (.procedure (declared "f" "llength $args" mixed))

/-- A default in front of a parameter without one does not help: there have to be two arguments. Those
after them are collected in a list. -/
theorem proc_binds_mixed :
    (invokeWords engine 0 ["f", "5"]).run Procedure.world =
      .ok (.error (.error "wrong # args: should be \"f ?a? b ?arg ...?\""))
        (Procedure.world.record
          (.invoked 0 "f" (.procedure (declared "f" "llength $args" mixed)))) ∧
    ∃ vars : Table String String,
      vars.keys = ["a", "b", "args"] ∧ vars.get? "a" = some "5" ∧ vars.get? "b" = some "6" ∧
      vars.get? "args" = some "\x7bx y\x7d z" ∧
      (invokeWords engine 0 ["f", "5", "6", "x y", "z"]).run Procedure.world =
        Act.ensuring (Procedure.close <$> engine.call (.script 0 "llength $args"))
          (fun w' => w'.leaveProcedure 0 0)
          (Procedure.world.enterProcedure 0 "f" (declared "f" "llength $args" mixed) vars) := by
  have hformals : Declares "\x7ba 1\x7d b args" mixed :=
    ⟨["a 1", "b", "args"], by decide +kernel,
      .cons ⟨["1"], by decide +kernel, rfl⟩ (.cons ⟨[], by decide +kernel, rfl⟩
        (.cons ⟨[], by decide +kernel, rfl⟩ .nil))⟩
  obtain ⟨-, hcalls⟩ := proc_binds_parameters hformals (by decide) "f" "llength $args"
  have hpositional : positional mixed = [⟨"a", some "1"⟩, ⟨"b", none⟩] := rfl
  constructor
  · refine (hcalls engine world 0 ["5"] rfl rfl (by decide)).2 ?_
    rintro ⟨hrequired, -⟩
    exact absurd (hrequired 1 ⟨"b", none⟩ (by rw [hpositional]; rfl) rfl) (by decide)
  · have haccepts : Accepts mixed ["5", "6", "x y", "z"] := by
      refine ⟨?_, .inl rfl⟩
      intro k p hp _
      have hlt := (List.getElem?_eq_some_iff.1 hp).1
      rw [hpositional] at hlt
      exact Nat.lt_of_lt_of_le hlt (by decide)
    obtain ⟨vars, hbinds, -, hrun⟩ :=
      (hcalls engine world 0 ["5", "6", "x y", "z"] rfl rfl (by decide)).1 haccepts
    refine ⟨vars, hbinds.names, hbinds.value 0 _ rfl, hbinds.value 1 _ rfl, ?_, hrun⟩
    exact (hbinds.rest rfl).trans (by decide +kernel)

end ScriptHost
