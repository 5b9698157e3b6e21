import Walkthrough.Proofs.Accounts
import Walkthrough.Proofs.RunShape

/-! Where functions are declared. The functions of a program are registered before any of its
statements run, and each has a name of its own; so a call finds the same function wherever it is
declared, and a program whose declarations are moved about does what it did before. -/

namespace Walkthrough

variable {W S : Type}

/-- The functions can stand in one program, next to the names that are taken: each is new to the
others and has parameters of different names. -/
structure Declarable (taken : String → Bool) (functions : List (Function S)) : Prop where
  free : ∀ f ∈ functions, taken f.name = false
  params : ∀ f ∈ functions, Exec.firstRepeated? [] f.params = none
  distinct : (functions.map Function.name).Nodup

theorem Declarable.perm {taken : String → Bool} {functions functions' : List (Function S)}
    (h : Declarable taken functions) (same : functions.Perm functions') :
    Declarable taken functions' where
  free f member := h.free f (same.symm.subset member)
  params f member := h.params f (same.symm.subset member)
  distinct := (same.map Function.name).nodup_iff.mp h.distinct

namespace Exec

theorem hoist_behind {taken : String → Bool} {accepted : List (Function S)}
    (declarable : Declarable taken accepted) (functions out : List (Function S)) :
    hoist taken accepted functions = .ok out ↔
      out = accepted ++ functions ∧ Declarable taken (accepted ++ functions) := by
  induction functions generalizing accepted with
  | nil =>
      rw [hoist, List.append_nil]
      constructor
      · intro done
        cases done
        exact ⟨rfl, declarable⟩
      · rintro ⟨rfl, -⟩
        rfl
  | cons f rest ih =>
      have member : f ∈ accepted ++ f :: rest := by simp
      have regroup : accepted ++ f :: rest = accepted ++ [f] ++ rest := by simp
      unfold hoist
      by_cases used : (taken f.name || accepted.any fun g => g.name == f.name) = true
      · rw [if_pos used]
        constructor
        · intro refused
          cases refused
        · rintro ⟨-, all⟩
          apply absurd used
          simp only [Bool.or_eq_true, List.any_eq_true, beq_iff_eq, not_or, not_exists, not_and]
          constructor
          · rw [all.free f member]
            exact Bool.false_ne_true
          · intro g among same
            have apart := all.distinct
            rw [List.map_append, List.map_cons] at apart
            apply List.disjoint_of_nodup_append apart (List.mem_map_of_mem among)
            rw [same]
            exact List.mem_cons_self
      · rw [if_neg used]
        cases repeated : firstRepeated? [] f.params with
        | some parameter =>
            constructor
            · intro refused
              cases refused
            · rintro ⟨-, all⟩
              rw [all.params f member] at repeated
              cases repeated
        | none =>
            simp only [Bool.or_eq_true, List.any_eq_true, beq_iff_eq, not_or, not_exists, not_and,
              Bool.not_eq_true] at used
            obtain ⟨free, new⟩ := used
            rw [regroup]
            apply ih
            constructor
            · simpa [or_imp, forall_and] using ⟨declarable.free, free⟩
            · simpa [or_imp, forall_and] using ⟨declarable.params, repeated⟩
            · rw [List.map_append, List.map_singleton]
              apply declarable.distinct.append (List.nodup_singleton _)
              intro name among last
              obtain ⟨g, member, rfl⟩ := List.mem_map.mp among
              exact new g member (List.mem_singleton.mp last)

/-- The functions of a program are accepted just when they can stand in one program, and then they
are registered as they stand. -/
theorem hoist_eq_ok {taken : String → Bool} {functions out : List (Function S)} :
    hoist taken [] functions = .ok out ↔ out = functions ∧ Declarable taken functions :=
  hoist_behind ⟨by simp, by simp, by simp⟩ functions out

theorem find?_name_eq_some {functions : List (Function S)}
    (distinct : (functions.map Function.name).Nodup) {name : String} {f : Function S} :
    functions.find? (fun g => g.name == name) = some f ↔ f ∈ functions ∧ f.name = name := by
  constructor
  · intro found
    exact ⟨List.mem_of_find?_eq_some found, by simpa using List.find?_some found⟩
  · rintro ⟨member, rfl⟩
    cases found : functions.find? fun g => g.name == f.name with
    | none => simpa using List.find?_eq_none.mp found f member
    | some g =>
        have same : g.name = f.name := by simpa using List.find?_some found
        have among := List.mem_of_find?_eq_some found
        rw [List.inj_on_of_nodup_map distinct among member same]

theorem find?_name_perm {functions functions' : List (Function S)}
    (distinct : (functions.map Function.name).Nodup) (same : functions.Perm functions')
    (name : String) :
    functions.find? (fun f => f.name == name) = functions'.find? (fun f => f.name == name) := by
  have distinct' := (same.map Function.name).nodup_iff.mp distinct
  apply Option.ext
  intro f
  rw [find?_name_eq_some distinct, find?_name_eq_some distinct', same.mem_iff]

section Calls

variable {functions functions' : List (Function S)}
  (finds : ∀ name, functions.find? (fun f => f.name == name) =
    functions'.find? fun f => f.name == name)
include finds

theorem resolve_congr (run : Function S → List Value → Position → Exec W Value) :
    resolve functions run = resolve functions' run := by
  funext name args position
  unfold resolve
  rw [finds name]

theorem callFunction_congr (pass : Value → Exec W Value)
    (exec : Caller W → S → Exec W Completion) (room : Nat) :
    callFunction functions pass exec room = callFunction functions' pass exec room := by
  induction room with
  | zero => exact resolve_congr finds _
  | succ room ih =>
      unfold callFunction
      rw [ih]
      exact resolve_congr finds _

end Calls
end Exec

/-- Two programs are the same but for the places of the declarations in them: they have the same
statements, and those that declare nothing stand in the same order. -/
structure Rearranged (declares? : S → Option (Function S)) (before after : List S) : Prop where
  members : before.Perm after
  order : before.filter (fun s => (declares? s).isNone) =
    after.filter fun s => (declares? s).isNone

def Accepted (taken : String → Bool) (declares? : S → Option (Function S)) (program : List S) :
    Prop :=
  ∃ functions, Exec.hoist taken [] (program.filterMap declares?) = .ok functions

section Programs

variable {taken : String → Bool} {declares? : S → Option (Function S)} {before after : List S}

theorem accepted_iff :
    Accepted taken declares? before ↔ Declarable taken (before.filterMap declares?) := by
  constructor
  · rintro ⟨functions, hoisted⟩
    exact (Exec.hoist_eq_ok.mp hoisted).2
  · intro declarable
    exact ⟨_, Exec.hoist_eq_ok.mpr ⟨rfl, declarable⟩⟩

theorem Rearranged.accepted (moved : Rearranged declares? before after)
    (accepted : Accepted taken declares? before) : Accepted taken declares? after := by
  rw [accepted_iff] at accepted ⊢
  exact accepted.perm (moved.members.filterMap declares?)

theorem Exec.get_bind_apply {α : Type} (f : Machine W → Exec W α) (m : Machine W) :
    (get >>= f) m = f m m :=
  rfl

/-- A program of some language: its functions are registered, then its other statements run. -/
def Exec.runDeclared (taken : String → Bool) (declares? : S → Option (Function S))
    (pass : Value → Exec W Value) (exec : Caller W → S → Exec W Completion) (program : List S) :
    Exec W (Caller W) :=
  match hoist taken [] (program.filterMap declares?) with
  | .error failure => throw failure
  | .ok functions => do
    let call := callFunction functions pass exec callLimit
    runAll (exec call) (program.filter fun s => (declares? s).isNone)
    return call

/-- Every call finds the function it found before, and the same statements run in the same order. -/
theorem Rearranged.run_eq (moved : Rearranged declares? before after)
    (accepted : Accepted taken declares? before) (pass : Value → Exec W Value)
    (exec : Caller W → S → Exec W Completion) :
    Exec.runDeclared taken declares? pass exec before =
      Exec.runDeclared taken declares? pass exec after := by
  have declarable := accepted_iff.mp accepted
  have declarable' := accepted_iff.mp (moved.accepted accepted)
  have finds := Exec.find?_name_perm declarable.distinct (moved.members.filterMap declares?)
  unfold Exec.runDeclared
  rw [Exec.hoist_eq_ok.mpr ⟨rfl, declarable⟩, Exec.hoist_eq_ok.mpr ⟨rfl, declarable'⟩]
  dsimp only
  rw [Exec.callFunction_congr finds pass exec callLimit, moved.order]

end Programs

namespace Language.Loaded

/-- What is left of a program, with a call from outside behind it if one is asked for. -/
def outcome (loaded : Loaded W) (setup : Setup W) (source : String)
    (call : Option (String × List Json)) : Outcome W :=
  complete setup source loaded.access (loaded.whole call)

theorem outcome_of_load {language : Language} {source : String} {loaded : Loaded W}
    (parsed : load W language source = .ok loaded) (setup : Setup W)
    (call : Option (String × List Json)) :
    Language.outcome language source setup call = loaded.outcome setup source call := by
  rw [outcome_eq parsed setup call, outcome, complete_eq]

theorem outcome_congr {access : GlobalAccess} {run run' : Exec W (Caller W)} {setup : Setup W}
    {source : String} (same : run (start setup source access) = run' (start setup source access))
    (call : Option (String × List Json)) :
    outcome ⟨access, run⟩ setup source call = outcome ⟨access, run'⟩ setup source call := by
  unfold outcome
  rw [complete_eq, complete_eq]
  cases call <;> simp only [whole, Exec.bind_apply, same]

end Language.Loaded

namespace JikiScript

/-- A name that no function of a program may have: the host offers a function of it. -/
def taken (offered : List (HostFunction W)) (name : String) : Bool :=
  (Exec.hostFunction? offered name).isSome

def Program.loaded (program : Program) : Language.Loaded W :=
  { access := .hidden, run := program.run }

theorem Program.run_apply (program : Program) (m : Machine W) :
    program.run m =
      Exec.runDeclared (taken m.functions) Stmt.function? pass exec program m := by
  have functions : program.filterMap Stmt.function? = program.functions := rfl
  unfold Program.run Exec.runDeclared taken
  rw [functions, Exec.get_bind_apply]
  dsimp only
  cases Exec.hoist _ [] program.functions <;> rfl

theorem Program.outcome_of_parse {source : String} {program : Program}
    (read : parse source = .ok program) (setup : Setup W) (call : Option (String × List Json)) :
    Language.outcome .jikiScript source setup call = program.loaded.outcome setup source call := by
  apply Language.Loaded.outcome_of_load
  unfold Language.load
  simp only [read]
  rfl

end JikiScript

namespace JavaScript

/-- A name that no function of a program may have: it is built in, or the host offers a function
of it. -/
def taken (offered : List (HostFunction W)) (name : String) : Bool :=
  builtinNames.contains name || (Exec.hostFunction? offered name).isSome

def Program.loaded (program : Program) : Language.Loaded W :=
  { access := .visible, run := program.run }

theorem Program.run_apply (program : Program) (m : Machine W) :
    program.run m =
      Exec.runDeclared (taken m.functions) Stmt.function? pass exec program m := by
  have functions : program.filterMap Stmt.function? = program.functions := rfl
  unfold Program.run Exec.runDeclared taken
  rw [functions, Exec.get_bind_apply]
  dsimp only
  cases Exec.hoist _ [] program.functions <;> rfl

theorem Program.outcome_of_parse {source : String} {program : Program}
    (read : parse source = .ok program) (setup : Setup W) (call : Option (String × List Json)) :
    Language.outcome .javaScript source setup call = program.loaded.outcome setup source call := by
  apply Language.Loaded.outcome_of_load
  unfold Language.load
  simp only [read]
  rfl

end JavaScript

/-- Functions may be declared anywhere. When the functions of a program are accepted, they are
accepted wherever they are declared among its other statements, and what is left of the program is
the same: its frames, its lines, its calls of the host, and what a function called from outside
gives back. -/
theorem declarations_stand_anywhere (setup : Setup W) (source : String)
    (call : Option (String × List Json)) :
    (∀ p q : JikiScript.Program, Rearranged JikiScript.Stmt.function? p q →
      Accepted (JikiScript.taken setup.functions) JikiScript.Stmt.function? p →
      Accepted (JikiScript.taken setup.functions) JikiScript.Stmt.function? q ∧
        p.loaded.outcome setup source call = q.loaded.outcome setup source call) ∧
    (∀ p q : JavaScript.Program, Rearranged JavaScript.Stmt.function? p q →
      Accepted (JavaScript.taken setup.functions) JavaScript.Stmt.function? p →
      Accepted (JavaScript.taken setup.functions) JavaScript.Stmt.function? q ∧
        p.loaded.outcome setup source call = q.loaded.outcome setup source call) := by
  constructor
  · intro p q moved accepted
    refine ⟨moved.accepted accepted, Language.Loaded.outcome_congr ?_ call⟩
    rw [JikiScript.Program.run_apply, JikiScript.Program.run_apply]
    exact congrFun (moved.run_eq accepted _ _) _
  · intro p q moved accepted
    refine ⟨moved.accepted accepted, Language.Loaded.outcome_congr ?_ call⟩
    rw [JavaScript.Program.run_apply, JavaScript.Program.run_apply]
    exact congrFun (moved.run_eq accepted _ _) _

/-- A function stands in front of its call and behind it, next to another one, and is found from
inside the program and from outside. -/
theorem echo_is_found_from_anywhere :
    let setup : Setup Unit := { world := () }
    let outside : Option (String × List Json) := some ("echo", [.str "ho"])
    let inner : List JikiScript.Stmt := [.giveBack (some (.name "x" ⟨2, 10⟩)) ⟨2, 3⟩]
    let echo : JikiScript.Stmt := .function "echo" ["x"] inner ⟨1, 1⟩
    let rest : JikiScript.Stmt := .function "rest" [] [] ⟨4, 1⟩
    let use : JikiScript.Stmt :=
      .expression (.call "echo" [.literal (.text "hi") ⟨6, 6⟩] ⟨6, 1⟩) ⟨6, 1⟩
    let p : JikiScript.Program := [echo, use, rest]
    let q : JikiScript.Program := [use, rest, echo]
    let inner' : List JavaScript.Stmt := [.giveBack (some (.name "x" ⟨2, 10⟩)) ⟨2, 3⟩]
    let echo' : JavaScript.Stmt := .function "echo" ["x"] inner' ⟨1, 1⟩
    let rest' : JavaScript.Stmt := .function "rest" [] [] ⟨4, 1⟩
    let use' : JavaScript.Stmt :=
      .expression (.call (.name "echo" ⟨6, 1⟩) [.literal (.text "hi") ⟨6, 6⟩] ⟨6, 1⟩) ⟨6, 1⟩
    let p' : JavaScript.Program := [echo', use', rest']
    let q' : JavaScript.Program := [use', rest', echo']
    (Rearranged JikiScript.Stmt.function? p q ∧
      Accepted (JikiScript.taken setup.functions) JikiScript.Stmt.function? p ∧
      p.loaded.outcome setup "" outside = q.loaded.outcome setup "" outside ∧
      (q.loaded.outcome setup "" outside).value.map (·.toJson.compact) = some "\"ho\"") ∧
    (Rearranged JavaScript.Stmt.function? p' q' ∧
      Accepted (JavaScript.taken setup.functions) JavaScript.Stmt.function? p' ∧
      p'.loaded.outcome setup "" outside = q'.loaded.outcome setup "" outside ∧
      (q'.loaded.outcome setup "" outside).value.map (·.toJson.compact) = some "\"ho\"") := by
  intro setup outside inner echo rest use p q inner' echo' rest' use' p' q'
  have both := declarations_stand_anywhere setup "" outside
  constructor
  · have moved : Rearranged JikiScript.Stmt.function? p q :=
      ⟨(List.perm_append_singleton echo [use, rest]).symm, rfl⟩
    have accepted : Accepted (JikiScript.taken setup.functions) JikiScript.Stmt.function? p :=
      ⟨_, rfl⟩
    exact ⟨moved, accepted, (both.1 p q moved accepted).2, by decide +kernel⟩
  · have moved : Rearranged JavaScript.Stmt.function? p' q' :=
      ⟨(List.perm_append_singleton echo' [use', rest']).symm, rfl⟩
    have accepted : Accepted (JavaScript.taken setup.functions) JavaScript.Stmt.function? p' :=
      ⟨_, rfl⟩
    exact ⟨moved, accepted, (both.2 p' q' moved accepted).2, by decide +kernel⟩

end Walkthrough
