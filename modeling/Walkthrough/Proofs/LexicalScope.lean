import Walkthrough.Proofs.Endings
import Walkthrough.Proofs.ScopeChain

/-! What the body of a function sees where functions see the outermost frame. It sees its own names,
and the names that the outermost frame has where the function is called: those declared outside any
block, and those of the blocks that happen to be open there. It sees nothing of the functions that
are calling it. -/

namespace Walkthrough

structure CallFrame.SameNames (frame frame' : CallFrame) : Prop where
  blocks : frame'.blocks = frame.blocks
  names : ∀ name, frame'.locals.contains name = frame.locals.contains name

namespace Scopes

variable {site s s' : Scopes} {level : Nat}

/-- The names of a call that was made where the names were those of the site, or of a call inside
it: the frames of the callers are as they were, and the outermost frame has the names it had. -/
structure Beneath (site : Scopes) (level : Nat) (s : Scopes) : Prop where
  access : s.access = site.access
  calls : ∃ own, own.length = level + 1 ∧ s.calls = own ++ site.calls
  globals : site.globals.SameNames s.globals

theorem Beneath.setCurrent (h : site.Beneath level s) (frame : CallFrame) :
    site.Beneath level (s.setCurrent frame) := by
  obtain ⟨access, ⟨own, length, calls⟩, globals⟩ := h
  cases own with
  | nil => cases length
  | cons first rest =>
      unfold Scopes.setCurrent
      rw [calls]
      exact ⟨access, ⟨frame :: rest, length, rfl⟩, globals⟩

theorem contains_overwrite {locals : Table Binding} {name : String} {b b' : Binding}
    (found : locals.get? name = some b) (other : String) :
    (locals.insert name b').contains other = locals.contains other := by
  rw [Bool.eq_iff_iff, Table.contains_insert]
  constructor
  · rintro (rfl | bound)
    · rw [Table.contains, found]
      rfl
    · exact bound
  · exact Or.inr

/-- What a body does to the names: it changes its own frame, or writes over a name of the outermost
frame. -/
theorem Beneath.renamed {good : Value → Prop} (h : site.Beneath level s)
    (names : s.Renamed good s') : site.Beneath level s' := by
  cases names with
  | declare _ declared =>
      obtain ⟨-, -, rfl⟩ := declare_eq_ok.mp declared
      exact h.setCurrent _
  | openBlock => exact h.setCurrent _
  | closeBlock => exact h.setCurrent _
  | @assign name v _ _ assigned =>
      obtain ⟨binding, found, -, rfl⟩ := assign_eq_ok.mp assigned
      split
      · exact h.setCurrent _
      · next foreign =>
          have sees := seesGlobals_of_lookup? found foreign
          have outermost : s.globals.locals.get? name = some binding := by
            unfold lookup? at found
            rw [Option.not_isSome_iff_eq_none.mp foreign, sees] at found
            exact found
          refine ⟨h.access, h.calls, h.globals.blocks, fun other => ?_⟩
          exact (contains_overwrite outermost other).trans (h.globals.names other)

theorem Beneath.openCall (h : site.Beneath level s) : site.Beneath (level + 1) s.openCall := by
  obtain ⟨access, ⟨own, length, calls⟩, globals⟩ := h
  refine ⟨access, ⟨{} :: own, congrArg Nat.succ length, ?_⟩, globals⟩
  exact congrArg (List.cons {}) calls

theorem Beneath.closeCall (h : site.Beneath (level + 1) s) : site.Beneath level s.closeCall := by
  obtain ⟨access, ⟨own, length, calls⟩, globals⟩ := h
  cases own with
  | nil => cases length
  | cons first rest =>
      refine ⟨access, ⟨rest, Nat.succ.inj length, ?_⟩, globals⟩
      exact congrArg List.tail calls

theorem Beneath.depth_closeCall (h : site.Beneath 0 s) : s.closeCall.depth = site.depth := by
  obtain ⟨-, ⟨own, length, calls⟩, -⟩ := h
  obtain ⟨frame, rfl⟩ := List.length_eq_one_iff.mp length
  unfold Scopes.closeCall depth
  rw [calls]
  rfl

theorem beneath_openCall (site : Scopes) : site.Beneath 0 site.openCall :=
  ⟨rfl, ⟨[{}], rfl, rfl⟩, rfl, fun _ => rfl⟩

/-- The levels of calls that are made at the site. -/
def beneath (site : Scopes) : Levels where
  here := site.Beneath
  renamed := .renamed
  openCall := .openCall
  closeCall := .closeCall

/-- The name is one of the current frame, or one of the maps has it. -/
def Knows (maps : List (Table Binding)) (s : Scopes) (name : String) : Prop :=
  s.current.locals.contains name = true ∨ ∃ map ∈ maps, map.contains name = true

/-- The names in scope, for reading, for assigning and for the check on shadowing, are those of the
current frame and of the maps; the callers' frames are as they were at the site. -/
structure SeesFrom (site : Scopes) (maps : List (Table Binding)) (s : Scopes) : Prop where
  callers : ∃ own, own ≠ [] ∧ s.calls = own ++ site.calls
  reads : ∀ name, (∃ v, s.get name = .ok v) ↔ s.Knows maps name
  assigns : ∀ name v, s.assign name v = .error (.notDeclared name) ↔ ¬ s.Knows maps name
  shadows : ∀ name v constant, s.current.declaredHere name = false →
    ((∃ s', s.declare name v constant = .ok s') ↔ (s.Knows maps name → s.shadowing = true))

theorem find?_isSome (maps : List (Table Binding)) (name : String) :
    (MapStack.find? maps name).isSome = true ↔ ∃ map ∈ maps, map.contains name = true := by
  rw [MapStack.find?, List.findSome?_isSome_iff]
  rfl

theorem isSome_lookup? (s : Scopes) (name : String) :
    (s.lookup? name).isSome = (s.current.locals.contains name ||
      (s.seesGlobals && s.globals.locals.contains name)) := by
  unfold lookup? Table.contains
  cases s.current.locals.get? name with
  | some binding => rfl
  | none => cases s.seesGlobals <;> rfl

section Visible

variable {frame : MapStack} (h : site.Beneath level s) (visible : site.access = .visible)
  (stands : site.globals.Represents frame)
include h visible

theorem Beneath.seesGlobals : s.seesGlobals = true := by
  obtain ⟨access, ⟨own, length, calls⟩, -⟩ := h
  cases own with
  | nil => cases length
  | cons first rest =>
      unfold Scopes.seesGlobals inFunction
      rw [calls, access, visible]
      rfl

include stands

theorem Beneath.knows_iff (name : String) :
    (s.lookup? name).isSome = true ↔ s.Knows frame.maps name := by
  have outermost : s.globals.locals.contains name = true ↔
      ∃ map ∈ frame.maps, map.contains name = true := by
    rw [h.globals.names name, Table.contains, stands.look name]
    exact find?_isSome frame.maps name
  rw [isSome_lookup?, h.seesGlobals visible, Bool.true_and, Bool.or_eq_true, outermost]
  rfl

theorem Beneath.seesFrom : site.SeesFrom frame.maps s := by
  have known := h.knows_iff visible stands
  constructor
  · obtain ⟨own, length, calls⟩ := h.calls
    refine ⟨own, fun none => ?_, calls⟩
    rw [none] at length
    cases length
  · intro name
    rw [← known name, get]
    cases s.lookup? name <;> simp
  · intro name v
    rw [← known name, Bool.not_eq_true, assign]
    cases found : s.lookup? name with
    | none =>
        have absent : s.globals.locals.contains name = false := by
          have nowhere := s.isSome_lookup? name
          rw [found, h.seesGlobals visible, Bool.true_and] at nowhere
          exact (Bool.or_eq_false_iff.mp nowhere.symm).2
        simp [missing, absent]
    | some binding =>
        dsimp only
        split
        · simp
        · split <;> simp
  · intro name v constant new
    rw [← known name, isSome_lookup?]
    constructor
    · rintro ⟨s', declared⟩
      exact (declare_eq_ok.mp declared).2.1
    · intro free
      exact ⟨_, declare_eq_ok.mpr ⟨new, free, rfl⟩⟩

end Visible

theorem Renamed.represents {good : Value → Prop} (names : s.Renamed good s') {c : ScopeChain}
    (stands : s.Represents c) : ∃ c', s'.Represents c' := by
  cases names with
  | @declare name v constant _ _ declared =>
      have agrees := stands.declare name v constant
      rw [declared] at agrees
      generalize c.declare name v constant = result at agrees
      cases agrees with
      | done after => exact ⟨_, after⟩
  | @assign name v _ _ assigned =>
      have agrees := stands.assign name v
      rw [assigned] at agrees
      generalize c.assign name v = result at agrees
      cases agrees with
      | done after => exact ⟨_, after⟩
  | openBlock => exact ⟨_, (stands.perform .pushScope).2⟩
  | closeBlock => exact ⟨_, (stands.perform .popScope).2⟩

end Scopes

/-- The names of every state of a run stand for a chain of maps. -/
theorem Machine.Reachable.represents {W : Type} {access : GlobalAccess} {m : Machine W}
    (reached : m.Reachable access) : ∃ c, m.scopes.Represents c := by
  induction reached with
  | start features source functions seed world => exact ⟨_, .initial access features.shadowing⟩
  | quiet _ _ scopes ih =>
      rw [scopes]
      exact ih
  | newList _ _ ih => exact ih
  | newDict _ _ ih => exact ih
  | written _ _ ih => exact ih
  | renamed _ names ih =>
      obtain ⟨c, stands⟩ := ih
      exact names.represents stands
  | openCall _ ih =>
      obtain ⟨c, stands⟩ := ih
      exact ⟨_, (stands.perform .pushCall).2⟩
  | closeCall _ ih =>
      obtain ⟨c, stands⟩ := ih
      exact ⟨_, (stands.perform .popCall).2⟩

theorem Logged.length_eq {blocks : List Block} {maps : List (Table Binding)}
    (logged : Logged blocks maps) : maps.length = blocks.length + 1 := by
  induction logged with
  | base map => rfl
  | block _ _ _ _ ih => exact congrArg Nat.succ ih

namespace JavaScript

variable {W : Type}

/-- The body of a function sees, wherever it has come to, its own names and those that the outermost
frame has at the call: of its own map, which holds what is declared outside any block, and of the
map of each block open there. So do the bodies of the functions that it calls. -/
theorem body_sees (functions : List (Function Stmt)) (room : Nat) (f : Function Stmt)
    (args : List Value) (position : Position) {m : Machine W} (reached : m.Reachable .visible) :
    let call := Exec.callFunction functions pass exec room
    ∃ c bodies, m.scopes.Represents c ∧
      c.globals.maps.length = m.scopes.globals.blocks.length + 1 ∧
      Exec.Ends (fun m' => m.scopes.depth < m'.scopes.depth →
          m.scopes.SeesFrom c.globals.maps m'.scopes)
        (Exec.enter pass (exec call) f args position) m bodies
        (Exec.enter pass (exec call) f args position m) := by
  intro call
  obtain ⟨c, stands⟩ := reached.represents
  have sees {level : Nat} {s : Scopes} (h : m.scopes.Beneath level s) :=
    h.seesFrom reached.access_eq stands.globals
  -- the body itself is on the first level, and each call inside it goes one further
  let L := Exec.endingStatements W m.scopes.beneath (Nat.zero_le room)
  have calls : L.Calls call := Exec.callFunction_terminates (fun L _ _ good => L.give good)
    (fun L _ calls _ => exec_holds L calls) functions _ (Nat.zero_add room)
  have inside : L.holds () (Exec.insideCall pass (exec call) f args position) L.good :=
    L.insideCall (fun _ => exec_holds L calls) f args position fun a _ _ _ => L.give trivial
  let Sees (m' : Machine W) : Prop :=
    m.scopes.depth < m'.scopes.depth → m.scopes.SeesFrom c.globals.maps m'.scopes
  have outside {m' : Machine W} (depth : m'.scopes.depth = m.scopes.depth) : Sees m' := by
    intro deeper
    rw [depth] at deeper
    exact absurd deeper (Nat.lt_irrefl _)
  have ends : Exec.EndsAs Sees (Exec.enter pass (exec call) f args position)
      (Exec.enter pass (exec call) f args position) m fun _ _ => True := by
    refine .enter (outside rfl) ?_
    refine Exec.EndsAs.mono (inside _ m.scopes.beneath_openCall) ?_ ?_
    · exact fun m' ⟨_, _, h⟩ _ => sees h
    · exact fun _ m' holds => ⟨outside holds.1.depth_closeCall, trivial⟩
  obtain ⟨bodies, ended, -⟩ := ends
  exact ⟨c, bodies, stands, stands.globals.logs.length_eq, ended⟩

def ownX : Function Stmt where
  name := "f"
  params := []
  body := [.declare .letBinding "x" (some (.literal (.text "inner") {})) {}]
  position := {}

def blank : Machine Unit :=
  .initial {} "" .visible [] 0 ()

def insideBlock : Machine Unit :=
  { blank with
    scopes := { blank.scopes with
      globals :=
        { locals := Table.empty.insert "x" ⟨.text "outer", false⟩
          blocks := [{ declared := ["x"] }] } } }

theorem insideBlock_reachable : insideBlock.Reachable .visible := by
  have opened : Machine.Reachable .visible { blank with scopes := blank.scopes.openBlock } :=
    .renamed (.start {} "" [] 0 ()) .openBlock
  have declared : blank.scopes.openBlock.declare "x" (.text "outer") false =
      .ok insideBlock.scopes := by decide +kernel
  have plain {m : Machine Unit} : m.Has (.text "outer") := trivial
  exact opened.renamed (.declare plain declared)

theorem own_x_meets_the_block :
    let call := Exec.callFunction [ownX] pass exec callLimit
    ∃ (c : ScopeChain) (bodies : Nat) (failure : Failure) (m' : Machine Unit),
      Exec.enter pass (exec call) ownX [] {} insideBlock = .error failure m' ∧
      failure.fault = .shadowingDisabled "x" ∧ c.globals.maps.length = 2 ∧
      Exec.Ends (fun m' => insideBlock.scopes.depth < m'.scopes.depth →
          insideBlock.scopes.SeesFrom c.globals.maps m'.scopes)
        (Exec.enter pass (exec call) ownX [] {}) insideBlock bodies (.error failure m') := by
  intro call
  have failed : (match Exec.enter pass (exec call) ownX [] {} insideBlock with
      | .error failure _ => decide (failure.fault = .shadowingDisabled "x")
      | .ok _ _ => false) = true := by
    decide +kernel
  obtain ⟨c, bodies, -, length, ends⟩ :=
    body_sees [ownX] callLimit ownX [] {} insideBlock_reachable
  split at failed
  · next failure m' ended =>
      rw [ended] at ends
      exact ⟨c, bodies, failure, m', ended, of_decide_eq_true failed, length, ends⟩
  · cases failed

/-- A variable of a block that is open where a function is called makes the function's own
declaration of that name fail. -/
theorem open_block_spoils_declaration :
    let o : Outcome Unit := Language.interpret .javaScript
      "function f() \x7b let x = 2; return x; \x7d\n\x7b let x = 1; f(); \x7d" { world := () }
    o.success = false ∧ (o.frames.getLast?.bind Frame.fault?) = some (.shadowingDisabled "x") := by
  decide +kernel

end JavaScript
end Walkthrough
