import Walkthrough.Proofs.Tables
import Walkthrough.Scopes

/-! Names in scope are a chain of maps. The reference keeps every map of every open block and looks
a name up from the innermost map outwards; nothing is ever hidden in a log or restored from one. The
flat tables with their logs give the answers of the reference, whatever is asked of them and in
whatever order. -/

namespace Walkthrough

/-- The maps of one call, of which there is always one, the innermost first. -/
structure MapStack where
  innermost : Table Binding := Table.empty
  outer : List (Table Binding) := []

namespace MapStack

def find? (maps : List (Table Binding)) (name : String) : Option Binding :=
  maps.findSome? fun map => map.get? name

def maps (frame : MapStack) : List (Table Binding) :=
  frame.innermost :: frame.outer

def lookup? (frame : MapStack) (name : String) : Option Binding :=
  find? frame.maps name

def push (frame : MapStack) : MapStack :=
  { innermost := Table.empty, outer := frame.maps }

/-- Drops the innermost map, but never the last one. -/
def pop (frame : MapStack) : MapStack :=
  match frame.outer with
  | [] => frame
  | map :: outer => { innermost := map, outer }

def bind (frame : MapStack) (name : String) (binding : Binding) : MapStack :=
  { frame with innermost := frame.innermost.insert name binding }

/-- Writes a new value over the binding of a name in the first map that has one. -/
def write (name : String) (value : Value) : List (Table Binding) → List (Table Binding)
  | [] => []
  | map :: outer =>
    match map.get? name with
    | some binding => map.insert name { binding with value } :: outer
    | none => map :: write name value outer

def assign (frame : MapStack) (name : String) (value : Value) : MapStack :=
  match frame.innermost.get? name with
  | some binding => frame.bind name { binding with value }
  | none => { frame with outer := write name value frame.outer }

end MapStack

/-- The maps of the outermost frame, and those of the calls in progress, the innermost first. -/
structure ScopeChain where
  access : GlobalAccess
  shadowing : Bool
  globals : MapStack := {}
  calls : List MapStack := []

namespace ScopeChain

def inCall (c : ScopeChain) : Bool :=
  !c.calls.isEmpty

def current (c : ScopeChain) : MapStack :=
  c.calls.headD c.globals

def setCurrent (c : ScopeChain) (frame : MapStack) : ScopeChain :=
  match c.calls with
  | [] => { c with globals := frame }
  | _ :: outer => { c with calls := frame :: outer }

/-- Every map that is visible, the innermost first. -/
def visible (c : ScopeChain) : List (Table Binding) :=
  if c.inCall && c.access == .visible then c.current.maps ++ c.globals.maps else c.current.maps

def lookup? (c : ScopeChain) (name : String) : Option Binding :=
  MapStack.find? c.visible name

def pushScope (c : ScopeChain) : ScopeChain :=
  c.setCurrent c.current.push

def popScope (c : ScopeChain) : ScopeChain :=
  c.setCurrent c.current.pop

def pushCall (c : ScopeChain) : ScopeChain :=
  { c with calls := {} :: c.calls }

def popCall (c : ScopeChain) : ScopeChain :=
  { c with calls := c.calls.tail }

def declare (c : ScopeChain) (name : String) (value : Value) (constant : Bool) :
    Except Fault ScopeChain :=
  if c.current.innermost.contains name then .error (.alreadyDeclared name)
  else if !c.shadowing && (c.lookup? name).isSome then .error (.shadowingDisabled name)
  else .ok (c.setCurrent (c.current.bind name { value, constant }))

/-- Why a name that is bound in no visible map cannot be used. -/
def missing (c : ScopeChain) (name : String) : Fault :=
  if c.inCall && (c.globals.lookup? name).isSome then .notAccessibleInFunction name
  else .notDeclared name

def assign (c : ScopeChain) (name : String) (value : Value) : Except Fault ScopeChain :=
  match c.lookup? name with
  | none => .error (c.missing name)
  | some binding =>
    if binding.constant then .error (.assignmentToConstant name)
    else if (c.current.lookup? name).isSome then .ok (c.setCurrent (c.current.assign name value))
    else .ok { c with globals := c.globals.assign name value }

def get (c : ScopeChain) (name : String) : Except Fault Value :=
  match c.lookup? name with
  | some binding => .ok binding.value
  | none => .error (c.missing name)

def isDeclared (c : ScopeChain) (name : String) : Bool :=
  (c.lookup? name).isSome

/-- Every visible name, each with the binding that hides the others of that name. -/
def bindings (c : ScopeChain) : Table Binding :=
  c.visible.foldr (fun map outer => outer.overlay map) Table.empty

def snapshot (c : ScopeChain) (h : Heap) : Table Snapshot :=
  c.bindings.map fun binding => h.freeze binding.value

end ScopeChain

/-- What can be asked of names in scope. -/
inductive ScopeOperation where
  | pushScope
  | popScope
  | pushCall
  | popCall
  | declare (name : String) (value : Value) (constant : Bool)
  | assign (name : String) (value : Value)
  | get (name : String)
  | isDeclared (name : String)
  | snapshot (h : Heap)

inductive ScopeAnswer where
  | done
  | failed (fault : Fault)
  | value (v : Value)
  | truth (b : Bool)
  | bindings (names : Table Snapshot)

namespace ScopeAnswer

/-- The answer of an operation that changes the names or fails, and then leaves them as they are. -/
def ofChange {σ : Type} (before : σ) : Except Fault σ → ScopeAnswer × σ
  | .ok after => (.done, after)
  | .error fault => (.failed fault, before)

def ofRead : Except Fault Value → ScopeAnswer
  | .ok v => .value v
  | .error fault => .failed fault

end ScopeAnswer

def Scopes.perform (s : Scopes) : ScopeOperation → ScopeAnswer × Scopes
  | .pushScope => (.done, s.openBlock)
  | .popScope => (.done, s.closeBlock)
  | .pushCall => (.done, s.openCall)
  | .popCall => (.done, s.closeCall)
  | .declare name value constant => ScopeAnswer.ofChange s (s.declare name value constant)
  | .assign name value => ScopeAnswer.ofChange s (s.assign name value)
  | .get name => (.ofRead (s.get name), s)
  | .isDeclared name => (.truth (s.isDeclared name), s)
  | .snapshot h => (.bindings (s.snapshot h), s)

def ScopeChain.perform (c : ScopeChain) : ScopeOperation → ScopeAnswer × ScopeChain
  | .pushScope => (.done, c.pushScope)
  | .popScope => (.done, c.popScope)
  | .pushCall => (.done, c.pushCall)
  | .popCall => (.done, c.popCall)
  | .declare name value constant => ScopeAnswer.ofChange c (c.declare name value constant)
  | .assign name value => ScopeAnswer.ofChange c (c.assign name value)
  | .get name => (.ofRead (c.get name), c)
  | .isDeclared name => (.truth (c.isDeclared name), c)
  | .snapshot h => (.bindings (c.snapshot h), c)

def answers {σ : Type} (perform : σ → ScopeOperation → ScopeAnswer × σ) :
    σ → List ScopeOperation → List ScopeAnswer
  | _, [] => []
  | state, op :: rest =>
    let (answer, next) := perform state op
    answer :: answers perform next rest

namespace MapStack

theorem find?_cons (map : Table Binding) (outer : List (Table Binding)) (name : String) :
    find? (map :: outer) name = (map.get? name).or (find? outer name) := by
  unfold find?
  rw [List.findSome?_cons]
  cases map.get? name <;> rfl

theorem find?_append (inner outer : List (Table Binding)) (name : String) :
    find? (inner ++ outer) name = (find? inner name).or (find? outer name) :=
  List.findSome?_append

theorem find?_write (name other : String) (v : Value) (maps : List (Table Binding)) :
    find? (write name v maps) other =
      if other = name then (find? maps other).map fun binding => { binding with value := v }
      else find? maps other := by
  induction maps with
  | nil => exact (ite_self _).symm
  | cons map outer ih =>
      unfold write
      cases found : map.get? name with
      | some binding =>
          dsimp only
          rw [find?_cons, find?_cons, Table.get?_insert]
          by_cases same : other = name
          · rw [if_pos same, if_pos same, same, found]
            rfl
          · rw [if_neg same, if_neg same]
      | none =>
          dsimp only
          rw [find?_cons, find?_cons, ih]
          by_cases same : other = name
          · rw [if_pos same, if_pos same, same, found]
            rfl
          · rw [if_neg same, if_neg same]

theorem maps_assign (frame : MapStack) (name : String) (v : Value) :
    (frame.assign name v).maps = write name v frame.maps := by
  unfold assign
  change _ = write name v (frame.innermost :: frame.outer)
  rw [write]
  cases frame.innermost.get? name <;> rfl

theorem overlay_sorted (maps : List (Table Binding)) :
    (maps.foldr (fun map outer => outer.overlay map) Table.empty).Sorted := by
  induction maps with
  | nil => exact Table.sorted_empty
  | cons map outer ih => exact ih.insertAll map.entries

theorem get?_overlayAll {maps : List (Table Binding)} (sorted : ∀ map ∈ maps, map.Sorted)
    (name : String) :
    (maps.foldr (fun map outer => outer.overlay map) Table.empty).get? name =
      find? maps name := by
  induction maps with
  | nil => rfl
  | cons map outer ih =>
      obtain ⟨first, later⟩ := List.forall_mem_cons.mp sorted
      rw [List.foldr_cons, Table.get?_overlay _ first, ih later, find?_cons]

theorem write_sorted {name : String} {v : Value} {maps : List (Table Binding)}
    (sorted : ∀ map ∈ maps, map.Sorted) : ∀ map ∈ write name v maps, map.Sorted := by
  induction maps with
  | nil => exact nofun
  | cons first outer ih =>
      obtain ⟨firstSorted, outerSorted⟩ := List.forall_mem_cons.mp sorted
      unfold write
      split
      · exact List.forall_mem_cons.mpr ⟨firstSorted.insert _ _, outerSorted⟩
      · exact List.forall_mem_cons.mpr ⟨firstSorted, ih outerSorted⟩

end MapStack

/-- The logs of the open blocks fit a list of maps: each block declared what its map binds, and hid
what the maps outside of it bind to those names. -/
inductive Logged : List Block → List (Table Binding) → Prop
  | base (map : Table Binding) : Logged [] [map]
  | block {block : Block} {map : Table Binding} {blocks : List Block}
      {outer : List (Table Binding)} :
      (∀ name, name ∈ block.declared ↔ map.contains name = true) →
      (block.shadowed.Pairwise fun a b => a.1 ≠ b.1) →
      (∀ name, block.shadowed.lookup name =
        if map.contains name then MapStack.find? outer name else none) →
      Logged blocks outer → Logged (block :: blocks) (map :: outer)

/-- Writing over bindings binds no name anew and hides none, so that the logs still fit. -/
theorem Logged.write {blocks : List Block} {maps : List (Table Binding)} (h : Logged blocks maps)
    (name : String) (v : Value) : Logged blocks (MapStack.write name v maps) := by
  induction h with
  | base map =>
      unfold MapStack.write
      split <;> exact .base _
  | @block block map blocks outer declared distinct hidden rest ih =>
      unfold MapStack.write
      cases found : map.get? name with
      | some binding =>
          have same (other : String) :
              (map.insert name { binding with value := v }).contains other = true ↔
                map.contains other = true := by
            rw [Table.contains_insert]
            refine ⟨fun either => either.elim (fun eq => ?_) id, Or.inr⟩
            rw [eq, Table.contains, found]
            rfl
          refine .block (fun other => (declared other).trans (same other).symm) distinct
            (fun other => ?_) rest
          rw [hidden other]
          simp only [same]
      | none =>
          refine .block declared distinct (fun other => ?_) ih
          rw [hidden other, MapStack.find?_write]
          by_cases bound : map.contains other = true
          · have differs : other ≠ name := by
              rintro rfl
              rw [Table.contains, found] at bound
              cases bound
            rw [if_pos bound, if_pos bound, if_neg differs]
          · rw [if_neg bound, if_neg bound]

theorem Logged.bind {block : Block} {blocks : List Block} {map : Table Binding}
    {outer : List (Table Binding)} (h : Logged (block :: blocks) (map :: outer)) {name : String}
    (new : map.contains name = false) (binding : Binding) :
    Logged ({ shadowed := block.shadowed ++
                (MapStack.find? outer name).toList.map fun hidden => (name, hidden)
              declared := block.declared ++ [name] } :: blocks)
      (map.insert name binding :: outer) := by
  obtain - | ⟨declared, distinct, hidden, rest⟩ := h
  have unlogged : block.shadowed.lookup name = none := by
    rw [hidden name, new]
    rfl
  refine .block (fun other => ?_) ?_ (fun other => ?_) rest
  · rw [List.mem_append, List.mem_singleton, declared, Table.contains_insert, or_comm]
  · refine List.pairwise_append.mpr ⟨distinct, ?_, ?_⟩
    · cases MapStack.find? outer name with
      | none => exact List.Pairwise.nil
      | some _ => exact List.pairwise_singleton _ _
    · intro a logged b last same
      obtain ⟨value, -, rfl⟩ := List.mem_map.mp last
      have differs := List.lookup_eq_none_iff.mp unlogged a logged
      rw [same, bne_self_eq_false] at differs
      cases differs
  · rw [List.lookup_append]
    by_cases same : other = name
    · subst same
      rw [unlogged, Option.none_or, if_pos ((Table.contains_insert ..).mpr (Or.inl rfl))]
      cases MapStack.find? outer other with
      | none => rfl
      | some value => exact (lookup_cons_eq_ite other (other, value) []).trans (if_pos rfl)
    · have notLast : ((MapStack.find? outer name).toList.map fun hidden =>
          (name, hidden)).lookup other = none := by
        cases MapStack.find? outer name with
        | none => rfl
        | some value => exact (lookup_cons_eq_ite other (name, value) []).trans (if_neg same)
      rw [notLast, Option.or_none, hidden other]
      simp only [Table.contains_insert, same, false_or]

/-- A flat table with its logs stands for a stack of maps. -/
structure CallFrame.Represents (flat : CallFrame) (frame : MapStack) : Prop where
  logs : Logged flat.blocks frame.maps
  look : ∀ name, flat.locals.get? name = frame.lookup? name
  sorted : flat.locals.Sorted
  maps : ∀ map ∈ frame.maps, map.Sorted

namespace CallFrame.Represents

theorem initial : ({} : CallFrame).Represents {} where
  logs := .base Table.empty
  look _ := rfl
  sorted := Table.sorted_empty
  maps := List.forall_mem_singleton.mpr Table.sorted_empty

variable {flat : CallFrame} {frame : MapStack} (h : flat.Represents frame)
include h

theorem openBlock : flat.openBlock.Represents frame.push where
  logs := by
    refine .block (fun name => ?_) List.Pairwise.nil (fun name => ?_) h.logs
    · exact ⟨nofun, nofun⟩
    · exact rfl
  look name := by
    rw [MapStack.lookup?]
    exact h.look name
  sorted := h.sorted
  maps := List.forall_mem_cons.mpr ⟨Table.sorted_empty, h.maps⟩

/-- What the logs restore is what the maps outside of the innermost bind. -/
theorem closeBlock : flat.closeBlock.Represents frame.pop := by
  obtain ⟨locals, blocks⟩ := flat
  obtain ⟨innermost, outer⟩ := frame
  cases logs : h.logs with
  | base => exact h
  | @block block _ blocks' _ declared distinct hidden rest =>
      have look (name : String) :
          (CallFrame.closeBlock ⟨locals, block :: blocks'⟩).locals.get? name =
            MapStack.find? outer name := by
        change (block.shadowed.foldl (fun t entry => t.insert entry.1 entry.2)
          (block.declared.foldl (fun t name => t.erase name) locals)).get? name = _
        rw [Table.get?_insertAll _ _ distinct, Table.get?_eraseAll, hidden name]
        by_cases bound : innermost.contains name = true
        · rw [if_pos bound, if_pos ((declared name).mpr bound), Option.or_none]
        · rw [if_neg bound, if_neg fun member => bound ((declared name).mp member), Option.none_or,
            h.look name]
          change MapStack.find? (innermost :: outer) name = _
          rw [MapStack.find?_cons, Option.not_isSome_iff_eq_none.mp bound, Option.none_or]
      have sorted : (CallFrame.closeBlock ⟨locals, block :: blocks'⟩).locals.Sorted :=
        (h.sorted.eraseAll block.declared).insertAll block.shadowed
      cases outer with
      | nil => cases rest
      | cons map outer => exact ⟨rest, look, sorted, (List.forall_mem_cons.mp h.maps).2⟩

theorem declaredHere (name : String) :
    flat.declaredHere name = frame.innermost.contains name := by
  obtain ⟨locals, blocks⟩ := flat
  obtain ⟨innermost, outer⟩ := frame
  cases logs : h.logs with
  | base =>
      change (locals.get? name).isSome = (innermost.get? name).isSome
      rw [h.look name]
      change (MapStack.find? [innermost] name).isSome = _
      rw [MapStack.find?_cons]
      exact congrArg Option.isSome Option.or_none
  | @block block _ _ _ declared _ _ _ =>
      rw [Bool.eq_iff_iff]
      exact List.contains_iff_mem.trans (declared name)

theorem bind {name : String} (new : frame.innermost.contains name = false) (binding : Binding) :
    (flat.bind name binding).Represents (frame.bind name binding) := by
  obtain ⟨locals, blocks⟩ := flat
  obtain ⟨innermost, outer⟩ := frame
  have look (other : String) : (locals.insert name binding).get? other =
      MapStack.find? (innermost.insert name binding :: outer) other := by
    rw [MapStack.find?_cons, Table.get?_insert, Table.get?_insert]
    by_cases same : other = name
    · rw [if_pos same, if_pos same]
      rfl
    · rw [if_neg same, if_neg same, h.look other]
      exact MapStack.find?_cons innermost outer other
  have maps : ∀ map ∈ innermost.insert name binding :: outer, map.Sorted := by
    obtain ⟨first, later⟩ := List.forall_mem_cons.mp h.maps
    exact List.forall_mem_cons.mpr ⟨first.insert name binding, later⟩
  have outside : locals.get? name = MapStack.find? outer name := by
    rw [h.look name]
    change MapStack.find? (innermost :: outer) name = _
    have unbound : innermost.get? name = none :=
      Option.not_isSome_iff_eq_none.mp (Bool.eq_false_iff.mp new)
    rw [MapStack.find?_cons, unbound, Option.none_or]
  cases blocks with
  | nil =>
      cases h.logs
      exact ⟨.base _, look, h.sorted.insert name binding, maps⟩
  | cons block blocks =>
      refine ⟨?_, look, h.sorted.insert name binding, maps⟩
      change Logged ({ shadowed := block.shadowed ++ (locals.get? name).toList.map _
                       declared := _ } :: blocks) _
      rw [outside]
      exact Logged.bind h.logs new binding

theorem assign (name : String) (v : Value) (binding : Binding)
    (bound : flat.locals.get? name = some binding) :
    CallFrame.Represents
      { flat with locals := flat.locals.insert name { binding with value := v } }
      (frame.assign name v) where
  logs := by
    rw [MapStack.maps_assign]
    exact h.logs.write name v
  look other := by
    rw [MapStack.lookup?, MapStack.maps_assign, MapStack.find?_write]
    dsimp only
    rw [Table.get?_insert]
    by_cases same : other = name
    · rw [if_pos same, if_pos same, same, ← MapStack.lookup?, ← h.look, bound]
      rfl
    · rw [if_neg same, if_neg same]
      exact h.look other
  sorted := h.sorted.insert _ _
  maps := by
    rw [MapStack.maps_assign]
    exact MapStack.write_sorted h.maps

end CallFrame.Represents

/-- Flat tables stand for a chain of maps, call by call. -/
structure Scopes.Represents (s : Scopes) (c : ScopeChain) : Prop where
  access : s.access = c.access
  shadowing : s.shadowing = c.shadowing
  globals : s.globals.Represents c.globals
  calls : List.Forall₂ CallFrame.Represents s.calls c.calls

/-- Both fail with one cause, or both come to names that agree. -/
inductive Scopes.Agrees : Except Fault Scopes → Except Fault ScopeChain → Prop
  | failing (fault : Fault) : Agrees (.error fault) (.error fault)
  | done {s : Scopes} {c : ScopeChain} : s.Represents c → Agrees (.ok s) (.ok c)

namespace Scopes.Represents

theorem initial (access : GlobalAccess) (shadowing : Bool) :
    Scopes.Represents { access, shadowing } { access, shadowing } :=
  ⟨rfl, rfl, .initial, .nil⟩

variable {s : Scopes} {c : ScopeChain} (h : s.Represents c)
include h

theorem inFunction : s.inFunction = c.inCall := by
  obtain ⟨access, shadowing, globals, calls⟩ := s
  obtain ⟨access', shadowing', globals', calls'⟩ := c
  cases h.calls <;> rfl

theorem seesGlobals : s.seesGlobals = (c.inCall && c.access == .visible) := by
  rw [Scopes.seesGlobals, h.inFunction, h.access]

theorem current : s.current.Represents c.current := by
  obtain ⟨access, shadowing, globals, calls⟩ := s
  obtain ⟨access', shadowing', globals', calls'⟩ := c
  cases calls : h.calls with
  | nil => exact h.globals
  | cons first _ => exact first

theorem setCurrent {flat : CallFrame} {frame : MapStack} (new : flat.Represents frame) :
    (s.setCurrent flat).Represents (c.setCurrent frame) := by
  obtain ⟨access, shadowing, globals, calls⟩ := s
  obtain ⟨access', shadowing', globals', calls'⟩ := c
  cases calls : h.calls with
  | nil => exact ⟨h.access, h.shadowing, new, .nil⟩
  | cons _ rest => exact ⟨h.access, h.shadowing, h.globals, .cons new rest⟩

theorem lookup? (name : String) : s.lookup? name = c.lookup? name := by
  unfold Scopes.lookup? ScopeChain.lookup? ScopeChain.visible
  rw [h.current.look name, h.globals.look name, h.seesGlobals]
  by_cases sees : (c.inCall && c.access == .visible) = true
  · rw [if_pos sees, if_pos sees, MapStack.find?_append]
    cases found : c.current.lookup? name with
    | none =>
        rw [MapStack.lookup?] at found
        rw [found]
        rfl
    | some binding =>
        rw [MapStack.lookup?] at found
        rw [found]
        rfl
  · rw [if_neg sees, if_neg sees]
    cases found : c.current.lookup? name <;> exact found.symm

theorem missing (name : String) : s.missing name = c.missing name := by
  unfold Scopes.missing ScopeChain.missing Table.contains
  rw [h.inFunction, h.globals.look name]

theorem get (name : String) : s.get name = c.get name := by
  cases found : c.lookup? name <;>
    simp only [Scopes.get, ScopeChain.get, h.lookup? name, h.missing name, found]

theorem isDeclared (name : String) : s.isDeclared name = c.isDeclared name := by
  unfold Scopes.isDeclared ScopeChain.isDeclared
  rw [h.lookup? name]

theorem visible : s.visible = c.bindings := by
  have sorted : s.visible.Sorted := by
    unfold Scopes.visible
    split
    · exact h.globals.sorted.insertAll s.current.locals.entries
    · exact h.current.sorted
  have maps : ∀ map ∈ c.visible, map.Sorted := by
    unfold ScopeChain.visible
    split
    · exact List.forall_mem_append.mpr ⟨h.current.maps, h.globals.maps⟩
    · exact h.current.maps
  refine sorted.ext (MapStack.overlay_sorted c.visible) fun name => ?_
  rw [ScopeChain.bindings, MapStack.get?_overlayAll maps, ← ScopeChain.lookup?, ← h.lookup? name]
  unfold Scopes.visible Scopes.lookup?
  split
  · rw [Table.get?_overlay _ h.current.sorted]
    cases s.current.locals.get? name <;> rfl
  · cases s.current.locals.get? name <;> rfl

theorem snapshot (heap : Heap) : s.snapshot heap = c.snapshot heap := by
  rw [Scopes.snapshot, h.visible]
  rfl

theorem declare (name : String) (v : Value) (constant : Bool) :
    Agrees (s.declare name v constant) (c.declare name v constant) := by
  have here := h.current.declaredHere name
  have taken : ((s.current.locals.contains name ||
      (s.seesGlobals && s.globals.locals.contains name)) && !s.shadowing) =
      (!c.shadowing && (c.lookup? name).isSome) := by
    rw [h.shadowing, Bool.and_comm, ← h.lookup? name]
    unfold Scopes.lookup? Table.contains
    cases s.current.locals.get? name with
    | some binding => rfl
    | none => cases s.seesGlobals <;> rfl
  unfold Scopes.declare ScopeChain.declare
  rw [here, taken]
  cases new : c.current.innermost.contains name with
  | true => exact .failing _
  | false =>
      cases (!c.shadowing && (c.lookup? name).isSome) with
      | true => exact .failing _
      | false => exact .done (h.setCurrent (h.current.bind new _))

theorem assign (name : String) (v : Value) : Agrees (s.assign name v) (c.assign name v) := by
  have same := h.lookup? name
  unfold Scopes.assign ScopeChain.assign
  rw [same, h.missing name]
  cases found : c.lookup? name with
  | none => exact .failing _
  | some binding =>
      rw [found, Scopes.lookup?] at same
      dsimp only
      by_cases constant : binding.constant = true
      · rw [if_pos constant, if_pos constant]
        exact .failing _
      · rw [if_neg constant, if_neg constant, ← h.current.look name, Table.contains]
        cases own : s.current.locals.get? name with
        | some first =>
            rw [own] at same
            cases same
            exact .done (h.setCurrent (h.current.assign name v _ own))
        | none =>
            simp only [own] at same
            split at same
            · exact .done ⟨h.access, h.shadowing, h.globals.assign name v binding same, h.calls⟩
            · cases same

theorem closeCall : s.closeCall.Represents c.popCall := by
  obtain ⟨access, shadowing, globals, calls⟩ := s
  obtain ⟨access', shadowing', globals', calls'⟩ := c
  cases calls : h.calls with
  | nil => exact h
  | cons _ rest => exact ⟨h.access, h.shadowing, h.globals, rest⟩

theorem ofChange {result : Except Fault Scopes} {expected : Except Fault ScopeChain}
    (agrees : Agrees result expected) :
    (ScopeAnswer.ofChange s result).1 = (ScopeAnswer.ofChange c expected).1 ∧
      (ScopeAnswer.ofChange s result).2.Represents (ScopeAnswer.ofChange c expected).2 := by
  cases agrees with
  | failing fault => exact ⟨rfl, h⟩
  | done after => exact ⟨rfl, after⟩

/-- One operation gets the same answer on both sides, and what they come to still agrees. -/
theorem perform (op : ScopeOperation) :
    (s.perform op).1 = (c.perform op).1 ∧ (s.perform op).2.Represents (c.perform op).2 := by
  cases op with
  | pushScope => exact ⟨rfl, h.setCurrent h.current.openBlock⟩
  | popScope => exact ⟨rfl, h.setCurrent h.current.closeBlock⟩
  | pushCall => exact ⟨rfl, h.access, h.shadowing, h.globals, .cons .initial h.calls⟩
  | popCall => exact ⟨rfl, h.closeCall⟩
  | declare name value constant => exact h.ofChange (h.declare name value constant)
  | assign name value => exact h.ofChange (h.assign name value)
  | get name => exact ⟨congrArg ScopeAnswer.ofRead (h.get name), h⟩
  | isDeclared name => exact ⟨congrArg ScopeAnswer.truth (h.isDeclared name), h⟩
  | snapshot heap => exact ⟨congrArg ScopeAnswer.bindings (h.snapshot heap), h⟩

theorem answers (ops : List ScopeOperation) :
    Walkthrough.answers Scopes.perform s ops = Walkthrough.answers ScopeChain.perform c ops := by
  induction ops generalizing s c with
  | nil => rfl
  | cons op rest ih =>
      obtain ⟨same, after⟩ := h.perform op
      exact congrArg₂ List.cons same (ih after)

end Scopes.Represents

/-- Whatever is asked of names in scope, in whatever order, the flat tables answer as the chain of
maps does. -/
theorem scopes_refine_chain (access : GlobalAccess) (shadowing : Bool)
    (ops : List ScopeOperation) :
    answers Scopes.perform { access, shadowing } ops =
      answers ScopeChain.perform { access, shadowing } ops :=
  (Scopes.Represents.initial access shadowing).answers ops

end Walkthrough
