import Walkthrough.Machine.Calls
import Walkthrough.Machine.Loops

/-! What the small operations of an evaluation do to the state it is in, each as one equation. -/

namespace Walkthrough

namespace Scopes

variable {s s' : Scopes} {name : String} {v : Value}

theorem current_setCurrent (s : Scopes) (frame : CallFrame) :
    (s.setCurrent frame).current = frame := by
  cases s with
  | mk access shadowing globals calls => cases calls <;> rfl

theorem setCurrent_current (s : Scopes) : s.setCurrent s.current = s := by
  cases s with
  | mk access shadowing globals calls => cases calls <;> rfl

theorem setCurrent_setCurrent (s : Scopes) (frame frame' : CallFrame) :
    (s.setCurrent frame).setCurrent frame' = s.setCurrent frame' := by
  cases s with
  | mk access shadowing globals calls => cases calls <;> rfl

/-- A declaration is accepted where the innermost block has no such name and either nothing outside
has it or shadowing is allowed. -/
theorem declare_eq_ok {constant : Bool} :
    s.declare name v constant = .ok s' ↔
      s.current.declaredHere name = false ∧
      ((s.current.locals.contains name ||
        (s.seesGlobals && s.globals.locals.contains name)) = true → s.shadowing = true) ∧
      s' = s.setCurrent (s.current.bind name ⟨v, constant⟩) := by
  unfold declare
  by_cases here : s.current.declaredHere name = true
  · rw [if_pos here, here]
    constructor
    · intro declared
      cases declared
    · rintro ⟨new, -⟩
      cases new
  · rw [if_neg here]
    simp only [Bool.and_eq_true, Bool.not_eq_true']
    constructor
    · intro declared
      split at declared
      · cases declared
      · next free =>
          cases declared
          refine ⟨eq_false_of_ne_true here, fun taken => ?_, rfl⟩
          exact eq_true_of_ne_false fun off => free ⟨taken, off⟩
    · rintro ⟨-, free, rfl⟩
      refine if_neg fun ⟨taken, off⟩ => ?_
      cases off.symm.trans (free taken)

/-- An assignment is accepted where the name is found and not constant; it is written in the frame
that holds it. -/
theorem assign_eq_ok :
    s.assign name v = .ok s' ↔
      ∃ binding, s.lookup? name = some binding ∧ binding.constant = false ∧
        s' = if s.current.locals.contains name then
            s.setCurrent { s.current with
              locals := s.current.locals.insert name { binding with value := v } }
          else { s with globals := { s.globals with
              locals := s.globals.locals.insert name { binding with value := v } } } := by
  unfold assign
  cases s.lookup? name with
  | none =>
      constructor
      · intro assigned
        cases assigned
      · rintro ⟨binding, found, -⟩
        cases found
  | some binding =>
      dsimp only
      rw [← apply_ite Except.ok]
      constructor
      · intro assigned
        split at assigned
        · cases assigned
        · next changeable =>
            cases assigned
            exact ⟨binding, rfl, eq_false_of_ne_true changeable, rfl⟩
      · rintro ⟨_, ⟨⟩, changeable, rfl⟩
        exact if_neg (Bool.not_eq_true _ ▸ changeable)

end Scopes

theorem getD_setIfInBounds {α : Type} (xs : Array α) (target place : Nat) (x absent : α) :
    (xs.setIfInBounds target x)[place]?.getD absent = xs[place]?.getD absent ∨
      place = target ∧ (xs.setIfInBounds target x)[place]?.getD absent = x := by
  by_cases same : target = place
  · subst same
    rw [Array.getElem?_setIfInBounds_self]
    split
    · exact Or.inr ⟨rfl, rfl⟩
    · next outside => exact Or.inl (by rw [Array.getElem?_eq_none (Nat.not_lt.mp outside)])
  · rw [Array.getElem?_setIfInBounds_ne same]
    exact Or.inl rfl

namespace Heap

variable (h : Heap)

theorem items_newList (xs : List Value) (cell : Nat) :
    (h.newList xs).2.items cell = if cell = h.lists.size then xs else h.items cell := by
  unfold items newList
  rw [Array.getElem?_push]
  split <;> rfl

theorem entries_newDict (es : List (String × Value)) (cell : Nat) :
    (h.newDict es).2.entries cell = if cell = h.dicts.size then es else h.entries cell := by
  unfold entries newDict
  rw [Array.getElem?_push]
  split <;> rfl

theorem items_setItems (target cell : Nat) (xs : List Value) :
    (h.setItems target xs).items cell = h.items cell ∨
      cell = target ∧ (h.setItems target xs).items cell = xs :=
  getD_setIfInBounds h.lists target cell xs []

theorem entries_setEntries (target cell : Nat) (es : List (String × Value)) :
    (h.setEntries target es).entries cell = h.entries cell ∨
      cell = target ∧ (h.setEntries target es).entries cell = es :=
  getD_setIfInBounds h.dicts target cell es []

end Heap

namespace HostFailure

def fault (name : String) : HostFailure → Fault
  | .logic message => .logicFailure message
  | .other message => .hostFailure name message

end HostFailure

def Machine.afterCall {W : Type} (m : Machine W) (f : HostFunction W) (args : List Snapshot) :
    Machine W :=
  { m with
    calls := m.calls.count f.name (Json.arr (args.map Snapshot.toJson)).compact
    host := (f.run args m.host).2 }

namespace Machine

variable {W : Type} {m : Machine W}

theorem countBody_of_room (room : m.iterations.toNat + 1 < UInt64.size) :
    m.countBody = { m with iterations := m.iterations + 1 } := by
  have more : (m.iterations + 1).toNat = m.iterations.toNat + 1 := by
    rw [UInt64.toNat_add, UInt64.toNat_one]
    exact Nat.mod_eq_of_lt room
  have notFull : m.iterations + 1 ≠ 0 := by
    intro full
    rw [full] at more
    cases more
  unfold countBody
  simp [notFull]

theorem iterations_countBody (room : m.iterations.toNat + 1 < UInt64.size) :
    m.countBody.iterations.toNat = m.iterations.toNat + 1 := by
  rw [countBody_of_room room]
  change (m.iterations + 1).toNat = _
  rw [UInt64.toNat_add, UInt64.toNat_one]
  exact Nat.mod_eq_of_lt room

theorem iterations_le_countBody (m : Machine W) :
    m.iterations.toNat ≤ m.countBody.iterations.toNat := by
  by_cases room : m.iterations.toNat + 1 < UInt64.size
  · rw [iterations_countBody room]
    exact Nat.le_succ _
  · have last : m.iterations.toNat < UInt64.size := m.iterations.toNat_lt
    have all : m.iterations.toNat + 1 = UInt64.size := by omega
    have full : m.iterations + 1 = 0 := by
      apply UInt64.toNat_inj.mp
      rw [UInt64.toNat_add, UInt64.toNat_one, all]
      rfl
    simp [countBody, full]

end Machine

namespace Exec

variable {W α β : Type}

/-- An operation on the switches and the cells that may name a cause. -/
def consult (position : Position) (g : Features → Heap → Except Fault α) : Exec W α := do
  orRaise position (g (← features) (← heap))

/-- Puts what an operation makes of the cells in their place. -/
def rewrite (position : Position) (g : Heap → Except Fault Heap) : Exec W Unit := do
  setHeap (← orRaise position (g (← heap)))

def thaw (snapshot : Snapshot) : Exec W Value :=
  modifyGet fun m =>
    let (value, heap) := m.heap.thaw snapshot
    (value, { m with heap })

def thawItems (snapshots : List Snapshot) : Exec W (List Value) :=
  modifyGet fun m =>
    let (values, heap) := m.heap.thawItems snapshots
    (values, { m with heap })

def thawEntries (entries : List (String × Snapshot)) : Exec W (List (String × Value)) :=
  modifyGet fun m =>
    let (values, heap) := m.heap.thawEntries entries
    (values, { m with heap })

theorem bind_apply (x : Exec W α) (k : α → Exec W β) (m : Machine W) :
    (x >>= k) m =
      match x m with
      | .ok a m' => k a m'
      | .error failure m' => .error failure m' := by
  change EStateM.bind x k m = _
  unfold EStateM.bind
  cases x m <;> rfl

theorem bind_eq_ok {x : Exec W α} {k : α → Exec W β} {m m'' : Machine W} {b : β} :
    (x >>= k) m = .ok b m'' ↔ ∃ a m', x m = .ok a m' ∧ k a m' = .ok b m'' := by
  rw [bind_apply]
  constructor
  · intro ended
    cases first : x m with
    | ok a m' => exact ⟨a, m', rfl, by rwa [first] at ended⟩
    | error failure m' => rw [first] at ended; cases ended
  · rintro ⟨a, m', first, second⟩
    rw [first]
    exact second

theorem orRaise_apply (position : Position) (result : Except Fault α) (m : Machine W) :
    orRaise position result m =
      match result with
      | .ok a => .ok a m
      | .error fault => .error ⟨fault, position⟩ m := by
  cases result <;> rfl

theorem consult_apply (position : Position) (g : Features → Heap → Except Fault α)
    (m : Machine W) :
    consult position g m =
      match g m.features m.heap with
      | .ok a => .ok a m
      | .error fault => .error ⟨fault, position⟩ m :=
  orRaise_apply position (g m.features m.heap) m

theorem rewrite_apply (position : Position) (g : Heap → Except Fault Heap) (m : Machine W) :
    rewrite position g m =
      match g m.heap with
      | .ok heap => .ok () { m with heap }
      | .error fault => .error ⟨fault, position⟩ m := by
  change (orRaise position (g m.heap) >>= setHeap) m = _
  rw [bind_apply, orRaise_apply]
  cases g m.heap <;> rfl

theorem readName_apply (name : String) (position : Position) (m : Machine W) :
    readName name position m =
      match m.scopes.get name with
      | .ok v => .ok v m
      | .error fault => .error ⟨fault, position⟩ m := by
  change orRaise position (m.scopes.get name) m = _
  cases m.scopes.get name <;> rfl

theorem rename_apply (position : Position) (result : Except Fault Scopes) (m : Machine W) :
    (orRaise position result >>= fun scopes => modify fun m => { m with scopes }) m =
      match result with
      | .ok scopes => .ok () { m with scopes }
      | .error fault => .error ⟨fault, position⟩ m := by
  rw [bind_apply, orRaise_apply]
  cases result <;> rfl

theorem declare_apply (name : String) (v : Value) (constant : Bool) (position : Position)
    (m : Machine W) :
    declare name v constant position m =
      match m.scopes.declare name v constant with
      | .ok scopes => .ok () { m with scopes }
      | .error fault => .error ⟨fault, position⟩ m :=
  rename_apply position (m.scopes.declare name v constant) m

theorem assign_apply (name : String) (v : Value) (position : Position) (m : Machine W) :
    assign name v position m =
      match m.scopes.assign name v with
      | .ok scopes => .ok () { m with scopes }
      | .error fault => .error ⟨fault, position⟩ m :=
  rename_apply position (m.scopes.assign name v) m

theorem checkTime_apply (position : Position) (m : Machine W) :
    checkTime position m =
      if m.features.maxTime < m.host.time then
        .error ⟨.outOfTime m.features.maxTime.toNat, position⟩ m
      else .ok () m := by
  change (if m.features.maxTime < m.host.time then
    raise (.outOfTime m.features.maxTime.toNat) position else pure () : Exec W Unit) m = _
  split <;> rfl

theorem checkTimeThen_apply (position : Position) (a : α) (m : Machine W) :
    (checkTime position >>= fun _ => pure a) m =
      if m.features.maxTime < m.host.time then
        .error ⟨.outOfTime m.features.maxTime.toNat, position⟩ m
      else .ok a m := by
  rw [bind_apply, checkTime_apply]
  by_cases late : m.features.maxTime < m.host.time
  · rw [if_pos late, if_pos late]
  · rw [if_neg late, if_neg late]
    rfl

theorem record_apply (position : Position) (kind : String) (value : Option Snapshot)
    (step : Step) (m : Machine W) :
    record position kind value step m =
      if m.features.maxTime < m.host.time + m.features.timePerFrame then
        .error ⟨.outOfTime m.features.maxTime.toNat, position⟩
          (m.addFrame position.line (.success kind value step))
      else .ok () (m.addFrame position.line (.success kind value step)) :=
  checkTime_apply position (m.addFrame position.line (.success kind value step))

theorem countIteration_apply (position : Position) (m : Machine W) :
    countIteration position m =
      if m.features.maxIterations.toNat < m.iterations.toNat + 1 then
        .error ⟨.tooManyIterations m.features.maxIterations.toNat, position⟩
          m.countBody
      else .ok () m.countBody := by
  change (if m.features.maxIterations.toNat < m.iterations.toNat + 1 then
    raise (.tooManyIterations m.features.maxIterations.toNat) position else pure () : Exec W Unit)
      m.countBody = _
  split <;> rfl

theorem callHost_apply (name : String) (args : List Value) (position : Position)
    (m : Machine W) :
    callHost name args position m =
      match hostFunction? m.functions name with
      | some f => (do
          let v ← runHost f args position
          checkTime position
          return v) m
      | none => .error ⟨.functionNotFound name, position⟩ m := by
  change (match hostFunction? m.functions name with
    | some f => (do
        let v ← runHost f args position
        checkTime position
        return v)
    | none => raise (.functionNotFound name) position : Exec W Value) m = _
  cases hostFunction? m.functions name <;> rfl

theorem runHost_refused {f : HostFunction W} {args : List Value} (position : Position)
    (refused : f.arity.accepts args.length = false) (m : Machine W) :
    runHost f args position m =
      .error ⟨.wrongArgumentCount f.name f.arity.text args.length, position⟩ m := by
  unfold runHost
  rw [refused]
  rfl

/-- What follows once a host function was entered: its result is thawed, or its failure raised. -/
def answer (name : String) (position : Position) : Except HostFailure Json → Exec W Value
  | .ok json => thaw (Snapshot.ofJson json)
  | .error (.logic message) => raise (.logicFailure message) position
  | .error (.other message) => raise (.hostFailure name message) position

theorem answer_error (name : String) (position : Position) (failure : HostFailure) :
    (answer name position (.error failure) : Exec W Value) =
      raise (failure.fault name) position := by
  cases failure <;> rfl

theorem runHost_apply {f : HostFunction W} {args : List Value} (position : Position)
    (accepted : f.arity.accepts args.length = true) (m : Machine W) :
    runHost f args position m =
      answer f.name position (f.run (args.map m.heap.freeze) m.host).1
        (m.afterCall f (args.map m.heap.freeze)) := by
  unfold runHost
  rw [accepted]
  rfl

theorem mem_of_hostFunction? {functions : List (HostFunction W)} {name : String}
    {f : HostFunction W} (found : hostFunction? functions name = some f) : f ∈ functions :=
  List.mem_reverse.mp (List.mem_of_find?_eq_some found)

theorem callHost_done {m : Machine W} {f : HostFunction W} {name : String} {args : List Value}
    {json : Json} (position : Position) (found : hostFunction? m.functions name = some f)
    (accepted : f.arity.accepts args.length = true)
    (ran : (f.run (args.map m.heap.freeze) m.host).1 = .ok json) :
    callHost name args position m =
      let after := { m.afterCall f (args.map m.heap.freeze) with
        heap := (m.heap.thaw (Snapshot.ofJson json)).2 }
      if m.features.maxTime < after.host.time then
        .error ⟨.outOfTime m.features.maxTime.toNat, position⟩ after
      else .ok (m.heap.thaw (Snapshot.ofJson json)).1 after := by
  rw [callHost_apply, found]
  dsimp only
  rw [bind_apply, runHost_apply position accepted, ran]
  exact checkTimeThen_apply position (m.heap.thaw (Snapshot.ofJson json)).1
    { m.afterCall f (args.map m.heap.freeze) with
      heap := (m.heap.thaw (Snapshot.ofJson json)).2 }

theorem callHost_entered (name : String) (args : List Value) (position : Position)
    (m : Machine W) :
    (∃ failure, callHost name args position m = .error failure m) ∨
    ∃ f, hostFunction? m.functions name = some f ∧ f.arity.accepts args.length = true ∧
      ((∃ failure, callHost name args position m =
          .error failure (m.afterCall f (args.map m.heap.freeze))) ∨
        ∃ json, (f.run (args.map m.heap.freeze) m.host).1 = .ok json) := by
  cases found : hostFunction? m.functions name with
  | none =>
      refine Or.inl ⟨⟨.functionNotFound name, position⟩, ?_⟩
      rw [callHost_apply, found]
  | some f =>
      cases accepted : f.arity.accepts args.length with
      | false =>
          refine Or.inl ⟨⟨.wrongArgumentCount f.name f.arity.text args.length, position⟩, ?_⟩
          rw [callHost_apply, found]
          dsimp only
          rw [bind_apply, runHost_refused position accepted]
      | true =>
          refine Or.inr ⟨f, rfl, accepted, ?_⟩
          cases ran : (f.run (args.map m.heap.freeze) m.host).1 with
          | error failure =>
              refine Or.inl ⟨⟨failure.fault f.name, position⟩, ?_⟩
              rw [callHost_apply, found]
              dsimp only
              rw [bind_apply, runHost_apply position accepted, ran, answer_error]
              rfl
          | ok json => exact Or.inr ⟨json, rfl⟩

/-- A call of the host fails in place, or fails once a function was entered, or gives the thawed
result of a function in time. -/
theorem callHost_cases (name : String) (args : List Value) (position : Position)
    (m : Machine W) :
    (∃ failure, callHost name args position m = .error failure m) ∨
    (∃ f ∈ m.functions, ∃ failure frozen heap,
      callHost name args position m = .error failure { m.afterCall f frozen with heap }) ∨
    (∃ f json, hostFunction? m.functions name = some f ∧ f.arity.accepts args.length = true ∧
      (f.run (args.map m.heap.freeze) m.host).1 = .ok json ∧
      ¬ m.features.maxTime < (f.run (args.map m.heap.freeze) m.host).2.time ∧
      callHost name args position m = .ok (m.heap.thaw (Snapshot.ofJson json)).1
        { m.afterCall f (args.map m.heap.freeze) with
          heap := (m.heap.thaw (Snapshot.ofJson json)).2 }) := by
  obtain refused | ⟨f, found, accepted, ⟨failure, failed⟩ | ⟨json, ran⟩⟩ :=
    callHost_entered name args position m
  · exact Or.inl refused
  · exact Or.inr (Or.inl ⟨f, mem_of_hostFunction? found, failure, _, m.heap, failed⟩)
  · have done := callHost_done position found accepted ran
    by_cases late : m.features.maxTime < (f.run (args.map m.heap.freeze) m.host).2.time
    · have offered := mem_of_hostFunction? found
      exact Or.inr (Or.inl ⟨f, offered, _, _, _, done.trans (if_pos late)⟩)
    · exact Or.inr (Or.inr ⟨f, json, found, accepted, ran, late, done.trans (if_neg late)⟩)

end Exec
end Walkthrough
