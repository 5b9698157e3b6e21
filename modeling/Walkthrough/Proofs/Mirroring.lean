import Walkthrough.Proofs.Declarations

/-! Two hosts that a program cannot tell apart. One host mirrors another when its functions have the
same names and arities, and give the same results as long as the worlds of the two are kept in step.
A program that runs under either of them then does the same, since it sees of a world what the
functions give and nothing else. -/

namespace Walkthrough

variable {W W' : Type}

def Host.inWorld (host : Host W) (world : W') : Host W' :=
  { time := host.time
    overflowed := host.overflowed
    console := host.console
    seed := host.seed
    drawn := host.drawn
    world }

def Machine.inWorld (m : Machine W) (functions : List (HostFunction W')) (world : W') :
    Machine W' :=
  { features := m.features
    lines := m.lines
    functions
    frames := m.frames
    iterations := m.iterations
    overflowed := m.overflowed
    calls := m.calls
    heap := m.heap
    scopes := m.scopes
    loopDepth := m.loopDepth
    host := m.host.inWorld world }

def Outcome.inWorld (o : Outcome W) (world : W') : Outcome W' :=
  { frames := o.frames
    console := o.console
    calls := o.calls
    error := o.error
    success := o.success
    overflowed := o.overflowed
    value := o.value
    world }

/-- Each function that is offered has another in its place. `kept` says how the log of calls and the
two worlds belong together, and every call of the one and the other keeps it. -/
structure Mirroring (W W' : Type) where
  offered : List (HostFunction W)
  other : HostFunction W → HostFunction W'
  kept : CallLog → W → W' → Prop
  name : ∀ f, (other f).name = f.name
  arity : ∀ f, (other f).arity = f.arity
  run : ∀ {f : HostFunction W} {args : List Snapshot} {log : CallLog} {host : Host W} {world : W'},
    f ∈ offered → f.arity.accepts args.length = true → kept log host.world world →
    ∃ world', (other f).run args (host.inWorld world) =
        ((f.run args host).1, (f.run args host).2.inWorld world') ∧
      kept (log.count f.name (Json.arr (args.map Snapshot.toJson)).compact)
        (f.run args host).2.world world'

namespace Mirroring

variable (M : Mirroring W W') {α β S : Type}

/-- The two states are the same, but for the hosts behind them. -/
def Reflects (m : Machine W) (m' : Machine W') : Prop :=
  m.functions = M.offered ∧
    ∃ world, m' = m.inWorld (M.offered.map M.other) world ∧ M.kept m.calls m.host.world world

/-- The two evaluations ended in the same way. -/
inductive Ends : EStateM.Result Failure (Machine W) α → EStateM.Result Failure (Machine W') α → Prop
  | ok {m : Machine W} {m' : Machine W'} (a : α) : M.Reflects m m' → Ends (.ok a m) (.ok a m')
  | error {m : Machine W} {m' : Machine W'} (failure : Failure) : M.Reflects m m' →
      Ends (.error failure m) (.error failure m')

/-- The second evaluation does under the second host what the first does under the first. -/
def Mirrors (x : Exec W α) (x' : Exec W' α) : Prop :=
  ∀ m m', M.Reflects m m' → M.Ends (x m) (x' m')

/-- The two callers do the same with every call. -/
def Calls (call : Caller W) (call' : Caller W') : Prop :=
  ∀ name args position, M.Mirrors (call name args position) (call' name args position)

variable {M}

theorem give (a : α) : M.Mirrors (pure a) (pure a) :=
  fun _ _ reflects => .ok a reflects

theorem andThen {x : Exec W α} {x' : Exec W' α} {k : α → Exec W β} {k' : α → Exec W' β}
    (first : M.Mirrors x x') (second : ∀ a, M.Mirrors (k a) (k' a)) :
    M.Mirrors (x >>= k) (x' >>= k') := by
  intro m m' reflects
  have ended := first m m' reflects
  rw [Exec.bind_apply, Exec.bind_apply]
  generalize x m = r at ended
  generalize x' m' = r' at ended
  cases ended with
  | ok a reflects => exact second a _ _ reflects
  | error failure reflects => exact .error failure reflects

theorem raise (fault : Fault) (position : Position) :
    M.Mirrors (α := α) (Exec.raise fault position) (Exec.raise fault position) :=
  fun _ _ reflects => .error _ reflects

theorem orRaise (position : Position) (result : Except Fault α) :
    M.Mirrors (Exec.orRaise position result) (Exec.orRaise position result) := by
  cases result with
  | ok a => exact give a
  | error fault => exact raise fault position

theorem aside {x : Exec W α} {x' : Exec W' α} {value : Machine W → α}
    {next : Machine W → Machine W} (goes : ∀ m, x m = .ok (value m) (next m))
    (goes' : ∀ m functions world,
      x' (m.inWorld functions world) = .ok (value m) ((next m).inWorld functions world))
    (still : ∀ m, (next m).functions = m.functions ∧ (next m).calls = m.calls ∧
      (next m).host.world = m.host.world) : M.Mirrors x x' := by
  rintro m _ ⟨offered, world, rfl, kept⟩
  obtain ⟨functions, calls, same⟩ := still m
  rw [goes, goes']
  refine .ok _ ⟨functions.trans offered, world, rfl, ?_⟩
  rwa [calls, same]

section Small

theorem heap : M.Mirrors Exec.heap Exec.heap :=
  aside (fun _ => rfl) (fun _ _ _ => rfl) fun _ => ⟨rfl, rfl, rfl⟩

theorem features : M.Mirrors Exec.features Exec.features :=
  aside (fun _ => rfl) (fun _ _ _ => rfl) fun _ => ⟨rfl, rfl, rfl⟩

theorem freeze (v : Value) : M.Mirrors (Exec.freeze v) (Exec.freeze v) :=
  aside (fun _ => rfl) (fun _ _ _ => rfl) fun _ => ⟨rfl, rfl, rfl⟩

theorem newList (items : List Value) : M.Mirrors (Exec.newList items) (Exec.newList items) :=
  aside (fun _ => rfl) (fun _ _ _ => rfl) fun _ => ⟨rfl, rfl, rfl⟩

theorem newDict (entries : List (String × Value)) :
    M.Mirrors (Exec.newDict entries) (Exec.newDict entries) :=
  aside (fun _ => rfl) (fun _ _ _ => rfl) fun _ => ⟨rfl, rfl, rfl⟩

theorem thaw (snapshot : Snapshot) : M.Mirrors (Exec.thaw snapshot) (Exec.thaw snapshot) :=
  aside (fun _ => rfl) (fun _ _ _ => rfl) fun _ => ⟨rfl, rfl, rfl⟩

theorem setHeap (heap : Heap) : M.Mirrors (Exec.setHeap heap) (Exec.setHeap heap) :=
  aside (fun _ => rfl) (fun _ _ _ => rfl) fun _ => ⟨rfl, rfl, rfl⟩

theorem openBlock : M.Mirrors Exec.openBlock Exec.openBlock :=
  aside (fun _ => rfl) (fun _ _ _ => rfl) fun _ => ⟨rfl, rfl, rfl⟩

theorem closeBlock : M.Mirrors Exec.closeBlock Exec.closeBlock :=
  aside (fun _ => rfl) (fun _ _ _ => rfl) fun _ => ⟨rfl, rfl, rfl⟩

theorem openCall : M.Mirrors Exec.openCall Exec.openCall :=
  aside (fun _ => rfl) (fun _ _ _ => rfl) fun _ => ⟨rfl, rfl, rfl⟩

theorem closeCall : M.Mirrors Exec.closeCall Exec.closeCall :=
  aside (fun _ => rfl) (fun _ _ _ => rfl) fun _ => ⟨rfl, rfl, rfl⟩

theorem inFunction : M.Mirrors Exec.inFunction Exec.inFunction :=
  aside (fun _ => rfl) (fun _ _ _ => rfl) fun _ => ⟨rfl, rfl, rfl⟩

theorem loopDepth : M.Mirrors Exec.loopDepth Exec.loopDepth :=
  aside (fun _ => rfl) (fun _ _ _ => rfl) fun _ => ⟨rfl, rfl, rfl⟩

theorem setLoopDepth (depth : Nat) :
    M.Mirrors (Exec.setLoopDepth depth) (Exec.setLoopDepth depth) :=
  aside (fun _ => rfl) (fun _ _ _ => rfl) fun _ => ⟨rfl, rfl, rfl⟩

theorem enterLoop : M.Mirrors Exec.enterLoop Exec.enterLoop :=
  aside (fun _ => rfl) (fun _ _ _ => rfl) fun _ => ⟨rfl, rfl, rfl⟩

theorem leaveLoop : M.Mirrors Exec.leaveLoop Exec.leaveLoop :=
  aside (fun _ => rfl) (fun _ _ _ => rfl) fun _ => ⟨rfl, rfl, rfl⟩

theorem log (output : String) : M.Mirrors (Exec.log output) (Exec.log output) :=
  aside (fun _ => rfl) (fun _ _ _ => rfl) fun _ => ⟨rfl, rfl, rfl⟩

theorem iterationsLeft : M.Mirrors Exec.iterationsLeft Exec.iterationsLeft :=
  aside (fun _ => rfl) (fun _ _ _ => rfl) fun _ => ⟨rfl, rfl, rfl⟩

theorem readName (name : String) (position : Position) :
    M.Mirrors (Exec.readName name position) (Exec.readName name position) := by
  rintro m _ ⟨offered, world, rfl, kept⟩
  exact orRaise position (m.scopes.get name) m _ ⟨offered, world, rfl, kept⟩

theorem rename (position : Position) (result : Except Fault Scopes) :
    M.Mirrors (Exec.orRaise position result >>= fun scopes => modify fun m => { m with scopes })
      (Exec.orRaise position result >>= fun scopes => modify fun m => { m with scopes }) :=
  andThen (orRaise position result) fun _ =>
    aside (fun _ => rfl) (fun _ _ _ => rfl) fun _ => ⟨rfl, rfl, rfl⟩

theorem declare (name : String) (value : Value) (constant : Bool) (position : Position) :
    M.Mirrors (Exec.declare name value constant position)
      (Exec.declare name value constant position) := by
  rintro m _ ⟨offered, world, rfl, kept⟩
  exact rename position (m.scopes.declare name value constant) m _ ⟨offered, world, rfl, kept⟩

theorem assign (name : String) (value : Value) (position : Position) :
    M.Mirrors (Exec.assign name value position) (Exec.assign name value position) := by
  rintro m _ ⟨offered, world, rfl, kept⟩
  exact rename position (m.scopes.assign name value) m _ ⟨offered, world, rfl, kept⟩

theorem checkTime (position : Position) :
    M.Mirrors (Exec.checkTime position) (Exec.checkTime position) := by
  rintro m _ ⟨offered, world, rfl, kept⟩
  rw [Exec.checkTime_apply, Exec.checkTime_apply]
  change M.Ends _ (if m.features.maxTime < m.host.time then _ else _)
  by_cases late : m.features.maxTime < m.host.time
  · rw [if_pos late, if_pos late]
    exact .error _ ⟨offered, world, rfl, kept⟩
  · rw [if_neg late, if_neg late]
    exact .ok () ⟨offered, world, rfl, kept⟩

theorem record (position : Position) (kind : String) (value : Option Snapshot) (step : Step) :
    M.Mirrors (Exec.record position kind value step) (Exec.record position kind value step) :=
  andThen (aside (fun _ => rfl) (fun _ _ _ => rfl) fun _ => ⟨rfl, rfl, rfl⟩) fun _ =>
    checkTime position

theorem countIteration (position : Position) :
    M.Mirrors (Exec.countIteration position) (Exec.countIteration position) := by
  rintro m _ ⟨offered, world, rfl, kept⟩
  rw [Exec.countIteration_apply, Exec.countIteration_apply]
  change M.Ends _ (if m.features.maxIterations.toNat < m.iterations.toNat + 1 then _ else _)
  by_cases many : m.features.maxIterations.toNat < m.iterations.toNat + 1
  · rw [if_pos many, if_pos many]
    exact .error _ ⟨offered, world, rfl, kept⟩
  · rw [if_neg many, if_neg many]
    exact .ok () ⟨offered, world, rfl, kept⟩

end Small

section Blocks

variable {body : Exec W α} {body' : Exec W' α}

theorem inBlock (h : M.Mirrors body body') : M.Mirrors (Exec.inBlock body) (Exec.inBlock body') :=
  andThen openBlock fun _ => andThen h fun a => andThen closeBlock fun _ => give a

theorem inLoop (h : M.Mirrors body body') : M.Mirrors (Exec.inLoop body) (Exec.inLoop body') :=
  andThen enterLoop fun _ => andThen h fun a => andThen leaveLoop fun _ => give a

theorem branch (holds : Bool) {other : Exec W α} {other' : Exec W' α} (h : M.Mirrors body body')
    (otherwise : M.Mirrors other other') :
    M.Mirrors (if holds then body else other) (if holds then body' else other') := by
  cases holds with
  | true => exact h
  | false => exact otherwise

theorem unlessRaised {c : Prop} [Decidable c] {next : Unit → Exec W α} {next' : Unit → Exec W' α}
    (fault : Fault) (position : Position) (h : M.Mirrors (next ()) (next' ())) :
    M.Mirrors (if c then Exec.raise fault position >>= next else next ())
      (if c then Exec.raise fault position >>= next' else next' ()) := by
  by_cases stands : c
  · rw [if_pos stands, if_pos stands]
    exact fun _ _ reflects => .error _ reflects
  · rw [if_neg stands, if_neg stands]
    exact h

end Blocks

section Loops

variable {next : Exec W Completion} {next' : Exec W' Completion}

/-- How a loop goes on after a round: `next` is what is left of it. -/
theorem afterRound (h : M.Mirrors next next') (c : Completion) :
    M.Mirrors (match c with
      | .broke => pure .normal
      | .returned value => pure (.returned value)
      | .normal => next
      | .continued => next)
      (match c with
      | .broke => pure .normal
      | .returned value => pure (.returned value)
      | .normal => next'
      | .continued => next') := by
  cases c with
  | normal | continued => exact h
  | broke => exact give _
  | returned value => exact give _

theorem inRound {begin : Exec W Unit} {begin' : Exec W' Unit} {body : Exec W Completion}
    {body' : Exec W' Completion} (position : Position) (hb : M.Mirrors begin begin')
    (h : M.Mirrors body body') :
    M.Mirrors (Exec.inRound position begin body) (Exec.inRound position begin' body') :=
  andThen (countIteration position) fun _ => inBlock (andThen hb fun _ => h)

theorem loopTimes {body : Nat → Exec W Completion} {body' : Nat → Exec W' Completion}
    (h : ∀ n, M.Mirrors (body n) (body' n)) (first count : Nat) :
    M.Mirrors (Exec.loopTimes body first count) (Exec.loopTimes body' first count) := by
  induction count generalizing first with
  | zero => exact give _
  | succ count ih => exact andThen (h first) (afterRound (ih (first + 1)))

theorem loopOver {body : β → Exec W Completion} {body' : β → Exec W' Completion}
    (h : ∀ a, M.Mirrors (body a) (body' a)) (items : List β) :
    M.Mirrors (Exec.loopOver body items) (Exec.loopOver body' items) := by
  induction items with
  | nil => exact give _
  | cons item rest ih => exact andThen (h item) (afterRound ih)

theorem loopWhile {test : Exec W Bool} {test' : Exec W' Bool} {body : Exec W Completion}
    {body' : Exec W' Completion} {update : Exec W Unit} {update' : Exec W' Unit}
    (position : Position) (ht : M.Mirrors test test') (hb : M.Mirrors body body')
    (hu : M.Mirrors update update') (bound : Nat) :
    M.Mirrors (Exec.loopWhile position test body update bound)
      (Exec.loopWhile position test' body' update' bound) := by
  induction bound with
  | zero =>
      refine andThen ht fun holds => branch holds ?_ (give _)
      refine andThen (countIteration position) fun _ => andThen features fun f => ?_
      exact raise (.tooManyIterations f.maxIterations.toNat) position
  | succ bound ih =>
      refine andThen ht fun holds => branch holds ?_ (give _)
      exact andThen (countIteration position) fun _ =>
        andThen hb (afterRound (andThen hu fun _ => ih))

end Loops

section Hosts

theorem hostFunction?_map (functions : List (HostFunction W)) (name : String) :
    Exec.hostFunction? (functions.map M.other) name =
      (Exec.hostFunction? functions name).map M.other := by
  unfold Exec.hostFunction?
  rw [← List.map_reverse, List.find?_map]
  congr 1
  exact congrArg (List.find? · functions.reverse) (funext fun f => by simp [M.name f])

theorem answer (name : String) (position : Position) (result : Except HostFailure Json) :
    M.Mirrors (Exec.answer name position result) (Exec.answer name position result) := by
  cases result with
  | ok json => exact thaw (Snapshot.ofJson json)
  | error failure =>
      rw [Exec.answer_error, Exec.answer_error]
      exact raise (failure.fault name) position

theorem reflects_afterCall {f : HostFunction W} {m : Machine W} {m' : Machine W'}
    (offered : f ∈ M.offered) (reflects : M.Reflects m m') {args : List Snapshot}
    (accepted : f.arity.accepts args.length = true) :
    ((M.other f).run args m'.host).1 = (f.run args m.host).1 ∧
      M.Reflects (m.afterCall f args) (m'.afterCall (M.other f) args) := by
  obtain ⟨functions, world, rfl, kept⟩ := reflects
  obtain ⟨world', ran, kept'⟩ := M.run offered accepted kept
  have host : (m.inWorld (M.offered.map M.other) world).host = m.host.inWorld world := rfl
  unfold Machine.afterCall
  rw [host, ran, M.name]
  exact ⟨rfl, functions, world', rfl, kept'⟩

theorem runHost {f : HostFunction W} (offered : f ∈ M.offered) (args : List Value)
    (position : Position) :
    M.Mirrors (Exec.runHost f args position) (Exec.runHost (M.other f) args position) := by
  intro m m' reflects
  have arity : (M.other f).arity.accepts args.length = f.arity.accepts args.length := by
    rw [M.arity]
  have frozen : args.map m'.heap.freeze = args.map m.heap.freeze := by
    obtain ⟨-, world, rfl, -⟩ := reflects
    rfl
  cases accepted : f.arity.accepts args.length with
  | false =>
      rw [Exec.runHost_refused position accepted,
        Exec.runHost_refused position (arity.trans accepted), M.name, M.arity]
      exact .error _ reflects
  | true =>
      have taken : f.arity.accepts (args.map m.heap.freeze).length = true := by
        rwa [List.length_map]
      obtain ⟨result, after⟩ := reflects_afterCall offered reflects taken
      rw [Exec.runHost_apply position accepted, Exec.runHost_apply position (arity.trans accepted),
        M.name, frozen, result]
      exact answer f.name position _ _ _ after

theorem callHost : M.Calls Exec.callHost Exec.callHost := by
  intro name args position m m' reflects
  have functions : m'.functions = M.offered.map M.other := by
    obtain ⟨-, world, rfl, -⟩ := reflects
    rfl
  rw [Exec.callHost_apply, Exec.callHost_apply, functions, reflects.1, hostFunction?_map]
  cases found : Exec.hostFunction? M.offered name with
  | none => exact .error _ reflects
  | some f =>
      have ran := runHost (Exec.mem_of_hostFunction? found) args position
      exact andThen ran (fun v => andThen (checkTime position) fun _ => give v) m m' reflects

end Hosts

section Functions

variable {pass : Value → Exec W Value} {pass' : Value → Exec W' Value}

theorem bindParams (passes : ∀ v, M.Mirrors (pass v) (pass' v)) (position : Position)
    (params : List String) (args : List Value) :
    M.Mirrors (Exec.bindParams pass position params args)
      (Exec.bindParams pass' position params args) := by
  induction params generalizing args with
  | nil => exact give ()
  | cons param params ih =>
      cases args with
      | nil => exact give ()
      | cons arg args =>
          exact andThen (passes arg) fun value =>
            andThen (declare param value false position) fun _ => ih args

theorem runBody {exec : S → Exec W Completion} {exec' : S → Exec W' Completion}
    (h : ∀ s, M.Mirrors (exec s) (exec' s)) (body : List S) :
    M.Mirrors (Exec.runBody exec body) (Exec.runBody exec' body) := by
  induction body with
  | nil => exact give _
  | cons statement rest ih =>
      refine andThen (h statement) fun c => ?_
      cases c with
      | returned value => exact give value
      | normal | broke | continued => exact ih

theorem runAll {exec : S → Exec W Completion} {exec' : S → Exec W' Completion}
    (h : ∀ s, M.Mirrors (exec s) (exec' s)) (statements : List S) :
    M.Mirrors (Exec.runAll exec statements) (Exec.runAll exec' statements) := by
  induction statements with
  | nil => exact give ()
  | cons statement rest ih => exact andThen (h statement) fun _ => ih

theorem resolve {functions : List (Function S)}
    {run : Function S → List Value → Position → Exec W Value}
    {run' : Function S → List Value → Position → Exec W' Value}
    (h : ∀ f args position, M.Mirrors (run f args position) (run' f args position)) :
    M.Calls (Exec.resolve functions run) (Exec.resolve functions run') := by
  intro name args position
  unfold Exec.resolve
  cases functions.find? fun f => f.name == name with
  | none => exact callHost name args position
  | some f =>
      dsimp only
      split
      · exact raise _ position
      · exact h f args position

theorem enter (passes : ∀ v, M.Mirrors (pass v) (pass' v)) {exec : S → Exec W Completion}
    {exec' : S → Exec W' Completion} (h : ∀ s, M.Mirrors (exec s) (exec' s)) (f : Function S)
    (args : List Value) (position : Position) :
    M.Mirrors (Exec.enter pass exec f args position) (Exec.enter pass' exec' f args position) := by
  refine andThen openCall fun _ => andThen (bindParams passes position f.params args) fun _ => ?_
  refine andThen loopDepth fun outer => andThen (setLoopDepth 0) fun _ => ?_
  refine andThen (runBody h f.body) fun value => ?_
  exact andThen (setLoopDepth outer) fun _ => andThen closeCall fun _ => give value

/-- Calls are mirrored at every depth if statements are, whose calls are. -/
theorem callFunction (passes : ∀ v, M.Mirrors (pass v) (pass' v))
    {exec : Caller W → S → Exec W Completion} {exec' : Caller W' → S → Exec W' Completion}
    (h : ∀ call call', M.Calls call call' → ∀ s, M.Mirrors (exec call s) (exec' call' s))
    (functions : List (Function S)) (room : Nat) :
    M.Calls (Exec.callFunction functions pass exec room)
      (Exec.callFunction functions pass' exec' room) := by
  induction room with
  | zero => exact resolve fun f _ position => raise (.infiniteRecursion f.name) position
  | succ room ih => exact resolve (enter passes (h _ _ ih))

/-- Whatever follows the two programs does the same if it does so with mirrored callers. -/
def Leads (M : Mirroring W W') (x : Exec W (Caller W)) (x' : Exec W' (Caller W')) : Prop :=
  ∀ {β : Type} {k : Caller W → Exec W β} {k' : Caller W' → Exec W' β},
    (∀ call call', M.Calls call call' → M.Mirrors (k call) (k' call')) →
    M.Mirrors (x >>= k) (x' >>= k')

theorem runDeclared (taken : String → Bool) (declares? : S → Option (Function S))
    (passes : ∀ v, M.Mirrors (pass v) (pass' v))
    {exec : Caller W → S → Exec W Completion} {exec' : Caller W' → S → Exec W' Completion}
    (h : ∀ call call', M.Calls call call' → ∀ s, M.Mirrors (exec call s) (exec' call' s))
    (program : List S) :
    M.Leads (Exec.runDeclared taken declares? pass exec program)
      (Exec.runDeclared taken declares? pass' exec' program) := by
  intro β k k' follows
  unfold Exec.runDeclared
  cases Exec.hoist taken [] (program.filterMap declares?) with
  | error failure => exact fun _ _ reflects => .error failure reflects
  | ok functions =>
      have calls := callFunction passes h functions callLimit
      dsimp only
      rw [bind_assoc, bind_assoc]
      refine andThen (runAll (h _ _ calls) _) fun _ => ?_
      rw [pure_bind, pure_bind]
      exact follows _ _ calls

theorem leads_of_apply {x : Exec W (Caller W)} {x' : Exec W' (Caller W')}
    {run : (String → Bool) → Exec W (Caller W)} {run' : (String → Bool) → Exec W' (Caller W')}
    {taken : List (HostFunction W) → String → Bool}
    {taken' : List (HostFunction W') → String → Bool}
    (begins : ∀ m, x m = run (taken m.functions) m)
    (begins' : ∀ m, x' m = run' (taken' m.functions) m)
    (same : ∀ functions, taken' (functions.map M.other) = taken functions)
    (h : ∀ names, M.Leads (run names) (run' names)) : M.Leads x x' := by
  intro β k k' follows m m' reflects
  have functions : m'.functions = M.offered.map M.other := by
    obtain ⟨-, world, rfl, -⟩ := reflects
    rfl
  have ended := h (taken m.functions) follows m m' reflects
  rw [Exec.bind_apply, Exec.bind_apply] at ended ⊢
  rwa [begins, begins', functions, ← reflects.1, same]

end Functions

section Outside

theorem thawAll (args : List Json) :
    M.Mirrors (Language.thawAll args) (Language.thawAll args) := by
  induction args with
  | nil => exact give []
  | cons json rest ih =>
      exact andThen (thaw (Snapshot.ofJson json)) fun value => andThen ih fun values => give _

theorem whole (access : GlobalAccess) {run : Exec W (Caller W)} {run' : Exec W' (Caller W')}
    (leads : M.Leads run run') (call : Option (String × List Json)) :
    M.Mirrors (Language.Loaded.whole ⟨access, run⟩ call)
      (Language.Loaded.whole ⟨access, run'⟩ call) := by
  cases call with
  | none => exact leads fun _ _ _ => give none
  | some asked =>
      refine leads fun call call' calls => andThen (thawAll asked.2) fun values => ?_
      refine andThen (calls asked.1 values {}) fun value => andThen (freeze value) fun shown => ?_
      exact give (some shown)

end Outside

end Mirroring

def Setup.inWorld (setup : Setup W) (other : HostFunction W → HostFunction W') (world : W') :
    Setup W' :=
  { features := setup.features
    functions := setup.functions.map other
    seed := setup.seed
    world }

namespace Mirroring

variable {M : Mirroring W W'} {setup : Setup W} {world : W'}

theorem outcome_inWorld {access : GlobalAccess} {run : Exec W (Caller W)}
    {run' : Exec W' (Caller W')} (leads : M.Leads run run') (offered : setup.functions = M.offered)
    (kept : M.kept Table.empty setup.world world) (source : String)
    (call : Option (String × List Json)) :
    let o := Language.Loaded.outcome ⟨access, run⟩ setup source call
    ∃ world', Language.Loaded.outcome ⟨access, run'⟩ (setup.inWorld M.other world) source call =
        o.inWorld world' ∧ M.kept o.calls o.world world' := by
  intro o
  have begun : M.Reflects (Language.start setup source access)
      (Language.start (setup.inWorld M.other world) source access) := by
    refine ⟨offered, world, ?_, kept⟩
    rw [← offered]
    rfl
  have ended := whole access leads call _ _ begun
  unfold o Language.Loaded.outcome
  rw [Language.complete_eq, Language.complete_eq]
  dsimp only
  generalize Language.Loaded.whole ⟨access, run⟩ call _ = r at ended
  generalize Language.Loaded.whole ⟨access, run'⟩ call _ = r' at ended
  cases ended with
  | ok value reflects =>
      obtain ⟨-, world', rfl, kept'⟩ := reflects
      exact ⟨world', rfl, kept'⟩
  | error failure reflects =>
      obtain ⟨-, world', rfl, kept'⟩ := reflects
      exact ⟨world', rfl, kept'⟩

end Mirroring
end Walkthrough
