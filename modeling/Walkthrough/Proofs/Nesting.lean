import Walkthrough.Proofs.JavaScriptDiscipline
import Walkthrough.Proofs.JikiScriptDiscipline
import Walkthrough.Proofs.LexicalScope

/-! Calls, blocks and loops inside each other. Whatever is opened while a statement runs is closed
again before the statement ends: the calls in progress, the blocks open in each of them and the
loops open around the statement are as they were. A block takes the names declared in it with it, so
a frame is left with the names it had. -/

namespace Walkthrough

theorem Table.contains_insertAll {α : Type} (t : Table α) (es : List (String × α)) (key : String) :
    (es.foldl (fun t entry => t.insert entry.1 entry.2) t).contains key = true ↔
      key ∈ es.map Prod.fst ∨ t.contains key = true := by
  induction es generalizing t with
  | nil => simp
  | cons entry rest ih =>
      rw [List.foldl_cons, ih, contains_insert, List.map_cons, List.mem_cons]
      tauto

theorem Table.contains_eraseAll {α : Type} (t : Table α) (names : List String) (key : String) :
    (names.foldl (fun t name => t.erase name) t).contains key = true ↔
      key ∉ names ∧ t.contains key = true := by
  unfold contains
  rw [get?_eraseAll]
  by_cases erased : key ∈ names <;> simp [erased]

namespace CallFrame

variable {f g g' : CallFrame}

theorem SameNames.refl (f : CallFrame) : f.SameNames f :=
  ⟨rfl, fun _ => rfl⟩

theorem SameNames.trans (h : f.SameNames g) (h' : g.SameNames g') : f.SameNames g' :=
  ⟨h'.blocks.trans h.blocks, fun name => (h'.names name).trans (h.names name)⟩

instance : Std.Refl SameNames :=
  ⟨SameNames.refl⟩

instance : IsTrans CallFrame SameNames :=
  ⟨fun _ _ _ => SameNames.trans⟩

/-- What statements do to the frame they run in: they write over its bindings, and they declare
names that the innermost block does not have yet. -/
inductive Grows (f : CallFrame) : CallFrame → Prop
  | refl : Grows f f
  | overwrite {g g' : CallFrame} : Grows f g → g.SameNames g' → Grows f g'
  | bind {g : CallFrame} {name : String} (binding : Binding) : Grows f g →
      g.declaredHere name = false → Grows f (g.bind name binding)

theorem Grows.trans (h : f.Grows g) (h' : g.Grows g') : f.Grows g' := by
  induction h' with
  | refl => exact h
  | overwrite _ same ih => exact ih.overwrite same
  | bind binding _ new ih => exact ih.bind binding new

theorem SameNames.grows (h : f.SameNames g) : f.Grows g :=
  Grows.refl.overwrite h

instance : Std.Refl Grows :=
  ⟨fun _ => .refl⟩

instance : IsTrans CallFrame Grows :=
  ⟨fun _ _ _ => Grows.trans⟩

/-- What a statement does to the frame it runs in: one that is closed leaves no name
behind. -/
def Changes (closed : Bool) : CallFrame → CallFrame → Prop :=
  if closed then SameNames else Grows

theorem length_blocks_bind (f : CallFrame) (name : String) (binding : Binding) :
    (f.bind name binding).blocks.length = f.blocks.length := by
  unfold bind
  split <;> simp [*]

theorem Grows.length_blocks (h : f.Grows g) : g.blocks.length = f.blocks.length := by
  induction h with
  | refl => rfl
  | overwrite _ same ih => rw [same.blocks, ih]
  | bind binding _ _ ih => rw [length_blocks_bind, ih]

/-- The frame `g` is `f` with one more block open, whose log accounts for every name that `g` has
and `f` has not, and for every name of `f` that is hidden. -/
structure Inside (f : CallFrame) (block : Block) (g : CallFrame) : Prop where
  blocks : g.blocks = block :: f.blocks
  names : ∀ name, g.locals.contains name = true ↔
    f.locals.contains name = true ∨ name ∈ block.declared
  hidden : ∀ name, name ∈ block.shadowed.map Prod.fst ↔
    f.locals.contains name = true ∧ name ∈ block.declared

theorem inside_openBlock (f : CallFrame) : f.Inside {} f.openBlock :=
  ⟨rfl, by simp [openBlock], by simp⟩

theorem Inside.overwrite {block : Block} (h : f.Inside block g) (same : g.SameNames g') :
    f.Inside block g' := by
  refine ⟨same.blocks.trans h.blocks, fun name => ?_, h.hidden⟩
  rw [same.names name]
  exact h.names name

theorem Inside.bind {block : Block} {name : String} (h : f.Inside block g)
    (new : g.declaredHere name = false) (binding : Binding) :
    ∃ block', f.Inside block' (g.bind name binding) := by
  unfold CallFrame.bind
  rw [h.blocks]
  refine ⟨_, rfl, fun other => ?_, fun other => ?_⟩
  · rw [Table.contains_insert, h.names, List.mem_append, List.mem_singleton]
    tauto
  · have fresh : name ∉ block.declared := by
      simpa [declaredHere, h.blocks] using new
    -- the name is hidden exactly if the frame had it before the block was opened
    have outer : other ∈ ((g.locals.get? name).toList.map fun b => (name, b)).map Prod.fst ↔
        other = name ∧ f.locals.contains name = true := by
      have had := h.names name
      unfold Table.contains at had ⊢
      cases found : g.locals.get? name <;> simp_all
    rw [List.map_append, List.mem_append, h.hidden, outer, List.mem_append, List.mem_singleton]
    constructor
    · rintro (⟨bound, declared⟩ | ⟨rfl, bound⟩)
      · exact ⟨bound, Or.inl declared⟩
      · exact ⟨bound, Or.inr rfl⟩
    · rintro ⟨bound, declared | rfl⟩
      · exact Or.inl ⟨bound, declared⟩
      · exact Or.inr ⟨rfl, bound⟩

theorem Grows.inside (h : f.openBlock.Grows g) : ∃ block, f.Inside block g := by
  induction h with
  | refl => exact ⟨{}, inside_openBlock f⟩
  | overwrite _ same ih =>
      obtain ⟨block, inside⟩ := ih
      exact ⟨block, inside.overwrite same⟩
  | bind binding _ new ih =>
      obtain ⟨block, inside⟩ := ih
      exact inside.bind new binding

theorem Inside.closeBlock {block : Block} (h : f.Inside block g) : f.SameNames g.closeBlock := by
  unfold CallFrame.closeBlock
  rw [h.blocks]
  refine ⟨rfl, fun name => ?_⟩
  rw [Bool.eq_iff_iff, Table.contains_insertAll, Table.contains_eraseAll, h.names, h.hidden]
  tauto

end CallFrame

namespace Scopes

variable {s s' s'' : Scopes} {R : CallFrame → CallFrame → Prop}

/-- The frames around the current one. -/
def others (s : Scopes) : List CallFrame :=
  match s.calls with
  | [] => []
  | _ :: outer => outer ++ [s.globals]

def frames (s : Scopes) : List CallFrame :=
  s.current :: s.others

theorem frames_eq (s : Scopes) : s.frames = s.calls ++ [s.globals] := by
  unfold frames others current
  cases s.calls <;> rfl

theorem others_setCurrent (s : Scopes) (f : CallFrame) : (s.setCurrent f).others = s.others := by
  unfold setCurrent others
  cases s.calls <;> rfl

theorem inFunction_eq (s : Scopes) : s.inFunction = !s.others.isEmpty := by
  unfold inFunction others
  cases s.calls <;> simp

theorem inFunction_setCurrent (s : Scopes) (f : CallFrame) :
    (s.setCurrent f).inFunction = s.inFunction := by
  rw [inFunction_eq, inFunction_eq, others_setCurrent]

/-- The current frame may have changed by `R`, and the frames around it have the names they had. -/
structure Through (R : CallFrame → CallFrame → Prop) (s s' : Scopes) : Prop where
  current : R s.current s'.current
  others : List.Forall₂ CallFrame.SameNames s.others s'.others

def SameNames (s s' : Scopes) : Prop :=
  List.Forall₂ CallFrame.SameNames s.frames s'.frames

theorem forall₂_sameNames_trans {fs gs hs : List CallFrame}
    (first : List.Forall₂ CallFrame.SameNames fs gs)
    (second : List.Forall₂ CallFrame.SameNames gs hs) : List.Forall₂ CallFrame.SameNames fs hs := by
  induction first generalizing hs with
  | nil => exact second
  | cons same _ ih =>
      cases second with
      | cons same' rest => exact .cons (same.trans same') (ih rest)

theorem Through.refl [Std.Refl R] (s : Scopes) : s.Through R s :=
  ⟨refl_of R _, List.forall₂_refl _⟩

theorem Through.trans [IsTrans CallFrame R] (h : s.Through R s') (h' : s'.Through R s'') :
    s.Through R s'' :=
  ⟨trans_of R h.current h'.current, forall₂_sameNames_trans h.others h'.others⟩

theorem Through.mono {R' : CallFrame → CallFrame → Prop} (h : s.Through R s')
    (weaker : ∀ f f', R f f' → R' f f') : s.Through R' s' :=
  ⟨weaker _ _ h.current, h.others⟩

theorem Through.inFunction (h : s.Through R s') : s'.inFunction = s.inFunction := by
  rw [inFunction_eq, inFunction_eq]
  have around := h.others
  generalize s.others = fs, s'.others = gs at around
  cases around <;> rfl

theorem Through.setCurrent [Std.Refl R] {f : CallFrame} (h : R s.current f) :
    s.Through R (s.setCurrent f) := by
  refine ⟨?_, ?_⟩
  · rw [current_setCurrent]
    exact h
  · rw [others_setCurrent]
    exact List.forall₂_refl _

theorem Through.sameNames (h : s.Through CallFrame.SameNames s') : s.SameNames s' :=
  .cons h.current h.others

theorem SameNames.through (h : s.SameNames s') : s.Through CallFrame.SameNames s' := by
  cases h with
  | cons current others => exact ⟨current, others⟩

theorem through_declare {name : String} {v : Value} {constant : Bool}
    (declared : s.declare name v constant = .ok s') : s.Through CallFrame.Grows s' := by
  obtain ⟨new, -, rfl⟩ := declare_eq_ok.mp declared
  exact .setCurrent (.bind _ .refl new)

theorem through_assign {name : String} {v : Value} (assigned : s.assign name v = .ok s') :
    s.Through CallFrame.SameNames s' := by
  obtain ⟨binding, found, -, rfl⟩ := assign_eq_ok.mp assigned
  split
  · next bound =>
      obtain ⟨old, present⟩ := Option.isSome_iff_exists.mp bound
      exact .setCurrent ⟨rfl, contains_overwrite present⟩
  · next foreign =>
      have sees := seesGlobals_of_lookup? found foreign
      have outermost : s.globals.locals.get? name = some binding := by
        unfold lookup? at found
        rw [Option.not_isSome_iff_eq_none.mp foreign, sees] at found
        exact found
      -- only a function sees the outermost frame from outside, so it is one of the others
      obtain ⟨access, shadowing, globals, calls⟩ := s
      cases calls with
      | nil => cases sees
      | cons first rest =>
          refine ⟨.refl _, List.rel_append (List.forall₂_refl _) ?_⟩
          exact .cons ⟨rfl, contains_overwrite outermost⟩ .nil

theorem through_closeBlock (h : s.openBlock.Through CallFrame.Grows s') :
    s.Through CallFrame.SameNames s'.closeBlock := by
  obtain ⟨current, others⟩ := h
  unfold openBlock at current others
  rw [current_setCurrent] at current
  rw [others_setCurrent] at others
  obtain ⟨block, inside⟩ := current.inside
  refine ⟨?_, ?_⟩
  · rw [closeBlock, current_setCurrent]
    exact inside.closeBlock
  · rw [closeBlock, others_setCurrent]
    exact others

theorem others_openCall (s : Scopes) : s.openCall.others = s.frames := by
  rw [frames_eq]
  rfl

theorem frames_closeCall (inside : s.inFunction = true) : s.closeCall.frames = s.others := by
  rw [frames_eq]
  unfold closeCall others
  cases calls : s.calls with
  | nil =>
      unfold inFunction at inside
      rw [calls] at inside
      cases inside
  | cons first rest => rfl

theorem through_closeCall (h : s.openCall.Through R s') :
    s.Through CallFrame.SameNames s'.closeCall := by
  have inside : s'.inFunction = true := h.inFunction
  apply SameNames.through
  unfold SameNames
  rw [frames_closeCall inside, ← others_openCall]
  exact h.others

def openBlocks (s : Scopes) : List Nat :=
  s.frames.map fun f => f.blocks.length

theorem Through.openBlocks (h : s.Through CallFrame.Grows s') : s'.openBlocks = s.openBlocks := by
  have others : s'.others.map (fun f => f.blocks.length) =
      s.others.map fun f => f.blocks.length := by
    have around := h.others
    generalize s.others = fs, s'.others = gs at around
    induction around with
    | nil => rfl
    | cons same _ ih => rw [List.map_cons, List.map_cons, ih, same.blocks]
  unfold Scopes.openBlocks frames
  rw [List.map_cons, List.map_cons, others, h.current.length_blocks]

end Scopes

/-- Where a statement stands: how many loops are open around it in its function body, and whether it
stands in a function body at all. -/
structure Place where
  loops : Nat
  inside : Bool

def Place.inLoop (place : Place) : Place :=
  { place with loops := place.loops + 1 }

def Place.outOfLoops (place : Place) : Place :=
  { place with loops := 0 }

def Place.body : Place where
  loops := 0
  inside := true

def Machine.place {W : Type} (m : Machine W) : Place where
  loops := m.loopDepth
  inside := m.scopes.inFunction

namespace Completion

variable {place : Place} {c : Completion}

/-- A loop is left or continued only inside one, and a value is returned only from a function. -/
def FitsIn (place : Place) : Completion → Prop
  | .normal => True
  | .broke => 0 < place.loops
  | .continued => 0 < place.loops
  | .returned _ => place.inside = true

/-- How a statement may end at the place: one that is plain goes on to the next. -/
def EndsIn (plain : Bool) (place : Place) : Completion → Prop :=
  if plain then (· = .normal) else FitsIn place

theorem EndsIn.fitsIn {plain : Bool} (h : c.EndsIn plain place) : c.FitsIn place := by
  cases plain with
  | true =>
      cases h
      trivial
  | false => exact h

theorem FitsIn.ofOutOfLoops (h : c.FitsIn place.outOfLoops) : c.FitsIn place := by
  cases c with
  | normal => trivial
  | broke => cases h
  | continued => cases h
  | returned v => exact h

end Completion

namespace Exec

variable {W α β : Type} {R : CallFrame → CallFrame → Prop} {place : Place}

/-- If the evaluation, begun at the place, gives a value, then `Q` is true of the value, the
evaluation has come back to the place, the frame it ran in has changed by `R`, and the frames around
it have the names they had. -/
def Within (R : CallFrame → CallFrame → Prop) (place : Place) (x : Exec W α) (Q : α → Prop) :
    Prop :=
  ∀ ⦃m m' a⦄, m.place = place → x m = .ok a m' →
    m.scopes.Through R m'.scopes ∧ m'.loopDepth = m.loopDepth ∧ Q a

/-- Wherever it is begun, the evaluation leaves every frame with the names it had. -/
def Steady (x : Exec W α) (Q : α → Prop) : Prop :=
  ∀ place, Within CallFrame.SameNames place x Q

theorem place_eq {m m' : Machine W} (through : m.scopes.Through R m'.scopes)
    (depth : m'.loopDepth = m.loopDepth) : m'.place = m.place := by
  unfold Machine.place
  rw [depth, through.inFunction]

namespace Within

variable {x : Exec W α} {Q Q' : α → Prop} {P : β → Prop}

theorem mono (h : Within R place x Q) (given : ∀ a, Q a → Q' a) : Within R place x Q' := by
  intro m m' a here ended
  obtain ⟨through, depth, q⟩ := h here ended
  exact ⟨through, depth, given a q⟩

theorem grows (h : Within CallFrame.SameNames place x Q) : Within CallFrame.Grows place x Q := by
  intro m m' a here ended
  obtain ⟨through, depth, q⟩ := h here ended
  exact ⟨through.mono fun _ _ same => same.grows, depth, q⟩

theorem ofStatement {closed plain : Bool} {x : Exec W Completion}
    (h : Within (CallFrame.Changes closed) place x (Completion.EndsIn plain place)) :
    Within CallFrame.Grows place x (Completion.FitsIn place) := by
  refine mono (Q := Completion.EndsIn plain place) ?_ fun _ => Completion.EndsIn.fitsIn
  cases closed with
  | true => exact grows h
  | false => exact h

theorem give [Std.Refl R] {a : α} (q : Q a) : Within (W := W) R place (pure a) Q := by
  intro m m' b here ended
  cases ended
  exact ⟨.refl _, rfl, q⟩

theorem andThen [IsTrans CallFrame R] {k : α → Exec W β} (hx : Within R place x Q)
    (hk : ∀ a, Q a → Within R place (k a) P) : Within R place (x >>= k) P := by
  intro m m' b here ended
  obtain ⟨a, m₁, ran, rest⟩ := bind_eq_ok.mp ended
  obtain ⟨first, depth, q⟩ := hx here ran
  obtain ⟨second, depth', p⟩ := hk a q ((place_eq first depth).trans here) rest
  exact ⟨first.trans second, depth'.trans depth, p⟩

theorem raise (fault : Fault) (position : Position) :
    Within (W := W) R place (Exec.raise fault position) Q := by
  intro m m' a here ended
  cases ended

theorem ofSame [Std.Refl R] (same : ∀ m a m', x m = .ok a m' →
    m'.scopes = m.scopes ∧ m'.loopDepth = m.loopDepth) :
    Within R place x fun _ => True := by
  intro m m' a here ended
  obtain ⟨scopes, depth⟩ := same m a m' ended
  rw [scopes]
  exact ⟨.refl _, depth, trivial⟩

theorem read [Std.Refl R] (g : Machine W → α) :
    Within R place (do return g (← get)) fun _ => True :=
  ofSame fun _ _ _ ended => by
    cases ended
    exact ⟨rfl, rfl⟩

theorem orRaise [Std.Refl R] (position : Position) (result : Except Fault α) :
    Within (W := W) R place (Exec.orRaise position result) fun _ => True :=
  ofSame fun m a m' ended => by
    rw [orRaise_apply] at ended
    split at ended
    · cases ended
      exact ⟨rfl, rfl⟩
    · cases ended

theorem setHeap [Std.Refl R] (h : Heap) :
    Within (W := W) R place (Exec.setHeap h) fun _ => True :=
  ofSame fun _ _ _ ended => by
    cases ended
    exact ⟨rfl, rfl⟩

theorem log [Std.Refl R] (output : String) :
    Within (W := W) R place (Exec.log output) fun _ => True :=
  ofSame fun _ _ _ ended => by
    cases ended
    exact ⟨rfl, rfl⟩

theorem rename {x : Exec W Unit} {g : Scopes → Except Fault Scopes} {position : Position}
    (h : ∀ m, x m = match g m.scopes with
      | .ok scopes => .ok () { m with scopes }
      | .error fault => .error ⟨fault, position⟩ m)
    (through : ∀ s s', g s = .ok s' → s.Through R s') :
    Within R place x fun _ => True := by
  intro m m' a here ended
  rw [h m] at ended
  split at ended
  · next scopes made =>
      cases ended
      exact ⟨through _ _ made, rfl, trivial⟩
  · cases ended

theorem declare (name : String) (v : Value) (constant : Bool) (position : Position) :
    Within (W := W) CallFrame.Grows place (Exec.declare name v constant position) fun _ => True :=
  rename (fun m => declare_apply name v constant position m) fun _ _ => Scopes.through_declare

theorem record [Std.Refl R] (position : Position) (kind : String) (value : Option Snapshot)
    (step : Step) :
    Within (W := W) R place (Exec.record position kind value step) fun _ => True := by
  refine ofSame fun m a m' ended => ?_
  rw [record_apply] at ended
  split at ended
  · cases ended
  · cases ended
    exact ⟨rfl, rfl⟩

theorem countIteration [Std.Refl R] (position : Position) :
    Within (W := W) R place (Exec.countIteration position) fun _ => True := by
  refine ofSame fun m a m' ended => ?_
  rw [countIteration_apply] at ended
  split at ended
  · cases ended
  · cases ended
    exact ⟨rfl, rfl⟩

theorem inFunction [Std.Refl R] :
    Within (W := W) R place Exec.inFunction fun inside => inside = place.inside := by
  intro m m' a here ended
  cases ended
  exact ⟨.refl _, rfl, congrArg Place.inside here⟩

theorem loopDepth [Std.Refl R] :
    Within (W := W) R place Exec.loopDepth fun depth => depth = place.loops := by
  intro m m' a here ended
  cases ended
  exact ⟨.refl _, rfl, congrArg Place.loops here⟩

section Guards

variable [IsTrans CallFrame R] {next : Unit → Exec W α} (fault : Fault) (position : Position)

theorem unlessRaised {c : Prop} [Decidable c] (h : ¬ c → Within R place (next ()) Q) :
    Within R place (if c then Exec.raise fault position >>= next else next ()) Q := by
  split
  · exact andThen (Q := fun _ => False) (raise fault position) fun _ never => never.elim
  · next free => exact h free

variable [Std.Refl R]

theorem ifInFunction (h : place.inside = true → Within R place (next ()) Q) :
    Within R place (do
      let inside ← Exec.inFunction
      if !inside then Exec.raise fault position >>= next else next ()) Q := by
  refine andThen inFunction fun inside here => unlessRaised fault position fun stands => h ?_
  rw [← here]
  simpa using stands

theorem ifInLoop (h : 0 < place.loops → Within R place (next ()) Q) :
    Within R place (do
      let depth ← Exec.loopDepth
      if depth = 0 then Exec.raise fault position >>= next else next ()) Q := by
  refine andThen loopDepth fun depth here => unlessRaised fault position fun stands => h ?_
  rw [← here]
  exact Nat.pos_of_ne_zero stands

end Guards

theorem inBlock {body : Exec W α} (h : Within CallFrame.Grows place body Q) :
    Within CallFrame.SameNames place (Exec.inBlock body) Q := by
  intro m m' a here ended
  change (body >>= fun result => do
    closeBlock
    return result) { m with scopes := m.scopes.openBlock } = _ at ended
  obtain ⟨result, after, ran, closed⟩ := bind_eq_ok.mp ended
  cases closed
  have opened : { m with scopes := m.scopes.openBlock }.place = place := by
    rw [← here]
    exact congrArg (Place.mk m.loopDepth) (Scopes.inFunction_setCurrent _ _)
  obtain ⟨through, depth, q⟩ := h opened ran
  exact ⟨Scopes.through_closeBlock through, depth, q⟩

theorem inLoop {loop : Exec W Completion}
    (h : Within R place.inLoop loop (Completion.FitsIn place.outOfLoops)) :
    Within R place (Exec.inLoop loop) (Completion.FitsIn place) := by
  intro m m' a here ended
  change (loop >>= fun result => do
    leaveLoop
    return result) { m with loopDepth := m.loopDepth + 1 } = _ at ended
  obtain ⟨result, after, ran, left⟩ := bind_eq_ok.mp ended
  cases left
  have entered : { m with loopDepth := m.loopDepth + 1 }.place = place.inLoop := by
    rw [← here]
    rfl
  obtain ⟨through, depth, fits⟩ := h entered ran
  refine ⟨through, ?_, fits.ofOutOfLoops⟩
  change after.loopDepth - 1 = m.loopDepth
  rw [depth]
  rfl

section Rounds

variable [Std.Refl R]

/-- How a loop goes on after a round: `next` is what is left of it. A loop keeps to itself that its
body left it or went to the next round. -/
theorem afterRound {next : Exec W Completion} {c : Completion} (fits : c.FitsIn place)
    (h : Within R place next (Completion.FitsIn place.outOfLoops)) :
    Within R place (match c with
      | .broke => pure .normal
      | .returned value => pure (.returned value)
      | .normal => next
      | .continued => next) (Completion.FitsIn place.outOfLoops) := by
  cases c with
  | normal => exact h
  | continued => exact h
  | broke => exact give trivial
  | returned value => exact give fits

variable [IsTrans CallFrame R]

theorem loopTimes {body : Nat → Exec W Completion}
    (h : ∀ n, Within R place (body n) (Completion.FitsIn place)) (first count : Nat) :
    Within R place (Exec.loopTimes body first count) (Completion.FitsIn place.outOfLoops) := by
  induction count generalizing first with
  | zero => exact give trivial
  | succ count ih => exact andThen (h first) fun c fits => afterRound fits (ih (first + 1))

theorem loopOver {body : α → Exec W Completion}
    (h : ∀ item, Within R place (body item) (Completion.FitsIn place)) (items : List α) :
    Within R place (Exec.loopOver body items) (Completion.FitsIn place.outOfLoops) := by
  induction items with
  | nil => exact give trivial
  | cons item rest ih => exact andThen (h item) fun c fits => afterRound fits ih

theorem loopWhile {test : Exec W Bool} {body : Exec W Completion} {update : Exec W Unit}
    (position : Position) (ht : Within R place test fun _ => True)
    (hb : Within R place body (Completion.FitsIn place))
    (hu : Within R place update fun _ => True) (bound : Nat) :
    Within R place (Exec.loopWhile position test body update bound)
      (Completion.FitsIn place.outOfLoops) := by
  induction bound with
  | zero =>
      rw [loopWhile_zero]
      refine andThen ht fun holds _ => ?_
      cases holds with
      | false => exact give trivial
      | true =>
          refine andThen (countIteration position) fun _ _ => ?_
          intro m m' a here ended
          cases ended
  | succ bound ih =>
      rw [loopWhile_succ]
      refine andThen ht fun holds _ => ?_
      cases holds with
      | false => exact give trivial
      | true =>
          refine andThen (countIteration position) fun _ _ => andThen hb fun c fits => ?_
          exact afterRound fits (andThen hu fun _ _ => ih)

end Rounds

theorem inRound {begin : Exec W Unit} {body : Exec W Completion} {Q : Completion → Prop}
    (position : Position)
    (hb : Within CallFrame.Grows place begin fun _ => True)
    (h : Within CallFrame.Grows place body Q) :
    Within CallFrame.SameNames place (Exec.inRound position begin body) Q := by
  refine andThen (countIteration position) fun _ _ => ?_
  exact inBlock (andThen hb fun _ _ => h)

end Within

/-- Expressions, with the stores they may make, leave every frame with the names it had. -/
def steadiness (W : Type) : StoreDiscipline W where
  Stage := Unit
  holds _ x Q := Steady x (Q ())
  good _ _ := True
  sound _ _ := True
  later _ _ := trivial
  give q _ := .give q
  andThen hx hk place := .andThen (hx place) fun a q => hk () a le_rfl q place
  raise fault position _ := .raise fault position
  readHeap _ := .read fun m => m.heap
  consult position _ given place m m' a here ended := by
    rw [consult_apply] at ended
    split at ended
    · next result =>
        cases ended
        exact ⟨.refl _, rfl, given _ _ _ trivial result⟩
    · cases ended
  readName name position _ := .ofSame fun m a m' ended => by
    rw [readName_apply] at ended
    split at ended
    · cases ended
      exact ⟨rfl, rfl⟩
    · cases ended
  newList _ _ := .ofSame fun _ _ _ ended => by
    cases ended
    exact ⟨rfl, rfl⟩
  newDict _ _ _ := .ofSame fun _ _ _ ended => by
    cases ended
    exact ⟨rfl, rfl⟩
  plain _ := trivial
  items _ _ _ _ := trivial
  entries _ _ _ _ := trivial
  assign name position _ _ :=
    .rename (fun m => assign_apply name _ position m) fun _ _ => Scopes.through_assign
  rewrite position _ _ _ := .ofSame fun m a m' ended => by
    rw [rewrite_apply] at ended
    split at ended
    · cases ended
      exact ⟨rfl, rfl⟩
    · cases ended
  log output _ := .log output

section Calls

variable {S : Type} {pass : Value → Exec W Value} {exec : S → Exec W Completion}

theorem steady_callHost (name : String) (args : List Value) (position : Position) :
    Steady (W := W) (callHost name args position) fun _ => True := by
  intro place
  refine .ofSame fun m a m' ended => ?_
  obtain ⟨failure, failed⟩ | ⟨f, -, failure, frozen, heap, failed⟩ | ⟨f, json, -, -, -, -, done⟩ :=
    callHost_cases name args position m
  · rw [failed] at ended
    cases ended
  · rw [failed] at ended
    cases ended
  · rw [done] at ended
    cases ended
    exact ⟨rfl, rfl⟩

theorem within_bindParams (passes : ∀ v, Steady (pass v) fun _ => True) (position : Position)
    (params : List String) (args : List Value) :
    Within CallFrame.Grows place (bindParams pass position params args) fun _ => True := by
  induction params generalizing args with
  | nil => exact .give trivial
  | cons param params ih =>
      cases args with
      | nil => exact .give trivial
      | cons arg args =>
          refine .andThen (passes arg place).grows fun v _ => ?_
          exact .andThen (.declare param v false position) fun _ _ => ih args

/-- The statements of a function body keep to the body, and end as they may there. -/
def BodyRuns (exec : S → Exec W Completion) : Prop :=
  ∀ s, Within CallFrame.Grows .body (exec s) (Completion.FitsIn .body)

theorem within_runBody (runs : BodyRuns exec) (body : List S) :
    Within CallFrame.Grows .body (runBody exec body) fun _ => True := by
  induction body with
  | nil => exact .give trivial
  | cons s rest ih =>
      refine .andThen (runs s) fun c _ => ?_
      cases c with
      | returned v => exact .give trivial
      | normal | broke | continued => exact ih

/-- In a function body nothing leaves or continues a loop that is not there, so the body is run as
any statements are: up to the first that returns, or to its end. -/
theorem runBody_ok {all : List S → Exec W Completion} (nil : all [] = pure .normal)
    (cons : ∀ s rest, all (s :: rest) = do
      match ← exec s with
      | .normal => all rest
      | other => pure other)
    (runs : BodyRuns exec) (body : List S) {m m' : Machine W} {v : Value}
    (here : m.place = .body) (ended : runBody exec body m = .ok v m') :
    all body m = .ok (.returned v) m' ∨ all body m = .ok .normal m' ∧ v = .nothing := by
  induction body generalizing m with
  | nil =>
      rw [nil]
      cases ended
      exact Or.inr ⟨rfl, rfl⟩
  | cons s rest ih =>
      rw [cons, bind_apply]
      unfold runBody at ended
      obtain ⟨c, after, ran, behind⟩ := bind_eq_ok.mp ended
      rw [ran]
      obtain ⟨through, depth, fits⟩ := runs s here ran
      cases c with
      | normal => exact ih ((place_eq through depth).trans here) behind
      | broke => exact absurd fits (Nat.lt_irrefl 0)
      | continued => exact absurd fits (Nat.lt_irrefl 0)
      | returned value =>
          cases behind
          exact Or.inl rfl

theorem enter_stages {f : Function S} {args : List Value} {position : Position} {m m' : Machine W}
    {v : Value} (ended : enter pass exec f args position m = .ok v m') :
    ∃ bound after, bindParams pass position f.params args
        { m with scopes := m.scopes.openCall } = .ok () bound ∧
      runBody exec f.body { bound with loopDepth := 0 } = .ok v after ∧
      m' = { after with loopDepth := bound.loopDepth, scopes := after.scopes.closeCall } := by
  obtain ⟨last, ran, rfl⟩ := enter_ok ended
  unfold insideCall at ran
  obtain ⟨_, bound, binds, inside⟩ := bind_eq_ok.mp ran
  change (runBody exec f.body >>= fun value => do
    setLoopDepth bound.loopDepth
    return value) { bound with loopDepth := 0 } = _ at inside
  obtain ⟨value, after, ranBody, restored⟩ := bind_eq_ok.mp inside
  cases restored
  exact ⟨bound, after, binds, ranBody, rfl⟩

variable (passes : ∀ v, Steady (pass v) fun _ => True)
include passes

theorem bound_place {f : Function S} {args : List Value} {position : Position}
    {m bound : Machine W} (binds : bindParams pass position f.params args
      { m with scopes := m.scopes.openCall } = .ok () bound) :
    m.scopes.openCall.Through CallFrame.Grows bound.scopes ∧ bound.loopDepth = m.loopDepth ∧
      { bound with loopDepth := 0 }.place = .body := by
  obtain ⟨through, depth, -⟩ := within_bindParams passes position f.params args rfl binds
  refine ⟨through, depth, ?_⟩
  exact congrArg (Place.mk 0) through.inFunction

theorem steady_enter (runs : BodyRuns exec) (f : Function S) (args : List Value)
    (position : Position) : Steady (enter pass exec f args position) fun _ => True := by
  intro place m m' v here ended
  obtain ⟨bound, after, binds, ran, rfl⟩ := enter_stages ended
  obtain ⟨opened, depth, atBody⟩ := bound_place passes binds
  obtain ⟨grown, -, -⟩ := within_runBody runs f.body atBody ran
  exact ⟨Scopes.through_closeCall (opened.trans grown), depth, trivial⟩

/-- Calls of any depth leave every frame with the names it had, if the statements of a body do what
they may wherever the calls in it do so. -/
theorem steady_callFunction {exec : Caller W → S → Exec W Completion}
    (runs : ∀ call, (steadiness W).Calls call → BodyRuns (exec call))
    (functions : List (Function S)) (room : Nat) :
    (steadiness W).Calls (callFunction functions pass exec room) := by
  have hosts : (steadiness W).Calls callHost := fun _ name args position _ =>
    steady_callHost name args position
  induction room with
  | zero => exact (steadiness W).resolve hosts fun t f _ position _ =>
      (steadiness W).raise (t := t) (.infiniteRecursion f.name) position
  | succ room ih =>
      refine (steadiness W).resolve hosts fun _ f args position _ => ?_
      exact steady_enter passes (runs _ ih) f args position

end Calls
end Exec
end Walkthrough
