import Walkthrough.Proofs.Provenance

/-! Programs that are read are well formed, and what a run does about other programs is never done.
A store that is read writes to a place, and so it is one of a kind that has no other targets. No run
fails because a function is declared in the wrong place, and what a frame tells of a store or of a
change of an element is told by a statement that makes one. -/

namespace Walkthrough

namespace JikiScript

theorem rootName_of_root? {e : Expr} {root : String} (found : e.root? = some root) :
    rootName e = root := by
  fun_induction Expr.root? e with
  | case1 name pos => exact Option.some.inj found
  | case2 object key pos ih => exact ih found
  | case3 => cases found

/-- Functions are declared at the top level only, and what is changed is an element of a variable,
or of an element of one. -/
structure Program.IsWellFormed (program : Program) : Prop where
  functions : ∀ s ∈ program, ∀ t ∈ s.inner, t.function? = none
  roots : ∀ s ∈ Stmt.innerAll program, ∀ object key value pos,
    s = .changeElement object key value pos →
      ∃ root, object.root? = some root ∧ rootName object = root

theorem Stmt.root_of_isSound {object key value : Expr} {pos : Position}
    (sound : (Stmt.changeElement object key value pos).isSound = true) :
    ∃ root, object.root? = some root ∧ rootName object = root := by
  obtain ⟨root, found⟩ := Option.isSome_iff_exists.mp sound
  exact ⟨root, found, rootName_of_root? found⟩

theorem Stmt.Tells.changes {s : Stmt} {told : String} {index value : Snapshot}
    (tells : s.Tells (.changeElement told index value)) :
    ∃ object key value, s = .changeElement object key value s.pos ∧ told = rootName object := by
  cases s with
  | changeElement object key value pos => exact ⟨object, key, value, rfl, tells⟩
  | expression e pos => cases e <;> cases tells
  | _ => cases tells

theorem parse_isWellFormed {source : String} {program : Program}
    (parsed : parse source = .ok program) : program.IsWellFormed := by
  have formed := parse_formed parsed
  refine ⟨fun s member t inside => ((formed s member).inside t inside).2, ?_⟩
  rintro s member object key value pos rfl
  exact Stmt.root_of_isSound (Stmt.fits_innerAll formed _ member).sound

end JikiScript

namespace JavaScript

variable {W : Type}

/-- What a value can be put in: a name, a member or an element. -/
inductive Place where
  | name (name : String) (pos : Position)
  | member (object : Expr) (property : String) (pos : Position)
  | index (object key : Expr) (pos : Position)

namespace Place

def expr : Place → Expr
  | .name known pos => .name known pos
  | .member object property pos => .member object property pos
  | .index object key pos => .index object key pos

def write (call : Caller W) : Place → Value → Exec W String
  | .name known pos, value => do
    Exec.assign known value pos
    return known
  | .member object property pos, value => do
    let owner ← eval call object
    Exec.setHeap (← Exec.orRaise pos (writeProperty (← Exec.heap) owner property value))
    return (object.dottedName?.getD "") ++ "." ++ property
  | .index object key pos, value => do
    let owner ← eval call object
    let k ← eval call key
    Exec.setHeap (← Exec.orRaise pos (writeElement (← Exec.heap) owner k value))
    return (object.dottedName?.getD "") ++ "[" ++ (← Exec.heap).display k ++ "]"

theorem store_expr (call : Caller W) (place : Place) :
    store call place.expr = place.write call := by
  funext value
  cases place with
  | name | member | index =>
      rw [expr, store]
      rfl

theorem exists_of_isAssignable {target : Expr} (assignable : target.isAssignable = true) :
    ∃ place : Place, target = place.expr := by
  cases target with
  | name known pos => exact ⟨.name known pos, rfl⟩
  | member object property pos => exact ⟨.member object property pos, rfl⟩
  | index object key pos => exact ⟨.index object key pos, rfl⟩
  | _ => cases assignable

end Place

inductive Storing where
  | assignment (op : AssignOp) (place : Place) (value : Expr) (pos : Position)
  | update (op : UpdateOp) (before : Bool) (place : Place) (pos : Position)

namespace Storing

def expr : Storing → Expr
  | .assignment op place value pos => .assignment op place.expr value pos
  | .update op before place pos => .update op before place.expr pos

def run (call : Caller W) : Storing → Exec W Stored
  | .assignment op place value pos =>
    assignWith op (eval call value) (eval call place.expr) (place.write call) pos
  | .update op before place pos =>
    updateWith op before (eval call place.expr) (place.write call) pos

theorem exists_of_isSound {e : Expr} (stores : e.stores = true) (sound : e.isSound = true) :
    ∃ storing : Storing, e = storing.expr := by
  cases e with
  | assignment op target value pos =>
      obtain ⟨place, rfl⟩ := Place.exists_of_isAssignable sound
      exact ⟨.assignment op place value pos, rfl⟩
  | update op before target pos =>
      obtain ⟨place, rfl⟩ := Place.exists_of_isAssignable sound
      exact ⟨.update op before place pos, rfl⟩
  | _ => cases stores

theorem eval_expr (call : Caller W) (storing : Storing) :
    eval call storing.expr = do return (← storing.run call).value := by
  cases storing with
  | assignment | update =>
      rw [expr, eval, Place.store_expr]
      rfl

theorem runExpression_expr (call : Caller W) (s : Stmt) (storing : Storing) :
    runExpression call s storing.expr = (storing.run call >>= fun result =>
      s.recordValue result.stored (.assign result.name ·)) := by
  cases storing with
  | assignment | update =>
      rw [expr, runExpression, Place.store_expr]
      rfl

end Storing
theorem Stmt.Tells.stores {s : Stmt} {told : String} {value : Snapshot}
    (tells : s.Tells (.assign told value)) : ∃ e, s = .expression e s.pos ∧ e.stores = true := by
  cases s with
  | expression e pos =>
      refine ⟨e, rfl, ?_⟩
      cases e with
      | assignment | update => rfl
      | _ => cases tells
  | _ => cases tells

/-- Functions are declared at the top level only, constants have values, loops start with a
declaration or an expression, and what is assigned or updated is a place. -/
structure Program.IsWellFormed (program : Program) : Prop where
  functions : ∀ s ∈ program, ∀ t ∈ s.inner, t.function? = none
  constants : ∀ s ∈ Stmt.innerAll program, ∀ name value pos,
    s = .declare .constBinding name value pos → value.isSome = true
  loops : ∀ s ∈ Stmt.innerAll program, ∀ first test update body pos,
    s = .forLoop (some first) test update body pos → first.startsLoop = true
  stores : ∀ s ∈ Stmt.innerAll program, ∀ e ∈ s.own, ∀ node ∈ e.nodes, node.stores = true →
    ∃ storing : Storing, node = storing.expr

theorem parse_isWellFormed {source : String} {program : Program}
    (parsed : parse source = .ok program) : program.IsWellFormed := by
  have formed := parse_formed parsed
  have fits := Stmt.fits_innerAll formed
  refine ⟨fun s member t inside => ((formed s member).inside t inside).2, ?_, ?_, ?_⟩
  · rintro s member name value pos rfl
    exact (fits _ member).sound
  · rintro s member first test update body pos rfl
    exact (fits _ member).sound
  · intro s member e own node inside stores
    exact Storing.exists_of_isSound stores ((fits s member).own e own node inside).sound

end JavaScript

namespace Language

/-- The program has a statement on the line that does what the step tells, if that is a store or a
change of an element. -/
def Backs (language : Language) (source : String) (line : Nat) (step : Step) : Prop :=
  match language, step with
  | .jikiScript, .changeElement told _ _ =>
    ∃ program, JikiScript.parse source = .ok program ∧ ∃ s ∈ JikiScript.Stmt.innerAll program,
      ∃ object key value, s = .changeElement object key value s.pos ∧ s.pos.line = line ∧
        object.root? = some told
  | .javaScript, .assign .. =>
    ∃ program, JavaScript.parse source = .ok program ∧ ∃ s ∈ JavaScript.Stmt.innerAll program,
      ∃ storing : JavaScript.Storing, s = .expression storing.expr s.pos ∧ s.pos.line = line
  | _, _ => True

/-- The program has a node on the line that writes to an element. -/
def WritesElement (language : Language) (source : String) (line : Nat) : Prop :=
  match language with
  | .jikiScript =>
    ∃ program, JikiScript.parse source = .ok program ∧ ∃ s ∈ JikiScript.Stmt.innerAll program,
      s.changesElement = true ∧ s.pos.line = line
  | .javaScript =>
    ∃ program, JavaScript.parse source = .ok program ∧ ∃ s ∈ JavaScript.Stmt.innerAll program,
      ∃ e ∈ s.own, ∃ node ∈ e.nodes, node.isElement = true ∧ node.pos.line = line

/-- The frame shows nothing of what a run does about programs that are not well formed. -/
structure IsRegular (language : Language) (source : String) (frame : Frame) : Prop where
  nested : ∀ name, frame.ending ≠ .failure (.nestedFunction name)
  target : frame.ending = .failure .targetNotModifiable → language.WritesElement source frame.line
  told : ∀ kind value step, frame.ending = .success kind value step →
    language.Backs source frame.line step

variable {W : Type} {language : Language} {source : String}

theorem backs_of_tells {line : Nat} {kind : String} {step : Step}
    (told : language.Tells source line kind step) : language.Backs source line step := by
  cases language with
  | jikiScript =>
      obtain ⟨program, read, s, member, rfl, -, tells⟩ := told
      cases step with
      | changeElement told index value =>
          obtain ⟨object, key, value, same, rfl⟩ := tells.changes
          obtain ⟨root, found, named⟩ :=
            (JikiScript.parse_isWellFormed read).roots s member object key value s.pos same
          exact ⟨program, read, s, member, object, key, value, same, rfl, named ▸ found⟩
      | _ => trivial
  | javaScript =>
      obtain ⟨program, read, s, member, rfl, -, tells⟩ := told
      cases step with
      | assign told value =>
          obtain ⟨e, same, stores⟩ := tells.stores
          have own : e ∈ s.own := by
            rw [same]
            exact List.mem_singleton_self e
          obtain ⟨storing, rfl⟩ := (JavaScript.parse_isWellFormed read).stores s member e own e
            List.mem_cons_self stores
          exact ⟨program, read, s, member, storing, same, rfl⟩
      | _ => trivial

theorem cause_of_mayRaise {failure : Failure} (raised : language.MayRaise source failure) :
    failure.fault.IsCommon ∨
      failure.fault = .targetNotModifiable ∧
        language.WritesElement source failure.position.line := by
  cases language with
  | jikiScript =>
      obtain ⟨program, read, s, member, ⟨place, common | ⟨changes, cause⟩⟩ |
        ⟨e, own, node, inside, place, common⟩⟩ := raised
      · exact Or.inl common
      · exact Or.inr ⟨cause, program, read, s, member, changes, by rw [place]⟩
      · exact Or.inl common
  | javaScript =>
      obtain ⟨program, read, s, member, ⟨place, common⟩ |
        ⟨e, own, node, inside, place, common | ⟨element, cause⟩⟩⟩ := raised
      · exact Or.inl common
      · exact Or.inl common
      · exact Or.inr ⟨cause, program, read, s, member, e, own, node, inside, element, by rw [place]⟩

theorem IsRegular.ofFailure {frame : Frame} {fault : Fault} (ending : frame.ending = .failure fault)
    (cause : fault.IsCommon ∨
      fault = .targetNotModifiable ∧ language.WritesElement source frame.line) :
    language.IsRegular source frame := by
  refine ⟨fun name nested => ?_, fun target => ?_, fun kind value step success => ?_⟩
  · cases ending.symm.trans nested
    obtain common | ⟨other, -⟩ := cause
    · exact common
    · cases other
  · cases ending.symm.trans target
    obtain common | ⟨-, writes⟩ := cause
    · exact common.elim
    · exact writes
  · cases ending.symm.trans success

theorem IsRegular.ofTold {frame : Frame}
    (told : frame.IsTold (language.Tells source) (Text.lineText source)) :
    language.IsRegular source frame := by
  obtain ⟨-, kind, value, step, ending, tells⟩ := told
  refine ⟨fun name nested => ?_, fun target => ?_, fun kind' value' step' success => ?_⟩
  · cases ending.symm.trans nested
  · cases ending.symm.trans target
  · cases ending.symm.trans success
    exact backs_of_tells tells

/-- Every program that is read is well formed; so a store is that of a place, both as an expression
and as a statement, and no frame of a run shows what is done for other programs. -/
theorem parsed_programs_are_well_formed :
    (∀ source program, JikiScript.parse source = .ok program → program.IsWellFormed) ∧
    (∀ source program, JavaScript.parse source = .ok program → program.IsWellFormed) ∧
    (∀ (call : Caller W) (s : JavaScript.Stmt) (storing : JavaScript.Storing),
      JavaScript.eval call storing.expr = (do return (← storing.run call).value) ∧
      JavaScript.runExpression call s storing.expr = storing.run call >>= fun result =>
        s.recordValue result.stored (.assign result.name ·)) ∧
    ∀ (language : Language) (source : String) (setup : Setup W)
      (call : Option (String × List Json)),
      ∀ frame ∈ (outcome language source setup call).frames, language.IsRegular source frame := by
  refine ⟨fun _ _ => JikiScript.parse_isWellFormed, fun _ _ => JavaScript.parse_isWellFormed,
    fun call s storing => ⟨storing.eval_expr call, storing.runExpression_expr call s⟩, ?_⟩
  intro language source setup call frame member
  obtain told | raised | ⟨-, -, entry⟩ :=
    frames_have_origins language source setup call frame member
  · exact .ofTold told
  · obtain ⟨-, failure, ending, line, raised⟩ := raised
    exact .ofFailure ending (line ▸ cause_of_mayRaise raised)
  · obtain ⟨-, failure, ending, -, -, common⟩ := entry
    exact .ofFailure ending (Or.inl common)

def changing : String :=
  "function grow with xs do\n  change xs[1][1] to 2\n  return xs\nend\nset xs to [[1, 1]]\n" ++
  "set ys to grow(xs)"

def adding : String :=
  "function add(p) \x7b\n  p.n = 1;\n  p.all[0]++;\n\x7d\nconst all = \x7b all: [1] \x7d;\n" ++
  "for (let i = 0; i < 2; i++) add(all);\nadd(2);"

theorem changing_and_adding_are_well_formed :
    (∃ program, JikiScript.parse changing = .ok program ∧ program.IsWellFormed) ∧
    (∃ program, JavaScript.parse adding = .ok program ∧ program.IsWellFormed) ∧
    let setup : Setup Unit := { world := () }
    ∃ frame ∈ (outcome .javaScript adding setup none).frames, frame.line = 2 ∧
      frame.fault? = some .targetNotModifiable ∧ Language.javaScript.IsRegular adding frame := by
  have jikiScript : (JikiScript.parse changing).isOk = true := by decide +kernel
  have javaScript : (JavaScript.parse adding).isOk = true := by decide +kernel
  have shown : (outcome .javaScript adding { world := () } none).frames.any (fun frame =>
      frame.line == 2 && frame.fault? == some .targetNotModifiable) = true := by decide +kernel
  obtain ⟨jikiScriptFormed, javaScriptFormed, -, regular⟩ :=
    parsed_programs_are_well_formed (W := Unit)
  refine ⟨?_, ?_, ?_⟩
  · cases parsed : JikiScript.parse changing with
    | error mistake =>
        rw [parsed] at jikiScript
        cases jikiScript
    | ok program => exact ⟨program, rfl, jikiScriptFormed changing program parsed⟩
  · cases parsed : JavaScript.parse adding with
    | error mistake =>
        rw [parsed] at javaScript
        cases javaScript
    | ok program => exact ⟨program, rfl, javaScriptFormed adding program parsed⟩
  · obtain ⟨frame, member, here⟩ := List.any_eq_true.mp shown
    rw [Bool.and_eq_true, beq_iff_eq, beq_iff_eq] at here
    exact ⟨frame, member, here.1, here.2, regular .javaScript adding _ none frame member⟩

end Language
end Walkthrough
