import Walkthrough.Proofs.RunShape

/-! Rounds of loops. The bodies of all loops are counted together, each before it is entered, and
most loops have a frame for each round: before the count where a test is made, behind it where the
loop goes through something. So the frames tell of no more rounds than bodies were entered, but for
one whose body was refused. -/

namespace Walkthrough

def Frame.opensRound (frame : Frame) : Bool :=
  frame.step.opensRound

namespace Machine

variable {W : Type}

def bodies (m : Machine W) : Nat :=
  min m.iterations.toNat m.features.maxIterations.toNat

def rounds (m : Machine W) : Nat :=
  m.frames.toList.countP Frame.opensRound

/-- How many rounds the frames are ahead of the bodies. -/
def ahead (m : Machine W) : Int :=
  m.rounds - m.bodies

theorem ahead_addFrame (m : Machine W) (line : Nat) (kind : String) (value : Option Snapshot)
    (step : Walkthrough.Step) : (m.addFrame line (.success kind value step)).ahead =
      m.ahead + step.opensRound.toNat := by
  obtain ⟨frame, frames, told⟩ : ∃ frame : Frame,
      (m.addFrame line (.success kind value step)).frames = m.frames.push frame ∧
      frame.opensRound = step.opensRound := ⟨_, rfl, rfl⟩
  have rounds : (m.addFrame line (.success kind value step)).rounds =
      m.rounds + step.opensRound.toNat := by
    rw [Machine.rounds, frames, Array.toList_push, List.countP_append, List.countP_singleton, told]
    cases step.opensRound <;> rfl
  have bodies : (m.addFrame line (.success kind value step)).bodies = m.bodies := rfl
  rw [ahead, ahead, rounds, bodies]
  omega

theorem bodies_counted {m : Machine W}
    (room : ¬ m.features.maxIterations.toNat < m.iterations.toNat + 1) :
    m.countBody.bodies = m.bodies + 1 := by
  have limit := m.features.maxIterations.toNat_lt
  have fits : m.iterations.toNat + 1 < 2 ^ 64 := by omega
  have counted := m.iterations_countBody fits
  change min m.countBody.iterations.toNat m.features.maxIterations.toNat =
    min m.iterations.toNat m.features.maxIterations.toNat + 1
  omega

theorem bodies_refused {m : Machine W}
    (many : m.features.maxIterations.toNat < m.iterations.toNat + 1) :
    m.countBody.bodies = m.bodies := by
  have more := m.iterations_le_countBody
  change min m.countBody.iterations.toNat m.features.maxIterations.toNat =
    min m.iterations.toNat m.features.maxIterations.toNat
  omega

/-- No more bodies were counted than may be entered, and the count had room for them. -/
structure Counted (m : Machine W) : Prop where
  few : m.iterations.toNat ≤ m.features.maxIterations.toNat
  whole : m.overflowed = false

theorem Counted.same {m m' : Machine W} (h : m.Counted) (features : m'.features = m.features)
    (iterations : m'.iterations = m.iterations) (overflowed : m'.overflowed = m.overflowed) :
    m'.Counted := by
  constructor
  · rw [features, iterations]
    exact h.few
  · exact overflowed.trans h.whole

theorem Step.counted {m m' : Machine W} (step : m.Step m') (h : m.Counted) :
    m'.Counted ∧ m'.features = m.features := by
  cases step with
  | counts few =>
      rw [UInt64.lt_iff_toNat_lt] at few
      have limit := m.features.maxIterations.toNat_lt
      have room : m.iterations.toNat + 1 < 2 ^ 64 := by omega
      refine ⟨⟨?_, ?_⟩, rfl⟩
      · rw [iterations_countBody room]
        exact few
      · rw [countBody_of_room room]
        exact h.whole
  | _ => exact ⟨h.same rfl rfl rfl, rfl⟩

theorem Steps.counted {m m' : Machine W} (steps : m.Steps m') (h : m.Counted) :
    m'.Counted ∧ m'.features = m.features := by
  induction steps with
  | refl => exact ⟨h, rfl⟩
  | tail _ step ih =>
      obtain ⟨counted, features⟩ := step.counted ih.1
      exact ⟨counted, features.trans ih.2⟩

/-- A body that is refused is counted, too, for which the largest limit leaves no room. -/
theorem Halt.whole {m m' : Machine W} (halt : m.Halt m')
    (limit : m.features.maxIterations.toNat + 1 < 2 ^ 64) (h : m.Counted) :
    m'.overflowed = false := by
  cases halt with
  | counts =>
      have few := h.few
      have room : m.iterations.toNat + 1 < 2 ^ 64 := by omega
      rw [countBody_of_room room]
      exact h.whole
  | _ => exact h.whole

/-- The switches, the frames, the count and the names are as they were. -/
structure Still (m m' : Machine W) : Prop where
  features : m'.features = m.features
  frames : m'.frames = m.frames
  iterations : m'.iterations = m.iterations
  scopes : m'.scopes = m.scopes

theorem ahead_of_same {m m' : Machine W} (features : m'.features = m.features)
    (frames : m'.frames = m.frames) (iterations : m'.iterations = m.iterations) :
    m'.ahead = m.ahead := by
  unfold ahead rounds bodies
  rw [features, frames, iterations]

end Machine

namespace Exec

variable {W α β : Type}

def final : EStateM.Result Failure (Machine W) α → Machine W
  | .ok _ m => m
  | .error _ m => m

section Quiet

/-- However the evaluation ends, it has left everything alone but cells, host and loops. -/
def Quiet (x : Exec W α) : Prop :=
  ∀ m : Machine W, m.Still (final (x m))

theorem final_consult (position : Position) (g : Features → Heap → Except Fault α)
    (m : Machine W) : final (consult position g m) = m := by
  rw [consult_apply]
  cases g m.features m.heap <;> rfl

theorem quiet_consult (position : Position) (g : Features → Heap → Except Fault α) :
    Quiet (W := W) (consult position g) := by
  intro m
  rw [final_consult]
  exact ⟨rfl, rfl, rfl, rfl⟩

theorem of_consult_ok {position : Position} {g : Features → Heap → Except Fault α}
    {m m' : Machine W} {a : α} (ended : consult position g m = .ok a m') :
    g m.features m.heap = .ok a := by
  rw [consult_apply] at ended
  split at ended
  · next result =>
      cases ended
      exact result
  · cases ended

theorem final_readName (name : String) (position : Position) (m : Machine W) :
    final (readName name position m) = m := by
  rw [readName_apply]
  cases m.scopes.get name <;> rfl

theorem quiet_readName (name : String) (position : Position) :
    Quiet (W := W) (readName name position) := by
  intro m
  rw [final_readName]
  exact ⟨rfl, rfl, rfl, rfl⟩

theorem quiet_rewrite (position : Position) (g : Heap → Except Fault Heap) :
    Quiet (W := W) (rewrite position g) := by
  intro m
  rw [rewrite_apply]
  cases g m.heap <;> exact ⟨rfl, rfl, rfl, rfl⟩

theorem final_record (position : Position) (kind : String) (value : Option Snapshot) (step : Step)
    (m : Machine W) : final (record position kind value step m) =
      m.addFrame position.line (.success kind value step) := by
  rw [record_apply]
  split <;> rfl

theorem final_callHost (name : String) (args : List Value) (position : Position) (m : Machine W) :
    final (callHost name args position m) = m ∨ ∃ f ∈ m.functions,
      final (callHost name args position m) = m.afterCall f (args.map m.heap.freeze) ∨
      ∃ json, (f.run (args.map m.heap.freeze) m.host).1 = .ok json ∧
        final (callHost name args position m) =
          { m.afterCall f (args.map m.heap.freeze) with
            heap := (m.heap.thaw (Snapshot.ofJson json)).2 } := by
  obtain ⟨failure, refused⟩ | ⟨f, found, accepted, ⟨failure, failed⟩ | ⟨json, ran⟩⟩ :=
    callHost_entered name args position m
  · left
    rw [refused]
    rfl
  · right
    refine ⟨f, mem_of_hostFunction? found, Or.inl ?_⟩
    rw [failed]
    rfl
  · right
    refine ⟨f, mem_of_hostFunction? found, Or.inr ⟨json, ran, ?_⟩⟩
    rw [callHost_done position found accepted ran]
    dsimp only
    split <;> rfl

theorem quiet_callHost (name : String) (args : List Value) (position : Position) :
    Quiet (W := W) (callHost name args position) := by
  intro m
  obtain same | ⟨f, -, failed | ⟨json, -, given⟩⟩ := final_callHost name args position m
  · rw [same]
    exact ⟨rfl, rfl, rfl, rfl⟩
  · rw [failed]
    exact ⟨rfl, rfl, rfl, rfl⟩
  · rw [given]
    exact ⟨rfl, rfl, rfl, rfl⟩

end Quiet

/-- What a loop does with a test that holds or not: it counts a round, runs its body, and begins
again with `next` unless the body left the loop. -/
def afterTest (position : Position) (body next : Exec W Completion) :
    Bool → Exec W Completion
  | true => do
    countIteration position
    match ← body with
    | .broke => pure .normal
    | .returned value => pure (.returned value)
    | .normal => next
    | .continued => next
  | false => pure .normal

theorem loopWhile_zero (position : Position) (test : Exec W Bool) (body : Exec W Completion)
    (update : Exec W Unit) :
    loopWhile position test body update 0 = test >>= fun
      | true => do
        countIteration position
        raise (.tooManyIterations (← features).maxIterations.toNat) position
      | false => pure .normal := by
  unfold loopWhile
  congr 1
  funext holds
  cases holds <;> rfl

theorem loopWhile_succ (position : Position) (test : Exec W Bool) (body : Exec W Completion)
    (update : Exec W Unit) (bound : Nat) :
    loopWhile position test body update (bound + 1) = test >>= afterTest position body
      (update >>= fun _ => loopWhile position test body update bound) := by
  rw [loopWhile]
  congr 1
  funext holds
  cases holds <;> rfl

/-- The evaluation takes the frames ahead of the bodies by no more than `gain` says of the value it
gives, and by no more than `late` if it fails. -/
def Gains (late : Int) (gain : α → Int) (x : Exec W α) (Q : α → Prop) : Prop :=
  ∀ m, match x m with
    | .ok a m' => m'.ahead ≤ m.ahead + gain a ∧ Q a
    | .error _ m' => m'.ahead ≤ m.ahead + late

namespace Gains

variable {late : Int} {gain : α → Int} {x : Exec W α} {Q : α → Prop} {R : β → Prop}

theorem give {a : α} (none : 0 ≤ gain a) (given : Q a) : Gains (W := W) late gain (pure a) Q := by
  intro m
  exact ⟨by omega, given⟩

theorem mono {late' : Int} {gain' : α → Int} {Q' : α → Prop} (h : Gains late gain x Q)
    (later : late ≤ late') (more : ∀ a, gain a ≤ gain' a) (given : ∀ a, Q a → Q' a) :
    Gains late' gain' x Q' := by
  intro m
  have gained := h m
  cases ended : x m with
  | ok a m' =>
      rw [ended] at gained
      have le := more a
      exact ⟨by omega, given a gained.2⟩
  | error failure m' =>
      rw [ended] at gained
      dsimp only at gained ⊢
      omega

theorem andThen {first : α → Int} {gain : β → Int} {k : α → Exec W β} (hx : Gains late first x Q)
    (hk : ∀ a, Q a → Gains (late - first a) (fun b => gain b - first a) (k a) R) :
    Gains late gain (x >>= k) R := by
  intro m
  have before := hx m
  rw [bind_apply]
  cases ran : x m with
  | error failure m' =>
      rw [ran] at before
      exact before
  | ok a m' =>
      rw [ran] at before
      have behind := hk a before.2 m'
      dsimp only
      cases ended : k a m' with
      | error failure m'' =>
          rw [ended] at behind
          dsimp only at behind ⊢
          omega
      | ok b m'' =>
          rw [ended] at behind
          obtain ⟨gained, given⟩ := behind
          dsimp only at gained
          exact ⟨by omega, given⟩

theorem ahead_final (h : Gains 1 (fun _ => 0) x Q) (m : Machine W) :
    (final (x m)).ahead ≤ m.ahead + 1 := by
  have gained := h m
  cases ended : x m with
  | ok a m' =>
      rw [ended] at gained
      exact gained.1.trans (by dsimp only; omega)
  | error failure m' =>
      rw [ended] at gained
      exact gained

theorem ofSame (same : ∀ m, (final (x m)).features = m.features ∧
      (final (x m)).frames = m.frames ∧ (final (x m)).iterations = m.iterations)
    (given : ∀ m a m', x m = .ok a m' → Q a) : Gains 1 (fun _ => 0) x Q := by
  intro m
  obtain ⟨features, frames, iterations⟩ := same m
  have still := Machine.ahead_of_same features frames iterations
  cases ended : x m with
  | ok a m' =>
      rw [ended, final] at still
      exact ⟨by dsimp only; omega, given m a m' ended⟩
  | error failure m' =>
      rw [ended, final] at still
      dsimp only
      omega

theorem ofQuiet (quiet : Quiet x) (given : ∀ m a m', x m = .ok a m' → Q a) :
    Gains 1 (fun _ => 0) x Q :=
  ofSame (fun m => ⟨(quiet m).features, (quiet m).frames, (quiet m).iterations⟩) given

theorem rename {x : Exec W Unit} {g : Scopes → Except Fault Scopes} {position : Position}
    (h : ∀ m, x m = match g m.scopes with
      | .ok scopes => .ok () { m with scopes }
      | .error fault => .error ⟨fault, position⟩ m) : Gains 1 (fun _ => 0) x fun _ => True := by
  refine ofSame (fun m => ?_) fun _ _ _ _ => trivial
  rw [h m]
  cases g m.scopes <;> exact ⟨rfl, rfl, rfl⟩

theorem record (position : Position) (kind : String) (value : Option Snapshot) (step : Step) :
    Gains (W := W) 1 (fun _ => step.opensRound.toNat) (record position kind value step)
      fun _ => True := by
  intro m
  have added := m.ahead_addFrame position.line kind value step
  rw [record_apply]
  by_cases late : m.features.maxTime < m.host.time + m.features.timePerFrame
  · rw [if_pos late]
    have one := Bool.toNat_le step.opensRound
    dsimp only
    omega
  · rw [if_neg late]
    exact ⟨added.le, trivial⟩

theorem countIteration (position : Position) :
    Gains (W := W) 0 (fun _ => -1) (countIteration position) fun _ => True := by
  intro m
  have frames : m.countBody.rounds = m.rounds := rfl
  rw [countIteration_apply]
  by_cases many : m.features.maxIterations.toNat < m.iterations.toNat + 1
  · rw [if_pos many]
    have refused := Machine.bodies_refused many
    dsimp only [Machine.ahead]
    omega
  · rw [if_neg many]
    have counted := Machine.bodies_counted many
    refine ⟨?_, trivial⟩
    dsimp only [Machine.ahead]
    omega

theorem openedBlock {begin : Exec W Unit} {body : Exec W Completion} {Q : Completion → Prop}
    (hb : Gains 1 (fun _ => 1) begin fun _ => True) (h : Gains 1 (fun _ => 0) body Q) :
    Gains 2 (fun _ => 1) (inBlock (begin >>= fun _ => body)) Q := by
  have opens : Gains (W := W) 2 (fun _ => 0) openBlock fun _ => True :=
    (ofSame (fun _ => ⟨rfl, rfl, rfl⟩) fun _ _ _ _ => trivial).mono (by omega) (fun _ => le_rfl)
      fun _ => id
  have closes : Gains (W := W) 1 (fun _ => 0) closeBlock fun _ => True :=
    ofSame (fun _ => ⟨rfl, rfl, rfl⟩) fun _ _ _ _ => trivial
  -- the frame of the round goes one ahead; the count in front of the block makes up for it
  have inside : Gains 2 (fun _ => 1) (begin >>= fun _ => body) Q :=
    (hb.mono (by omega) (fun _ => le_rfl) fun _ => id).andThen fun _ _ => h
  refine opens.andThen fun _ _ => inside.andThen fun c given => ?_
  exact closes.andThen fun _ _ => .give le_rfl given

theorem inRound {begin : Exec W Unit} {body : Exec W Completion} {Q : Completion → Prop}
    (position : Position) (hb : Gains 1 (fun _ => 1) begin fun _ => True)
    (h : Gains 1 (fun _ => 0) body Q) :
    Gains 1 (fun _ => 0) (inRound position begin body) Q :=
  ((countIteration position).mono (by omega) (fun _ => le_rfl) fun _ => id).andThen
    fun _ _ => openedBlock hb h

section Loops

variable {body : Exec W Completion} (position : Position)
  (hb : Gains 1 (fun _ => 0) body fun _ => True)
include hb

theorem afterTest {next : Exec W Completion} (hn : Gains 1 (fun _ => 0) next fun _ => True)
    (holds : Bool) :
    Gains (1 - holds.toNat) (fun _ => 0 - holds.toNat) (afterTest position body next holds)
      fun _ => True := by
  cases holds with
  | false => exact give le_rfl trivial
  | true =>
      -- the count catches up with the frame of the test
      refine (countIteration position).andThen fun _ _ => hb.andThen fun c _ => ?_
      cases c with
      | normal => exact hn
      | continued => exact hn
      | broke => exact give le_rfl trivial
      | returned v => exact give le_rfl trivial

theorem loopWhile {test : Exec W Bool} {update : Exec W Unit}
    (ht : Gains 1 (fun holds => holds.toNat) test fun _ => True)
    (hu : Gains 1 (fun _ => 0) update fun _ => True) (bound : Nat) :
    Gains 1 (fun _ => 0) (loopWhile position test body update bound) fun _ => True := by
  induction bound with
  | zero =>
      rw [loopWhile_zero]
      refine ht.andThen fun holds _ => ?_
      cases holds with
      | false => exact give le_rfl trivial
      | true =>
          refine (countIteration position).andThen fun _ _ => ?_
          exact ofSame (fun _ => ⟨rfl, rfl, rfl⟩) fun _ _ _ _ => trivial
  | succ bound ih =>
      rw [loopWhile_succ]
      exact ht.andThen fun holds _ => afterTest position hb (hu.andThen fun _ _ => ih) holds

end Loops

end Gains

def countingExpressions (W : Type) : Discipline W where
  Stage := Unit
  holds _ x Q := Gains 1 (fun _ => 0) x (Q ())
  good _ _ := True
  sound _ _ := True
  later _ := id
  give := .give le_rfl
  andThen hx hk := .andThen hx fun a => hk () a le_rfl
  raise _ _ := .ofSame (fun _ => ⟨rfl, rfl, rfl⟩) fun _ _ _ ended => by cases ended
  readHeap := .ofSame (fun _ => ⟨rfl, rfl, rfl⟩) fun _ _ _ _ => trivial
  consult position _ given :=
    .ofQuiet (quiet_consult position _) fun _ _ _ ended => given _ _ _ trivial (of_consult_ok ended)
  readName name position := .ofQuiet (quiet_readName name position) fun _ _ _ _ => trivial
  newList _ := .ofSame (fun _ => ⟨rfl, rfl, rfl⟩) fun _ _ _ _ => trivial
  newDict _ _ := .ofSame (fun _ => ⟨rfl, rfl, rfl⟩) fun _ _ _ _ => trivial
  plain _ := trivial
  items _ _ _ _ := trivial
  entries _ _ _ _ := trivial

theorem Gains.ofOpens {t : (countingExpressions W).Stage} {x : Exec W α} {opened : α → Bool}
    (h : (countingExpressions W).Opens t x opened) :
    Gains 1 (fun a => (opened a).toNat) x fun _ => True := by
  induction h with
  | nothing held => exact held.mono le_rfl (fun _ => Int.natCast_nonneg _) fun _ => id
  | @records _ opened step position kind value told _ =>
      refine (Gains.record position kind value step).mono le_rfl (fun _ => ?_) fun _ => id
      cases opens : step.opensRound with
      | false => exact Int.natCast_nonneg _
      | true => rw [told opens]
  | andThen held _ ih =>
      refine held.andThen fun a given => ?_
      exact (ih () a le_rfl given).mono le_rfl (fun _ => (Int.sub_zero _).ge) fun _ => id
  | gives _ ih => exact ih.andThen fun _ _ => .give (Int.sub_self _).ge trivial

def counting (W : Type) : CallDiscipline W where
  toDiscipline := countingExpressions W
  declare {_ v} name constant position _ :=
    Gains.rename (g := (·.declare name v constant)) (declare_apply name v constant position)
  assign {_ v} name position _ :=
    Gains.rename (g := (·.assign name v)) (assign_apply name v position)
  rewrite {_ g} position _ _ := Gains.ofQuiet (quiet_rewrite position g) fun _ _ _ _ => trivial
  openBlock := Gains.ofSame (x := openBlock) (fun _ => ⟨rfl, rfl, rfl⟩) fun _ _ _ _ => trivial
  closeBlock := Gains.ofSame (x := closeBlock) (fun _ => ⟨rfl, rfl, rfl⟩) fun _ _ _ _ => trivial
  inFunction := Gains.ofSame (x := inFunction) (fun _ => ⟨rfl, rfl, rfl⟩) fun _ _ _ _ => trivial
  loopDepth := Gains.ofSame (x := loopDepth) (fun _ => ⟨rfl, rfl, rfl⟩) fun _ _ _ _ => trivial
  setLoopDepth depth :=
    Gains.ofSame (x := setLoopDepth depth) (fun _ => ⟨rfl, rfl, rfl⟩) fun _ _ _ _ => trivial
  log output := Gains.ofSame (x := log output) (fun _ => ⟨rfl, rfl, rfl⟩) fun _ _ _ _ => trivial
  record {_ step} position kind value quiet _ := by
    have gained := Gains.record (W := W) position kind value step
    rw [quiet] at gained
    exact gained
  round position hb h := Gains.inRound position (Gains.ofOpens (hb () le_rfl)) (h ())
  loopWhile position ht hb hu := by
    have bound : Gains (W := W) 1 (fun _ => 0) iterationsLeft fun _ => True :=
      .ofSame (fun _ => ⟨rfl, rfl, rfl⟩) fun _ _ _ _ => trivial
    have body := (hb ()).mono le_rfl (fun _ => le_rfl) fun _ _ => trivial
    refine bound.andThen fun n _ => ?_
    have loop := Gains.loopWhile position body (.ofOpens (ht ())) (hu ()) n
    refine loop.mono le_rfl (fun _ => le_rfl) fun c _ => ?_
    cases c <;> trivial
  openCall := Gains.ofSame (x := openCall) (fun _ => ⟨rfl, rfl, rfl⟩) fun _ _ _ _ => trivial
  closeCall := Gains.ofSame (x := closeCall) (fun _ => ⟨rfl, rfl, rfl⟩) fun _ _ _ _ => trivial
  readFunctions h _ := fun m => h m m
  callHost name args position :=
    Gains.ofQuiet (quiet_callHost name args position) fun _ _ _ _ => trivial

end Exec

theorem Outcome.rounds_ofEnding {W : Type}
    (ending : EStateM.Result Failure (Machine W) (Option Snapshot)) :
    (ofEnding ending).frames.countP Frame.opensRound = (Exec.final ending).rounds := by
  cases ending with
  | ok value m => rfl
  | error failure m =>
      obtain ⟨frame, frames, quiet⟩ : ∃ frame : Frame,
          (ofEnding (.error failure m)).frames = m.frames.toList ++ [frame] ∧
          frame.opensRound = false := ⟨_, Array.toList_push, rfl⟩
      rw [frames, List.countP_append, List.countP_singleton, quiet]
      rfl

/-- The frames of a run tell of no more rounds than bodies were entered, and one. -/
theorem Language.rounds_le_bodies {W : Type} {language : Language} {source : String}
    {loaded : Loaded W} (parsed : load W language source = .ok loaded) (setup : Setup W)
    (call : Option (String × List Json)) :
    (outcome language source setup call).frames.countP Frame.opensRound ≤
      (Exec.final (loaded.whole call (start setup source loaded.access))).bodies + 1 := by
  have gains := Loaded.whole_holds (Exec.counting W).toDiscipline (t := ())
    (load_holds (Exec.counting W) parsed) call
  have gained := Exec.Gains.ahead_final gains (start setup source loaded.access)
  have fresh : (start setup source loaded.access).ahead = 0 := by
    have none : (start setup source loaded.access).bodies = 0 := Nat.zero_min _
    rw [Machine.ahead, none]
    rfl
  rw [outcome_eq parsed, Outcome.rounds_ofEnding]
  rw [fresh, Machine.ahead] at gained
  omega

/-- The count of bodies has room for all that a run can count, unless its limit is the largest. -/
theorem Language.whole_of_limit {W : Type} {language : Language} {source : String}
    {loaded : Loaded W} (parsed : load W language source = .ok loaded) (setup : Setup W)
    (limit : setup.features.maxIterations.toNat + 1 < 2 ^ 64)
    (call : Option (String × List Json)) :
    (Exec.final (loaded.whole call (start setup source loaded.access))).overflowed = false := by
  have held := Loaded.whole_holds (Stepwise.discipline W).toDiscipline (t := ())
    (load_holds (Stepwise.discipline W) parsed) call
  have fresh : (start setup source loaded.access).Counted := ⟨Nat.zero_le _, rfl⟩
  have steps := held (start setup source loaded.access)
  cases ended : loaded.whole call (start setup source loaded.access) with
  | ok value m =>
      rw [ended] at steps
      exact (steps.1.counted fresh).1.whole
  | error failure m =>
      rw [ended] at steps
      obtain ⟨last, before, halt⟩ := steps
      obtain ⟨counted, features⟩ := before.counted fresh
      refine halt.whole ?_ counted
      rw [features]
      exact limit

end Walkthrough
