import Walkthrough.Proofs.RunShape

/-! Switches and limits are conservative. Beside the run of a program stands its run under switches
and limits that allow more: as long as the first gives results, the second gives the same ones and
is in the same state but for the switches; where the first fails, the second has recorded the same
frames and may go on. -/

namespace Walkthrough

namespace Scopes

/-- The same names, with another word on shadowing. -/
def withShadowing (s : Scopes) (shadowing : Bool) : Scopes :=
  { s with shadowing }

theorem setCurrent_withShadowing (s : Scopes) (frame : CallFrame) (shadowing : Bool) :
    (s.withShadowing shadowing).setCurrent frame =
      (s.setCurrent frame).withShadowing shadowing := by
  unfold setCurrent withShadowing
  cases s.calls <;> rfl

theorem setCurrent_shadowing (s : Scopes) (frame : CallFrame) :
    (s.setCurrent frame).shadowing = s.shadowing := by
  unfold setCurrent
  split <;> rfl

theorem declare_withShadowing {s s' : Scopes} {name : String} {v : Value} {constant : Bool}
    (declared : s.declare name v constant = .ok s') {shadowing : Bool}
    (allowed : s.shadowing = true → shadowing = true) :
    (s.withShadowing shadowing).declare name v constant = .ok (s'.withShadowing shadowing) ∧
      s'.shadowing = s.shadowing := by
  rw [declare_eq_ok] at declared ⊢
  obtain ⟨new, free, rfl⟩ := declared
  refine ⟨⟨new, fun taken => allowed (free taken), ?_⟩, setCurrent_shadowing s _⟩
  exact (setCurrent_withShadowing s _ shadowing).symm

theorem assign_withShadowing {s s' : Scopes} {name : String} {v : Value}
    (assigned : s.assign name v = .ok s') (shadowing : Bool) :
    (s.withShadowing shadowing).assign name v = .ok (s'.withShadowing shadowing) ∧
      s'.shadowing = s.shadowing := by
  rw [assign_eq_ok] at assigned ⊢
  obtain ⟨binding, found, changeable, rfl⟩ := assigned
  by_cases own : s.current.locals.contains name = true
  · rw [if_pos own]
    refine ⟨⟨binding, found, changeable, ?_⟩, setCurrent_shadowing s _⟩
    exact (setCurrent_withShadowing s _ shadowing).symm.trans (if_pos own).symm
  · rw [if_neg own]
    exact ⟨⟨binding, found, changeable, (if_neg own).symm⟩, rfl⟩

end Scopes

namespace Machine

variable {W : Type}

def relax (m : Machine W) (lax : Features) (shadowing : Bool) : Machine W :=
  { m with features := lax, scopes := m.scopes.withShadowing shadowing }

/-- The second state is the first under switches and limits that allow what its own allow. -/
inductive RelaxedBy (m : Machine W) : Machine W → Prop
  | intro {lax : Features} {shadowing : Bool} : m.features.RelaxedBy lax →
      (m.scopes.shadowing = true → shadowing = true) → RelaxedBy m (m.relax lax shadowing)

theorem relax_addFrame {m : Machine W} {lax : Features} (relaxed : m.features.RelaxedBy lax)
    (shadowing : Bool) (line : Nat) (ending : Ending) :
    (m.relax lax shadowing).addFrame line ending =
      (m.addFrame line ending).relax lax shadowing := by
  unfold addFrame relax
  dsimp only
  rw [relaxed.timePerFrame]
  rfl

def after {α : Type} (m : Machine W) (x : Exec W α) : Machine W :=
  match x m with
  | .ok _ m' => m'
  | .error _ m' => m'

end Machine

theorem Stepwise.frames_kept {W α : Type} {Q : α → Prop} {x : Exec W α} (held : Stepwise x Q)
    (m : Machine W) : m.frames.toList <+: (m.after x).frames.toList := by
  unfold Machine.after
  cases ended : x m with
  | ok a m' =>
      obtain ⟨added, eq, -⟩ := (held.grows_of_ok ended).1.frames
      exact ⟨added, eq.symm⟩
  | error failure m' =>
      obtain ⟨added, eq, -⟩ := (held.grows_of_error ended).frames
      exact ⟨added, eq.symm⟩

/-- The second evaluation, under switches that allow more, does what the first does as long as that
gives results, and has recorded no less where the first fails. -/
structure Simulates {W α : Type} (x y : Exec W α) : Prop where
  ok : ∀ {m n m' : Machine W} {a : α}, m.RelaxedBy n → x m = .ok a m' →
    ∃ n', y n = .ok a n' ∧ m'.RelaxedBy n'
  error : ∀ {m n m' : Machine W} {failure : Failure}, m.RelaxedBy n → x m = .error failure m' →
    m'.frames.toList <+: (n.after y).frames.toList

namespace Simulates

variable {W α β : Type} {Q : α → Prop} {R : β → Prop}

theorem give (a : α) : Simulates (pure a : Exec W α) (pure a) where
  ok relaxed ended := by
    cases ended
    exact ⟨_, rfl, relaxed⟩
  error _ ended := by cases ended

theorem andThen {x y : Exec W α} {k l : α → Exec W β} (hx : Simulates x y) (hy : Stepwise y Q)
    (hk : ∀ a, Q a → Simulates (k a) (l a)) (hl : ∀ a, Q a → Stepwise (l a) R) :
    Simulates (x >>= k) (y >>= l) where
  ok {m n m'' b} relaxed ended := by
    obtain ⟨a, m', first, second⟩ := Exec.bind_eq_ok.mp ended
    obtain ⟨n', same, relaxed'⟩ := hx.ok relaxed first
    have good := (hy.grows_of_ok same).2
    rw [Exec.bind_apply, same]
    exact (hk a good).ok relaxed' second
  error {m n m'' failure} relaxed ended := by
    rw [Exec.bind_apply] at ended
    unfold Machine.after
    rw [Exec.bind_apply]
    cases first : x m with
    | ok a m' =>
        rw [first] at ended
        obtain ⟨n', same, relaxed'⟩ := hx.ok relaxed first
        have good := (hy.grows_of_ok same).2
        rw [same]
        exact (hk a good).error relaxed' ended
    | error e m' =>
        -- the second evaluation may give a result here, and then goes on without the first
        rw [first] at ended
        cases ended
        have sofar := hx.error relaxed first
        unfold Machine.after at sofar
        cases second : y n with
        | error f n' =>
            rw [second] at sofar
            exact sofar
        | ok b n' =>
            rw [second] at sofar
            have good := (hy.grows_of_ok second).2
            exact sofar.trans ((hl b good).frames_kept n')

theorem error_of_frames {x y : Exec W α} (hy : Stepwise y Q)
    (quiet : ∀ {m m' : Machine W} {failure : Failure}, x m = .error failure m' →
      m'.frames = m.frames)
    {m n m' : Machine W} {failure : Failure} (relaxed : m.RelaxedBy n)
    (ended : x m = .error failure m') : m'.frames.toList <+: (n.after y).frames.toList := by
  rw [quiet ended]
  obtain @⟨lax, shadowing, -, -⟩ := relaxed
  exact hy.frames_kept (m.relax lax shadowing)

theorem ofCommuting {x : Exec W α} {value : Machine W → α} {next : Machine W → Machine W}
    (h : ∀ m, x m = .ok (value m) (next m))
    (commutes : ∀ m lax shadowing, x (m.relax lax shadowing) =
      .ok (value m) ((next m).relax lax shadowing))
    (kept : ∀ m, (next m).features = m.features ∧
      (next m).scopes.shadowing = m.scopes.shadowing) : Simulates x x where
  ok {m n m' a} relaxed ended := by
    rw [h m] at ended
    cases ended
    obtain ⟨features, shadowing⟩ := relaxed
    obtain ⟨sameFeatures, sameShadowing⟩ := kept m
    exact ⟨_, commutes m _ _, .intro (sameFeatures ▸ features) (sameShadowing ▸ shadowing)⟩
  error {m n m' failure} _ ended := by
    rw [h m] at ended
    cases ended

/-- An operation that fails in place or goes on with what it was given, and is given the same under
switches that allow more. -/
theorem ofAttempt {γ : Type} {x : Exec W α} (position : Position) (g : Machine W → Except Fault γ)
    (value : γ → α) (next : Machine W → γ → Machine W) (hx : Stepwise x Q)
    (given : ∀ {m c}, g m = .ok c → x m = .ok (value c) (next m c))
    (refused : ∀ {m fault}, g m = .error fault → x m = .error ⟨fault, position⟩ m)
    (accepts : ∀ {m : Machine W} {c : γ} {lax : Features} {shadowing : Bool},
      m.features.RelaxedBy lax → (m.scopes.shadowing = true → shadowing = true) → g m = .ok c →
      ∃ c', g (m.relax lax shadowing) = .ok c' ∧ value c' = value c ∧
        next (m.relax lax shadowing) c' = (next m c).relax lax shadowing ∧
        (next m c).features = m.features ∧ (next m c).scopes.shadowing = m.scopes.shadowing) :
    Simulates x x where
  ok {m n m' a} relaxed ended := by
    obtain @⟨lax, shadowing, features, allowed⟩ := relaxed
    cases result : g m with
    | error fault =>
        rw [refused result] at ended
        cases ended
    | ok c =>
        rw [given result] at ended
        cases ended
        obtain ⟨c', again, sameValue, sameNext, kept, keptShadowing⟩ :=
          accepts features allowed result
        refine ⟨(next m c).relax lax shadowing, ?_, .intro (kept ▸ features) ?_⟩
        · rw [given again, sameValue, sameNext]
        · exact keptShadowing ▸ allowed
  error := by
    refine error_of_frames hx fun {m m' failure} ended => ?_
    cases result : g m with
    | ok c =>
        rw [given result] at ended
        cases ended
    | error fault =>
        rw [refused result] at ended
        cases ended
        rfl

theorem consult {g : Features → Heap → Except Fault α} (position : Position)
    (permissive : Permissive g) (hx : Stepwise (W := W) (Exec.consult position g) Q) :
    Simulates (W := W) (Exec.consult position g) (Exec.consult position g) := by
  refine ofAttempt position (fun m => g m.features m.heap) id (fun m _ => m) hx
    (fun result => ?_) (fun result => ?_) fun {m c lax shadowing} features _ result => ?_
  · rw [Exec.consult_apply, result]
    rfl
  · rw [Exec.consult_apply, result]
  · exact ⟨c, permissive features m.heap c result, rfl, rfl, rfl, rfl⟩

theorem readName (name : String) (position : Position) :
    Simulates (W := W) (Exec.readName name position) (Exec.readName name position) := by
  refine ofAttempt position (fun m => m.scopes.get name) id (fun m _ => m)
    (Stepwise.readName name position) (fun result => ?_) (fun result => ?_)
    fun {m c lax shadowing} _ _ result => ?_
  · rw [Exec.readName_apply, result]
    rfl
  · rw [Exec.readName_apply, result]
  · exact ⟨c, result, rfl, rfl, rfl, rfl⟩

theorem rename {x : Exec W Unit} {position : Position} {g : Scopes → Except Fault Scopes}
    (h : ∀ m, x m = match g m.scopes with
      | .ok scopes => .ok () { m with scopes }
      | .error fault => .error ⟨fault, position⟩ m)
    (accepts : ∀ {s s' : Scopes} {shadowing : Bool}, g s = .ok s' →
      (s.shadowing = true → shadowing = true) →
      g (s.withShadowing shadowing) = .ok (s'.withShadowing shadowing) ∧
        s'.shadowing = s.shadowing) : Simulates x x := by
  refine ofAttempt position (fun m => g m.scopes) (fun _ => ())
    (fun m scopes => { m with scopes }) (Stepwise.rename h) (fun result => ?_)
    (fun result => ?_) fun {m c lax shadowing} _ allowed result => ?_
  · rw [h, result]
  · rw [h, result]
  · obtain ⟨again, kept⟩ := accepts result allowed
    exact ⟨c.withShadowing shadowing, again, rfl, rfl, rfl, kept⟩

theorem rewrite (position : Position) (g : Heap → Except Fault Heap) :
    Simulates (W := W) (Exec.rewrite position g) (Exec.rewrite position g) := by
  refine ofAttempt position (fun m => g m.heap) (fun _ => ())
    (fun m heap => { m with heap }) (Stepwise.rewrite position g) (fun result => ?_)
    (fun result => ?_) fun {m c lax shadowing} _ _ result => ?_
  · rw [Exec.rewrite_apply, result]
  · rw [Exec.rewrite_apply, result]
  · exact ⟨c, result, rfl, rfl, rfl, rfl⟩

theorem countIteration (position : Position) :
    Simulates (W := W) (Exec.countIteration position) (Exec.countIteration position) where
  ok {m n m' a} relaxed ended := by
    obtain @⟨lax, shadowing, features, allowed⟩ := relaxed
    rw [Exec.countIteration_apply] at ended ⊢
    split at ended
    · cases ended
    · next few =>
        cases ended
        have higher := UInt64.le_iff_toNat_le.mp features.maxIterations
        have fewer : ¬ lax.maxIterations.toNat < m.iterations.toNat + 1 :=
          fun many => few (Nat.lt_of_le_of_lt higher many)
        refine ⟨m.countBody.relax lax shadowing, ?_, .intro features allowed⟩
        exact if_neg fewer
  error := by
    refine error_of_frames (Stepwise.countIteration position) fun {m m' failure} ended => ?_
    rw [Exec.countIteration_apply] at ended
    split at ended
    · cases ended
      rfl
    · cases ended

theorem record (position : Position) (kind : String) (value : Option Snapshot) (step : Step) :
    Simulates (W := W) (Exec.record position kind value step)
      (Exec.record position kind value step) where
  ok {m n m' a} relaxed ended := by
    obtain @⟨lax, shadowing, features, allowed⟩ := relaxed
    rw [Exec.record_apply] at ended
    split at ended
    · cases ended
    · next inTime =>
        cases ended
        have stillInTime : ¬ lax.maxTime < m.host.time + lax.timePerFrame := by
          rw [features.timePerFrame]
          exact fun late => inTime (UInt64.lt_of_le_of_lt features.maxTime late)
        refine ⟨_, ?_, .intro features allowed⟩
        rw [← Machine.relax_addFrame features]
        exact (Exec.record_apply ..).trans (if_neg stillInTime)
  error {m n m' failure} relaxed ended := by
    obtain @⟨lax, shadowing, features, allowed⟩ := relaxed
    have recorded : (m.relax lax shadowing).after (Exec.record position kind value step) =
        (m.relax lax shadowing).addFrame position.line (.success kind value step) := by
      unfold Machine.after
      rw [Exec.record_apply]
      by_cases late : (m.relax lax shadowing).features.maxTime <
          (m.relax lax shadowing).host.time + (m.relax lax shadowing).features.timePerFrame
      · rw [if_pos late]
      · rw [if_neg late]
    rw [Exec.record_apply] at ended
    split at ended
    · cases ended
      rw [recorded, Machine.relax_addFrame features]
      exact List.prefix_refl _
    · cases ended

theorem callHost (name : String) (args : List Value) (position : Position) :
    Simulates (W := W) (Exec.callHost name args position) (Exec.callHost name args position) where
  ok {m n m' a} relaxed ended := by
    obtain @⟨lax, shadowing, features, allowed⟩ := relaxed
    obtain ⟨failure, other⟩ | ⟨f, offered, failure, frozen, heap, other⟩ |
      ⟨f, json, found, accepted, ran, inTime, done⟩ := Exec.callHost_cases name args position m
    · cases other.symm.trans ended
    · cases other.symm.trans ended
    · cases done.symm.trans ended
      have again := Exec.callHost_done (m := m.relax lax shadowing) position found accepted ran
      refine ⟨_, again.trans (if_neg fun late => inTime ?_), .intro features allowed⟩
      exact UInt64.lt_of_le_of_lt features.maxTime late
  error := by
    refine error_of_frames (Stepwise.callHost name args position) fun {m m' failure} ended => ?_
    obtain ⟨failure, failed⟩ | ⟨f, offered, failure, frozen, heap, failed⟩ |
      ⟨f, json, found, accepted, ran, inTime, done⟩ := Exec.callHost_cases name args position m
    · cases failed.symm.trans ended
      rfl
    · cases failed.symm.trans ended
      rfl
    · cases done.symm.trans ended

theorem ofFailing {x y : Exec W α} (hy : Stepwise y Q)
    (fails : ∀ m, ∃ failure m', x m = .error failure m' ∧ m'.frames = m.frames) :
    Simulates x y where
  ok {m n m' a} _ ended := by
    obtain ⟨failure, m'', failed, -⟩ := fails m
    cases failed.symm.trans ended
  error := by
    refine error_of_frames hy fun {m m' failure} ended => ?_
    obtain ⟨failure, m'', failed, same⟩ := fails m
    cases failed.symm.trans ended
    exact same

theorem noRound_fails (position : Position) (m : Machine W) :
    ∃ failure m', (do
      Exec.countIteration position
      Exec.raise (.tooManyIterations (← Exec.features).maxIterations.toNat) position :
        Exec W Completion) m = .error failure m' ∧ m'.frames = m.frames := by
  rw [Exec.bind_apply, Exec.countIteration_apply]
  by_cases many : m.features.maxIterations.toNat < m.iterations.toNat + 1
  · rw [if_pos many]
    exact ⟨_, _, rfl, rfl⟩
  · rw [if_neg many]
    exact ⟨_, _, rfl, rfl⟩

theorem afterRound {next later : Exec W Completion} (h : Simulates next later)
    (c : Completion) :
    Simulates
      (match c with
        | .broke => pure .normal
        | .returned value => pure (.returned value)
        | .normal => next
        | .continued => next)
      (match c with
        | .broke => pure .normal
        | .returned value => pure (.returned value)
        | .normal => later
        | .continued => later) := by
  cases c with
  | normal => exact h
  | continued => exact h
  | broke => exact .give _
  | returned value => exact .give _

/-- A loop beside one that may begin more rounds. -/
theorem loopWhile {test : Exec W Bool} {body : Exec W Completion} {update : Exec W Unit}
    (position : Position) (ht : Stepwise test fun _ => True)
    (hb : Stepwise body (Completion.Carries fun _ => True)) (hu : Stepwise update fun _ => True)
    (simTest : Simulates test test) (simBody : Simulates body body)
    (simUpdate : Simulates update update) {bound more : Nat} (le : bound ≤ more) :
    Simulates (Exec.loopWhile position test body update bound)
      (Exec.loopWhile position test body update more) := by
  have steps (n : Nat) := (Stepwise.ofExpressions W).loopWhileBounded (t := ())
    (fun _ => Stepwise.countIteration) position (fun _ => ht) (fun _ => hb) (fun _ => hu) n
  have stepsOn (n : Nat) := Stepwise.andThen hu fun _ _ => steps n
  have last := (Stepwise.ofExpressions W).noRound (t := ()) (fun _ => Stepwise.countIteration)
    position
  have round (n : Nat) := (Stepwise.ofExpressions W).oneRound (t := ())
    (fun _ => Stepwise.countIteration) position (fun _ => hb) fun _ => stepsOn n
  induction bound generalizing more with
  | zero =>
      cases more with
      | zero =>
          refine andThen simTest ht (fun holds _ => ?_) fun holds _ => last holds
          cases holds with
          | false => exact .give _
          | true => exact ofFailing (last true) (noRound_fails position)
      | succ more =>
          refine andThen simTest ht (fun holds _ => ?_) fun holds _ => round more holds
          cases holds with
          | false => exact .give _
          | true => exact ofFailing (round more true) (noRound_fails position)
  | succ bound ih =>
      cases more with
      | zero => exact absurd le (Nat.not_succ_le_zero bound)
      | succ more =>
          refine andThen simTest ht (fun holds _ => ?_) fun holds _ => round more holds
          cases holds with
          | false => exact .give _
          | true =>
              have next := andThen simUpdate hu (fun _ _ => ih (Nat.le_of_succ_le_succ le))
                fun _ _ => steps more
              have after := (Stepwise.ofExpressions W).afterRound (t := ()) (stepsOn more)
              exact andThen (countIteration position) (Stepwise.countIteration position)
                (fun _ _ => andThen simBody hb (fun c _ => afterRound next c) after)
                fun _ _ => Stepwise.andThen hb after

theorem loopWithin {test : Exec W Bool} {body : Exec W Completion} {update : Exec W Unit}
    (position : Position)
    (loops : ∀ {bound more : Nat}, bound ≤ more →
      Simulates (Exec.loopWhile position test body update bound)
        (Exec.loopWhile position test body update more)) :
    Simulates (Exec.iterationsLeft >>= Exec.loopWhile position test body update)
      (Exec.iterationsLeft >>= Exec.loopWhile position test body update) where
  ok {m n m' a} relaxed ended := by
    obtain @⟨lax, shadowing, features, allowed⟩ := relaxed
    have higher := UInt64.le_iff_toNat_le.mp features.maxIterations
    have more := Nat.sub_le_sub_right higher m.iterations.toNat
    exact (loops more).ok (.intro features allowed) ended
  error {m n m' failure} relaxed ended := by
    obtain @⟨lax, shadowing, features, allowed⟩ := relaxed
    have higher := UInt64.le_iff_toNat_le.mp features.maxIterations
    have more := Nat.sub_le_sub_right higher m.iterations.toNat
    exact (loops more).error (.intro features allowed) ended

theorem readFunctions {start : Machine W → Exec W α} (h : ∀ m, Simulates (start m) (start m))
    (only : ∀ m m', m.functions = m'.functions → start m = start m') :
    Simulates (get >>= start) (get >>= start) where
  ok {m n m' a} relaxed ended := by
    have same : start n = start m := by
      cases relaxed
      exact only _ _ rfl
    change ∃ n', start n n = .ok a n' ∧ m'.RelaxedBy n'
    rw [same]
    exact (h m).ok relaxed ended
  error {m n m' failure} relaxed ended := by
    have same : start n = start m := by
      cases relaxed
      exact only _ _ rfl
    have sofar := (h m).error relaxed ended
    rw [← same] at sofar
    exact sofar

end Simulates

namespace Conservative

variable {W α : Type}

/-- An evaluation that goes in steps and does no less under switches that allow more. -/
structure Holds (x : Exec W α) (Q : α → Prop) : Prop where
  steps : Stepwise x Q
  simulates : Simulates x x

theorem Holds.ofCommuting {x : Exec W α} {value : Machine W → α} {next : Machine W → Machine W}
    (steps : ∀ m : Machine W, m.Steps (next m)) (h : ∀ m, x m = .ok (value m) (next m))
    (commutes : ∀ m lax shadowing, x (m.relax lax shadowing) =
      .ok (value m) ((next m).relax lax shadowing))
    (kept : ∀ m, (next m).features = m.features ∧
      (next m).scopes.shadowing = m.scopes.shadowing) : Holds x fun _ => True :=
  ⟨.ofSteps h steps, .ofCommuting h commutes kept⟩

theorem Holds.changeFrame (change : CallFrame → CallFrame) :
    Holds (W := W)
      (modify fun m => { m with scopes := m.scopes.setCurrent (change m.scopes.current) })
      fun _ => True := by
  refine .ofCommuting (fun _ => .single (.names _)) (fun _ => rfl) (fun m lax shadowing => ?_)
    fun m => ⟨rfl, m.scopes.setCurrent_shadowing _⟩
  dsimp only [Machine.relax]
  rw [← Scopes.setCurrent_withShadowing]
  rfl

theorem Holds.record (position : Position) (kind : String) (value : Option Snapshot)
    (step : Step) : Holds (W := W) (Exec.record position kind value step) fun _ => True :=
  ⟨.record position kind value step, .record position kind value step⟩

theorem Holds.countIteration (position : Position) :
    Holds (W := W) (Exec.countIteration position) fun _ => True :=
  ⟨.countIteration position, .countIteration position⟩

theorem Holds.loopWhile {test : Exec W Bool} {body : Exec W Completion} {update : Exec W Unit}
    (position : Position) (ht : Holds test fun _ => True)
    (hb : Holds body (Completion.Carries fun _ => True)) (hu : Holds update fun _ => True) :
    Holds (Exec.iterationsLeft >>= Exec.loopWhile position test body update)
      (Completion.Carries fun _ => True) where
  steps := (Stepwise.discipline W).loopWhile (t := ()) position (fun _ => .nothing ht.steps)
    (fun _ => hb.steps) fun _ => hu.steps
  simulates := .loopWithin position (.loopWhile position ht.steps hb.steps hu.steps ht.simulates
    hb.simulates hu.simulates)

def ofExpressions (W : Type) : Discipline W where
  Stage := Unit
  holds _ x Q := Holds x (Q ())
  good _ _ := True
  sound _ _ := True
  later _ := id
  give h := ⟨.give h, .give _⟩
  andThen hx hk := ⟨.andThen hx.steps fun a ok => (hk () a le_rfl ok).steps,
    .andThen hx.simulates hx.steps (fun a ok => (hk () a le_rfl ok).simulates)
      fun a ok => (hk () a le_rfl ok).steps⟩
  raise _ _ := ⟨fun m => ⟨m, .refl, .still⟩,
    .ofFailing (Q := fun _ => True) (fun m => ⟨m, .refl, .still⟩) fun m => ⟨_, m, rfl, rfl⟩⟩
  readHeap := .ofCommuting (fun _ => .refl) (fun _ => rfl) (fun _ _ _ => rfl)
    fun _ => ⟨rfl, rfl⟩
  consult position permissive h :=
    have steps := Stepwise.consult position fun f heap a => h f heap a trivial
    ⟨steps, .consult position permissive steps⟩
  readName name position := ⟨.readName name position, .readName name position⟩
  newList _ := .ofCommuting (fun _ => .single (.cells _)) (fun _ => rfl) (fun _ _ _ => rfl)
    fun _ => ⟨rfl, rfl⟩
  newDict _ _ := .ofCommuting (fun _ => .single (.cells _)) (fun _ => rfl) (fun _ _ _ => rfl)
    fun _ => ⟨rfl, rfl⟩
  plain _ := trivial
  items _ _ _ _ := trivial
  entries _ _ _ _ := trivial

def discipline (W : Type) : CallDiscipline W where
  toDiscipline := ofExpressions W
  declare {_ v} name constant position ok :=
    ⟨(Stepwise.discipline W).declare (t := ()) name constant position ok,
      .rename (g := (·.declare name v constant)) (Exec.declare_apply name v constant position)
        fun given allowed => Scopes.declare_withShadowing given allowed⟩
  assign {_ v} name position ok :=
    ⟨(Stepwise.discipline W).assign (t := ()) name position ok,
      .rename (g := (·.assign name v)) (Exec.assign_apply name v position)
        fun given _ => Scopes.assign_withShadowing given _⟩
  rewrite position _ _ := ⟨.rewrite position _, .rewrite position _⟩
  openBlock := .changeFrame CallFrame.openBlock
  closeBlock := .changeFrame CallFrame.closeBlock
  inFunction := .ofCommuting (fun _ => .refl) (fun _ => rfl) (fun _ _ _ => rfl)
    fun _ => ⟨rfl, rfl⟩
  loopDepth := .ofCommuting (fun _ => .refl) (fun _ => rfl) (fun _ _ _ => rfl)
    fun _ => ⟨rfl, rfl⟩
  setLoopDepth _ := .ofCommuting (fun _ => .single (.loops _)) (fun _ => rfl) (fun _ _ _ => rfl)
    fun _ => ⟨rfl, rfl⟩
  log _ := .ofCommuting (fun _ => .single (.writes _)) (fun _ => rfl) (fun _ _ _ => rfl)
    fun _ => ⟨rfl, rfl⟩
  record position kind value _ _ := .record position kind value _
  round position hb h :=
    (ofExpressions W).countedRound (fun _ => .changeFrame CallFrame.openBlock)
      (fun _ => .changeFrame CallFrame.closeBlock) (fun _ => .countIteration) position
      (fun t le => (hb t le).holds fun _ position kind value step _ =>
        .record position kind value step) h
  loopWhile position ht hb hu := by
    have test := (ht ()).holds fun _ position kind value step _ => .record position kind value step
    exact .loopWhile position test (hb ()) (hu ())
  openCall := .ofCommuting (fun _ => .single (.names _)) (fun _ => rfl) (fun _ _ _ => rfl)
    fun _ => ⟨rfl, rfl⟩
  closeCall := .ofCommuting (fun _ => .single (.names _)) (fun _ => rfl) (fun _ _ _ => rfl)
    fun _ => ⟨rfl, rfl⟩
  readFunctions h only :=
    ⟨(Stepwise.discipline W).readFunctions (t := ()) (fun m => (h m).steps) only,
      .readFunctions (fun m => (h m).simulates) only⟩
  callHost name args position := ⟨.callHost name args position, .callHost name args position⟩

end Conservative

namespace Outcome

variable {W : Type}

/-- The frames of the steps that succeeded. -/
def successes (o : Outcome W) : List Frame :=
  o.frames.filter fun frame => !frame.isFailure

theorem filter_successes {frames : List Frame} (none : hasFailure frames = false) :
    (frames.filter fun frame => !frame.isFailure) = frames := by
  refine List.filter_eq_self.mpr fun frame member => ?_
  rw [Bool.not_eq_true']
  exact Bool.eq_false_of_not_eq_true (List.any_eq_false.mp none frame member)

theorem successes_ofFailure {m : Machine W} (none : hasFailure m.frames.toList = false)
    (failure : Failure) : (ofMachine (m.addFailure failure) Option.none).successes =
      m.frames.toList := by
  obtain ⟨frame, failed, frames⟩ := m.addFailure_frames failure
  change ((m.addFailure failure).frames.toList.filter _) = _
  rw [frames, List.filter_append, filter_successes none, List.filter_cons_of_neg]
  · exact List.append_nil _
  · rw [failed]
    exact Bool.false_ne_true

theorem after_prefix_ofEnding (x : Exec W (Option Snapshot)) (m : Machine W) :
    (m.after x).frames.toList <+: (ofEnding (x m)).frames := by
  unfold Machine.after
  cases x m with
  | ok value m' => exact List.prefix_refl _
  | error failure m' =>
      obtain ⟨frame, -, frames⟩ := m'.addFailure_frames failure
      exact ⟨[frame], frames.symm⟩

end Outcome

namespace Language

variable {W : Type}

theorem start_relaxedBy {setup : Setup W} {lax : Features} (relaxed : setup.features.RelaxedBy lax)
    (source : String) (access : GlobalAccess) :
    (start setup source access).RelaxedBy (start { setup with features := lax } source access) :=
  .intro relaxed relaxed.shadowing

/-- Under switches and limits that allow more, a program first records every step that succeeded
before, and if nothing failed before, it leaves exactly what it left. -/
theorem relaxing_is_conservative (language : Language) (source : String) (setup : Setup W)
    (lax : Features) (relaxed : setup.features.RelaxedBy lax) :
    let strictly := interpret language source setup
    let laxly := interpret language source { setup with features := lax }
    strictly.successes <+: laxly.frames ∧
      (hasFailure strictly.frames = false →
        laxly.frames = strictly.frames ∧ laxly.console = strictly.console ∧
          laxly.calls = strictly.calls) := by
  intro strictly laxly
  cases parsed : load W language source with
  | error error =>
      have strict : strictly = .ofMistake error setup.world := by
        simp only [strictly, interpret, parsed]
      have loose : laxly = .ofMistake error setup.world := by
        simp only [laxly, interpret, parsed]
      rw [strict, loose]
      exact ⟨List.prefix_refl _, fun _ => ⟨rfl, rfl, rfl⟩⟩
  | ok loaded =>
      have strict : strictly = _ := interpret_eq parsed setup
      have loose : laxly = _ := interpret_eq parsed { setup with features := lax }
      have held : Conservative.Holds (loaded.run >>= fun _ => pure (none : Option Snapshot))
          fun _ => True := by
        have runs := load_holds (Conservative.discipline W) (t := ()) parsed
        exact (Conservative.discipline W).andThen (R := fun _ _ => True) runs fun _ _ _ _ =>
          (Conservative.discipline W).give trivial
      have beside := start_relaxedBy relaxed source loaded.access
      cases ended : (loaded.run >>= fun _ => pure (none : Option Snapshot))
          (start setup source loaded.access) with
      | ok value m =>
          obtain ⟨n, same, relaxed'⟩ := held.simulates.ok beside ended
          have none := Outcome.hasFailure_of_grows rfl (held.steps.grows_of_ok ended).1
          rw [ended] at strict
          rw [same] at loose
          rw [strict, loose]
          obtain ⟨-, -⟩ := relaxed'
          refine ⟨?_, fun _ => ⟨rfl, rfl, rfl⟩⟩
          change m.frames.toList.filter _ <+: m.frames.toList
          exact ⟨[], (List.append_nil _).trans (Outcome.filter_successes none)⟩
      | error failure m =>
          have none := Outcome.hasFailure_of_grows rfl (held.steps.grows_of_error ended)
          have sofar := held.simulates.error beside ended
          rw [ended] at strict
          rw [strict, loose]
          refine ⟨?_, fun quiet => ?_⟩
          · exact (Outcome.successes_ofFailure none failure).symm ▸
              sofar.trans (Outcome.after_prefix_ofEnding _ _)
          · have failed := Outcome.success_of_error m failure
            change (!hasFailure (m.addFailure failure).frames.toList) = false at failed
            rw [show hasFailure (m.addFailure failure).frames.toList = false from quiet] at failed
            cases failed

def textCondition : String :=
  "set word to \"yes\"\nif word do\n  log word\nend"

theorem relaxing_truthiness :
    let setup : Setup Unit := { world := () }
    let lax : Features := { truthiness := true }
    let strictly := interpret .jikiScript textCondition setup
    let laxly := interpret .jikiScript textCondition { setup with features := lax }
    setup.features.RelaxedBy lax ∧ strictly.frames.length = 2 ∧ laxly.frames.length = 3 ∧
      strictly.successes <+: laxly.frames := by
  intro setup lax strictly laxly
  have relaxed : setup.features.RelaxedBy lax :=
    { shadowing := id, coercion := id, truthiness := fun _ => rfl, strictEquality := id,
      timePerFrame := rfl, maxIterations := UInt64.le_refl _, maxTime := UInt64.le_refl _ }
  refine ⟨relaxed, by decide +kernel, by decide +kernel, ?_⟩
  exact (relaxing_is_conservative .jikiScript textCondition setup lax relaxed).1

end Language
end Walkthrough
