import Walkthrough.Proofs.Steps

/-! The shape of every outcome. A source that does not parse leaves its mistake alone; a run leaves
frames of success and, if it failed, one frame of failure behind them. Calling a function after the
run only adds to what the run left. -/

namespace Walkthrough

/-- The function may write to the console, and takes back nothing that was written. -/
def HostFunction.KeepsConsole {W : Type} (f : HostFunction W) : Prop :=
  ∀ args host, host.console.toList <+: (f.run args host).2.console.toList

namespace Machine

variable {W : Type}

/-- What the second state has besides the first: frames of success, and lines on the console as far
as the host functions leave them there. -/
structure Grows (m m' : Machine W) : Prop where
  functions : m'.functions = m.functions
  frames : ∃ added, m'.frames.toList = m.frames.toList ++ added ∧ hasFailure added = false
  console : (∀ f ∈ m.functions, f.KeepsConsole) →
    m.host.console.toList <+: m'.host.console.toList

namespace Grows

theorem refl (m : Machine W) : m.Grows m :=
  ⟨rfl, ⟨[], by simp, rfl⟩, fun _ => List.prefix_refl _⟩

theorem trans {m₁ m₂ m₃ : Machine W} (first : m₁.Grows m₂) (second : m₂.Grows m₃) :
    m₁.Grows m₃ := by
  obtain ⟨before, eq₁, ok₁⟩ := first.frames
  obtain ⟨after, eq₂, ok₂⟩ := second.frames
  refine ⟨second.functions.trans first.functions, ⟨before ++ after, ?_, ?_⟩, fun keeps => ?_⟩
  · rw [eq₂, eq₁, List.append_assoc]
  · rw [hasFailure, List.any_append]
    exact Bool.or_eq_false_iff.mpr ⟨ok₁, ok₂⟩
  · exact (first.console keeps).trans (second.console (first.functions ▸ keeps))

theorem ofSame {m m' : Machine W} (functions : m'.functions = m.functions)
    (frames : m'.frames = m.frames) (host : m'.host = m.host) : m.Grows m' :=
  ⟨functions, ⟨[], by simp [frames], rfl⟩, fun _ => host ▸ List.prefix_refl _⟩

theorem addFrame (m : Machine W) (line : Nat) (kind : String) (value : Option Snapshot)
    (step : Walkthrough.Step) : m.Grows (m.addFrame line (.success kind value step)) := by
  refine ⟨rfl, ⟨[_], Array.toList_push, rfl⟩, fun _ => List.prefix_refl _⟩

theorem afterCall {m : Machine W} {f : HostFunction W} (offered : f ∈ m.functions)
    (args : List Snapshot) (heap : Heap) : m.Grows { m.afterCall f args with heap } :=
  ⟨rfl, ⟨[], by simp [Machine.afterCall], rfl⟩, fun keeps => keeps f offered args m.host⟩

end Grows

theorem Step.grows {m m' : Machine W} (h : m.Step m') : m.Grows m' := by
  cases h with
  | cells heap => exact .ofSame rfl rfl rfl
  | names scopes => exact .ofSame rfl rfl rfl
  | loops depth => exact .ofSame rfl rfl rfl
  | counts _ => exact .ofSame rfl rfl rfl
  | writes output =>
      refine ⟨rfl, ⟨[], by simp, rfl⟩, fun _ => ?_⟩
      exact ⟨[_], Array.toList_push.symm⟩
  | records line kind value step _ => exact .addFrame m line kind value step
  | calls offered _ _ => exact .afterCall offered _ m.heap

theorem Halt.grows {m m' : Machine W} (h : m.Halt m') : m.Grows m' := by
  cases h with
  | still => exact .refl m
  | counts => exact .ofSame rfl rfl rfl
  | records line kind value step => exact .addFrame m line kind value step
  | calls args heap offered => exact .afterCall offered args heap

theorem Steps.grows {m m' : Machine W} (h : m.Steps m') : m.Grows m' := by
  induction h with
  | refl => exact .refl m
  | tail _ step ih => exact ih.trans step.grows

theorem addFailure_frames (m : Machine W) (failure : Failure) :
    ∃ frame, frame.isFailure = true ∧
      (m.addFailure failure).frames.toList = m.frames.toList ++ [frame] :=
  ⟨_, rfl, Array.toList_push⟩

end Machine

namespace Stepwise

variable {W α : Type} {x : Exec W α} {Q : α → Prop} {m m' : Machine W}

theorem grows_of_ok {a : α} (h : Stepwise x Q) (ran : x m = .ok a m') : m.Grows m' ∧ Q a := by
  have steps := h m
  rw [ran] at steps
  exact ⟨steps.1.grows, steps.2⟩

theorem grows_of_error {failure : Failure} (h : Stepwise x Q) (ran : x m = .error failure m') :
    m.Grows m' := by
  have steps := h m
  rw [ran] at steps
  obtain ⟨last, before, halt⟩ := steps
  exact before.grows.trans halt.grows

end Stepwise

namespace Outcome

variable {W : Type}

/-- The outcome says that the source did not parse, and nothing else. -/
structure IsRefused (o : Outcome W) (error : SyntaxError) : Prop where
  error : o.error = some error
  frames : o.frames = []
  console : o.console = []
  calls : o.calls = Table.empty
  success : o.success = false
  value : o.value = none

/-- The outcome is that of a run: frames of success, and behind them one frame of failure exactly
when the run did not succeed. -/
structure IsRun (o : Outcome W) : Prop where
  error : o.error = none
  frames : ∃ successes, hasFailure successes = false ∧
    (o.success = true ∧ o.frames = successes ∨
      o.success = false ∧ ∃ failure, failure.isFailure = true ∧ o.frames = successes ++ [failure])

theorem ofMistake_isRefused (error : SyntaxError) (world : W) :
    (ofMistake error world).IsRefused error :=
  ⟨rfl, rfl, rfl, rfl, rfl, rfl⟩

/-- The outcome of a run by how it ended. -/
def ofEnding : EStateM.Result Failure (Machine W) (Option Snapshot) → Outcome W
  | .ok value m => .ofMachine m value
  | .error failure m => .ofMachine (m.addFailure failure) none

theorem hasFailure_of_grows {m m' : Machine W} (fresh : m.frames = #[]) (grown : m.Grows m') :
    hasFailure m'.frames.toList = false := by
  obtain ⟨added, eq, ok⟩ := grown.frames
  rw [eq, fresh]
  exact ok

theorem success_of_error (m : Machine W) (failure : Failure) :
    (ofMachine (m.addFailure failure) none).success = false := by
  obtain ⟨frame, failed, frames⟩ := m.addFailure_frames failure
  change (!hasFailure (m.addFailure failure).frames.toList) = false
  rw [frames, hasFailure, List.any_append, List.any_cons, failed, Bool.true_or, Bool.or_true,
    Bool.not_true]

section Endings

variable {x : Exec W (Option Snapshot)} {Q : Option Snapshot → Prop} {m : Machine W}
  (held : Stepwise x Q)
include held

theorem ofEnding_extends : m.frames.toList <+: (ofEnding (x m)).frames ∧
    ((∀ f ∈ m.functions, f.KeepsConsole) →
      m.host.console.toList <+: (ofEnding (x m)).console) := by
  cases ended : x m with
  | ok value m' =>
      have grown := (held.grows_of_ok ended).1
      obtain ⟨added, eq, -⟩ := grown.frames
      exact ⟨⟨added, eq.symm⟩, grown.console⟩
  | error failure m' =>
      have grown := held.grows_of_error ended
      obtain ⟨added, eq, -⟩ := grown.frames
      obtain ⟨frame, -, frames⟩ := m'.addFailure_frames failure
      refine ⟨⟨added ++ [frame], ?_⟩, grown.console⟩
      rw [← List.append_assoc, ← eq]
      exact frames.symm

variable (fresh : m.frames = #[])
include fresh

theorem success_of_ok {value : Option Snapshot} {m' : Machine W} (ended : x m = .ok value m') :
    (ofMachine m' value).success = true := by
  change (!hasFailure m'.frames.toList) = true
  rw [hasFailure_of_grows fresh (held.grows_of_ok ended).1, Bool.not_false]

theorem ofEnding_isRun : (ofEnding (x m)).IsRun := by
  cases ended : x m with
  | ok value m' =>
      have none := hasFailure_of_grows fresh (held.grows_of_ok ended).1
      exact ⟨rfl, m'.frames.toList, none, Or.inl ⟨success_of_ok held fresh ended, rfl⟩⟩
  | error failure m' =>
      have none := hasFailure_of_grows fresh (held.grows_of_error ended)
      obtain ⟨frame, failed, frames⟩ := m'.addFailure_frames failure
      exact ⟨rfl, m'.frames.toList, none,
        Or.inr ⟨success_of_error m' failure, frame, failed, frames⟩⟩

/-- A run that gives a value whenever it does not fail gives one exactly when it succeeds. -/
theorem ofEnding_value (gives : ∀ v, Q v → v.isSome = true) :
    (ofEnding (x m)).value.isSome = (ofEnding (x m)).success := by
  cases ended : x m with
  | ok value m' =>
      have given := gives value (held.grows_of_ok ended).2
      exact given.trans (success_of_ok held fresh ended).symm
  | error failure m' => exact (success_of_error m' failure).symm

end Endings

end Outcome

namespace Language

variable {W : Type}

abbrev start (setup : Setup W) (source : String) (access : GlobalAccess) : Machine W :=
  Machine.initial setup.features source access setup.functions setup.seed setup.world

def callAfter (call : Caller W) (function : String) (args : List Json) :
    Exec W (Option Snapshot) := do
  let value ← call function (← thawAll args) {}
  return some (← Exec.freeze value)

theorem callAfter_holds (L : Discipline W) {call : Caller W} (calls : L.Calls call) {t : L.Stage}
    (function : String) (args : List Json)
    (distinct : L.keyed → ∀ json ∈ args, json.Distinct := by exact False.elim) :
    L.holds t (callAfter call function args) fun _ v => v.isSome = true := by
  refine L.andThen (thawAll_holds L args distinct) fun t values _ good => ?_
  refine L.andThen (calls t function values {} good) fun _ value _ _ => ?_
  exact L.andThen (L.freeze value) fun _ _ _ _ => L.give rfl

/-- The whole of a run: the program, and behind it a call from outside if one is asked for. -/
def Loaded.whole (loaded : Loaded W) : Option (String × List Json) → Exec W (Option Snapshot)
  | none => loaded.run >>= fun _ => pure none
  | some (function, args) => loaded.run >>= fun call => callAfter call function args

theorem Loaded.whole_holds (L : Discipline W) {t : L.Stage} {loaded : Loaded W}
    (runs : L.holds t loaded.run fun _ => L.Calls) (call : Option (String × List Json))
    (distinct : L.keyed → ∀ asked ∈ call, ∀ json ∈ asked.2, json.Distinct := by
      exact False.elim) :
    L.holds t (loaded.whole call) fun _ value => value.isSome = call.isSome := by
  cases call with
  | none => exact L.andThen runs fun _ _ _ _ => L.give rfl
  | some asked =>
      refine L.andThen runs fun _ _ _ calls => callAfter_holds L calls asked.1 asked.2 ?_
      exact fun keyed => distinct keyed asked rfl

theorem complete_eq (setup : Setup W) (source : String) (access : GlobalAccess)
    (run : Exec W (Option Snapshot)) :
    complete setup source access run = .ofEnding (run (start setup source access)) := by
  unfold complete
  dsimp only
  cases run (start setup source access) <;> rfl

section Outcomes

variable {language : Language} {source : String} {loaded : Loaded W}
  (parsed : load W language source = .ok loaded) (setup : Setup W)
include parsed

theorem interpret_eq :
    interpret language source setup =
      .ofEnding ((loaded.run >>= fun _ => pure none) (start setup source loaded.access)) := by
  unfold interpret
  rw [parsed]
  exact complete_eq ..

theorem evaluate_eq (function : String) (args : List Json) :
    evaluate language source setup function args =
      .ofEnding ((loaded.run >>= fun call => callAfter call function args)
        (start setup source loaded.access)) := by
  unfold evaluate
  rw [parsed]
  exact complete_eq ..

/-- What is left of a program, with a call from outside behind it if one is asked for. -/
def outcome (language : Language) (source : String) (setup : Setup W) :
    Option (String × List Json) → Outcome W
  | none => interpret language source setup
  | some (function, args) => evaluate language source setup function args

theorem outcome_eq (call : Option (String × List Json)) :
    outcome language source setup call =
      .ofEnding (loaded.whole call (start setup source loaded.access)) := by
  cases call with
  | none => exact interpret_eq parsed setup
  | some asked => exact evaluate_eq parsed setup asked.1 asked.2

end Outcomes

section Loading

variable {source : String} {loaded : Loaded W}

theorem load_jikiScript (parsed : load W .jikiScript source = .ok loaded) :
    ∃ program, JikiScript.parse source = .ok program ∧ loaded.run = program.run := by
  simp only [load] at parsed
  split at parsed
  · next program read =>
      cases parsed
      exact ⟨program, read, rfl⟩
  · cases parsed

theorem load_javaScript (parsed : load W .javaScript source = .ok loaded) :
    ∃ program, JavaScript.parse source = .ok program ∧ loaded.run = program.run := by
  simp only [load] at parsed
  split at parsed
  · next program read =>
      cases parsed
      exact ⟨program, read, rfl⟩
  · cases parsed

end Loading

theorem outcome_refused {language : Language} {source : String} {error : SyntaxError}
    (refused : load W language source = .error error) (setup : Setup W)
    (call : Option (String × List Json)) :
    outcome language source setup call = .ofMistake error setup.world := by
  cases call with
  | none | some asked => simp only [outcome, interpret, evaluate, refused]

/-- A source that does not parse leaves exactly its mistake. Otherwise there is no mistake, a frame
of failure stands only at the end, and `success` says that there is none; a call gives a value
exactly when nothing failed. What the program leaves by itself is the beginning of what it leaves
with a call behind it, and all of it when it failed by itself. -/
theorem outcome_shape (language : Language) (source : String) (setup : Setup W)
    (function : String) (args : List Json) :
    let plain := interpret language source setup
    let called := evaluate language source setup function args
    (∃ error, load W language source = .error error ∧
      plain.IsRefused error ∧ called.IsRefused error) ∨
    ((∃ loaded, load W language source = .ok loaded) ∧ plain.IsRun ∧ called.IsRun ∧
      called.value.isSome = called.success ∧
      plain.frames <+: called.frames ∧
      ((∀ f ∈ setup.functions, f.KeepsConsole) → plain.console <+: called.console) ∧
      (plain.success = false →
        called.frames = plain.frames ∧ called.console = plain.console)) := by
  intro plain called
  cases parsed : load W language source with
  | error error =>
      have plainly : plain = .ofMistake error setup.world := by
        simp only [plain, interpret, parsed]
      have calledly : called = .ofMistake error setup.world := by
        simp only [called, evaluate, parsed]
      have refused := Outcome.ofMistake_isRefused error setup.world
      exact Or.inl ⟨error, rfl, plainly ▸ refused, calledly ▸ refused⟩
  | ok loaded =>
      have plainly : plain = _ := interpret_eq parsed setup
      have calledly : called = _ := evaluate_eq parsed setup function args
      have runs : Stepwise loaded.run (Stepwise.discipline W).Calls :=
        load_holds (Stepwise.discipline W) (t := ()) parsed
      have plainHeld : Stepwise (loaded.run >>= fun _ => pure (none : Option Snapshot))
          fun _ => True := .andThen runs fun _ _ => .give trivial
      have calledHeld := Stepwise.andThen runs fun call held =>
        callAfter_holds (Stepwise.discipline W).toDiscipline held (t := ()) function args
      refine Or.inr ⟨⟨loaded, rfl⟩, plainly ▸ Outcome.ofEnding_isRun plainHeld rfl,
        calledly ▸ Outcome.ofEnding_isRun calledHeld rfl,
        calledly ▸ Outcome.ofEnding_value calledHeld rfl fun _ => id, ?_⟩
      cases ran : loaded.run (start setup source loaded.access) with
      | error failure m =>
          -- the program fails by itself, and the call is never reached
          rw [Exec.bind_apply, ran] at plainly calledly
          rw [plainly, calledly]
          exact ⟨List.prefix_refl _, fun _ => List.prefix_refl _, fun _ => ⟨rfl, rfl⟩⟩
      | ok call m =>
          obtain ⟨grown, held⟩ := Stepwise.grows_of_ok runs ran
          have ended : (loaded.run >>= fun _ => pure (none : Option Snapshot))
              (start setup source loaded.access) = .ok none m := by
            rw [Exec.bind_apply, ran]
            rfl
          have succeeded := Outcome.success_of_ok plainHeld rfl ended
          have extended := Outcome.ofEnding_extends (m := m)
            (callAfter_holds (Stepwise.discipline W).toDiscipline held (t := ()) function args)
          rw [ended] at plainly
          rw [Exec.bind_apply, ran] at calledly
          rw [plainly, calledly]
          refine ⟨extended.1, fun keeps => extended.2 (grown.functions ▸ keeps), fun failed => ?_⟩
          exact absurd (succeeded.symm.trans failed) nofun

def greeter : HostFunction Unit where
  name := "greet"
  arity := .exactly 0
  run _ host := (.ok .null, host.log "hello")

theorem greeter_keepsConsole : greeter.KeepsConsole :=
  fun _ _ => ⟨[_], Array.toList_push.symm⟩

def greeting : String :=
  "function again do\n  greet()\nend\ngreet()"

theorem outcome_shape_greeting :
    let setup : Setup Unit := { functions := [greeter], world := () }
    let plain := interpret .jikiScript greeting setup
    let called := evaluate .jikiScript greeting setup "again" []
    plain.console.length = 1 ∧ called.console.length = 2 ∧ called.value.isSome = called.success ∧
      plain.frames <+: called.frames ∧ plain.console <+: called.console := by
  intro setup plain called
  refine ⟨by decide +kernel, by decide +kernel, ?_⟩
  obtain ⟨error, mistake, -⟩ | ⟨-, -, -, value, frames, console, -⟩ :=
    outcome_shape .jikiScript greeting setup "again" []
  · have parsed : (load Unit .jikiScript greeting).isOk = true := by decide +kernel
    rw [mistake] at parsed
    cases parsed
  · exact ⟨value, frames, console (List.forall_mem_singleton.mpr greeter_keepsConsole)⟩

end Language
end Walkthrough
