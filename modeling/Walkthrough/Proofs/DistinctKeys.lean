import Walkthrough.Proofs.Arrivals

/-! Keys stay distinct. Dictionaries are made by literals, by thawing what the host gives and by
copying arguments, and they are written through any of the names that share them; none of this gives
a dictionary a key that it has. So at every moment of a run all cells have distinct keys, everything
that is frozen has, and what is frozen is written as JSON without a loss. -/

namespace Walkthrough

namespace Machine

variable {W : Type} {m m' : Machine W}

/-- No dictionary cell has a key twice, whatever name, intermediate result or other collection leads
to it, and no dictionary in a recorded frame has. -/
structure Distinct (m : Machine W) : Prop where
  cells : m.heap.Distinct
  frames : ∀ frame ∈ m.frames.toList, frame.Distinct

theorem Distinct.addFrame (distinct : m.Distinct) (line : Nat) {ending : Ending}
    (shown : ending.Distinct) : (m.addFrame line ending).Distinct := by
  refine ⟨distinct.cells, ?_⟩
  intro frame member
  obtain old | new := Array.mem_push.mp (Array.mem_toList_iff.mp member)
  · exact distinct.frames frame (Array.mem_toList_iff.mpr old)
  · intro s frozen
    subst new
    obtain bound | told := List.mem_append.mp frozen
    · obtain ⟨e, visible, rfl⟩ := List.mem_map.mp bound
      obtain ⟨binding, -, rfl⟩ := List.mem_map.mp visible
      exact distinct.cells.freeze binding.2.value
    · exact shown s told

/-- Besides, the host gives nothing that has. -/
structure Keyed (m : Machine W) : Prop extends Distinct m where
  hosts : ∀ f ∈ m.functions, f.GivesDistinct

namespace Keyed

theorem ofSame (keyed : m.Keyed) (heap : m'.heap = m.heap) (frames : m'.frames = m.frames)
    (functions : m'.functions = m.functions) : m'.Keyed := by
  constructor
  · constructor
    · rw [heap]
      exact keyed.cells
    · rw [frames]
      exact keyed.frames
  · rw [functions]
    exact keyed.hosts

end Keyed
end Machine

def keying (W : Type) : Enclosure W where
  here := Machine.Keyed
  passed := Machine.Distinct
  passes keyed := keyed.toDistinct
  quiet keyed heap _ frames functions := keyed.ofSame heap frames functions
  keyed := True
  distinct _ keyed := ⟨keyed.cells, keyed.hosts⟩
  cells keyed distinct := ⟨⟨distinct trivial, keyed.frames⟩, keyed.hosts⟩
  names keyed _ := keyed.ofSame rfl rfl rfl
  frames keyed shown := ⟨keyed.toDistinct.addFrame _ (shown trivial), keyed.hosts⟩

theorem keying_arrives {W : Type} {x : Exec W Unit} (small : Exec.Small x)
    {change : Scopes → Scopes} (h : ∀ m, x m = .ok () { m with scopes := change m.scopes }) :
    (keying W).Arrives x fun _ => True := by
  refine .ofSmall small (fun m keyed => ?_) (fun m => ?_) (fun m => ?_) fun _ _ _ _ _ => trivial
  · rw [h m]
    exact Machine.Keyed.ofSame keyed rfl rfl rfl
  · rw [h m]
    rfl
  · rw [h m]
    rfl

def keepingKeys (W : Type) : CallDiscipline W where
  toStatementDiscipline := (keying W).statements
  openCall := keying_arrives .openCall fun _ => rfl
  closeCall := keying_arrives .closeCall fun _ => rfl
  readFunctions := (keying W).statements_readsFunctions
  callHost := (keying W).arrives_callHost

theorem Outcome.frames_distinct {W : Type}
    {ending : EStateM.Result Failure (Machine W) (Option Snapshot)}
    (last : (Exec.final ending).Distinct) : ∀ frame ∈ (ofEnding ending).frames, frame.Distinct := by
  cases ending with
  | ok value m => exact last.frames
  | error failure m =>
      have nothing : (Ending.failure failure.fault).Distinct := fun s shown => nomatch shown
      exact (last.addFrame failure.position.line nothing).frames

namespace Language

variable {W : Type}

theorem Loaded.value_frozen {loaded : Loaded W} {call : Option (String × List Json)}
    {m m' : Machine W} {v : Option Snapshot} (ended : loaded.whole call m = .ok v m') :
    ∀ s ∈ v, ∃ value, s = m'.heap.freeze value := by
  cases call with
  | none =>
      change (loaded.run >>= fun _ => pure none) m = _ at ended
      obtain ⟨_, _, -, rest⟩ := Exec.bind_eq_ok.mp ended
      cases rest
      exact nofun
  | some asked =>
      change (loaded.run >>= fun call => thawAll asked.2 >>= fun values =>
        call asked.1 values {} >>= fun value => Exec.freeze value >>= fun s => pure (some s)) m = _
        at ended
      obtain ⟨_, _, -, behind⟩ := Exec.bind_eq_ok.mp ended
      obtain ⟨_, _, -, called⟩ := Exec.bind_eq_ok.mp behind
      obtain ⟨value, _, -, frozen⟩ := Exec.bind_eq_ok.mp called
      cases frozen
      intro s given
      exact ⟨value, (Option.some.inj given).symm⟩

theorem Loaded.value_distinct {loaded : Loaded W} {call : Option (String × List Json)}
    {m : Machine W} (last : (Exec.final (loaded.whole call m)).Distinct) :
    ∀ s ∈ (Outcome.ofEnding (loaded.whole call m)).value, s.Distinct := by
  cases ended : loaded.whole call m with
  | error failure after =>
      intro s given
      cases given
  | ok v after =>
      rw [ended] at last
      intro s given
      obtain ⟨value, rfl⟩ := Loaded.value_frozen ended s given
      exact last.cells.freeze value

theorem start_keyed {setup : Setup W} (hosts : ∀ f ∈ setup.functions, f.GivesDistinct)
    (source : String) (access : GlobalAccess) : (start setup source access).Keyed :=
  ⟨⟨.empty, nofun⟩, hosts⟩

/-- A program that is run under such host functions goes through states with distinct keys only. -/
theorem Loaded.stays_distinct {language : Language} {source : String} {loaded : Loaded W}
    (parsed : load W language source = .ok loaded) {setup : Setup W}
    (hosts : ∀ f ∈ setup.functions, f.GivesDistinct) {call : Option (String × List Json)}
    (args : ∀ asked ∈ call, ∀ json ∈ asked.2, json.Distinct) :
    let begun := start setup source loaded.access
    ∃ bodies, Exec.Ends Machine.Distinct (loaded.whole call) begun bodies
      (loaded.whole call begun) := by
  have runs := load_holds (keepingKeys W) (t := ()) parsed
  have keeps := Loaded.whole_holds (keepingKeys W).toDiscipline runs call fun _ => args
  obtain ⟨bodies, ends, -⟩ := keeps _ (start_keyed hosts source loaded.access)
  exact ⟨bodies, ends⟩

/-- In every run of either language no dictionary ever has a key twice: at no moment in any cell, in
no recorded frame, and not in the value of the function that is called behind the program. Therefore
the JSON of everything that is left of a run tells it without a loss. -/
theorem keys_stay_distinct (language : Language) (source : String) (setup : Setup W)
    (hosts : ∀ f ∈ setup.functions, f.GivesDistinct) (call : Option (String × List Json))
    (args : ∀ asked ∈ call, ∀ json ∈ asked.2, json.Distinct) :
    let o := outcome language source setup call
    (∀ loaded, load W language source = .ok loaded → ∃ bodies ending,
      Exec.Ends Machine.Distinct (loaded.whole call) (start setup source loaded.access) bodies
        ending ∧ o = .ofEnding ending) ∧
    (∀ frame ∈ o.frames, ∀ s ∈ frame.snapshots, s.Distinct ∧ s.Told s.toJson) ∧
    ∀ s ∈ o.value, s.Distinct ∧ s.Told s.toJson := by
  intro o
  cases parsed : load W language source with
  | error error =>
      have left : o = .ofMistake error setup.world := by
        cases call <;> simp only [o, outcome, interpret, evaluate, parsed]
      rw [left]
      refine ⟨?_, ?_, ?_⟩
      · intro loaded same
        cases same
      · intro frame member
        cases member
      · intro s given
        cases given
  | ok loaded =>
      have left : o = _ := outcome_eq parsed setup call
      obtain ⟨bodies, ends⟩ := Loaded.stays_distinct parsed hosts args
      have last := ends.bounds.2
      rw [left]
      refine ⟨?_, ?_, ?_⟩
      · intro _ same
        cases same
        exact ⟨bodies, _, ends, rfl⟩
      · intro frame member s frozen
        have distinct := Outcome.frames_distinct last frame member s frozen
        exact ⟨distinct, distinct.told⟩
      · intro s given
        have distinct := Loaded.value_distinct last s given
        exact ⟨distinct, distinct.told⟩

def giver : HostFunction Unit where
  name := "give"
  arity := .exactly 0
  run _ host := (.ok (.obj [("x", .int 1), ("y", .int 2)]), host)

theorem giver_givesDistinct : giver.GivesDistinct := by
  intro args host json ran
  cases ran
  refine .obj (by decide) ?_
  intro e member
  rcases List.mem_cons.mp member with rfl | member
  · exact .int 1
  · rw [List.mem_singleton.mp member]
    exact .int 2

/-- A program that writes one key again and again: in a literal, by its name, and as an element,
through another name. -/
def keyAgain : String :=
  "function tag(p) \x7b p[\"a\"] = give(); return p; \x7d\n" ++
  "let d = \x7b a: 1, b: 2, a: 3 \x7d; d.a = 4; tag(d);"

theorem written_again_stands_once :
    let setup : Setup Unit := { functions := [giver], world := () }
    let asked := ("tag", [Json.obj [("b", .null), ("a", .null)]])
    let o := outcome .javaScript keyAgain setup (some asked)
    (∀ json ∈ asked.2, json.Distinct) ∧ o.frames.length = 7 ∧
      (o.value.map fun s => s.toJson.compact) =
        some "\x7b\"a\":\x7b\"x\":1,\"y\":2\x7d,\"b\":null\x7d" ∧
      (∀ frame ∈ o.frames, frame.Distinct) ∧ ∀ s ∈ o.value, s.Told s.toJson := by
  intro setup asked o
  have arguments : ∀ json ∈ asked.2, json.Distinct := by
    refine List.forall_mem_singleton.mpr (.obj (by decide) ?_)
    intro e member
    rcases List.mem_cons.mp member with rfl | member
    · exact .null
    · rw [List.mem_singleton.mp member]
      exact .null
  have ran : o.frames.length = 7 ∧ (o.value.map fun s => s.toJson.compact) =
      some "\x7b\"a\":\x7b\"x\":1,\"y\":2\x7d,\"b\":null\x7d" := by
    decide +kernel
  have hosts := List.forall_mem_singleton.mpr giver_givesDistinct
  obtain ⟨-, frames, value⟩ := keys_stay_distinct .javaScript keyAgain setup hosts (some asked)
    fun _ same => Option.some.inj same ▸ arguments
  refine ⟨arguments, ran.1, ran.2, ?_, ?_⟩
  · intro frame member s frozen
    exact (frames frame member s frozen).1
  · intro s given
    exact (value s given).2

end Language
end Walkthrough
