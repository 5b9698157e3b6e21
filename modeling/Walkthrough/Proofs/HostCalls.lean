import Walkthrough.Proofs.RunShape

/-! The calls that a run makes of its host. A host lives through a run as frames let time pass,
lines are written, and host functions are called, as long as the limit on time was kept. Every run
leaves a host that has lived so, and its log of calls tells of the calls it has lived through. -/

namespace Walkthrough

/-- A call of a host function: the function, its frozen arguments, and the host as it was then. -/
structure HostCall (W : Type) where
  function : HostFunction W
  args : List Snapshot
  host : Host W

namespace HostCall

variable {W : Type} (c : HostCall W)

def result : Except HostFailure Json :=
  (c.function.run c.args c.host).1

def after : Host W :=
  (c.function.run c.args c.host).2

def succeeded : Bool :=
  c.result.isOk

def key : String :=
  (Json.arr (c.args.map Snapshot.toJson)).compact

end HostCall

variable {W : Type}

namespace Host

variable {host : Host W} {cost : Micros}

theorem time_pass (whole : (host.pass cost).overflowed = false) :
    host.overflowed = false ∧ (host.pass cost).time.toNat = host.time.toNat + cost.toNat := by
  obtain ⟨before, fits⟩ := Bool.or_eq_false_iff.mp whole
  have room : host.time.toNat + cost.toNat < 2 ^ 64 := Nat.not_le.mp (of_decide_eq_false fits)
  refine ⟨before, ?_⟩
  change (host.time + cost).toNat = _
  rw [UInt64.toNat_add]
  exact Nat.mod_eq_of_lt room

theorem overflowed_pass (whole : host.overflowed = false)
    (room : host.time.toNat + cost.toNat < 2 ^ 64) : (host.pass cost).overflowed = false :=
  Bool.or_eq_false_iff.mpr ⟨whole, decide_eq_false (Nat.not_le.mpr room)⟩

end Host

def CallLog.ofCalls (past : List (HostCall W)) : CallLog :=
  past.foldl (fun log c => log.count c.function.name c.key) Table.empty

/-- The host may have come out like this after the calls and so many frames of success. Time passes
and functions are called only before the limit on time is passed. -/
inductive Host.Lives (setup : Setup W) : List (HostCall W) → Nat → Host W → Prop
  | begins : Lives setup [] 0 { seed := setup.seed, world := setup.world }
  | passes {past : List (HostCall W)} {n : Nat} {host : Host W} : Lives setup past n host →
      host.time ≤ setup.features.maxTime →
      Lives setup past (n + 1) (host.pass setup.features.timePerFrame)
  | writes {past : List (HostCall W)} {n : Nat} {host : Host W} (output : String) :
      Lives setup past n host → Lives setup past n (host.log output)
  | calls {past : List (HostCall W)} {n : Nat} (c : HostCall W) : Lives setup past n c.host →
      c.host.time ≤ setup.features.maxTime → c.function ∈ setup.functions →
      Lives setup (past ++ [c]) n c.after

namespace Machine

variable {setup : Setup W} {past : List (HostCall W)} {m m' : Machine W}

/-- The state of a run under the setup, after the calls. -/
structure Follows (setup : Setup W) (past : List (HostCall W)) (m : Machine W) : Prop where
  features : m.features = setup.features
  functions : m.functions = setup.functions
  lives : Host.Lives setup past m.frames.size m.host
  logged : m.calls = CallLog.ofCalls past

theorem Follows.moved (h : m.Follows setup past) (features : m'.features = m.features)
    (functions : m'.functions = m.functions) (calls : m'.calls = m.calls)
    (lives : Host.Lives setup past m'.frames.size m'.host) : m'.Follows setup past :=
  ⟨features.trans h.features, functions.trans h.functions, lives, calls.trans h.logged⟩

theorem Follows.same (h : m.Follows setup past) (features : m'.features = m.features)
    (functions : m'.functions = m.functions) (calls : m'.calls = m.calls)
    (frames : m'.frames = m.frames) (host : m'.host = m.host) : m'.Follows setup past :=
  h.moved features functions calls (frames ▸ host ▸ h.lives)

theorem Follows.addFrame (h : m.Follows setup past) (inTime : m.host.time ≤ m.features.maxTime)
    (line : Nat) (ending : Ending) : (m.addFrame line ending).Follows setup past := by
  refine h.moved rfl rfl rfl ?_
  have one : (m.addFrame line ending).frames.size = m.frames.size + 1 := Array.size_push _
  rw [one]
  change Host.Lives setup past _ (m.host.pass m.features.timePerFrame)
  rw [h.features] at inTime ⊢
  exact .passes h.lives inTime

theorem Follows.afterCall (h : m.Follows setup past) (inTime : m.host.time ≤ m.features.maxTime)
    {f : HostFunction W} (offered : f ∈ m.functions) (args : List Snapshot) (heap : Heap) :
    Follows setup (past ++ [⟨f, args, m.host⟩]) { m.afterCall f args with heap } := by
  refine ⟨h.features, h.functions, ?_, ?_⟩
  · rw [h.features] at inTime
    rw [h.functions] at offered
    exact .calls ⟨f, args, m.host⟩ h.lives inTime offered
  · rw [CallLog.ofCalls, List.foldl_append, ← CallLog.ofCalls, ← h.logged]
    rfl

theorem Step.follows (step : m.Step m') (h : m.Follows setup past)
    (inTime : m.host.time ≤ m.features.maxTime) :
    (∃ past', m'.Follows setup past') ∧ m'.host.time ≤ m'.features.maxTime := by
  cases step with
  | cells heap => exact ⟨⟨past, h.same rfl rfl rfl rfl rfl⟩, inTime⟩
  | names scopes => exact ⟨⟨past, h.same rfl rfl rfl rfl rfl⟩, inTime⟩
  | loops depth => exact ⟨⟨past, h.same rfl rfl rfl rfl rfl⟩, inTime⟩
  | counts _ => exact ⟨⟨past, h.same rfl rfl rfl rfl rfl⟩, inTime⟩
  | writes output => exact ⟨⟨past, h.moved rfl rfl rfl (.writes output h.lives)⟩, inTime⟩
  | records line kind value step early =>
      exact ⟨⟨past, h.addFrame inTime line _⟩, UInt64.not_lt.mp early⟩
  | calls offered _ early =>
      exact ⟨⟨_, h.afterCall inTime offered _ m.heap⟩, UInt64.not_lt.mp early⟩

theorem Halt.follows (halt : m.Halt m') (h : m.Follows setup past)
    (inTime : m.host.time ≤ m.features.maxTime) : ∃ past', m'.Follows setup past' := by
  cases halt with
  | still => exact ⟨past, h⟩
  | counts => exact ⟨past, h.same rfl rfl rfl rfl rfl⟩
  | records line kind value step => exact ⟨past, h.addFrame inTime line _⟩
  | calls args heap offered => exact ⟨_, h.afterCall inTime offered args heap⟩

theorem Steps.follows (steps : m.Steps m') (h : m.Follows setup past)
    (inTime : m.host.time ≤ m.features.maxTime) :
    (∃ past', m'.Follows setup past') ∧ m'.host.time ≤ m'.features.maxTime := by
  induction steps with
  | refl => exact ⟨⟨past, h⟩, inTime⟩
  | tail _ step ih =>
      obtain ⟨⟨past', follows⟩, early⟩ := ih
      exact step.follows follows early

end Machine

/-- The outcome is what is left of a run with these calls, so many frames of success, and this host
behind them. -/
structure Outcome.Recounts (o : Outcome W) (past : List (HostCall W)) (n : Nat) (host : Host W) :
    Prop where
  world : o.world = host.world
  console : o.console = host.console.toList
  calls : o.calls = CallLog.ofCalls past
  overflowed : o.overflowed = false → host.overflowed = false
  frames : (o.frames.filter fun frame => !frame.isFailure).length = n

namespace Outcome

theorem filter_of_hasFailure {frames : List Frame} (none : hasFailure frames = false) :
    frames.filter (fun frame => !frame.isFailure) = frames := by
  rw [hasFailure, List.any_eq_false] at none
  refine List.filter_eq_self.mpr fun frame member => ?_
  rw [eq_false_of_ne_true (none frame member), Bool.not_false]

variable {setup : Setup W} {past : List (HostCall W)} {m : Machine W}

theorem recounts_of_ok (h : m.Follows setup past) (none : hasFailure m.frames.toList = false)
    (value : Option Snapshot) : (ofMachine m value).Recounts past m.frames.size m.host where
  world := rfl
  console := rfl
  calls := h.logged
  overflowed whole := (Bool.or_eq_false_iff.mp whole).2
  frames := by
    change (m.frames.toList.filter _).length = _
    rw [filter_of_hasFailure none, Array.length_toList]

/-- The frame of the failure lets time pass once more, and nothing else happens to the host. -/
theorem recounts_of_error (h : m.Follows setup past) (none : hasFailure m.frames.toList = false)
    (failure : Failure) :
    (ofMachine (m.addFailure failure) .none).Recounts past m.frames.size m.host where
  world := rfl
  console := rfl
  calls := h.logged
  overflowed whole := (Host.time_pass (Bool.or_eq_false_iff.mp whole).2).1
  frames := by
    obtain ⟨frame, failed, frames⟩ := m.addFailure_frames failure
    change ((m.addFailure failure).frames.toList.filter _).length = _
    rw [frames, List.filter_append, filter_of_hasFailure none, List.filter_singleton, failed]
    simp

end Outcome

namespace Language

theorem start_follows (setup : Setup W) (source : String) (access : GlobalAccess) :
    (start setup source access).Follows setup [] :=
  ⟨rfl, rfl, .begins, rfl⟩

/-- Every run leaves a host that lived through its calls. -/
theorem outcome_recounts (language : Language) (source : String) (setup : Setup W)
    (call : Option (String × List Json)) :
    ∃ past n host, Host.Lives setup past n host ∧
      (outcome language source setup call).Recounts past n host := by
  cases parsed : load W language source with
  | error error =>
      rw [outcome_refused parsed setup call]
      exact ⟨[], 0, _, .begins, rfl, rfl, rfl, fun _ => rfl, rfl⟩
  | ok loaded =>
      rw [outcome_eq parsed setup call]
      have held := Loaded.whole_holds (Stepwise.discipline W).toDiscipline (t := ())
        (load_holds (Stepwise.discipline W) parsed) call
      have begun := start_follows setup source loaded.access
      have steps := held (start setup source loaded.access)
      cases ended : loaded.whole call (start setup source loaded.access) with
      | ok value m =>
          rw [ended] at steps
          obtain ⟨⟨past, follows⟩, -⟩ := steps.1.follows begun UInt64.zero_le
          have none := Outcome.hasFailure_of_grows rfl steps.1.grows
          exact ⟨past, _, _, follows.lives, Outcome.recounts_of_ok follows none value⟩
      | error failure m =>
          rw [ended] at steps
          obtain ⟨last, before, halt⟩ := steps
          obtain ⟨⟨past, follows⟩, inTime⟩ := before.follows begun UInt64.zero_le
          obtain ⟨past', follows'⟩ := halt.follows follows inTime
          have none := Outcome.hasFailure_of_grows rfl (before.grows.trans halt.grows)
          exact ⟨past', _, _, follows'.lives, Outcome.recounts_of_error follows' none failure⟩

end Language
end Walkthrough
