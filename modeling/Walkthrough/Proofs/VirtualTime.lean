import Walkthrough.Proofs.RunShape

/-! Virtual time and its limit. Time passes in two places only: a frame costs a fixed time, and a
host function may let time pass. The limit is checked behind both, so a run is ahead of its limit
for at most one operation, the one that halts it. Everything here is about runs in which the clock
does not turn over; then frames are never closer to each other than a frame costs. -/

namespace Walkthrough

namespace Host

variable {W : Type}

/-- What a host function can do to the host that it is handed, as long as the clock does not turn
over. -/
inductive Act : Host W → Host W → Prop
  | waits {host : Host W} (ms : UInt64) :
      host.time.toNat + ms.toNat * microsPerMilli.toNat < 2 ^ 64 →
      Act host (host.fastForward ms)
  | writes {host : Host W} (output : String) : Act host (host.log output)
  | draws {host : Host W} (low high : Int) : Act host (host.random low high).2
  | changes {host : Host W} (world : W) : Act host { host with world }

/-- Any number of such acts. -/
abbrev Acts : Host W → Host W → Prop :=
  Relation.ReflTransGen Act

/-- The lines of the console stand in the order of their times, and none is ahead of the clock. -/
structure Orderly (host : Host W) : Prop where
  lines : host.console.toList.Pairwise fun earlier later => earlier.time ≤ later.time
  past : ∀ line ∈ host.console.toList, line.time ≤ host.time

theorem Orderly.log {host : Host W} (h : host.Orderly) (output : String) :
    (host.log output).Orderly := by
  have console : (host.log output).console.toList =
      host.console.toList ++ [{ time := host.time, output }] := Array.toList_push
  constructor
  · rw [console, List.pairwise_append]
    refine ⟨h.lines, List.pairwise_singleton _ _, fun earlier old later new => ?_⟩
    rw [List.mem_singleton.mp new]
    exact h.past earlier old
  · intro line member
    rw [console, List.mem_append, List.mem_singleton] at member
    rcases member with old | rfl
    · exact h.past line old
    · exact UInt64.le_refl _

theorem Orderly.moved {host host' : Host W} (h : host.Orderly)
    (console : host'.console = host.console) (later : host.time ≤ host'.time) : host'.Orderly := by
  constructor
  · rw [console]
    exact h.lines
  · intro line member
    rw [console] at member
    exact UInt64.le_trans (h.past line member) later

theorem random_snd (host : Host W) (low high : Int) :
    ∃ drawn, (host.random low high).2 = { host with drawn } := by
  unfold random
  split
  · exact ⟨host.drawn, rfl⟩
  · split
    · exact ⟨host.drawn + 1, rfl⟩
    · exact ⟨_, rfl⟩

theorem le_fastForward {host : Host W} {ms : UInt64}
    (room : host.time.toNat + ms.toNat * microsPerMilli.toNat < 2 ^ 64) :
    host.time ≤ (host.fastForward ms).time := by
  have product : (ms * microsPerMilli).toNat = ms.toNat * microsPerMilli.toNat := by
    rw [UInt64.toNat_mul]
    exact Nat.mod_eq_of_lt (by omega)
  rw [UInt64.le_iff_toNat_le]
  change _ ≤ (host.time + ms * microsPerMilli).toNat
  rw [UInt64.toNat_add, product, Nat.mod_eq_of_lt room]
  exact Nat.le_add_right _ _

theorem Act.orderly {host host' : Host W} (act : host.Act host') (h : host.Orderly) :
    host'.Orderly ∧ host.time ≤ host'.time := by
  cases act with
  | waits ms room =>
      have later := le_fastForward room
      exact ⟨h.moved rfl later, later⟩
  | writes output => exact ⟨h.log output, UInt64.le_refl _⟩
  | draws low high =>
      obtain ⟨drawn, eq⟩ := host.random_snd low high
      rw [eq]
      exact ⟨h.moved rfl (UInt64.le_refl _), UInt64.le_refl _⟩
  | changes world => exact ⟨h.moved rfl (UInt64.le_refl _), UInt64.le_refl _⟩

theorem Acts.orderly {host host' : Host W} (acts : host.Acts host') (h : host.Orderly) :
    host'.Orderly ∧ host.time ≤ host'.time := by
  induction acts with
  | refl => exact ⟨h, UInt64.le_refl _⟩
  | tail _ act ih =>
      obtain ⟨orderly, later⟩ := act.orderly ih.1
      exact ⟨orderly, UInt64.le_trans ih.2 later⟩

end Host

/-- The later frame is at least the cost of a frame behind the earlier one. -/
def Frame.Apart (cost : Micros) (earlier later : Frame) : Prop :=
  earlier.time.toNat + cost.toNat ≤ later.time.toNat

namespace Machine

variable {W : Type} {m m' : Machine W}

/-- Between the two states a host function, if one was called, did only what it can do to the host
without turning the clock over. -/
def CallsFairly (m m' : Machine W) : Prop :=
  ∀ f ∈ m.functions, ∀ args heap, m' = { m.afterCall f args with heap } → m.host.Acts m'.host

/-- Steps in which every host function is fair. -/
abbrev FairSteps : Machine W → Machine W → Prop :=
  Relation.ReflTransGen fun m m' => m.Step m' ∧ m.CallsFairly m'

/-- A path by which the evaluation comes to its ending, every host function on it being fair. -/
def EndsFairly {α : Type} (m : Machine W) : EStateM.Result Failure (Machine W) α → Prop
  | .ok _ m' => m.FairSteps m'
  | .error _ m' => ∃ last, m.FairSteps last ∧ last.Halt m' ∧ last.CallsFairly m'

/-- The frames so far, and the clock behind them. -/
structure OnTime (m : Machine W) : Prop where
  apart : m.frames.toList.IsChain (Frame.Apart m.features.timePerFrame)
  paid : ∀ frame ∈ m.frames.toList,
    frame.time.toNat + m.features.timePerFrame.toNat ≤ m.host.time.toNat
  inTime : ∀ frame ∈ m.frames.toList, frame.time ≤ m.features.maxTime
  total : m.frames.size * m.features.timePerFrame.toNat ≤ m.host.time.toNat
  console : m.host.Orderly

theorem OnTime.moved (h : m.OnTime) (features : m'.features = m.features)
    (frames : m'.frames = m.frames) (host : m'.host.Orderly ∧ m.host.time ≤ m'.host.time) :
    m'.OnTime := by
  obtain ⟨console, later⟩ := host
  rw [UInt64.le_iff_toNat_le] at later
  constructor
  · rw [features, frames]
    exact h.apart
  · intro frame member
    rw [frames] at member
    rw [features]
    exact (h.paid frame member).trans later
  · rw [features, frames]
    exact h.inTime
  · rw [features, frames]
    exact h.total.trans later
  · exact console

theorem OnTime.same (h : m.OnTime) (features : m'.features = m.features)
    (frames : m'.frames = m.frames) (host : m'.host = m.host) : m'.OnTime :=
  h.moved features frames ⟨host ▸ h.console, host ▸ UInt64.le_refl _⟩

theorem OnTime.chain_push (h : m.OnTime) {frame : Frame} (now : frame.time = m.host.time) :
    (m.frames.toList ++ [frame]).IsChain (Frame.Apart m.features.timePerFrame) := by
  rw [List.isChain_append]
  refine ⟨h.apart, List.isChain_singleton _, fun last isLast first isFirst => ?_⟩
  cases isFirst
  rw [Frame.Apart, now]
  exact h.paid last (List.mem_of_getLast? isLast)

section Limit

variable (room : m.features.maxTime.toNat + m.features.timePerFrame.toNat < 2 ^ 64)
  (limit : m.host.time ≤ m.features.maxTime)
include room limit

theorem time_addFrame (line : Nat) (ending : Ending) :
    (m.addFrame line ending).host.time.toNat =
      m.host.time.toNat + m.features.timePerFrame.toNat := by
  rw [UInt64.le_iff_toNat_le] at limit
  change (m.host.time + m.features.timePerFrame).toNat = _
  rw [UInt64.toNat_add]
  exact Nat.mod_eq_of_lt (by omega)

theorem OnTime.addFrame (h : m.OnTime) (line : Nat) (ending : Ending) :
    (m.addFrame line ending).OnTime := by
  have time := time_addFrame room limit line ending
  have later : m.host.time ≤ (m.addFrame line ending).host.time := by
    rw [UInt64.le_iff_toNat_le, time]
    exact Nat.le_add_right _ _
  obtain ⟨frame, frames, now⟩ : ∃ frame : Frame, (m.addFrame line ending).frames =
      m.frames.push frame ∧ frame.time = m.host.time := ⟨_, rfl, rfl⟩
  have members : ∀ other ∈ (m.addFrame line ending).frames.toList,
      other ∈ m.frames.toList ∨ other = frame := by
    intro other member
    rw [frames, Array.toList_push, List.mem_append, List.mem_singleton] at member
    exact member
  constructor
  · rw [frames, Array.toList_push]
    exact h.chain_push now
  · intro other member
    rw [time]
    rcases members other member with old | rfl
    · exact (h.paid other old).trans (Nat.le_add_right _ _)
    · rw [now]
      rfl
  · intro other member
    rcases members other member with old | rfl
    · exact h.inTime other old
    · rw [now]
      exact limit
  · rw [time, frames, Array.size_push, Nat.succ_mul]
    exact Nat.add_le_add_right h.total _
  · exact h.console.moved rfl later

theorem Step.onTime (step : m.Step m') (fair : m.CallsFairly m') (h : m.OnTime) :
    m'.OnTime ∧ m'.host.time ≤ m'.features.maxTime ∧ m'.features = m.features := by
  cases step with
  | cells heap => exact ⟨h.same rfl rfl rfl, limit, rfl⟩
  | names scopes => exact ⟨h.same rfl rfl rfl, limit, rfl⟩
  | loops depth => exact ⟨h.same rfl rfl rfl, limit, rfl⟩
  | counts _ => exact ⟨h.same rfl rfl rfl, limit, rfl⟩
  | writes output =>
      exact ⟨h.moved rfl rfl ⟨h.console.log output, UInt64.le_refl _⟩, limit, rfl⟩
  | records line kind value step inTime =>
      exact ⟨h.addFrame room limit line _, UInt64.not_lt.mp inTime, rfl⟩
  | calls offered _ inTime =>
      have acts := fair _ offered _ m.heap rfl
      exact ⟨h.moved rfl rfl (acts.orderly h.console), UInt64.not_lt.mp inTime, rfl⟩

/-- The operation that halts a run may pass the limit, and may add one more frame. -/
theorem Halt.onTime (halt : m.Halt m') (fair : m.CallsFairly m') (h : m.OnTime) :
    m'.OnTime ∧ m'.frames.size ≤ m.frames.size + 1 ∧ m'.features = m.features := by
  cases halt with
  | still => exact ⟨h, Nat.le_succ _, rfl⟩
  | counts => exact ⟨h.same rfl rfl rfl, Nat.le_succ _, rfl⟩
  | records line kind value step =>
      -- the limit is checked behind the frame, so the frame that passes it is there
      refine ⟨h.addFrame room limit line _, ?_, rfl⟩
      exact (Array.size_push _).le
  | calls args heap offered =>
      have acts := fair _ offered args heap rfl
      exact ⟨h.moved rfl rfl (acts.orderly h.console), Nat.le_succ _, rfl⟩

theorem FairSteps.onTime (steps : m.FairSteps m') (h : m.OnTime) :
    m'.OnTime ∧ m'.host.time ≤ m'.features.maxTime ∧ m'.features = m.features := by
  induction steps with
  | refl => exact ⟨h, limit, rfl⟩
  | tail _ last ih =>
      obtain ⟨onTime, inLimit, same⟩ := ih
      obtain ⟨next, nextInLimit, features⟩ :=
        last.1.onTime (same ▸ room) inLimit last.2 onTime
      exact ⟨next, nextInLimit, features.trans same⟩

end Limit

theorem OnTime.size_le (h : m.OnTime) (limit : m.host.time ≤ m.features.maxTime)
    (costs : 1 ≤ m.features.timePerFrame) :
    m.frames.size ≤ m.features.maxTime.toNat / m.features.timePerFrame.toNat := by
  rw [UInt64.le_iff_toNat_le] at limit costs
  exact (Nat.le_div_iff_mul_le costs).mpr (h.total.trans limit)

end Machine

theorem firstReversal?_of_apart {cost : Micros} {frames : List Frame}
    (h : frames.IsChain (Frame.Apart cost)) (index : Nat) : firstReversal? index frames = none := by
  induction h generalizing index with
  | nil => rfl
  | singleton frame => rfl
  | @cons_cons earlier later _ apart _ ih =>
      have ordered : ¬ later.time < earlier.time := by
        rw [UInt64.lt_iff_toNat_lt]
        unfold Frame.Apart at apart
        omega
      rw [firstReversal?, if_neg ordered]
      exact ih (index + 1)

/-- The function is fair wherever the clock has not passed the limit. -/
def HostFunction.Fair {W : Type} (limit : Micros) (f : HostFunction W) : Prop :=
  ∀ (args : List Snapshot) (host : Host W), host.time ≤ limit → host.Acts (f.run args host).2

section Fair

variable {W : Type} {m m' : Machine W}
  (fair : ∀ f ∈ m.functions, f.Fair m.features.maxTime)
include fair

theorem Machine.callsFairly_of_fair (limit : m.host.time ≤ m.features.maxTime) :
    m.CallsFairly m' := by
  intro f offered args heap called
  rw [called]
  exact fair f offered args m.host limit

variable (room : m.features.maxTime.toNat + m.features.timePerFrame.toNat < 2 ^ 64)
  (limit : m.host.time ≤ m.features.maxTime) (h : m.OnTime)
include room limit h

theorem Machine.fairSteps_of_fair (steps : m.Steps m') :
    m.FairSteps m' ∧ ∀ m'', m'.CallsFairly m'' := by
  induction steps with
  | refl => exact ⟨.refl, fun _ => callsFairly_of_fair fair limit⟩
  | @tail before after steps last ih =>
      obtain ⟨fairly, next⟩ := ih
      -- fairness is asked for before the limit only, and so far the clock is before it
      have whole : m.FairSteps after := fairly.tail ⟨last, next after⟩
      obtain ⟨-, inLimit, features⟩ := FairSteps.onTime room limit whole h
      have functions := (Steps.grows (steps.tail last)).functions
      refine ⟨whole, fun _ => callsFairly_of_fair ?_ inLimit⟩
      rw [functions, features]
      exact fair

theorem Stepwise.endsFairly {α : Type} {x : Exec W α} {Q : α → Prop} (held : Stepwise x Q) :
    m.EndsFairly (x m) := by
  have steps := held m
  cases ended : x m with
  | ok a m' =>
      rw [ended] at steps
      exact (Machine.fairSteps_of_fair fair room limit h steps.1).1
  | error failure m' =>
      rw [ended] at steps
      obtain ⟨last, before, halt⟩ := steps
      obtain ⟨fairly, next⟩ := Machine.fairSteps_of_fair fair room limit h before
      exact ⟨last, fairly, halt, next m'⟩

end Fair

/-- What is left of a run whose frames keep to their cost and to the limit on time. -/
structure Outcome.KeepsTime {W : Type} (o : Outcome W) (features : Features) : Prop where
  apart : o.frames.IsChain (Frame.Apart features.timePerFrame)
  console : o.console.Pairwise fun earlier later => earlier.time ≤ later.time
  inTime : ∀ frame ∈ o.frames, frame.isFailure = false → frame.time ≤ features.maxTime
  few : 1 ≤ features.timePerFrame →
    o.frames.length ≤ features.maxTime.toNat / features.timePerFrame.toNat + 2
  ordered : Trace.ofFrames o.frames = .ok ⟨o.frames⟩

namespace Outcome

variable {W : Type} {features : Features} {o : Outcome W}

theorem ordered_of_apart {frames : List Frame} {cost : Micros}
    (apart : frames.IsChain (Frame.Apart cost)) : Trace.ofFrames frames = .ok ⟨frames⟩ := by
  rw [Trace.ofFrames, firstReversal?_of_apart apart]

theorem keepsTime_of_ok {m : Machine W} (h : m.OnTime) (limit : m.host.time ≤ m.features.maxTime)
    (value : Option Snapshot) : (ofMachine m value).KeepsTime m.features where
  apart := h.apart
  console := h.console.lines
  inTime frame member _ := h.inTime frame member
  few costs := (h.size_le limit costs).trans (Nat.le_add_right _ 2)
  ordered := ordered_of_apart h.apart

theorem keepsTime_of_error {m : Machine W} (h : m.OnTime)
    (size : 1 ≤ m.features.timePerFrame →
      m.frames.size ≤ m.features.maxTime.toNat / m.features.timePerFrame.toNat + 1)
    (failure : Failure) : (ofMachine (m.addFailure failure) none).KeepsTime m.features := by
  obtain ⟨frame, frames, now, failed⟩ : ∃ frame : Frame,
      (ofMachine (m.addFailure failure) none).frames = m.frames.toList ++ [frame] ∧
      frame.time = m.host.time ∧ frame.isFailure = true := ⟨_, Array.toList_push, rfl, rfl⟩
  have apart := h.chain_push now
  constructor
  · rw [frames]
    exact apart
  · exact h.console.lines
  · intro other member success
    rw [frames, List.mem_append, List.mem_singleton] at member
    rcases member with old | rfl
    · exact h.inTime other old
    · rw [failed] at success
      cases success
  · intro costs
    rw [frames, List.length_append, List.length_singleton, Array.length_toList]
    exact Nat.succ_le_succ (size costs)
  · rw [frames]
    exact ordered_of_apart apart

theorem ofEnding_keepsTime {m : Machine W} {ending : EStateM.Result Failure (Machine W) _}
    (room : m.features.maxTime.toNat + m.features.timePerFrame.toNat < 2 ^ 64)
    (limit : m.host.time ≤ m.features.maxTime) (h : m.OnTime) (fair : m.EndsFairly ending) :
    (ofEnding ending).KeepsTime m.features := by
  cases ending with
  | ok value m' =>
      obtain ⟨onTime, inLimit, features⟩ := Machine.FairSteps.onTime room limit fair h
      rw [← features]
      exact keepsTime_of_ok onTime inLimit value
  | error failure m' =>
      obtain ⟨last, before, halt, fairly⟩ := fair
      obtain ⟨onTime, inLimit, same⟩ := before.onTime room limit h
      obtain ⟨halted, size, features⟩ := halt.onTime (same ▸ room) inLimit fairly onTime
      rw [← same, ← features]
      refine keepsTime_of_error halted (fun costs => size.trans ?_) failure
      rw [features] at costs ⊢
      exact Nat.succ_le_succ (onTime.size_le inLimit costs)

end Outcome

namespace Language

variable {W : Type}

theorem start_onTime (setup : Setup W) (source : String) (access : GlobalAccess) :
    (start setup source access).OnTime where
  apart := .nil
  paid _ := nofun
  inTime _ := nofun
  total := (Nat.zero_mul _).le
  console := ⟨.nil, nofun⟩

/-- A run of either language in which the clock does not turn over: its frames are at least the cost
of a frame apart and its lines in order, frames of success keep to the limit on time and are no more
than fit before it, and so its frames make a trace. -/
theorem outcome_keeps_time {language : Language} {source : String} {loaded : Loaded W}
    (parsed : load W language source = .ok loaded) (setup : Setup W)
    (call : Option (String × List Json))
    (room : setup.features.maxTime.toNat + setup.features.timePerFrame.toNat < 2 ^ 64)
    (fair : (start setup source loaded.access).EndsFairly
      (loaded.whole call (start setup source loaded.access))) :
    (outcome language source setup call).KeepsTime setup.features := by
  rw [outcome_eq parsed]
  exact Outcome.ofEnding_keepsTime room UInt64.zero_le (start_onTime setup source _) fair

def waiter : HostFunction Unit where
  name := "wait"
  arity := .exactly 0
  run _ host := (.ok .null, (host.fastForward 5).log "waited")

theorem waiter_fair : waiter.Fair 10000000 := by
  intro args host limit
  rw [UInt64.le_iff_toNat_le] at limit
  have room : host.time.toNat + UInt64.toNat 5 * microsPerMilli.toNat < 2 ^ 64 := by
    change host.time.toNat + 5 * 1000 < 2 ^ 64
    change host.time.toNat ≤ 10000000 at limit
    omega
  exact (Relation.ReflTransGen.single (.waits 5 room)).tail (.writes "waited")

theorem waiting_keeps_time :
    let setup : Setup Unit := { functions := [waiter], world := () }
    let o := outcome .javaScript "wait(); wait(); let x = 1;" setup none
    o.frames.length = 3 ∧ o.console.length = 2 ∧ o.KeepsTime setup.features := by
  intro setup o
  refine ⟨by decide +kernel, by decide +kernel, ?_⟩
  have parsed : (load Unit .javaScript "wait(); wait(); let x = 1;").isOk = true := by
    decide +kernel
  cases loads : load Unit .javaScript "wait(); wait(); let x = 1;" with
  | error mistake =>
      rw [loads] at parsed
      cases parsed
  | ok loaded =>
      have held := Loaded.whole_holds (Stepwise.discipline Unit).toDiscipline (t := ())
        (load_holds (Stepwise.discipline Unit) loads) none
      have room : setup.features.maxTime.toNat + setup.features.timePerFrame.toNat < 2 ^ 64 := by
        decide
      refine outcome_keeps_time loads setup none room ?_
      exact Stepwise.endsFairly (List.forall_mem_singleton.mpr waiter_fair) room UInt64.zero_le
        (start_onTime setup _ _) held

end Language
end Walkthrough
