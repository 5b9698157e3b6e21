import Walkthrough.Exercise.Scenario
import Walkthrough.Proofs.HostCalls
import Walkthrough.Proofs.JavaScriptMirroring
import Walkthrough.Proofs.JikiScriptMirroring
import Walkthrough.Proofs.Tables

/-! Host calls are counted exactly. Each function of a host can be made to write down in its world
that it was entered, and with which arguments, before it does what it did. A program cannot tell
such a host from the plain one, and what was written down in the end is what the log of calls of the
plain run has counted. -/

namespace Walkthrough

variable {W W' : Type}

theorem Table.foldl_add (es : List (String × Nat)) (start : Nat) :
    es.foldl (fun n entry => n + entry.2) start = start + (es.map (·.2)).sum := by
  induction es generalizing start with
  | nil => rfl
  | cons entry rest ih =>
      rw [List.foldl_cons, ih, List.map_cons, List.sum_cons, Nat.add_assoc]

theorem Table.sum_insertEntry {es : List (String × Nat)} (sorted : es.Pairwise fun a b => a.1 < b.1)
    (key : String) (value : Nat) :
    ((insertEntry key value es).map (·.2)).sum + (es.lookup key).getD 0 =
      (es.map (·.2)).sum + value := by
  induction es with
  | nil => simp [insertEntry]
  | cons entry rest ih =>
      obtain ⟨first, later⟩ := List.pairwise_cons.mp sorted
      unfold insertEntry
      rw [lookup_cons_eq_ite]
      by_cases below : key < entry.1
      · have differs : key ≠ entry.1 := fun same => String.lt_irrefl _ (same ▸ below)
        have absent : rest.lookup key = none := by
          cases found : rest.lookup key with
          | none => rfl
          | some other =>
              exact absurd (first _ (mem_of_lookup found)) (String.lt_asymm below)
        rw [if_pos below, if_neg differs, absent]
        simp
        omega
      · rw [if_neg below]
        by_cases same : key = entry.1
        · rw [if_pos same, if_pos same]
          simp
          omega
        · rw [if_neg same, if_neg same]
          have rest := ih later
          simp only [List.map_cons, List.sum_cons]
          omega

namespace CallLog

/-- How often a function was entered with the arguments. -/
def times (log : CallLog) (name arguments : String) : Nat :=
  (((log.get? name).getD Table.empty).get? arguments).getD 0

/-- The counts of each function are in order. -/
def Ordered (log : CallLog) : Prop :=
  ∀ name, ((log.get? name).getD Table.empty).Sorted

theorem get?_count (log : CallLog) (name arguments other : String) :
    ((log.count name arguments).get? other).getD Table.empty =
      if other = name then
        ((log.get? name).getD Table.empty).insert arguments (log.times name arguments + 1)
      else (log.get? other).getD Table.empty := by
  unfold count
  dsimp only
  rw [Table.get?_insert]
  by_cases same : other = name
  · rw [if_pos same, if_pos same]
    rfl
  · rw [if_neg same, if_neg same]

theorem ordered_empty : Ordered Table.empty :=
  fun _ => Table.sorted_empty

theorem Ordered.count {log : CallLog} (h : log.Ordered) (name arguments : String) :
    (log.count name arguments).Ordered := by
  intro other
  rw [get?_count]
  split
  · exact (h name).insert arguments _
  · exact h other

theorem times_count (log : CallLog) (name arguments name' arguments' : String) :
    (log.count name arguments).times name' arguments' =
      log.times name' arguments' + if name = name' ∧ arguments = arguments' then 1 else 0 := by
  unfold times
  rw [get?_count]
  by_cases same : name' = name
  · subst same
    rw [if_pos rfl, Table.get?_insert]
    by_cases equal : arguments' = arguments
    · subst equal
      simp [times]
    · rw [if_neg equal, if_neg (fun both => equal both.2.symm), Nat.add_zero]
  · rw [if_neg same, if_neg (fun both => same both.1.symm), Nat.add_zero]

theorem total_count {log : CallLog} (h : log.Ordered) (name arguments name' : String) :
    (log.count name arguments).total name' = log.total name' + if name = name' then 1 else 0 := by
  unfold total
  rw [get?_count, Table.foldl_add, Table.foldl_add, Nat.zero_add, Nat.zero_add]
  by_cases same : name' = name
  · subst same
    rw [if_pos rfl, if_pos rfl]
    have sum := Table.sum_insertEntry (h name') arguments (log.times name' arguments + 1)
    change _ + log.times name' arguments = _ at sum
    change (((Table.insert _ _ _).entries.map (·.2)).sum) = _
    unfold Table.insert
    dsimp only
    omega
  · rw [if_neg same, if_neg (Ne.symm same), Nat.add_zero]

theorem ofCalls_append (past : List (HostCall W)) (c : HostCall W) :
    ofCalls (past ++ [c]) = (ofCalls past).count c.function.name c.key := by
  unfold ofCalls
  rw [List.foldl_append]
  rfl

theorem ordered_ofCalls (past : List (HostCall W)) : (ofCalls past).Ordered := by
  induction past using List.reverseRecOn with
  | nil => exact ordered_empty
  | append_singleton past c ih =>
      rw [ofCalls_append]
      exact ih.count _ _

theorem times_ofCalls (past : List (HostCall W)) (name arguments : String) :
    (ofCalls past).times name arguments =
      past.countP fun c => c.function.name = name ∧ c.key = arguments := by
  induction past using List.reverseRecOn with
  | nil => rfl
  | append_singleton past c ih =>
      rw [ofCalls_append, times_count, ih, List.countP_append, List.countP_singleton]
      simp only [decide_eq_true_eq]

theorem total_ofCalls (past : List (HostCall W)) (name : String) :
    (ofCalls past).total name = past.countP fun c => c.function.name = name := by
  induction past using List.reverseRecOn with
  | nil => rfl
  | append_singleton past c ih =>
      rw [ofCalls_append, total_count (ordered_ofCalls past), ih, List.countP_append,
        List.countP_singleton]
      simp only [decide_eq_true_eq]

end CallLog

/-- The function writes down each call of it, then does what it did. -/
def HostFunction.tallied (f : HostFunction W) : HostFunction (W × List (HostCall W)) :=
  { name := f.name
    arity := f.arity
    description := f.description
    run := fun args host =>
      let plain := host.inWorld host.world.1
      let (result, after) := f.run args plain
      (result, after.inWorld (after.world, host.world.2 ++ [⟨f, args, plain⟩])) }

/-- The setup with functions that write down their calls; none is written down yet. -/
def Setup.tallied (setup : Setup W) : Setup (W × List (HostCall W)) :=
  setup.inWorld HostFunction.tallied (setup.world, [])

/-- The log of calls counts what was written down. -/
def Mirroring.tallying (functions : List (HostFunction W)) :
    Mirroring W (W × List (HostCall W)) where
  offered := functions
  other := .tallied
  kept log world tallied := tallied.1 = world ∧ log = CallLog.ofCalls tallied.2 ∧
    ∀ c ∈ tallied.2, c.function ∈ functions ∧ c.function.arity.accepts c.args.length = true
  name _ := rfl
  arity _ := rfl
  run := by
    rintro f args log host ⟨world, tally⟩ offered accepted ⟨rfl, rfl, sound⟩
    refine ⟨_, rfl, rfl, (CallLog.ofCalls_append tally ⟨f, args, host⟩).symm, ?_⟩
    intro c member
    rcases List.mem_append.mp member with before | last
    · exact sound c before
    · rw [List.mem_singleton.mp last]
      exact ⟨offered, accepted⟩

namespace Language

theorem outcome_inWorld (M : Mirroring W W') (language : Language) (source : String)
    (setup : Setup W) (world : W') (offered : setup.functions = M.offered)
    (kept : M.kept Table.empty setup.world world) (call : Option (String × List Json)) :
    let o := outcome language source setup call
    ∃ world', outcome language source (setup.inWorld M.other world) call = o.inWorld world' ∧
      M.kept o.calls o.world world' := by
  cases language with
  | jikiScript =>
      cases read : JikiScript.parse source with
      | ok program =>
          rw [JikiScript.Program.outcome_of_parse read, JikiScript.Program.outcome_of_parse read]
          exact Mirroring.outcome_inWorld program.run_mirrors offered kept source call
      | error mistake =>
          rw [outcome_refused (by rw [load, read]), outcome_refused (by rw [load, read])]
          exact ⟨world, rfl, kept⟩
  | javaScript =>
      cases read : JavaScript.parse source with
      | ok program =>
          rw [JavaScript.Program.outcome_of_parse read, JavaScript.Program.outcome_of_parse read]
          exact Mirroring.outcome_inWorld program.run_mirrors offered kept source call
      | error mistake =>
          rw [outcome_refused (by rw [load, read]), outcome_refused (by rw [load, read])]
          exact ⟨world, rfl, kept⟩

/-- A name of a function that a program declares is never counted: where the host offers a function
of that name, the program does not run at all. -/
theorem Loaded.total_declared {S : Type} {declares? : S → Option (Function S)}
    {taken : String → Bool} {pass : Value → Exec W Value} {exec : Caller W → S → Exec W Completion}
    {program : List S} {access : GlobalAccess} {run : Exec W (Caller W)} {setup : Setup W}
    {source : String} (call : Option (String × List Json))
    (begins : run (start setup source access) =
      Exec.runDeclared taken declares? pass exec program (start setup source access))
    (reserved : ∀ name, (Exec.hostFunction? setup.functions name).isSome = true →
      taken name = true)
    {tally : List (HostCall W)}
    (counted : (outcome ⟨access, run⟩ setup source call).calls = CallLog.ofCalls tally)
    (sound : ∀ c ∈ tally, c.function ∈ setup.functions) {f : Function S}
    (declared : f ∈ program.filterMap declares?) :
    (outcome ⟨access, run⟩ setup source call).calls.total f.name = 0 := by
  cases hoisted : Exec.hoist taken [] (program.filterMap declares?) with
  | error failure =>
      have refused : run (start setup source access) =
          .error failure (start setup source access) := by
        rw [begins, Exec.runDeclared, hoisted]
        rfl
      have empty : (outcome ⟨access, run⟩ setup source call).calls = Table.empty := by
        unfold outcome
        rw [complete_eq]
        cases call <;> simp only [whole, Exec.bind_apply, refused] <;> rfl
      rw [empty]
      rfl
  | ok functions =>
      have free := (Exec.hoist_eq_ok.mp hoisted).2.free f declared
      rw [counted, CallLog.total_ofCalls, List.countP_eq_zero]
      intro c member
      rw [decide_eq_true_eq]
      intro same
      have offered : (Exec.hostFunction? setup.functions f.name).isSome = true := by
        unfold Exec.hostFunction?
        rw [List.find?_isSome]
        exact ⟨c.function, List.mem_reverse.mpr (sound c member), beq_iff_eq.mpr same⟩
      rw [reserved f.name offered] at free
      cases free

/-- No call of a function that the source declares is counted as one of the host. -/
theorem total_functionNames {view : CodeView} {name : String} (member : name ∈ view.functionNames)
    {setup : Setup W} {call : Option (String × List Json)} {tally : List (HostCall W)}
    (counted : (outcome view.language view.code setup call).calls = CallLog.ofCalls tally)
    (offered : ∀ c ∈ tally, c.function ∈ setup.functions) :
    (outcome view.language view.code setup call).calls.total name = 0 := by
  obtain ⟨source, language, calls⟩ := view
  cases language with
  | jikiScript =>
      simp only [CodeView.functionNames] at member
      split at member
      · next program read =>
          obtain ⟨f, declared, rfl⟩ := List.mem_map.mp member
          simp only [JikiScript.Program.outcome_of_parse read] at counted ⊢
          apply Loaded.total_declared call (program.run_apply _) _ counted offered declared
          exact fun _ => id
      · cases member
  | javaScript =>
      simp only [CodeView.functionNames] at member
      split at member
      · next program read =>
          obtain ⟨f, declared, rfl⟩ := List.mem_map.mp member
          simp only [JavaScript.Program.outcome_of_parse read] at counted ⊢
          apply Loaded.total_declared call (program.run_apply _) _ counted offered declared
          intro name taken
          exact (Bool.or_eq_true _ _).mpr (Or.inr taken)
      · cases member

/-- Host calls are counted exactly. A host whose functions write down each call as they are entered
sees the same run: the same frames, lines, log of calls, failure and value, and in the end the same
world. The log counts what was written down, by name and arguments and by name alone, also of calls
that then failed. Each of these calls is of a function that the host offers, with a number of
arguments that it accepts; no name that the source declares is ever counted. -/
theorem call_log_counts_entries (language : Language) (source : String) (setup : Setup W)
    (call : Option (String × List Json)) :
    let o := outcome language source setup call
    let view : CodeView := { code := source, language, calls := o.calls }
    ∃ tally : List (HostCall W),
      outcome language source setup.tallied call = o.inWorld (o.world, tally) ∧
      (∀ name arguments, o.calls.times name arguments =
        tally.countP fun c => c.function.name = name ∧ c.key = arguments) ∧
      (∀ name, view.callCount name = tally.countP fun c => c.function.name = name) ∧
      (∀ c ∈ tally, c.function ∈ setup.functions ∧
        c.function.arity.accepts c.args.length = true) ∧
      ∀ name ∈ view.functionNames, view.callCount name = 0 := by
  intro o view
  obtain ⟨⟨world, tally⟩, same, rfl, counted, sound⟩ :=
    outcome_inWorld (.tallying setup.functions) language source setup (setup.world, []) rfl
      ⟨rfl, rfl, nofun⟩ call
  change o.calls = CallLog.ofCalls tally at counted
  refine ⟨tally, same, ?_, ?_, sound, ?_⟩
  · intro name arguments
    rw [counted, CallLog.times_ofCalls]
  · intro name
    change o.calls.total name = _
    rw [counted, CallLog.total_ofCalls]
  · intro name member
    exact total_functionNames member counted fun c written => (sound c written).1

/-- Two calls that give a result, and one that fails after it was entered. -/
example :
    let ping : HostFunction Unit :=
      { name := "ping"
        arity := .exactly 1
        run := fun args host => match args with
          | [.text "no"] => (.error (.logic "never"), host)
          | _ => (.ok .null, host) }
    let setup : Setup Unit := { functions := [ping], world := () }
    let o := outcome .jikiScript "ping(\"a\")\nping(\"a\")\nping(\"no\")" setup none
    o.calls.total "ping" = 3 ∧ o.calls.times "ping" "[\"a\"]" = 2 := by
  decide +kernel

end Language
end Walkthrough
