import Walkthrough.JavaScript.Run
import Walkthrough.JikiScript.Run
import Walkthrough.Proofs.Rounding

/-! Switches and limits in order of what they allow. An operation that consults them is permissive
when relaxing them can only turn a failure into a result: a result that was given stays as it is.
Every operator of both languages is. -/

namespace Walkthrough

theorem exists_of_bind_ok {α β : Type} {x : Except Fault α} {k : α → Except Fault β} {b : β}
    (h : x >>= k = .ok b) : ∃ a, x = .ok a ∧ k a = .ok b := by
  cases x with
  | error fault => cases h
  | ok a => exact ⟨a, rfl, h⟩

/-- The second switches and limits allow whatever the first do, at the same time per frame. -/
structure Features.RelaxedBy (strict lax : Features) : Prop where
  shadowing : strict.shadowing = true → lax.shadowing = true
  coercion : strict.coercion = true → lax.coercion = true
  truthiness : strict.truthiness = true → lax.truthiness = true
  strictEquality : lax.strictEquality = true → strict.strictEquality = true
  timePerFrame : lax.timePerFrame = strict.timePerFrame
  maxIterations : strict.maxIterations ≤ lax.maxIterations
  maxTime : strict.maxTime ≤ lax.maxTime

/-- Relaxing the switches keeps every result of the operation. -/
def Permissive {α : Type} (g : Features → Heap → Except Fault α) : Prop :=
  ∀ ⦃strict lax : Features⦄, strict.RelaxedBy lax → ∀ h a, g strict h = .ok a → g lax h = .ok a

namespace Permissive

variable {α β : Type}

theorem constant (g : Heap → Except Fault α) : Permissive fun _ h => g h :=
  fun _ _ _ _ _ result => result

theorem bind {g : Features → Heap → Except Fault α} (hg : Permissive g) (k : α → Except Fault β) :
    Permissive fun f h => g f h >>= k := by
  intro strict lax relaxed h b result
  obtain ⟨a, first, second⟩ := exists_of_bind_ok result
  dsimp only
  rw [hg relaxed h a first]
  exact second

theorem condition (v : Value) : Permissive fun f _ => v.condition f.truthiness := by
  intro strict lax relaxed h b result
  dsimp only at result ⊢
  cases v with
  | boolean b => exact result
  | number _ | text _ | list _ | dict _ | nothing =>
      by_cases on : strict.truthiness = true
      · rw [relaxed.truthiness on, ← on]
        exact result
      · simp [Value.condition, on] at result

theorem arithmetic (op : ArithmeticOp) (left right : Value) :
    Permissive fun f h => Value.arithmetic h op left right f.coercion := by
  intro strict lax relaxed h v result
  dsimp only at result ⊢
  by_cases on : strict.coercion = true
  · rw [relaxed.coercion on, ← on]
    exact result
  · -- without coercion only the two leading cases give a result, and neither asks for it
    unfold Value.arithmetic at result ⊢
    split at result
    · exact result
    · exact result
    · simp [on] at result

end Permissive

namespace JikiScript

theorem unary_permissive (v : Value) (op : UnaryOp) :
    Permissive fun f h => unary h f.truthiness v op := by
  cases op with
  | negate => exact .constant fun h => unary h false v .negate
  | not => exact (Permissive.condition v).bind _

theorem repeatCount_permissive (count : Value) :
    Permissive fun f h => repeatCount h count f.maxIterations := by
  intro strict lax relaxed h n result
  dsimp only at result ⊢
  cases count with
  | number x =>
      unfold repeatCount at result ⊢
      have below : ¬ strict.maxIterations.toFloat < x → ¬ lax.maxIterations.toFloat < x :=
        fun pass above => pass (Number.Rounding.toFloat_lt_of_le relaxed.maxIterations above)
      by_cases above : strict.maxIterations.toFloat < x
      · simp only [above, if_true] at result
        split at result
        · cases result
        · split at result <;> cases result
      · simpa only [above, below above, if_false] using result
  | text _ | boolean _ | list _ | dict _ | nothing => cases result

end JikiScript

namespace JavaScript

theorem signed_permissive (operator : String) (apply : Float → Float) (v : Value) :
    Permissive fun f _ => signed f.coercion operator apply v := by
  intro strict lax relaxed h result given
  dsimp only at given ⊢
  cases v with
  | number x => exact given
  | text _ | boolean _ | list _ | dict _ | nothing =>
      by_cases on : strict.coercion = true
      · rw [relaxed.coercion on, ← on]
        exact given
      · simp [signed, on] at given

theorem unary_permissive (v : Value) (op : UnaryOp) : Permissive fun f _ => unary f v op := by
  cases op with
  | not => exact (Permissive.condition v).bind _
  | negate => exact signed_permissive "-" _ v
  | plus => exact signed_permissive "+" _ v

theorem looseEquality_permissive (operator : String) (left right : Value) :
    Permissive fun f _ => looseEquality f operator left right := by
  intro strict lax relaxed h b result
  dsimp only at result ⊢
  by_cases on : strict.strictEquality = true
  · simp [looseEquality, on] at result
  · have off : ¬ lax.strictEquality = true := fun e => on (relaxed.strictEquality e)
    simpa [looseEquality, on, off] using result

theorem binary_permissive (left right : Value) (op : BinaryOp) :
    Permissive fun f h => binary f h left right op := by
  cases op with
  | add => exact Permissive.arithmetic .add left right
  | subtract => exact Permissive.arithmetic .subtract left right
  | multiply => exact Permissive.arithmetic .multiply left right
  | divide => exact Permissive.arithmetic .divide left right
  | remainder => exact Permissive.arithmetic .remainder left right
  | less | lessEqual | greater | greaterEqual | strictEqual | strictNotEqual =>
      exact fun _ _ _ _ _ result => result
  | looseEqual => exact (looseEquality_permissive "==" left right).bind _
  | looseNotEqual => exact (looseEquality_permissive "!=" left right).bind _

end JavaScript
end Walkthrough
