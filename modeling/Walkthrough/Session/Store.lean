/-! A value that can be watched. A new value is committed as a whole, and watchers hear of it only
if it differs from the old one. -/

namespace Walkthrough

/-- The value, and how many watch it; watchers are numbered from 0 in the order they came. -/
structure Store (σ : Type) where
  value : σ
  watchers : Nat := 0
deriving DecidableEq, Repr

namespace Store

variable {σ : Type}

def watch (s : Store σ) : Store σ :=
  { s with watchers := s.watchers + 1 }

variable [DecidableEq σ]

/-- What each watcher is told when a value is committed, in order. -/
def notices (s : Store σ) (next : σ) : List (Nat × σ) :=
  if next = s.value then [] else (List.range s.watchers).map fun i => (i, next)

/-- Puts a value in place of the old one. -/
def commit (s : Store σ) (next : σ) : Store σ :=
  if next = s.value then s else { s with value := next }

/-- Committing the value would change something. -/
def changes (s : Store σ) (next : σ) : Bool :=
  next ≠ s.value

end Store
end Walkthrough
