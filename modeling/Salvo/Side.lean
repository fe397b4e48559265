/-! # The two sides of a battle -/

namespace Salvo

inductive Side where
  | offense
  | defense
  deriving DecidableEq, Repr, Inhabited

namespace Side

/-- Both sides in the order in which they act. -/
def both : List Side := [offense, defense]

def opposite : Side → Side
  | offense => defense
  | defense => offense

def isDefending : Side → Bool
  | offense => false
  | defense => true

/-- The value that belongs to a side, of a pair given offense first. -/
def pick {α : Type} (offense defense : α) : Side → α
  | .offense => offense
  | .defense => defense

def name : Side → String
  | offense => "offense"
  | defense => "defense"

@[simp] theorem opposite_opposite (side : Side) : side.opposite.opposite = side := by
  cases side <;> rfl

theorem mem_both (side : Side) : side ∈ both := by
  cases side <;> simp [both]

end Side

end Salvo
