import Coap.Time

namespace Coap

/-!
# The order of instants

Instants are ordered as they lie on their clock, and lengths grow with the
instants that they lie between.
-/

namespace Timestamp

variable {earlier later : Timestamp}

theorem le_iff
    {first second : Timestamp} :
    first ≤ second ↔ first.nanos ≤ second.nanos :=
  .rfl

theorem le_trans
    {first second third : Timestamp}
    (one : first ≤ second)
    (two : second ≤ third) :
    first ≤ third := by
  rw [le_iff] at one two ⊢
  omega

theorem le_after
    (instant : Timestamp)
    (length : Nat) :
    instant ≤ instant.after length := by
  rw [le_iff]
  unfold after
  dsimp only
  omega

theorem since_mono
    (ordered : earlier ≤ later)
    (instant : Timestamp) :
    earlier.since instant ≤ later.since instant := by
  rw [le_iff] at ordered
  unfold since
  omega

/-- The later of two instants is the less long ago. -/
theorem since_anti
    (ordered : earlier ≤ later)
    (now : Timestamp) :
    now.since later ≤ now.since earlier := by
  rw [le_iff] at ordered
  unfold since
  omega

/-- An instant that is some length after an earlier one is not before it. -/
theorem after_le_iff
    (ordered : earlier ≤ later)
    {length : Nat} :
    earlier.after length ≤ later ↔ length ≤ later.since earlier := by
  rw [le_iff] at ordered ⊢
  unfold since after
  dsimp only
  omega

end Timestamp

end Coap
