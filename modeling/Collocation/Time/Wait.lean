/-!
# Waiting

Pauses, limits and delays are set in milliseconds, and none of them lasts longer than thirty years.
-/

set_option autoImplicit false

namespace Collocation

/-- Milliseconds of the longest wait: thirty years of 365 days. -/
def longestWait : Nat := 30 * 365 * 86400000

/-- Milliseconds for which a wait goes on that is set to so many. -/
def waitTime (millis : UInt64) : Nat :=
  min millis.toNat longestWait

example : waitTime 946079999999 = 946079999999 := by decide
example : waitTime 946080000001 = 946080000000 := by decide

end Collocation
