namespace TestAudit

/-!
# Sets of code points given by ranges

A set of code points is kept as a list of closed ranges, ascending and apart.
Membership stops at the first range that begins above the code point.
-/

/-- Closed ranges of code points, ascending and apart. -/
abbrev CodeRanges := List (Nat × Nat)

namespace CodeRanges

/-- Whether a code point lies in one of the ranges. -/
def has : CodeRanges → Nat → Bool
  | [], _ => false
  | (first, last) :: rest, code =>
      if code < first then
        false
      else if code ≤ last then
        true
      else
        has rest code

end CodeRanges

end TestAudit
