/-!
# Tables of code points

A character class of the Unicode standard is a set of code points, written here as the list of
its ranges in increasing order.

* `Ranges.contains`: whether a code point lies in one of the ranges.
-/

namespace DomainForms.Text

/-- Ranges of code points, both ends included, in increasing order. -/
abbrev Ranges := List (Nat × Nat)

/-- Whether a code point lies in one of the ranges.  As the ranges increase, the search ends at
the first one that starts beyond the code point. -/
def Ranges.contains : Ranges → Nat → Bool
  | [], _ => false
  | (first, last) :: rest, n =>
    if n < first then false else if n ≤ last then true else contains rest n

end DomainForms.Text
