/-!
# Sets of characters

A property of characters is kept as the list of ranges of code points that have
it. Membership is a search through the list, so a statement about all characters
of a set is a statement about its ranges.
-/

set_option autoImplicit false

namespace Pipeline.Text

/-- A set of characters, given by closed ranges of code points. -/
structure CharSet where
  ranges : List (Nat × Nat)

/-- Whether some range of the set holds the character's code point. -/
def CharSet.contains (set : CharSet) (c : Char) : Bool :=
  set.ranges.any fun range => Nat.ble range.1 c.toNat && Nat.ble c.toNat range.2

end Pipeline.Text
