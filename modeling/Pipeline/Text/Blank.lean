import Pipeline.Text.CharSet

/-!
# Blank characters

The characters that separate words and that trimming removes: those with the
Unicode property White_Space.
-/

set_option autoImplicit false

namespace Pipeline.Text

/-- Every character with the property White_Space. -/
def blank : CharSet where
  ranges :=
    [(0x09, 0x0d), (0x20, 0x20), (0x85, 0x85), (0xa0, 0xa0), (0x1680, 0x1680), (0x2000, 0x200a),
      (0x2028, 0x2029), (0x202f, 0x202f), (0x205f, 0x205f), (0x3000, 0x3000)]

def isBlank (c : Char) : Bool :=
  blank.contains c

def trimStart (cs : List Char) : List Char :=
  cs.dropWhile isBlank

/-- The text without the blanks at its two ends. -/
def trim (cs : List Char) : List Char :=
  (trimStart (trimStart cs).reverse).reverse

end Pipeline.Text
