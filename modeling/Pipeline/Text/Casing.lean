import Pipeline.Text.CaseTable

/-!
# Upper and lower case

Full case mapping of texts. A text may grow: the sharp s has two letters in upper
case. The only mapping that looks at its surroundings is that of the capital
sigma, which has a form of its own at the end of a word.
-/

set_option autoImplicit false

namespace Pipeline.Text

/-- What one character becomes under a case mapping. -/
def CaseMap.apply (mapping : CaseMap) (c : Char) : List Char :=
  let code := c.toNat
  match mapping.expansions.find? (·.1 == code) with
  | some (_, image) => image.map Char.ofNat
  | none =>
    match mapping.runs.find? fun (first, last, step, _) =>
        Nat.ble first code && Nat.ble code last && (code - first) % step == 0 with
    | some (first, _, _, image) => [Char.ofNat (image + (code - first))]
    | none => [c]

def upper (cs : List Char) : List Char :=
  cs.flatMap upperMap.apply

/-- Whether the nearest character that is not ignored by casing is a cased one. -/
def meetsCased (cs : List Char) : Bool :=
  match cs.dropWhile caseIgnorable.contains with
  | [] => false
  | c :: _ => cased.contains c

/-- The text in lower case, where `before` holds the characters already passed,
last one first. A capital sigma is final when a cased letter comes before it and
none after it. -/
def lowerAfter (before : List Char) : List Char → List Char
  | [] => []
  | c :: rest =>
    let image :=
      if c = 'Σ' then
        [if meetsCased before && !meetsCased rest then 'ς' else 'σ']
      else
        lowerMap.apply c
    image ++ lowerAfter (c :: before) rest

def lower (cs : List Char) : List Char :=
  lowerAfter [] cs

end Pipeline.Text
