import Pipeline.Run.Expr

/-!
# Ordering elements

Sorting and extremes by the columns of a comparator. All keys are computed first, and
every column is compared with that of the first element, so an element that has no
place in the order is found before anything is moved.
-/

set_option autoImplicit false

namespace Pipeline

/-- What a sort key takes from an element. The element itself stands for its natural key
if it is a record. -/
def SortKey.select (cap : Nat) (key : SortKey) (element : Value) : Except RunError Value :=
  match key.selector, element with
  | .identity, .record r =>
    match r.schema.naturalKey.bind r.get? with
    | some found => .ok (.scalar found)
    | none => .error (.type (.noNaturalOrder r.schema.name))
  | selector, element => selector.select cap element

/-- An element with its keys, one for each column. -/
structure Keyed where
  keys : List Value
  element : Value

namespace Comparator

def keysOf (cap : Nat) (element : Value) : List SortKey → Except RunError (List Value)
  | [] => .ok []
  | key :: rest => do
    let value ← key.select cap element
    let values ← keysOf cap element rest
    .ok (value :: values)

def keyAll (cap : Nat) (comparator : Comparator) : List Value → Except RunError (List Keyed)
  | [] => .ok []
  | element :: rest => do
    let keys ← keysOf cap element comparator.keys
    let keyed ← comparator.keyAll cap rest
    .ok (⟨keys, element⟩ :: keyed)

/-- Fails at the first column in which two lists of keys have no order. -/
def checkColumns : List Value → List Value → Except RunError Unit
  | a :: as, b :: bs => do
    let _ ← a.order b
    checkColumns as bs
  | _, _ => .ok ()

/-- Fails at the first element that has no order against the given keys. -/
def checkAgainst (keys : List Value) : List Keyed → Except RunError Unit
  | [] => .ok ()
  | keyed :: rest => do
    checkColumns keys keyed.keys
    checkAgainst keys rest

/-- The elements with their keys, if all have an order against the first. -/
def keyed (cap : Nat) (comparator : Comparator) (elements : List Value) :
    Except RunError (List Keyed) := do
  let all ← comparator.keyAll cap elements
  match all with
  | [] => .ok []
  | first :: _ => do
    checkAgainst first.keys all
    .ok all

/-- The order of two lists of keys: that of the first column in which they differ, in its
direction. -/
def compareKeys : List SortKey → List Value → List Value → Ordering
  | key :: keys, a :: as, b :: bs =>
    let order := match a.order b with
      | .ok order => order
      -- `checkAgainst` lets no such keys through.
      | .error _ => .eq
    let order := match key.direction with
      | .ascending => order
      | .descending => order.swap
    match order with
    | .eq => compareKeys keys as bs
    | order => order
  | _, _, _ => .eq

def compareKeyed (comparator : Comparator) (a b : Keyed) : Ordering :=
  compareKeys comparator.keys a.keys b.keys

end Comparator

/-! ## Sorting -/

section Sorting

variable {α : Type} (less : α → α → Bool)

/-- Puts a value into a list that is sorted from the greatest to the least, in front of
its equals. -/
def insertBehind (value : α) : List α → List α
  | [] => [value]
  | top :: rest => if less value top then top :: insertBehind value rest else value :: top :: rest

/-- Sorts by insertion from the left, each value being moved down past the greater ones.
Equals keep their order. -/
def insertionSort (values : List α) : List α :=
  (values.foldl (fun sorted value => insertBehind less value sorted) []).reverse

/-- Lists up to this length are sorted by insertion. -/
def insertionLimit : Nat := 20

/-- Sorts so that equals keep their order: short lists by insertion, long ones by
merging. -/
def sortStable (values : List α) : List α :=
  if values.length ≤ insertionLimit then insertionSort less values
  else values.mergeSort fun a b => !less b a

end Sorting

namespace Comparator

def sort (cap : Nat) (comparator : Comparator) (elements : List Value) :
    Except RunError (List Value) := do
  let keyed ← comparator.keyed cap elements
  .ok ((sortStable (fun a b => comparator.compareKeyed a b == .lt) keyed).map Keyed.element)

/-- Whether an element takes the place of the best one before it. -/
def beats (comparator : Comparator) (extreme : Extreme) (keyed best : Keyed) : Bool :=
  match extreme with
  | .max => comparator.compareKeyed keyed best == .gt
  | .min => comparator.compareKeyed keyed best == .lt

/-- The first of the elements at one end of the order. -/
def extreme (cap : Nat) (comparator : Comparator) (extreme : Extreme)
    (elements : List Value) : Except RunError Value := do
  let keyed ← comparator.keyed cap elements
  match keyed with
  | [] => .error (.emptyInput extreme)
  | first :: rest =>
    let best := rest.foldl
      (fun best keyed => if comparator.beats extreme keyed best then keyed else best) first
    .ok best.element

end Comparator

end Pipeline
