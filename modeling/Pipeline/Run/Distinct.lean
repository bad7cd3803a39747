import Std.Data.HashMap
import Pipeline.Value

/-!
# Distinct elements

The first of every class of equal elements. Elements are looked up by a fingerprint, and
only those with the same fingerprint are compared, so equal elements must have equal
fingerprints. This holds for every hash function, because the fingerprint is taken of an
imprint that equal elements share.
-/

set_option autoImplicit false

namespace Pipeline

inductive Mark where
  | word (value : UInt64)
  | text (value : String)
deriving DecidableEq

namespace Mark

/-- The imprint of a double, in which the two zeros are the same. -/
def ofDouble (x : Double) : Mark :=
  word (if x.isZero then 0 else x.bits)

def ofScalar : Scalar → List Mark
  | .number (.integer n) => [word 0, word n.toUInt64]
  | .number (.float x) => [word 1, ofDouble x]
  | .boolean b => [word 2, word b.toUInt64]
  | .text s => [word 3, text s]

def ofKey : Key → List Mark
  | .boolean b => [word 0, word b.toUInt64]
  | .integer n => [word 1, word n.toUInt64]
  | .text s => [word 2, text s]

mutual

/-- The imprint of a value: its kind and size, and the imprints of its parts. -/
def ofValue : Value → List Mark
  | .scalar s => ofScalar s
  | .list items => word 4 :: word items.length.toUInt64 :: ofItems items
  | .map entries => word 5 :: word entries.length.toUInt64 :: ofEntries entries
  | .record r => word 6 :: text r.schema.name :: r.values.flatMap ofScalar
termination_by structural value => value

def ofItems : List Value → List Mark
  | [] => []
  | item :: rest => ofValue item ++ ofItems rest
termination_by structural items => items

def ofEntries : List (Key × Value) → List Mark
  | [] => []
  | (key, value) :: rest => ofKey key ++ (ofValue value ++ ofEntries rest)
termination_by structural entries => entries

end

def mix (hash word : UInt64) : UInt64 :=
  ((hash <<< 5 ||| hash >>> 59) ^^^ word) * 0x517cc1b727220a95

/-- The hash of an imprint. -/
def hashAll (marks : List Mark) : UInt64 :=
  marks.foldl (fun hash mark =>
    match mark with
    | word value => mix hash value
    | text value => value.foldl (fun hash c => mix hash c.val.toUInt64) (mix hash 0)) 0

end Mark

/-- The elements seen so far: by fingerprint, and those kept, last one first. -/
structure Seen where
  buckets : Std.HashMap UInt64 (List Value)
  kept : List Value

/-- Keeps an element unless it equals one with the same fingerprint. -/
def Seen.add (hash : List Mark → UInt64) (seen : Seen) (value : Value) : Seen :=
  let fingerprint := hash (Mark.ofValue value)
  let bucket := seen.buckets.getD fingerprint []
  if bucket.any (·.same value) then seen
  else ⟨seen.buckets.insert fingerprint (value :: bucket), value :: seen.kept⟩

/-- The elements without those that equal an earlier one. -/
def distinctBy (hash : List Mark → UInt64) (values : List Value) : List Value :=
  (values.foldl (Seen.add hash) ⟨∅, []⟩).kept.reverse

end Pipeline
