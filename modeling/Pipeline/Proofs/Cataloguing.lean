import Mathlib
import Pipeline.Catalogue
import Pipeline.Proofs.Except
import Pipeline.Proofs.Lookup

/-! Which entries make up a catalogue, what it then holds, and the error of the others: that of the
first entry that denotes no riddle, or else that of the first identifier that is repeated. -/

set_option autoImplicit false

namespace Pipeline

/-! ## Riddles in order -/

namespace Catalogue

/-- The riddles are in the order of their identifiers, so no two have the same one. -/
def Ordered (riddles : List Riddle) : Prop :=
  riddles.Pairwise fun first second => compare first.id second.id = .lt

theorem ne_of_compare {first second : String} (less : compare first second = .lt) :
    first ≠ second := by
  intro same
  rw [same, Std.ReflOrd.compare_self] at less
  cases less

theorem Ordered.nodup {riddles : List Riddle} (ordered : Ordered riddles) :
    (riddles.map Riddle.id).Nodup :=
  List.pairwise_map.2 (ordered.imp ne_of_compare)

theorem insert_cases (riddle : Riddle) {riddles : List Riddle} (ordered : Ordered riddles) :
    (∃ others, insert riddle riddles = .ok others ∧ Ordered others ∧
      others.Perm (riddle :: riddles)) ∨
      insert riddle riddles = .error (.duplicateId riddle.id) ∧
        riddle.id ∈ riddles.map Riddle.id := by
  induction riddles with
  | nil => exact .inl ⟨[riddle], rfl, List.pairwise_singleton _ _, .refl _⟩
  | cons first rest ih =>
      obtain ⟨front, behind⟩ := List.pairwise_cons.1 ordered
      rw [insert]
      split
      · rename_i less
        refine .inl ⟨_, rfl, List.pairwise_cons.2 ⟨fun other member => ?_, ordered⟩, .refl _⟩
        rcases List.mem_cons.1 member with rfl | later
        · exact less
        · exact Std.TransCmp.lt_trans less (front other later)
      · rename_i same
        rw [Std.LawfulEqOrd.eq_of_compare same]
        exact .inr ⟨rfl, .head _⟩
      · rename_i greater
        rcases ih behind with ⟨others, inserted, orderedOthers, perm⟩ | ⟨failed, member⟩
        · have swapped : (first :: others).Perm (riddle :: first :: rest) :=
            (perm.cons first).trans (.swap riddle first rest)
          refine .inl ⟨first :: others, by rw [inserted]; rfl, ?_, swapped⟩
          refine List.pairwise_cons.2 ⟨fun other member => ?_, orderedOthers⟩
          rcases List.mem_cons.1 (perm.mem_iff.1 member) with rfl | later
          · exact Std.OrientedCmp.gt_iff_lt.1 greater
          · exact front other later
        · exact .inr ⟨by rw [failed]; rfl, List.mem_cons_of_mem _ member⟩

/-- The identifier is the first in a list that stands before it already. -/
def FirstRepeated (id : String) (ids : List String) : Prop :=
  ∃ front behind, ids = front ++ id :: behind ∧ front.Nodup ∧ id ∈ front

theorem FirstRepeated.not_nodup {id : String} {ids : List String}
    (repeated : FirstRepeated id ids) : ¬ ids.Nodup := by
  intro nodup
  obtain ⟨front, behind, rfl, _, member⟩ := repeated
  exact (List.nodup_append.1 nodup).2.2 id member id (.head _) rfl

theorem foldlM_insert_cases (riddles : List Riddle) {before : List Riddle}
    (ordered : Ordered before) :
    (∃ after, riddles.foldlM (fun ordered riddle => insert riddle ordered) before = .ok after ∧
      Ordered after ∧ after.Perm (riddles ++ before)) ∨
      ∃ front id behind, riddles.foldlM (fun ordered riddle => insert riddle ordered) before =
          .error (.duplicateId id) ∧ riddles.map Riddle.id = front ++ id :: behind ∧
        (front ++ before.map Riddle.id).Nodup ∧ id ∈ front ++ before.map Riddle.id := by
  induction riddles generalizing before with
  | nil => exact .inl ⟨before, rfl, ordered, .refl _⟩
  | cons riddle rest ih =>
      rw [List.foldlM_cons]
      rcases insert_cases riddle ordered with ⟨next, inserted, orderedNext, perm⟩ | ⟨failed, member⟩
      · rw [inserted]
        -- What has been put in already counts as standing in front of the rest.
        have moved : ∀ front : List String, (front ++ next.map Riddle.id).Perm
            (riddle.id :: front ++ before.map Riddle.id) := fun front =>
          ((perm.map Riddle.id).append_left front).trans List.perm_middle
        rcases ih orderedNext with
          ⟨after, folded, orderedAfter, all⟩ | ⟨front, id, behind, failed, ids, nodup, member⟩
        · exact .inl ⟨after, folded, orderedAfter,
            all.trans ((perm.append_left rest).trans List.perm_middle)⟩
        · exact .inr ⟨riddle.id :: front, id, behind, failed, congrArg (riddle.id :: ·) ids,
            (moved front).nodup_iff.1 nodup, (moved front).mem_iff.1 member⟩
      · exact .inr ⟨[], riddle.id, rest.map Riddle.id, by rw [failed]; rfl, rfl, ordered.nodup,
          member⟩

theorem ofRiddles_cases (riddles : List Riddle) :
    (∃ catalogue, ofRiddles riddles = .ok catalogue ∧ Ordered catalogue.riddles ∧
      catalogue.riddles.Perm riddles) ∨
      ∃ id, ofRiddles riddles = .error (.duplicateId id) ∧
        FirstRepeated id (riddles.map Riddle.id) := by
  rw [ofRiddles]
  rcases foldlM_insert_cases riddles .nil with
    ⟨after, folded, ordered, perm⟩ | ⟨front, id, behind, failed, ids, nodup, member⟩
  · rw [List.append_nil] at perm
    exact .inl ⟨⟨after⟩, by rw [folded]; rfl, ordered, perm⟩
  · rw [List.map_nil, List.append_nil] at nodup member
    exact .inr ⟨id, by rw [failed]; rfl, front, behind, ids, nodup, member⟩

theorem of_ofRiddles {riddles : List Riddle} {catalogue : Catalogue}
    (made : ofRiddles riddles = .ok catalogue) :
    Ordered catalogue.riddles ∧ catalogue.riddles.Perm riddles := by
  rcases ofRiddles_cases riddles with ⟨found, ok, result⟩ | ⟨id, failed, _⟩
  · obtain rfl : found = catalogue := Except.ok.inj (ok.symm.trans made)
    exact result
  · exact nomatch failed.symm.trans made

theorem find_of_mem {catalogue : Catalogue} (ordered : Ordered catalogue.riddles) {riddle : Riddle}
    (member : riddle ∈ catalogue.riddles) : catalogue.find riddle.id = .ok riddle := by
  have found : ∀ riddles : List Riddle, Ordered riddles → riddle ∈ riddles →
      riddles.find? (·.id == riddle.id) = some riddle := by
    intro riddles
    induction riddles with
    | nil => exact fun _ member => nomatch member
    | cons first rest ih =>
        intro ordered member
        obtain ⟨front, behind⟩ := List.pairwise_cons.1 ordered
        rcases List.mem_cons.1 member with rfl | later
        · exact List.find?_cons_of_pos (beq_self_eq_true _)
        · have apart : first.id ≠ riddle.id := ne_of_compare (front riddle later)
          rw [List.find?_cons_of_neg (by simpa using apart)]
          exact ih behind later
  rw [find, found _ ordered member]

theorem find_of_not_mem {catalogue : Catalogue} {id : String}
    (absent : id ∉ catalogue.riddles.map Riddle.id) :
    catalogue.find id = .error (.notFound id) := by
  have missed : catalogue.riddles.find? (·.id == id) = none := by
    rw [List.find?_eq_none]
    intro riddle member same
    exact absent (List.mem_map.2 ⟨riddle, member, beq_iff_eq.1 same⟩)
  rw [find, missed]

end Catalogue

/-! ## Entries -/

namespace RiddleEntry

/-- The riddle has the identifier and the description of the entry, and its dataset and expected
output are what the JSON of the entry is read as. -/
structure Decodes (entry : RiddleEntry) (riddle : Riddle) : Prop where
  id : riddle.id = entry.id
  description : riddle.description = entry.description
  dataset : Dataset.ofJson entry.input entry.recordName entry.naturalKey = .ok riddle.dataset
  expected : Output.ofJson riddle.dataset.elementType entry.expectedOutput = .ok riddle.expected

/-- The error of an entry that denotes no riddle: that of its dataset, or else that of its expected
output. -/
inductive Fails (entry : RiddleEntry) : SchemaError → Prop where
  | dataset {error : SchemaError}
      (failed : Dataset.ofJson entry.input entry.recordName entry.naturalKey = .error error) :
      Fails entry error
  | expected {dataset : Dataset} {error : SchemaError}
      (decoded : Dataset.ofJson entry.input entry.recordName entry.naturalKey = .ok dataset)
      (failed : Output.ofJson dataset.elementType entry.expectedOutput = .error error) :
      Fails entry error

theorem riddle_cases (entry : RiddleEntry) :
    (∃ riddle, entry.riddle = .ok riddle ∧ entry.Decodes riddle) ∨
      ∃ error, entry.riddle = .error error ∧ entry.Fails error := by
  rw [riddle]
  cases decoded : Dataset.ofJson entry.input entry.recordName entry.naturalKey with
  | error error => exact .inr ⟨error, rfl, .dataset decoded⟩
  | ok dataset =>
      cases expected : Output.ofJson dataset.elementType entry.expectedOutput with
      | error error =>
          refine .inr ⟨error, ?_, .expected decoded expected⟩
          simp only [bind, Except.bind, expected]
      | ok output =>
          have decodes : entry.Decodes ⟨entry.id, entry.description, dataset, output⟩ :=
            ⟨rfl, rfl, decoded, expected⟩
          refine .inl ⟨_, ?_, decodes⟩
          simp only [bind, Except.bind, expected]

theorem Decodes.eq {entry : RiddleEntry} {riddle other : Riddle} (decoded : entry.Decodes riddle)
    (again : entry.Decodes other) : riddle = other := by
  have dataset : riddle.dataset = other.dataset :=
    Except.ok.inj (decoded.dataset.symm.trans again.dataset)
  have expected : riddle.expected = other.expected :=
    Except.ok.inj (decoded.expected.symm.trans (dataset ▸ again.expected))
  cases riddle
  cases other
  cases decoded.id.trans again.id.symm
  cases decoded.description.trans again.description.symm
  cases dataset
  cases expected
  rfl

theorem Decodes.not_fails {entry : RiddleEntry} {riddle : Riddle} (decoded : entry.Decodes riddle)
    {error : SchemaError} : ¬ entry.Fails error := by
  intro fails
  cases fails with
  | dataset failed => exact nomatch decoded.dataset.symm.trans failed
  | expected other failed =>
      cases Except.ok.inj (decoded.dataset.symm.trans other)
      exact nomatch decoded.expected.symm.trans failed

/-- The entry is the first of a list that denotes no riddle, with the error. -/
def FirstFailing (entry : RiddleEntry) (error : SchemaError) (entries : List RiddleEntry) : Prop :=
  ∃ front behind, entries = front ++ entry :: behind ∧
    (∀ earlier ∈ front, ∃ riddle, earlier.Decodes riddle) ∧ entry.Fails error

theorem riddles_cases (entries : List RiddleEntry) :
    (∃ found, riddles entries = .ok found ∧
      List.Forall₂ (fun riddle entry => entry.Decodes riddle) found entries) ∨
      ∃ (entry : RiddleEntry) (error : SchemaError),
        riddles entries = .error (.schema entry.id error) ∧ entry.FirstFailing error entries := by
  induction entries with
  | nil => exact .inl ⟨[], rfl, .nil⟩
  | cons entry rest ih =>
      rw [riddles]
      rcases entry.riddle_cases with ⟨riddle, here, decoded⟩ | ⟨error, here, fails⟩
      · rw [here]
        rcases ih with ⟨found, later, all⟩ | ⟨other, error, later, front, behind, split, ih, fails⟩
        · exact .inl ⟨riddle :: found, by rw [later]; rfl, .cons decoded all⟩
        · refine .inr ⟨other, error, by rw [later]; rfl, entry :: front, behind, ?_, ?_, fails⟩
          · rw [split, List.cons_append]
          · exact List.forall_mem_cons.2 ⟨⟨riddle, decoded⟩, ih⟩
      · rw [here]
        exact .inr ⟨entry, error, rfl, [], rest, rfl, List.forall_mem_nil _, fails⟩

theorem forall₂_riddles {entries : List RiddleEntry} {found : List Riddle}
    (decoded : riddles entries = .ok found) :
    List.Forall₂ (fun riddle entry => entry.Decodes riddle) found entries := by
  rcases riddles_cases entries with ⟨others, ok, all⟩ | ⟨entry, error, failed, _⟩
  · obtain rfl : others = found := Except.ok.inj (ok.symm.trans decoded)
    exact all
  · exact nomatch failed.symm.trans decoded

end RiddleEntry

/-! ## Catalogues of entries -/

namespace Catalogue

/-- The catalogue holds the riddle of every entry and no others, in the order of the identifiers, by
which they are found. -/
structure Lists (catalogue : Catalogue) (entries : List RiddleEntry) : Prop where
  length : catalogue.riddles.length = entries.length
  ordered : Ordered catalogue.riddles
  mem_iff : ∀ riddle, riddle ∈ catalogue.riddles ↔ ∃ entry ∈ entries, entry.Decodes riddle
  find : ∀ entry ∈ entries, ∃ riddle, entry.Decodes riddle ∧ catalogue.find entry.id = .ok riddle
  notFound : ∀ id, id ∉ entries.map RiddleEntry.id → catalogue.find id = .error (.notFound id)

/-- The error of entries that make up no catalogue. -/
inductive Rejects (entries : List RiddleEntry) : CatalogueError → Prop where
  | schema {entry : RiddleEntry} {error : SchemaError} (first : entry.FirstFailing error entries) :
      Rejects entries (.schema entry.id error)
  | duplicateId {id : String} (decoded : ∀ entry ∈ entries, ∃ riddle, entry.Decodes riddle)
      (first : FirstRepeated id (entries.map RiddleEntry.id)) :
      Rejects entries (.duplicateId id)

theorem Lists.of_perm {catalogue : Catalogue} {found : List Riddle} {entries : List RiddleEntry}
    (ordered : Ordered catalogue.riddles) (perm : catalogue.riddles.Perm found)
    (decoded : List.Forall₂ (fun riddle entry => entry.Decodes riddle) found entries) :
    catalogue.Lists entries where
  length := perm.length_eq.trans decoded.length_eq
  ordered := ordered
  mem_iff := by
    intro riddle
    rw [perm.mem_iff]
    constructor
    · exact exists_of_forall₂ decoded.flip riddle
    · intro denoted
      obtain ⟨entry, member, decodes⟩ := denoted
      obtain ⟨other, among, again⟩ := exists_of_forall₂ decoded entry member
      exact decodes.eq again ▸ among
  find := by
    intro entry member
    obtain ⟨riddle, among, decodes⟩ := exists_of_forall₂ decoded entry member
    exact ⟨riddle, decodes, decodes.id ▸ find_of_mem ordered (perm.mem_iff.2 among)⟩
  notFound := by
    intro id absent
    have ids : entries.map RiddleEntry.id = found.map Riddle.id :=
      map_eq_of_forall₂ decoded fun _ _ decodes => decodes.id
    exact find_of_not_mem fun member => absent (ids ▸ (perm.map Riddle.id).mem_iff.1 member)

theorem ofEntries_cases (entries : List RiddleEntry) :
    (∃ catalogue, ofEntries entries = .ok catalogue ∧ catalogue.Lists entries ∧
      (entries.map RiddleEntry.id).Nodup) ∨
      ∃ error, ofEntries entries = .error error ∧ Rejects entries error := by
  rw [ofEntries]
  rcases RiddleEntry.riddles_cases entries with
    ⟨found, read, decoded⟩ | ⟨entry, error, failed, first⟩
  · have ids : entries.map RiddleEntry.id = found.map Riddle.id :=
      map_eq_of_forall₂ decoded fun _ _ decodes => decodes.id
    rw [read, ids]
    rcases ofRiddles_cases found with ⟨catalogue, made, ordered, perm⟩ | ⟨id, failed, first⟩
    · exact .inl ⟨catalogue, made, .of_perm ordered perm decoded,
        (perm.map Riddle.id).nodup_iff.1 ordered.nodup⟩
    · refine .inr ⟨.duplicateId id, failed, .duplicateId (fun entry member => ?_) (ids ▸ first)⟩
      obtain ⟨riddle, _, decodes⟩ := exists_of_forall₂ decoded entry member
      exact ⟨riddle, decodes⟩
  · exact .inr ⟨.schema entry.id error, by rw [failed]; rfl, .schema first⟩

theorem Rejects.not_nodup {entries : List RiddleEntry} {error : CatalogueError}
    (rejects : Rejects entries error)
    (decoded : ∀ entry ∈ entries, ∃ riddle, entry.Decodes riddle) :
    ¬ (entries.map RiddleEntry.id).Nodup := by
  cases rejects with
  | schema first =>
      obtain ⟨front, behind, rfl, _, fails⟩ := first
      obtain ⟨riddle, decodes⟩ := decoded _ (List.mem_append_right _ (.head _))
      exact absurd fails decodes.not_fails
  | duplicateId _ first => exact first.not_nodup

/-- The entries of a text make up a catalogue exactly if all of them denote riddles and no two have
the same identifier. The catalogue holds these riddles, and if there is none the error says which
entry or identifier is the first to blame. -/
theorem ofText_lists_or_rejects {text : String} {entries : List RiddleEntry}
    (listed : entries? text = some entries) :
    ((∃ catalogue, ofText text = .ok catalogue) ↔
      (∀ entry ∈ entries, ∃ riddle, entry.Decodes riddle) ∧ (entries.map RiddleEntry.id).Nodup) ∧
      (∀ catalogue, ofText text = .ok catalogue → catalogue.Lists entries) ∧
      ∀ error, ofText text = .error error → Rejects entries error := by
  have whole : ofText text = ofEntries entries := by rw [ofText, listed]
  rw [whole]
  rcases ofEntries_cases entries with ⟨catalogue, made, lists, nodup⟩ | ⟨error, failed, rejects⟩
  · refine ⟨iff_of_true ⟨catalogue, made⟩ ⟨fun entry member => ?_, nodup⟩, ?_, ?_⟩
    · obtain ⟨riddle, decodes, _⟩ := lists.find entry member
      exact ⟨riddle, decodes⟩
    · intro other again
      exact Except.ok.inj (made.symm.trans again) ▸ lists
    · intro error failed
      exact nomatch made.symm.trans failed
  · refine ⟨iff_of_false ?_ fun both => rejects.not_nodup both.1 both.2, ?_, ?_⟩
    · intro loaded
      obtain ⟨catalogue, made⟩ := loaded
      exact nomatch failed.symm.trans made
    · intro catalogue made
      exact nomatch failed.symm.trans made
    · intro other again
      exact Except.error.inj (failed.symm.trans again) ▸ rejects

/-- Two entries as arrays of their members, of which the first has the greater identifier. -/
theorem ofText_lists_or_rejects_unsorted :
    let text := "[[\"b\",\"\",null,null,[\"x\"],\"x\"],[\"a\",\"\",null,null,[\"x\"],[]]]"
    let entries : List RiddleEntry :=
      [⟨"b", "", none, none, .array [.string "x"], .string "x"⟩,
        ⟨"a", "", none, none, .array [.string "x"], .array []⟩]
    entries? text = some entries ∧
      ∃ catalogue, ofText text = .ok catalogue ∧ catalogue.Lists entries := by
  intro text entries
  have listed : entries? text = some entries := by
    simp only [text, entries?, Json.readRaw?, String.reduceToList]
    rfl
  obtain ⟨loads, lists, _⟩ := ofText_lists_or_rejects listed
  have decoded : ∀ entry ∈ entries, ∃ riddle, entry.Decodes riddle := by
    refine List.forall_mem_cons.2 ⟨?_, List.forall_mem_singleton.2 ?_⟩
    · exact ⟨⟨"b", "", ⟨.text, [.text "x"]⟩, .text "x"⟩, rfl, rfl, rfl, rfl⟩
    · exact ⟨⟨"a", "", ⟨.text, [.text "x"]⟩, .list []⟩, rfl, rfl, rfl, rfl⟩
  obtain ⟨catalogue, made⟩ := loads.2 ⟨decoded, by decide⟩
  exact ⟨listed, catalogue, made, lists catalogue made⟩

end Catalogue

end Pipeline
