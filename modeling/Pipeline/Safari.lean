import Pipeline.Catalogue

/-!
# The safari riddles

The riddles that come with the language: nine puzzles, eight of them about the animals
of a safari.
-/

set_option autoImplicit false

namespace Pipeline.Safari

/-- The record type of animals, ordered by age. -/
def animalSchema : Schema where
  name := "SafariAnimal"
  fields :=
    [⟨"name", .text⟩, ⟨"species", .text⟩, ⟨"animalClass", .text⟩, ⟨"age", .number⟩,
      ⟨"weight", .number⟩, ⟨"predator", .boolean⟩]
  naturalKey := some "age"

def mammal (name species : String) (age weight : Int64) (predator : Bool) : Record where
  schema := animalSchema
  values :=
    [.text name, .text species, .text "MAMMAL", .number (.integer age),
      .number (.integer weight), .boolean predator]

/-- One of the animals. -/
def henno : Record := mammal "Henno the Hyena" "HYENA" 8 60 true

def zembet : Record := mammal "Zembet the Zebra" "ZEBRA" 10 300 false

def leo : Record := mammal "Leo the Lion" "LION" 12 190 true

def gigi : Record := mammal "Gigi the Giraffe" "GIRAFFE" 15 800 false

def ello : Record := mammal "Ello the Elephant" "ELEPHANT" 25 6000 false

def hakka : Record := mammal "Hakka the Hyena" "HYENA" 6 55 true

def zuri : Record := mammal "Zuri the Zebra" "ZEBRA" 7 280 false

def luma : Record := mammal "Luma the Lion" "LION" 9 170 true

def garo : Record := mammal "Garo the Giraffe" "GIRAFFE" 5 600 false

def motu : Record := mammal "Motu the Elephant" "ELEPHANT" 30 6500 false

def animals : List Record :=
  [henno, zembet, leo, gigi, ello, hakka, zuri, luma, garo, motu]

def datasetOf (animals : List Record) : Dataset where
  elementType := .record animalSchema
  elements := animals.map .record

def listOf (animals : List Record) : Output :=
  .list (animals.map .record)

/-- A riddle about all animals. -/
def riddleOf (id description : String) (expected : Output) : Riddle :=
  ⟨id, description, datasetOf animals, expected⟩

def integer (n : Int64) : Output := .number (.integer n)

def riddles : List Riddle :=
  [riddleOf "1" "Order animals by age (youngest first)"
      (listOf [garo, hakka, zuri, henno, luma, zembet, leo, gigi, ello, motu]),
    ⟨"2", "Remove duplicate animals", datasetOf [henno, zembet, henno, gigi, gigi],
      listOf [henno, zembet, gigi]⟩,
    riddleOf "3" "Shout the name of every animal (upper case)"
      (.list [.text "HENNO THE HYENA", .text "ZEMBET THE ZEBRA", .text "LEO THE LION",
        .text "GIGI THE GIRAFFE", .text "ELLO THE ELEPHANT", .text "HAKKA THE HYENA",
        .text "ZURI THE ZEBRA", .text "LUMA THE LION", .text "GARO THE GIRAFFE",
        .text "MOTU THE ELEPHANT"]),
    riddleOf "4" "Find the heaviest animal" (.record motu),
    riddleOf "5" "Get the weight of all animals combined" (integer 14955),
    riddleOf "6" "Find all predators" (listOf [henno, leo, hakka, luma]),
    riddleOf "7" "Find the heaviest animal per species"
      (.map [(.text "ELEPHANT", .record motu), (.text "GIRAFFE", .record gigi),
        (.text "HYENA", .record henno), (.text "LION", .record leo),
        (.text "ZEBRA", .record zembet)]),
    riddleOf "8" "Group animals into weight ranges: 0-200, 200-500, 500-1000, 1000+"
      (.map [(.text "0-200", listOf [henno, leo, hakka, luma]),
        (.text "1000+", listOf [ello, motu]), (.text "200-500", listOf [zembet, zuri]),
        (.text "500-1000", listOf [gigi, garo])]),
    ⟨"9", "Sort the numbers and drop repeats",
      ⟨.number, [.integer 5, .integer 2, .integer 9, .integer 1, .integer 2, .integer 5]⟩,
      .list [integer 1, integer 2, integer 5, integer 9]⟩]

def catalogue : Catalogue := ⟨riddles⟩

end Pipeline.Safari
