import Pipeline.Text.Mark
import Pipeline.Text.Numeric
import Pipeline.Text.Recent

/-!
# Words

The characters of which words are made, and the search for whole words in a text.
A word is whole where a character of a word meets one that is none, or the text
ends.
-/

set_option autoImplicit false

namespace Pipeline.Text

/-- A character of a word: a letter, a mark or a decimal digit of version 16 of
Unicode, a connector such as the underscore, or one of the two joiners. -/
def isWordChar (c : Char) : Bool :=
  ((isLetter c || mark.contains c || decimalDigit.contains c) && !recent.contains c) ||
    connector.contains c || c == '\u200c' || c == '\u200d'

def startsInWord : List Char → Bool
  | [] => false
  | c :: _ => isWordChar c

/-- Whether a word boundary lies between a character, if there is one, and the text
that follows it. -/
def atBoundary (before : Option Char) (after : List Char) : Bool :=
  before.any isWordChar != startsInWord after

/-- Whether the text starts with the given word as a whole word; `before` is the
character that precedes the text. -/
def startsWithWord (before : Option Char) (text word : List Char) : Bool :=
  word.isPrefixOf text && atBoundary before text &&
    atBoundary (word.getLast?.or before) (text.drop word.length)

/-- The first of the given words that stands whole in the text, by place in the text
and, at one place, by place in the list of words. -/
def firstWord? (words : List String) : Option Char → List Char → Option String
  | before, [] => words.find? fun word => startsWithWord before [] word.toList
  | before, c :: rest =>
    match words.find? fun word => startsWithWord before (c :: rest) word.toList with
    | some word => some word
    | none => firstWord? words (some c) rest

end Pipeline.Text
