import TextAdventure.LetterCase
import TextAdventure.Text

/-!
# Phrases and the ids they mean

A player names a thing by words of its id. A phrase is lower-cased and its words are joined by
underscores; it means the first id, in the order of the list, whose lower-case form contains it.
-/

namespace TextAdventure.Phrase

/-- The phrase in the spelling of ids. -/
def normalize (phrase : String) : String :=
  "_".intercalate ((Text.words phrase).map LetterCase.lower)

/-- Whether a phrase in the spelling of ids occurs in the id. An empty phrase matches nothing. -/
def isMatch (normalized id : String) : Bool :=
  !normalized.toList.isEmpty &&
    Text.occursIn normalized.toList (LetterCase.lowerList id.toList)

/-- The first of the ids that the phrase means. -/
def resolve (phrase : String) (ids : List String) : Option String :=
  ids.find? (isMatch (normalize phrase))

end TextAdventure.Phrase
