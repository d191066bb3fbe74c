import TextAdventure.LetterCase
import TextAdventure.Text

/-!
# Typed commands

`Command.parse` reads one line of a player: the verb by a table of German and English forms, then,
as the verb asks, a direction, an object, or an object and a target. Reading never fails; a verb
that is not in the table is kept as `Verb.other`.
-/

namespace TextAdventure

/-- What a command asks for. -/
inductive Verb where
  | go
  | take
  | inspect
  | look
  | use
  | openUp
  | close
  | push
  | pull
  | attack
  | combine
  | inventory
  | help
  /-- A first word that the table does not have. -/
  | other (word : String)
  deriving DecidableEq, Repr

/-- The four directions of the compass. -/
inductive Direction where
  | north
  | south
  | east
  | west
  deriving DecidableEq, Repr

/-- A command of a player. -/
structure Command where
  verb : Verb
  /-- What the verb acts on, in the words of the player. -/
  object : Option String
  /-- What the object is combined with. -/
  target : Option String
  /-- Where to go. -/
  direction : Option Direction
  /-- The line as it was typed. -/
  raw : String
  deriving DecidableEq, Repr

namespace Verb

/-- The canonical name of a verb; an unknown verb is its own name. -/
def name : Verb → String
  | go => "go"
  | take => "take"
  | inspect => "inspect"
  | look => "look"
  | use => "use"
  | openUp => "open"
  | close => "close"
  | push => "push"
  | pull => "pull"
  | attack => "attack"
  | combine => "combine"
  | inventory => "inventory"
  | help => "help"
  | other word => word

/-- The forms of each verb. A line is read by the first verb that has a form for it. -/
def vocabulary : List (Verb × List String) :=
  [(go, ["geh", "gehe", "gehe nach", "gehe zu", "go", "lauf", "laufe", "reise", "n", "s", "o", "w",
      "nord", "sued", "ost", "west"]),
    (take, ["nimm", "nehmen", "hole", "grab", "pick"]),
    (inspect, ["untersuche", "untersuchen", "inspect", "schau", "schau an", "ansehen", "look"]),
    (look, ["umschauen", "umsehen"]),
    (use, ["benutze", "nutze", "verwende", "use"]),
    (openUp, ["öffne", "oeffne", "open"]),
    (close, ["schließe", "schliesse", "close"]),
    (push, ["drücke", "druecke", "schiebe", "push"]),
    (pull, ["ziehe", "pull"]),
    (attack, ["angriff", "angreifen", "attack", "schlag", "kämpfe", "kaempfe"]),
    (combine, ["kombiniere", "combine"]),
    (inventory, ["inventar", "tasche", "beutel", "i", "inv", "rucksack"]),
    (help, ["hilfe", "help"])]

/-- Whether a line is the form, or begins with the form and a space. -/
def beginsWith (form line : String) : Bool :=
  line == form || (form.toList ++ [' ']).isPrefixOf line.toList

/-- The verb of a lower-case line, if the table has it. -/
def ofLine? (line : String) : Option Verb :=
  (vocabulary.find? fun entry => entry.2.any (beginsWith · line)).map (·.1)

end Verb

namespace Direction

/-- The name of a direction, as the exits of a room use it. -/
def name : Direction → String
  | north => "nord"
  | south => "sued"
  | east => "ost"
  | west => "west"

/-- The direction that a word stands for: a name or its first letter. -/
def ofWord? (word : String) : Option Direction :=
  if word == "n" || word == "nord" then some north
  else if word == "s" || word == "sued" then some south
  else if word == "o" || word == "ost" then some east
  else if word == "w" || word == "west" then some west
  else none

end Direction

namespace Command

/-- Whether a word separates the two halves of a combination. -/
def isConnective (word : String) : Bool := word == "mit" || word == "with"

/-- The words of a phrase, if there are any. -/
def phraseOf (words : List String) : Option String :=
  if words.isEmpty then none else some (" ".intercalate words)

/-- The two halves of a combination, cut at the first connective that has a word on either side. The
first half is extended by the words already passed, which are given backwards. -/
def splitFrom (passed : List String) : List String → Option (List String × List String)
  | word :: next :: rest =>
    if isConnective word && !passed.isEmpty then some (passed.reverse, next :: rest)
    else splitFrom (word :: passed) (next :: rest)
  | _ => none

/-- The two halves of a combination. -/
def splitCombination (words : List String) : Option (List String × List String) :=
  splitFrom [] words

/-- The object, target and direction that the words of a line give to a verb. -/
def arguments (verb : Verb) (words : List String) :
    Option String × Option String × Option Direction :=
  let rest := words.drop 1
  match verb with
  | .combine =>
    match splitCombination rest with
    | some (source, target) => (phraseOf source, phraseOf target, none)
    | none => (phraseOf rest, none, none)
  | .go =>
    match words.findSome? Direction.ofWord? with
    | some direction => (none, none, some direction)
    | none => (rest.head?, none, none)
  | _ => (phraseOf rest, none, none)

/-- The direction that a line gives when it is a single word. -/
def soleDirection? : List String → Option Direction
  | [word] => Direction.ofWord? word
  | _ => none

/-- The command that a line means. -/
def parse (text : String) : Command :=
  let line := LetterCase.lower (Text.trim text)
  let words := Text.words line
  match soleDirection? words with
  | some direction => ⟨.go, none, none, some direction, text⟩
  | none =>
    let verb := (Verb.ofLine? line).getD (.other (words.head?.getD ""))
    let (object, target, direction) := arguments verb words
    ⟨verb, object, target, direction, text⟩

end Command

end TextAdventure
