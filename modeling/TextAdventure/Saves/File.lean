import TextAdventure.Json.Reader
import TextAdventure.Json.Writer
import TextAdventure.Saves

/-!
# Stores as files

The file of a store is a JSON object with a text for each key. Saves are texts, so nothing that a
game has saved is lost; a file that is no such object is an empty store.
-/

namespace TextAdventure.Saves

/-- The name of the file of a store in its folder. -/
def fileName : String := "saves.json"

/-- The saves that are texts, as a value. -/
def toJson (s : Saves) : Json :=
  .object (s.entries.entries.filterMap fun e =>
    (String.fromUTF8? e.2).map fun text => (e.1, .string text))

/-- The file of a store. -/
def fileText (s : Saves) : String := s.toJson.prettyText ++ "\n"

/-- The store with the saves that a value holds. -/
def ofJson : Json → Saves
  | .object fields =>
    { empty with
      entries := Table.ofList (fields.filterMap fun f => f.2.string?.map fun s => (f.1, s.toUTF8)) }
  | _ => empty

/-- The store of a file. -/
def ofFileText (text : String) : Saves := ((Json.ofText? text).map ofJson).getD empty

end TextAdventure.Saves
