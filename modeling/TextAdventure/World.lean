import TextAdventure.Document

/-!
# The world document

What an adventure says about itself as a whole: where it starts, which flags are set at the start,
and the lines with which it answers what cannot be done.
-/

namespace TextAdventure

/-- The lines that answer commands without effect. -/
structure Messages where
  cannotGo : String
  cannotTake : String
  unknownCommand : String
  pathBlocked : String
  notPickable : String
  nothingSpecial : String
  missingItem : String
  cannotCombine : String
  inventoryEmpty : String
  combatInProgress : String
  combatRefusal : String
  deriving DecidableEq, Repr

namespace Messages

/-- The lines of a world that does not write its own. -/
def standard : Messages where
  cannotGo := "Da geht es nicht weiter."
  cannotTake := "Das kannst du nicht nehmen."
  unknownCommand := "Unbekannter Befehl."
  pathBlocked := "Der Weg ist versperrt."
  notPickable := "Das lässt sich nicht mitnehmen."
  nothingSpecial := "Nichts Besonderes."
  missingItem := "Dir fehlt ein benötigtes Item."
  cannotCombine := "Das lässt sich nicht kombinieren."
  inventoryEmpty := "Dein Inventar ist leer."
  combatInProgress := "Du bist im Kampf! Nutze \"attack\" oder passende Befehle."
  combatRefusal := "Hier gibt es nichts zu bekämpfen."

/-- The fields of the messages, in the order in which they are written. -/
def fieldNames : List String :=
  ["cannotGo", "cannotTake", "unknownCommand", "pathBlocked", "notPickable", "nothingSpecial",
    "missingItem", "cannotCombine", "inventoryEmpty", "combatInProgress", "combatRefusal"]

/-- Reads messages. Those that are left out are the standard ones, and the refusal of a fight has a
second name. -/
def ofTree? (t : Json.Tree) : Option Messages := do
  let r ← t.record? fieldNames 0
  let line (name standard : String) := r.withDefault name standard Json.Tree.string?
  return {
    cannotGo := ← line "cannotGo" standard.cannotGo
    cannotTake := ← line "cannotTake" standard.cannotTake
    unknownCommand := ← line "unknownCommand" standard.unknownCommand
    pathBlocked := ← line "pathBlocked" standard.pathBlocked
    notPickable := ← line "notPickable" standard.notPickable
    nothingSpecial := ← line "nothingSpecial" standard.nothingSpecial
    missingItem := ← line "missingItem" standard.missingItem
    cannotCombine := ← line "cannotCombine" standard.cannotCombine
    inventoryEmpty := ← line "inventoryEmpty" standard.inventoryEmpty
    combatInProgress := ← line "combatInProgress" standard.combatInProgress
    combatRefusal := ← r.among ["combatRefusal", "noEnemy"] standard.combatRefusal
      Json.Tree.string? }

/-- The value that is written for messages. -/
def toJson (m : Messages) : Json :=
  .object [("cannotGo", .string m.cannotGo), ("cannotTake", .string m.cannotTake),
    ("unknownCommand", .string m.unknownCommand), ("pathBlocked", .string m.pathBlocked),
    ("notPickable", .string m.notPickable), ("nothingSpecial", .string m.nothingSpecial),
    ("missingItem", .string m.missingItem), ("cannotCombine", .string m.cannotCombine),
    ("inventoryEmpty", .string m.inventoryEmpty),
    ("combatInProgress", .string m.combatInProgress),
    ("combatRefusal", .string m.combatRefusal)]

instance : Document Messages := ⟨ofTree?, toJson⟩

end Messages

/-- The world of an adventure. -/
structure World where
  id : String
  title : String
  /-- The id of the room in which the adventure starts. -/
  startRoom : String
  /-- The flags that are set when the adventure starts. -/
  globalFlags : Table Json
  messages : Messages

namespace World

/-- The fields of a world, in the order in which they are written. -/
def fieldNames : List String := ["id", "title", "startRoom", "globalFlags", "messages"]

/-- Reads a world. -/
def ofTree? (t : Json.Tree) : Option World := do
  let r ← t.record? fieldNames 0
  return {
    id := ← r.withDefault "id" "" Json.Tree.string?
    title := ← r.withDefault "title" "" Json.Tree.string?
    startRoom := ← r.required "startRoom" Json.Tree.string?
    globalFlags := ← r.withDefault "globalFlags" .empty (Json.Tree.table? Json.Tree.toJson?)
    messages := ← r.withDefault "messages" .standard Messages.ofTree? }

/-- The value that is written for a world. -/
def toJson (w : World) : Json :=
  .object [("id", .string w.id), ("title", .string w.title), ("startRoom", .string w.startRoom),
    ("globalFlags", .ofTable (fun v => v) w.globalFlags), ("messages", w.messages.toJson)]

instance : Document World := ⟨ofTree?, toJson⟩

end World

end TextAdventure
