import TextAdventure.Document

/-!
# Strength in a fight

The three numbers of a fighter. A document that leaves some of them out gets 1, 1 and 0, while a
player whose strength nobody sets starts with 12, 2 and 1.
-/

namespace TextAdventure

/-- The strength of the player or of an enemy. -/
structure Stats where
  /-- How much damage the fighter still takes. -/
  hp : Int32
  attack : Int32
  defense : Int32
  deriving DecidableEq, Repr

namespace Stats

/-- The strength of a new player, unless it is configured. -/
def starting : Stats := ⟨12, 2, 1⟩

/-- The fields of a strength, in the order in which they are written. -/
def fieldNames : List String := ["hp", "attack", "defense"]

/-- Reads a strength from its fields. -/
def ofRecord? (r : Json.Record Json.Tree) : Option Stats := do
  return {
    hp := ← r.withDefault "hp" 1 Json.Tree.int32?
    attack := ← r.withDefault "attack" 1 Json.Tree.int32?
    defense := ← r.withDefault "defense" 0 Json.Tree.int32? }

/-- Reads a strength. -/
def ofTree? (t : Json.Tree) : Option Stats := (t.record? fieldNames 0).bind ofRecord?

/-- The value that is written for a strength. -/
def toJson (s : Stats) : Json :=
  .object [("hp", .ofInt32 s.hp), ("attack", .ofInt32 s.attack), ("defense", .ofInt32 s.defense)]

instance : Document Stats := ⟨ofTree?, toJson⟩

end Stats

end TextAdventure
