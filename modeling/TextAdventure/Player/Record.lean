import TextAdventure.Player

/-!
# Saved players

A save is the text of a player. Reading it is lenient where versions of the program may differ: each
field may be missing, and then the player keeps what it had (`SaveRecord.apply`). What is not a JSON
object, or gives a known field a value of the wrong kind, is no save.
-/

namespace TextAdventure

/-- What a save says about a player. -/
structure SaveRecord where
  location : Option String
  inventory : Option (List String)
  flags : Option (Table Json)
  stats : Option Stats
  inCombat : Option Bool
  /-- A save may say nothing about the enemy, or that there is none, or which one it is. -/
  enemy : Option (Option Enemy)
  visited : Option IdSet
  lockedExits : Option (Table Bool)
  takenItems : Option IdSet

namespace SaveRecord

/-- Reads a save from its fields. Except for the enemy, a null stands for a missing field. -/
def ofRecord? (r : Json.Record Json.Tree) : Option SaveRecord := do
  return {
    location := ← r.optional "location" Json.Tree.string?
    inventory := ← r.optional "inventory" (Json.Tree.list? Json.Tree.string?)
    flags := ← r.optional "flags" (Json.Tree.table? Json.Tree.toJson?)
    stats := ← r.optional "stats" Stats.ofTree?
    inCombat := ← r.optional "inCombat" Json.Tree.bool?
    enemy := ← r.withDefault "enemy" none fun t => (t.nullable? Enemy.ofTree?).map some
    visited := ← r.optional "visited" Json.Tree.idSet?
    lockedExits := ← r.optional "lockedExits" (Json.Tree.table? Json.Tree.bool?)
    takenItems := ← r.optional "takenItems" Json.Tree.idSet? }

/-- Reads a save. A value has each key once, so of a repeated field the last has counted. -/
def ofJson? : Json → Option SaveRecord
  | .object fields => ofRecord? ⟨Json.fieldsToTree fields⟩
  | _ => none

/-- Ids without those that occurred before. -/
def firstOccurrences (ids : List String) : List String :=
  ids.foldl (fun seen id => if seen.contains id then seen else seen ++ [id]) []

/-- The player with what a save says, and the fight recorded as the enemy says. -/
def apply (r : SaveRecord) (p : Player) : Player :=
  Player.settle {
    location := r.location.getD p.location
    inventory := (r.inventory.map firstOccurrences).getD p.inventory
    flags := r.flags.getD p.flags
    stats := r.stats.getD p.stats
    inCombat := r.inCombat.getD p.inCombat
    enemy := r.enemy.getD p.enemy
    visited := r.visited.getD p.visited
    lockedExits := r.lockedExits.getD p.lockedExits
    takenItems := r.takenItems.getD p.takenItems }

/-- The save that bytes hold, if they hold one. -/
def ofBytes? (bytes : ByteArray) : Option SaveRecord := do
  let text ← String.fromUTF8? bytes
  let value ← Json.ofText? text
  ofJson? value

end SaveRecord

namespace Player

/-- The bytes that are saved for a player. -/
def save (p : Player) : ByteArray := (Document.text p).toUTF8

/-- The player with what saved bytes say, if they hold a save. -/
def restore? (p : Player) (bytes : ByteArray) : Option Player :=
  (SaveRecord.ofBytes? bytes).map fun r => r.apply p

end Player

end TextAdventure
