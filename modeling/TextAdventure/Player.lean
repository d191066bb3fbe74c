import TextAdventure.Room
import TextAdventure.Thing

/-!
# The progress of a player

`Player` is everything that a save holds. Items are carried in the order in which they were found,
and an id is carried once. A player is in a fight exactly while an enemy is there; both are
recorded, and `Player.settle` makes the record agree after reading it from outside.
-/

namespace TextAdventure

/-- The progress of a player. -/
structure Player where
  /-- The id of the room in which the player is. -/
  location : String
  /-- The ids of the items that the player carries. -/
  inventory : List String
  flags : Table Json
  stats : Stats
  inCombat : Bool
  /-- The enemy of the current fight, with what is left of its strength. -/
  enemy : Option Enemy
  /-- The ids of the rooms that the player has seen. -/
  visited : IdSet
  /-- For each exit that a script has closed or opened, whether it is closed. -/
  lockedExits : Table Bool
  /-- The ids of the items that the player has taken from rooms. -/
  takenItems : IdSet

namespace Player

/-- A player at the beginning of an adventure. -/
def fresh (location : String) (flags : Table Json) (stats : Stats) : Player where
  location := location
  inventory := []
  flags := flags
  stats := stats
  inCombat := false
  enemy := none
  visited := .empty
  lockedExits := .empty
  takenItems := .empty

/-- A player who is nowhere yet. -/
def nowhere : Player := fresh "" .empty .starting

/-- Whether the player carries an item. -/
def hasItem (p : Player) (id : String) : Bool := p.inventory.contains id

/-- The player with an item more, unless it was carried before. -/
def addItem (p : Player) (id : String) : Player :=
  if p.hasItem id then p else { p with inventory := p.inventory ++ [id] }

/-- The player without an item. -/
def removeItem (p : Player) (id : String) : Player :=
  { p with inventory := p.inventory.filter (· != id) }

/-- The key under which the state of an exit is recorded. -/
def exitKey (room direction : String) : String := room ++ ":" ++ direction

/-- Whether an exit is closed. -/
def isExitLocked (p : Player) (room direction : String) : Bool :=
  (p.lockedExits.get? (exitKey room direction)).getD false

/-- The player after an exit was closed or opened. -/
def setExitLocked (p : Player) (room direction : String) (locked : Bool) : Player :=
  { p with lockedExits := p.lockedExits.insert (exitKey room direction) locked }

/-- Whether the player has seen a room. -/
def hasVisited (p : Player) (room : String) : Bool := p.visited.contains room

/-- The player after seeing a room. -/
def markVisited (p : Player) (room : String) : Player := { p with visited := p.visited.add room }

/-- The player with a flag set. -/
def setFlag (p : Player) (key : String) (value : Json) : Player :=
  { p with flags := p.flags.insert key value }

/-- Whether a flag is set to a value. -/
def hasFlag (p : Player) (key : String) (value : Json) : Bool :=
  match p.flags.get? key with
  | some current => current.same value
  | none => false

/-- The player in a fight with an enemy. -/
def beginCombat (p : Player) (enemy : Enemy) : Player :=
  { p with enemy := some enemy, inCombat := true }

/-- The player out of any fight. -/
def endCombat (p : Player) : Player := { p with enemy := none, inCombat := false }

/-- The player after taking an item that a room lists under an id of its own. -/
def takeItem (p : Player) (listed id : String) : Player :=
  { p with takenItems := p.takenItems.add listed }.addItem id

/-- The ids of the items of a room that are still lying there. -/
def visibleItems (p : Player) (room : Room) : List String :=
  room.items.filter fun id => !p.takenItems.contains id && !p.hasItem id

/-- The player with the fight recorded as the enemy says. -/
def settle (p : Player) : Player := { p with inCombat := p.enemy.isSome }

/-- The fields of a player, in the order in which they are written. -/
def fieldNames : List String :=
  ["location", "inventory", "flags", "stats", "inCombat", "enemy", "visited", "lockedExits",
    "takenItems"]

/-- Reads a player. -/
def ofTree? (t : Json.Tree) : Option Player := do
  let r ← t.record? fieldNames 0
  return {
    location := ← r.required "location" Json.Tree.string?
    inventory := ← r.required "inventory" (Json.Tree.list? Json.Tree.string?)
    flags := ← r.required "flags" (Json.Tree.table? Json.Tree.toJson?)
    stats := ← r.required "stats" Stats.ofTree?
    inCombat := ← r.required "inCombat" Json.Tree.bool?
    enemy := ← r.optional "enemy" Enemy.ofTree?
    visited := ← r.required "visited" Json.Tree.idSet?
    lockedExits := ← r.required "lockedExits" (Json.Tree.table? Json.Tree.bool?)
    takenItems := ← r.withDefault "takenItems" .empty Json.Tree.idSet? }

/-- The value that is written for a player. -/
def toJson (p : Player) : Json :=
  .object [("location", .string p.location), ("inventory", .stringList p.inventory),
    ("flags", .ofTable (fun v => v) p.flags), ("stats", p.stats.toJson),
    ("inCombat", .bool p.inCombat),
    ("enemy", (p.enemy.map Enemy.toJson).getD .null), ("visited", .stringList p.visited.keys),
    ("lockedExits", .ofTable .bool p.lockedExits),
    ("takenItems", .stringList p.takenItems.keys)]

instance : Document Player := ⟨ofTree?, toJson⟩

end Player

end TextAdventure
