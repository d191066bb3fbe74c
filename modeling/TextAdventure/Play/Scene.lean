import TextAdventure.Play.Fight

/-!
# Rooms and scripts

Showing a room ends with a script, and a script may move the player, which shows another room.
Branches, scripts and arrivals nest at most `maxLevels` deep; what lies deeper is replaced by a line
that says so. `Nested.within` gives, for a number of levels that are left, what a script may start;
its recursion is on that number, so every script comes to an end on any content.
-/

namespace TextAdventure

namespace Scene

/-- How deep scripts and arrivals may nest within one act of the player. -/
def maxLevels : Nat := 32

/-- Says that the levels are used up. -/
def tooDeep : Act Unit := do
  Act.note .leftOut
  Act.say "Die Ereigniskette ist zu tief verschachtelt."

/-- The lines that describe a room to a player, after its picture. -/
def description (room : Room) (player : Player) : List String :=
  let items := (player.visibleItems room).map fun id => "\"" ++ id ++ "\""
  [room.title, room.description] ++
    (if items.isEmpty then [] else ["Hier siehst du: " ++ ", ".intercalate items]) ++
    (if room.objects.isEmpty then [] else ["Objekte: " ++ ", ".intercalate room.objects]) ++
    (if room.exits.isEmpty then [] else ["Ausgänge: " ++ ", ".intercalate room.exits.keys])

/-- Records that the player has seen a room, and saves the player if that is new. -/
def markVisited (id : String) : Act Unit := do
  let known := (← Act.player).hasVisited id
  Act.changePlayer (·.markVisited id)
  if !known then Act.persist

/-- Shows the room in which the player is. Answers the script that has to run then. -/
def render (firstTime : Bool) : Act Script := do
  let room ← Act.room (← Act.player).location
  markVisited room.id
  if let some art := room.ascii then Act.showArt art.file
  Act.sayAll (description room (← Act.player))
  Act.note (.shown room.id firstTime)
  return if firstTime then room.onFirstEnter else room.onEnter

end Scene

/-- What a running script may start. -/
structure Nested where
  /-- Runs a script one level deeper. -/
  script : Script → Act Unit
  /-- Shows the room at which the player has arrived, one level deeper, and runs its script. -/
  arrival : Act Unit

namespace Nested

/-- Runs one step of a script. -/
def step (inner : Nested) (s : Step) : Act Unit := do
  if !s.isUnrecognized then Act.note (.performed s)
  match s with
  | .message text => Act.say text
  | .art file _ => Act.showArt file
  | .setFlag key value =>
    Act.changePlayer (·.setFlag key value)
    Act.persist
  | .branch key equals onMatch otherwise =>
    inner.script (if (← Act.player).hasFlag key equals then onMatch else otherwise)
  | .addItem id =>
    let known := (← Act.player).hasItem id
    Act.changePlayer (·.addItem id)
    if !known then Act.say (id ++ " erhalten.")
    Act.persist
  | .removeItem id =>
    let known := (← Act.player).hasItem id
    Act.changePlayer (·.removeItem id)
    if known then Act.say (id ++ " entfernt.")
    Act.persist
  | .unlockExit room direction =>
    Act.changePlayer (·.setExitLocked room direction false)
    Act.say ("Ausgang " ++ direction ++ " ist nun offen.")
    Act.persist
  | .lockExit room direction =>
    Act.changePlayer (·.setExitLocked room direction true)
    Act.say ("Ausgang " ++ direction ++ " ist nun versperrt.")
    Act.persist
  | .transition room =>
    Act.changePlayer fun p => { p with location := room }
    Act.persist
    inner.arrival
  | .fight enemy => Fight.start enemy
  | .unrecognized raw => Act.say ("Unbekanntes Event: " ++ Step.kindOfUnrecognized raw)

/-- Runs the steps of a script in order, up to the first that fails. -/
def steps (inner : Nested) : Script → Act Unit
  | [] => return ()
  | s :: ss => do
    inner.step s
    inner.steps ss

/-- What a script may start when so many levels are left. An empty script needs no level. -/
def within : Nat → Nested
  | 0 => {
      script := fun s => if s.isEmpty then return () else Scene.tooDeep
      arrival := Scene.tooDeep }
  | levels + 1 =>
    let inner := within levels
    -- An arrival takes a level, and the script of the room at which the player arrives one more.
    { script := fun s => if s.isEmpty then return () else Act.level (inner.steps s)
      arrival := Act.level do inner.script (← Scene.render true) }

end Nested

namespace Scene

/-- Runs a script with all levels left. -/
def run (script : Script) : Act Unit := (Nested.within maxLevels).script script

/-- Shows the room in which the player is, and runs its script. -/
def enter (firstTime : Bool) : Act Unit := do run (← render firstTime)

end Scene

end TextAdventure
