import TextAdventure.Phrase
import TextAdventure.Play.Scene

/-!
# What commands do

`Action.perform` carries out a command. While a fight lasts every command is an answer in the fight;
otherwise the verb decides.
-/

namespace TextAdventure.Action

/-- The lines that help a player. -/
def helpLines : List String :=
  ["Adventure-Befehle:",
    "- start | continue | reset | exit",
    "- Bewegung: geh nord/ost/sued/west oder n/s/o/w",
    "- nimm <item>, untersuche <objekt>",
    "- benutze <objekt|item>",
    "- kombiniere <item> mit <anderes>",
    "- angriff (im Kampf)",
    "- inventar, hilfe"]

/-- The name of the exit that a command means. -/
def exitName (command : Command) : String :=
  match command.direction with
  | some direction => direction.name
  | none => command.object.getD ""

/-- The room in which the player is. -/
def currentRoom : Act Room := do Act.room (← Act.player).location

/-- Moves the player to a room and shows the room. -/
def goTo (destination : String) : Act Unit := do
  -- The player has moved even if the room turns out not to be readable.
  Act.changePlayer fun p => { p with location := destination }
  Act.persist
  Scene.enter (!(← Act.player).hasVisited destination)

/-- Goes through an exit. -/
def move (messages : Messages) (command : Command) : Act Unit := do
  let room ← currentRoom
  let exit := exitName command
  match room.exits.get? exit with
  | none => Act.say messages.cannotGo
  | some destination =>
    if (← Act.player).isExitLocked room.id exit then Act.say messages.pathBlocked
    else goTo destination

/-- Gives the player an item that a room lists, which need not be under the id of the item. -/
def pickUp (listed : String) (item : Item) : Act Unit := do
  Act.changePlayer (·.takeItem listed item.id)
  Act.say ("Du nimmst " ++ item.name ++ ".")
  Act.persist

/-- Takes an item that lies in the room. -/
def take (messages : Messages) (phrase : String) : Act Unit := do
  let room ← currentRoom
  match Phrase.resolve phrase ((← Act.player).visibleItems room) with
  | none => Act.say messages.cannotTake
  | some listed =>
    let item ← Act.item listed
    if item.pickup then pickUp listed item else Act.say messages.notPickable

/-- Describes a fixture of the room, or else an item that lies there or is carried. -/
def inspect (messages : Messages) (phrase : String) : Act Unit := do
  let room ← currentRoom
  match Phrase.resolve phrase room.objects with
  | some id =>
    let fixture ← Act.fixture id
    Act.say (fixture.name ++ ": " ++ fixture.description)
    Scene.run fixture.inspect
  | none =>
    let player ← Act.player
    match Phrase.resolve phrase (player.visibleItems room ++ player.inventory) with
    | some id =>
      let item ← Act.item id
      Act.say (item.name ++ ": " ++ item.description)
    | none => Act.say messages.nothingSpecial

/-- Uses a fixture of the room, or else an item that is carried. -/
def use (messages : Messages) (phrase : String) : Act Unit := do
  let room ← currentRoom
  match Phrase.resolve phrase room.objects with
  | some id =>
    let fixture ← Act.fixture id
    Scene.run (if fixture.locked then fixture.onLockedUse else fixture.use)
  | none =>
    match Phrase.resolve phrase (← Act.player).inventory with
    | some id =>
      let item ← Act.item id
      Scene.run item.onUse
    | none => Act.say messages.unknownCommand

/-- Combines an item that is carried with something. -/
def combine (messages : Messages) (command : Command) : Act Unit := do
  match Phrase.resolve (command.object.getD "") (← Act.player).inventory with
  | none => Act.say messages.missingItem
  | some id =>
    let item ← Act.item id
    match item.combine.get? (Phrase.normalize (command.target.getD "")) with
    | some script => Scene.run script
    | none => Act.say messages.cannotCombine

/-- Lists what the player carries. -/
def inventory (messages : Messages) : Act Unit := do
  let items := (← Act.player).inventory
  if items.isEmpty then Act.say messages.inventoryEmpty
  else Act.sayAll ("Inventar:" :: items.map fun id => "- " ++ id)

/-- Hands the object of a command to an act that needs one. -/
def withObject (messages : Messages) (command : Command) (act : String → Act Unit) : Act Unit :=
  match command.object with
  | some phrase => act phrase
  | none => Act.say messages.unknownCommand

/-- What a command does outside fights. -/
def explore (messages : Messages) (command : Command) : Act Unit :=
  match command.verb with
  | .go => move messages command
  | .take => withObject messages command (take messages)
  | .inspect | .look =>
    match command.object with
    | some phrase => inspect messages phrase
    | none => Scene.enter false
  | .use | .openUp | .close | .push | .pull => withObject messages command (use messages)
  | .combine => combine messages command
  | .inventory => inventory messages
  | .help => Act.sayAll helpLines
  | .attack => discard (Fight.answer messages command)
  | .other _ => Act.say messages.unknownCommand

/-- Carries out a command in a world. -/
def perform (world : World) (command : Command) : Act Unit := do
  if (← Act.player).inCombat then discard (Fight.answer world.messages command)
  else explore world.messages command

end TextAdventure.Action
