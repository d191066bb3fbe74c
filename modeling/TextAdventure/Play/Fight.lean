import TextAdventure.Command
import TextAdventure.Play

/-!
# Fights

A fight is against one enemy, whose strength is copied into the player's progress when the fight
starts. Each attack is one exchange of blows: the player strikes, and if the enemy still stands it
strikes back. A blow of the player always does some damage; a blow of the enemy may do none.
-/

namespace TextAdventure

namespace Stats

/-- The damage of a blow of the player. -/
def playerDamage (player enemy : Stats) : Int32 := max (player.attack - enemy.defense) 1

/-- The damage of a blow of an enemy. -/
def enemyDamage (enemy player : Stats) : Int32 := max (enemy.attack - player.defense) 0

/-- The fighter after taking damage. -/
def takeDamage (s : Stats) (damage : Int32) : Stats := { s with hp := s.hp - damage }

/-- Whether the fighter is beaten. -/
def isBeaten (s : Stats) : Bool := s.hp ≤ 0

end Stats

/-- How an exchange of blows ended. -/
inductive Outcome where
  /-- Both still stand. -/
  | goesOn
  | victory
  | defeat
  /-- There was no exchange. -/
  | refused
  deriving DecidableEq, Repr

namespace Fight

/-- A number in a line of narration. -/
def number (n : Int32) : String := Decimal.text n.toInt

/-- The lines that announce an enemy. -/
def announcement (e : Enemy) : List String :=
  ["Ein " ++ e.name ++ " erscheint!", "Beschreibung: " ++ e.description,
    "HP: " ++ number e.stats.hp]

/-- What is left of a fighter, as it is said. -/
def remaining (s : Stats) : String := "(" ++ number (max s.hp 0) ++ " HP übrig)"

/-- The line about a blow of the player. -/
def playerStrikes (name : String) (damage : Int32) (after : Stats) : String :=
  "Du triffst " ++ name ++ " für " ++ number damage ++ " Schaden. " ++ remaining after

/-- The line about a blow of the enemy. -/
def enemyStrikes (name : String) (damage : Int32) (after : Stats) : String :=
  name ++ " greift an und verursacht " ++ number damage ++ " Schaden. " ++ remaining after

/-- Gives the player an item that the enemy dropped. -/
def loot (id : String) : Act Unit := do
  let known := (← Act.player).hasItem id
  Act.changePlayer (·.addItem id)
  if !known then Act.say ("Du erhältst " ++ id ++ ".")

/-- Starts a fight: the enemy is there, then it is announced and the player is saved. -/
def start (id : String) : Act Unit := do
  let enemy ← Act.enemy id
  -- The fight is on before its announcement, which fails if there is no picture.
  Act.changePlayer (·.beginCombat enemy)
  if let some art := enemy.ascii then Act.showArt art.file
  Act.sayAll (announcement enemy)
  Act.persist

/-- Ends a fight that the player has won. -/
def win (enemy : Enemy) : Act Outcome := do
  Act.say (enemy.name ++ " wurde besiegt!")
  enemy.drops.forM loot
  Act.changePlayer Player.endCombat
  Act.persist
  return .victory

/-- The blow of an enemy that still stands. -/
def counter (enemy : Enemy) : Act Outcome := do
  let before := (← Act.player).stats
  let damage := enemy.stats.enemyDamage before
  let after := before.takeDamage damage
  Act.changePlayer fun p => { p with stats := after }
  Act.say (enemyStrikes enemy.name damage after)
  if after.isBeaten then
    Act.say "Du wurdest besiegt. Der Kampf endet."
    Act.changePlayer Player.endCombat
    Act.persist
    return .defeat
  else
    Act.persist
    return .goesOn

/-- One exchange of blows with the enemy that is there. -/
def exchange (enemy : Enemy) : Act Outcome := do
  let strength := (← Act.player).stats
  let damage := strength.playerDamage enemy.stats
  let enemy := { enemy with stats := enemy.stats.takeDamage damage }
  Act.changePlayer fun p => { p with enemy := some enemy }
  Act.say (playerStrikes enemy.name damage enemy.stats)
  if enemy.stats.isBeaten then win enemy else counter enemy

/-- Answers a command of a player who may be in a fight. -/
def answer (messages : Messages) (command : Command) : Act Outcome := do
  if command.verb ≠ .attack then
    Act.say messages.combatInProgress
    return .refused
  match (← Act.player).enemy with
  | some enemy => exchange enemy
  | none =>
    Act.say messages.combatRefusal
    return .refused

end Fight

end TextAdventure
