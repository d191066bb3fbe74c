import TextAdventure.Library
import TextAdventure.Player.Record
import TextAdventure.Saves

/-!
# Acts

Everything that happens while an adventure is played is an *act*: a step from one state of play to
the next that may fail on the way, keeping what was done before the failure. The state holds the
session, what the session works with (the source of content and the store of saves), and a journal
of what happened, the newest first. What a player reads is one view of the journal.
-/

namespace TextAdventure

/-- One adventure, played by one player. -/
structure Session where
  id : String
  title : String
  /-- The strength with which a new player starts. -/
  stats : Stats
  library : Library
  /-- The key of the player's save. -/
  saveKey : String
  player : Player
  /-- Whether the session takes input. -/
  active : Bool

/-- What happened. -/
inductive Event where
  /-- A line was said to the player. -/
  | said (line : String)
  /-- The source was asked for a path. -/
  | fetched (path : String)
  /-- A record was written to the store. -/
  | stored (record : ByteArray)
  /-- An effect began. -/
  | performed (effect : Step)
  /-- A room was shown, and its script for the first or for a later entry is next. -/
  | shown (room : String) (firstTime : Bool)
  /-- A script or an arrival began inside those under way. -/
  | opened
  /-- The script or arrival that began last came to its end. -/
  | closed
  /-- A script or an arrival was left out, because the levels were used up. -/
  | leftOut

/-- The state of play. -/
structure Play extends Session where
  source : Source
  saves : Saves
  /-- What happened, the newest first. -/
  journal : List Event

/-- A step of play that may fail. -/
abbrev Act := EStateM Failure Play

namespace Play

/-- The lines said, in order. -/
def lines (p : Play) : List String :=
  p.journal.reverse.filterMap fun | .said line => some line | _ => none

/-- The paths that the source was asked for, in order. -/
def fetched (p : Play) : List String :=
  p.journal.reverse.filterMap fun | .fetched path => some path | _ => none

/-- The records written to the store, in order. -/
def stored (p : Play) : List ByteArray :=
  p.journal.reverse.filterMap fun | .stored record => some record | _ => none

/-- The rooms shown, in order, each with whether its script for the first entry was next. -/
def shown (p : Play) : List (String × Bool) :=
  p.journal.reverse.filterMap fun | .shown room first => some (room, first) | _ => none

end Play

namespace Act

/-- Enters an event into the journal. -/
def note (e : Event) : Act Unit := modify fun p => { p with journal := e :: p.journal }

/-- Says a line. -/
def say (line : String) : Act Unit := note (.said line)

/-- Says several lines. -/
def sayAll (lines : List String) : Act Unit := lines.forM say

/-- Changes the player. -/
def changePlayer (change : Player → Player) : Act Unit :=
  modify fun p => { p with player := change p.player }

/-- The player as it is now. -/
def player : Act Player := return (← get).player

/-- Writes the player to the store. -/
def persist : Act Unit := fun p =>
  let record := p.player.save
  match p.saves.put p.saveKey record with
  | (.ok (), saves) => .ok () { p with saves := saves, journal := .stored record :: p.journal }
  | (.error e, saves) => .error e { p with saves := saves }

/-- Reads the store into the player. Answers whether there was a save that could be read. -/
def restore : Act Bool := fun p =>
  match p.saves.get p.saveKey with
  | (.ok bytes, saves) =>
    match bytes.bind p.player.restore? with
    | some player => .ok true { p with saves := saves, player := player }
    | none => .ok false { p with saves := saves }
  | (.error e, saves) => .error e { p with saves := saves }

/-- Deletes the player's save. -/
def forget : Act Unit := fun p =>
  match p.saves.remove p.saveKey with
  | (.ok (), saves) => .ok () { p with saves := saves }
  | (.error e, saves) => .error e { p with saves := saves }

/-- Asks the library. -/
def ask {α : Type} (request : Source → Library → Library.Answer α) : Act α := fun p =>
  let answer := request p.source p.library
  let q := { p with
    library := answer.library
    journal := (answer.fetched.map Event.fetched).reverse ++ p.journal }
  match answer.result with
  | .ok x => .ok x q
  | .error e => .error e q

/-- The world. -/
def world : Act World := ask Library.getWorld

/-- The room with an id. -/
def room (id : String) : Act Room := ask fun source => Library.getRoom source id

/-- The item with an id. -/
def item (id : String) : Act Item := ask fun source => Library.getItem source id

/-- The fixture with an id. -/
def fixture (id : String) : Act Fixture := ask fun source => Library.getFixture source id

/-- The enemy with an id. -/
def enemy (id : String) : Act Enemy := ask fun source => Library.getEnemy source id

/-- Shows the picture at a path, line by line. -/
def showArt (path : String) : Act Unit := do
  let text ← ask fun source => Library.getArt source path
  sayAll (Text.lines text)

/-- Runs an act as one level inside those under way. The level ends however the act ends. -/
def level (act : Act Unit) : Act Unit := fun p =>
  match act { p with journal := .opened :: p.journal } with
  | .ok () q => .ok () { q with journal := .closed :: q.journal }
  | .error e q => .error e { q with journal := .closed :: q.journal }

end Act

end TextAdventure
