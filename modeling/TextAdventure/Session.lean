import TextAdventure.Play.Action

/-!
# Sessions

A session is one adventure played by one player: it is started or resumed, takes lines of input, and
is left. Content and saves lie outside the session, so that they may change between requests and be
shared by several sessions; `Session.handle` takes both with each request and answers both.
-/

namespace TextAdventure

namespace Session

/-- A session that has not begun. -/
def new (id title worldFile saveKey : String) (stats : Stats) : Session where
  id := id
  title := title
  stats := stats
  library := .empty worldFile
  saveKey := saveKey
  player := .nowhere
  active := false

/-- What a session can be asked for. -/
inductive Request where
  /-- Begin from the start room. -/
  | start
  /-- Go on from the save. -/
  | resume
  /-- Delete the save and begin from the start room. -/
  | reset
  /-- A line that the player typed. -/
  | input (line : String)
  /-- Leave the adventure; the save stays. -/
  | leave
  deriving DecidableEq, Repr

/-- The answer to a request. -/
structure Reply where
  /-- The lines for the player. A request that fails says nothing but its failure. -/
  result : Except Failure (List String)
  /-- The session afterwards. -/
  session : Session
  /-- The store afterwards. -/
  saves : Saves
  /-- What happened, the newest first. -/
  journal : List Event

/-- The lines that say goodbye. -/
def farewell : List String :=
  ["Du verlässt das Adventure und kehrst ins Darknetz-Terminal zurück.", ""]

/-- A player at the beginning of a world. -/
def beginning (world : World) : Act Player := do
  return .fresh world.startRoom world.globalFlags (← get).stats

/-- Makes the session take input. -/
def activate : Act Unit := modify fun p => { p with active := true }

/-- Begins from the start room. -/
def start : Act Unit := do
  let world ← Act.world
  activate
  let fresh ← beginning world
  Act.changePlayer fun _ => fresh
  Act.persist
  Act.say "Starte Adventure..."
  Scene.enter true

/-- Shows the room of a player that was read from a save. -/
def proceed : Act Unit := do
  Act.say "Lade letzten Spielstand..."
  let player ← Act.player
  Scene.enter (!player.hasVisited player.location)

/-- Reads the save into the player and shows the room, or begins from the start room if there is no
save. -/
def goOn : Act Unit := do
  if ← Act.restore then proceed
  else
    Act.say "Kein Spielstand gefunden. Starte neu."
    start

/-- Goes on from the save, or begins from the start room if there is none. -/
def resume : Act Unit := do
  let world ← Act.world
  activate
  -- A save may say less than everything; what it leaves out then comes from a new player.
  if (← Act.player).location.isEmpty then
    let fresh ← beginning world
    Act.changePlayer fun _ => fresh
  goOn

/-- Deletes the save and begins from the start room. -/
def reset : Act Unit := do
  Act.forget
  start

/-- Fails unless the session takes input. -/
def requireActive : Act Unit := do
  if !(← get).active then throw .noSession

/-- Carries out a line of input. -/
def input (line : String) : Act Unit := do
  requireActive
  -- The world is asked for first, so a line fails without it whatever the line says.
  let world ← Act.world
  Action.perform world (Command.parse line)

/-- Makes the session take no more input. -/
def deactivate : Act Unit := modify fun p => { p with active := false }

/-- Leaves the adventure. -/
def leave : Act Unit := do
  deactivate
  Act.sayAll farewell

/-- The act of a request. -/
def Request.act : Request → Act Unit
  | .start => Session.start
  | .resume => Session.resume
  | .reset => Session.reset
  | .input line => Session.input line
  | .leave => Session.leave

/-- Answers a request with content from a source and saves in a store. -/
def handle (s : Session) (source : Source) (saves : Saves) (request : Request) : Reply :=
  match request.act { toSession := s, source := source, saves := saves, journal := [] } with
  | .ok () p => ⟨.ok p.lines, p.toSession, p.saves, p.journal⟩
  | .error e p => ⟨.error e, p.toSession, p.saves, p.journal⟩

/-- The session after its library has forgotten the documents that it has read. -/
def clearLibrary (s : Session) : Session := { s with library := s.library.clear }

end Session

end TextAdventure
