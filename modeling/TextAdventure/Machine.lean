import TextAdventure.Bundle.Folder
import TextAdventure.Bundle.Gate
import TextAdventure.CommandLine
import TextAdventure.Terminal

/-!
# Runs of the program

The program works on a machine, which has a disk and the stores of saves that lie in folders of the
disk. `Machine.begin` does what arguments ask for and, if that is to play, leaves a game that
answers lines; `Machine.run` also answers all lines of an input.
-/

namespace TextAdventure

/-- What the program works on. -/
structure Machine where
  disk : Disk
  /-- The stores of saves, by the places of their folders. -/
  stores : List (Place × Saves)

/-- What a run of the program did. -/
structure Machine.Result where
  /-- Zero for success, two for arguments that make no sense, and one for any other failure. -/
  code : Nat
  /-- The lines that were printed. -/
  output : List String
  /-- The lines that say what went wrong. -/
  complaints : List String
  machine : Machine

/-- A game that answers lines. -/
structure Machine.Game where
  terminal : Terminal
  machine : Machine
  saves : Saves
  /-- The place of the store, if saves are kept. -/
  place : Option Place

/-- What a run has come to before it reads any line. -/
inductive Machine.Begun where
  | ended (result : Machine.Result)
  | playing (game : Machine.Game)

namespace Machine

/-- A run that succeeded. -/
def succeeded (m : Machine) (output : List String) : Result := ⟨0, output, [], m⟩

/-- A run that failed. -/
def failed (m : Machine) (why : String) : Result := ⟨1, [], ["Error: " ++ why], m⟩

/-- The store at a place, which is empty if there is none. -/
def store (m : Machine) (place : Place) : Saves := (m.stores.lookup place).getD .empty

/-- The machine with a store at a place. -/
def setStore (m : Machine) (place : Place) (saves : Saves) : Machine :=
  { m with stores := (place, saves) :: m.stores.filter fun s => s.1 != place }

/-- The machine with a file at a path, which is empty if it was not there. A file that cannot be
created is left out. -/
def touch (m : Machine) (path : String) : Machine :=
  if m.disk.isThere path then m
  else match m.disk.writeText path "" with
    | .ok disk => { m with disk := disk }
    | .error _ => m

/-- The machine with a folder for a store, and the place of the folder. -/
def openStore (m : Machine) (path : String) : Except DiskError Place × Machine :=
  let (created, disk) := m.disk.createFolders path
  (created.bind fun () => disk.locate path, { m with disk := disk })

/-- A game with a configuration. -/
def play (m : Machine) (config : Config) (ephemeral : Bool) : Begun :=
  let t := Terminal.new (.ofConfig config)
  if ephemeral then .playing ⟨t, m, .empty, none⟩
  else
    match m.openStore config.savePath with
    | (.ok place, m) => .playing ⟨t, m, m.store place, some place⟩
    | (.error e, m) => .ended (m.failed (Failure.io e.message).message)

/-- Compiles the gates of an adventure in its folder, and prints what is wrong with them. -/
def compileGates (m : Machine) (config : Config) (adventure : String) : Result :=
  let loaded : Except Failure (Manifest × Bundle) := do
    let manifest ← Manifest.load m.disk config.root adventure
    return (manifest, ← Bundle.read m.disk manifest.dataPath)
  match loaded with
  | .error e => m.failed e.message
  | .ok (manifest, b) =>
    match b.compileGates.write manifest.dataPath m.disk with
    | (.ok (), disk) =>
      succeeded { m with disk := disk } (b.warnings.map fun w => "Warnung: " ++ w.message)
    | (.error e, disk) => failed { m with disk := disk } e.message

/-- Writes the standard configuration to a file. -/
def writeConfig (m : Machine) (path : String) : Result :=
  match Config.create m.disk path with
  | .ok disk => succeeded { m with disk := disk } []
  | .error e => m.failed e.message

/-- The configuration of a run, which is the standard one if there is no configuration file. -/
def configOf (d : Disk) (c : CommandLine) : Except Config.Error Config := do
  -- A file that is missing is no mistake, but one that is there has to be right.
  let config ← if d.isThere c.config then Config.load d c.config else .ok .standard
  return { config with playerName := c.player <|> config.playerName }

/-- The machine with the file of the log. Without a configuration file nothing is logged to one. -/
def openLog (m : Machine) (c : CommandLine) (config : Config) : Machine :=
  if m.disk.isThere c.config then (config.logFile.map m.touch).getD m else m

/-- Does what needs a configuration, once there is a log. -/
def withConfig (m : Machine) (c : CommandLine) (act : Machine → Config → Begun) : Begun :=
  match configOf m.disk c with
  | .ok config => act (m.openLog c config) config
  | .error e => .ended (m.failed e.message)

/-- Does what a command line asks for, up to where lines are read. -/
def perform (m : Machine) (c : CommandLine) : Begun :=
  match c.task with
  | .init => .ended (m.writeConfig c.config)
  | .play ephemeral => m.withConfig c fun m config => m.play config ephemeral
  | .compileGates adventure =>
    m.withConfig c fun m config => .ended (m.compileGates config adventure)

/-- Does what arguments ask for, up to where lines are read. -/
def begin (m : Machine) (args : List String) : Begun :=
  match CommandLine.parse args with
  | .run c => m.perform c
  | .information lines => .ended (m.succeeded lines)
  | .misuse => .ended ⟨2, [], CommandLine.usage, m⟩

namespace Game

/-- The machine with the saves of the game, if they are kept. -/
def stored (g : Game) : Machine :=
  match g.place with
  | some place => g.machine.setStore place g.saves
  | none => g.machine

/-- Answers a line. -/
def answer (g : Game) (line : String) : Terminal.Reply × Game :=
  let reply := g.terminal.handle g.machine.disk g.saves line
  (reply, { g with terminal := reply.terminal, saves := reply.saves })

/-- The answers to lines, up to the one that ends the game, and the game afterwards. -/
def answerAll (g : Game) : List String → List String × Game
  | [] => ([], g)
  | line :: lines =>
    let (reply, g) := g.answer line
    if reply.quit then (reply.lines, g)
    else
      let (more, g) := g.answerAll lines
      (reply.lines ++ more, g)

end Game

/-- Runs the program with arguments and lines of input. -/
def run (m : Machine) (args input : List String) : Result :=
  match m.begin args with
  | .ended result => result
  | .playing g =>
    let (lines, g) := g.answerAll input
    g.stored.succeeded (Terminal.banner ++ lines)

end Machine

end TextAdventure
