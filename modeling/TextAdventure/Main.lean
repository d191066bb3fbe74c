import TextAdventure.Machine
import TextAdventure.Saves.File

/-!
# The program

Reads from the disk what a run needs, lets the machine do the work, and writes back what changed.
-/

namespace TextAdventure.Program

/-- The path of a place. -/
def pathTo (place : Place) : String := "/" ++ "/".intercalate place

/-- A disk on which nothing is known but where relative paths start. -/
def blank : IO Disk := do
  let here := (Path.names (← IO.currentDir).toString).filter fun name => !Path.staysHere name
  return .empty here

/-- The disk with what is at a place, without the bytes of a file. -/
def look (d : Disk) (place : Place) : IO Disk := do
  let path := (← IO.currentDir) / pathTo place
  if ← path.isDir then return d.set place .folder
  if ← path.pathExists then return d.set place (.file .empty)
  return d

/-- The disk with what is on the way to a path and at its end. -/
def lookAlong (d : Disk) (path : String) : IO Disk := do
  let place := Path.resolve d.here path
  (List.range (place.length + 1)).foldlM (fun d n => look d (place.take n)) d

/-- The disk with the bytes of a file, if there is one at a path. -/
def readFile (d : Disk) (path : String) : IO Disk := do
  let d ← lookAlong d path
  let place := Path.resolve d.here path
  match d.entry? place with
  | some (.file _) => return d.set place (.file (← IO.FS.readBinFile (pathTo place)))
  | _ => return d

/-- The disk with everything below a place. -/
partial def readBelow (d : Disk) (place : Place) : IO Disk := do
  let path := (← IO.currentDir) / pathTo place
  if ← path.isDir then
    let names := (← path.readDir).toList.map fun e => e.fileName
    names.foldlM (fun d name => readBelow d (place ++ [name])) (d.set place .folder)
  else if ← path.pathExists then
    return d.set place (.file (← IO.FS.readBinFile path))
  else return d

/-- The disk with everything below a path. -/
def readFolder (d : Disk) (path : String) : IO Disk := do
  readBelow (← lookAlong d path) (Path.resolve d.here path)

/-- The disk with an adventure. Its data may lie outside its folder. -/
def readAdventure (d : Disk) (root folder : String) : IO Disk := do
  let d ← readFolder d (Path.join root folder)
  match Manifest.load d root folder with
  | .ok m => readFolder d m.dataPath
  | .error _ => return d

/-- The machine with the store in a folder. -/
def readStore (m : Machine) (path : String) : IO Machine := do
  let place := Path.resolve m.disk.here path
  let file := (← IO.currentDir) / pathTo (place ++ [Saves.fileName])
  if ← file.pathExists then
    return m.setStore place (.ofFileText (← IO.FS.readFile file))
  else return m

/-- The machine, as far as a command line needs it. -/
def machineFor (c : CommandLine) : IO Machine := do
  let d ← readFile (← blank) c.config
  match Machine.configOf d c with
  | .error _ => return ⟨d, []⟩
  | .ok config =>
    let d ← lookAlong d (config.logFile.getD c.config)
    match c.task with
    | .init => return ⟨d, []⟩
    | .play true => return ⟨d, []⟩
    | .play false => readStore ⟨← lookAlong d config.savePath, []⟩ config.savePath
    | .compileGates adventure => return ⟨← readAdventure d config.root adventure, []⟩

/-- Writes the folders and files of a disk that are not as they were. -/
def writeChanges (before after : Disk) : IO Unit :=
  after.entries.reverse.forM fun (place, entry) => do
    if before.entry? place != some entry then
      match entry with
      | .folder => IO.FS.createDirAll (pathTo place)
      | .file bytes => IO.FS.writeBinFile (pathTo place) bytes

/-- Writes the stores of a machine to the files in their folders. -/
def writeStores (m : Machine) : IO Unit :=
  m.stores.forM fun (place, saves) =>
    IO.FS.writeFile (pathTo (place ++ [Saves.fileName])) saves.fileText

/-- Prints lines. -/
def printLines (out : IO.FS.Stream) (lines : List String) : IO Unit := do
  lines.forM out.putStrLn
  out.flush

/-- The game with the adventure that a line is about as it is on the disk now. -/
def refresh (g : Machine.Game) (line : String) : IO Machine.Game := do
  let open? := g.terminal.opened.map fun o => o.folder
  let folder? := match Terminal.Order.ofLine line with
    | .session _ named => some (named.getD g.terminal.settings.defaultId)
    | _ => open?
  match folder? with
  | some folder =>
    let disk ← readAdventure (← blank) g.terminal.settings.root folder
    return { g with machine := { g.machine with disk := disk } }
  | none => return g

/-- Answers lines of input until the game or the input ends. -/
partial def converse (input out : IO.FS.Stream) (g : Machine.Game) : IO Unit := do
  if ← input.isTty then
    out.putStr "> "
    out.flush
  let line ← input.getLine
  if line.isEmpty then return
  let (reply, g) := (← refresh g line).answer line
  if g.place.isSome then writeStores g.stored
  printLines out reply.lines
  if !reply.quit then converse input out g

/-- Runs the program with arguments. -/
def run (args : List String) : IO UInt32 := do
  let out ← IO.getStdout
  let m ← match CommandLine.parse args with
    | .run c => machineFor c
    | _ => pure ⟨← blank, []⟩
  match m.begin args with
  | .ended result =>
    writeChanges m.disk result.machine.disk
    printLines out result.output
    printLines (← IO.getStderr) result.complaints
    return UInt32.ofNat result.code
  | .playing g =>
    writeChanges m.disk g.machine.disk
    printLines out Terminal.banner
    converse (← IO.getStdin) out g
    return 0

end TextAdventure.Program

/-- Runs the program. -/
def main (args : List String) : IO UInt32 := TextAdventure.Program.run args
