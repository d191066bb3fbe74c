import TextAdventure.Disk
import TextAdventure.Stats
import TextAdventure.Text
import TextAdventure.Toml.Reader

/-!
# Configuration

Where adventures and saves lie, who plays, and what is logged. Every value has a default. A
configuration is read from a TOML file, or from JSON, and has to pass `Config.fault?` before it is
used.
-/

namespace TextAdventure

/-- How much is logged. -/
inductive LogLevel where
  | off
  | error
  | warn
  | info
  | debug
  | trace
  deriving DecidableEq, Repr

namespace LogLevel

/-- The name of a level. -/
def name : LogLevel → String
  | off => "OFF"
  | error => "ERROR"
  | warn => "WARN"
  | info => "INFO"
  | debug => "DEBUG"
  | trace => "TRACE"

/-- The level with a name, in capital or small letters. An unknown name means `info`. -/
def ofName (text : String) : LogLevel :=
  let capitals := String.ofList (text.toList.map Char.toUpper)
  ([off, error, warn, info, debug, trace].find? fun l => l.name == capitals).getD info

end LogLevel

/-- A configuration. -/
structure Config where
  /-- The folder that holds the folders of adventures. -/
  root : String
  /-- The adventure that is played when none is named. -/
  defaultId : String
  /-- The folder of the store of saves. -/
  savePath : String
  /-- What the keys of saves begin with. -/
  saveMark : String
  /-- Who plays, if the configuration says so. -/
  playerName : Option String
  /-- The strength of a new player. -/
  stats : Stats
  logLevel : String
  /-- The file of the log, if there is one. -/
  logFile : Option String
  deriving DecidableEq, Repr

/-- What is wrong with a configuration. -/
inductive Config.Fault where
  | noRoot
  | noDefaultId
  | noSavePath
  | hp (n : Int32)
  | strength (attack defense : Int32)
  deriving DecidableEq, Repr

/-- Why a configuration file could not be used. -/
inductive Config.Error where
  | unreadable (path : String) (cause : DiskError)
  | unwritable (path : String) (cause : DiskError)
  | malformed (path : String)
  | invalid (fault : Config.Fault)
  deriving DecidableEq, Repr

namespace Config

/-- A number in a message. -/
def number (n : Int32) : String := Decimal.text n.toInt

/-- The wording of a fault. -/
def Fault.message : Fault → String
  | noRoot => "adventure.root must not be empty"
  | noDefaultId => "adventure.default_id must not be empty"
  | noSavePath => "storage.save_path must not be empty"
  | hp n => "player.stats.hp must be positive (got " ++ number n ++ ")"
  | strength attack defense =>
    "player.stats.attack and defense must not be negative (got " ++ number attack ++ "/" ++
      number defense ++ ")"

/-- The wording of an error. -/
def Error.message : Error → String
  | unreadable path cause => "Failed to read config file " ++ path ++ ": " ++ cause.message
  | unwritable path cause => "Failed to write config file " ++ path ++ ": " ++ cause.message
  | malformed path => "Failed to parse config file " ++ path
  | invalid fault => fault.message

/-- The configuration without a configuration file. -/
def standard : Config where
  root := "adventures"
  defaultId := "adventure"
  savePath := "data/saves"
  saveMark := "darkadv_"
  playerName := none
  stats := .starting
  logLevel := "info"
  logFile := some "darkadv.log"

/-- How much a configuration asks to log. -/
def level (c : Config) : LogLevel := .ofName c.logLevel

/-- The first fault of a configuration, if it has one. -/
def fault? (c : Config) : Option Fault :=
  if Text.isBlankText c.root then some .noRoot
  else if Text.isBlankText c.defaultId then some .noDefaultId
  else if Text.isBlankText c.savePath then some .noSavePath
  else if c.stats.hp ≤ 0 then some (.hp c.stats.hp)
  else if c.stats.attack < 0 ∨ c.stats.defense < 0 then
    some (.strength c.stats.attack c.stats.defense)
  else none

/-- A way to get the fields of a section, given their names. -/
abbrev Opener := List String → Json.Tree → Option (Json.Record Json.Tree)

/-- Sections of JSON: an array must not have more values than the section has fields. -/
def openStrictly : Opener := fun names t => t.record? names 0

/-- Sections of TOML: values that an array has left over are not looked at. -/
def openLeniently : Opener := fun names t =>
  match t with
  | .array items => (Json.Tree.array (items.take names.length)).record? names 0
  | t => t.record? names 0

/-- The fields of a section that may be left out as a whole. -/
def sectionOf (opener : Opener) (r : Json.Record Json.Tree) (name : String)
    (names : List String) : Option (Json.Record Json.Tree) :=
  r.withDefault name ⟨[]⟩ (opener names)

/-- Reads a configuration. Values that are left out are the standard ones. -/
def ofTree? (opener : Opener) (t : Json.Tree) : Option Config := do
  let r ← opener ["adventure", "storage", "player", "logging"] t
  let adventure ← sectionOf opener r "adventure" ["root", "default_id"]
  let storage ← sectionOf opener r "storage" ["save_path", "save_prefix"]
  let player ← sectionOf opener r "player" ["name", "stats"]
  let logging ← sectionOf opener r "logging" ["level", "file"]
  let statsOf (t : Json.Tree) := (opener Stats.fieldNames t).bind Stats.ofRecord?
  let text := Json.Tree.string?
  return {
    root := ← adventure.withDefault "root" standard.root text
    defaultId := ← adventure.withDefault "default_id" standard.defaultId text
    savePath := ← storage.withDefault "save_path" standard.savePath text
    saveMark := ← storage.withDefault "save_prefix" standard.saveMark text
    playerName := ← player.optional "name" text
    stats := ← player.withDefault "stats" standard.stats statsOf
    logLevel := ← logging.withDefault "level" standard.logLevel text
    logFile := ← logging.withDefault "file" standard.logFile (Json.Tree.nullable? text) }

/-- The configuration that a JSON text holds. -/
def ofJsonText? (text : String) : Option Config :=
  (Json.Tree.ofText? text).bind (ofTree? openStrictly)

/-- The configuration that a TOML text holds. -/
def ofTomlText? (text : String) : Option Config :=
  (Toml.ofText? text).bind fun fields =>
    ofTree? openLeniently (.object (Toml.fieldsToTree fields))

/-- The configuration as a value. -/
def toJson (c : Config) : Json :=
  .object [
    ("adventure", .object [("root", .string c.root), ("default_id", .string c.defaultId)]),
    ("storage", .object [("save_path", .string c.savePath), ("save_prefix", .string c.saveMark)]),
    ("player", .object (Json.optionalField "name" .string c.playerName ++
      [("stats", c.stats.toJson)])),
    ("logging", .object (("level", .string c.logLevel) ::
      Json.optionalField "file" .string c.logFile))]

/-- The configuration in a file. -/
def load (d : Disk) (path : String) : Except Error Config :=
  match d.readText path with
  | .error e => .error (.unreadable path e)
  | .ok text =>
    match ofTomlText? text with
    | none => .error (.malformed path)
    | some c =>
      match c.fault? with
      | some fault => .error (.invalid fault)
      | none => .ok c

/-- A line that gives a text to a key. -/
def textLine (key value : String) : String :=
  key ++ " = " ++ String.ofList (Json.Writer.quote value)

/-- A line that gives a number to a key. -/
def numberLine (key : String) (value : Int32) : String := key ++ " = " ++ number value

/-- The standard configuration as a file. -/
def standardText : String :=
  "\n".intercalate [
    "[adventure]",
    textLine "root" standard.root,
    textLine "default_id" standard.defaultId,
    "",
    "[storage]",
    textLine "save_path" standard.savePath,
    textLine "save_prefix" standard.saveMark,
    "",
    "[player.stats]",
    numberLine "hp" standard.stats.hp,
    numberLine "attack" standard.stats.attack,
    numberLine "defense" standard.stats.defense,
    "",
    "[logging]",
    textLine "level" standard.logLevel,
    textLine "file" (standard.logFile.getD ""),
    ""]

/-- Writes the standard configuration to a file. -/
def create (d : Disk) (path : String) : Except Error Disk :=
  match d.writeText path standardText with
  | .ok d => .ok d
  | .error e => .error (.unwritable path e)

end Config

end TextAdventure
