import TextAdventure.Config
import TextAdventure.Manifest
import TextAdventure.Session

/-!
# The terminal

What a player types into goes first to the terminal: it opens adventures by the names of their
folders, leaves them and ends the program. While an adventure is under way every other line is input
for it.
-/

namespace TextAdventure

/-- What a terminal needs to open adventures. -/
structure Terminal.Settings where
  /-- The folder that holds the folders of adventures. -/
  root : String
  /-- The adventure that is opened when none is named. -/
  defaultId : String
  /-- What the keys of saves begin with. -/
  saveMark : String
  /-- Who plays. -/
  identity : Option String
  /-- The strength of a new player. -/
  stats : Stats
  deriving DecidableEq, Repr

/-- An adventure that was opened. -/
structure Terminal.Opened where
  /-- The folder by whose name it was opened. -/
  folder : String
  manifest : Manifest
  session : Session

/-- A terminal. -/
structure Terminal where
  settings : Terminal.Settings
  /-- The adventure that was opened last. -/
  opened : Option Terminal.Opened

namespace Terminal

/-- The settings that a configuration gives. -/
def Settings.ofConfig (c : Config) : Settings :=
  ⟨c.root, c.defaultId, c.saveMark, c.playerName, c.stats⟩

/-- A terminal that has opened nothing. -/
def new (settings : Settings) : Terminal := ⟨settings, none⟩

/-- The lines with which a terminal greets. -/
def banner : List String :=
  ["Darknetz-Terminal bereit.", "Tippe \"help\" für eine Übersicht."]

/-- The lines that help at the terminal. -/
def helpLines : List String :=
  ["Befehle:",
    "start [id]     - Neues Abenteuer starten",
    "continue [id]  - Letzten Spielstand laden",
    "reset [id]     - Spielstand zurücksetzen",
    "exit | quit    - Adventure verlassen bzw. Terminal beenden",
    "help           - Diese Hilfe",
    "Während des Adventures werden Eingaben direkt interpretiert."]

/-- What a line asks the terminal for. -/
inductive Order where
  /-- A request to an adventure, which may be named. -/
  | session (request : Session.Request) (folder : Option String)
  | leave
  | help
  /-- Input for the adventure. -/
  | gameplay
  deriving DecidableEq, Repr

/-- Whether a word is the one that may stand before an order. -/
def isMark (word : String) : Bool := word.toList.map Char.toLower == ['a', 'd', 'v']

/-- The words of a line after the word that may stand before an order. -/
def orderWords (line : String) : List String :=
  match Text.words line with
  | word :: words => if isMark word then words else word :: words
  | [] => []

/-- What a line asks for. -/
def Order.ofLine (line : String) : Order :=
  match orderWords line with
  | [] => .gameplay
  | word :: words =>
    match LetterCase.lower word with
    | "start" => .session .start words.head?
    | "continue" => .session .resume words.head?
    | "reset" => .session .reset words.head?
    | "exit" | "quit" => .leave
    | "help" => .help
    | _ => .gameplay

/-- The answer to a line. -/
structure Reply where
  lines : List String
  /-- Whether the program ends. -/
  quit : Bool
  terminal : Terminal
  saves : Saves

/-- Whether an adventure is under way. -/
def isPlaying (t : Terminal) : Bool := (t.opened.map fun o => o.session.active).getD false

/-- The line about a failure. -/
def failureLine (e : Failure) : String := "Fehler: " ++ e.message

/-- The adventure in a folder: the one that is open, if it was opened by this name, or else a new
session. -/
def openFolder (t : Terminal) (d : Disk) (folder : String) : Except Failure Opened :=
  let fresh : Except Failure Opened := do
    let m ← Manifest.load d t.settings.root folder
    let key := Saves.key t.settings.saveMark m.id t.settings.identity
    return ⟨folder, m, Session.new m.id m.title m.worldFile key t.settings.stats⟩
  match t.opened with
  | some o => if o.folder == folder then .ok o else fresh
  | none => fresh

/-- Hands a request to an adventure, which is then the one that was opened last. -/
def request (t : Terminal) (o : Opened) (d : Disk) (saves : Saves) (r : Session.Request) :
    Reply :=
  let reply := o.session.handle (o.manifest.source d) saves r
  -- A request that fails leaves its traces in the session, which stays open.
  let lines := match reply.result with
    | .ok lines => lines
    | .error e => [failureLine e]
  ⟨lines, false, { t with opened := some { o with session := reply.session } }, reply.saves⟩

/-- Answers a line without blanks around it. -/
def handleTrimmed (t : Terminal) (d : Disk) (saves : Saves) (line : String) : Reply :=
  match Order.ofLine line with
  | .session r folder =>
    match t.openFolder d (folder.getD t.settings.defaultId) with
    | .ok o => t.request o d saves r
    | .error e => ⟨[failureLine e], false, t, saves⟩
  | .leave =>
    match t.opened with
    | some o =>
      if o.session.active then t.request o d saves .leave
      else ⟨["Verbindung getrennt."], true, t, saves⟩
    | none => ⟨["Verbindung getrennt."], true, t, saves⟩
  | .help =>
    ⟨helpLines ++ if t.isPlaying then Action.helpLines else [], false, t, saves⟩
  | .gameplay =>
    if line.isEmpty then ⟨[], false, t, saves⟩
    else
      let unknown := "Unbekannter Befehl. Tippe \"help\" für eine Übersicht."
      match t.opened with
      | some o =>
        if o.session.active then t.request o d saves (.input line)
        else ⟨[unknown], false, t, saves⟩
      | none => ⟨[unknown], false, t, saves⟩

/-- Answers a line. -/
def handle (t : Terminal) (d : Disk) (saves : Saves) (line : String) : Reply :=
  t.handleTrimmed d saves (Text.trim line)

end Terminal

end TextAdventure
