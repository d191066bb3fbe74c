/-!
# The command line

The program has three tasks: to play, to write a configuration file, and to compile the gates of an
adventure. `CommandLine.parse` says which of them arguments ask for.
-/

namespace TextAdventure

/-- What the program is to do. -/
inductive CommandLine.Task where
  /-- Read lines and answer them. Saves of an ephemeral game are not kept. -/
  | play (ephemeral : Bool)
  /-- Write a configuration file. -/
  | init
  /-- Compile the gates of an adventure in its folder. -/
  | compileGates (adventure : String)
  deriving DecidableEq, Repr

/-- The arguments of the program. -/
structure CommandLine where
  task : CommandLine.Task
  /-- The path of the configuration file. -/
  config : String
  /-- Who plays, if not the player of the configuration. -/
  player : Option String
  deriving DecidableEq, Repr

namespace CommandLine

/-- What arguments mean. -/
inductive Parsed where
  | run (c : CommandLine)
  /-- A request for information about the program, answered with these lines. -/
  | information (lines : List String)
  /-- The arguments make no sense. -/
  | misuse
  deriving DecidableEq, Repr

/-- The name and version of the program. -/
def versionLine : String := "darkadv 0.3.0"

/-- How the program is called. -/
def usage : List String :=
  ["Usage: darkadv [OPTIONS] [COMMAND]",
    "",
    "Commands:",
    "  play [--ephemeral]         Play, which is the default; ephemeral saves are not kept",
    "  init                       Write a configuration file",
    "  compile-locks <ADVENTURE>  Compile the exit locks of an adventure in its folder",
    "  help [COMMAND]             Print this text",
    "",
    "Options:",
    "  -c, --config <CONFIG>  Path of the configuration file [default: config.toml]",
    "  -p, --player <PLAYER>  Name of the player",
    "  -v, --verbose...       Log more",
    "  -h, --help             Print this text",
    "  -V, --version          Print the version"]

/-- The path of the configuration file, unless it is given. -/
def standardConfig : String := "config.toml"

/-- Which task an argument belongs to, which decides what may be given. -/
inductive Scope where
  /-- No task is named yet. -/
  | outside
  | play
  | init
  | compileGates
  deriving DecidableEq, Repr

/-- What has been given so far in one scope. An option is given at most once in a scope, and the
innermost scope in which it is given counts. -/
structure Given where
  config : Option String
  player : Option String
  ephemeral : Bool
  adventure : Option String
  deriving DecidableEq, Repr

/-- Nothing given. -/
def Given.nothing : Given := ⟨none, none, false, none⟩

/-- An option with a value. -/
inductive Valued where
  | config
  | player
  deriving DecidableEq, Repr

/-- A value given to an option, unless the option has one in this scope. -/
def Given.set (g : Given) (option : Valued) (value : String) : Option Given :=
  match option with
  | .config => if g.config.isSome then none else some { g with config := value }
  | .player => if g.player.isSome then none else some { g with player := value }

/-- What one argument does. -/
inductive Effect where
  /-- Nothing but what it was given for. -/
  | done (g : Given)
  /-- The next argument is the value of an option. -/
  | awaits (option : Valued) (g : Given)
  | enters (scope : Scope)
  | informs (lines : List String)
  | fails
  deriving DecidableEq, Repr

/-- A value that stands in the same argument as its option. -/
def Given.accept (g : Given) (option : Valued) (value : String) : Effect :=
  match g.set option value with
  | some g => .done g
  | none => .fails

/-- The option that a letter stands for. -/
def Valued.ofLetter? : Char → Option Valued
  | 'c' => some .config
  | 'p' => some .player
  | _ => none

/-- The option with a name. -/
def Valued.ofName? : String → Option Valued
  | "config" => some .config
  | "player" => some .player
  | _ => none

/-- The letters of an argument after its dash. An option with a value takes the rest of the letters,
without an equals sign in front, or the next argument. -/
def letters (scope : Scope) (g : Given) : List Char → Effect
  | [] => .done g
  | c :: cs =>
    match Valued.ofLetter? c, cs with
    | some option, [] => .awaits option g
    | some option, '=' :: value => g.accept option (String.ofList value)
    | some option, value => g.accept option (String.ofList value)
    | none, cs =>
      if c == 'v' then letters scope g cs
      else if c == 'h' then .informs usage
      else if c == 'V' && scope == .outside then .informs [versionLine]
      else .fails

/-- An option without a value, by its name. -/
def flag (scope : Scope) (g : Given) (name : String) : Effect :=
  if name == "verbose" then .done g
  else if name == "help" then .informs usage
  else if name == "version" && scope == .outside then .informs [versionLine]
  else if name == "ephemeral" && scope == .play && !g.ephemeral then
    .done { g with ephemeral := true }
  else .fails

/-- The name of an argument after its two dashes, with the value after an equals sign. -/
def longName (scope : Scope) (g : Given) (text : List Char) : Effect :=
  let name := String.ofList (text.takeWhile (· != '='))
  match Valued.ofName? name, text.dropWhile (· != '=') with
  | some option, '=' :: value => g.accept option (String.ofList value)
  | some option, _ => .awaits option g
  | none, [] => flag scope g name
  | none, _ => .fails

/-- An argument without dashes in front. -/
def word (scope : Scope) (g : Given) (text : String) (wordsOnly : Bool) : Effect :=
  match scope with
  | .outside =>
    if wordsOnly then .fails
    else match text with
      | "play" => .enters .play
      | "init" => .enters .init
      | "compile-locks" => .enters .compileGates
      | _ => .fails
  | .compileGates =>
    if g.adventure.isSome then .fails else .done { g with adventure := some text }
  | _ => .fails

/-- What one argument does. After two dashes alone there are words only. -/
def effect (scope : Scope) (g : Given) (wordsOnly : Bool) (text : String) : Effect :=
  if wordsOnly then word scope g text true
  else match text.toList with
    | '-' :: '-' :: rest => longName scope g rest
    | '-' :: c :: rest => letters scope g (c :: rest)
    | _ => word scope g text false

/-- Whether an argument can be the value of an option before it. -/
def isValue (text : String) : Bool := text.toList.head? != some '-' || text == "-"

/-- Whether the words after `help` name a task. -/
def isHelpTopic (words : List String) : Bool :=
  match words with
  | [] => true
  | [w] => w == "play" || w == "init" || w == "compile-locks" || w == "help"
  | _ => false

/-- What was given in a scope and, where nothing was, in the one around it. -/
def Given.over (inner outer : Given) : Given :=
  { inner with config := inner.config <|> outer.config, player := inner.player <|> outer.player }

/-- The task of a scope, if everything that it needs was given. -/
def taskOf (scope : Scope) (g : Given) : Option Task :=
  match scope with
  | .outside => some (.play false)
  | .play => some (.play g.ephemeral)
  | .init => some .init
  | .compileGates => g.adventure.map .compileGates

/-- The meaning of all arguments, once there are no more. -/
def finish (scope : Scope) (outer g : Given) : Parsed :=
  let all := g.over outer
  match taskOf scope g with
  | some task => .run ⟨task, all.config.getD standardConfig, all.player⟩
  | none => .misuse

/-- The meaning of the arguments from one on. -/
def parseFrom (scope : Scope) (outer g : Given) (wordsOnly : Bool) : List String → Parsed
  | [] => finish scope outer g
  | text :: rest =>
    if text == "--" && !wordsOnly then parseFrom scope outer g true rest
    else if text == "help" && scope == .outside && !wordsOnly then
      if isHelpTopic rest then .information usage else .misuse
    else match effect scope g wordsOnly text with
      | .done g => parseFrom scope outer g wordsOnly rest
      | .enters scope => parseFrom scope g .nothing false rest
      | .informs lines => .information lines
      | .fails => .misuse
      | .awaits option g =>
        match rest with
        | [] => .misuse
        | value :: rest =>
          -- What looks like another option is not taken for a value.
          if isValue value then
            match g.set option value with
            | some g => parseFrom scope outer g wordsOnly rest
            | none => .misuse
          else .misuse

/-- What arguments mean. -/
def parse (args : List String) : Parsed := parseFrom .outside .nothing .nothing false args

end CommandLine

end TextAdventure
