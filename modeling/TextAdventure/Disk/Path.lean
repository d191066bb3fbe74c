/-!
# Paths as text

A path is a text of names with slashes between them. Joining paths only puts texts together: nothing
is looked up, and no name is simplified.
-/

namespace TextAdventure.Path

/-- Whether a path starts at the root of the file system. -/
def isAbsolute (path : String) : Bool := path.toList.head? == some '/'

/-- The path that leads on from another. An absolute path does not depend on where it leads on. -/
def join (base path : String) : String :=
  if isAbsolute path then path
  else match base.toList.getLast? with
    | none => path
    | some c => if c == '/' then base ++ path else base ++ "/" ++ path

/-- The names of a path. Slashes at the ends and next to each other leave empty names. -/
def names (path : String) : List String :=
  (path.toList.splitOnP fun c => c == '/').map String.ofList

/-- Whether a name stands for the folder in which it is found. -/
def staysHere (name : String) : Bool := name == "" || name == "."

/-- One step along a name from a place, which is given by the names from the root to it. -/
def goTo (place : List String) (name : String) : List String :=
  if staysHere name then place else if name == ".." then place.dropLast else place ++ [name]

/-- The names from the root to where a path leads from a place, if no name on the way stands for
another place. -/
def resolve (here : List String) (path : String) : List String :=
  (names path).foldl goTo (if isAbsolute path then [] else here)

/-- Whether a file name has the extension of JSON files, after at least one character. -/
def isJsonFile (name : String) : Bool :=
  5 < name.length && ".json".toList.isSuffixOf name.toList

end TextAdventure.Path
