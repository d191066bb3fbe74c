import TextAdventure.Disk.Path
import TextAdventure.Failure
import TextAdventure.Table

/-!
# A file system

A `Disk` is a tree of folders and files, given by the entry at each place, together with the folder
from which relative paths start. The operations answer what an operating system answers, with its
wording of errors (`DiskError.message`).
-/

namespace TextAdventure

/-- Why a file operation failed. -/
inductive DiskError where
  | notFound
  | notAFolder
  | isAFolder
  | alreadyThere
  | nameTooLong
  /-- A path holds a character that no path can hold. -/
  | badName
  /-- The bytes of a file are no text. -/
  | notText
  deriving DecidableEq, Repr

/-- The wording of an error. -/
def DiskError.message : DiskError → String
  | notFound => "No such file or directory (os error 2)"
  | notAFolder => "Not a directory (os error 20)"
  | isAFolder => "Is a directory (os error 21)"
  | alreadyThere => "File exists (os error 17)"
  | nameTooLong => "File name too long (os error 36)"
  | badName => "file name contained an unexpected NUL byte"
  | notText => "stream did not contain valid UTF-8"

/-- A place in the tree: the names on the way from its root. -/
abbrev Place := List String

/-- What is at a place. -/
inductive Entry where
  | folder
  | file (bytes : ByteArray)
  deriving BEq

/-- A tree of folders and files. -/
structure Disk where
  /-- What is where. Places that are not listed are free. -/
  entries : List (Place × Entry)
  /-- The folder from which relative paths start. -/
  here : Place

namespace Disk

/-- A tree with one folder, from which relative paths start. -/
def empty (here : Place) : Disk := ⟨[(here, .folder)], here⟩

/-- What is at a place. The root is a folder. -/
def entry? (d : Disk) (place : Place) : Option Entry :=
  if place.isEmpty then some .folder else d.entries.lookup place

/-- The tree with an entry at a place. -/
def set (d : Disk) (place : Place) (e : Entry) : Disk :=
  { d with entries := (place, e) :: d.entries.filter fun x => x.1 != place }

/-- The tree without the entry at a place. -/
def unset (d : Disk) (place : Place) : Disk :=
  { d with entries := d.entries.filter fun x => x.1 != place }

/-- The longest name, in bytes. -/
def maxNameSize : Nat := 255

/-- The place to which names lead from another. All but the last have to name folders, and a name
that is not there can only be the last. -/
def follow (d : Disk) (place : Place) : List String → Except DiskError Place
  | [] => .ok place
  | name :: rest =>
    match d.entry? place with
    | some .folder =>
      if Path.staysHere name then d.follow place rest
      else if name = ".." then d.follow place.dropLast rest
      else if maxNameSize < name.utf8ByteSize then .error .nameTooLong
      -- A name that is not there may still be created, if nothing comes after it.
      else if (d.entry? (place ++ [name])).isSome || rest.isEmpty then
        d.follow (place ++ [name]) rest
      else .error .notFound
    | some (.file _) => .error .notAFolder
    | none => .error .notFound

/-- The folder from which a path starts. -/
def startOf (d : Disk) (path : String) : Place := if Path.isAbsolute path then [] else d.here

/-- The longest path, in bytes. -/
def maxPathSize : Nat := 4095

/-- The place to which a path leads. There may be nothing there. -/
def locate (d : Disk) (path : String) : Except DiskError Place :=
  if path.toList.contains '\x00' then .error .badName
  else if path.isEmpty then .error .notFound
  else if maxPathSize < path.utf8ByteSize then .error .nameTooLong
  else d.follow (d.startOf path) (Path.names path)

/-- What a path leads to. -/
def lookUp (d : Disk) (path : String) : Except DiskError Entry :=
  match d.locate path with
  | .ok place =>
    match d.entry? place with
    | some e => .ok e
    | none => .error .notFound
  | .error e => .error e

/-- Whether a path leads to something. -/
def isThere (d : Disk) (path : String) : Bool :=
  match d.lookUp path with
  | .ok _ => true
  | .error _ => false

/-- Whether a path leads to a folder. -/
def isFolder (d : Disk) (path : String) : Bool :=
  match d.lookUp path with
  | .ok .folder => true
  | _ => false

/-- The text of a file. -/
def readText (d : Disk) (path : String) : Except DiskError String :=
  match d.lookUp path with
  | .ok .folder => .error .isAFolder
  | .ok (.file bytes) =>
    match String.fromUTF8? bytes with
    | some text => .ok text
    | none => .error .notText
  | .error e => .error e

/-- The names of the entries of a folder, in order. -/
def list (d : Disk) (path : String) : List String :=
  match d.locate path with
  | .ok place =>
    let inside := d.entries.filter fun e => !e.1.isEmpty && e.1.dropLast == place
    (IdSet.ofIds (inside.filterMap fun e => e.1.getLast?)).keys
  | .error _ => []

/-- The path without slashes at its end. -/
def trimSlashes (path : String) : String :=
  String.ofList (path.toList.reverse.dropWhile (· == '/')).reverse

/-- The error for writing to a path that cannot be located. A path that would name a new file if it
did not end in a slash names a folder. -/
def writeError (d : Disk) (path : String) (e : DiskError) : DiskError :=
  if e == .notFound && path.toList.getLast? == some '/' then
    match d.locate (trimSlashes path) with
    | .ok _ => .isAFolder
    | .error _ => e
  else e

/-- The tree after writing a text to a file. -/
def writeText (d : Disk) (path text : String) : Except DiskError Disk :=
  match d.locate path with
  | .ok place =>
    match d.entry? place with
    | some .folder => .error .isAFolder
    | _ => .ok (d.set place (.file text.toUTF8))
  | .error e => .error (d.writeError path e)

/-- The tree after creating one folder, to which names lead from a place. -/
def createFolder (d : Disk) (start : Place) (names : List String) : Except DiskError Disk :=
  match d.follow start names with
  | .ok place =>
    match d.entry? place with
    | some _ => .error .alreadyThere
    | none => .ok (d.set place .folder)
  | .error e => .error e

/-- Whether names lead from a place to a folder. -/
def leadsToFolder (d : Disk) (start : Place) (names : List String) : Bool :=
  match d.follow start names with
  | .ok place => d.entry? place == some .folder
  | .error _ => false

/-- The tree after creating a folder, unless it is there. -/
def ensureFolder (start : Place) (names : List String) (d : Disk) :
    Except DiskError Unit × Disk :=
  match d.createFolder start names with
  | .ok d => (.ok (), d)
  | .error e => (if d.leadsToFolder start names then .ok () else .error e, d)

/-- The tree after creating a folder and those on the way to it, unless they are there. The names
that lead to the folder are given backwards. -/
def createFoldersFrom (start : Place) : List String → Disk → Except DiskError Unit × Disk
  | [], d => (.ok (), d)
  | name :: before, d =>
    match d.createFolder start (name :: before).reverse with
    | .ok d => (.ok (), d)
    | .error .notFound =>
      -- The folder around it is missing as well, so that one comes first.
      match createFoldersFrom start before d with
      | (.ok (), d) => d.ensureFolder start (name :: before).reverse
      | (.error e, d) => (.error e, d)
    | .error e =>
      (if d.leadsToFolder start (name :: before).reverse then .ok () else .error e, d)

/-- The tree after creating the folder to which a path leads and those on the way to it, unless they
are there. Folders that were created before an error stay. -/
def createFolders (d : Disk) (path : String) : Except DiskError Unit × Disk :=
  if path.toList.contains '\x00' then (.error .badName, d)
  else
    let names := (Path.names path).filter fun name => !Path.staysHere name
    createFoldersFrom (d.startOf path) names.reverse d

/-- The texts of the files below a folder. A path that has no text is named in full. -/
def texts (d : Disk) (folder : String) : String → Except Failure String := fun path =>
  let full := Path.join folder path
  match d.readText full with
  | .ok text => .ok text
  | .error e => .error (.load full e.message)

end Disk

end TextAdventure
