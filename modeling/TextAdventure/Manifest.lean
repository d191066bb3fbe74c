import TextAdventure.Disk
import TextAdventure.Library

/-!
# Manifests

An adventure is a folder with a manifest that says what it is called and where its data lies. All of
it may be left out.
-/

namespace TextAdventure

/-- What is known about an adventure folder. -/
structure Manifest where
  id : String
  title : String
  /-- The path of the folder. -/
  basePath : String
  /-- The path of the data folder. -/
  dataPath : String
  /-- The path of the world document, below the data folder. -/
  worldFile : String
  deriving DecidableEq, Repr

namespace Manifest

/-- The name of the manifest in its folder. -/
def fileName : String := "game.json"

/-- The title of an adventure whose manifest gives none. -/
def standardTitle : String := "NRW Noir Adventure"

/-- The data folder of an adventure whose manifest gives none. -/
def standardData : String := "data"

/-- A path without the signs for the current folder in front of it. -/
def dropHere : List Char → List Char
  | '.' :: '/' :: rest => dropHere rest
  | cs => cs

/-- The path of the data folder as a manifest gives it, starting from the folder of the
adventure. -/
def dataPathFrom (base path : String) : String :=
  Path.join base (Disk.trimSlashes (String.ofList (dropHere path.toList)))

/-- The fields of a manifest. -/
def fieldNames : List String := ["id", "title", "dataPath", "worldFile"]

/-- Reads a manifest of the adventure in a folder that is called `folderId`. In the form of an array
it has to be complete. -/
def ofTree? (base folderId : String) (t : Json.Tree) : Option Manifest := do
  let r ← t.record? fieldNames fieldNames.length
  let id ← r.optional "id" Json.Tree.string?
  let title ← r.optional "title" Json.Tree.string?
  let dataPath ← r.optional "dataPath" Json.Tree.string?
  let worldFile ← r.optional "worldFile" Json.Tree.string?
  return {
    id := id.getD folderId
    title := title.getD standardTitle
    basePath := base
    dataPath := dataPathFrom base (dataPath.getD standardData)
    worldFile := worldFile.getD Library.standardWorldFile }

/-- The manifest of an adventure below a root folder. -/
def load (d : Disk) (root id : String) : Except Failure Manifest :=
  let base := Path.join root id
  let path := Path.join base fileName
  match d.readText path with
  | .ok text =>
    match (Json.Tree.ofText? text).bind (ofTree? base id) with
    | some m => .ok m
    | none => .error (.parse path)
  | .error e => .error (.load path e.message)

/-- The texts of an adventure. -/
def source (m : Manifest) (d : Disk) : Source := d.texts m.dataPath

end Manifest

end TextAdventure
