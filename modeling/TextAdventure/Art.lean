import TextAdventure.Document

/-!
# References to pictures

A picture is a text file. It is named by its path alone or by an object with the path and a font
size; a document is written in the form in which it was read.
-/

namespace TextAdventure

/-- A reference to a picture. -/
inductive ArtRef where
  | path (file : String)
  | record (file : String) (fontSize : Option UInt32)
  deriving DecidableEq, Repr

namespace ArtRef

/-- The path of the picture. -/
def file : ArtRef → String
  | path f => f
  | record f _ => f

/-- Reads a reference. Both forms are tried on the whole value, so no part of it may be refused. -/
def ofTree? (t : Json.Tree) : Option ArtRef := do
  let _ ← t.toJson?
  match t with
  | .string s => return .path s
  | t =>
    let r : Json.Record Json.Tree := ⟨← t.objectFields?⟩
    return .record (← r.required "file" Json.Tree.string?)
      (← r.optional "fontSize" Json.Tree.uint32?)

/-- The value that is written for a reference. -/
def toJson : ArtRef → Json
  | path f => .string f
  | record f size => .object (("file", .string f) :: Json.optionalField "fontSize" .ofUInt32 size)

instance : Document ArtRef := ⟨ofTree?, toJson⟩

end ArtRef

end TextAdventure
