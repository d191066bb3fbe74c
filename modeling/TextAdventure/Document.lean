import TextAdventure.Json.Reader
import TextAdventure.Json.Writer

/-!
# Documents

A document is a value that authors and saves write as JSON. `Document` names the two directions:
what a JSON text is read as, and the value that is written. A document may be readable from texts
that differ from the written one, for example with fields left out or out of order.
-/

namespace TextAdventure

/-- A kind of document. -/
class Document (α : Type) where
  /-- The document that a text says, if it says one of this kind. -/
  ofTree? : Json.Tree → Option α
  /-- The value that is written for a document. -/
  toJson : α → Json

namespace Document

variable {α : Type} [Document α]

/-- The document that a text holds. -/
def ofText? (text : String) : Option α := (Json.Tree.ofText? text).bind ofTree?

/-- The compact text of a document. -/
def text (doc : α) : String := (toJson doc).compactText

/-- The pretty text of a document, as it stands in a file. -/
def fileText (doc : α) : String := (toJson doc).prettyText ++ "\n"

end Document

namespace Json

/-- A string as a value, or nothing. -/
def stringList (xs : List String) : Json := .array (xs.map .string)

/-- A 32-bit integer as a value. -/
def ofInt32 (n : Int32) : Json := .number (.integer n.toInt)

/-- An unsigned 32-bit integer as a value. -/
def ofUInt32 (n : UInt32) : Json := .number (.integer n.toNat)

/-- A table as an object. -/
def ofTable {α : Type} (write : α → Json) (t : Table α) : Json :=
  .object (t.entries.map fun e => (e.1, write e.2))

/-- A field that is left out when there is no value for it. -/
def optionalField {α : Type} (name : String) (write : α → Json) :
    Option α → List (String × Json)
  | some x => [(name, write x)]
  | none => []

end Json

end TextAdventure
