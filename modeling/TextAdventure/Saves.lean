import TextAdventure.Failure
import TextAdventure.LetterCase
import TextAdventure.Table
import TextAdventure.Text

/-!
# The store of saves

A store keeps bytes under keys. Its calls may fail: for each kind of call the store says how many
more will succeed, if there is a limit. A call that fails changes nothing.

`Saves` stands for a `KeyValueStore` of which this is true. The store on disk, `SledKeyValueStore`,
flushes after it has inserted or removed a key, and if only the flush fails, the call fails although
the key was changed; the flush is not modelled.
-/

namespace TextAdventure

/-- A store of saves. -/
structure Saves where
  entries : Table ByteArray
  /-- How many more reads succeed, if there is a limit. -/
  gets : Option Nat
  /-- How many more writes succeed, if there is a limit. -/
  puts : Option Nat
  /-- How many more deletions succeed, if there is a limit. -/
  removes : Option Nat

namespace Saves

/-- An empty store whose calls do not fail. -/
def empty : Saves := ⟨.empty, none, none, none⟩

/-- What is left of a limit after one more call, unless the limit is reached. -/
def spend : Option Nat → Option (Option Nat)
  | none => some none
  | some 0 => none
  | some (n + 1) => some (some n)

/-- The failure of a call beyond the limit. -/
def refused : Failure := .io "disk full"

/-- The bytes under a key, if there are any. -/
def get (s : Saves) (key : String) : Except Failure (Option ByteArray) × Saves :=
  match spend s.gets with
  | none => (.error refused, s)
  | some left => (.ok (s.entries.get? key), { s with gets := left })

/-- Writes bytes under a key. -/
def put (s : Saves) (key : String) (value : ByteArray) : Except Failure Unit × Saves :=
  match spend s.puts with
  | none => (.error refused, s)
  | some left => (.ok (), { s with puts := left, entries := s.entries.insert key value })

/-- Deletes what is under a key. -/
def remove (s : Saves) (key : String) : Except Failure Unit × Saves :=
  match spend s.removes with
  | none => (.error refused, s)
  | some left => (.ok (), { s with removes := left, entries := s.entries.erase key })

/-- Who plays when nobody says a name. -/
def guest : String := "guest"

/-- The name under which a player is known: without blanks around it and in lower case. A blank name
is no name. -/
def identityName (identity : Option String) : String :=
  match identity.map Text.trim with
  | some name => LetterCase.lower (if name.isEmpty then guest else name)
  | none => guest

/-- The key of the save of a player in an adventure. Keys of one program begin with the same
`mark`. -/
def key (mark adventure : String) (identity : Option String) : String :=
  mark ++ adventure ++ ":" ++ identityName identity

end Saves

end TextAdventure
