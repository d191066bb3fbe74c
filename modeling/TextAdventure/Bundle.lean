import TextAdventure.Room
import TextAdventure.Thing

/-!
# The authored part of an adventure

A bundle holds the rooms and fixtures of an adventure by their ids, for tools that change them as a
whole.
-/

namespace TextAdventure

/-- The rooms and fixtures of an adventure. -/
structure Bundle where
  rooms : Table Room
  objects : Table Fixture

namespace Bundle

/-- A bundle without documents. -/
def empty : Bundle := ⟨.empty, .empty⟩

/-- The bundle with a room, in place of any other room with the same id. -/
def addRoom (b : Bundle) (r : Room) : Bundle := { b with rooms := b.rooms.insert r.id r }

/-- The bundle with a fixture, in place of any other fixture with the same id. -/
def addFixture (b : Bundle) (f : Fixture) : Bundle :=
  { b with objects := b.objects.insert f.id f }

/-- The documents of a bundle as one value. -/
def toJson (b : Bundle) : Json :=
  .object [("rooms", .ofTable Room.toJson b.rooms), ("objects", .ofTable Fixture.toJson b.objects)]

/-- Whether two bundles hold equal documents. -/
def same (b c : Bundle) : Bool := b.toJson.same c.toJson

end Bundle

end TextAdventure
