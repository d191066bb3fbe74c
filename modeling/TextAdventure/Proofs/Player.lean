import TextAdventure.Player
import TextAdventure.Proofs.Table

/-!
# The progress of a player

What the changes of a player do to the rooms it has seen and to the exits that scripts have closed
or opened. Many changes leave all of this alone (`Player.SamePlace`).
-/

namespace TextAdventure.Player

/-- Which rooms a player has seen is a matter of its record of rooms seen. -/
theorem hasVisited_congr {p q : Player} (h : q.visited = p.visited) (id : String) :
    q.hasVisited id = p.hasVisited id := congrArg (Table.contains · id) h

/-- Seeing a room makes it one of the rooms seen. -/
theorem hasVisited_markVisited (p : Player) (id id' : String) :
    (p.markVisited id).hasVisited id' = (decide (id' = id) || p.hasVisited id') :=
  IdSet.contains_add p.visited id id'

/-- Seeing a room again changes nothing. -/
theorem markVisited_eq_self {p : Player} {id : String} (h : p.hasVisited id = true) :
    p.markVisited id = p := by
  unfold markVisited
  rw [IdSet.add_eq_self h]

/-- A change that leaves the player where it is: what is known of rooms, exits and flags stays, and
only the body of the player changes, what it carries and how it fights. -/
structure SamePlace (p q : Player) : Prop where
  /-- The player stays in its room. -/
  location : q.location = p.location
  /-- The rooms seen stay. -/
  visited : q.visited = p.visited
  /-- The exits that are closed or open stay so. -/
  lockedExits : q.lockedExits = p.lockedExits
  /-- The flags stay. -/
  flags : q.flags = p.flags

/-- Nothing has to change. -/
theorem SamePlace.refl (p : Player) : p.SamePlace p := ⟨rfl, rfl, rfl, rfl⟩

/-- Changes of the body one after the other change the body only. -/
theorem SamePlace.trans {p q r : Player} (h : p.SamePlace q) (h' : q.SamePlace r) :
    p.SamePlace r where
  location := h'.location.trans h.location
  visited := h'.visited.trans h.visited
  lockedExits := h'.lockedExits.trans h.lockedExits
  flags := h'.flags.trans h.flags

/-- The same rooms are seen. -/
theorem SamePlace.hasVisited {p q : Player} (h : p.SamePlace q) (id : String) :
    q.hasVisited id = p.hasVisited id := hasVisited_congr h.visited id

/-- Getting an item changes the body only. -/
theorem samePlace_addItem (p : Player) (id : String) : p.SamePlace (p.addItem id) := by
  unfold addItem
  split <;> exact ⟨rfl, rfl, rfl, rfl⟩

/-- Taking an item changes the body only. -/
theorem samePlace_takeItem (p : Player) (listed id : String) :
    p.SamePlace (p.takeItem listed id) := by
  unfold takeItem addItem
  split <;> exact ⟨rfl, rfl, rfl, rfl⟩

/-- Being in a fight changes the body only. -/
theorem samePlace_beginCombat (p : Player) (enemy : Enemy) : p.SamePlace (p.beginCombat enemy) :=
  ⟨rfl, rfl, rfl, rfl⟩

/-- Being out of a fight changes the body only. -/
theorem samePlace_endCombat (p : Player) : p.SamePlace p.endCombat := ⟨rfl, rfl, rfl, rfl⟩

/-- Another strength changes the body only. -/
theorem samePlace_stats (p : Player) (stats : Stats) : p.SamePlace { p with stats := stats } :=
  ⟨rfl, rfl, rfl, rfl⟩

/-- Another enemy changes the body only. -/
theorem samePlace_enemy (p : Player) (enemy : Option Enemy) :
    p.SamePlace { p with enemy := enemy } := ⟨rfl, rfl, rfl, rfl⟩

end TextAdventure.Player
