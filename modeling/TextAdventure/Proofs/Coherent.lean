import Mathlib.Data.List.Nodup
import TextAdventure.Proofs.Upkeep

/-!
# Players are coherent

A player is coherent if no item is carried twice and a fight is on exactly while an enemy is there.
Every change that play makes keeps a player coherent, and so does reading a save, whatever its bytes
say: ids that a save repeats are carried once, and the fight is recorded as the enemy says. So the
player of a session is coherent after every request (`Session.Possible.coherent`), however the
content and the store change in between and whether requests succeed or fail.
-/

namespace TextAdventure

namespace SaveRecord

/-- Ids without those that occurred before do not repeat. -/
theorem nodup_firstOccurrences (ids : List String) : (firstOccurrences ids).Nodup := by
  -- The induction is over the ids still to come, behind those seen.
  have hfold : ∀ (ids seen : List String), seen.Nodup →
      (ids.foldl (fun seen id => if seen.contains id then seen else seen ++ [id]) seen).Nodup := by
    intro ids
    induction ids with
    | nil => exact fun _ hseen => hseen
    | cons id ids ih =>
      intro seen hseen
      rw [List.foldl_cons]
      apply ih
      split
      · exact hseen
      · next hnew =>
        have hid : id ∉ seen := fun hmem => hnew (List.contains_iff_mem.mpr hmem)
        rw [← List.concat_eq_append]
        exact hseen.concat hid
  exact hfold ids [] List.nodup_nil

end SaveRecord

namespace Player

/-- No item is carried twice, and the fight is recorded as the enemy says. -/
structure Coherent (p : Player) : Prop where
  /-- No item is carried twice. -/
  inventory : p.inventory.Nodup
  /-- The player is in a fight exactly while an enemy is there. -/
  inCombat : p.inCombat = p.enemy.isSome

/-- A new player is coherent. -/
theorem coherent_fresh (location : String) (flags : Table Json) (stats : Stats) :
    (fresh location flags stats).Coherent := ⟨List.nodup_nil, rfl⟩

/-- A player is coherent after getting an item, which is not carried twice. -/
theorem Coherent.addItem {p : Player} (h : p.Coherent) (id : String) : (p.addItem id).Coherent := by
  unfold Player.addItem
  split
  · exact h
  · next hnew =>
    have hid : id ∉ p.inventory := fun hmem => hnew (List.contains_iff_mem.mpr hmem)
    refine ⟨?_, h.inCombat⟩
    show (p.inventory ++ [id]).Nodup
    rw [← List.concat_eq_append]
    exact h.inventory.concat hid

/-- Every change in play keeps a player coherent. -/
theorem upheld_coherent : Upheld Coherent fun _ => True where
  transition _ _ h := ⟨h.inventory, h.inCombat⟩
  strengthen h _ := ⟨h.inventory, h.inCombat⟩
  addItem h id := h.addItem id
  takeItem {p} h listed id := by
    have htaken : Coherent { p with takenItems := p.takenItems.add listed } :=
      ⟨h.inventory, h.inCombat⟩
    exact htaken.addItem id
  markVisited h _ := ⟨h.inventory, h.inCombat⟩
  beginCombat h _ := ⟨h.inventory, rfl⟩
  endCombat h := ⟨h.inventory, rfl⟩
  -- A strike is dealt by an enemy that is there, and leaves one there.
  strike {p enemy} h hcombat struck := by
    refine ⟨h.inventory, ?_⟩
    show p.inCombat = true
    rw [h.inCombat, hcombat]
    rfl
  revision {s r} _ hr p h := by
    cases hr using Step.cases_of_revision? with
    | setFlag key value =>
      exact ⟨h.inventory, h.inCombat⟩
    | addItem id =>
      exact h.addItem id
    -- Removing items repeats none.
    | removeItem id =>
      exact ⟨h.inventory.filter _, h.inCombat⟩
    | unlockExit room direction =>
      exact ⟨h.inventory, h.inCombat⟩
    | lockExit room direction =>
      exact ⟨h.inventory, h.inCombat⟩

/-- A player is coherent or not wherever it is. -/
theorem coherent_anywhere : Anywhere Coherent := fun h _ => ⟨h.inventory, h.inCombat⟩

/-- A coherent player is coherent with what a save says, whatever it says. -/
theorem Coherent.apply {p : Player} (h : p.Coherent) (r : SaveRecord) : (r.apply p).Coherent := by
  refine ⟨?_, rfl⟩
  show ((r.inventory.map SaveRecord.firstOccurrences).getD p.inventory).Nodup
  cases r.inventory with
  | none => exact h.inventory
  | some ids => exact SaveRecord.nodup_firstOccurrences ids

/-- A coherent player is coherent after reading any bytes that hold a save. -/
theorem Coherent.restore? {p q : Player} {bytes : ByteArray} (h : p.Coherent)
    (hq : p.restore? bytes = some q) : q.Coherent := by
  unfold Player.restore? at hq
  obtain ⟨r, -, rfl⟩ := Option.map_eq_some_iff.mp hq
  exact h.apply r

end Player

/-- Play keeps the player coherent. -/
theorem Play.upkeep_coherent :
    Upkeep (fun p => p.player.Coherent) Player.Coherent fun _ => True := by
  -- Whatever the library answers, the player stays as it is.
  have hask : ∀ {α : Type} (request : Source → Library → Library.Answer α),
      (Act.ask request).Keeps (Promise.invariant fun p => p.player.Coherent) := by
    intro α request p hp
    rw [Act.ends_ask]
    exact ⟨fun _ _ => hp, fun _ _ => hp⟩
  exact {
    upheld := Player.upheld_coherent
    player := fun hp => hp
    beside := fun _ hq _ => hq
    world := hask _
    enemy := fun _ => hask _
    art := fun _ => hask _
    room := fun _ => (hask _).yields fun _ => ⟨fun _ _ => trivial, fun _ _ => trivial⟩
    item := fun _ => (hask _).yields fun _ => ⟨fun _ _ => trivial, fun _ _ _ _ _ => trivial⟩
    fixture := fun _ => (hask _).yields fun _ =>
      ⟨fun _ _ => trivial, fun _ _ => trivial, fun _ _ => trivial⟩
    branch := fun _ => ⟨fun _ _ => trivial, fun _ _ => trivial⟩ }

namespace Session

open Promise (invariant)

/-- Reading the store leaves a coherent player, whatever is in the store. -/
theorem restore_coherent : Act.restore.Keeps (invariant fun p => p.player.Coherent) := by
  intro p hp
  rw [Act.ends_restore]
  refine ⟨fun _ => hp, fun left _ => ?_⟩
  cases hread : (p.saves.entries.get? p.saveKey).bind p.player.restore? with
  | none => exact hp
  | some player =>
    obtain ⟨bytes, -, hbytes⟩ := Option.bind_eq_some_iff.mp hread
    exact Player.Coherent.restore? hp hbytes

/-- Every request leaves a coherent player, whether it succeeds or fails. -/
theorem Request.coherent (r : Request) :
    r.act.Keeps (invariant fun p => p.player.Coherent) := by
  have hworld : Act.world.Yields (invariant fun p => p.player.Coherent) fun _ : World => True :=
    Play.upkeep_coherent.world.yields fun _ => trivial
  have hforget : Act.forget.Keeps (invariant fun p => p.player.Coherent) := by
    intro p hp
    rw [Act.ends_forget]
    exact ⟨fun _ => hp, fun _ _ => hp⟩
  exact Play.upkeep_coherent.request Player.coherent_anywhere hworld
    (fun _ stats _ => Player.coherent_fresh _ _ stats) restore_coherent hforget r

/-- A request leaves a session with a coherent player, whatever the source and the store hold. -/
theorem coherent_handle {s : Session} (hs : s.player.Coherent) (source : Source) (saves : Saves)
    (r : Request) : (s.handle source saves r).session.player.Coherent :=
  handle_of_both_ends (J := fun t _ _ => t.player.Coherent) (r.coherent (s.play source saves) hs)

/-- A session that there may be: it was opened, and then it got any requests, each with any content
and with a store that holds anything and fails in any way, and its library may have been cleared in
between. -/
inductive Possible : Session → Prop where
  /-- A session is opened. -/
  | new (id title worldFile saveKey : String) (stats : Stats) :
    Possible (new id title worldFile saveKey stats)
  /-- A request is carried out, or fails. -/
  | request {s : Session} (h : Possible s) (source : Source) (saves : Saves) (r : Request) :
    Possible (s.handle source saves r).session
  /-- The library is cleared. -/
  | clear {s : Session} (h : Possible s) : Possible s.clearLibrary

/-- The player of every session carries no item twice and is in a fight exactly while an enemy is
there, whatever was asked of the session, whatever the content and the store held, and whether the
requests succeeded or failed. -/
theorem coherent_of_possible {s : Session} (h : Possible s) :
    s.player.inventory.Nodup ∧ (s.player.inCombat = true ↔ s.player.enemy.isSome = true) := by
  have hcoherent : s.player.Coherent := by
    induction h with
    | new => exact Player.coherent_fresh _ _ _
    | request _ source saves r ih => exact coherent_handle ih source saves r
    | clear _ ih => exact ih
  constructor
  · exact hcoherent.inventory
  · rw [hcoherent.inCombat]

/-- A session that went on from a save with a repeated item and a fight without an enemy, and then
failed, since every path of its content holds the world. -/
def misled : Session :=
  let hostile := Json.object [("inventory", .stringList ["lamp", "rope", "lamp"]),
    ("inCombat", .bool true)]
  let saves := { Saves.empty with entries := Table.empty.insert "save" hostile.compactText.toUTF8 }
  ((new "castle" "Castle" Library.standardWorldFile "save" .starting).handle
    (fun _ => .ok (Json.object [("startRoom", .string "hall")]).compactText) saves .resume).session

/-- The save does not make the player carry the item twice or fight nobody. -/
theorem coherent_of_possible_misled : misled.player.inventory = ["lamp", "rope"] ∧
    misled.player.inventory.Nodup ∧
      (misled.player.inCombat = true ↔ misled.player.enemy.isSome = true) := by
  have hread : misled.player.inventory = ["lamp", "rope"] := by decide +kernel
  exact ⟨hread, coherent_of_possible (.request (.new ..) _ _ .resume)⟩

end Session

end TextAdventure
