import TextAdventure.Player.Record
import TextAdventure.Proofs.Act
import TextAdventure.Proofs.Json.Fits
import TextAdventure.Proofs.Thing

/-!
# Saving and reading back

A player that was saved is read back in every field, whatever was there before
(`Player.restore?_save`), if it is one that the program can hold (`Player.Storable`): no item is
carried twice, the fight is recorded as the enemy says, and the values of the flags are values of
texts. Only the floating-point numbers in the flags are those that their texts are read as
(`Player.recalled`), so a player is read back as it was if these are the same (`Player.Steady`).
-/

namespace TextAdventure

open Json (Form Rereads)

namespace Player

/-- A player that the program can hold and that a save can hold. -/
structure Storable (p : Player) : Prop where
  /-- No item is carried twice. -/
  inventory : p.inventory.Nodup
  /-- The fight is recorded as the enemy says. -/
  inCombat : p.inCombat = p.enemy.isSome
  /-- The values of the flags are canonical values of texts and nest no deeper than 125 levels. -/
  flags : ∀ e ∈ p.flags.entries, e.2.Sorted ∧ e.2.Fits 125

/-- The player that its save is read as: the numbers in its flags are those that their texts are
read as, and everything else is as it was. -/
def recalled (p : Player) : Player := { p with flags := p.flags.map Json.reread }

/-- A player is another one, or the one that the save of the other one is read as. -/
def ComesFrom (q p : Player) : Prop := q = p ∨ q = p.recalled

/-- The numbers in the flags are those that their texts are read as. -/
def Steady (p : Player) : Prop := ∀ e ∈ p.flags.entries, e.2.reread = e.2

/-- A steady player is recalled as it was. -/
theorem Steady.recalled_eq {p : Player} (h : p.Steady) : p.recalled = p := by
  have hflags : p.flags.map Json.reread = p.flags := by
    refine Table.ext_entries ?_
    refine (List.map_congr_left fun e he => ?_).trans (List.map_id _)
    exact Prod.ext rfl (h e he)
  unfold recalled
  rw [hflags]

/-- A player that can be saved can be saved once it was recalled. -/
theorem Storable.recalled {p : Player} (h : p.Storable) : p.recalled.Storable := by
  refine ⟨h.inventory, h.inCombat, fun e he => ?_⟩
  obtain ⟨d, hd, rfl⟩ := List.mem_map.mp he
  obtain ⟨hsorted, hheld, hdepth⟩ := h.flags d hd
  exact ⟨hsorted.reread, hheld.reread, (Json.depth_reread d.2).trans_le hdepth⟩

/-- A player takes two levels more than the values of its flags. -/
theorem fits_toJson {p : Player} {exact : Bool} {n : Nat}
    (hflags : ∀ e ∈ p.flags.entries, e.2.Within exact n) (hn : 0 < n) :
    p.toJson.Within exact (n + 2) := by
  obtain ⟨n, rfl⟩ : ∃ m, n = m + 1 := ⟨n - 1, by omega⟩
  refine Json.fits_object fun f hf => ?_
  simp only [List.mem_cons, List.not_mem_nil, or_false] at hf
  rcases hf with rfl | rfl | rfl | rfl | rfl | rfl | rfl | rfl | rfl
  · exact Json.fits_string _
  · exact Json.fits_stringList _
  · exact Json.fits_ofTable (fun v => v) hflags
  · exact p.stats.fits_toJson
  · exact Json.fits_bool _
  · show ((p.enemy.map Enemy.toJson).getD .null).Within exact (n + 2)
    cases p.enemy with
    | none => exact Json.fits_null
    | some enemy => exact enemy.fits_toJson
  · exact Json.fits_stringList _
  · exact Json.fits_ofTable Json.bool fun e _ => Json.fits_bool e.2
  · exact Json.fits_stringList _

/-- A save nests no deeper than a text may. -/
theorem Storable.fits {p : Player} (h : p.Storable) : p.toJson.Fits Json.Reader.maxNesting :=
  fits_toJson (fun e he => (h.flags e he).2) (by decide)

/-- What is written for a player is read as what is written for the player that is recalled. -/
theorem reread_toJson (p : Player) : p.toJson.reread = p.recalled.toJson := by
  -- Without its flags a player has no floating-point numbers.
  have hother : ({ p with flags := .empty } : Player).toJson.FitsExactly 3 :=
    fits_toJson (fun e he => by cases he) (by decide)
  have hfields := Json.reread_eq_self hother.1
  have hflags : (Json.ofTable (fun v => v) p.flags).reread =
      Json.ofTable (fun v => v) (p.flags.map Json.reread) := by
    unfold Json.ofTable Table.map
    rw [Json.reread, Json.rereadFields_eq_map, List.map_map, List.map_map]
    rfl
  simp only [toJson, recalled, Json.reread, Json.rereadFields, Json.object.injEq, List.cons.injEq,
    Prod.mk.injEq, true_and, and_true] at hfields ⊢
  exact ⟨hfields.1, hflags, hfields.2.2⟩

end Player

namespace SaveRecord

/-- The record that says everything about a player. -/
def full (p : Player) : SaveRecord where
  location := some p.location
  inventory := some p.inventory
  flags := some p.flags
  stats := some p.stats
  inCombat := some p.inCombat
  enemy := some p.enemy
  visited := some p.visited
  lockedExits := some p.lockedExits
  takenItems := some p.takenItems

/-- Ids that occur once are all first occurrences. -/
theorem firstOccurrences_of_nodup {ids : List String} (h : ids.Nodup) :
    firstOccurrences ids = ids := by
  -- The induction is over the ids still to come, behind those seen.
  have hfold : ∀ (ids seen : List String), (seen ++ ids).Nodup →
      ids.foldl (fun seen id => if seen.contains id then seen else seen ++ [id]) seen =
        seen ++ ids := by
    intro ids
    induction ids with
    | nil =>
      intro seen _
      rw [List.append_nil]
      rfl
    | cons id ids ih =>
      intro seen hseen
      have hnew : id ∉ seen := fun hmem =>
        (List.nodup_append.mp hseen).2.2 id hmem id List.mem_cons_self rfl
      have hassoc : seen ++ [id] ++ ids = seen ++ id :: ids := by
        rw [List.append_assoc]
        rfl
      rw [List.foldl_cons, if_neg (by simpa using hnew), ih _ (hassoc ▸ hseen), hassoc]
  exact hfold ids [] h

/-- What is said of everything replaces everything. -/
theorem apply_full {p : Player} (h : p.Storable) (t : Player) : (full p).apply t = p := by
  unfold apply full Player.settle
  simp only [Option.getD_some, Option.map_some, firstOccurrences_of_nodup h.inventory, ← h.inCombat]

/-- A save is read from the fields of its value. -/
theorem ofJson?_of_toTree {v : Json} {fs : List (String × Json.Tree)} (h : v.toTree = .object fs) :
    ofJson? v = ofRecord? ⟨fs⟩ := by
  cases v with
  | object fields =>
    cases h
    rfl
  | null => cases h
  | bool _ => cases h
  | number _ => cases h
  | string _ => cases h
  | array _ => cases h

/-- A player says everything about itself. -/
theorem ofJson?_canon {p : Player} (h : p.Storable) : ofJson? p.toJson.canon = some (full p) := by
  obtain ⟨fs, hfs, hperm⟩ := Form.canonical.tree_object [("location", .string p.location),
    ("inventory", .stringList p.inventory), ("flags", .ofTable (fun v => v) p.flags),
    ("stats", p.stats.toJson), ("inCombat", .bool p.inCombat),
    ("enemy", (p.enemy.map Enemy.toJson).getD .null), ("visited", .stringList p.visited.keys),
    ("lockedExits", .ofTable .bool p.lockedExits),
    ("takenItems", .stringList p.takenItems.keys)] (by simp)
  -- The fields come in some other order, but each is found by its name.
  have hfind := Json.Record.find?_perm hperm
  have hflags := Json.rereads_ofTable_of_sorted fun e he => (h.flags e he).1
  -- Each part of the player is read again, where a null may stand.
  have hlocation := (Json.rereads_string p.location).nullable (by simp) Form.canonical
  have hinventory := (Json.rereads_stringList p.inventory).nullable (by simp [Json.stringList])
    Form.canonical
  have hflags' := hflags.nullable (by simp [Json.ofTable]) Form.canonical
  have hstats := (Stats.rereads p.stats).nullable (by simp [Stats.toJson]) Form.canonical
  have hcombat := (Json.rereads_bool p.inCombat).nullable (by simp) Form.canonical
  have hvisited := (Json.rereads_keys p.visited).nullable (by simp [Json.stringList])
    Form.canonical
  have hexits := (Json.rereads_ofTable (t := p.lockedExits) fun e _ =>
    Json.rereads_bool e.2).nullable (by simp [Json.ofTable]) Form.canonical
  have htaken := (Json.rereads_keys p.takenItems).nullable (by simp [Json.stringList])
    Form.canonical
  have henemy : Json.Tree.nullable? Enemy.ofTree?
      (Form.canonical.tree ((p.enemy.map Enemy.toJson).getD .null)) = some p.enemy := by
    cases p.enemy with
    | none => rfl
    | some enemy => exact enemy.rereads.nullable (by simp [Enemy.toJson]) Form.canonical
  have hrecord : ofJson? p.toJson.canon = ofRecord? ⟨fs⟩ := ofJson?_of_toTree hfs
  rw [hrecord]
  simp only [ofRecord?, Json.Record.optional, Json.Record.withDefault, Json.Record.among, hfind]
  simp [Json.Record.find?, hlocation, hinventory, hflags', hstats, hcombat, hvisited, hexits,
    htaken, henemy, full]

end SaveRecord

namespace Player

/-- A player that was saved is recalled in every field, whatever was there before. -/
theorem restore?_save {p : Player} (h : p.Storable) (t : Player) :
    t.restore? p.save = some p.recalled := by
  obtain ⟨hheld, hdepth⟩ := h.fits
  have htext : Json.ofText? (Document.text p) = some p.recalled.toJson.canon := by
    unfold Json.ofText? Document.text
    show (Json.Tree.ofText? p.toJson.compactText).bind _ = _
    rw [Json.Tree.ofText?_compactText hheld hdepth, Option.bind_some, Json.toJson?_toTree,
      reread_toJson]
  unfold restore? save SaveRecord.ofBytes?
  rw [fromUTF8?_eq_some.mpr rfl]
  simp only [Option.bind_eq_bind, Option.bind_some, htext, SaveRecord.ofJson?_canon h.recalled,
    Option.map_some, SaveRecord.apply_full h.recalled]

/-- Saving and loading is lossless: after a player was saved, whoever reads the save under its key
has that player in every field, whatever was there before. The numbers in the flags are those that
their texts are read as; if these are the same numbers, the player is the one that was saved. -/
theorem restore_after_persist {p q r : Play} (hstorable : p.player.Storable)
    (hsaved : Act.persist p = .ok () q) (hkey : r.saveKey = p.saveKey)
    (hentries : r.saves.entries = q.saves.entries) (hread : Saves.spend r.saves.gets ≠ none) :
    ∃ r', Act.restore r = .ok true r' ∧ r'.player = p.player.recalled ∧
      (p.player.Steady → r'.player = p.player) := by
  have hstored : q.saves.entries.get? p.saveKey = some p.player.save := by
    have hends : Act.persist.Ends p (fun _ q => q.saves.entries.get? p.saveKey = some p.player.save)
        fun _ _ => True := by
      rw [Act.ends_persist]
      exact ⟨fun _ => trivial, fun _ _ => Table.get?_insert_self _ _ _⟩
    unfold Act.Ends at hends
    rw [hsaved] at hends
    exact hends
  obtain ⟨left, hleft⟩ := Option.ne_none_iff_exists'.mp hread
  -- The player is read under its key, whatever else is in the store.
  have hload : (r.saves.entries.get? r.saveKey).bind r.player.restore? =
      some p.player.recalled := by
    rw [hkey, hentries, hstored, Option.bind_some, restore?_save hstorable]
  refine ⟨{ r with saves := { r.saves with gets := left }, player := p.player.recalled }, ?_, rfl,
    fun hsteady => hsteady.recalled_eq⟩
  unfold Act.restore Saves.get
  simp only [hleft, hload]

/-- A player in the middle of a fight, with a flag that holds an array. -/
def fighting : Player where
  location := "hall"
  inventory := ["lamp", "key"]
  flags :=
    ⟨[("mood", .array [.number (.integer (-3)), .number (.real (.zero true)), .null])], by simp⟩
  stats := ⟨7, 2, 1⟩
  inCombat := true
  enemy :=
    some ⟨"rat", "Rat", "It squeaks.", ⟨3, 1, 0⟩, some (.record "rat.txt" (some 8)), ["tail"]⟩
  visited := .ofIds ["hall", "cellar"]
  lockedExits := .ofList [("hall:north", true)]
  takenItems := .ofIds ["lamp"]

/-- The player in the middle of a fight can be saved. -/
theorem storable_fighting : fighting.Storable where
  inventory := by decide
  inCombat := rfl
  flags := by
    intro e he
    rw [List.mem_singleton.mp he]
    refine ⟨⟨trivial, trivial, trivial, trivial⟩, ⟨⟨?_, ⟨trivial, by simp⟩, trivial, trivial⟩, ?_⟩⟩
    · exact Json.Number.held_integer ⟨by decide, by decide⟩
    · decide

/-- The numbers in the flags of the player in the middle of a fight are read back. -/
theorem steady_fighting : fighting.Steady := by
  intro e he
  rw [List.mem_singleton.mp he]
  have hnumbers : (Json.Number.integer (-3)).reread = .integer (-3) ∧
      (Json.Number.real (.zero true)).reread = .real (.zero true) := by decide +kernel
  simp only [Json.reread, Json.rereadItems, hnumbers]

end Player

/-- A state of play with a player, where nothing was saved yet and there is no content. -/
def Play.ofPlayer (player : Player) : Play where
  toSession := { Session.new "demo" "Demo" "world.json" "save:demo:guest" .starting with player }
  source path := .error (.load path "missing")
  saves := .empty
  journal := []

/-- A player in the middle of a fight is restored over a player who is nowhere. -/
theorem Player.restore_fighting :
    ∃ r, Act.restore { (Play.ofPlayer fighting).persisted none with player := .nowhere } =
      .ok true r ∧ r.player = fighting := by
  obtain ⟨r, hr, -, hsame⟩ := restore_after_persist (p := .ofPlayer fighting)
    (q := (Play.ofPlayer fighting).persisted none)
    (r := { (Play.ofPlayer fighting).persisted none with player := .nowhere }) storable_fighting rfl
    rfl rfl (by decide)
  exact ⟨r, hr, hsame steady_fighting⟩

end TextAdventure
