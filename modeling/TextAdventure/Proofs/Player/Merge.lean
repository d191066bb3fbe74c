import TextAdventure.Proofs.Exchange
import TextAdventure.Proofs.Json.Decides
import TextAdventure.Proofs.Json.String
import TextAdventure.Proofs.Player.Record

/-!
# Reading any bytes into a player

What is stored under the key of a player may be anything. Bytes that hold a JSON object whose known
fields have values of their kind are merged into the player field by field (`Player.Merged`); other
bytes change nothing (`Player.restore_merges`).
-/

namespace TextAdventure

open Json (OrAbsent OrNull WrittenBy Through Updates Fitting Parts Clean Decides)

/-! ### What the parts of a save mean -/

/-- The fields of a strength, of which those left out are 1, 1 and 0. -/
structure Stats.Told (fields : List (String × Json)) (s : Stats) : Prop where
  hp : OrAbsent (WrittenBy .ofInt32) 1 (fields.lookup "hp") s.hp
  attack : OrAbsent (WrittenBy .ofInt32) 1 (fields.lookup "attack") s.attack
  defense : OrAbsent (WrittenBy .ofInt32) 0 (fields.lookup "defense") s.defense

/-- A value means a strength. -/
def Stats.Means (v : Json) (s : Stats) : Prop :=
  ∃ fields, Parts Stats.fieldNames v fields ∧ Stats.Told fields s

/-- A value means a reference to a picture. -/
inductive ArtRef.Means : Json → ArtRef → Prop where
  | path (file : String) : Means (.string file) (.path file)
  | record {fields : List (String × Json)} {file : String} {size : Option UInt32}
    (hfile : fields.lookup "file" = some (.string file))
    (hsize : OrAbsent (OrNull (WrittenBy .ofUInt32)) none (fields.lookup "fontSize") size) :
    Means (.object fields) (.record file size)

/-- The fields of an enemy. It has an id and a strength at least. -/
structure Enemy.Told (fields : List (String × Json)) (e : Enemy) : Prop where
  id : fields.lookup "id" = some (.string e.id)
  name : OrAbsent (WrittenBy .string) "" (fields.lookup "name") e.name
  description : OrAbsent (WrittenBy .string) "" (fields.lookup "description") e.description
  stats : ∃ v, fields.lookup "stats" = some v ∧ Stats.Means v e.stats
  ascii : OrAbsent (OrNull ArtRef.Means) none (fields.lookup "ascii") e.ascii
  drops : OrAbsent (WrittenBy .stringList) [] (fields.lookup "drops") e.drops

/-- A value means an enemy. -/
def Enemy.Means (v : Json) (e : Enemy) : Prop :=
  ∃ fields, Parts Enemy.fieldNames v fields ∧ Enemy.Told fields e

/-- A value means a set of ids, which are listed in any order and as often as may be. -/
abbrev IdSet.Means : Json → IdSet → Prop := Through IdSet.ofIds (WrittenBy .stringList)

/-- A strength is read from what its value means. -/
theorem Stats.decides : Decides Stats.ofTree? Stats.Means := by
  refine Json.decides_record (by decide) fun fields hfields s => ?_
  have hint := Json.decides_int32
  simp only [ofRecord?, Option.bind_eq_bind, Option.bind_eq_some_iff, hfields.withDefault hint]
  constructor
  · rintro ⟨hp, hhp, attack, hattack, defense, hdefense, hs⟩
    cases hs
    exact ⟨hhp, hattack, hdefense⟩
  · rintro ⟨hhp, hattack, hdefense⟩
    exact ⟨_, hhp, _, hattack, _, hdefense, rfl⟩

/-- A reference to a picture is read from what its value means. -/
theorem ArtRef.decides : Decides ArtRef.ofTree? ArtRef.Means := by
  intro v hv a
  have hvalue : v.toTree.toJson? = some v := by rw [Json.toJson?_toTree, Json.canon_eq_self hv]
  unfold ofTree?
  rw [hvalue, Option.bind_eq_bind, Option.bind_some]
  -- A string is a path, an object a record with a size, and nothing else is a reference.
  cases v with
  | string file =>
    constructor
    · rintro ⟨⟩
      exact .path file
    · rintro ⟨⟩
      rfl
  | object fields =>
    have hfields := Json.clean_of_sorted hv
    simp only [Json.toTree, Json.Tree.objectFields?, Option.bind_eq_bind, Option.bind_some,
      Option.bind_eq_some_iff, hfields.required Json.decides_string,
      hfields.optional Json.decides_uint32]
    constructor
    · rintro ⟨file, ⟨w, hw, rfl⟩, size, hsize, ha⟩
      cases ha
      exact .record hw hsize
    · rintro (_ | ⟨hfile, hsize⟩)
      exact ⟨_, ⟨_, hfile, rfl⟩, _, hsize, rfl⟩
  | _ =>
    constructor
    · intro h
      cases h
    · intro h
      cases h

/-- An enemy is read from what its value means. -/
theorem Enemy.decides : Decides Enemy.ofTree? Enemy.Means := by
  refine Json.decides_record (by decide) fun fields hfields e => ?_
  have hstring := Json.decides_string
  simp only [Option.bind_eq_bind, Option.bind_eq_some_iff, hfields.required hstring,
    hfields.withDefault hstring, hfields.required Stats.decides, hfields.optional ArtRef.decides,
    hfields.withDefault Json.decides_stringList]
  constructor
  · rintro ⟨id, ⟨w, hw, rfl⟩, name, hname, description, hdescription, stats, hstats, ascii, hascii,
      drops, hdrops, he⟩
    cases he
    exact ⟨hw, hname, hdescription, hstats, hascii, hdrops⟩
  · rintro ⟨hid, hname, hdescription, hstats, hascii, hdrops⟩
    exact ⟨_, ⟨_, hid, rfl⟩, _, hname, _, hdescription, _, hstats, _, hascii, _, hdrops, rfl⟩

/-- A set of ids is read from what its value means. -/
theorem IdSet.decides : Decides Json.Tree.idSet? IdSet.Means :=
  Json.decides_stringList.map IdSet.ofIds

/-! ### What a save means -/

namespace SaveRecord

/-- What a save says about a player, given the values of its fields. A null is as good as no field,
except that the enemy may be said to be none. -/
structure Told (value : String → Option Json) (r : SaveRecord) : Prop where
  location : OrAbsent (OrNull (WrittenBy .string)) none (value "location") r.location
  inventory : OrAbsent (OrNull (WrittenBy .stringList)) none (value "inventory") r.inventory
  flags : OrAbsent (OrNull (WrittenBy (.ofTable fun v => v))) none (value "flags") r.flags
  stats : OrAbsent (OrNull Stats.Means) none (value "stats") r.stats
  inCombat : OrAbsent (OrNull (WrittenBy .bool)) none (value "inCombat") r.inCombat
  enemy : OrAbsent (Through some (OrNull Enemy.Means)) none (value "enemy") r.enemy
  visited : OrAbsent (OrNull IdSet.Means) none (value "visited") r.visited
  lockedExits : OrAbsent (OrNull (WrittenBy (.ofTable .bool))) none (value "lockedExits")
    r.lockedExits
  takenItems : OrAbsent (OrNull IdSet.Means) none (value "takenItems") r.takenItems

/-- A save is read from what its fields say. -/
theorem ofRecord?_iff {fields : List (String × Json)} (h : Clean fields) {r : SaveRecord} :
    ofRecord? ⟨Json.fieldsToTree fields⟩ = some r ↔ Told (fun key => fields.lookup key) r := by
  simp only [ofRecord?, Option.bind_eq_bind, Option.bind_eq_some_iff,
    h.optional Json.decides_string, h.optional Json.decides_stringList,
    h.optional (Json.decides_table Json.decides_toJson), h.optional Stats.decides,
    h.optional Json.decides_bool, h.withDefault (Enemy.decides.nullable.map some),
    h.optional IdSet.decides, h.optional (Json.decides_table Json.decides_bool)]
  constructor
  · rintro ⟨location, hlocation, inventory, hinventory, flags, hflags, stats, hstats,
      inCombat, hinCombat, enemy, henemy, visited, hvisited, lockedExits, hlockedExits,
      takenItems, htakenItems, hr⟩
    cases hr
    exact ⟨hlocation, hinventory, hflags, hstats, hinCombat, henemy, hvisited, hlockedExits,
      htakenItems⟩
  · rintro ⟨hlocation, hinventory, hflags, hstats, hinCombat, henemy, hvisited, hlockedExits,
      htakenItems⟩
    exact ⟨_, hlocation, _, hinventory, _, hflags, _, hstats, _, hinCombat, _, henemy, _, hvisited,
      _, hlockedExits, _, htakenItems, rfl⟩

end SaveRecord

/-! ### What bytes hold -/

namespace Json

/-- Bytes hold the text of an object with these fields, in the order in which they were written. A
field may be repeated. -/
def Holds (bytes : ByteArray) (fields : List (String × Json)) : Prop :=
  ∃ text trees, String.fromUTF8? bytes = some text ∧ Tree.ofText? text = some (.object trees) ∧
    Tree.fieldsToJson? trees = some fields

/-- The value of a key, if there is one. Of fields with the same key the last counts. -/
def last? (fields : List (String × Json)) (key : String) : Option Json :=
  fields.reverse.lookup key

/-- Sorted fields have the values that count. -/
theorem lookup_sortFields (fields : List (String × Json)) (key : String) :
    (sortFields fields).lookup key = last? fields key := by
  unfold last?
  rw [← Table.get?_ofList, Table.get?, Table.entries_ofList]
  rfl

/-- Bytes that hold an object are read as the object with sorted fields. -/
theorem holds_iff {bytes : ByteArray} {sorted : List (String × Json)} :
    (∃ text, String.fromUTF8? bytes = some text ∧ ofText? text = some (.object sorted)) ↔
      ∃ fields, Holds bytes fields ∧ sorted = sortFields fields := by
  constructor
  · rintro ⟨text, htext, hvalue⟩
    obtain ⟨t, ht, hvalue⟩ := Option.bind_eq_some_iff.mp hvalue
    cases t with
    | object trees =>
      obtain ⟨fields, hfields, heq⟩ := Option.map_eq_some_iff.mp hvalue
      cases heq
      exact ⟨fields, ⟨text, trees, htext, ht, hfields⟩, rfl⟩
    | array items =>
      obtain ⟨items, -, heq⟩ := Option.map_eq_some_iff.mp hvalue
      cases heq
    | _ => cases hvalue
  · rintro ⟨fields, ⟨text, trees, htext, ht, hfields⟩, rfl⟩
    refine ⟨text, htext, ?_⟩
    rw [ofText?, ht, Option.bind_some, Tree.toJson?, hfields]
    rfl

/-- The sorted fields of what bytes hold are clean. -/
theorem Holds.clean {bytes : ByteArray} {fields : List (String × Json)} (h : Holds bytes fields) :
    Clean (sortFields fields) := by
  obtain ⟨text, trees, -, ht, hfields⟩ := h
  have hvalue : (Tree.object trees).toJson? = some (.object (sortFields fields)) := by
    rw [Tree.toJson?, hfields]
    rfl
  exact clean_of_sorted ((Tree.fits_of_ofText? ht).toJson? hvalue).1

/-- The text of an object without spaces holds its fields, each with its canonical value. -/
theorem holds_compactText {fields : List (String × Json)}
    (h : (Json.object fields).FitsExactly Reader.maxNesting) {fields' : List (String × Json)} :
    Holds (Json.object fields).compactText.toUTF8 fields' ↔ fields' = canonFields fields := by
  have htree := Tree.ofText?_compactText h.1 h.2
  rw [reread_eq_self h.1] at htree
  constructor
  · rintro ⟨text, trees, htext, ht, hfields⟩
    obtain rfl := String.toByteArray_inj.mp (fromUTF8?_eq_some.mp htext)
    rw [htree] at ht
    cases ht
    rw [fieldsToJson?_fieldsToTree] at hfields
    exact (Option.some.inj hfields).symm
  · rintro rfl
    exact ⟨_, _, fromUTF8?_eq_some.mpr rfl, htree, fieldsToJson?_fieldsToTree fields⟩

end Json

/-- Bytes are a save if they hold an object, and then they say what its fields say. -/
theorem SaveRecord.ofBytes?_iff {bytes : ByteArray} {r : SaveRecord} :
    ofBytes? bytes = some r ↔ ∃ fields, Json.Holds bytes fields ∧ Told (Json.last? fields) r := by
  have hlast : ∀ fields, (fun key => (Json.sortFields fields).lookup key) = Json.last? fields :=
    fun fields => funext fun key => Json.lookup_sortFields fields key
  simp only [ofBytes?, Option.bind_eq_bind, Option.bind_eq_some_iff]
  constructor
  · rintro ⟨text, htext, v, hv, hr⟩
    cases v with
    | object sorted =>
      obtain ⟨fields, hholds, rfl⟩ := Json.holds_iff.mp ⟨text, htext, hv⟩
      have htold := (ofRecord?_iff hholds.clean).mp hr
      rw [hlast] at htold
      exact ⟨fields, hholds, htold⟩
    | _ => cases hr
  · rintro ⟨fields, hholds, htold⟩
    obtain ⟨text, htext, hv⟩ := Json.holds_iff.mpr ⟨fields, hholds, rfl⟩
    rw [← hlast] at htold
    exact ⟨text, htext, _, hv, (ofRecord?_iff hholds.clean).mpr htold⟩

/-! ### Merging -/

/-- The first occurrences are what a player carries after getting the ids one after the other. -/
theorem SaveRecord.firstOccurrences_eq_eraseDups (ids : List String) :
    firstOccurrences ids = ids.eraseDups := by
  have hcarried : firstOccurrences ids = (ids.foldl Player.addItem .nowhere).inventory := by
    show ids.foldl _ Player.nowhere.inventory = _
    refine List.foldl_hom Player.inventory fun p id => ?_
    unfold Player.addItem Player.hasItem
    split <;> rfl
  have hall : ids.removeAll [] = ids := by simp [List.removeAll]
  rw [hcarried, Player.foldl_addItem]
  show [] ++ (ids.removeAll []).eraseDups = _
  rw [hall, List.nil_append]

namespace Player

/-- Each field of a save that is there has a value of its kind, or a null. -/
structure Legible (value : String → Option Json) : Prop where
  location : Fitting (WrittenBy .string) (value "location")
  inventory : Fitting (WrittenBy .stringList) (value "inventory")
  flags : Fitting (WrittenBy (.ofTable fun v => v)) (value "flags")
  stats : Fitting Stats.Means (value "stats")
  inCombat : Fitting (WrittenBy .bool) (value "inCombat")
  enemy : Fitting Enemy.Means (value "enemy")
  visited : Fitting IdSet.Means (value "visited")
  lockedExits : Fitting (WrittenBy (.ofTable .bool)) (value "lockedExits")
  takenItems : Fitting IdSet.Means (value "takenItems")

/-- A player `u` is the player `t` with what a save says: what it says nothing of is as it was. -/
structure Merged (value : String → Option Json) (t u : Player) : Prop where
  location : Updates (WrittenBy .string) t.location (value "location") u.location
  /-- Of an id that is listed several times the first one counts. -/
  inventory : Updates (Through List.eraseDups (WrittenBy .stringList)) t.inventory
    (value "inventory") u.inventory
  flags : Updates (WrittenBy (.ofTable fun v => v)) t.flags (value "flags") u.flags
  stats : Updates Stats.Means t.stats (value "stats") u.stats
  /-- A null says that there is no enemy. -/
  enemy : OrAbsent (OrNull Enemy.Means) t.enemy (value "enemy") u.enemy
  visited : Updates IdSet.Means t.visited (value "visited") u.visited
  lockedExits : Updates (WrittenBy (.ofTable .bool)) t.lockedExits (value "lockedExits")
    u.lockedExits
  takenItems : Updates IdSet.Means t.takenItems (value "takenItems") u.takenItems
  /-- The fight goes by the enemy, whatever the save or the player before said of it. -/
  inCombat : u.inCombat = u.enemy.isSome

/-- Fields are legible if a save can be read from them. -/
theorem legible_iff {value : String → Option Json} :
    Legible value ↔ ∃ r, SaveRecord.Told value r := by
  constructor
  -- Each field that is legible has a value to be read as, and these values are the record.
  · intro h
    obtain ⟨location, hlocation⟩ := Json.fitting_iff.mp h.location
    obtain ⟨inventory, hinventory⟩ := Json.fitting_iff.mp h.inventory
    obtain ⟨flags, hflags⟩ := Json.fitting_iff.mp h.flags
    obtain ⟨stats, hstats⟩ := Json.fitting_iff.mp h.stats
    obtain ⟨inCombat, hinCombat⟩ := Json.fitting_iff.mp h.inCombat
    obtain ⟨enemy, henemy⟩ := Json.fitting_iff_some.mp h.enemy
    obtain ⟨visited, hvisited⟩ := Json.fitting_iff.mp h.visited
    obtain ⟨lockedExits, hlockedExits⟩ := Json.fitting_iff.mp h.lockedExits
    obtain ⟨takenItems, htakenItems⟩ := Json.fitting_iff.mp h.takenItems
    exact ⟨⟨location, inventory, flags, stats, inCombat, enemy, visited, lockedExits, takenItems⟩,
      hlocation, hinventory, hflags, hstats, hinCombat, henemy, hvisited, hlockedExits,
      htakenItems⟩
  -- The other way round, each field fits what the record says of it.
  · rintro ⟨r, h⟩
    exact {
      location := Json.fitting_iff.mpr ⟨_, h.location⟩
      inventory := Json.fitting_iff.mpr ⟨_, h.inventory⟩
      flags := Json.fitting_iff.mpr ⟨_, h.flags⟩
      stats := Json.fitting_iff.mpr ⟨_, h.stats⟩
      inCombat := Json.fitting_iff.mpr ⟨_, h.inCombat⟩
      enemy := Json.fitting_iff_some.mpr ⟨_, h.enemy⟩
      visited := Json.fitting_iff.mpr ⟨_, h.visited⟩
      lockedExits := Json.fitting_iff.mpr ⟨_, h.lockedExits⟩
      takenItems := Json.fitting_iff.mpr ⟨_, h.takenItems⟩ }

/-- What a save says is merged into the player. -/
theorem merged_apply {value : String → Option Json} {r : SaveRecord}
    (h : SaveRecord.Told value r) (t : Player) : Merged value t (r.apply t) where
  location := Json.updates_getD h.location
  inventory := by
    show Updates _ _ _ ((r.inventory.map SaveRecord.firstOccurrences).getD t.inventory)
    rw [funext SaveRecord.firstOccurrences_eq_eraseDups]
    exact Json.updates_getD (Json.orAbsent_map h.inventory List.eraseDups)
  flags := Json.updates_getD h.flags
  stats := Json.updates_getD h.stats
  enemy := Json.orAbsent_getD h.enemy
  visited := Json.updates_getD h.visited
  lockedExits := Json.updates_getD h.lockedExits
  takenItems := Json.updates_getD h.takenItems
  inCombat := rfl

/-- Loading any bytes merges a legible save into the player, field by field, and answers that there
was one; otherwise it answers that there was none and leaves the player as it was. -/
theorem restore_merges {p : Play} {bytes : ByteArray} {saves : Saves}
    (hget : p.saves.get p.saveKey = (.ok (some bytes), saves)) :
    (∀ fields, Json.Holds bytes fields → Legible (Json.last? fields) →
      ∃ u, Act.restore p = .ok true { p with saves := saves, player := u } ∧
        Merged (Json.last? fields) p.player u) ∧
    ((¬∃ fields, Json.Holds bytes fields ∧ Legible (Json.last? fields)) →
      Act.restore p = .ok false { p with saves := saves }) := by
  unfold Act.restore restore?
  rw [hget]
  dsimp only
  rw [Option.bind_some]
  constructor
  · intro fields hholds hlegible
    obtain ⟨r, htold⟩ := legible_iff.mp hlegible
    rw [SaveRecord.ofBytes?_iff.mpr ⟨fields, hholds, htold⟩]
    exact ⟨r.apply p.player, rfl, merged_apply htold p.player⟩
  · intro hnone
    cases hr : SaveRecord.ofBytes? bytes with
    | none => rfl
    | some r =>
      obtain ⟨fields, hholds, htold⟩ := SaveRecord.ofBytes?_iff.mp hr
      exact absurd ⟨fields, hholds, legible_iff.mpr ⟨r, htold⟩⟩ hnone

end Player

/-- A state of play with a player, where some bytes are stored under the key of the player. -/
def Play.withSave (player : Player) (bytes : ByteArray) : Play :=
  { Play.ofPlayer player with saves := { Saves.empty with
      entries := Table.empty.insert "save:demo:guest" bytes } }

namespace Player

/-- Fields of a save with a repeated key, repeated ids, nulls and a fight without an enemy. -/
def patch : List (String × Json) :=
  [("inventory", .stringList ["lamp"]), ("location", .null), ("inCombat", .bool true),
    ("enemy", .null), ("inventory", .stringList ["rope", "lamp", "rope"])]

/-- Fields of a save with a number for a list. -/
def numbered : List (String × Json) := [("inventory", .number (.integer 5))]

/-- The last value of each key counts, nulls count as missing, and the rest is of its kind. -/
theorem legible_patch : Legible (Json.last? patch) where
  location := by
    intro v hv hne
    cases hv
    exact absurd rfl hne
  inventory := by
    intro v hv _
    cases hv
    exact ⟨["rope", "lamp", "rope"], rfl⟩
  flags := fun v hv => by cases hv
  stats := fun v hv => by cases hv
  inCombat := by
    intro v hv _
    cases hv
    exact ⟨true, rfl⟩
  enemy := by
    intro v hv hne
    cases hv
    exact absurd rfl hne
  visited := fun v hv => by cases hv
  lockedExits := fun v hv => by cases hv
  takenItems := fun v hv => by cases hv

/-- A save is merged into the player in the middle of a fight, and a number is no inventory. -/
theorem restore_merges_fighting :
    (∃ u, Act.restore (.withSave fighting (Json.object patch).compactText.toUTF8) =
        .ok true { Play.withSave fighting (Json.object patch).compactText.toUTF8 with
          player := u } ∧
      u.location = "hall" ∧ u.inventory = ["rope", "lamp"] ∧ u.enemy = none ∧
        u.inCombat = false) ∧
    Act.restore (.withSave fighting (Json.object numbered).compactText.toUTF8) =
      .ok false (.withSave fighting (Json.object numbered).compactText.toUTF8) := by
  constructor
  -- A save of this kind has no number that is not read back.
  · have hfits : (Json.object patch).FitsExactly Json.Reader.maxNesting := by
      refine Json.fits_object fun f hf => ?_
      simp only [patch, List.mem_cons, List.not_mem_nil, or_false] at hf
      rcases hf with rfl | rfl | rfl | rfl | rfl <;> simp
    obtain ⟨u, hu, hmerged⟩ := (restore_merges (p := .withSave fighting
      (Json.object patch).compactText.toUTF8) rfl).1 patch
      -- Its last values are what counts, and they are legible.
      ((Json.holds_compactText hfits).mpr rfl) legible_patch
    have henemy : u.enemy = none := Json.orNull_null.mp (Json.orAbsent_some.mp hmerged.enemy)
    refine ⟨u, hu, hmerged.location.eq_of_null, ?_, henemy, ?_⟩
    · obtain ⟨listed, hlisted, hfirst⟩ := hmerged.inventory.of_ne_null (by simp [Json.stringList])
      have heq : ["rope", "lamp", "rope"] = listed :=
        (List.map_inj_right fun _ _ h => Json.string.inj h).mp (Json.array.inj hlisted)
      rw [← hfirst, ← heq]
      rfl
    · rw [hmerged.inCombat, henemy]
      rfl
  · have hfits : (Json.object numbered).FitsExactly Json.Reader.maxNesting :=
      ⟨⟨Json.Number.held_integer ⟨by decide, by decide⟩, trivial⟩, by decide⟩
    -- A number is no list of items, and so nothing is restored.
    refine (restore_merges rfl).2 ?_
    rintro ⟨fields, hholds, hlegible⟩
    obtain rfl := (Json.holds_compactText hfits).mp hholds
    obtain ⟨ids, hids⟩ := hlegible.inventory _ rfl (fun h => by cases h)
    cases hids

end Player

end TextAdventure
