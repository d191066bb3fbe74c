import TextAdventure.Proofs.Document.Written
import TextAdventure.Proofs.Player.Record

/-!
# Documents survive being written and read again

Whatever a text says as a document of some kind can be written and read again, and nothing of it is
lost (`Document.read_write_read`), if no object of the text has a repeated key, if each of its
numbers is read back from what is printed for it, and if the text leaves a level of nesting for what
is written where it has a default. The text may differ from what is written: it may give a record as
an array, use a second name of a field, and leave fields out.
-/

namespace TextAdventure

variable {n : Nat} {t : Json.Tree} {r : Json.Record Json.Tree}

/-! ### Parts of tidy documents -/

/-- A script that is a field of a tidy document is stable. -/
theorem Script.stable_of_among (hr : ∀ f ∈ r.fields, f.2.Tidy n) {names : List String}
    {script : Script} (h : r.among names [] Script.ofTree? = some script) :
    Document.Stable (n + 1) script := by
  rcases Json.Record.exists_of_among h with rfl | ⟨f, hf, hread⟩
  · exact Script.stable_of_forall fun s hs => by cases hs
  · exact (Step.stable_of_tidy (hr f hf)).2 script hread

/-- The values of a tidy table are those of texts. -/
theorem Json.sorted_and_fits_of_table? (ht : t.Tidy (n + 1)) {table : Table Json}
    (h : t.table? Tree.toJson? = some table) :
    ∀ e ∈ table.entries, e.2.Sorted ∧ e.2.FitsExactly n := by
  intro e he
  obtain ⟨u, hu, hvalue⟩ := Tree.exists_inside_of_table? h he
  exact (ht.inside hu).fits.toJson? hvalue

/-- The other fields of a tidy document can be kept beside those that are known. -/
theorem Json.keepable_of_others (hr : ∀ f ∈ r.fields, f.2.Tidy n) {names : List String}
    {extra : Table Json}
    (h : (Tree.object (r.others names)).table? Tree.toJson? = some extra) :
    Keepable names n extra := by
  intro e he
  obtain ⟨f, hf, hkey, hvalue⟩ := Tree.exists_field_of_table? h he
  obtain ⟨hmem, hother⟩ := List.mem_filter.mp hf
  refine ⟨?_, (hr f hmem).fits.toJson? hvalue⟩
  rw [← hkey]
  simpa using hother

/-! ### Tidy documents of each kind -/

/-- A world that was read from a tidy tree is stable. -/
theorem World.stable_of_tidy (ht : t.Tidy (n + 2)) {w : World} (h : World.ofTree? t = some w) :
    Document.Stable (n + 2) w := by
  simp only [World.ofTree?, Option.bind_eq_bind, Option.bind_eq_some_iff] at h
  obtain ⟨r, hr, id, -, title, -, startRoom, -, flags, hflags, messages, -, h⟩ := h
  cases h
  have hvalues : ∀ e ∈ flags.entries, e.2.Sorted ∧ e.2.FitsExactly n := by
    rcases Json.Record.exists_of_among hflags with rfl | ⟨f, hf, hread⟩
    · exact fun e he => by cases he
    · exact Json.sorted_and_fits_of_table? (ht.inside (Json.Tree.inside_of_record? hr f hf)) hread
  exact ⟨World.fits_toJson fun e he => (hvalues e he).2,
    World.rereads (fun e he => (hvalues e he).1) .written⟩

/-- A player that was read from a tidy tree is stable. -/
theorem Player.stable_of_tidy (ht : t.Tidy (n + 3)) {p : Player} (h : Player.ofTree? t = some p) :
    Document.Stable (n + 3) p := by
  simp only [Player.ofTree?, Option.bind_eq_bind, Option.bind_eq_some_iff] at h
  obtain ⟨r, hr, location, -, inventory, -, flags, hflags, stats, -, inCombat, -, enemy, -,
    visited, -, lockedExits, -, takenItems, -, h⟩ := h
  cases h
  obtain ⟨f, hf, hread⟩ := Json.Record.exists_of_required hflags
  have hvalues := Json.sorted_and_fits_of_table? (ht.inside (Json.Tree.inside_of_record? hr f hf))
    hread
  exact ⟨Player.fits_toJson (fun e he => (hvalues e he).2) (Nat.succ_pos n),
    Player.rereads (fun e he => (hvalues e he).1) .written⟩

/-- An item that was read from a tidy tree is stable, with one level more. -/
theorem Item.stable_of_tidy (ht : t.Tidy (n + 2)) {i : Item} (h : Item.ofTree? t = some i) :
    Document.Stable (n + 3) i := by
  simp only [Item.ofTree?, Option.bind_eq_bind, Option.bind_eq_some_iff] at h
  obtain ⟨r, hr, id, -, name, -, description, -, pickup, -, combine, hcombine, onUse, huse, h⟩ := h
  cases h
  have hfields := fun f hf => ht.inside (Json.Tree.inside_of_record? hr f hf)
  refine Item.stable (fun e he => ?_) (Script.stable_of_among hfields huse)
  rcases Json.Record.exists_of_among hcombine with rfl | ⟨f, hf, hread⟩
  · cases he
  · obtain ⟨u, hu, hvalue⟩ := Json.Tree.exists_inside_of_table? hread he
    exact (Step.stable_of_tidy ((hfields f hf).inside hu)).2 e.2 hvalue

/-- The scripts of a fixture that was read from a tidy tree are stable, and its other fields can be
kept. -/
theorem Fixture.parts_of_tidy (ht : t.Tidy (n + 1)) {f : Fixture}
    (h : Fixture.ofTree? t = some f) :
    Document.Stable (n + 1) f.inspect ∧ Document.Stable (n + 1) f.use ∧
      Document.Stable (n + 1) f.onLockedUse ∧ Json.Keepable fieldNames (n + 1) f.extra := by
  simp only [Fixture.ofTree?, Option.bind_eq_bind, Option.bind_eq_some_iff] at h
  obtain ⟨fields, hfields, id, -, name, -, description, -, locked, -, inspect, hinspect, use, huse,
    onLockedUse, hlocked, extra, hextra, h⟩ := h
  cases h
  have htidy := fun f hf => ht.inside (Json.Tree.inside_of_objectFields? hfields f hf)
  exact ⟨Script.stable_of_among htidy hinspect, Script.stable_of_among htidy huse,
    Script.stable_of_among htidy hlocked,
    (Json.keepable_of_others htidy hextra).mono (Nat.le_succ n)⟩

/-- A fixture that was read from a tidy tree is stable, with one level more. -/
theorem Fixture.stable_of_tidy (ht : t.Tidy (n + 1)) {f : Fixture}
    (h : Fixture.ofTree? t = some f) : Document.Stable (n + 2) f := by
  obtain ⟨hinspect, huse, hlocked, hextra⟩ := parts_of_tidy ht h
  exact Fixture.stable hinspect huse hlocked hextra

/-- The scripts of a room that was read from a tidy tree are stable, and its other fields can be
kept. -/
theorem Room.parts_of_tidy (ht : t.Tidy (n + 1)) {r : Room} (h : Room.ofTree? t = some r) :
    Document.Stable (n + 1) r.onFirstEnter ∧ Document.Stable (n + 1) r.onEnter ∧
      Json.Keepable fieldNames (n + 1) r.extra := by
  simp only [Room.ofTree?, Option.bind_eq_bind, Option.bind_eq_some_iff] at h
  obtain ⟨fields, hfields, id, -, title, -, description, -, ascii, -, items, -, objects, -,
    exits, -, exitMeta, -, onFirstEnter, hfirst, onEnter, henter, extra, hextra, h⟩ := h
  cases h
  have htidy := fun f hf => ht.inside (Json.Tree.inside_of_objectFields? hfields f hf)
  exact ⟨Script.stable_of_among htidy hfirst, Script.stable_of_among htidy henter,
    (Json.keepable_of_others htidy hextra).mono (Nat.le_succ n)⟩

/-- A room that was read from a tidy tree is stable, with one level more. -/
theorem Room.stable_of_tidy (ht : t.Tidy (n + 2)) {r : Room} (h : Room.ofTree? t = some r) :
    Document.Stable (n + 3) r := by
  obtain ⟨hfirst, henter, hextra⟩ := parts_of_tidy ht h
  exact Room.stable hfirst henter hextra

/-! ### What the engine does not know -/

/-- The fields of an object that are not known are in a table, with their values. -/
def Json.Tree.KeptIn (names : List String) (t : Tree) (extra : Table Json) : Prop :=
  ∃ fields, t = .object fields ∧ ∀ f ∈ fields, f.1 ∉ names →
    ∃ v, f.2.toJson? = some v ∧ extra.get? f.1 = some v

/-- What was read from fields is kept with the names of these fields. -/
theorem Json.kept_of_mapM {fields : List (String × Tree)} {es : List (String × Json)}
    (h : fields.mapM (fun f => (f.2.toJson?).map (f.1, ·)) = some es) :
    es.map Prod.fst = fields.map Prod.fst ∧
      ∀ f ∈ fields, ∃ v, f.2.toJson? = some v ∧ (f.1, v) ∈ es := by
  induction fields generalizing es with
  | nil =>
    cases h
    exact ⟨rfl, fun f hf => by cases hf⟩
  | cons g gs ih =>
    rw [List.mapM_cons] at h
    obtain ⟨e, he, h⟩ := Option.bind_eq_some_iff.mp h
    obtain ⟨es, hes, h⟩ := Option.bind_eq_some_iff.mp h
    cases h
    obtain ⟨v, hv, rfl⟩ := Option.map_eq_some_iff.mp he
    obtain ⟨hkeys, hkept⟩ := ih hes
    refine ⟨by rw [List.map_cons, List.map_cons, hkeys], fun f hf => ?_⟩
    rcases List.mem_cons.mp hf with rfl | hf
    · exact ⟨v, hv, List.mem_cons_self⟩
    · obtain ⟨w, hw, hmem⟩ := hkept f hf
      exact ⟨w, hw, List.mem_cons_of_mem _ hmem⟩

/-- Fields without repeated keys that are not known are all kept. -/
theorem Json.keptIn_of_others {fields : List (String × Tree)} (hkeys : (fields.map Prod.fst).Nodup)
    {names : List String} {extra : Table Json}
    (h : (Tree.object (Record.others ⟨fields⟩ names)).table? Tree.toJson? = some extra) :
    (Tree.object fields).KeptIn names extra := by
  refine ⟨fields, rfl, fun f hf hnew => ?_⟩
  obtain ⟨es, hes, rfl⟩ := Option.map_eq_some_iff.mp h
  obtain ⟨hsame, hkept⟩ := kept_of_mapM hes
  have hnodup : (es.map Prod.fst).Nodup := by
    rw [hsame]
    exact hkeys.sublist ((List.filter_sublist (l := fields)).map Prod.fst)
  have hperm : (Table.ofList es).entries.Perm es := by
    rw [Table.entries_ofList]
    exact sortFields_perm hnodup
  obtain ⟨v, hv, hmem⟩ := hkept f (List.mem_filter.mpr ⟨hf, by simpa using hnew⟩)
  exact ⟨v, hv, Table.get?_of_mem (hperm.mem_iff.mpr hmem)⟩

/-- A room keeps the fields that are not known. -/
theorem Room.keptIn_extra (hkeys : t.keysOnce = true) {r : Room} (h : Room.ofTree? t = some r) :
    t.KeptIn fieldNames r.extra := by
  simp only [Room.ofTree?, Option.bind_eq_bind, Option.bind_eq_some_iff] at h
  obtain ⟨fields, hfields, id, -, title, -, description, -, ascii, -, items, -, objects, -,
    exits, -, exitMeta, -, onFirstEnter, -, onEnter, -, extra, hextra, h⟩ := h
  cases h
  obtain rfl := Json.Tree.eq_object_of_objectFields? hfields
  exact Json.keptIn_of_others (Json.Tree.nodup_of_keysOnce hkeys) hextra

/-- A fixture keeps the fields that are not known. -/
theorem Fixture.keptIn_extra (hkeys : t.keysOnce = true) {f : Fixture}
    (h : Fixture.ofTree? t = some f) : t.KeptIn fieldNames f.extra := by
  simp only [Fixture.ofTree?, Option.bind_eq_bind, Option.bind_eq_some_iff] at h
  obtain ⟨fields, hfields, id, -, name, -, description, -, locked, -, inspect, -, use, -,
    onLockedUse, -, extra, hextra, h⟩ := h
  cases h
  obtain rfl := Json.Tree.eq_object_of_objectFields? hfields
  exact Json.keptIn_of_others (Json.Tree.nodup_of_keysOnce hkeys) hextra

/-! ### Every kind of document -/

namespace Document

/-- The kinds of documents. -/
inductive Kind where
  | world
  | room
  | item
  | fixture
  | enemy
  | stats
  | messages
  | exitMeta
  | player
  | art
  | script
  deriving DecidableEq, Repr

/-- The documents of a kind. -/
def Kind.Doc : Kind → Type
  | world => World
  | room => Room
  | item => Item
  | fixture => Fixture
  | enemy => Enemy
  | stats => Stats
  | messages => Messages
  | exitMeta => ExitMeta
  | player => Player
  | art => ArtRef
  | script => Script

instance (k : Kind) : Document k.Doc :=
  match k with
  | .world => inferInstanceAs (Document World)
  | .room => inferInstanceAs (Document Room)
  | .item => inferInstanceAs (Document Item)
  | .fixture => inferInstanceAs (Document Fixture)
  | .enemy => inferInstanceAs (Document Enemy)
  | .stats => inferInstanceAs (Document Stats)
  | .messages => inferInstanceAs (Document Messages)
  | .exitMeta => inferInstanceAs (Document ExitMeta)
  | .player => inferInstanceAs (Document Player)
  | .art => inferInstanceAs (Document ArtRef)
  | .script => inferInstanceAs (Document Script)

/-- A document that was read from a tidy tree is stable, with one level more for what is written
where it was left out. -/
theorem stable_of_tidy (k : Kind) (ht : t.Tidy (n + 3)) {doc : k.Doc}
    (h : ofTree? t = some doc) : Stable (n + 4) doc := by
  cases k with
  | world => exact (World.stable_of_tidy ht h).mono (by omega)
  | room => exact Room.stable_of_tidy ht h
  | item => exact Item.stable_of_tidy ht h
  | fixture => exact Fixture.stable_of_tidy ht h
  | enemy => exact ⟨Enemy.fits_toJson doc, Enemy.rereads doc .written⟩
  | stats => exact ⟨Stats.fits_toJson doc, Stats.rereads doc .written⟩
  | messages => exact ⟨Messages.fits_toJson doc, Messages.rereads doc .written⟩
  | exitMeta => exact ⟨ExitMeta.fits_toJson doc, ExitMeta.rereads doc .written⟩
  | player => exact (Player.stable_of_tidy ht h).mono (by omega)
  | art => exact ⟨ArtRef.fits_toJson doc, ArtRef.rereads doc .written⟩
  | script => exact (Step.stable_of_tidy ht).2 doc h

/-- Documents survive a cycle of reading, writing and reading: what a text says as a document of any
kind is read again from its compact text, its pretty text and its file. This holds for every text in
which no object has a repeated key and which nests at most 126 levels, if each number in it is read
back from what is printed for it. Rooms and fixtures keep the fields that are not known with their
values, and a step that is not recognized is the value that stands in the text, whatever branches it
lies in. -/
theorem read_write_read {text : String} (ht : Json.Tree.ofText? text = some t)
    (hkeys : t.keysOnce = true) (hdepth : t.depth ≤ 126) (hsteady : t.steady = true) :
    (∀ (k : Kind) (doc : k.Doc), ofText? text = some doc →
      ofText? (Document.text doc) = some doc ∧ ofText? (toJson doc).prettyText = some doc ∧
        ofText? (fileText doc) = some doc) ∧
    (∀ r : Room, ofText? text = some r → t.KeptIn Room.fieldNames r.extra) ∧
    (∀ f : Fixture, ofText? text = some f → t.KeptIn Fixture.fieldNames f.extra) ∧
    ∀ (u : Json.Tree) (raw : Json), Step.ofTree? u = some (.unrecognized raw) →
      u.toJson? = some raw := by
  have htidy : t.Tidy 126 :=
    .of_fits (Json.Tree.fitsExactly_of_steady (Json.Tree.fits_of_ofText? ht) hsteady) hdepth hkeys
  have hread : ∀ {α : Type} [Document α] {doc : α}, ofText? text = some doc →
      ofTree? t = some doc := by
    intro α _ doc h
    unfold ofText? at h
    rw [ht] at h
    exact h
  refine ⟨fun k doc h => ?_, fun r h => Room.keptIn_extra hkeys (hread h),
    fun f h => Fixture.keptIn_extra hkeys (hread h), fun u raw => Step.toJson?_of_unrecognized⟩
  have hstable : Stable Json.Reader.maxNesting doc := stable_of_tidy k htidy (hread h)
  have hpretty : ofText? ((toJson doc).prettyText ++ "") = some doc :=
    hstable.ofText?_prettyText (by simp)
  rw [String.append_empty] at hpretty
  exact ⟨hstable.ofText?_text, hpretty, hstable.ofText?_fileText⟩

end Document

/-- A room as an author may write it: a field has its second name, another one is not known, an
effect is an array, and in its branch lies a step that is not recognized. -/
def Room.draft : Json := .object [("id", .string "hall"),
  ("weather", .object [("wind", .array [.number (.integer (-3)), .number (.real (.zero true))]),
    ("rain", .null)]),
  ("exit_meta", .object [("nord", .object [("locked", .bool true)])]),
  ("on_enter", .array [.array [.string "flag_if", .string "lit", .bool true,
    .array [.object [("type", .string "sing"), ("loud", .bool true)]]]])]

/-- The room that is read from the draft. -/
def Room.drafted : Room where
  id := "hall"
  title := ""
  description := ""
  ascii := none
  items := []
  objects := []
  exits := .empty
  exitMeta := .ofList [("nord", ⟨true, none, none⟩)]
  onFirstEnter := []
  onEnter := [.branch "lit" (.bool true)
    [.unrecognized (.object [("loud", .bool true), ("type", .string "sing")])] []]
  extra := .ofList [("weather", .object [("rain", .null),
    ("wind", .array [.number (.integer (-3)), .number (.real (.zero true))])])]

/-- The room of the draft survives being written and read again, with what is not known. -/
theorem Room.read_write_read_drafted :
    Document.ofText? Room.draft.compactText = some Room.drafted ∧
      Document.ofText? (Document.text Room.drafted) = some Room.drafted ∧
      Document.ofText? (Document.fileText Room.drafted) = some Room.drafted ∧
      Room.draft.toTree.KeptIn Room.fieldNames Room.drafted.extra := by
  have hnumbers : (Json.Number.integer (-3)).Held true ∧
      (Json.Number.real (.zero true)).Held true :=
    ⟨Json.Number.held_integer ⟨by decide, by decide⟩, trivial, fun _ => by decide +kernel⟩
  have hheld : Room.draft.Held true := by
    simp only [draft, Json.Held, Json.HeldFields, Json.HeldItems, hnumbers, and_self]
  have ht := Json.Tree.ofText?_compactText hheld (by decide)
  rw [Json.reread_eq_self hheld] at ht
  have hread : Document.ofText? Room.draft.compactText = some Room.drafted := by
    unfold Document.ofText?
    rw [ht]
    rfl
  obtain ⟨hcycle, hroom, -, -⟩ := Document.read_write_read ht (by decide) (by decide)
    (by decide +kernel)
  obtain ⟨htext, -, hfile⟩ := hcycle .room Room.drafted hread
  exact ⟨hread, htext, hfile, hroom Room.drafted hread⟩

end TextAdventure
