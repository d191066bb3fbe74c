import TextAdventure.Proofs.Document.Compiled
import TextAdventure.Proofs.Folder

/-!
# Compiling an adventure in its folder

An adventure is compiled where it lies: its rooms and fixtures are read from their folders, the
steps for their gates are added, and they are written back. If authors name each file by the id of
its document and nest no deeper than a file may (`Folder.Authored`), and if the numbers that they
write are read back from what is printed for them (`Folder.Steady`), nothing is lost on the way:
what is written is read again as the compiled bundle, no other file changes, and compiling once more
writes the same bytes (`Bundle.compiled_in_place`). A number that is not read back drifts with every
pass (`Bundle.number_drifts`).
-/

namespace TextAdventure

/-- No name on a disk has a slash, which would make it several names. -/
def Disk.Named (d : Disk) : Prop := ∀ e ∈ d.entries, ∀ name ∈ e.1, '/' ∉ name.toList

namespace Folder

variable {α : Type} [Document α] {idOf : α → String}

/-- The JSON files of a folder are as an author may write them. -/
structure Authored (idOf : α → String) (d : Disk) (folder : String) : Prop where
  /-- The folder is there or can be created. -/
  place : ∃ place, d.locate folder = .ok place ∧ ∀ bytes, d.entry? place ≠ some (.file bytes)
  /-- Each file says a document by whose id it is named. No object in it has a repeated key, and it
  nests at most 126 levels. -/
  documents : ∀ name ∈ d.list folder, Path.isJsonFile name = true →
    ∃ (text : String) (t : Json.Tree) (doc : α),
      d.readText (Path.join folder name) = .ok text ∧ Json.Tree.ofText? text = some t ∧
      t.keysOnce = true ∧ t.depth ≤ 126 ∧ Document.ofText? text = some doc ∧
      name = idOf doc ++ ".json"

/-- The numbers in the JSON files of a folder are read back from what is printed for them. -/
def Steady (d : Disk) (folder : String) : Prop :=
  ∀ name ∈ d.list folder, Path.isJsonFile name = true → ∀ (text : String) (t : Json.Tree),
    d.readText (Path.join folder name) = .ok text → Json.Tree.ofText? text = some t →
    t.steady = true

/-- A document is in the file of a folder that is named by its id, as an author wrote it. -/
structure WrittenIn (idOf : α → String) (d : Disk) (folder : String) (place : Place) (doc : α) :
    Prop where
  /-- The folder is there. -/
  there : d.entry? place = some .folder
  /-- The file is a JSON file. -/
  json : Path.isJsonFile (idOf doc ++ ".json") = true
  /-- The path of the document leads to its file. -/
  path : d.locate (Bundle.documentPath folder (idOf doc)) = .ok (fileAt place (idOf doc))
  /-- The file says the document. -/
  text : ∃ text, d.entry? (fileAt place (idOf doc)) = some (.file text.toUTF8) ∧
    Document.ofText? text = some doc
  /-- The document was read from a tidy tree, if the numbers in the folder are read back. -/
  tidy : Steady d folder → ∃ t : Json.Tree, t.Tidy 126 ∧ Document.ofTree? t = some doc

/-- A document is read from its file. -/
theorem WrittenIn.read {d : Disk} {folder : String} {place : Place} {doc : α}
    (h : WrittenIn idOf d folder place doc) :
    Bundle.readDocument d (Bundle.documentPath folder (idOf doc)) = .ok doc := by
  obtain ⟨text, hentry, htext⟩ := h.text
  exact readDocument_of_file h.path hentry htext

namespace Authored

variable {d : Disk} {data last : String} {place : Place}

/-- A JSON file in a folder is that of a document. -/
theorem exists_writtenIn (h : Authored idOf d (Path.join data last)) (hd : d.Named)
    (hlast : Disk.IsName last) (hplace : d.locate (Path.join data last) = .ok place) {name : String}
    (hname : name ∈ d.list (Path.join data last)) (hjson : Path.isJsonFile name = true) :
    ∃ doc : α, WrittenIn idOf d (Path.join data last) place doc ∧ name = idOf doc ++ ".json" := by
  have hslash : '/' ∉ name.toList := by
    have hthere := (Disk.mem_list hplace).mp hname
    rw [Disk.entry?_of_ne_nil (by simp), List.lookup_isSome_iff] at hthere
    obtain ⟨e, he, heq⟩ := hthere
    refine hd e he name ?_
    rw [← beq_iff_eq.mp heq]
    simp
  obtain ⟨text, t, doc, hread, ht, hkeys, hdepth, hdoc, rfl⟩ := h.documents name hname hjson
  obtain ⟨file, hlocate, hentry⟩ := Disk.readText_eq_ok.mp hread
  -- Since the file can be reached, the folder around it is there.
  obtain ⟨folder, hfolder, hthere, rfl⟩ :=
    Disk.folder_of_locate_join hlast (Disk.IsName.of_isJsonFile hjson hslash) hlocate
  obtain rfl : folder = place := Except.ok.inj (hfolder.symm.trans hplace)
  have htree : Document.ofTree? t = some doc := by
    unfold Document.ofText? at hdoc
    rw [ht] at hdoc
    exact hdoc
  have htidy : Steady d (Path.join data last) → t.Tidy 126 := fun hsteady =>
    .of_fits (Json.Tree.fitsExactly_of_steady (Json.Tree.fits_of_ofText? ht)
      (hsteady _ hname hjson text t hread ht)) hdepth hkeys
  exact ⟨doc, ⟨hthere, hjson, hlocate, ⟨text, hentry, hdoc⟩,
    fun hsteady => ⟨t, htidy hsteady, htree⟩⟩, rfl⟩

/-- The documents of a folder, as a list. -/
theorem exists_documents (h : Authored idOf d (Path.join data last)) (hd : d.Named)
    (hlast : Disk.IsName last) (hplace : d.locate (Path.join data last) = .ok place) :
    ∃ docs : List α, (∀ doc ∈ docs, WrittenIn idOf d (Path.join data last) place doc) ∧
      ∀ name ∈ d.list (Path.join data last), Path.isJsonFile name = true →
        ∃ doc ∈ docs, name = idOf doc ++ ".json" := by
  have hfile : ∀ name ∈ (d.list (Path.join data last)).filter Path.isJsonFile,
      ∃ doc : α, WrittenIn idOf d (Path.join data last) place doc ∧ name = idOf doc ++ ".json" :=
    fun name hname =>
      h.exists_writtenIn hd hlast hplace (List.mem_filter.mp hname).1 (List.mem_filter.mp hname).2
  choose doc hdoc using hfile
  refine ⟨List.attach _ |>.map fun name => doc name.1 name.2, ?_, ?_⟩
  · intro x hx
    obtain ⟨name, -, rfl⟩ := List.mem_map.mp hx
    exact (hdoc name.1 name.2).1
  · intro name hlist hjson
    have hname := List.mem_filter.mpr ⟨hlist, hjson⟩
    exact ⟨_, List.mem_map_of_mem (List.mem_attach _ ⟨name, hname⟩), (hdoc name hname).2⟩

/-- A folder that an author wrote holds documents. If its numbers are read back, each of them was
read from a tidy tree. -/
theorem exists_holds (h : Authored idOf d (Path.join data last)) (hd : d.Named)
    (hlast : Disk.IsName last) :
    ∃ (place : Place) (docs : Table α), Holds idOf d (Path.join data last) place docs ∧
      (Steady d (Path.join data last) → ∀ {id doc}, docs.get? id = some doc →
        ∃ t : Json.Tree, t.Tidy 126 ∧ Document.ofTree? t = some doc) := by
  obtain ⟨place, hplace, hnofile⟩ := h.place
  obtain ⟨docs, hwritten, hall⟩ := h.exists_documents hd hlast hplace
  have hget : ∀ {id doc}, (Table.ofList (docs.map fun doc => (idOf doc, doc))).get? id = some doc ↔
      doc ∈ docs ∧ idOf doc = id := by
    -- Documents with the same id are read from the same file.
    refine Table.get?_ofList_map fun doc hdoc doc' hdoc' hid => ?_
    have hread := (hwritten doc hdoc).read
    rw [hid, (hwritten doc' hdoc').read] at hread
    exact (Except.ok.inj hread).symm
  -- The parts of `Holds` in their order. First: the folder is there, or there is nothing in it.
  refine ⟨place, Table.ofList (docs.map fun doc => (idOf doc, doc)),
    ⟨hplace, ?_, fun hdoc => (hget.mp hdoc).2, ?_, ?_, ?_, ?_⟩, ?_⟩
  · cases hentry : d.entry? place with
    | none =>
      refine .inr ⟨rfl, fun id => Option.eq_none_iff_forall_ne_some.mpr fun doc hdoc => ?_⟩
      have hthere := (hwritten doc (hget.mp hdoc).1).there
      rw [hentry] at hthere
      cases hthere
    | some entry =>
      cases entry with
      | folder => exact .inl rfl
      | file bytes => exact absurd hentry (hnofile bytes)
  · rintro id doc hdoc
    obtain ⟨hmem, rfl⟩ := hget.mp hdoc
    exact (hwritten doc hmem).json
  · rintro id doc hdoc
    obtain ⟨hmem, rfl⟩ := hget.mp hdoc
    exact (hwritten doc hmem).path
  · rintro id doc hdoc
    obtain ⟨hmem, rfl⟩ := hget.mp hdoc
    exact (hwritten doc hmem).text
  -- Each file of the folder that may be a document is the file of one of these.
  · intro name hjson hthere
    obtain ⟨doc, hmem, hname⟩ := hall name ((Disk.mem_list hplace).mpr hthere) hjson
    exact ⟨idOf doc, Option.isSome_iff_exists.mpr ⟨doc, hget.mpr ⟨hmem, rfl⟩⟩, hname⟩
  · exact fun hsteady _ _ hdoc => (hwritten _ (hget.mp hdoc).1).tidy hsteady

end Authored

end Folder

namespace Bundle

open Folder (Holds Filled Replaces fileAt)

variable {d d' : Disk} {data : String} {roomsAt objectsAt : Place} {b c : Bundle}

/-- The folders of an adventure hold the documents of a bundle. -/
structure Stored (d : Disk) (data : String) (roomsAt objectsAt : Place) (b : Bundle) : Prop where
  /-- The rooms are in the first folder. -/
  rooms : Holds Room.id d (roomFolder data) roomsAt b.rooms
  /-- The fixtures are in the second folder. -/
  objects : Holds Fixture.id d (objectFolder data) objectsAt b.objects

/-- The documents of a bundle were written to the folders of an adventure, and nothing else was
touched. -/
structure Wrote (d d' : Disk) (roomsAt objectsAt : Place) (b : Bundle) : Prop where
  /-- Nothing is lost. -/
  grows : d.Grows d'
  /-- The rooms were written. -/
  rooms : Filled d' roomsAt b.rooms
  /-- The fixtures were written. -/
  objects : Filled d' objectsAt b.objects
  /-- Whatever is at other places is as it was. -/
  other : ∀ {place}, place ≠ roomsAt → place ≠ objectsAt →
    (∀ id, b.rooms.contains id = true → place ≠ fileAt roomsAt id) →
    (∀ id, b.objects.contains id = true → place ≠ fileAt objectsAt id) →
    d'.entry? place = d.entry? place

/-- The folder of the rooms has a name. -/
theorem isName_rooms : Disk.IsName "rooms" := ⟨by decide, by decide, by decide⟩

/-- The folder of the fixtures has a name. -/
theorem isName_objects : Disk.IsName "objects" := ⟨by decide, by decide, by decide⟩

/-- Adding rooms changes the table of the rooms. -/
theorem foldl_addRoom (rs : List Room) (b : Bundle) :
    rs.foldl addRoom b = ⟨rs.foldl (fun t r => t.insert r.id r) b.rooms, b.objects⟩ := by
  induction rs generalizing b with
  | nil => rfl
  | cons r rs ih => exact ih _

/-- Adding fixtures changes the table of the fixtures. -/
theorem foldl_addFixture (fs : List Fixture) (b : Bundle) :
    fs.foldl addFixture b = ⟨b.rooms, fs.foldl (fun t f => t.insert f.id f) b.objects⟩ := by
  induction fs generalizing b with
  | nil => rfl
  | cons f fs ih => exact ih _

namespace Stored

/-- The two folders of an adventure lie beside each other. -/
theorem beside (h : Stored d data roomsAt objectsAt b) :
    roomsAt.length = objectsAt.length ∧ roomsAt ≠ objectsAt := by
  obtain ⟨folder, hfolder⟩ := d.exists_locate_join data
  rw [hfolder isName_rooms h.rooms.located, hfolder isName_objects h.objects.located]
  simp

/-- What the folders of an adventure hold is read. -/
theorem read (h : Stored d data roomsAt objectsAt b) : Bundle.read d data = .ok b := by
  obtain ⟨rs, hrs, hrooms⟩ := h.rooms.exists_read
  obtain ⟨os, hos, hobjects⟩ := h.objects.exists_read
  unfold Table.ofList at hrooms hobjects
  rw [List.foldl_map] at hrooms hobjects
  unfold Bundle.read
  rw [hrs, hos]
  show Except.ok (os.foldl addFixture (rs.foldl addRoom empty)) = .ok b
  rw [foldl_addRoom, foldl_addFixture]
  exact congrArg Except.ok (congrArg₂ Bundle.mk hrooms hobjects)

/-- A bundle that can take the place of the one in the folders is written to them, and then they
hold what is read from there. -/
theorem exists_write (h : Stored d data roomsAt objectsAt b) {read : Bundle}
    (hrooms : Replaces Room.id b.rooms c.rooms read.rooms)
    (hobjects : Replaces Fixture.id b.objects c.objects read.objects) :
    ∃ d', c.write data d = (.ok (), d') ∧ Stored d' data roomsAt objectsAt read ∧
      Wrote d d' roomsAt objectsAt c := by
  obtain ⟨hlength, hne⟩ := h.beside
  obtain ⟨d₁, hwrite, hwrote, hholds⟩ := h.rooms.exists_write hrooms
  -- Writing the rooms leaves the folder of the fixtures alone, and the other way round.
  obtain ⟨hfolder, hfiles⟩ := hwrote.beside hlength.symm hne.symm
  obtain ⟨d₂, hwrite', hwrote', hholds'⟩ :=
    (h.objects.of_same hwrote.grows hfolder hfiles).exists_write hobjects
  obtain ⟨hfolder', hfiles'⟩ := hwrote'.beside hlength hne
  refine ⟨d₂, ?_, ⟨hholds.of_same hwrote'.grows hfolder' hfiles', hholds'⟩,
    hwrote.grows.trans hwrote'.grows, hwrote.filled.of_same hfolder' hfiles', hwrote'.filled,
    fun hnotRooms hnotObjects hnoRoom hnoObject => ?_⟩
  · unfold write
    rw [hwrite]
    exact hwrite'
  · rw [hwrote'.other hnotObjects hnoObject, hwrote.other hnotRooms hnoRoom]

end Stored

/-- Writing the same bundle once more changes nothing. -/
theorem Wrote.again {d'' : Disk} (h : Wrote d d' roomsAt objectsAt b)
    (h' : Wrote d' d'' roomsAt objectsAt b) (place : Place) :
    d''.entry? place = d'.entry? place := by
  by_cases hrooms : place = roomsAt
  · rw [hrooms, h.rooms.folder, h'.rooms.folder]
  by_cases hobjects : place = objectsAt
  · rw [hobjects, h.objects.folder, h'.objects.folder]
  by_cases hroom : ∃ id, b.rooms.contains id = true ∧ place = fileAt roomsAt id
  · obtain ⟨id, hid, rfl⟩ := hroom
    obtain ⟨r, hr⟩ := Option.isSome_iff_exists.mp hid
    rw [h.rooms.file hr, h'.rooms.file hr]
  by_cases hobject : ∃ id, b.objects.contains id = true ∧ place = fileAt objectsAt id
  · obtain ⟨id, hid, rfl⟩ := hobject
    obtain ⟨f, hf⟩ := Option.isSome_iff_exists.mp hid
    rw [h.objects.file hf, h'.objects.file hf]
  · exact h'.other hrooms hobjects (fun id hid heq => hroom ⟨id, hid, heq⟩)
      fun id hid heq => hobject ⟨id, hid, heq⟩

/-- The rooms of a compiled bundle can take the place of those that an author wrote. -/
theorem replaces_rooms (hown : ∀ {id r}, b.rooms.get? id = some r → r.id = id)
    (htidy : ∀ {id r}, b.rooms.get? id = some r →
      ∃ t : Json.Tree, t.Tidy 126 ∧ Document.ofTree? t = some r) :
    Replaces Room.id b.rooms b.compileGates.rooms b.compileGates.rooms := by
  refine .of_map b.rooms_compileGates hown (fun _ _ => rfl) fun hr => ?_
  obtain ⟨t, ht, htree⟩ := htidy hr
  exact (Room.stable_of_compiled ht htree _).ofText?_fileText

/-- The fixtures of a compiled bundle can take the place of those that an author wrote. -/
theorem replaces_objects (hown : ∀ {id f}, b.objects.get? id = some f → f.id = id)
    (htidy : ∀ {id f}, b.objects.get? id = some f →
      ∃ t : Json.Tree, t.Tidy 126 ∧ Document.ofTree? t = some f) :
    Replaces Fixture.id b.objects b.compileGates.objects b.compileGates.objects := by
  refine .of_map b.objects_compileGates hown (fun _ _ => rfl) fun hf => ?_
  obtain ⟨t, ht, htree⟩ := htidy hf
  exact (Fixture.stable_of_compiled ht htree _).ofText?_fileText

/-- A place of one of the JSON files in the folders of an adventure. -/
def IsDocument (d : Disk) (data : String) (place : Place) : Prop :=
  ∃ folder ∈ [roomFolder data, objectFolder data], ∃ name ∈ d.list folder,
    Path.isJsonFile name = true ∧ d.locate (Path.join folder name) = .ok place

/-- The file of a document in one of the folders is one of the JSON files there. -/
theorem isDocument_of_holds {α : Type} [Document α] {idOf : α → String} {folder : String}
    {place : Place} {docs : Table α} (hfolder : folder ∈ [roomFolder data, objectFolder data])
    (h : Holds idOf d folder place docs) {id : String} (hid : docs.contains id = true) :
    IsDocument d data (fileAt place id) := by
  obtain ⟨doc, hdoc⟩ := Option.isSome_iff_exists.mp hid
  exact ⟨folder, hfolder, id ++ ".json", (List.mem_filter.mp (h.mem_list hdoc)).1, h.json hdoc,
    h.path hdoc⟩

/-- An adventure is compiled in its folder. If each of its JSON files is named by the id of its
document, has no object with a repeated key, nests at most 126 levels and has only numbers that are
read back, then the bundle of these documents is read, compiled and written: each file has the text
of its compiled document afterwards, and the compiled bundle is read from them. Nothing else on the
disk changes, except that a folder is created where there is none. Compiling what was written has
the same warnings, and writes the same bytes to every file. -/
theorem compiled_in_place (hd : d.Named) (hrooms : Folder.Authored Room.id d (roomFolder data))
    (hobjects : Folder.Authored Fixture.id d (objectFolder data))
    (hsteady : ∀ folder ∈ [roomFolder data, objectFolder data], Folder.Steady d folder) :
    ∃ (b : Bundle) (d' d'' : Disk),
      Bundle.read d data = .ok b ∧ b.compileGates.write data d = (.ok (), d') ∧
      Folder.Rewritten Room.id d d' (roomFolder data) b.rooms b.compileGates.rooms ∧
      Folder.Rewritten Fixture.id d d' (objectFolder data) b.objects b.compileGates.objects ∧
      Bundle.read d' data = .ok b.compileGates ∧
      (∀ place, ¬IsDocument d data place → d'.entry? place = d.entry? place ∨
        d.entry? place = none ∧ d'.entry? place = some .folder) ∧
      b.compileGates.warnings = b.warnings ∧
      b.compileGates.compileGates.write data d' = (.ok (), d'') ∧
      ∀ place, d''.entry? place = d'.entry? place := by
  obtain ⟨roomsAt, rooms, hroomsHold, hroomsTidy⟩ := hrooms.exists_holds hd isName_rooms
  obtain ⟨objectsAt, objects, hobjectsHold, hobjectsTidy⟩ := hobjects.exists_holds hd isName_objects
  have hstored : Stored d data roomsAt objectsAt ⟨rooms, objects⟩ := ⟨hroomsHold, hobjectsHold⟩
  have hreplaceRooms := replaces_rooms (b := ⟨rooms, objects⟩) hroomsHold.own
    (hroomsTidy (hsteady (roomFolder data) (by simp)))
  have hreplaceObjects := replaces_objects (b := ⟨rooms, objects⟩) hobjectsHold.own
    (hobjectsTidy (hsteady (objectFolder data) (by simp)))
  obtain ⟨d', hwrite, hstored', hwrote⟩ := hstored.exists_write hreplaceRooms hreplaceObjects
  -- Compiling is done, so the second pass writes the bundle that the first one wrote.
  obtain ⟨d'', hwrite', -, hwrote'⟩ :=
    hstored'.exists_write hreplaceRooms.self hreplaceObjects.self
  refine ⟨⟨rooms, objects⟩, d', d'', hstored.read, hwrite,
    hroomsHold.rewritten hreplaceRooms.ids hwrote.grows hwrote.rooms,
    hobjectsHold.rewritten hreplaceObjects.ids hwrote.grows hwrote.objects, hstored'.read,
    fun place hnot => ?_, warnings_compileGates _, ?_, hwrote.again hwrote'⟩
  · -- A place that is no document is one of the folders, or nothing was written to it.
    by_cases hroomsAt : place = roomsAt
    · rw [hroomsAt, hwrote.rooms.folder]
      exact hroomsHold.there.imp Eq.symm fun hnone => ⟨hnone.1, rfl⟩
    by_cases hobjectsAt : place = objectsAt
    · rw [hobjectsAt, hwrote.objects.folder]
      exact hobjectsHold.there.imp Eq.symm fun hnone => ⟨hnone.1, rfl⟩
    refine .inl (hwrote.other hroomsAt hobjectsAt (fun id hid heq => ?_) fun id hid heq => ?_)
    · rw [contains_rooms_compileGates] at hid
      exact hnot (heq ▸ isDocument_of_holds (by simp) hstored.rooms hid)
    · rw [contains_objects_compileGates] at hid
      exact hnot (heq ▸ isDocument_of_holds (by simp) hstored.objects hid)
  · rw [compileGates_compileGates]
    exact hwrite'

/-- Twenty-one and a half. -/
def degrees : Json.Number := .real ⟨false, 6051711999279104, -48, by decide⟩

/-- A hall as an author may write it: a lever opens the way north. -/
def hallDraft : Json := .object [("id", .string "hall"), ("weather", .number degrees),
  ("exits", .object [("nord", .string "yard")]),
  ("exitMeta", .object [("nord", .object [("locked", .bool true), ("objectId", .string "lever")])])]

/-- The hall that is read from the draft. -/
def hall : Room where
  id := "hall"
  title := ""
  description := ""
  ascii := none
  items := []
  objects := []
  exits := .ofList [("nord", "yard")]
  exitMeta := .ofList [("nord", ⟨true, some "lever", none⟩)]
  onFirstEnter := []
  onEnter := []
  extra := .ofList [("weather", .number degrees)]

/-- A lever as an author may write it. -/
def leverDraft : Json := .object [("id", .string "lever"),
  ("use", .array [.object [("type", .string "message"), ("text", .string "Es knarrt.")]])]

/-- The lever that is read from the draft. -/
def lever : Fixture where
  id := "lever"
  name := ""
  description := ""
  locked := false
  inspect := []
  use := [.message "Es knarrt."]
  onLockedUse := []
  extra := .empty

/-- A disk with the adventure of the hall and the lever, and a file that is none of its
documents. -/
def tower : Disk where
  entries := [(["tower"], .folder), (["tower", "rooms"], .folder), (["tower", "objects"], .folder),
    (["tower", "rooms", "hall.json"], .file hallDraft.compactText.toUTF8),
    (["tower", "rooms", "notes.txt"], .file "Turm".toUTF8),
    (["tower", "objects", "lever.json"], .file leverDraft.compactText.toUTF8)]
  here := []

section Draft

variable {path : String} {draft : Json} {place : Place}
  (hpath : d.locate path = .ok place)
  (hentry : d.entry? place = some (.file draft.compactText.toUTF8))
  (hfits : draft.Fits Json.Reader.maxNesting)
include hpath hentry hfits

/-- A file with the text of a draft is read as the tree of the draft, with the numbers that their
texts are read as. -/
theorem tree_of_draft {text : String} {t : Json.Tree} (htext : d.readText path = .ok text)
    (ht : Json.Tree.ofText? text = some t) : t = draft.reread.toTree := by
  have hsame := htext.symm.trans (Disk.readText_eq_ok.mpr ⟨place, hpath, hentry⟩)
  rw [Except.ok.inj hsame, Json.Tree.ofText?_compactText hfits.1 hfits.2] at ht
  exact (Option.some.inj ht).symm

/-- A file with the text of a draft is as an author may write it. -/
theorem exists_of_draft {α : Type} [Document α] {idOf : α → String} {name : String} (doc : α)
    (hkeys : draft.reread.toTree.keysOnce = true) (hdepth : draft.reread.toTree.depth ≤ 126)
    (hread : Document.ofTree? draft.reread.toTree = some doc) (hname : name = idOf doc ++ ".json") :
    ∃ (text : String) (t : Json.Tree) (doc : α),
      d.readText path = .ok text ∧ Json.Tree.ofText? text = some t ∧ t.keysOnce = true ∧
      t.depth ≤ 126 ∧ Document.ofText? text = some doc ∧ name = idOf doc ++ ".json" := by
  have ht := Json.Tree.ofText?_compactText hfits.1 hfits.2
  have hdoc : Document.ofText? draft.compactText = some doc := by
    unfold Document.ofText?
    rw [ht]
    exact hread
  exact ⟨_, _, doc, Disk.readText_eq_ok.mpr ⟨place, hpath, hentry⟩, ht, hkeys, hdepth, hdoc, hname⟩

end Draft

/-- The rooms of the tower: a hall, and a file that is no document. -/
theorem list_tower_rooms : tower.list (roomFolder "tower") = ["hall.json", "notes.txt"] := by
  decide +kernel

/-- The fixtures of the tower: a lever. -/
theorem list_tower_objects : tower.list (objectFolder "tower") = ["lever.json"] := by
  decide +kernel

/-- The number in the draft of the hall has few digits, so it is read back. -/
theorem reread_degrees : degrees.reread = degrees :=
  Json.Number.reread_short (by decide +kernel) (by decide +kernel)

/-- The draft of the hall fits into a text. -/
theorem fits_hallDraft : hallDraft.Fits Json.Reader.maxNesting := by
  refine ⟨?_, by decide⟩
  simp [hallDraft, Json.Held, Json.HeldFields, degrees, Json.Number.Held, Json.Number.Printable]

/-- The draft of the hall is read as it stands. -/
theorem reread_hallDraft : hallDraft.reread = hallDraft := by
  simp [hallDraft, Json.reread, Json.rereadFields, reread_degrees]

/-- The draft of the lever fits into a text. -/
theorem fits_leverDraft : leverDraft.Fits Json.Reader.maxNesting := by
  refine ⟨?_, by decide⟩
  simp only [leverDraft, Json.Held, Json.HeldFields, Json.HeldItems, and_self]

/-- The adventure of the hall and the lever is compiled in its folder. -/
theorem compiled_in_place_tower :
    tower.Named ∧ Folder.Authored Room.id tower (roomFolder "tower") ∧
      Folder.Authored Fixture.id tower (objectFolder "tower") ∧
      (∀ folder ∈ [roomFolder "tower", objectFolder "tower"], Folder.Steady tower folder) ∧
      ∃ (b : Bundle) (d' d'' : Disk),
        Bundle.read tower "tower" = .ok b ∧ b.compileGates.write "tower" tower = (.ok (), d') ∧
        Folder.Rewritten Room.id tower d' (roomFolder "tower") b.rooms b.compileGates.rooms ∧
        Folder.Rewritten Fixture.id tower d' (objectFolder "tower") b.objects
          b.compileGates.objects ∧
        Bundle.read d' "tower" = .ok b.compileGates ∧
        (∀ place, ¬IsDocument tower "tower" place → d'.entry? place = tower.entry? place ∨
          tower.entry? place = none ∧ d'.entry? place = some .folder) ∧
        b.compileGates.warnings = b.warnings ∧
        b.compileGates.compileGates.write "tower" d' = (.ok (), d'') ∧
        ∀ place, d''.entry? place = d'.entry? place := by
  have hnamed : tower.Named := by
    unfold Disk.Named
    decide +kernel
  have hhall : tower.locate (Path.join (roomFolder "tower") "hall.json") =
      .ok ["tower", "rooms", "hall.json"] := by rfl
  have hlever : tower.locate (Path.join (objectFolder "tower") "lever.json") =
      .ok ["tower", "objects", "lever.json"] := by rfl
  -- The hall is the only room; the other file of its folder is not named like a document.
  have hrooms : Folder.Authored Room.id tower (roomFolder "tower") := by
    refine ⟨⟨["tower", "rooms"], by rfl, fun bytes h => by cases h⟩, fun name hname hjson => ?_⟩
    rw [list_tower_rooms] at hname
    simp only [List.mem_cons, List.not_mem_nil, or_false] at hname
    rcases hname with rfl | rfl
    · exact exists_of_draft hhall (by rfl) fits_hallDraft hall
        (by rw [reread_hallDraft]; decide) (by rw [reread_hallDraft]; decide)
        (by rw [reread_hallDraft]; rfl) (by decide)
    · exact absurd hjson (by decide)
  have hobjects : Folder.Authored Fixture.id tower (objectFolder "tower") := by
    refine ⟨⟨["tower", "objects"], by rfl, fun bytes h => by cases h⟩, fun name hname hjson => ?_⟩
    rw [list_tower_objects, List.mem_singleton] at hname
    subst hname
    exact exists_of_draft hlever (by rfl) fits_leverDraft lever (by decide) (by decide) (by rfl)
      (by decide)
  -- The one number of the drafts does not drift.
  have hsteady : ∀ folder ∈ [roomFolder "tower", objectFolder "tower"],
      Folder.Steady tower folder := by
    refine List.forall_mem_cons.mpr ⟨fun name hname hjson text t htext ht => ?_,
      List.forall_mem_singleton.mpr fun name hname hjson text t htext ht => ?_⟩
    · rw [list_tower_rooms] at hname
      simp only [List.mem_cons, List.not_mem_nil, or_false] at hname
      rcases hname with rfl | rfl
      · rw [tree_of_draft hhall (by rfl) fits_hallDraft htext ht, reread_hallDraft]
        simp [hallDraft, Json.toTree, Json.fieldsToTree, Json.Tree.steady, Json.Tree.fieldsSteady,
          reread_degrees]
      · exact absurd hjson (by decide)
    · rw [list_tower_objects, List.mem_singleton] at hname
      subst hname
      rw [tree_of_draft hlever (by rfl) fits_leverDraft htext ht]
      decide
  exact ⟨hnamed, hrooms, hobjects, hsteady, compiled_in_place hnamed hrooms hobjects hsteady⟩

/-! ### Numbers that are not read back -/

/-- A vault as an author may write it, with a number in a field that is not known. -/
def vaultDraft : Json := .object [("id", .string "vault"), ("grain", .number .grain)]

/-- A vault with a number in that field. -/
def vault (x : Json.Number) : Room where
  id := "vault"
  title := ""
  description := ""
  ascii := none
  items := []
  objects := []
  exits := .empty
  exitMeta := .empty
  onFirstEnter := []
  onEnter := []
  extra := .ofList [("grain", .number x)]

/-- What is written for a vault. -/
def vaultWritten (x : Json.Number) : Json := .object [
  ("id", .string "vault"), ("title", .string ""),
  ("description", .string ""), ("items", .array []), ("objects", .array []),
  ("exits", .object []), ("on_first_enter", .array []), ("on_enter", .array []),
  ("grain", .number x)]

/-- The file of a vault is read as the vault with the number that the text of its number is
read as. -/
theorem ofText?_vault {x y : Json.Number} (hx : x.Printable) (h : x.reread = y) :
    Document.ofText? (Document.fileText (vault x)) = some (vault y) := by
  have hwritten : Document.toJson (vault x) = vaultWritten x := by rfl
  have hfits : (vaultWritten x).Fits Json.Reader.maxNesting := by
    refine ⟨?_, ?_⟩
    · simp [vaultWritten, Json.Held, Json.HeldFields, Json.HeldItems, Json.Number.Held, hx]
    · simp [vaultWritten, Json.depth, Json.fieldsDepth, Json.itemsDepth, Json.Reader.maxNesting]
  have hreread : (vaultWritten x).reread = vaultWritten y := by
    simp [vaultWritten, Json.reread, Json.rereadFields, Json.rereadItems, h]
  rw [Document.ofText?_fileText_of_fits (hwritten ▸ hfits), hwritten, hreread]
  rfl

/-- A disk with the adventure of the vault. -/
def archive : Disk where
  entries := [(["archive"], .folder), (["archive", "rooms"], .folder),
    (["archive", "rooms", "vault.json"], .file vaultDraft.compactText.toUTF8)]
  here := []

/-- The draft of the vault fits into a text. -/
theorem fits_vaultDraft : vaultDraft.Fits Json.Reader.maxNesting := by
  refine ⟨?_, by decide⟩
  simp [vaultDraft, Json.Held, Json.HeldFields, Json.Number.Held, Json.Number.printable_grain]

/-- The draft is read with another number. -/
theorem reread_vaultDraft : vaultDraft.reread =
    .object [("id", .string "vault"), ("grain", .number .grainBelow)] := by
  simp [vaultDraft, Json.reread, Json.rereadFields, Json.Number.reread_grain.1]

/-- The rooms of the archive: a vault. -/
theorem list_archive_rooms : archive.list (roomFolder "archive") = ["vault.json"] := by
  decide +kernel

/-- The archive has no fixtures. -/
theorem list_archive_objects : archive.list (objectFolder "archive") = [] := by
  decide +kernel

/-- The id of the vault is the one id of its bundle. -/
theorem get?_vault {x : Json.Number} {id : String} {r : Room} :
    (empty.addRoom (vault x)).rooms.get? id = some r ↔ id = "vault" ∧ r = vault x := by
  show (Table.empty.insert "vault" (vault x)).get? id = some r ↔ _
  rw [Table.get?_insert]
  split_ifs with hid
  · simp [hid, eq_comm]
  · simp [hid, Table.get?, Table.empty]

/-- The vault is the bundle of the archive. -/
theorem stored_archive : Stored archive "archive" ["archive", "rooms"] ["archive", "objects"]
    (empty.addRoom (vault .grainBelow)) := by
  have hrooms : archive.locate (roomFolder "archive") = .ok ["archive", "rooms"] := by rfl
  have hobjects : archive.locate (objectFolder "archive") = .ok ["archive", "objects"] := by rfl
  refine ⟨⟨hrooms, .inl (by rfl), ?_, ?_, ?_, ?_, ?_⟩,
    Folder.holds_empty hobjects (by rfl) list_archive_objects⟩
  -- The rooms are the vault alone, which is read from its draft with the other number.
  · rintro id r h
    obtain ⟨rfl, rfl⟩ := get?_vault.mp h
    rfl
  · rintro id r h
    obtain ⟨rfl, rfl⟩ := get?_vault.mp h
    decide
  · rintro id r h
    obtain ⟨rfl, rfl⟩ := get?_vault.mp h
    rfl
  · rintro id r h
    obtain ⟨rfl, rfl⟩ := get?_vault.mp h
    refine ⟨vaultDraft.compactText, by rfl, ?_⟩
    unfold Document.ofText?
    rw [Json.Tree.ofText?_compactText fits_vaultDraft.1 fits_vaultDraft.2, reread_vaultDraft]
    rfl
  · intro name hjson hthere
    rw [← Disk.mem_list hrooms, list_archive_rooms, List.mem_singleton] at hthere
    exact ⟨"vault", by decide, hthere⟩

/-- A vault is written in place of another one. Then the archive holds what is read from there. -/
theorem exists_write_vault {x y z : Json.Number}
    (hstored : Stored d "archive" ["archive", "rooms"] ["archive", "objects"]
      (empty.addRoom (vault x))) (hy : y.Printable) (h : y.reread = z) :
    ∃ d', (empty.addRoom (vault y)).write "archive" d = (.ok (), d') ∧
      Stored d' "archive" ["archive", "rooms"] ["archive", "objects"] (empty.addRoom (vault z)) ∧
      d'.entry? ["archive", "rooms", "vault.json"] =
        some (.file (Document.fileText (vault y)).toUTF8) := by
  -- Each of the three tables has the vault and nothing else, whatever its number.
  have hids : ∀ (x y : Json.Number) (id : String), (empty.addRoom (vault y)).rooms.contains id =
      (empty.addRoom (vault x)).rooms.contains id := by
    intro x y id
    show (Table.empty.insert "vault" (vault y)).contains id =
      (Table.empty.insert "vault" (vault x)).contains id
    rw [Table.contains_insert, Table.contains_insert]
  have hrooms : Replaces Room.id (empty.addRoom (vault x)).rooms (empty.addRoom (vault y)).rooms
      (empty.addRoom (vault z)).rooms := by
    refine ⟨hids x y, hids y z, fun {id r} hr => ?_, fun {id r r'} hr hr' => ?_⟩
    · obtain ⟨rfl, rfl⟩ := get?_vault.mp hr
      rfl
    · obtain ⟨rfl, rfl⟩ := get?_vault.mp hr
      obtain ⟨-, rfl⟩ := get?_vault.mp hr'
      exact ofText?_vault hy h
  have hobjects : Replaces Fixture.id (Table.empty : Table Fixture) .empty .empty :=
    ⟨fun _ => rfl, fun _ => rfl, fun {id f} hf => (by cases hf),
      fun {id f f'} hf => (by cases hf)⟩
  obtain ⟨d', hwrite, hstored', hwrote⟩ :=
    hstored.exists_write (c := empty.addRoom (vault y)) hrooms hobjects
  exact ⟨d', hwrite, hstored', hwrote.rooms.file (get?_vault.mpr ⟨rfl, rfl⟩)⟩

/-- The archive is as an author may write it, but its vault is read with the number below the one
that stands in its file. So what is read after compiling is not what was compiled, and compiling
once more writes other bytes. -/
theorem number_drifts :
    vaultDraft.compactText = "\x7b\"id\":\"vault\",\"grain\":1e-30\x7d" ∧
    archive.Named ∧ Folder.Authored Room.id archive (roomFolder "archive") ∧
    Folder.Authored Fixture.id archive (objectFolder "archive") ∧
    ∃ (b c : Bundle) (d' d'' : Disk), Bundle.read archive "archive" = .ok b ∧
      b.compileGates.write "archive" archive = (.ok (), d') ∧ Bundle.read d' "archive" = .ok c ∧
      b.compileGates.same c = false ∧ c.compileGates.write "archive" d' = (.ok (), d'') ∧
      d''.entry? ["archive", "rooms", "vault.json"] ≠
        d'.entry? ["archive", "rooms", "vault.json"] := by
  have hnamed : archive.Named := by
    unfold Disk.Named
    decide +kernel
  have hrooms : Folder.Authored Room.id archive (roomFolder "archive") := by
    refine ⟨⟨["archive", "rooms"], by rfl, fun bytes h => by cases h⟩, fun name hname hjson => ?_⟩
    rw [list_archive_rooms, List.mem_singleton] at hname
    subst hname
    have hpath : archive.locate (Path.join (roomFolder "archive") "vault.json") =
        .ok ["archive", "rooms", "vault.json"] := by rfl
    exact exists_of_draft hpath (by rfl) fits_vaultDraft (vault .grainBelow)
      (by rw [reread_vaultDraft]; decide) (by rw [reread_vaultDraft]; decide)
      (by rw [reread_vaultDraft]; rfl) (by decide)
  have hobjects : Folder.Authored Fixture.id archive (objectFolder "archive") := by
    refine ⟨⟨["archive", "objects"], by rfl, fun bytes h => by cases h⟩, fun name hname => ?_⟩
    rw [list_archive_objects] at hname
    cases hname
  -- Each pass writes one of the two numbers, and the next one reads the other.
  obtain ⟨hgrain, hbelow⟩ := Json.Number.printable_grain
  obtain ⟨hreread, hreread'⟩ := Json.Number.reread_grain
  obtain ⟨d', hwrite, hstored, hfile⟩ := exists_write_vault stored_archive hbelow hreread'
  obtain ⟨d'', hwrite', -, hfile'⟩ := exists_write_vault hstored hgrain hreread
  refine ⟨by decide +kernel, hnamed, hrooms, hobjects, _, _, d', d'', stored_archive.read, hwrite,
    hstored.read, by decide +kernel, hwrite', fun hsame => ?_⟩
  rw [hfile, hfile', Option.some.injEq, Entry.file.injEq] at hsame
  -- The same text would be read as both numbers.
  have hread := ofText?_vault hgrain hreread
  rw [String.toByteArray_inj.mp hsame, ofText?_vault hbelow hreread', Option.some.injEq] at hread
  have hextra : [("grain", Json.number .grain)] = [("grain", .number .grainBelow)] :=
    congrArg (fun r : Room => r.extra.entries) hread
  simp [Json.Number.grain, Json.Number.grainBelow] at hextra

end Bundle

end TextAdventure
