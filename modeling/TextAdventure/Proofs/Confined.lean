import TextAdventure.Proofs.Below
import TextAdventure.Proofs.Compile

/-!
# Where bundles are written

Writing a bundle creates folders and writes the files to which the paths of its documents lead, and
nothing else on the disk changes (`Disk.Writes`, `Bundle.writes_write`). The path of a document is
made of its id. It lies directly in the folder of its kind if the id stays there: the id is not
absolute, and what stands in front of its last slash, if it has one, stands for the folder itself
(`Bundle.inFolders_documentPath_iff`). Ids are not looked at when a bundle is written, so the file
of any other id lies elsewhere (`Bundle.written_in_folders`).
-/

namespace TextAdventure

/-! ### Paths in a folder -/

namespace Path

variable {folder path id : String}

/-- A path lies directly in a folder: it has the components of the folder, and then one name. -/
def IsIn (folder path : String) : Prop :=
  ∃ name, components path = components folder ++ [.down name]

/-- An id leads away from the folder in which its file is looked for. -/
def LeadsAway (id : String) : Prop :=
  isAbsolute id = true ∨ ∃ name ∈ (names id).dropLast, staysHere name = false

/-- The names of a path are those in front of the last slash, and what stands behind it. -/
theorem exists_names_append (path : String) : ∃ before last, '/' ∉ last.toList ∧
    ∀ ending, '/' ∉ ending.toList → names (path ++ ending) = before ++ [last ++ ending] := by
  have hlast : ∀ {last ending : String}, '/' ∉ last.toList → '/' ∉ ending.toList →
      names (last ++ ending) = [last ++ ending] := by
    intro last ending hlast hending
    refine names_eq_singleton ?_
    rw [String.toList_append, List.mem_append, not_or]
    exact ⟨hlast, hending⟩
  by_cases hslash : '/' ∈ path.toList
  · -- Read backwards, the last slash is the first one.
    obtain ⟨behind, front, hreverse, hbehind⟩ :=
      List.eq_append_cons_of_mem (List.mem_reverse.mpr hslash)
    have hpath : path = String.ofList front.reverse ++ "/" ++ String.ofList behind.reverse := by
      rw [← String.toList_inj, ← List.reverse_reverse path.toList, hreverse]
      simp
    have hnoslash : '/' ∉ (String.ofList behind.reverse).toList := by
      rw [String.toList_ofList, List.mem_reverse]
      exact hbehind
    refine ⟨names (String.ofList front.reverse), _, hnoslash, fun ending hending => ?_⟩
    rw [hpath, String.append_assoc, names_append_slash, hlast hnoslash hending]
  · exact ⟨[], path, hslash, fun ending hending => hlast hslash hending⟩

/-- A name that ends like a JSON file leads to what is in the folder. -/
theorem component?_json (name : String) :
    component? (name ++ ".json") = some (.down (name ++ ".json")) := by
  have hne : ∀ short : String, short.length < 5 → name ++ ".json" ≠ short := by
    rintro short hshort rfl
    rw [String.length_append] at hshort
    have hfive : ".json".length = 5 := rfl
    omega
  refine component?_of_down ?_ (hne ".." (by decide))
  unfold staysHere
  simp [hne "" (by decide), hne "." (by decide)]

/-- A name stands for the folder itself if it has no component. -/
theorem component?_eq_none_iff {name : String} :
    component? name = none ↔ staysHere name = true := by
  unfold component?
  split_ifs with hstays <;> simp [hstays]

/-- The components of the file of an id are those of the folder, those of what stands in front of
the last slash of the id, and one name. -/
theorem exists_components_join (h : isAbsolute id = false) : ∃ name, ∀ folder,
    components (join folder (id ++ ".json")) =
      components folder ++ (names id).dropLast.filterMap component? ++ [.down name] := by
  obtain ⟨before, last, hlast, hnames⟩ := exists_names_append id
  refine ⟨last ++ ".json", fun folder => ?_⟩
  have hrelative : isAbsolute (id ++ ".json") = false := by
    by_cases hempty : id = ""
    · rw [hempty]
      rfl
    · rw [isAbsolute_append hempty, h]
  have hid := hnames "" (by decide)
  rw [String.append_empty, String.append_empty] at hid
  rw [components_join folder hrelative, hnames ".json" (by decide), hid, List.dropLast_concat,
    List.filterMap_append, List.append_assoc]
  have hjson : [last ++ ".json"].filterMap component? = [.down (last ++ ".json")] :=
    List.filterMap_cons_some (component?_json last)
  rw [hjson]

end Path

namespace Disk

/-! ### What writing changes -/

variable {d d' : Disk} {paths : List String}

/-- From a disk to another one, folders were created and the files at some paths were written, and
nothing else was changed. -/
structure Writes (paths : List String) (d d' : Disk) : Prop where
  /-- Nothing is lost. -/
  grows : d.Grows d'
  /-- What changed is a new folder, or the file to which one of the paths leads. -/
  changed : ∀ place, d'.entry? place = d.entry? place ∨
    d.entry? place = none ∧ d'.entry? place = some .folder ∨
    (∃ path ∈ paths, d'.locate path = .ok place) ∧ ∃ bytes, d'.entry? place = some (.file bytes)

namespace Writes

/-- A disk on which nothing is done. -/
theorem refl (paths : List String) (d : Disk) : Writes paths d d := ⟨.refl d, fun _ => .inl rfl⟩

/-- What is written may be among more paths. -/
theorem mono {paths' : List String} (h : Writes paths d d') (hpaths : paths ⊆ paths') :
    Writes paths' d d' :=
  ⟨h.grows, fun place => (h.changed place).imp_right fun hplace => hplace.imp_right fun hfile =>
    ⟨hfile.1.imp fun _ hpath => ⟨hpaths hpath.1, hpath.2⟩, hfile.2⟩⟩

/-- What is written one after the other. -/
theorem trans {d'' : Disk} (h : Writes paths d d') (h' : Writes paths d' d'') :
    Writes paths d d'' := by
  refine ⟨h.grows.trans h'.grows, fun place => ?_⟩
  rcases h'.changed place with hsame | ⟨hnone, hfolder⟩ | hfile
  · -- A path that led to the file still does.
    rw [hsame]
    refine (h.changed place).imp_right fun hplace => hplace.imp_right fun hfile => ⟨?_, hfile.2⟩
    exact hfile.1.imp fun path hpath => ⟨hpath.1, h'.grows.locate hpath.2⟩
  · rcases h.changed place with hsame | ⟨-, hfolder'⟩ | ⟨-, bytes, hfile⟩
    · exact .inr (.inl ⟨hsame ▸ hnone, hfolder⟩)
    · rw [hfolder'] at hnone
      cases hnone
    · rw [hfile] at hnone
      cases hnone
  · exact .inr (.inr hfile)

end Writes

/-- Creating a folder writes no file. -/
theorem writes_createFolder {start : Place} {names : List String}
    (h : d.createFolder start names = .ok d') : Writes [] d d' := by
  unfold createFolder at h
  split at h
  · next place _ =>
    split at h
    · cases h
    · next hnone =>
      cases h
      have hne : place ≠ [] := by
        rintro rfl
        cases hnone
      refine ⟨grows_set (by simp [hnone]) _, fun place' => ?_⟩
      rw [entry?_set hne]
      split_ifs with heq
      · exact .inr (.inl ⟨heq ▸ hnone, rfl⟩)
      · exact .inl rfl
  · cases h

/-- Creating a folder unless it is there writes no file. -/
theorem writes_ensureFolder (start : Place) (names : List String) (d : Disk) :
    Writes [] d (d.ensureFolder start names).2 := by
  unfold ensureFolder
  split
  · next hcreate => exact writes_createFolder hcreate
  · exact .refl [] d

/-- Creating the folders on the way to a folder writes no file. -/
theorem writes_createFoldersFrom (start : Place) (names : List String) (d : Disk) :
    Writes [] d (createFoldersFrom start names d).2 := by
  induction names generalizing d with
  | nil => exact .refl [] d
  | cons name before ih =>
    rw [createFoldersFrom]
    split
    · next hcreate => exact writes_createFolder hcreate
    · have hbefore := ih d
      split
      · next heq =>
        rw [heq] at hbefore
        exact hbefore.trans (writes_ensureFolder start _ _)
      · next heq =>
        rw [heq] at hbefore
        exact hbefore
    · exact .refl [] d

/-- Creating the folder of a path writes no file. -/
theorem writes_createFolders (d : Disk) (path : String) : Writes [] d (d.createFolders path).2 := by
  unfold createFolders
  split
  · exact .refl [] d
  · exact writes_createFoldersFrom _ _ d

/-- Writing a text writes the file to which the path leads. -/
theorem writes_writeText {path text : String} (h : d.writeText path text = .ok d') :
    Writes [path] d d' := by
  unfold writeText at h
  split at h
  · next place hplace =>
    split at h
    · cases h
    · next hfree =>
      cases h
      have hne : place ≠ [] := by
        rintro rfl
        exact hfree rfl
      have hgrows := grows_set (d := d) hfree (.file text.toUTF8)
      refine ⟨hgrows, fun place' => ?_⟩
      rw [entry?_set hne]
      split_ifs with heq
      · refine .inr (.inr ⟨⟨path, List.mem_singleton_self _, ?_⟩, _, rfl⟩)
        exact heq ▸ hgrows.locate hplace
      · exact .inl rfl
  · cases h

end Disk

namespace Bundle

open Disk (Writes)

/-! ### Writing a bundle -/

/-- Writing documents writes the files to which their paths lead, also if one of them cannot be
written. -/
theorem writes_writeFiles {α : Type} [Document α] (folder : String) (entries : List (String × α))
    (d : Disk) :
    Writes (entries.map fun e => documentPath folder e.1) d (writeFiles folder entries d).2 := by
  induction entries generalizing d with
  | nil => exact .refl _ d
  | cons e rest ih =>
    obtain ⟨id, doc⟩ := e
    rw [writeFiles]
    split
    · next hwrite =>
      rw [List.map_cons]
      have hfirst := (Disk.writes_writeText hwrite).mono
        (List.cons_subset_cons _ (List.nil_subset (rest.map fun e => documentPath folder e.1)))
      exact hfirst.trans ((ih _).mono (List.subset_cons_self _ _))
    · exact .refl _ d

/-- Writing documents to a folder writes the files to which their paths lead. -/
theorem writes_writeDocuments {α : Type} [Document α] (folder : String) (docs : Table α)
    (d : Disk) :
    Writes (docs.entries.map fun e => documentPath folder e.1) d
      (writeDocuments folder docs d).2 := by
  have hcreate := (Disk.writes_createFolders d folder).mono (List.nil_subset
    (docs.entries.map fun e => documentPath folder e.1))
  unfold writeDocuments
  split
  · next heq =>
    rw [heq] at hcreate
    exact hcreate.trans (writes_writeFiles folder docs.entries _)
  · next heq =>
    rw [heq] at hcreate
    exact hcreate

/-- The documents of a bundle, each by the folder to which it is written and its id. -/
def files (b : Bundle) (data : String) : List (String × String) :=
  b.rooms.keys.map (roomFolder data, ·) ++ b.objects.keys.map (objectFolder data, ·)

/-- Writing a bundle writes the files to which the paths of its documents lead. -/
theorem writes_write (b : Bundle) (data : String) (d : Disk) :
    Writes ((b.files data).map fun f => documentPath f.1 f.2) d (b.write data d).2 := by
  have hpaths : ((b.files data).map fun f => documentPath f.1 f.2) =
      (b.rooms.entries.map fun e => documentPath (roomFolder data) e.1) ++
        b.objects.entries.map fun e => documentPath (objectFolder data) e.1 := by
    simp only [files, Table.keys, List.map_append, List.map_map]
    rfl
  have hrooms := (writes_writeDocuments (roomFolder data) b.rooms d).mono
    (List.subset_append_left _ (b.objects.entries.map fun e =>
      documentPath (objectFolder data) e.1))
  rw [hpaths]
  unfold write
  split
  · next heq =>
    rw [heq] at hrooms
    exact hrooms.trans ((writes_writeDocuments (objectFolder data) b.objects _).mono
      (List.subset_append_right _ _))
  · next heq =>
    rw [heq] at hrooms
    exact hrooms

/-! ### Where the files lie -/

/-- A path lies directly in one of the folders of a data folder. -/
def InFolders (data path : String) : Prop :=
  ∃ folder ∈ [roomFolder data, objectFolder data], Path.IsIn folder path

/-- The folders of a data folder have one component more. -/
theorem length_components_folder {data folder : String}
    (h : folder ∈ [roomFolder data, objectFolder data]) :
    (Path.components folder).length = (Path.components data).length + 1 := by
  have hjoin : ∀ {kind : String}, Disk.IsName kind →
      (Path.components (Path.join data kind)).length = (Path.components data).length + 1 := by
    intro kind hkind
    have hdown := Path.component?_of_down (by simp [hkind.stays]) hkind.up
    rw [Path.components_join data hkind.relative, Path.names_eq_singleton hkind.slash,
      List.filterMap_cons_some hdown, List.length_append]
    rfl
  simp only [List.mem_cons, List.not_mem_nil, or_false] at h
  rcases h with rfl | rfl
  · exact hjoin isName_rooms
  · exact hjoin isName_objects

/-- The file of a document lies directly in one of the folders exactly if its id does not lead away,
provided that the id is not absolute. -/
theorem inFolders_documentPath_iff {data folder id : String}
    (hfolder : folder ∈ [roomFolder data, objectFolder data]) (hid : Path.isAbsolute id = false) :
    InFolders data (documentPath folder id) ↔ ¬Path.LeadsAway id := by
  obtain ⟨name, hname⟩ := Path.exists_components_join hid
  have hpath : Path.components (documentPath folder id) = _ := hname folder
  have hstays : ¬Path.LeadsAway id ↔
      (Path.names id).dropLast.filterMap Path.component? = [] := by
    unfold Path.LeadsAway
    rw [List.filterMap_eq_nil_iff]
    simp [hid, Path.component?_eq_none_iff]
  rw [hstays]
  constructor
  · rintro ⟨folder', hfolder', name', hname'⟩
    -- Both folders have as many components, so there is no room for others.
    rw [hpath] at hname'
    have hlength := congrArg List.length hname'
    simp only [List.length_append, length_components_folder hfolder,
      length_components_folder hfolder', List.length_singleton] at hlength
    exact List.length_eq_zero_iff.mp (by omega)
  · intro hnone
    exact ⟨folder, hfolder, name, by rw [hpath, hnone, List.append_nil]⟩

/-- An id under which a library looks for a document does not lead away. -/
theorem not_leadsAway_of_isFileName {id : String} (h : Library.isFileName id = true) :
    ¬Path.LeadsAway id := by
  have hslash : '/' ∉ id.toList := by
    have hfile := (Library.isName_of_isFileName h).slash
    rw [String.toList_append, List.mem_append, not_or] at hfile
    exact hfile.1
  rintro (habsolute | ⟨name, hname, -⟩)
  · rw [Path.isAbsolute_eq_false hslash] at habsolute
    cases habsolute
  · rw [Path.names_eq_singleton hslash] at hname
    cases hname

/-- Writing a bundle creates folders and writes files of its documents, and changes nothing else,
whether it succeeds or not. The file of a document lies directly in one of the two folders if the id
of the document does not lead away, as no id does under which a library looks for a document. The
file of an id that leads away and is not absolute lies in neither of them. -/
theorem written_in_folders (b : Bundle) (data : String) (d : Disk) :
    (∀ place, Disk.entry? (b.write data d).2 place ≠ d.entry? place →
      d.entry? place = none ∧ Disk.entry? (b.write data d).2 place = some .folder ∨
      ∃ f ∈ b.files data, (b.write data d).2.locate (documentPath f.1 f.2) = .ok place ∧
        ∃ bytes, Disk.entry? (b.write data d).2 place = some (.file bytes)) ∧
    ∀ f ∈ b.files data,
      (¬Path.LeadsAway f.2 → InFolders data (documentPath f.1 f.2)) ∧
      (Library.isFileName f.2 = true → InFolders data (documentPath f.1 f.2)) ∧
      (Path.LeadsAway f.2 → Path.isAbsolute f.2 = false →
        ¬InFolders data (documentPath f.1 f.2)) := by
  refine ⟨fun place hchanged => ?_, fun f hf => ?_⟩
  · rcases (b.writes_write data d).changed place with
      hsame | hfolder | ⟨⟨path, hpath, hplace⟩, hfile⟩
    · exact absurd hsame hchanged
    · exact .inl hfolder
    · obtain ⟨f, hf, rfl⟩ := List.mem_map.mp hpath
      exact .inr ⟨f, hf, hplace, hfile⟩
  · have hfolder : f.1 ∈ [roomFolder data, objectFolder data] := by
      rcases List.mem_append.mp hf with hf | hf <;> obtain ⟨id, -, rfl⟩ := List.mem_map.mp hf <;>
        simp
    have hstays : ¬Path.LeadsAway f.2 → InFolders data (documentPath f.1 f.2) := by
      intro hstays
      have hrelative : Path.isAbsolute f.2 = false :=
        Bool.eq_false_iff.mpr fun habsolute => hstays (.inl habsolute)
      exact (inFolders_documentPath_iff hfolder hrelative).mpr hstays
    exact ⟨hstays, fun hid => hstays (not_leadsAway_of_isFileName hid),
      fun haway hrelative hin => (inFolders_documentPath_iff hfolder hrelative).mp hin haway⟩

/-- A room as an author may write it, with an id that leads to another folder. -/
def strayDraft : Json := .object [("id", .string "../../game")]

/-- The room that is read from the draft. -/
def stray : Room where
  id := "../../game"
  title := ""
  description := ""
  ascii := none
  items := []
  objects := []
  exits := .empty
  exitMeta := .empty
  onFirstEnter := []
  onEnter := []
  extra := .empty

/-- A disk with an adventure, its manifest, and a file with the stray room. -/
def estate : Disk where
  entries := [(["noir"], .folder), (["noir", "game.json"], .file "{ }".toUTF8),
    (["noir", "data"], .folder), (["noir", "data", "rooms"], .folder),
    (["noir", "data", "rooms", "hall.json"], .file strayDraft.compactText.toUTF8)]
  here := []

/-- The stray room is the bundle of its adventure. -/
theorem read_estate : Bundle.read estate "noir/data" = .ok (empty.addRoom stray) := by
  -- The draft of the room is read as the room, whose id leads out of the folder.
  have htext : Document.ofText? strayDraft.compactText = some stray := by
    have hheld : strayDraft.Held true := by
      simp only [strayDraft, Json.Held, Json.HeldFields, and_self]
    unfold Document.ofText?
    rw [Json.Tree.ofText?_compactText hheld (by decide), Json.reread_eq_self hheld]
    rfl
  have hpath : estate.locate (Path.join (roomFolder "noir/data") "hall.json") =
      .ok ["noir", "data", "rooms", "hall.json"] := by rfl
  have hroom : readDocument estate (Path.join (roomFolder "noir/data") "hall.json") = .ok stray :=
    Folder.readDocument_of_file hpath (by rfl) htext
  have hrooms : readDocuments estate (roomFolder "noir/data") = .ok [stray] := by
    have hlist : (estate.list (roomFolder "noir/data")).filter Path.isJsonFile = ["hall.json"] := by
      decide +kernel
    unfold readDocuments
    rw [if_pos (by decide +kernel), hlist, List.mapM_cons, hroom]
    rfl
  -- There is no folder of fixtures.
  have hobjects : (readDocuments estate (objectFolder "noir/data") :
      Except Failure (List Fixture)) = .ok [] := by
    unfold readDocuments
    rw [if_neg (by decide +kernel)]
  unfold Bundle.read
  rw [hrooms, hobjects]
  rfl

/-- The disk after the stray room was written: its file is the manifest. -/
def estateAfter : Disk :=
  (estate.set ["noir", "game.json"] (.file (Document.fileText stray).toUTF8)).set
    ["noir", "data", "objects"] .folder

/-- Compiling changes nothing in the stray room, and it is written over the manifest. -/
theorem write_estate : (empty.addRoom stray).compileGates.write "noir/data" estate =
    (.ok (), estateAfter) := by
  -- The room gates nothing, so compiling leaves the bundle as it is.
  have hcompile : (empty.addRoom stray).compileGates = empty.addRoom stray := by rfl
  have hrooms : writeDocuments (roomFolder "noir/data") (empty.addRoom stray).rooms estate =
      (.ok (), estate.set ["noir", "game.json"] (.file (Document.fileText stray).toUTF8)) := by
    have hfolder : estate.locate (roomFolder "noir/data") = .ok ["noir", "data", "rooms"] := by
      rfl
    have hfile : estate.locate (documentPath (roomFolder "noir/data") "../../game") =
        .ok ["noir", "game.json"] := by rfl
    have hentries : (empty.addRoom stray).rooms.entries = [("../../game", stray)] := by rfl
    unfold writeDocuments
    rw [Disk.createFolders_of_folder hfolder (by rfl), hentries]
    dsimp only
    rw [writeFiles, Disk.writeText_eq_ok hfile (fun h => by cases h)]
    rfl
  have hobjects : writeDocuments (objectFolder "noir/data") (empty.addRoom stray).objects
      (estate.set ["noir", "game.json"] (.file (Document.fileText stray).toUTF8)) =
      (.ok (), estateAfter) := by
    have hentries : (empty.addRoom stray).objects.entries = [] := by rfl
    -- The folder was not there before, and still is not.
    have hbefore : estate.locate (objectFolder "noir/data") = .ok ["noir", "data", "objects"] := by
      rfl
    have hfree : estate.entry? ["noir", "game.json"] ≠ some .folder := by
      intro h
      cases h
    have hgrows := Disk.grows_set hfree (.file (Document.fileText stray).toUTF8)
    have hnone : Disk.entry? (estate.set ["noir", "game.json"]
        (.file (Document.fileText stray).toUTF8)) ["noir", "data", "objects"] = none := by
      rw [Disk.entry?_set (by simp), if_neg (by simp)]
      rfl
    unfold writeDocuments
    rw [Disk.createFolders_of_none (hgrows.locate hbefore) hnone, hentries]
    rfl
  rw [hcompile]
  unfold write
  rw [hrooms]
  exact hobjects

/-- What is at the place of the manifest after the stray room was written. -/
theorem entry?_estateAfter : estateAfter.entry? ["noir", "game.json"] =
    some (.file (Document.fileText stray).toUTF8) := by
  unfold estateAfter
  rw [Disk.entry?_set (by simp), if_neg (by simp), Disk.entry?_set (by simp), if_pos rfl]

/-- The manifest is not what it was. -/
theorem manifest_changed :
    estateAfter.entry? ["noir", "game.json"] ≠ estate.entry? ["noir", "game.json"] := by
  have hbefore : estate.entry? ["noir", "game.json"] = some (.file "{ }".toUTF8) := by rfl
  rw [entry?_estateAfter, hbefore, ne_eq, Option.some.injEq, Entry.file.injEq]
  decide +kernel

/-- What was changed on the disk of the stray room is a file of the bundle; the file of the stray
room lies in neither folder, and that of a room called `hall` would lie in one. -/
theorem written_in_folders_estate :
    (∃ f ∈ (empty.addRoom stray).compileGates.files "noir/data",
      estateAfter.locate (documentPath f.1 f.2) = .ok ["noir", "game.json"]) ∧
    ¬InFolders "noir/data" (documentPath (roomFolder "noir/data") "../../game") ∧
    InFolders "noir/data" (documentPath (roomFolder "noir/data") "hall") := by
  have haway : Path.LeadsAway "../../game" := .inr ⟨"..", by decide, by decide⟩
  obtain ⟨hchanged, -⟩ := written_in_folders (empty.addRoom stray).compileGates "noir/data" estate
  rw [write_estate] at hchanged
  obtain ⟨-, hstray⟩ := written_in_folders (empty.addRoom stray) "noir/data" estate
  obtain ⟨-, hhall⟩ := written_in_folders (empty.addRoom hall) "noir/data" estate
  refine ⟨?_, ?_, ?_⟩
  · rcases hchanged _ manifest_changed with ⟨hnone, -⟩ | ⟨f, hf, hplace, -⟩
    · cases hnone
    · exact ⟨f, hf, hplace⟩
  · exact (hstray (roomFolder "noir/data", "../../game") (by decide)).2.2 haway (by decide)
  · exact (hhall (roomFolder "noir/data", "hall") (by decide)).2.1 (by decide)

/-- Compiling an adventure may overwrite its manifest: the id of a room leads there. -/
theorem manifest_overwritten : ∃ (b : Bundle) (d' : Disk), Bundle.read estate "noir/data" = .ok b ∧
    b.compileGates.write "noir/data" estate = (.ok (), d') ∧
    d'.entry? ["noir", "game.json"] = some (.file (Document.fileText stray).toUTF8) ∧
    d'.entry? ["noir", "game.json"] ≠ estate.entry? ["noir", "game.json"] ∧
    d'.locate (documentPath (roomFolder "noir/data") "../../game") = .ok ["noir", "game.json"] ∧
    ¬InFolders "noir/data" (documentPath (roomFolder "noir/data") "../../game") := by
  have hgrows := ((empty.addRoom stray).compileGates.writes_write "noir/data" estate).grows
  rw [write_estate] at hgrows
  refine ⟨empty.addRoom stray, estateAfter, read_estate, write_estate, entry?_estateAfter,
    manifest_changed, hgrows.locate (by rfl), ?_⟩
  rw [inFolders_documentPath_iff (by simp) (by decide), not_not]
  exact .inr ⟨"..", by decide, by decide⟩

end Bundle

end TextAdventure
