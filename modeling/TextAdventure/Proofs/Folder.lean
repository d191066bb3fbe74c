import TextAdventure.Bundle.Folder
import TextAdventure.Proofs.Disk

/-!
# Folders of documents

`Folder.Holds` says which documents the JSON files of a folder hold, if each file is named by the id
of its document. Such a folder is read as the table of its documents (`Folder.Holds.exists_read`).
Documents with the same ids can be written to it, which changes their files, creates the folder if
it is not there, and touches nothing else (`Folder.Wrote`); afterwards the folder holds what the
texts that were written are read as (`Folder.Holds.exists_write`).
-/

namespace TextAdventure.Folder

open TextAdventure.Bundle (readDocument readDocuments writeFiles writeDocuments documentPath)

variable {α : Type} [Document α] {idOf : α → String}

/-- The place of the file for a document with an id. -/
def fileAt (place : Place) (id : String) : Place := place ++ [id ++ ".json"]

/-- Files for different ids are at different places. -/
theorem fileAt_inj {place : Place} {id id' : String} (h : fileAt place id = fileAt place id') :
    id = id' := by
  have hname : id ++ ".json" = id' ++ ".json" := by simpa [fileAt] using h
  exact (String.append_left_inj ".json").mp hname

/-- A file in a folder is not the folder. -/
theorem fileAt_ne (place : Place) (id : String) : fileAt place id ≠ place := fun heq => by
  simpa [fileAt] using congrArg List.length heq

/-- The JSON files of a folder hold the documents of a table, each in the file that is named by its
id. -/
structure Holds (idOf : α → String) (d : Disk) (folder : String) (place : Place) (docs : Table α) :
    Prop where
  /-- The path leads to the folder, if it is there. -/
  located : d.locate folder = .ok place
  /-- A folder that is not there has no documents. -/
  there : d.entry? place = some .folder ∨ d.entry? place = none ∧ ∀ id, docs.get? id = none
  /-- The documents are under their own ids. -/
  own : ∀ {id doc}, docs.get? id = some doc → idOf doc = id
  /-- The file of a document is a JSON file. -/
  json : ∀ {id doc}, docs.get? id = some doc → Path.isJsonFile (id ++ ".json") = true
  /-- The path of a document leads to its file. -/
  path : ∀ {id doc}, docs.get? id = some doc →
    d.locate (documentPath folder id) = .ok (fileAt place id)
  /-- The file of a document says the document. -/
  text : ∀ {id doc}, docs.get? id = some doc → ∃ text,
    d.entry? (fileAt place id) = some (.file text.toUTF8) ∧ Document.ofText? text = some doc
  /-- There are no other JSON files. -/
  all : ∀ {name}, Path.isJsonFile name = true → (d.entry? (place ++ [name])).isSome = true →
    ∃ id, docs.contains id = true ∧ name = id ++ ".json"

/-- A folder that is not there holds no documents. -/
theorem holds_empty {d : Disk} {folder : String} {place : Place}
    (hlocated : d.locate folder = .ok place) (hnone : d.entry? place = none)
    (hlist : d.list folder = []) : Holds idOf d folder place (.empty : Table α) where
  located := hlocated
  there := .inr ⟨hnone, fun _ => rfl⟩
  own hdoc := by cases hdoc
  json hdoc := by cases hdoc
  path hdoc := by cases hdoc
  text hdoc := by cases hdoc
  all _ hthere := by
    rw [← Disk.mem_list hlocated, hlist] at hthere
    cases hthere

/-! ### Reading -/

/-- Reading several things succeeds if reading each of them does. -/
theorem exists_mapM_ok {ε β γ : Type} {f : β → Except ε γ} {xs : List β}
    (h : ∀ x ∈ xs, ∃ y, f x = .ok y) :
    ∃ ys, xs.mapM f = .ok ys ∧ ∀ y, y ∈ ys ↔ ∃ x ∈ xs, f x = .ok y := by
  induction xs with
  | nil => exact ⟨[], rfl, by simp⟩
  | cons x xs ih =>
    obtain ⟨y, hy⟩ := h x List.mem_cons_self
    obtain ⟨ys, hys, hmem⟩ := ih fun x' hx' => h x' (List.mem_cons_of_mem _ hx')
    refine ⟨y :: ys, by rw [List.mapM_cons, hy, hys]; rfl, fun y' => ?_⟩
    rw [List.mem_cons, hmem, List.exists_mem_cons_iff, hy, Except.ok.injEq, eq_comm]

/-- A document is read from the file to which its path leads. -/
theorem readDocument_of_file {d : Disk} {path text : String} {place : Place} {doc : α}
    (hpath : d.locate path = .ok place) (hentry : d.entry? place = some (.file text.toUTF8))
    (hread : Document.ofText? text = some doc) : readDocument d path = .ok doc := by
  unfold readDocument
  rw [Disk.readText_eq_ok.mpr ⟨place, hpath, hentry⟩]
  dsimp only
  rw [hread]

namespace Holds

variable {d d' : Disk} {folder : String} {place : Place} {docs docs' : Table α}

/-- A document of the folder is read from its file. -/
theorem readDocument (h : Holds idOf d folder place docs) {id : String} {doc : α}
    (hdoc : docs.get? id = some doc) :
    Bundle.readDocument d (documentPath folder id) = .ok doc := by
  obtain ⟨text, hentry, hread⟩ := h.text hdoc
  exact readDocument_of_file (h.path hdoc) hentry hread

/-- A name of a JSON file in the folder is that of a document. -/
theorem exists_of_mem_list (h : Holds idOf d folder place docs) {name : String}
    (hname : name ∈ (d.list folder).filter Path.isJsonFile) :
    ∃ id doc, docs.get? id = some doc ∧ name = id ++ ".json" := by
  obtain ⟨hlist, hjson⟩ := List.mem_filter.mp hname
  obtain ⟨id, hid, hname⟩ := h.all hjson ((Disk.mem_list h.located).mp hlist)
  obtain ⟨doc, hdoc⟩ := Option.isSome_iff_exists.mp hid
  exact ⟨id, doc, hdoc, hname⟩

/-- The file of a document is one of the JSON files in the folder. -/
theorem mem_list (h : Holds idOf d folder place docs) {id : String} {doc : α}
    (hdoc : docs.get? id = some doc) : id ++ ".json" ∈ (d.list folder).filter Path.isJsonFile := by
  obtain ⟨text, hentry, -⟩ := h.text hdoc
  refine List.mem_filter.mpr ⟨(Disk.mem_list h.located).mpr ?_, h.json hdoc⟩
  exact Option.isSome_iff_exists.mpr ⟨_, hentry⟩

/-- The documents of a folder are read. -/
theorem exists_read (h : Holds idOf d folder place docs) : ∃ read : List α,
    readDocuments d folder = .ok read ∧
      Table.ofList (read.map fun doc => (idOf doc, doc)) = docs := by
  unfold readDocuments
  rcases h.there with hfolder | ⟨hnone, hempty⟩
  · rw [if_pos (Disk.isFolder_eq_true.mpr ⟨place, h.located, hfolder⟩)]
    have hreads : ∀ name ∈ (d.list folder).filter Path.isJsonFile, ∃ doc : α,
        Bundle.readDocument d (Path.join folder name) = .ok doc := by
      intro name hname
      obtain ⟨id, doc, hdoc, rfl⟩ := h.exists_of_mem_list hname
      exact ⟨doc, h.readDocument hdoc⟩
    obtain ⟨read, hread, hmem⟩ := exists_mapM_ok hreads
    -- What was read are the documents of the table.
    have hdocs : ∀ doc, doc ∈ read ↔ docs.get? (idOf doc) = some doc := by
      intro doc
      rw [hmem]
      constructor
      · rintro ⟨name, hname, hread⟩
        obtain ⟨id, doc', hdoc', rfl⟩ := h.exists_of_mem_list hname
        obtain rfl : doc' = doc := Except.ok.inj ((h.readDocument hdoc').symm.trans hread)
        rw [h.own hdoc', hdoc']
      · exact fun hdoc => ⟨_, h.mem_list hdoc, h.readDocument hdoc⟩
    -- The table of what was read has the same documents, because ids do not repeat.
    refine ⟨read, hread, Table.ext_get? fun id => Option.ext fun doc => ?_⟩
    rw [Table.get?_ofList_map, hdocs]
    · constructor
      · rintro ⟨hdoc, rfl⟩
        exact hdoc
      · intro hdoc
        have hid := h.own hdoc
        exact ⟨hid.symm ▸ hdoc, hid⟩
    · intro x hx y hy hid
      rw [hdocs] at hx hy
      rw [hid, hy] at hx
      exact (Option.some.inj hx).symm
  -- A folder that is not there holds no documents, and none are read.
  · rw [if_neg (by simp [Disk.isFolder_eq_true, h.located, hnone])]
    refine ⟨[], rfl, Table.ext_get? fun id => ?_⟩
    rw [hempty]
    rfl

end Holds

/-! ### Writing -/

/-- The files of a folder have the texts of the documents of a table. -/
structure Filled (d : Disk) (place : Place) (docs : Table α) : Prop where
  /-- The folder is there. -/
  folder : d.entry? place = some .folder
  /-- The file of a document has its text. -/
  file : ∀ {id doc}, docs.get? id = some doc →
    d.entry? (fileAt place id) = some (.file (Document.fileText doc).toUTF8)

/-- The documents of a table were written to a folder, and nothing else was touched. -/
structure Wrote (d d' : Disk) (place : Place) (docs : Table α) : Prop where
  /-- Nothing is lost. -/
  grows : d.Grows d'
  /-- The documents were written. -/
  filled : Filled d' place docs
  /-- Whatever is at other places is as it was. -/
  other : ∀ {place'}, place' ≠ place → (∀ id, docs.contains id = true → place' ≠ fileAt place id) →
    d'.entry? place' = d.entry? place'

/-- Documents that can take the place of others in their files, and what is read from there. -/
structure Replaces (idOf : α → String) (docs docs' read : Table α) : Prop where
  /-- They have the same ids. -/
  ids : ∀ id, docs'.contains id = docs.contains id
  /-- What is read has the same ids. -/
  readIds : ∀ id, read.contains id = docs'.contains id
  /-- What is read is under its own ids. -/
  own : ∀ {id doc}, read.get? id = some doc → idOf doc = id
  /-- Each document is read as the one with its id. -/
  text : ∀ {id doc doc'}, docs'.get? id = some doc → read.get? id = some doc' →
    Document.ofText? (Document.fileText doc) = some doc'

/-- Documents that can take the place of others and are read again can be written again. -/
theorem Replaces.self {docs docs' : Table α} (h : Replaces idOf docs docs' docs') :
    Replaces idOf docs' docs' docs' := ⟨fun _ => rfl, h.readIds, h.own, h.text⟩

/-- Documents that were changed and kept their ids can take the place of what they were, if they are
read again. -/
theorem Replaces.of_map {docs docs' : Table α} {change : String → α → α}
    (hget : ∀ id, docs'.get? id = (docs.get? id).map (change id))
    (hown : ∀ {id doc}, docs.get? id = some doc → idOf doc = id)
    (hid : ∀ id doc, idOf (change id doc) = idOf doc)
    (hread : ∀ {id doc}, docs.get? id = some doc →
      Document.ofText? (Document.fileText (change id doc)) = some (change id doc)) :
    Replaces idOf docs docs' docs' where
  ids id := by
    unfold Table.contains
    rw [hget, Option.isSome_map]
  readIds _ := rfl
  own {id _} hdoc := by
    rw [hget] at hdoc
    obtain ⟨before, hbefore, rfl⟩ := Option.map_eq_some_iff.mp hdoc
    exact (hid id before).trans (hown hbefore)
  text hdoc hdoc' := by
    rw [Option.some.inj (hdoc'.symm.trans hdoc)]
    rw [hget] at hdoc
    obtain ⟨before, hbefore, rfl⟩ := Option.map_eq_some_iff.mp hdoc
    exact hread hbefore

/-- Writing to files that can be located changes what is in them, and nothing else. -/
theorem exists_writeFiles {folder : String} {place : Place} {entries : List (String × α)}
    (hkeys : (entries.map Prod.fst).Nodup) {d : Disk}
    (hfiles : ∀ e ∈ entries, d.locate (documentPath folder e.1) = .ok (fileAt place e.1) ∧
      d.entry? (fileAt place e.1) ≠ some .folder) :
    ∃ d', writeFiles folder entries d = (.ok (), d') ∧ d.Grows d' ∧
      (∀ e ∈ entries,
        d'.entry? (fileAt place e.1) = some (.file (Document.fileText e.2).toUTF8)) ∧
      ∀ place', (∀ e ∈ entries, place' ≠ fileAt place e.1) →
        d'.entry? place' = d.entry? place' := by
  induction entries generalizing d with
  | nil => exact ⟨d, rfl, .refl d, by simp, fun _ _ => rfl⟩
  | cons e es ih =>
    obtain ⟨hlocate, hfree⟩ := hfiles e List.mem_cons_self
    obtain ⟨hnew, hkeys⟩ := List.nodup_cons.mp hkeys
    have hne : fileAt place e.1 ≠ [] := by simp [fileAt]
    have hset := Disk.entry?_set (d := d) hne (.file (Document.fileText e.2).toUTF8)
    have hgrows := Disk.grows_set hfree (.file (Document.fileText e.2).toUTF8)
    -- The other files can still be located, and are no folders.
    obtain ⟨d', hwrite, hgrows', hfiles', hother⟩ := ih hkeys fun e' he' => by
      obtain ⟨hlocate', hfree'⟩ := hfiles e' (List.mem_cons_of_mem _ he')
      refine ⟨hgrows.locate hlocate', ?_⟩
      rw [hset]
      split_ifs
      · simp
      · exact hfree'
    refine ⟨d', ?_, hgrows.trans hgrows', List.forall_mem_cons.mpr ⟨?_, hfiles'⟩, ?_⟩
    · rw [writeFiles, Disk.writeText_eq_ok hlocate hfree]
      exact hwrite
    · -- No other document has the same file.
      rw [hother, hset, if_pos rfl]
      intro e' he' heq
      exact hnew (List.mem_map.mpr ⟨e', he', (fileAt_inj heq).symm⟩)
    · intro place' hplace
      obtain ⟨hfirst, hrest⟩ := List.forall_mem_cons.mp hplace
      rw [hother place' hrest, hset, if_neg hfirst]

/-- Another folder beside the one to which documents were written is as it was, and so are its
entries. -/
theorem Wrote.beside {d d' : Disk} {place place' : Place} {docs : Table α}
    (h : Wrote d d' place docs) (hlength : place'.length = place.length) (hne : place' ≠ place) :
    d'.entry? place' = d.entry? place' ∧
      ∀ name, d'.entry? (place' ++ [name]) = d.entry? (place' ++ [name]) := by
  refine ⟨h.other hne fun id _ heq => ?_, fun name => h.other (fun heq => ?_) fun id _ heq => ?_⟩
  · have hlength' := congrArg List.length heq
    simp [fileAt] at hlength'
    omega
  · have hlength' := congrArg List.length heq
    simp at hlength'
    omega
  · exact hne (List.append_inj_left heq hlength)

/-- The files of a folder have the texts that were written to them on a disk that did not touch the
folder. -/
theorem Filled.of_same {d d' : Disk} {place : Place} {docs : Table α} (h : Filled d place docs)
    (hfolder : d'.entry? place = d.entry? place)
    (hfiles : ∀ name, d'.entry? (place ++ [name]) = d.entry? (place ++ [name])) :
    Filled d' place docs :=
  ⟨hfolder.trans h.folder, fun hdoc => (hfiles _).trans (h.file hdoc)⟩

/-- The JSON files of a folder said the documents of a table, each of them in the file that is named
by its id, and now the files have the texts of the documents of another table. -/
structure Rewritten (idOf : α → String) (d d' : Disk) (folder : String) (docs docs' : Table α) :
    Prop where
  /-- Each file said a document, and has the text of the one that has its id now. -/
  file : ∀ name ∈ d.list folder, Path.isJsonFile name = true →
    ∃ (text : String) (doc doc' : α), name = idOf doc ++ ".json" ∧
      d.readText (Path.join folder name) = .ok text ∧ Document.ofText? text = some doc ∧
      docs.get? (idOf doc) = some doc ∧ docs'.get? (idOf doc) = some doc' ∧
      d'.readText (Path.join folder name) = .ok (Document.fileText doc')
  /-- There were no documents but those of the files. -/
  document : ∀ {id doc}, docs.get? id = some doc →
    idOf doc = id ∧ id ++ ".json" ∈ (d.list folder).filter Path.isJsonFile

namespace Holds

variable {d d' : Disk} {folder : String} {place : Place} {docs docs' : Table α}

/-- A folder is created if it is not there. -/
theorem exists_createFolders (h : Holds idOf d folder place docs) :
    ∃ d', d.createFolders folder = (.ok (), d') ∧ d.Grows d' ∧
      d'.entry? place = some .folder ∧ ∀ place' ≠ place, d'.entry? place' = d.entry? place' := by
  rcases h.there with hfolder | ⟨hnone, -⟩
  · exact ⟨d, Disk.createFolders_of_folder h.located hfolder, .refl d, hfolder, fun _ _ => rfl⟩
  · have hne : place ≠ [] := by
      rintro rfl
      cases hnone
    have hset := Disk.entry?_set (d := d) hne .folder
    refine ⟨_, Disk.createFolders_of_none h.located hnone, Disk.grows_set (by simp [hnone]) _, ?_,
      fun place' hplace => ?_⟩
    · rw [hset, if_pos rfl]
    · rw [hset, if_neg hplace]

/-- Documents with the ids of those in the folder can be written. -/
theorem exists_wrote (h : Holds idOf d folder place docs)
    (hids : ∀ id, docs'.contains id = docs.contains id) :
    ∃ d', writeDocuments folder docs' d = (.ok (), d') ∧ Wrote d d' place docs' := by
  obtain ⟨d₁, hcreate, hgrows, hfolder, hsame⟩ := h.exists_createFolders
  -- Each document has its file already, so its path leads there and no folder is in the way.
  have hfiles : ∀ e ∈ docs'.entries, d₁.locate (documentPath folder e.1) = .ok (fileAt place e.1) ∧
      d₁.entry? (fileAt place e.1) ≠ some .folder := by
    intro e he
    have hthere : docs.contains e.1 = true := by
      rw [← hids]
      exact Option.isSome_iff_exists.mpr ⟨e.2, Table.get?_of_mem he⟩
    obtain ⟨doc, hdoc⟩ := Option.isSome_iff_exists.mp hthere
    obtain ⟨text, hentry, -⟩ := h.text hdoc
    refine ⟨hgrows.locate (h.path hdoc), ?_⟩
    rw [hsame _ (fileAt_ne place e.1), hentry]
    simp
  -- The ids do not repeat, so no file is written twice.
  obtain ⟨d₂, hwrite, hgrows', hwritten, hother⟩ := exists_writeFiles docs'.nodup_keys hfiles
  refine ⟨d₂, ?_, hgrows.trans hgrows', ⟨hgrows'.folder hfolder, fun hdoc => ?_⟩,
    fun {place'} hplace hdocs => ?_⟩
  · unfold writeDocuments
    rw [hcreate]
    exact hwrite
  · exact hwritten _ (Table.mem_of_get? hdoc)
  · rw [hother, hsame place' hplace]
    intro e he
    exact hdocs e.1 (Option.isSome_iff_exists.mpr ⟨e.2, Table.get?_of_mem he⟩)

/-- The files of a folder have the texts of the documents that were written to it. -/
theorem rewritten (h : Holds idOf d folder place docs)
    (hids : ∀ id, docs'.contains id = docs.contains id) (hgrows : d.Grows d')
    (hfilled : Filled d' place docs') : Rewritten idOf d d' folder docs docs' where
  file name hname hjson := by
    obtain ⟨id, doc, hdoc, rfl⟩ := h.exists_of_mem_list (List.mem_filter.mpr ⟨hname, hjson⟩)
    obtain ⟨text, hentry, hread⟩ := h.text hdoc
    have hthere : docs'.contains id = true :=
      (hids id).trans (Option.isSome_iff_exists.mpr ⟨doc, hdoc⟩)
    obtain ⟨doc', hdoc'⟩ := Option.isSome_iff_exists.mp hthere
    obtain rfl := h.own hdoc
    exact ⟨text, doc, doc', rfl, Disk.readText_eq_ok.mpr ⟨_, h.path hdoc, hentry⟩, hread, hdoc,
      hdoc', Disk.readText_eq_ok.mpr ⟨_, hgrows.locate (h.path hdoc), hfilled.file hdoc'⟩⟩
  document hdoc := ⟨h.own hdoc, h.mem_list hdoc⟩

/-- A folder to which documents were written holds what is read from there. -/
theorem of_wrote (h : Holds idOf d folder place docs) {read : Table α}
    (hreplace : Replaces idOf docs docs' read) (hwrote : Wrote d d' place docs') :
    Holds idOf d' folder place read := by
  -- What is read back has the ids of what was written, and these are the ids from before.
  have hwritten : ∀ {id doc}, read.get? id = some doc → ∃ doc', docs'.get? id = some doc' := by
    intro id doc hdoc
    refine Option.isSome_iff_exists.mp ((hreplace.readIds id).symm.trans ?_)
    exact Option.isSome_iff_exists.mpr ⟨doc, hdoc⟩
  have hbefore : ∀ {id doc}, read.get? id = some doc → ∃ doc', docs.get? id = some doc' := by
    intro id doc hdoc
    refine Option.isSome_iff_exists.mp ((hreplace.ids id).symm.trans ?_)
    exact Option.isSome_iff_exists.mpr (hwritten hdoc)
  refine ⟨hwrote.grows.locate h.located, .inl hwrote.filled.folder, hreplace.own, fun hdoc => ?_,
    fun hdoc => ?_, fun hdoc => ?_, fun {name} hjson hthere => ?_⟩
  · obtain ⟨doc, hdoc⟩ := hbefore hdoc
    exact h.json hdoc
  · obtain ⟨doc, hdoc⟩ := hbefore hdoc
    exact hwrote.grows.locate (h.path hdoc)
  · obtain ⟨doc', hdoc'⟩ := hwritten hdoc
    exact ⟨_, hwrote.filled.file hdoc', hreplace.text hdoc' hdoc⟩
  · -- A file that was not written was there before.
    by_contra hnone
    rw [hwrote.other] at hthere
    · obtain ⟨id, hid, hname⟩ := h.all hjson hthere
      have hid := ((hreplace.readIds id).trans (hreplace.ids id)).trans hid
      exact hnone ⟨id, hid, hname⟩
    · exact fun heq => by simpa using congrArg List.length heq
    · rintro id hid heq
      exact hnone ⟨id, (hreplace.readIds id).trans hid, by simpa [fileAt] using heq⟩

/-- Documents that can take the place of those in the folder are written to it, and then the folder
holds what is read from there. -/
theorem exists_write (h : Holds idOf d folder place docs) {read : Table α}
    (hreplace : Replaces idOf docs docs' read) :
    ∃ d', writeDocuments folder docs' d = (.ok (), d') ∧ Wrote d d' place docs' ∧
      Holds idOf d' folder place read := by
  obtain ⟨d', hwrite, hwrote⟩ := h.exists_wrote hreplace.ids
  exact ⟨d', hwrite, hwrote, h.of_wrote hreplace hwrote⟩

/-- A folder in which nothing changes holds the same documents. -/
theorem of_same (h : Holds idOf d folder place docs) (hgrows : d.Grows d')
    (hfolder : d'.entry? place = d.entry? place)
    (hfiles : ∀ name, d'.entry? (place ++ [name]) = d.entry? (place ++ [name])) :
    Holds idOf d' folder place docs where
  located := hgrows.locate h.located
  there := by
    rw [hfolder]
    exact h.there
  own := h.own
  json := h.json
  path hdoc := hgrows.locate (h.path hdoc)
  text hdoc := by
    unfold fileAt
    rw [hfiles]
    exact h.text hdoc
  all hjson hthere := by
    rw [hfiles] at hthere
    exact h.all hjson hthere

end Holds

end TextAdventure.Folder
