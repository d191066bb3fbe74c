import TextAdventure.Disk
import TextAdventure.Proofs.Json.String
import TextAdventure.Proofs.Path
import TextAdventure.Proofs.Table

/-!
# What file operations do

A file operation finds its place by following names, and then changes the entry at this place and no
other (`Disk.entry?_set`). A place that can be found stays where it is when things are added
(`Disk.Grows.locate`). So each operation is described by where its path leads: `list` by what is
there in the folder (`Disk.mem_list`), `writeText` and `createFolders` by the entry that they set.
-/

namespace TextAdventure

namespace Disk

variable {d d' : Disk} {place place' : Place} {names : List String} {name path : String}
  {entry : Entry}

/-! ### Entries -/

/-- What is at another place does not depend on the entry that is set. -/
theorem lookup_filter_of_ne {entries : List (Place × Entry)} (h : place' ≠ place) :
    (entries.filter fun x => x.1 != place).lookup place' = entries.lookup place' := by
  induction entries with
  | nil => rfl
  | cons x xs ih =>
    obtain ⟨p, e⟩ := x
    rw [List.filter_cons]
    by_cases hp : p = place
    · have hother : (place' == p) = false := beq_false_of_ne fun heq => h (heq.trans hp)
      rw [if_neg (by simp [hp]), ih, List.lookup_cons, hother]
    · rw [if_pos (by simp [hp]), List.lookup_cons, List.lookup_cons, ih]

/-- Beyond the root the entries say what is at a place. -/
theorem entry?_of_ne_nil (h : place ≠ []) : d.entry? place = d.entries.lookup place :=
  if_neg (by simpa using h)

/-- Setting an entry changes what is at its place and at no other. -/
theorem entry?_set (h : place ≠ []) (entry : Entry) (place' : Place) :
    Disk.entry? (d.set place entry) place' =
      if place' = place then some entry else d.entry? place' := by
  by_cases hroot : place' = []
  · rw [hroot, if_neg (Ne.symm h)]
    rfl
  · rw [entry?_of_ne_nil hroot, entry?_of_ne_nil hroot]
    unfold set
    split_ifs with heq
    · rw [heq, List.lookup_cons_self]
    · rw [List.lookup_cons, beq_false_of_ne heq]
      exact lookup_filter_of_ne heq

/-- A disk has grown: what was there is there, and a folder is a folder still. -/
structure Grows (d d' : Disk) : Prop where
  here : d'.here = d.here
  folder : ∀ {place}, d.entry? place = some .folder → d'.entry? place = some .folder
  there : ∀ {place}, (d.entry? place).isSome = true → (d'.entry? place).isSome = true

/-- A disk that does not change has grown. -/
theorem Grows.refl (d : Disk) : d.Grows d := ⟨rfl, id, id⟩

/-- A disk that grows again has grown. -/
theorem Grows.trans {d'' : Disk} (h : d.Grows d') (h' : d'.Grows d'') : d.Grows d'' :=
  ⟨h'.here.trans h.here, fun hf => h'.folder (h.folder hf), fun ht => h'.there (h.there ht)⟩

/-- A disk grows when an entry is set where no folder is. -/
theorem grows_set (h : d.entry? place ≠ some .folder) (entry : Entry) :
    d.Grows (d.set place entry) := by
  have hne : place ≠ [] := by
    rintro rfl
    exact h rfl
  refine ⟨rfl, fun {p} hp => ?_, fun {p} hp => ?_⟩
  · rw [entry?_set hne, if_neg, hp]
    rintro rfl
    exact h hp
  · rw [entry?_set hne]
    split_ifs
    · rfl
    · exact hp

/-! ### Following names -/

/-- A name can be followed from a folder if it stands for a folder that is there, or if it is not
too long and names what is there or comes last. -/
theorem follow_cons {rest : List String} :
    d.follow place (name :: rest) = .ok place' ↔
      d.entry? place = some .folder ∧
      (Path.staysHere name = true ∨ name = ".." ∨ name.utf8ByteSize ≤ maxNameSize ∧
        ((d.entry? (place ++ [name])).isSome = true ∨ rest = [])) ∧
      d.follow (Path.goTo place name) rest = .ok place' := by
  rw [follow]
  cases hentry : d.entry? place with
  | none => simp
  | some entry =>
    cases entry with
    | file bytes => simp
    | folder =>
      dsimp only
      unfold Path.goTo
      split_ifs with hstays hup hlong hthere <;> simp_all [Nat.not_le.mpr, Nat.not_lt.mp]

/-- Names lead where each of them leads from the place before. -/
theorem eq_of_follow (h : d.follow place names = .ok place') :
    place' = names.foldl Path.goTo place := by
  induction names generalizing place with
  | nil => exact (Except.ok.inj h).symm
  | cons name rest ih => exact ih (follow_cons.mp h).2.2

/-- Names that come before others lead to a folder. -/
theorem folder_of_follow_append {before after : List String} (hafter : after ≠ [])
    (h : d.follow place (before ++ after) = .ok place') :
    ∃ middle, d.follow place before = .ok middle ∧ d.entry? middle = some .folder ∧
      d.follow middle after = .ok place' := by
  induction before generalizing place with
  | nil =>
    obtain ⟨name, rest, rfl⟩ := List.exists_cons_of_ne_nil hafter
    exact ⟨place, rfl, (follow_cons.mp h).1, h⟩
  | cons name rest ih =>
    obtain ⟨hfolder, hname, hrest⟩ := follow_cons.mp h
    obtain ⟨middle, hmiddle, htail⟩ := ih hrest
    refine ⟨middle, follow_cons.mpr ⟨hfolder, ?_, hmiddle⟩, htail⟩
    exact hname.imp id fun hname => hname.imp id fun hname =>
      ⟨hname.1, .inl (hname.2.resolve_right (by simp [hafter]))⟩

/-- Names lead to the same place if those that stand for the folder itself are left out. -/
theorem follow_filter (h : d.follow place names = .ok place') :
    d.follow place (names.filter fun name => !Path.staysHere name) = .ok place' := by
  induction names generalizing place with
  | nil => exact h
  | cons name rest ih =>
    obtain ⟨hfolder, hname, hrest⟩ := follow_cons.mp h
    cases hstays : Path.staysHere name with
    | true =>
      rw [List.filter_cons_of_neg (by simp [hstays])]
      rw [Path.goTo, if_pos hstays] at hrest
      exact ih hrest
    | false =>
      rw [List.filter_cons_of_pos (by simp [hstays])]
      refine follow_cons.mpr ⟨hfolder, ?_, ih hrest⟩
      refine hname.imp id fun hname => hname.imp id fun hname => ⟨hname.1, hname.2.imp id ?_⟩
      rintro rfl
      rfl

/-- Names lead to the same place on a disk that has grown. -/
theorem Grows.follow (h : d.Grows d') (hp : d.follow place names = .ok place') :
    d'.follow place names = .ok place' := by
  induction names generalizing place with
  | nil => exact hp
  | cons name rest ih =>
    obtain ⟨hfolder, hname, hrest⟩ := follow_cons.mp hp
    refine follow_cons.mpr ⟨h.folder hfolder, ?_, ih hrest⟩
    exact hname.imp id fun hname => hname.imp id fun hname =>
      ⟨hname.1, hname.2.imp h.there id⟩

/-! ### Locating paths -/

/-- A path is located by following its names from where it starts, if it can be a path. -/
theorem locate_eq_ok : d.locate path = .ok place ↔
    '\x00' ∉ path.toList ∧ path ≠ "" ∧ path.utf8ByteSize ≤ maxPathSize ∧
      d.follow (d.startOf path) (Path.names path) = .ok place := by
  unfold locate
  split_ifs with hbad hempty hlong
  · simp_all
  · simp_all
  · simp_all [Nat.not_le.mpr]
  · simp_all [Nat.not_lt.mp]

/-- A path leads to the same place on a disk that has grown. -/
theorem Grows.locate (h : d.Grows d') (hp : d.locate path = .ok place) :
    d'.locate path = .ok place := by
  obtain ⟨hbad, hempty, hlong, hfollow⟩ := locate_eq_ok.mp hp
  have hstart : d'.startOf path = d.startOf path := by
    unfold startOf
    rw [h.here]
  refine locate_eq_ok.mpr ⟨hbad, hempty, hlong, ?_⟩
  rw [hstart]
  exact h.follow hfollow

/-- A name that leads from a folder to what is in it. -/
structure IsName (name : String) : Prop where
  slash : '/' ∉ name.toList
  stays : Path.staysHere name = false
  up : name ≠ ".."

namespace IsName

/-- A name is no absolute path. -/
theorem relative (h : IsName name) : Path.isAbsolute name = false :=
  Path.isAbsolute_eq_false h.slash

/-- A name is not empty. -/
theorem ne_empty (h : IsName name) : name ≠ "" := by
  rintro rfl
  cases h.stays

/-- A name leads to what is in the folder. -/
theorem goTo (h : IsName name) (place : Place) : Path.goTo place name = place ++ [name] := by
  unfold Path.goTo
  rw [if_neg (by simp [h.stays]), if_neg (by simp [h.up])]

/-- The name of a JSON file is a name. -/
theorem of_isJsonFile (h : Path.isJsonFile name = true) (hslash : '/' ∉ name.toList) :
    IsName name := by
  unfold Path.isJsonFile at h
  rw [Bool.and_eq_true, decide_eq_true_eq] at h
  have hne : ∀ short : String, short.length ≤ 5 → name ≠ short := by
    rintro short hshort rfl
    omega
  refine ⟨hslash, ?_, hne ".." (by decide)⟩
  unfold Path.staysHere
  rw [beq_false_of_ne (hne "" (by decide)), beq_false_of_ne (hne "." (by decide))]
  rfl

end IsName

/-- Names that are joined to a path lead to places in one folder. -/
theorem exists_locate_join (d : Disk) (path : String) : ∃ folder : Place, ∀ {name place},
    IsName name → d.locate (Path.join path name) = .ok place → place = folder ++ [name] := by
  obtain ⟨leading, hnames⟩ := Path.exists_names_join path
  refine ⟨leading.foldl Path.goTo (d.startOf path), fun {name place} hname h => ?_⟩
  have hplace := eq_of_follow (locate_eq_ok.mp h).2.2.2
  have hstart : d.startOf (Path.join path name) = d.startOf path := by
    unfold startOf
    rw [Path.isAbsolute_join hname.relative]
  rw [hplace, hnames name hname.slash, List.foldl_append, hstart]
  exact hname.goTo _

/-- A path into a folder, which is given by a path that ends in a name, leads to what is in the
folder. -/
theorem folder_of_locate_join {base last : String} (hlast : IsName last) (hname : IsName name)
    (h : d.locate (Path.join (Path.join base last) name) = .ok place) :
    ∃ folder, d.locate (Path.join base last) = .ok folder ∧ d.entry? folder = some .folder ∧
      place = folder ++ [name] := by
  obtain ⟨hbad, -, hlong, hfollow⟩ := locate_eq_ok.mp h
  -- Both paths start at the same place, since what is joined to them is relative.
  have hstart : d.startOf (Path.join (Path.join base last) name) =
      d.startOf (Path.join base last) := by
    unfold startOf
    rw [Path.isAbsolute_join hname.relative]
  rw [hstart] at hfollow
  rw [Path.join_join hlast.slash hlast.ne_empty hname.relative] at hbad hlong hfollow
  rw [Path.names_append_slash, Path.names_eq_singleton hname.slash] at hfollow
  -- Following the names ends with the last one, and before it stands the folder.
  obtain ⟨folder, hfolder, hentry, hlead⟩ := folder_of_follow_append (by simp) hfollow
  have hempty := Path.join_ne_empty base hlast.ne_empty hlast.relative
  refine ⟨folder, locate_eq_ok.mpr ⟨?_, hempty, ?_, hfolder⟩, hentry, ?_⟩
  -- A shorter path has no bad character and is not too long either.
  · rw [String.toList_append, String.toList_append] at hbad
    simp only [List.mem_append, not_or] at hbad
    exact hbad.1.1
  · rw [String.utf8ByteSize_append, String.utf8ByteSize_append] at hlong
    omega
  · rw [eq_of_follow hlead]
    exact hname.goTo folder

/-! ### Reading -/

/-- A path leads to what is at its place. -/
theorem lookUp_eq_ok : d.lookUp path = .ok entry ↔
    ∃ place, d.locate path = .ok place ∧ d.entry? place = some entry := by
  unfold lookUp
  cases d.locate path with
  | error e => simp
  | ok place => cases hentry : d.entry? place <;> simp [hentry]

/-- A path leads to a folder if there is one at its place. -/
theorem isFolder_eq_true :
    d.isFolder path = true ↔
      ∃ place, d.locate path = .ok place ∧ d.entry? place = some .folder := by
  rw [← lookUp_eq_ok]
  unfold isFolder
  split <;> simp_all

/-- The text of a path is that of the file to which it leads. -/
theorem readText_eq_ok {text : String} : d.readText path = .ok text ↔
    ∃ place, d.locate path = .ok place ∧ d.entry? place = some (.file text.toUTF8) := by
  rw [← lookUp_eq_ok]
  unfold readText
  cases d.lookUp path with
  | error e => simp
  | ok entry =>
    cases entry with
    | folder => simp
    | file bytes =>
      rw [Except.ok.injEq, Entry.file.injEq, ← fromUTF8?_eq_some]
      cases htext : String.fromUTF8? bytes <;> simp [htext]

/-- The names of the entries of a folder are those under which something is there. -/
theorem mem_list (h : d.locate path = .ok place) :
    name ∈ d.list path ↔ (d.entry? (place ++ [name])).isSome = true := by
  unfold list
  rw [h, entry?_of_ne_nil (by simp), List.lookup_isSome_iff]
  dsimp only
  rw [IdSet.mem_keys_ofIds, List.mem_filterMap]
  constructor
  · rintro ⟨x, hx, hlast⟩
    obtain ⟨hmem, hinside⟩ := List.mem_filter.mp hx
    obtain ⟨front, hfront⟩ := List.getLast?_eq_some_iff.mp hlast
    rw [hfront, List.dropLast_concat, Bool.and_eq_true] at hinside
    refine ⟨x, hmem, beq_iff_eq.mpr ?_⟩
    rw [hfront, beq_iff_eq.mp hinside.2]
  · rintro ⟨x, hmem, hplace⟩
    rw [beq_iff_eq] at hplace
    refine ⟨x, List.mem_filter.mpr ⟨hmem, ?_⟩, ?_⟩
    · rw [← hplace, List.dropLast_concat]
      simp
    · rw [← hplace, List.getLast?_concat]

/-! ### Writing -/

/-- A text is written to the file to which its path leads. -/
theorem writeText_eq_ok (h : d.locate path = .ok place) (hentry : d.entry? place ≠ some .folder)
    (text : String) : d.writeText path text = .ok (d.set place (.file text.toUTF8)) := by
  unfold writeText
  rw [h]
  dsimp only
  split
  · exact absurd ‹_› hentry
  · rfl

/-- Creating folders follows names that lead to where the path leads. -/
theorem exists_createFolders_eq (h : d.locate path = .ok place) :
    ∃ names : List String, d.follow (d.startOf path) names.reverse = .ok place ∧
      d.createFolders path = createFoldersFrom (d.startOf path) names d := by
  obtain ⟨hbad, -, -, hfollow⟩ := locate_eq_ok.mp h
  refine ⟨((Path.names path).filter fun name => !Path.staysHere name).reverse, ?_, ?_⟩
  · rw [List.reverse_reverse]
    exact follow_filter hfollow
  · unfold createFolders
    rw [if_neg (by simpa using hbad)]

/-- Creating a folder that is there changes nothing. -/
theorem createFolders_of_folder (h : d.locate path = .ok place)
    (hentry : d.entry? place = some .folder) : d.createFolders path = (.ok (), d) := by
  obtain ⟨names, hfollow, hcreate⟩ := exists_createFolders_eq h
  rw [hcreate]
  -- The root is there; any other folder was created before, and creating it again is no failure.
  cases names with
  | nil => rfl
  | cons name before =>
    have hthere : d.createFolder (d.startOf path) (name :: before).reverse =
        .error .alreadyThere := by
      unfold createFolder
      rw [hfollow]
      dsimp only
      rw [hentry]
    have hleads : d.leadsToFolder (d.startOf path) (name :: before).reverse = true := by
      unfold leadsToFolder
      rw [hfollow]
      dsimp only
      rw [hentry]
      rfl
    rw [createFoldersFrom, hthere]
    dsimp only
    rw [if_pos hleads]

/-- A folder is created where nothing is. -/
theorem createFolders_of_none (h : d.locate path = .ok place) (hentry : d.entry? place = none) :
    d.createFolders path = (.ok (), d.set place .folder) := by
  obtain ⟨names, hfollow, hcreate⟩ := exists_createFolders_eq h
  rw [hcreate]
  cases names with
  | nil =>
    -- The path would lead to the folder from which it starts, which is there.
    obtain ⟨name, rest, hnames⟩ := List.exists_cons_of_ne_nil (Path.names_ne_nil path)
    have hstart := (locate_eq_ok.mp h).2.2.2
    rw [hnames] at hstart
    have hfolder := (follow_cons.mp hstart).1
    obtain rfl := Except.ok.inj hfollow
    rw [hfolder] at hentry
    cases hentry
  | cons name before =>
    have hfree : d.createFolder (d.startOf path) (name :: before).reverse =
        .ok (d.set place .folder) := by
      unfold createFolder
      rw [hfollow]
      dsimp only
      rw [hentry]
    rw [createFoldersFrom, hfree]

end Disk

end TextAdventure
