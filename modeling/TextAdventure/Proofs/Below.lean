import TextAdventure.Library
import TextAdventure.Proofs.Disk

/-!
# Where content makes a library read

Content names documents by their ids and pictures by their paths, and what a library asks for is
joined to the root of the adventure's data. A path lies below the root if its components are those
of the root and then only names (`Path.IsBelow`); what is found there lies in the tree below the
root (`Disk.prefix_of_isBelow`).

An id that is turned into a path adds exactly the folder of its kind and one file
(`Library.components_join_documentPath`). The path of a picture adds only names, since the parts
that lead up are refused (`Library.dots_notMem_names`), unless it is absolute: joining then drops
the root of the data (`Library.opens_below`).
-/

namespace TextAdventure

namespace Path

/-- A part of a path that leads somewhere. -/
inductive Component where
  /-- To the root of the file system. -/
  | root
  /-- To the folder above. -/
  | up
  /-- To what has a name in the folder. -/
  | down (name : String)
  deriving DecidableEq

/-- The place to which a component leads from another. -/
def Component.goTo (place : Place) : Component → Place
  | root => []
  | up => place.dropLast
  | down name => place ++ [name]

/-- The component that a name is, unless the name leads nowhere. -/
def component? (name : String) : Option Component :=
  if staysHere name then none else if name == ".." then some .up else some (.down name)

/-- The components of a path. -/
def components (path : String) : List Component :=
  (if isAbsolute path then [.root] else []) ++ (names path).filterMap component?

/-- A path lies below another: it has the same components, and then only names. -/
def IsBelow (base path : String) : Prop :=
  ∃ below : List String, components path = components base ++ below.map .down

variable {base path name : String}

/-- A name that stands for the folder itself is no component. -/
theorem component?_of_staysHere (h : staysHere name = true) : component? name = none := by
  unfold component?
  rw [if_pos h]

/-- A name that leads to what is in the folder is a component. -/
theorem component?_of_down (hstays : ¬staysHere name = true) (hup : name ≠ "..") :
    component? name = some (.down name) := by
  unfold component?
  rw [if_neg hstays, if_neg (by simp [hup])]

/-- A name leads where its component leads, and nowhere if it has none. -/
theorem foldl_goTo (ns : List String) (place : Place) :
    ns.foldl goTo place = (ns.filterMap component?).foldl Component.goTo place := by
  induction ns generalizing place with
  | nil => rfl
  | cons n ns ih =>
    rw [List.foldl_cons, ih]
    unfold goTo
    by_cases hstays : staysHere n = true
    · rw [if_pos hstays, List.filterMap_cons_none (component?_of_staysHere hstays)]
    · rw [if_neg hstays]
      by_cases hup : n = ".."
      · subst hup
        rfl
      · rw [if_neg (by simp [hup]), List.filterMap_cons_some (component?_of_down hstays hup)]
        rfl

/-- Components that are names lead to what they name, one in the other. -/
theorem foldl_down (below : List String) (place : Place) :
    (below.map Component.down).foldl Component.goTo place = place ++ below := by
  induction below generalizing place with
  | nil => exact (List.append_nil place).symm
  | cons n below ih =>
    rw [List.map_cons, List.foldl_cons, ih, Component.goTo, List.append_assoc]
    rfl

/-- A path that is not absolute adds the components of its names to those of the path to which it is
joined. -/
theorem components_join (base : String) (h : isAbsolute path = false) :
    components (join base path) = components base ++ (names path).filterMap component? := by
  unfold components
  rw [isAbsolute_join h, List.append_assoc]
  congr 1
  rcases join_eq base with ⟨rfl, hjoin⟩ | ⟨before, hbase, hjoin⟩
  · have hempty : (names "").filterMap component? = [] := by
      rw [names_eq_singleton (by decide)]
      rfl
    rw [hjoin path h, hempty, List.nil_append]
  · rw [hjoin path h, names_append_slash, List.filterMap_append]
    rcases hbase with ⟨rfl, -⟩ | rfl
    · rfl
    · -- The slash at the end of the path leaves an empty name there.
      have hslash : names (before ++ "/") = names before ++ [""] := by
        have happend := names_append_slash before ""
        have hempty : names "" = [""] := names_eq_singleton (by decide)
        rwa [String.append_empty, hempty] at happend
      have hnone : [""].filterMap component? = [] := rfl
      rw [hslash, List.filterMap_append, hnone, List.append_nil]

/-- The components of names of which none leads up are names. -/
theorem exists_filterMap_component? {ns : List String} (h : ".." ∉ ns) :
    ∃ below : List String, ns.filterMap component? = below.map .down := by
  induction ns with
  | nil => exact ⟨[], rfl⟩
  | cons n ns ih =>
    obtain ⟨hn, hns⟩ := not_or.mp (mt List.mem_cons.mpr h)
    obtain ⟨below, hbelow⟩ := ih hns
    by_cases hstays : staysHere n = true
    · have hnone := component?_of_staysHere hstays
      exact ⟨below, (List.filterMap_cons_none hnone).trans hbelow⟩
    · have hsome := component?_of_down hstays (Ne.symm hn)
      exact ⟨n :: below, (List.filterMap_cons_some hsome).trans (hbelow ▸ rfl)⟩

/-- A path that is joined to another lies below it, unless it is absolute or leads up. -/
theorem isBelow_join (base : String) (h : isAbsolute path = false) (hup : ".." ∉ names path) :
    IsBelow base (join base path) := by
  obtain ⟨below, hbelow⟩ := exists_filterMap_component? hup
  exact ⟨below, hbelow ▸ components_join base h⟩

end Path

/-- What is found by a path that lies below another lies in the tree below what is found by that
one. -/
theorem Disk.prefix_of_isBelow {d : Disk} {base path : String} {folder place : Place}
    (h : Path.IsBelow base path) (hbase : d.locate base = .ok folder)
    (hpath : d.locate path = .ok place) : folder <+: place := by
  -- A path leads where its components lead.
  have hcomponents : ∀ {path : String} {place : Place}, d.locate path = .ok place →
      place = (Path.components path).foldl Path.Component.goTo d.here := by
    intro path place hpath
    rw [eq_of_follow (locate_eq_ok.mp hpath).2.2.2, Path.foldl_goTo]
    unfold Path.components startOf
    rw [List.foldl_append]
    split_ifs <;> rfl
  obtain ⟨below, hbelow⟩ := h
  refine ⟨below, ?_⟩
  rw [hcomponents hpath, hbelow, List.foldl_append, ← hcomponents hbase, Path.foldl_down]

namespace Library

/-- Splitting a list at more elements splits the parts again. -/
theorem splitOnP_or {α : Type} (p q : α → Bool) (xs : List α) :
    xs.splitOnP (fun x => p x || q x) = (xs.splitOnP p).flatMap (List.splitOnP q) := by
  induction xs with
  | nil => rfl
  | cons x xs ih =>
    rw [List.splitOnP_cons_eq_if_modifyHead, List.splitOnP_cons_eq_if_modifyHead, ih]
    cases hp : p x with
    | true => rfl
    | false =>
      obtain ⟨ys, yss, hsplit⟩ := List.exists_cons_of_ne_nil (List.splitOnP_ne_nil p xs)
      obtain ⟨zs, zss, hpart⟩ := List.exists_cons_of_ne_nil (List.splitOnP_ne_nil q ys)
      rw [hsplit]
      cases hq : q x <;> simp [hq, hpart, List.splitOnP_cons_eq_if_modifyHead]

/-- A path that has no part leading up has no name leading up. -/
theorem dots_notMem_names {path : String} (h : leadsUp path = false) :
    ".." ∉ Path.names path := by
  intro hmem
  obtain ⟨part, hpart, hdots⟩ := List.mem_map.mp hmem
  obtain rfl : part = ['.', '.'] := by
    rw [← String.toList_ofList (l := part), hdots]
    rfl
  -- The name is a part as well, because it has no backslash.
  have hsplit : ['.', '.'] ∈ path.toList.splitOnP fun c => c == '/' || c == '\\' := by
    rw [splitOnP_or]
    exact List.mem_flatMap.mpr ⟨_, hpart, List.mem_singleton_self _⟩
  have hup : leadsUp path = true := List.contains_iff_mem.mpr hsplit
  rw [h] at hup
  cases hup

/-- The file of an id has a name. -/
theorem isName_of_isFileName {id : String} (h : isFileName id = true) :
    Disk.IsName (id ++ ".json") := by
  unfold isFileName at h
  simp only [Bool.and_eq_true, bne_iff_ne, Bool.not_eq_true', List.any_eq_false] at h
  obtain ⟨⟨⟨hne, -⟩, -⟩, hslash⟩ := h
  have hlength : id.length ≠ 0 := fun hzero => hne (String.length_eq_zero_iff.mp hzero)
  have hsuffix : ".json".toList.isSuffixOf (id ++ ".json").toList = true := by
    rw [String.toList_append]
    exact List.isSuffixOf_iff_suffix.mpr (List.suffix_append _ _)
  have hjson : Path.isJsonFile (id ++ ".json") = true := by
    unfold Path.isJsonFile
    rw [hsuffix, Bool.and_true, decide_eq_true_eq, String.length_append]
    have hfive : ".json".length = 5 := rfl
    omega
  refine .of_isJsonFile hjson ?_
  rw [String.toList_append, List.mem_append, not_or]
  exact ⟨fun hmem => hslash '/' hmem rfl, by decide⟩

/-- The file of an id lies in the folder of its kind, which lies in the root of the data. -/
theorem components_join_documentPath (root : String) {kind id : String}
    (hkind : Disk.IsName kind) (hid : isFileName id = true) :
    Path.components (Path.join root (documentPath kind id)) =
      Path.components root ++ [.down kind, .down (id ++ ".json")] := by
  have hfile := isName_of_isFileName hid
  have hpath : documentPath kind id = kind ++ ("/" ++ (id ++ ".json")) := by
    unfold documentPath
    rw [String.append_assoc, String.append_assoc]
  have hrelative : Path.isAbsolute (documentPath kind id) = false := by
    rw [hpath, Path.isAbsolute_append hkind.ne_empty, hkind.relative]
  rw [Path.components_join root hrelative, hpath, ← String.append_assoc, Path.names_append_slash,
    Path.names_eq_singleton hkind.slash, Path.names_eq_singleton hfile.slash]
  have hdown : ∀ {name : String}, Disk.IsName name → Path.component? name = some (.down name) :=
    fun h => Path.component?_of_down (by simp [h.stays]) h.up
  simp [hdown hkind, hdown hfile]

/-- What content can make a library look for. -/
inductive Wanted where
  /-- The room with an id. -/
  | room (id : String)
  /-- The item with an id. -/
  | item (id : String)
  /-- The fixture with an id. -/
  | fixture (id : String)
  /-- The enemy with an id. -/
  | enemy (id : String)
  /-- The picture at a path. -/
  | art (path : String)

/-- The paths for which the library asks its source. -/
def Wanted.fetched (source : Source) (l : Library) : Wanted → List String
  | room id => (getRoom source id l).fetched
  | item id => (getItem source id l).fetched
  | fixture id => (getFixture source id l).fetched
  | enemy id => (getEnemy source id l).fetched
  | art path => (getArt source path l).fetched

/-- The paths that are opened on a disk if the source has the files below a root. -/
def Wanted.opened (root : String) (d : Disk) (l : Library) (w : Wanted) : List String :=
  (w.fetched (d.texts root) l).map (Path.join root)

variable {source : Source} {l : Library}

/-- A library asks at most for the path of the document, and only if the id names a file. -/
theorem of_mem_look {α : Type} [Document α] {kind id path : String} {shelf : Table α}
    (h : path ∈ (look source kind shelf id).2.2) :
    isFileName id = true ∧ path = documentPath kind id := by
  unfold look at h
  split at h
  · cases h
  · by_cases hid : isFileName id = true
    · simp only [hid, if_true] at h
      refine ⟨hid, ?_⟩
      split at h <;> exact List.mem_singleton.mp h
    · simp only [hid] at h
      cases h

/-- A library asks at most for the path of the picture, and only if no part of it leads up. -/
theorem of_mem_getArt {path path' : String} (h : path' ∈ (getArt source path l).fetched) :
    leadsUp path = false ∧ path' = path := by
  unfold getArt at h
  split at h
  · cases h
  · split_ifs at h with hup
    · cases h
    · refine ⟨Bool.eq_false_iff.mpr hup, ?_⟩
      split at h <;> exact List.mem_singleton.mp h

/-- Everything that a library opens on account of content lies below the root of the data, whatever
ids and paths the content names, except for a picture whose path is absolute: that one is opened
where the path says. -/
theorem opens_below (root : String) (d : Disk) (l : Library) (w : Wanted) :
    ∀ path ∈ w.opened root d l, Path.IsBelow root path ∨
      w = .art path ∧ Path.isAbsolute path = true := by
  intro path hpath
  obtain ⟨asked, hasked, rfl⟩ := List.mem_map.mp hpath
  -- A document is opened in the folder of its kind, under its own name.
  have hdocument : ∀ {α : Type} [Document α] {kind id : String} {shelf : Table α},
      Disk.IsName kind → asked ∈ (look (d.texts root) kind shelf id).2.2 →
      Path.IsBelow root (Path.join root asked) := by
    intro α _ kind id shelf hkind hlook
    obtain ⟨hid, rfl⟩ := of_mem_look hlook
    exact ⟨[kind, id ++ ".json"], components_join_documentPath root hkind hid⟩
  cases w with
  | room id => exact .inl (hdocument ⟨by decide, rfl, by decide⟩ hasked)
  | item id => exact .inl (hdocument ⟨by decide, rfl, by decide⟩ hasked)
  | fixture id => exact .inl (hdocument ⟨by decide, rfl, by decide⟩ hasked)
  | enemy id => exact .inl (hdocument ⟨by decide, rfl, by decide⟩ hasked)
  -- A picture is opened where its path says, which goes up nowhere but may begin at the top.
  | art picture =>
    obtain ⟨hup, rfl⟩ := of_mem_getArt hasked
    cases habsolute : Path.isAbsolute asked with
    | false => exact .inl (Path.isBelow_join root habsolute (dots_notMem_names hup))
    | true =>
      have hjoin : Path.join root asked = asked := if_pos habsolute
      exact .inr (hjoin.symm ▸ ⟨rfl, habsolute⟩)

/-- The root of the data of an adventure. -/
def noirData : String := "/games/noir/data"

/-- A disk with a file outside the data. -/
def cabinet : Disk := ⟨[(["secret.txt"], .file "secret".toUTF8)], []⟩

/-- A room is read from the folder of the rooms, and what is opened lies below the root. -/
theorem opens_below_room :
    (Wanted.room "hall").opened noirData cabinet (empty standardWorldFile) =
        ["/games/noir/data/rooms/hall.json"] ∧
      Path.IsBelow noirData "/games/noir/data/rooms/hall.json" := by
  have hopened : (Wanted.room "hall").opened noirData cabinet (empty standardWorldFile) =
      ["/games/noir/data/rooms/hall.json"] := by decide +kernel
  refine ⟨hopened, ?_⟩
  have hbelow := opens_below noirData cabinet (empty standardWorldFile) (.room "hall")
    "/games/noir/data/rooms/hall.json" (hopened ▸ List.mem_singleton_self _)
  exact hbelow.resolve_right fun hart => by cases hart.1

/-- A picture with an absolute path is read from outside the root. -/
theorem art_beside_data :
    (Wanted.art "/secret.txt").opened noirData cabinet (empty standardWorldFile) =
        ["/secret.txt"] ∧
      ¬Path.IsBelow noirData "/secret.txt" ∧
      (getArt (cabinet.texts noirData) "/secret.txt" (empty standardWorldFile)).result.toOption =
        some "secret" := by
  refine ⟨by decide +kernel, ?_, by decide +kernel⟩
  rintro ⟨below, hbelow⟩
  -- The root has more components than the path.
  have hshort : (Path.components "/secret.txt").length = 2 := by decide +kernel
  have hlong : (Path.components noirData).length = 4 := by decide +kernel
  rw [hbelow, List.length_append, hlong] at hshort
  omega

end Library

end TextAdventure
