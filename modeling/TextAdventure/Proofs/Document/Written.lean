import TextAdventure.Player
import TextAdventure.Proofs.Script.Reread
import TextAdventure.Proofs.Thing

/-!
# What is written for documents

What is written for a document of any kind is read again as the document, and takes a few levels of
nesting more than the scripts and values in it (`Document.Stable`). Of a document only what texts
say has to be known: that its values are sorted, that its scripts are read again, and that the
fields which it keeps are none of those that it knows (`Json.Keepable`).
-/

namespace TextAdventure

open Json (Form Rereads)

/-- Exit metadata is read again. -/
theorem ExitMeta.rereads (m : ExitMeta) : Rereads ExitMeta.ofTree? m.toJson m := by
  intro form
  obtain ⟨locked, objectId, flag⟩ := m
  obtain ⟨fs, hfs, hperm⟩ := form.tree_object (("locked", .bool locked) ::
    (Json.optionalField "objectId" .string objectId ++ Json.optionalField "flag" .string flag))
    (by cases objectId <;> cases flag <;> simp [Json.optionalField])
  have hstring : ∀ s : String, Json.Tree.nullable? Json.Tree.string? (form.tree (.string s)) =
      some (some s) := fun s => (Json.rereads_string s).nullable (by simp) form
  unfold toJson
  rw [hfs]
  have hfind := Json.Record.find?_perm hperm
  simp only [ofTree?, Json.Tree.record?, Option.bind_eq_bind, Option.bind_some,
    Json.Record.optional, Json.Record.withDefault, Json.Record.among, hfind]
  cases objectId <;> cases flag <;>
    simp [Json.Record.find?, Json.optionalField, Json.rereads_bool _ form, hstring]

/-- Exit metadata takes one level. -/
theorem ExitMeta.fits_toJson (m : ExitMeta) {exact : Bool} {n : Nat} :
    m.toJson.Within exact (n + 1) := by
  refine Json.fits_object fun f hf => ?_
  rcases List.mem_cons.mp hf with rfl | hf
  · exact Json.fits_bool m.locked
  · rcases List.mem_append.mp hf with hf | hf
    · exact Json.fits_optionalField m.objectId Json.fits_string f hf
    · exact Json.fits_optionalField m.flag Json.fits_string f hf

/-- The lines of a world are read again. -/
theorem Messages.rereads (m : Messages) : Rereads Messages.ofTree? m.toJson m := by
  intro form
  obtain ⟨fs, hfs, hperm⟩ := form.tree_object [("cannotGo", .string m.cannotGo),
    ("cannotTake", .string m.cannotTake), ("unknownCommand", .string m.unknownCommand),
    ("pathBlocked", .string m.pathBlocked), ("notPickable", .string m.notPickable),
    ("nothingSpecial", .string m.nothingSpecial), ("missingItem", .string m.missingItem),
    ("cannotCombine", .string m.cannotCombine), ("inventoryEmpty", .string m.inventoryEmpty),
    ("combatInProgress", .string m.combatInProgress),
    ("combatRefusal", .string m.combatRefusal)] (by simp)
  unfold toJson
  rw [hfs]
  have hfind := Json.Record.find?_perm hperm
  simp only [ofTree?, Json.Tree.record?, Option.bind_eq_bind, Option.bind_some,
    Json.Record.withDefault, Json.Record.among, hfind]
  simp [Json.Record.find?, Json.rereads_string _ form]

/-- The lines of a world take one level. -/
theorem Messages.fits_toJson (m : Messages) {exact : Bool} {n : Nat} :
    m.toJson.Within exact (n + 1) :=
  Json.fits_object (by simp)

/-- A world is read again if its flags are set to values of texts. -/
theorem World.rereads {w : World} (h : ∀ e ∈ w.globalFlags.entries, e.2.Sorted) :
    Rereads World.ofTree? w.toJson w := by
  intro form
  obtain ⟨fs, hfs, hperm⟩ := form.tree_object [("id", .string w.id), ("title", .string w.title),
    ("startRoom", .string w.startRoom), ("globalFlags", .ofTable (fun v => v) w.globalFlags),
    ("messages", w.messages.toJson)] (by simp)
  have hflags := Json.rereads_ofTable_of_sorted h form
  unfold toJson
  rw [hfs]
  have hfind := Json.Record.find?_perm hperm
  simp only [ofTree?, Json.Tree.record?, Option.bind_eq_bind, Option.bind_some,
    Json.Record.required, Json.Record.withDefault, Json.Record.among, hfind]
  simp [Json.Record.find?, Json.rereads_string _ form, hflags, Messages.rereads _ form]

/-- A world takes two levels more than the values of its flags. -/
theorem World.fits_toJson {w : World} {exact : Bool} {n : Nat}
    (hflags : ∀ e ∈ w.globalFlags.entries, e.2.Within exact n) :
    w.toJson.Within exact (n + 2) := by
  have htable : (Json.ofTable (fun v => v) w.globalFlags).Within exact (n + 1) :=
    Json.fits_ofTable (fun v => v) hflags
  exact Json.fits_object (by simp [htable, w.messages.fits_toJson])

/-- A player is read again if its flags are set to values of texts. -/
theorem Player.rereads {p : Player} (h : ∀ e ∈ p.flags.entries, e.2.Sorted) :
    Rereads Player.ofTree? p.toJson p := by
  intro form
  -- The form in which a player is written is an object with all nine fields.
  obtain ⟨location, inventory, flags, stats, inCombat, enemy, visited, lockedExits, takenItems⟩ := p
  obtain ⟨fs, hfs, hperm⟩ := form.tree_object [("location", .string location),
    ("inventory", .stringList inventory), ("flags", .ofTable (fun v => v) flags),
    ("stats", stats.toJson), ("inCombat", .bool inCombat),
    ("enemy", (enemy.map Enemy.toJson).getD .null), ("visited", .stringList visited.keys),
    ("lockedExits", .ofTable .bool lockedExits),
    ("takenItems", .stringList takenItems.keys)] (by simp)
  have hflags := Json.rereads_ofTable_of_sorted h form
  have hexits := Json.rereads_ofTable (t := lockedExits) (fun e _ => Json.rereads_bool e.2) form
  have henemy : Json.Tree.nullable? Enemy.ofTree?
      (form.tree ((enemy.map Enemy.toJson).getD .null)) =
      some enemy := by
    cases enemy with
    | none => cases form <;> rfl
    | some enemy => exact enemy.rereads.nullable (by simp [Enemy.toJson]) form
  unfold toJson
  rw [hfs]
  -- Which fields are found does not depend on their order, so each one is found where it was
  -- written.
  have hfind := Json.Record.find?_perm hperm
  simp only [ofTree?, Json.Tree.record?, Option.bind_eq_bind, Option.bind_some,
    Json.Record.required, Json.Record.optional, Json.Record.withDefault, Json.Record.among, hfind]
  simp [Json.Record.find?, Json.rereads_string _ form, Json.rereads_stringList _ form, hflags,
    Stats.rereads _ form, Json.rereads_bool _ form, henemy, Json.rereads_keys _ form, hexits]

/-- An item takes one level more than its scripts. Those for combining lie one level deeper, in a
table. -/
theorem Item.fits_toJson {i : Item} {exact : Bool} {n : Nat}
    (hcombine : ∀ e ∈ i.combine.entries, e.2.toJson.Within exact n)
    (huse : i.onUse.toJson.Within exact (n + 1)) : i.toJson.Within exact (n + 2) := by
  have htable : (Json.ofTable Script.toJson i.combine).Within exact (n + 1) :=
    Json.fits_ofTable Script.toJson hcombine
  exact Json.fits_object (by simp [htable, huse])

/-- An item is read again if its scripts are. -/
theorem Item.reread {i : Item}
    (hcombine : ∀ e ∈ i.combine.entries, Script.ofTree? e.2.toJson.toTree = some e.2)
    (huse : Script.ofTree? i.onUse.toJson.toTree = some i.onUse) :
    Item.ofTree? i.toJson.toTree = some i := by
  have hcombine' : Json.Tree.table? Script.ofTree?
      (Form.written.tree (.ofTable Script.toJson i.combine)) = some i.combine :=
    Json.table?_tree_ofTable .written hcombine
  have huse' : Script.ofTree? (Form.written.tree i.onUse.toJson) = some i.onUse := huse
  obtain ⟨fs, hfs, hperm⟩ := Form.written.tree_object [("id", .string i.id),
    ("name", .string i.name), ("description", .string i.description), ("pickup", .bool i.pickup),
    ("combine", .ofTable Script.toJson i.combine), ("on_use", i.onUse.toJson)] (by simp)
  have hfind := Json.Record.find?_perm hperm
  show Item.ofTree? (Form.written.tree (toJson i)) = some i
  unfold toJson
  rw [hfs]
  simp only [ofTree?, Json.Tree.record?, Option.bind_eq_bind, Option.bind_some,
    Json.Record.required, Json.Record.withDefault, Json.Record.among, hfind]
  simp [Json.Record.find?, Json.rereads_string _ Form.written, Json.rereads_bool _ Form.written,
    hcombine', huse']

/-- An item is stable if its scripts are. -/
theorem Item.stable {i : Item} {n : Nat}
    (hcombine : ∀ e ∈ i.combine.entries, Document.Stable n e.2)
    (huse : Document.Stable (n + 1) i.onUse) : Document.Stable (n + 2) i :=
  ⟨fits_toJson (fun e he => (hcombine e he).fits) huse.fits,
    reread (fun e he => (hcombine e he).reread) huse.reread⟩

/-! ### Documents that keep fields that are not known -/

/-- Fields can be kept beside those that are known: none of them is known, and their values are
those of texts, nest no deeper than so many levels, and have numbers that are read back. -/
def Json.Keepable (names : List String) (n : Nat) (extra : Table Json) : Prop :=
  ∀ e ∈ extra.entries, e.1 ∉ names ∧ e.2.Sorted ∧ e.2.FitsExactly n

/-- What can be kept can be kept where there are more levels. -/
theorem Json.Keepable.mono {names : List String} {m n : Nat} {extra : Table Json}
    (h : Keepable names m extra) (hmn : m ≤ n) : Keepable names n extra := fun e he =>
  ⟨(h e he).1, (h e he).2.1, (h e he).2.2.mono hmn⟩

/-- In what is written for a document that keeps fields the known fields are found among the known
ones, and the others are those that were kept. -/
theorem Json.exists_tree_of_keepable {names : List String} (known : List (String × Json))
    {n : Nat} {extra : Table Json} (hknown : ∀ f ∈ known, f.1 ∈ names)
    (hextra : Keepable names n extra) :
    ∃ fs, (Json.object (known ++ extra.entries)).toTree = .object fs ∧
      (∀ ns : List String, (∀ n ∈ ns, n ∈ names) → Record.find? ⟨fs⟩ ns =
        Record.find? ⟨known.map fun f => (f.1, Form.written.tree f.2)⟩ ns) ∧
      (Tree.object (Record.others ⟨fs⟩ names)).table? Tree.toJson? = some extra := by
  -- The fields that are kept have other names than the known ones, so none of them is found there.
  refine ⟨_, congrArg Tree.object (fieldsToTree_eq_map _), fun ns hns => ?_, ?_⟩
  · have hnone : (extra.entries.map fun f => (f.1, f.2.toTree)).filter
        (fun f => ns.contains f.1) = [] := by
      refine List.filter_eq_nil_iff.mpr fun f hf => ?_
      obtain ⟨e, he, rfl⟩ := List.mem_map.mp hf
      have hnew : e.1 ∉ ns := fun hmem => (hextra e he).1 (hns e.1 hmem)
      simpa using hnew
    unfold Record.find?
    rw [List.map_append, List.filter_append, hnone, List.append_nil]
    rfl
  -- What is not known is what was kept.
  · have hkept : Record.others ⟨(known ++ extra.entries).map fun f => (f.1, f.2.toTree)⟩ names =
        extra.entries.map fun f => (f.1, f.2.toTree) := by
      have hnone : (known.map fun f => (f.1, f.2.toTree)).filter
          (fun f => !names.contains f.1) = [] := by
        refine List.filter_eq_nil_iff.mpr fun f hf => ?_
        obtain ⟨g, hg, rfl⟩ := List.mem_map.mp hf
        simpa using hknown g hg
      have hall : (extra.entries.map fun f => (f.1, f.2.toTree)).filter
          (fun f => !names.contains f.1) = extra.entries.map fun f => (f.1, f.2.toTree) := by
        refine List.filter_eq_self.mpr fun f hf => ?_
        obtain ⟨e, he, rfl⟩ := List.mem_map.mp hf
        simpa using (hextra e he).1
      unfold Record.others
      rw [List.map_append, List.filter_append, hnone, hall, List.nil_append]
    have hread := rereads_ofTable_of_sorted (fun e he => (hextra e he).2.1) .written
    rw [Form.tree, ofTable, toTree, fieldsToTree_eq_map, List.map_map] at hread
    rw [hkept]
    exact hread

/-- A fixture takes one level more than its scripts and the fields that it keeps. -/
theorem Fixture.fits_toJson {f : Fixture} {n : Nat} (hinspect : f.inspect.toJson.FitsExactly n)
    (huse : f.use.toJson.FitsExactly n) (hlocked : f.onLockedUse.toJson.FitsExactly n)
    (hextra : Json.Keepable fieldNames n f.extra) : f.toJson.FitsExactly (n + 1) := by
  refine Json.fits_object fun e he => ?_
  rw [List.mem_append] at he
  rcases he with he | he
  · revert e
    simp [hinspect, huse, hlocked]
  · exact (hextra e he).2.2

/-- A fixture is read again if its scripts are and its other fields can be kept. -/
theorem Fixture.reread {f : Fixture} {n : Nat}
    (hinspect : Script.ofTree? f.inspect.toJson.toTree = some f.inspect)
    (huse : Script.ofTree? f.use.toJson.toTree = some f.use)
    (hlocked : Script.ofTree? f.onLockedUse.toJson.toTree = some f.onLockedUse)
    (hextra : Json.Keepable fieldNames n f.extra) : Fixture.ofTree? f.toJson.toTree = some f := by
  obtain ⟨fs, hfs, hfind, hothers⟩ := Json.exists_tree_of_keepable [("id", .string f.id),
    ("name", .string f.name), ("description", .string f.description), ("locked", .bool f.locked),
    ("inspect", f.inspect.toJson), ("use", f.use.toJson),
    ("on_locked_use", f.onLockedUse.toJson)] (by simp [fieldNames]) hextra
  unfold toJson
  rw [hfs]
  simp only [ofTree?, Json.Tree.objectFields?, Option.bind_eq_bind, Option.bind_some,
    Json.Record.required, Json.Record.withDefault, Json.Record.among, hothers,
    hfind ["id"] (by decide), hfind ["name"] (by decide), hfind ["description"] (by decide),
    hfind ["locked"] (by decide), hfind ["inspect"] (by decide), hfind ["use"] (by decide),
    hfind ["on_locked_use"] (by decide)]
  simp [Json.Record.find?, Form.tree, Json.toTree, Json.Tree.string?, Json.Tree.bool?, hinspect,
    huse, hlocked]

/-- A fixture is stable if its scripts are and its other fields can be kept. -/
theorem Fixture.stable {f : Fixture} {n : Nat} (hinspect : Document.Stable n f.inspect)
    (huse : Document.Stable n f.use) (hlocked : Document.Stable n f.onLockedUse)
    (hextra : Json.Keepable fieldNames n f.extra) : Document.Stable (n + 1) f :=
  ⟨fits_toJson hinspect.fits huse.fits hlocked.fits hextra,
    reread hinspect.reread huse.reread hlocked.reread hextra⟩

/-- A room takes one level more than its scripts and the fields that it keeps, and room for what it
says of its exits. -/
theorem Room.fits_toJson {r : Room} {n : Nat} (hfirst : r.onFirstEnter.toJson.FitsExactly (n + 2))
    (henter : r.onEnter.toJson.FitsExactly (n + 2))
    (hextra : Json.Keepable fieldNames (n + 2) r.extra) :
    r.toJson.FitsExactly (n + 3) := by
  have hexits : (Json.ofTable .string r.exits).FitsExactly (n + 2) :=
    Json.fits_ofTable .string fun e _ => Json.fits_string e.2
  have hmeta : (Json.ofTable ExitMeta.toJson r.exitMeta).FitsExactly (n + 2) :=
    Json.fits_ofTable ExitMeta.toJson fun e _ => e.2.fits_toJson
  refine Json.fits_object fun f hf => ?_
  simp only [List.mem_append, or_assoc] at hf
  rcases hf with hf | hf | hf | hf | hf | hf
  · revert f
    simp
  · exact Json.fits_optionalField r.ascii (fun art => art.fits_toJson) f hf
  · revert f
    simp [hexits]
  · split at hf
    · cases hf
    · rw [List.mem_singleton.mp hf]
      exact hmeta
  · revert f
    simp [hfirst, henter]
  · exact (hextra f hf).2.2

/-- A room is read again if its scripts are and its other fields can be kept. -/
theorem Room.reread {r : Room} {n : Nat}
    (hfirst : Script.ofTree? r.onFirstEnter.toJson.toTree = some r.onFirstEnter)
    (henter : Script.ofTree? r.onEnter.toJson.toTree = some r.onEnter)
    (hextra : Json.Keepable fieldNames n r.extra) : Room.ofTree? r.toJson.toTree = some r := by
  obtain ⟨id, title, description, ascii, items, objects, exits, exitMeta, first, enter, extra⟩ := r
  have hfirst' : Script.ofTree? (Form.written.tree first.toJson) = some first := hfirst
  have henter' : Script.ofTree? (Form.written.tree enter.toJson) = some enter := henter
  have hexits := Json.rereads_ofTable (t := exits) (fun e _ => Json.rereads_string e.2) .written
  have hmeta := Json.rereads_ofTable (t := exitMeta) (fun e _ => e.2.rereads) .written
  have hart : ∀ art : ArtRef, (Form.written.tree art.toJson).nullable? ArtRef.ofTree? =
      some (some art) :=
    fun art => art.rereads.nullable (by cases art <;> simp [ArtRef.toJson]) .written
  obtain ⟨fs, hfs, hfind, hothers⟩ := Json.exists_tree_of_keepable
    ([("id", .string id), ("title", .string title), ("description", .string description)] ++
      Json.optionalField "ascii" ArtRef.toJson ascii ++
      [("items", .stringList items), ("objects", .stringList objects),
        ("exits", .ofTable .string exits)] ++
      (if exitMeta.isEmpty then [] else [("exitMeta", .ofTable ExitMeta.toJson exitMeta)]) ++
      [("on_first_enter", first.toJson), ("on_enter", enter.toJson)])
    (by cases ascii <;> cases exitMeta.isEmpty <;> simp [Json.optionalField, fieldNames]) hextra
  unfold toJson
  rw [hfs]
  simp only [ofTree?, Json.Tree.objectFields?, Option.bind_eq_bind, Option.bind_some,
    Json.Record.required, Json.Record.optional, Json.Record.withDefault, Json.Record.among,
    hothers, hfind ["id"] (by decide), hfind ["title"] (by decide),
    hfind ["description"] (by decide), hfind ["ascii"] (by decide), hfind ["items"] (by decide),
    hfind ["objects"] (by decide), hfind ["exits"] (by decide),
    hfind ["exitMeta", "exit_meta"] (by decide), hfind ["on_first_enter"] (by decide),
    hfind ["on_enter"] (by decide)]
  -- What is left out when it is written has its default when it is read.
  cases hnone : exitMeta.isEmpty with
  | true =>
    have hempty : exitMeta = .empty := Table.ext_entries (List.isEmpty_iff.mp hnone)
    cases ascii <;> simp [Json.Record.find?, Json.optionalField, hexits, hfirst', henter',
      Json.rereads_string _ Form.written, Json.rereads_stringList _ Form.written, hempty, hart]
  | false =>
    cases ascii <;> simp [Json.Record.find?, Json.optionalField, hexits, hfirst', henter',
      Json.rereads_string _ Form.written, Json.rereads_stringList _ Form.written, hmeta, hart]

/-- A room is stable if its scripts are and its other fields can be kept. -/
theorem Room.stable {r : Room} {n : Nat} (hfirst : Document.Stable (n + 2) r.onFirstEnter)
    (henter : Document.Stable (n + 2) r.onEnter)
    (hextra : Json.Keepable fieldNames (n + 2) r.extra) : Document.Stable (n + 3) r :=
  ⟨fits_toJson hfirst.fits henter.fits hextra, reread hfirst.reread henter.reread hextra⟩

end TextAdventure
