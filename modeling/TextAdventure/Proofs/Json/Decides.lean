import TextAdventure.Proofs.Document
import TextAdventure.Proofs.Json.Scan

/-!
# What readers accept

A reader is described by the relation between values and what they stand for: it `Decides` the
relation if it finds in a value exactly what the relation says. The parts of a document come with
such a relation each. The rules for missing fields, for nulls and for records in either form are
relations built from it, so that what a whole document says follows from what its parts say.
-/

namespace TextAdventure.Json

variable {α β : Type} {read : Tree → Option α} {means : Json → α → Prop} {write : α → Json}

/-- A reader finds in the tree of a value what the value means, and nothing else. -/
def Decides (read : Tree → Option α) (means : Json → α → Prop) : Prop :=
  ∀ v : Json, v.Sorted → ∀ x, read v.toTree = some x ↔ means v x

/-- A value is the one that is written for something. -/
def WrittenBy (write : α → Json) (v : Json) (x : α) : Prop := v = write x

/-- What a value means where a null stands for nothing. -/
inductive OrNull (means : Json → α → Prop) : Json → Option α → Prop where
  | null : OrNull means .null none
  | given {v : Json} {x : α} (hv : v ≠ .null) (h : means v x) : OrNull means v (some x)

/-- What is made of what a value means. -/
def Through (f : α → β) (means : Json → α → Prop) (v : Json) (y : β) : Prop :=
  ∃ x, means v x ∧ f x = y

/-- What a field means that may be missing. -/
inductive OrAbsent (means : Json → α → Prop) (absent : α) : Option Json → α → Prop where
  | missing : OrAbsent means absent none absent
  | given {v : Json} {x : α} (h : means v x) : OrAbsent means absent (some v) x

/-- What a field makes of an old value. A null is as good as no field. -/
inductive Updates (means : Json → α → Prop) (old : α) : Option Json → α → Prop where
  | missing : Updates means old none old
  | null : Updates means old (some .null) old
  | given {v : Json} {x : α} (hv : v ≠ .null) (h : means v x) : Updates means old (some v) x

/-- A field is missing, null, or has a value of its kind. -/
def Fitting (means : Json → α → Prop) (field : Option Json) : Prop :=
  ∀ v, field = some v → v ≠ .null → ∃ x, means v x

/-- A null means nothing. -/
@[simp]
theorem orNull_null {x : Option α} : OrNull means .null x ↔ x = none := by
  constructor
  · intro h
    cases h with
    | null => rfl
    | given hv _ => exact absurd rfl hv
  · rintro rfl
    exact .null

/-- What is not a null means what it means elsewhere. -/
theorem orNull_of_ne {v : Json} (hv : v ≠ .null) {x : Option α} :
    OrNull means v x ↔ Through some means v x := by
  constructor
  · intro h
    cases h with
    | null => exact absurd rfl hv
    | given _ h => exact ⟨_, h, rfl⟩
  · rintro ⟨y, hy, rfl⟩
    exact .given hv hy

/-- A missing field has its value for that case. -/
@[simp]
theorem orAbsent_none {absent x : α} : OrAbsent means absent none x ↔ x = absent := by
  constructor
  · rintro ⟨⟩
    rfl
  · rintro rfl
    exact .missing

/-- A field that is there means what its value means. -/
@[simp]
theorem orAbsent_some {absent x : α} {v : Json} :
    OrAbsent means absent (some v) x ↔ means v x := by
  constructor
  · rintro ⟨⟩
    assumption
  · exact .given

/-- A null keeps the old value. -/
theorem Updates.eq_of_null {old x : α} (h : Updates means old (some .null) x) : x = old := by
  cases h with
  | null => rfl
  | given hv _ => exact absurd rfl hv

/-- A field with a value replaces the old one. -/
theorem Updates.of_ne_null {old x : α} {v : Json} (h : Updates means old (some v) x)
    (hv : v ≠ .null) : means v x := by
  cases h with
  | null => exact absurd rfl hv
  | given _ h => exact h

/-- A field updates an old value with what it says, if it says something. -/
theorem updates_getD {old : α} {field : Option Json} {x : Option α}
    (h : OrAbsent (OrNull means) none field x) : Updates means old field (x.getD old) := by
  cases h with
  | missing => exact .missing
  | given h =>
    cases h with
    | null => exact .null
    | given hv h => exact .given hv h

/-- A fitting field says something or nothing. -/
theorem fitting_iff {field : Option Json} :
    Fitting means field ↔ ∃ x, OrAbsent (OrNull means) none field x := by
  constructor
  · intro h
    cases field with
    | none => exact ⟨none, .missing⟩
    | some v =>
      by_cases hv : v = .null
      · subst hv
        exact ⟨none, .given .null⟩
      · obtain ⟨x, hx⟩ := h v rfl hv
        exact ⟨some x, .given (.given hv hx)⟩
  · rintro ⟨x, hx⟩ v rfl hv
    obtain ⟨y, hy, -⟩ := (orNull_of_ne hv).mp (orAbsent_some.mp hx)
    exact ⟨y, hy⟩

/-- Something is made of what a field says, if it says something. -/
theorem orAbsent_map {field : Option Json} {x : Option α}
    (h : OrAbsent (OrNull means) none field x) (f : α → β) :
    OrAbsent (OrNull (Through f means)) none field (x.map f) := by
  cases h with
  | missing => exact .missing
  | given h =>
    cases h with
    | null => exact .given .null
    | given hv h => exact .given (.given hv ⟨_, h, rfl⟩)

/-- Where a null says something too, a field updates an old value whenever it is there. -/
theorem orAbsent_getD {old : Option α} {field : Option Json} {x : Option (Option α)}
    (h : OrAbsent (Through some (OrNull means)) none field x) :
    OrAbsent (OrNull means) old field (x.getD old) := by
  cases h with
  | missing => exact .missing
  | given h =>
    obtain ⟨y, hy, rfl⟩ := h
    exact .given hy

/-- Where a null says something too, a fitting field still says something or nothing. -/
theorem fitting_iff_some {field : Option Json} :
    Fitting means field ↔ ∃ x, OrAbsent (Through some (OrNull means)) none field x := by
  rw [fitting_iff]
  constructor
  · rintro ⟨x, hx⟩
    cases hx with
    | missing => exact ⟨none, .missing⟩
    | given h => exact ⟨some x, .given ⟨x, h, rfl⟩⟩
  · rintro ⟨x, hx⟩
    exact ⟨_, orAbsent_getD hx⟩

/-! ### Values -/

/-- What is made of what is read is made of what the value means. -/
theorem Decides.map (h : Decides read means) (f : α → β) :
    Decides (fun t => (read t).map f) (Through f means) := by
  intro v hv y
  rw [Option.map_eq_some_iff]
  exact exists_congr fun x => and_congr_left' (h v hv x)

/-- Where a null stands for nothing, any other value is read as before. -/
theorem Decides.nullable (h : Decides read means) :
    Decides (Tree.nullable? read) (OrNull means) := by
  intro v hv x
  by_cases hnull : v = .null
  · subst hnull
    rw [orNull_null, eq_comm]
    exact Option.some_inj
  · have hread : Tree.nullable? read v.toTree = (read v.toTree).map some := by
      cases v <;> first | exact absurd rfl hnull | rfl
    rw [hread, orNull_of_ne hnull]
    exact h.map some v hv x

/-- A string is read from what is written for it. -/
theorem decides_string : Decides Tree.string? (WrittenBy .string) := by
  intro v _ x
  cases v <;> simp [toTree, Tree.string?, WrittenBy]

/-- A truth value is read from what is written for it. -/
theorem decides_bool : Decides Tree.bool? (WrittenBy .bool) := by
  intro v _ x
  cases v <;> simp [toTree, Tree.bool?, WrittenBy]

/-- A sorted value is read as itself. -/
theorem decides_toJson : Decides Tree.toJson? (WrittenBy fun v => v) := by
  intro v hv x
  rw [toJson?_toTree, canon_eq_self hv, Option.some_inj]
  rfl

/-- A value that is read as an integer is that integer. -/
theorem integer?_toTree {v : Json} {n : Int} :
    v.toTree.integer? = some n ↔ v = .number (.integer n) := by
  cases v with
  | number x => cases x <;> simp [toTree, Tree.integer?]
  | _ => simp [toTree, Tree.integer?]

/-- A 32-bit integer is read from what is written for it. -/
theorem decides_int32 : Decides Tree.int32? (WrittenBy .ofInt32) := by
  intro v _ x
  constructor
  · intro h
    obtain ⟨n, hn, hint⟩ := Option.bind_eq_some_iff.mp h
    obtain rfl := integer?_toTree.mp hn
    split at hint
    · next hrange =>
      cases hint
      unfold WrittenBy ofInt32
      rw [Int32.toInt_ofInt_of_le hrange.1 (Int.lt_add_one_of_le hrange.2)]
    · cases hint
  · rintro rfl
    exact rereads_ofInt32 x .written

/-- An unsigned 32-bit integer is read from what is written for it. -/
theorem decides_uint32 : Decides Tree.uint32? (WrittenBy .ofUInt32) := by
  intro v _ x
  constructor
  · intro h
    obtain ⟨n, hn, hint⟩ := Option.bind_eq_some_iff.mp h
    obtain rfl := integer?_toTree.mp hn
    split at hint
    · next hrange =>
      cases hint
      have hlt : n.toNat < UInt32.size := by omega
      unfold WrittenBy ofUInt32
      rw [UInt32.toNat_ofNat_of_lt' hlt, Int.toNat_of_nonneg hrange.1]
    · cases hint
  · rintro rfl
    exact rereads_ofUInt32 x .written

/-- Items that are each read from what is written for them are read from what is written for all. -/
theorem mapM_eq_some_iff {γ δ : Type} {f : γ → Option δ} {g : δ → γ} {xs : List γ} {ys : List δ}
    (h : ∀ x ∈ xs, ∀ y, f x = some y ↔ x = g y) : xs.mapM f = some ys ↔ xs = ys.map g := by
  -- The lists are read and written item by item.
  induction xs generalizing ys with
  | nil => cases ys <;> simp
  | cons x xs ih =>
    obtain ⟨hx, hxs⟩ := List.forall_mem_cons.mp h
    rw [List.mapM_cons]
    constructor
    · intro hread
      obtain ⟨y, hy, hread⟩ := Option.bind_eq_some_iff.mp hread
      obtain ⟨ys, hys, hread⟩ := Option.bind_eq_some_iff.mp hread
      cases hread
      rw [(hx y).mp hy, (ih hxs).mp hys, List.map_cons]
    · intro hwritten
      cases ys with
      | nil => cases hwritten
      | cons y ys =>
        obtain ⟨hy, hys⟩ := List.cons.inj hwritten
        rw [(hx y).mpr hy, (ih hxs).mpr hys]
        rfl

/-- A list is read from what is written for it if its items are. -/
theorem decides_list (h : Decides read (WrittenBy write)) :
    Decides (Tree.list? read) (WrittenBy fun xs => .array (xs.map write)) := by
  intro v hv xs
  cases v with
  | array items =>
    have hitems := sorted_of_mem_items hv
    show (itemsToTree items).mapM read = some xs ↔ Json.array items = .array (xs.map write)
    rw [itemsToTree_eq_map, List.mapM_map, Json.array.injEq]
    exact mapM_eq_some_iff fun item hitem => h item (hitems item hitem)
  | _ => simp [toTree, Tree.list?, WrittenBy]

/-- A list of strings is read from what is written for it. -/
theorem decides_stringList : Decides (Tree.list? Tree.string?) (WrittenBy .stringList) :=
  decides_list decides_string

/-- A table is read from what is written for it if its values are. -/
theorem decides_table (h : Decides read (WrittenBy write)) :
    Decides (Tree.table? read) (WrittenBy (.ofTable write)) := by
  intro v hv t
  cases v with
  | object fields =>
    have hvalues := sorted_of_mem_fields hv.2
    -- What is read field by field are the fields in the same order.
    have hentries : ∀ es : List (String × α),
        (fieldsToTree fields).mapM (fun f => (read f.2).map (f.1, ·)) = some es ↔
          fields = es.map fun e => (e.1, write e.2) := by
      intro es
      rw [fieldsToTree_eq_map, List.mapM_map]
      refine mapM_eq_some_iff fun f hf e => ?_
      obtain ⟨k, x⟩ := e
      rw [Function.comp_apply, Option.map_eq_some_iff]
      constructor
      · rintro ⟨y, hy, heq⟩
        cases heq
        exact Prod.ext rfl ((h f.2 (hvalues f hf) x).mp hy)
      · rintro rfl
        exact ⟨x, (h (write x) (hvalues _ hf) x).mpr rfl, rfl⟩
    show Option.map Table.ofList (List.mapM _ _) = some t ↔
      Json.object fields = .object (t.entries.map fun e => (e.1, write e.2))
    rw [Option.map_eq_some_iff, Json.object.injEq]
    constructor
    · rintro ⟨es, hes, rfl⟩
      obtain rfl := (hentries es).mp hes
      -- The fields ascend, so the table has exactly the entries that were read.
      have hsorted : es.Pairwise fun a b => a.1 < b.1 :=
        List.pairwise_map (R := fun a b : String × Json => a.1 < b.1).mp hv.1
      rw [Table.entries_ofList, Table.foldl_insertEntry hsorted, List.nil_append]
    · intro hfields
      exact ⟨t.entries, (hentries _).mpr hfields, Table.ofList_entries t⟩
  -- Any other value is neither read nor written as a table.
  | _ => simp [toTree, Tree.table?, WrittenBy, ofTable]

/-! ### Fields -/

/-- Fields as a sorted value has them: no key twice, and sorted values. -/
structure Clean (fields : List (String × Json)) : Prop where
  /-- No key occurs twice. -/
  keys : (fields.map Prod.fst).Nodup
  /-- The values are sorted. -/
  values : ∀ f ∈ fields, f.2.Sorted

/-- A sorted object has clean fields. -/
theorem clean_of_sorted {fields : List (String × Json)} (h : (Json.object fields).Sorted) :
    Clean fields :=
  ⟨Table.nodup_keys ⟨fields, h.1⟩, sorted_of_mem_fields h.2⟩

/-- Looking up a name is taking the first field of this name. -/
theorem Record.lookup_eq_head? (fields : List (String × α)) (name : String) :
    fields.lookup name =
      ((fields.filter fun f => [name].contains f.1).head?).map Prod.snd := by
  induction fields with
  | nil => rfl
  | cons f fs ih =>
    obtain ⟨k, x⟩ := f
    rw [Table.lookup_cons_eq, ih]
    by_cases hk : name = k
    · simp [hk]
    · simp [hk, Ne.symm hk]

/-- A field is found by its name if the name occurs at most once. -/
theorem Record.find?_of_count {fields : List (String × α)} {name : String}
    (h : (fields.map Prod.fst).count name ≤ 1) :
    find? ⟨fields⟩ [name] = some (fields.lookup name) := by
  have hlength : (fields.filter fun f => [name].contains f.1).length =
      (fields.map Prod.fst).count name := by
    rw [List.count, List.countP_map, List.countP_eq_length_filter]
    congr 2
    funext f
    rw [Bool.eq_iff_iff]
    simp
  rw [lookup_eq_head?]
  unfold find?
  rw [← hlength] at h
  generalize fields.filter _ = found at h
  match found, h with
  | [], _ => rfl
  | [f], _ => rfl

/-- A field is found by its name if no key occurs twice. -/
theorem Record.find?_of_nodup {fields : List (String × α)} (h : (fields.map Prod.fst).Nodup)
    (name : String) : find? ⟨fields⟩ [name] = some (fields.lookup name) :=
  find?_of_count (List.nodup_iff_count_le_one.mp h name)

section

variable {fields : List (String × Json)} (h : Clean fields) (hread : Decides read means)
include h

/-- Looking up the fields of a value in its tree. -/
theorem Clean.find? (name : String) : Record.find? ⟨fieldsToTree fields⟩ [name] =
    some ((fields.lookup name).map toTree) := by
  rw [fieldsToTree_eq_map, Record.find?_map, Record.find?_of_nodup h.keys]
  rfl

/-- The value of a field is sorted. -/
theorem Clean.sorted_of_lookup {name : String} {v : Json} (hv : fields.lookup name = some v) :
    v.Sorted := by
  obtain ⟨before, after, hfields, -⟩ := List.lookup_eq_some_iff.mp hv
  refine h.values (name, v) ?_
  rw [hfields]
  exact List.mem_append_right _ List.mem_cons_self

include hread

/-- A field that has to be there means what its value means. -/
theorem Clean.required (name : String) (x : α) :
    Record.required ⟨fieldsToTree fields⟩ name read = some x ↔
      ∃ v, fields.lookup name = some v ∧ means v x := by
  unfold Record.required
  rw [h.find?, Option.bind_eq_bind, Option.bind_some]
  cases hv : fields.lookup name with
  | none => simp
  | some v =>
    rw [Option.map_some, Option.bind_some, hread v (h.sorted_of_lookup hv)]
    simp

/-- A field with a value for the case that it is missing means that one or what its value means. -/
theorem Clean.withDefault (name : String) (absent x : α) :
    Record.withDefault ⟨fieldsToTree fields⟩ name absent read = some x ↔
      OrAbsent means absent (fields.lookup name) x := by
  unfold Record.withDefault Record.among
  rw [h.find?, Option.bind_eq_bind, Option.bind_some]
  cases hv : fields.lookup name with
  | none =>
    rw [orAbsent_none, eq_comm]
    exact Option.some_inj
  | some v =>
    rw [orAbsent_some]
    exact hread v (h.sorted_of_lookup hv) x

/-- A field that may be missing or null means nothing then, and otherwise what its value means. -/
theorem Clean.optional (name : String) (x : Option α) :
    Record.optional ⟨fieldsToTree fields⟩ name read = some x ↔
      OrAbsent (OrNull means) none (fields.lookup name) x :=
  h.withDefault hread.nullable name none x

end

/-! ### Records -/

/-- The fields of a record that is written in either form: by name, or as an array that gives the
first values in the order of the names. -/
inductive Parts (names : List String) : Json → List (String × Json) → Prop where
  | object (fields : List (String × Json)) : Parts names (.object fields) fields
  | array {items : List Json} (h : items.length ≤ names.length) :
    Parts names (.array items) (names.zip items)

/-- The record of a value has the fields of the value. -/
theorem record?_toTree {names : List String} {v : Json} {r : Record Tree} :
    v.toTree.record? names 0 = some r ↔
      ∃ fields, Parts names v fields ∧ r = ⟨fieldsToTree fields⟩ := by
  constructor
  -- An object has its own fields, and an array the names in their order.
  · intro h
    cases v with
    | object fields =>
      cases h
      exact ⟨fields, .object fields, rfl⟩
    | array items =>
      unfold toTree Tree.record? at h
      dsimp only at h
      split at h
      · next hlength =>
        cases h
        rw [itemsToTree_eq_map, List.length_map] at hlength
        refine ⟨names.zip items, .array hlength.2, ?_⟩
        rw [itemsToTree_eq_map, fieldsToTree_eq_map, List.zip_map_right]
        rfl
      · cases h
    | _ => cases h
  · rintro ⟨fields, hparts, rfl⟩
    cases hparts with
    | object => rfl
    | @array items hlength =>
      have hlength' : (items.map toTree).length ≤ names.length := by rwa [List.length_map]
      unfold toTree Tree.record?
      dsimp only
      rw [itemsToTree_eq_map, if_pos ⟨Nat.zero_le _, hlength'⟩, fieldsToTree_eq_map,
        List.zip_map_right]
      rfl

/-- The parts of a sorted value are clean. -/
theorem Parts.clean {names : List String} (hnames : names.Nodup) {v : Json}
    {fields : List (String × Json)} (h : Parts names v fields) (hv : v.Sorted) : Clean fields := by
  cases h with
  | object => exact clean_of_sorted hv
  | @array items hlength =>
    refine ⟨?_, fun f hf => sorted_of_mem_items hv f.2 (List.of_mem_zip hf).2⟩
    rw [List.zip_eq_zip_take_min, List.map_fst_zip (by simp)]
    exact hnames.sublist (List.take_sublist _ _)

/-- A record is read from what its fields say. -/
theorem decides_record {names : List String} (hnames : names.Nodup)
    {ofRecord? : Record Tree → Option α} {told : List (String × Json) → α → Prop}
    (h : ∀ fields, Clean fields → ∀ x, ofRecord? ⟨fieldsToTree fields⟩ = some x ↔ told fields x) :
    Decides (fun t => (t.record? names 0).bind ofRecord?)
      fun v x => ∃ fields, Parts names v fields ∧ told fields x := by
  intro v hv x
  rw [Option.bind_eq_some_iff]
  constructor
  · rintro ⟨r, hr, hx⟩
    obtain ⟨fields, hparts, rfl⟩ := record?_toTree.mp hr
    exact ⟨fields, hparts, (h fields (hparts.clean hnames hv) x).mp hx⟩
  · rintro ⟨fields, hparts, hx⟩
    exact ⟨_, record?_toTree.mpr ⟨fields, hparts, rfl⟩,
      (h fields (hparts.clean hnames hv) x).mpr hx⟩

end TextAdventure.Json
