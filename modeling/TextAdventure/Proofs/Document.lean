import Mathlib.Data.List.Perm.Basic
import TextAdventure.Document
import TextAdventure.Proofs.Json.Fits
import TextAdventure.Proofs.Json.Text

/-!
# Written values are read again

A value that was written is met again in two forms (`Json.Form`): as the tree of its text, with the
fields in the order in which they were written, and as the tree of its canonical value, with sorted
fields. `Rereads` says that a reader finds what was written in both forms. A record does not depend
on the order of its fields (`Record.find?_perm`), so both forms have one proof.
-/

namespace TextAdventure.Json

/-- The forms in which a written value is met again. -/
inductive Form where
  /-- With the fields in the order in which they were written. -/
  | written
  /-- With sorted fields. -/
  | canonical

/-- The tree of a value in one of its forms. -/
def Form.tree : Form → Json → Tree
  | written, v => v.toTree
  | canonical, v => v.canon.toTree

/-- A reader finds what was written. -/
def Rereads {α : Type} (read : Tree → Option α) (v : Json) (x : α) : Prop :=
  ∀ form : Form, read (form.tree v) = some x

/-- The trees of several items. -/
theorem itemsToTree_eq_map (items : List Json) : itemsToTree items = items.map toTree := by
  induction items with
  | nil => rfl
  | cons x xs ih => rw [itemsToTree, ih, List.map_cons]

/-- The trees of several fields. -/
theorem fieldsToTree_eq_map (fields : List (String × Json)) :
    fieldsToTree fields = fields.map fun f => (f.1, f.2.toTree) := by
  induction fields with
  | nil => rfl
  | cons f fs ih => rw [fieldsToTree, ih, List.map_cons]

/-- The canonical values of several items. -/
theorem canonItems_eq_map (items : List Json) : canonItems items = items.map canon := by
  induction items with
  | nil => rfl
  | cons x xs ih => rw [canonItems, ih, List.map_cons]

/-- The canonical values of several fields. -/
theorem canonFields_eq_map (fields : List (String × Json)) :
    canonFields fields = fields.map fun f => (f.1, f.2.canon) := by
  induction fields with
  | nil => rfl
  | cons f fs ih => rw [canonFields, ih, List.map_cons]

/-- A new key is put among the others. -/
theorem insertEntry_perm {α : Type} {k : String} {x : α} {fields : List (String × α)}
    (h : k ∉ fields.map Prod.fst) : (Table.insertEntry k x fields).Perm ((k, x) :: fields) := by
  induction fields with
  | nil => exact .refl _
  | cons f fs ih =>
    rw [List.map_cons, List.mem_cons, not_or] at h
    obtain ⟨hne, hfs⟩ := h
    rw [Table.insertEntry]
    split
    · exact .refl _
    · exact ((ih hfs).cons f).trans (.swap _ _ _)

/-- Sorting fields without repeated keys keeps them all. -/
theorem sortFields_perm {fields : List (String × Json)} (h : (fields.map Prod.fst).Nodup) :
    (sortFields fields).Perm fields := by
  -- The induction is over the fields still to be put among those that are sorted.
  have hfold : ∀ (fs sorted : List (String × Json)), ((sorted ++ fs).map Prod.fst).Nodup →
      (fs.foldl (fun s f => Table.insertEntry f.1 f.2 s) sorted).Perm (sorted ++ fs) := by
    intro fs
    induction fs with
    | nil =>
      intro sorted _
      rw [List.append_nil]
      exact .refl _
    | cons f fs ih =>
      intro sorted hnodup
      have hmiddle : (sorted ++ f :: fs).Perm (f :: sorted ++ fs) := List.perm_middle
      have hnodup' := (hmiddle.map Prod.fst).nodup_iff.mp hnodup
      -- The next key is none of the sorted ones, so nothing is overwritten.
      have hnew : f.1 ∉ sorted.map Prod.fst := by
        rw [List.cons_append, List.map_cons, List.nodup_cons, List.map_append] at hnodup'
        exact fun hmem => hnodup'.1 (List.mem_append_left _ hmem)
      have hinsert := insertEntry_perm (x := f.2) hnew
      refine (ih _ ?_).trans ((hinsert.append_right fs).trans hmiddle.symm)
      exact ((hinsert.append_right fs).map Prod.fst).nodup_iff.mpr hnodup'
  exact hfold fields [] h

namespace Form

/-- The items of an array keep their order. -/
theorem tree_array (form : Form) (items : List Json) :
    form.tree (.array items) = .array (items.map form.tree) := by
  cases form with
  | written => exact congrArg Tree.array (itemsToTree_eq_map items)
  | canonical =>
    show Tree.array (itemsToTree (canonItems items)) = _
    rw [itemsToTree_eq_map, canonItems_eq_map, List.map_map]
    rfl

/-- The fields of an object are all there, in some order. -/
theorem tree_object (form : Form) (fields : List (String × Json))
    (h : (fields.map Prod.fst).Nodup) : ∃ fs, form.tree (.object fields) = .object fs ∧
      fs.Perm (fields.map fun f => (f.1, form.tree f.2)) := by
  cases form with
  | written => exact ⟨_, rfl, by rw [fieldsToTree_eq_map]; exact .refl _⟩
  | canonical =>
    refine ⟨_, rfl, ?_⟩
    have hkeys : ((canonFields fields).map Prod.fst).Nodup := by
      rw [canonFields_eq_map, List.map_map]
      exact h
    have hperm := (sortFields_perm hkeys).map fun f : String × Json => (f.1, f.2.toTree)
    rw [fieldsToTree_eq_map]
    refine hperm.trans ?_
    rw [canonFields_eq_map, List.map_map]
    exact .refl _

/-- Ascending fields keep their order. -/
theorem tree_object_of_pairwise (form : Form) {fields : List (String × Json)}
    (h : fields.Pairwise fun f g => f.1 < g.1) :
    form.tree (.object fields) = .object (fields.map fun f => (f.1, form.tree f.2)) := by
  cases form with
  | written => exact congrArg Tree.object (fieldsToTree_eq_map fields)
  | canonical =>
    have hcanon : (canonFields fields).Pairwise fun f g => f.1 < g.1 := by
      rw [canonFields_eq_map]
      exact List.pairwise_map.mpr h
    show Tree.object (fieldsToTree (sortFields (canonFields fields))) = _
    rw [sortFields_of_pairwise hcanon, fieldsToTree_eq_map, canonFields_eq_map, List.map_map]
    rfl

/-- Every form of a value stands for a value. -/
theorem exists_toJson?_tree (form : Form) (v : Json) : ∃ w, (form.tree v).toJson? = some w := by
  cases form with
  | written => exact ⟨_, toJson?_toTree v⟩
  | canonical => exact ⟨_, toJson?_toTree v.canon⟩

/-- A sorted value has one form. -/
theorem tree_of_sorted (form : Form) {v : Json} (h : v.Sorted) : form.tree v = v.toTree := by
  cases form with
  | written => rfl
  | canonical => exact congrArg toTree (canon_eq_self h)

end Form

/-! ### Parts of documents -/

/-- A string is read again. -/
theorem rereads_string (s : String) : Rereads Tree.string? (.string s) s := by
  intro form
  cases form <;> rfl

/-- A truth value is read again. -/
theorem rereads_bool (b : Bool) : Rereads Tree.bool? (.bool b) b := by
  intro form
  cases form <;> rfl

/-- A 32-bit integer is read again. -/
theorem rereads_ofInt32 (n : Int32) : Rereads Tree.int32? (.ofInt32 n) n := by
  intro form
  have htree : form.tree (.ofInt32 n) = .number (.integer n.toInt) := by cases form <;> rfl
  rw [htree, Tree.int32?, Tree.integer?, Option.bind_some,
    if_pos ⟨n.minValue_le_toInt, n.toInt_le⟩, Int32.ofInt_toInt]

/-- An unsigned 32-bit integer is read again. -/
theorem rereads_ofUInt32 (n : UInt32) : Rereads Tree.uint32? (.ofUInt32 n) n := by
  intro form
  have htree : form.tree (.ofUInt32 n) = .number (.integer n.toNat) := by cases form <;> rfl
  have hlt : n.toNat < UInt32.size := n.toNat_lt
  rw [htree, Tree.uint32?, Tree.integer?, Option.bind_some, if_pos ⟨by omega, by omega⟩,
    Int.toNat_natCast, UInt32.ofNat_toNat]

/-- A list is read again if its items are. -/
theorem rereads_list {α : Type} {read : Tree → Option α} {write : α → Json} {xs : List α}
    (h : ∀ x ∈ xs, Rereads read (write x) x) :
    Rereads (Tree.list? read) (.array (xs.map write)) xs := by
  intro form
  rw [form.tree_array]
  show ((xs.map write).map form.tree).mapM read = some xs
  induction xs with
  | nil => rfl
  | cons x xs ih =>
    rw [List.map_cons, List.map_cons, List.mapM_cons, h x List.mem_cons_self form,
      ih fun y hy => h y (List.mem_cons_of_mem _ hy)]
    rfl

/-- A list of strings is read again. -/
theorem rereads_stringList (xs : List String) :
    Rereads (Tree.list? Tree.string?) (.stringList xs) xs :=
  rereads_list fun s _ => rereads_string s

/-- A set of ids is read again. -/
theorem rereads_keys (s : IdSet) : Rereads Tree.idSet? (.stringList s.keys) s := by
  intro form
  unfold Tree.idSet?
  rw [rereads_stringList s.keys form, Option.map_some, IdSet.ofIds_keys]

/-- A table is read again in one of its forms if its values are read again in this form. -/
theorem table?_tree_ofTable {α : Type} {read : Tree → Option α} {write : α → Json} {t : Table α}
    (form : Form) (h : ∀ e ∈ t.entries, read (form.tree (write e.2)) = some e.2) :
    Tree.table? read (form.tree (.ofTable write t)) = some t := by
  have hsorted : (t.entries.map fun e => (e.1, write e.2)).Pairwise fun f g => f.1 < g.1 :=
    List.pairwise_map.mpr t.sorted
  have hread : ∀ es : List (String × α), (∀ e ∈ es, read (form.tree (write e.2)) = some e.2) →
      ((es.map fun e => (e.1, write e.2)).map fun f => (f.1, form.tree f.2)).mapM
        (fun f => (read f.2).map (f.1, ·)) = some es := by
    intro es hes
    induction es with
    | nil => rfl
    | cons e es ih =>
      rw [List.map_cons, List.map_cons, List.mapM_cons, hes e List.mem_cons_self,
        ih fun d hd => hes d (List.mem_cons_of_mem _ hd)]
      rfl
  unfold ofTable
  rw [form.tree_object_of_pairwise hsorted]
  show Option.map Table.ofList (List.mapM _ _) = some t
  rw [hread t.entries h, Option.map_some, Table.ofList_entries]

/-- A table is read again if its values are. -/
theorem rereads_ofTable {α : Type} {read : Tree → Option α} {write : α → Json} {t : Table α}
    (h : ∀ e ∈ t.entries, Rereads read (write e.2) e.2) :
    Rereads (Tree.table? read) (.ofTable write t) t :=
  fun form => table?_tree_ofTable form fun e he => h e he form

/-- A table of sorted values is read again. -/
theorem rereads_ofTable_of_sorted {t : Table Json} (h : ∀ e ∈ t.entries, e.2.Sorted) :
    Rereads (Tree.table? Tree.toJson?) (.ofTable (fun v => v) t) t := by
  refine rereads_ofTable fun e he form => ?_
  rw [form.tree_of_sorted (h e he), toJson?_toTree, canon_eq_self (h e he)]

/-- A value that is not a null is read again where a null may stand. -/
theorem Rereads.nullable {α : Type} {read : Tree → Option α} {v : Json} {x : α}
    (h : Rereads read v x) (hv : v ≠ .null) : Rereads (Tree.nullable? read) v (some x) := by
  intro form
  have hne : form.tree v ≠ .null := by
    cases form <;> cases v <;> first | exact absurd rfl hv | (intro heq; cases heq)
  unfold Tree.nullable?
  split
  · next heq => exact absurd heq hne
  · rw [h form]
    rfl

/-- A record does not depend on the order of its fields. -/
theorem Record.find?_perm {α : Type} {fs fs' : List (String × α)} (h : fs.Perm fs')
    (names : List String) : find? ⟨fs⟩ names = find? ⟨fs'⟩ names := by
  have hfilter := h.filter fun f => names.contains f.1
  unfold Record.find?
  generalize fs.filter _ = fs at hfilter
  generalize fs'.filter _ = fs' at hfilter
  -- It matters only whether no field, one or more have one of the names.
  match fs, fs', hfilter with
  | [], fs', hfilter => rw [List.nil_perm.mp hfilter]
  | [f], fs', hfilter => rw [List.singleton_perm.mp hfilter]
  | f :: g :: fs, fs', hfilter =>
    have hlength := hfilter.length_eq
    match fs', hlength with
    | f' :: g' :: fs', _ => rfl

/-- A field is found by its name, whatever is done to the values. -/
theorem Record.find?_map {α β : Type} (φ : α → β) (fields : List (String × α))
    (names : List String) :
    find? ⟨fields.map fun f => (f.1, φ f.2)⟩ names = (find? ⟨fields⟩ names).map (Option.map φ) := by
  unfold Record.find?
  rw [List.filter_map]
  have hsame : (fields.filter ((fun f : String × β => names.contains f.1) ∘
      fun f => (f.1, φ f.2))) = fields.filter fun f => names.contains f.1 := rfl
  rw [hsame]
  cases fields.filter fun f => names.contains f.1 with
  | nil => rfl
  | cons f fs => cases fs <;> rfl

end TextAdventure.Json

namespace TextAdventure.Document

variable {α : Type} [Document α]

/-! ### The texts of a document -/

section Fits

variable {doc : α} (h : (toJson doc).Fits Json.Reader.maxNesting)
include h

/-- The compact text of a document is read as the tree of what is written for it, with the numbers
that their texts are read as. -/
theorem ofText?_text_of_fits :
    (ofText? (text doc) : Option α) = ofTree? (toJson doc).reread.toTree := by
  unfold ofText? text
  rw [Json.Tree.ofText?_compactText h.1 h.2]
  rfl

/-- The pretty text of a document, with or without spaces behind it, is read as the tree of what is
written for it, with the numbers that their texts are read as. -/
theorem ofText?_prettyText_of_fits {gap : String}
    (hgap : ∀ c ∈ gap.toList, Json.Reader.isSpace c = true) :
    (ofText? ((toJson doc).prettyText ++ gap) : Option α) =
      ofTree? (toJson doc).reread.toTree := by
  unfold ofText?
  rw [Json.Tree.ofText?_prettyText h.1 h.2 hgap]
  rfl

/-- The file of a document is read as the tree of what is written for it, with the numbers that
their texts are read as. -/
theorem ofText?_fileText_of_fits :
    (ofText? (fileText doc) : Option α) = ofTree? (toJson doc).reread.toTree := by
  refine ofText?_prettyText_of_fits h fun c hc => ?_
  rw [List.mem_singleton.mp hc]
  rfl

end Fits

/-- What is written for a document takes no more than so many levels, its numbers are read back, and
it is read as the document. -/
structure Stable (n : Nat) (doc : α) : Prop where
  /-- It fits. -/
  fits : (toJson doc).FitsExactly n
  /-- It is read again. -/
  reread : ofTree? (toJson doc).toTree = some doc

namespace Stable

variable {n : Nat} {doc : α}

/-- What takes no more than so many levels takes no more than a greater number of them. -/
theorem mono {m : Nat} (h : Stable m doc) (hmn : m ≤ n) : Stable n doc :=
  ⟨h.fits.mono hmn, h.reread⟩

/-- What is written for a stable document is read as the document, with the numbers that their texts
are read as. -/
theorem reread_numbers (h : Stable n doc) : ofTree? (toJson doc).reread.toTree = some doc := by
  rw [Json.reread_eq_self h.fits.1]
  exact h.reread

/-- The compact text of a stable document is read as the document. -/
theorem ofText?_text (h : Stable Json.Reader.maxNesting doc) : ofText? (text doc) = some doc :=
  (ofText?_text_of_fits h.fits.weaken).trans h.reread_numbers

/-- The pretty text of a stable document is read as the document, with or without spaces behind
it. -/
theorem ofText?_prettyText (h : Stable Json.Reader.maxNesting doc) {gap : String}
    (hgap : ∀ c ∈ gap.toList, Json.Reader.isSpace c = true) :
    ofText? ((toJson doc).prettyText ++ gap) = some doc :=
  (ofText?_prettyText_of_fits h.fits.weaken hgap).trans h.reread_numbers

/-- The file of a stable document is read as the document. -/
theorem ofText?_fileText (h : Stable Json.Reader.maxNesting doc) :
    ofText? (fileText doc) = some doc :=
  (ofText?_fileText_of_fits h.fits.weaken).trans h.reread_numbers

end Stable

end TextAdventure.Document
