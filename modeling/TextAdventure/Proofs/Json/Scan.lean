import TextAdventure.Proofs.Json.Fits
import TextAdventure.Json.Reader

/-!
# What texts are read as

A tree that was read from a text nests no deeper than the reader follows, and its integers are those
that a text can hold (`Tree.Fits`, `Tree.fits_of_ofText?`). So a value that a tree stands for is
sorted and fits where the tree does (`Tree.Fits.toJson?`), and what was read can be written again.
-/

namespace TextAdventure.Json

/-- What a list was read as comes from its items. -/
theorem exists_of_mem_mapM {α β : Type} {read : α → Option β} {xs : List α} {ys : List β}
    (h : xs.mapM read = some ys) {y : β} (hy : y ∈ ys) : ∃ x ∈ xs, read x = some y := by
  induction xs generalizing ys with
  | nil =>
    cases h
    cases hy
  | cons x xs ih =>
    rw [List.mapM_cons] at h
    obtain ⟨z, hz, h⟩ := Option.bind_eq_some_iff.mp h
    obtain ⟨zs, hzs, h⟩ := Option.bind_eq_some_iff.mp h
    cases h
    rcases List.mem_cons.mp hy with rfl | hy
    · exact ⟨x, List.mem_cons_self, hz⟩
    · obtain ⟨w, hw, hwy⟩ := ih hzs hy
      exact ⟨w, List.mem_cons_of_mem _ hw, hwy⟩

/-- The numbers of a tree can be held by a text, and it nests no deeper than so many levels. -/
inductive Tree.Within (exact : Bool) : Nat → Tree → Prop where
  | null {n : Nat} : Within exact n .null
  | bool {n : Nat} (b : Bool) : Within exact n (.bool b)
  | number {n : Nat} {x : Number} (h : x.Held exact) : Within exact n (.number x)
  | string {n : Nat} (s : String) : Within exact n (.string s)
  | refused {n : Nat} : Within exact n .refused
  | array {n : Nat} {items : List Tree} (h : ∀ t ∈ items, Within exact n t) :
    Within exact (n + 1) (.array items)
  | object {n : Nat} {fields : List (String × Tree)} (h : ∀ f ∈ fields, Within exact n f.2) :
    Within exact (n + 1) (.object fields)

/-- A text can hold the tree within so many levels. -/
abbrev Tree.Fits (n : Nat) (t : Tree) : Prop := t.Within false n

/-- A text can hold the tree within so many levels, and its numbers are read back. -/
abbrev Tree.FitsExactly (n : Nat) (t : Tree) : Prop := t.Within true n

namespace Reader

/-- A literal stands for a number that a text can hold. -/
theorem printable_of_number? {l : Literal} {x : Number} (h : l.number? = some x) :
    x.Printable := by
  have hreal : ∀ {r : Option Binary64}, r.map Number.real = some x → x.Printable := by
    intro r hr
    obtain ⟨y, -, rfl⟩ := Option.map_eq_some_iff.mp hr
    trivial
  unfold Literal.number? at h
  dsimp only at h
  generalize (if l.negative = true then -(Decimal.valueOf l.whole : Int)
    else (Decimal.valueOf l.whole : Int)) = i at h
  -- Without fraction and exponent it is an integer, unless it is out of range or a negative zero.
  split at h
  · next htest =>
    simp only [Bool.and_eq_true, decide_eq_true_eq] at htest
    rw [← Option.some.inj h]
    exact htest.2.1
  · exact hreal h

/-- An array or object fits where a level is left for it. -/
theorem fits_contained {levels : Nat} {t : Tree} (h : t.Fits (levels - 1 + 1)) :
    (contained levels t).Fits levels := by
  unfold contained
  cases levels with
  | zero => exact .refused
  | succ n => exact h

/-- An object fits if the values of its fields do. -/
theorem fits_objectOf {n : Nat} {fields : List (Option String × Tree)}
    (h : ∀ f ∈ fields, f.2.Fits n) : (objectOf fields).Fits (n + 1) := by
  unfold objectOf
  split
  · next fs hfs =>
    refine .object fun f hf => ?_
    obtain ⟨g, hg, hgf⟩ := exists_of_mem_mapM hfs hf
    obtain ⟨k, -, rfl⟩ := Option.map_eq_some_iff.mp hgf
    exact h g hg
  · exact .refused

/-- What is read with so much fuel fits into the levels that were left. -/
structure FitsBelow (fuel : Nat) : Prop where
  /-- A value fits. -/
  value : ∀ {levels cs t rest}, scanValue fuel levels cs = some (t, rest) → t.Fits levels
  /-- The items of an array fit. -/
  items : ∀ {levels cs items rest}, scanItems fuel levels cs = some (items, rest) →
    ∀ t ∈ items, t.Fits levels
  /-- The values of the fields of an object fit. -/
  fields : ∀ {levels cs fields rest}, scanFields fuel levels cs = some (fields, rest) →
    ∀ f ∈ fields, f.2.Fits levels

variable {fuel levels : Nat} {cs rest : List Char}

/-- A value fits if the items and fields inside it do. -/
theorem FitsBelow.scanValue (ih : FitsBelow fuel) {t : Tree}
    (h : scanValue (fuel + 1) levels cs = some (t, rest)) : t.Fits levels := by
  rw [scanValue.eq_def] at h
  simp only at h
  split at h
  · cases h
    exact .null
  · cases h
    exact .bool true
  · cases h
    exact .bool false
  · -- A string.
    obtain ⟨⟨ps, left⟩, -, h⟩ := Option.bind_eq_some_iff.mp h
    cases h
    cases stringOf? ps with
    | some s => exact .string s
    | none => exact .refused
  · -- An array.
    split at h
    · cases h
      exact fits_contained (.array (by simp))
    · obtain ⟨⟨items, left⟩, hitems, h⟩ := Option.bind_eq_some_iff.mp h
      cases h
      exact fits_contained (.array (ih.items hitems))
  · -- An object.
    split at h
    · cases h
      exact fits_contained (.object (by simp))
    · obtain ⟨⟨fields, left⟩, hfields, h⟩ := Option.bind_eq_some_iff.mp h
      cases h
      exact fits_contained (fits_objectOf (ih.fields hfields))
  · -- A number.
    obtain ⟨⟨l, left⟩, -, h⟩ := Option.bind_eq_some_iff.mp h
    cases h
    cases hx : l.number? with
    | some x => exact .number ⟨printable_of_number? hx, by simp⟩
    | none => exact .refused

/-- Items fit if each of them does. -/
theorem FitsBelow.scanItems (ih : FitsBelow fuel) {items : List Tree}
    (h : scanItems (fuel + 1) levels cs = some (items, rest)) : ∀ t ∈ items, t.Fits levels := by
  rw [Reader.scanItems] at h
  obtain ⟨⟨item, left⟩, hitem, h⟩ := Option.bind_eq_some_iff.mp h
  have hfirst := ih.value hitem
  dsimp only at h
  split at h
  · cases h
    intro t ht
    rw [List.mem_singleton.mp ht]
    exact hfirst
  · obtain ⟨⟨others, left⟩, hothers, h⟩ := Option.bind_eq_some_iff.mp h
    cases h
    exact List.forall_mem_cons.mpr ⟨hfirst, ih.items hothers⟩
  · cases h

/-- Fields fit if the value of each of them does. -/
theorem FitsBelow.scanFields (ih : FitsBelow fuel) {fields : List (Option String × Tree)}
    (h : scanFields (fuel + 1) levels cs = some (fields, rest)) :
    ∀ f ∈ fields, f.2.Fits levels := by
  rw [scanFields.eq_def] at h
  simp only at h
  -- A field is a quoted key, a colon and a value, with a comma or the end behind it.
  split at h
  · obtain ⟨⟨ps, left⟩, -, h⟩ := Option.bind_eq_some_iff.mp h
    dsimp only at h
    split at h
    · obtain ⟨⟨value, left⟩, hvalue, h⟩ := Option.bind_eq_some_iff.mp h
      have hfirst := ih.value hvalue
      dsimp only at h
      split at h
      · cases h
        intro f hf
        rw [List.mem_singleton.mp hf]
        exact hfirst
      · obtain ⟨⟨others, left⟩, hothers, h⟩ := Option.bind_eq_some_iff.mp h
        cases h
        exact List.forall_mem_cons.mpr ⟨hfirst, ih.fields hothers⟩
      · cases h
    · cases h
  · cases h

/-- What is read fits into the levels that were left. -/
theorem fitsBelow (fuel : Nat) : FitsBelow fuel := by
  induction fuel with
  | zero =>
    refine ⟨fun h => ?_, fun h => ?_, fun h => ?_⟩
    · rw [scanValue] at h
      cases h
    · rw [scanItems] at h
      cases h
    · rw [scanFields] at h
      cases h
  | succ fuel ih => exact ⟨ih.scanValue, ih.scanItems, ih.scanFields⟩

end Reader

/-- What a text says fits into the levels that the reader follows. -/
theorem Tree.fits_of_ofText? {text : String} {t : Tree} (h : ofText? text = some t) :
    t.Fits Reader.maxNesting := by
  unfold ofText? Reader.read at h
  split at h
  · next t' rest hscan =>
    split at h
    · cases h
      exact (Reader.fitsBelow _).value hscan
    · cases h
  · cases h

/-- Fields that are sorted are the same fields. -/
theorem mem_of_mem_sortFields {fields : List (String × Json)} {f : String × Json}
    (h : f ∈ sortFields fields) : f ∈ fields := by
  rw [sortFields, ← Table.entries_ofList] at h
  exact Table.mem_of_mem_ofList h

/-- Sorted fields ascend. -/
theorem pairwise_sortFields (fields : List (String × Json)) :
    (sortFields fields).Pairwise fun f g => f.1 < g.1 := by
  rw [sortFields, ← Table.entries_ofList]
  exact (Table.ofList fields).sorted

/-- Items are sorted if each of them is. -/
theorem sortedItems_of_forall {items : List Json} (h : ∀ x ∈ items, x.Sorted) :
    SortedItems items := by
  induction items with
  | nil => trivial
  | cons x xs ih => exact ⟨h x List.mem_cons_self, ih fun y hy => h y (List.mem_cons_of_mem _ hy)⟩

/-- The values of fields are sorted if each of them is. -/
theorem sortedFields_of_forall {fields : List (String × Json)} (h : ∀ f ∈ fields, f.2.Sorted) :
    SortedFields fields := by
  induction fields with
  | nil => trivial
  | cons f fs ih => exact ⟨h f List.mem_cons_self, ih fun g hg => h g (List.mem_cons_of_mem _ hg)⟩

/-- The items of a sorted array are sorted. -/
theorem sorted_of_mem_items {items : List Json} (h : SortedItems items) :
    ∀ x ∈ items, x.Sorted := by
  induction items with
  | nil => exact fun x hx => by cases hx
  | cons y ys ih => exact List.forall_mem_cons.mpr ⟨h.1, ih h.2⟩

/-- The values of the fields of a sorted object are sorted. -/
theorem sorted_of_mem_fields {fields : List (String × Json)} (h : SortedFields fields) :
    ∀ f ∈ fields, f.2.Sorted := by
  induction fields with
  | nil => exact fun f hf => by cases hf
  | cons g gs ih => exact List.forall_mem_cons.mpr ⟨h.1, ih h.2⟩

namespace Tree

variable {exact : Bool}

/-- The values of items come from the items. -/
theorem exists_of_mem_itemsToJson? {items : List Tree} {vs : List Json}
    (h : itemsToJson? items = some vs) {v : Json} (hv : v ∈ vs) :
    ∃ t ∈ items, t.toJson? = some v := by
  induction items generalizing vs with
  | nil =>
    cases h
    cases hv
  | cons t ts ih =>
    rw [itemsToJson?] at h
    obtain ⟨w, hw, h⟩ := Option.bind_eq_some_iff.mp h
    obtain ⟨ws, hws, h⟩ := Option.bind_eq_some_iff.mp h
    cases h
    rcases List.mem_cons.mp hv with rfl | hv
    · exact ⟨t, List.mem_cons_self, hw⟩
    · obtain ⟨u, hu, huv⟩ := ih hws hv
      exact ⟨u, List.mem_cons_of_mem _ hu, huv⟩

/-- The values of fields come from the fields. -/
theorem exists_of_mem_fieldsToJson? {fields : List (String × Tree)} {fs : List (String × Json)}
    (h : fieldsToJson? fields = some fs) {f : String × Json} (hf : f ∈ fs) :
    ∃ g ∈ fields, g.2.toJson? = some f.2 := by
  induction fields generalizing fs with
  | nil =>
    cases h
    cases hf
  | cons g gs ih =>
    rw [fieldsToJson?] at h
    obtain ⟨w, hw, h⟩ := Option.bind_eq_some_iff.mp h
    obtain ⟨ws, hws, h⟩ := Option.bind_eq_some_iff.mp h
    cases h
    rcases List.mem_cons.mp hf with rfl | hf
    · exact ⟨g, List.mem_cons_self, hw⟩
    · obtain ⟨u, hu, huf⟩ := ih hws hf
      exact ⟨u, List.mem_cons_of_mem _ hu, huf⟩

/-- A tree stands for a sorted value, which fits where the tree does. -/
theorem Within.toJson? {n : Nat} {t : Tree} (h : t.Within exact n) {v : Json}
    (hv : t.toJson? = some v) :
    v.Sorted ∧ v.Within exact n := by
  induction h generalizing v with
  | null =>
    cases hv
    exact ⟨trivial, fits_null⟩
  | bool b =>
    cases hv
    exact ⟨trivial, fits_bool b⟩
  | number h =>
    cases hv
    exact ⟨trivial, h, Nat.zero_le _⟩
  | string s =>
    cases hv
    exact ⟨trivial, fits_string s⟩
  | refused => cases hv
  | @array n items _ ih =>
    obtain ⟨vs, hvs, rfl⟩ := Option.map_eq_some_iff.mp hv
    have hall : ∀ x ∈ vs, x.Sorted ∧ x.Within exact n := by
      intro x hx
      obtain ⟨t, ht, htx⟩ := exists_of_mem_itemsToJson? hvs hx
      exact ih t ht htx
    exact ⟨sortedItems_of_forall fun x hx => (hall x hx).1, fits_array fun x hx => (hall x hx).2⟩
  | @object n fields _ ih =>
    -- Sorting the fields moves them, but their values come from the same trees.
    obtain ⟨fs, hfs, rfl⟩ := Option.map_eq_some_iff.mp hv
    have hall : ∀ f ∈ sortFields fs, f.2.Sorted ∧ f.2.Within exact n := by
      intro f hf
      obtain ⟨g, hg, hgf⟩ := exists_of_mem_fieldsToJson? hfs (mem_of_mem_sortFields hf)
      exact ih g hg hgf
    exact ⟨⟨pairwise_sortFields fs, sortedFields_of_forall fun f hf => (hall f hf).1⟩,
      fits_object fun f hf => (hall f hf).2⟩

mutual

/-- The tree of a value fits where the value does. -/
theorem fits_toTree {n : Nat} : ∀ {v : Json}, v.Held exact → v.depth ≤ n → v.toTree.Within exact n
  | .null, _, _ => .null
  | .bool b, _, _ => .bool b
  | .number _, h, _ => .number h
  | .string s, _, _ => .string s
  | .array items, h, hn => by
    obtain ⟨m, rfl⟩ := Nat.exists_eq_add_one.mpr (lt_of_lt_of_le (Nat.succ_pos _) hn)
    exact .array (fits_itemsToTree h (Nat.le_of_succ_le_succ hn))
  | .object fields, h, hn => by
    obtain ⟨m, rfl⟩ := Nat.exists_eq_add_one.mpr (lt_of_lt_of_le (Nat.succ_pos _) hn)
    exact .object (fits_fieldsToTree h (Nat.le_of_succ_le_succ hn))

/-- `fits_toTree` for the items of an array. -/
theorem fits_itemsToTree {n : Nat} : ∀ {items : List Json}, HeldItems exact items →
    itemsDepth items ≤ n → ∀ t ∈ itemsToTree items, t.Within exact n
  | [], _, _, _, ht => by cases ht
  | _ :: _, h, hn, t, ht => by
    rcases List.mem_cons.mp ht with rfl | ht
    · exact fits_toTree h.1 (le_trans (le_max_left _ _) hn)
    · exact fits_itemsToTree h.2 (le_trans (le_max_right _ _) hn) t ht

/-- `fits_toTree` for the fields of an object. -/
theorem fits_fieldsToTree {n : Nat} : ∀ {fields : List (String × Json)}, HeldFields exact fields →
    fieldsDepth fields ≤ n → ∀ f ∈ fieldsToTree fields, f.2.Within exact n
  | [], _, _, _, hf => by cases hf
  | _ :: _, h, hn, f, hf => by
    rcases List.mem_cons.mp hf with rfl | hf
    · exact fits_toTree h.1 (le_trans (le_max_left _ _) hn)
    · exact fits_fieldsToTree h.2 (le_trans (le_max_right _ _) hn) f hf

end

/-- A tree that fits also fits where there are more levels. -/
theorem Within.mono {m n : Nat} {t : Tree} (h : t.Within exact m) (hmn : m ≤ n) :
    t.Within exact n := by
  induction h generalizing n with
  | null => exact .null
  | bool b => exact .bool b
  | number h => exact .number h
  | string s => exact .string s
  | refused => exact .refused
  | @array m items _ ih =>
    obtain ⟨k, rfl⟩ : ∃ k, n = k + 1 := ⟨n - 1, by omega⟩
    exact .array fun t ht => ih t ht (by omega)
  | @object m fields _ ih =>
    obtain ⟨k, rfl⟩ : ∃ k, n = k + 1 := ⟨n - 1, by omega⟩
    exact .object fun f hf => ih f hf (by omega)

/-! ### What lies inside a tree -/

/-- One tree is an item of another one or the value of a field of it. -/
inductive Inside : Tree → Tree → Prop where
  | item {t : Tree} {items : List Tree} (h : t ∈ items) : Inside t (.array items)
  | field {f : String × Tree} {fields : List (String × Tree)} (h : f ∈ fields) :
    Inside f.2 (.object fields)

/-- What lies inside a tree has one level less. -/
theorem Within.inside {n : Nat} {t u : Tree} (h : t.Within exact (n + 1)) (hu : u.Inside t) :
    u.Within exact n := by
  cases hu with
  | item hmem =>
    cases h with
    | array h => exact h u hmem
  | field hmem =>
    cases h with
    | object h => exact h _ hmem

/-- A tree with something inside has a level. -/
theorem Within.pos_of_inside {n : Nat} {t u : Tree} (h : t.Within exact n) (hu : u.Inside t) :
    0 < n := by
  cases hu <;> cases h <;> exact Nat.succ_pos _

/-- What lies inside a tree fits where one level is gone. -/
theorem Within.of_inside {n : Nat} {t u : Tree} (h : t.Within exact n) (hu : u.Inside t) :
    u.Within exact (n - 1) := by
  obtain ⟨m, rfl⟩ := Nat.exists_eq_add_one.mpr (h.pos_of_inside hu)
  exact h.inside hu

/-- What lies inside a tree is smaller. -/
theorem sizeOf_lt_of_inside {t u : Tree} (hu : u.Inside t) : sizeOf u < sizeOf t := by
  cases hu with
  | item hmem =>
    have hlt := List.sizeOf_lt_of_mem hmem
    rw [array.sizeOf_spec]
    omega
  | @field f fields hmem =>
    have hlt := List.sizeOf_lt_of_mem hmem
    have hsize : sizeOf f = 1 + sizeOf f.1 + sizeOf f.2 := rfl
    rw [object.sizeOf_spec]
    omega

/-- A property that a tree has if all that lies inside it has it is one of every tree. -/
@[elab_as_elim]
theorem inside_induction {motive : Tree → Prop}
    (tree : ∀ t, (∀ u, u.Inside t → motive u) → motive t) (t : Tree) : motive t :=
  tree t fun u hu =>
    have _hlt := sizeOf_lt_of_inside hu
    inside_induction tree u
termination_by sizeOf t

/-- The values of a record lie inside the tree. -/
theorem inside_of_record? {t : Tree} {names : List String} {least : Nat} {r : Record Tree}
    (h : t.record? names least = some r) : ∀ f ∈ r.fields, f.2.Inside t := by
  unfold record? at h
  split at h
  · cases h
    exact fun f hf => .field hf
  · split at h
    · cases h
      exact fun f hf => .item (List.of_mem_zip hf).2
    · cases h
  · cases h

/-- A tree with fields is the object of these fields. -/
theorem eq_object_of_objectFields? {t : Tree} {fields : List (String × Tree)}
    (h : t.objectFields? = some fields) : t = .object fields := by
  unfold objectFields? at h
  split at h
  · rw [Option.some.inj h]
  · cases h

/-- The fields of an object lie inside the tree. -/
theorem inside_of_objectFields? {t : Tree} {fields : List (String × Tree)}
    (h : t.objectFields? = some fields) : ∀ f ∈ fields, f.2.Inside t := by
  obtain rfl := eq_object_of_objectFields? h
  exact fun f hf => .field hf

/-- The entries of a table were read from fields with the same names. -/
theorem exists_field_of_table? {α : Type} {fields : List (String × Tree)} {read : Tree → Option α}
    {table : Table α} (h : (Tree.object fields).table? read = some table) {e : String × α}
    (he : e ∈ table.entries) : ∃ f ∈ fields, f.1 = e.1 ∧ read f.2 = some e.2 := by
  obtain ⟨es, hes, rfl⟩ := Option.map_eq_some_iff.mp h
  obtain ⟨f, hf, hfe⟩ := exists_of_mem_mapM hes (Table.mem_of_mem_ofList he)
  obtain ⟨x, hx, rfl⟩ := Option.map_eq_some_iff.mp hfe
  exact ⟨f, hf, rfl, hx⟩

/-- The values of a table were read from what lies inside the tree. -/
theorem exists_inside_of_table? {α : Type} {t : Tree} {read : Tree → Option α} {table : Table α}
    (h : t.table? read = some table) {e : String × α} (he : e ∈ table.entries) :
    ∃ u : Tree, u.Inside t ∧ read u = some e.2 := by
  cases t with
  | object fields =>
    obtain ⟨f, hf, -, hx⟩ := exists_field_of_table? h he
    exact ⟨f.2, .field hf, hx⟩
  | null => cases h
  | bool _ => cases h
  | number _ => cases h
  | string _ => cases h
  | array _ => cases h
  | refused => cases h

end Tree

end TextAdventure.Json
