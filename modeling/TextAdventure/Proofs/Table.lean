import TextAdventure.Table
import Mathlib.Data.List.Basic

/-!
# Looking up in tables

A table is determined by its look-ups (`ext_get?`), and each operation is described by what it does
to them: `insert` sets one key (`get?_insert`), `erase` clears one (`get?_erase`), `modify` and
`map` change values and no keys. Since the entries are sorted, setting a value that is there already
changes nothing (`insert_eq_self`), and a table is built again from the list of its entries
(`ofList_entries`).
-/

namespace TextAdventure.Table

variable {α β : Type}

/-- Looking up in a list of entries, one entry at a time. -/
theorem lookup_cons_eq (key k : String) (v : α) (es : List (String × α)) :
    ((k, v) :: es).lookup key = if key = k then some v else es.lookup key := by
  rw [List.lookup_cons]
  by_cases h : key = k
  · rw [if_pos h, h, beq_self_eq_true]
  · rw [if_neg h, beq_false_of_ne h]

/-- Setting a key of a list changes its own look-up and no other. -/
theorem lookup_insertEntry (key key' : String) (value : α) (es : List (String × α)) :
    (insertEntry key value es).lookup key' = if key' = key then some value else es.lookup key' := by
  induction es with
  | nil => rw [insertEntry, lookup_cons_eq]
  | cons e es ih =>
    obtain ⟨k, v⟩ := e
    rw [insertEntry]
    -- The new entry goes in front of this one, replaces it, or goes behind it.
    split
    · rw [lookup_cons_eq]
    · split
      · next h =>
        have hk : key = k := h
        rw [lookup_cons_eq, lookup_cons_eq, hk]
        split_ifs <;> rfl
      · next h =>
        have hk : key ≠ k := h
        rw [lookup_cons_eq, ih, lookup_cons_eq]
        split_ifs with h1 h2
        · exact absurd (h2.symm.trans h1) hk
        · rfl
        · rfl
        · rfl

/-- Setting a key changes its own look-up and no other. -/
theorem get?_insert (t : Table α) (key key' : String) (value : α) :
    (t.insert key value).get? key' = if key' = key then some value else t.get? key' :=
  lookup_insertEntry key key' value t.entries

/-- A key that was set has its value. -/
@[simp]
theorem get?_insert_self (t : Table α) (key : String) (value : α) :
    (t.insert key value).get? key = some value := by
  rw [get?_insert, if_pos rfl]

/-- A key that was set is there. -/
@[simp]
theorem contains_insert (t : Table α) (key key' : String) (value : α) :
    (t.insert key value).contains key' = (decide (key' = key) || t.contains key') := by
  unfold contains
  rw [get?_insert]
  by_cases h : key' = key <;> simp [h]

/-- Applying a function to the value of a key changes its own look-up and no other. -/
theorem get?_modify (t : Table α) (key key' : String) (f : α → α) :
    (t.modify key f).get? key' = (t.get? key').map fun a => if key' = key then f a else a := by
  obtain ⟨es, _⟩ := t
  show (es.map fun e => (e.1, if e.1 = key then f e.2 else e.2)).lookup key' =
    (es.lookup key').map fun a => if key' = key then f a else a
  clear * -
  induction es with
  | nil => rfl
  | cons e es ih =>
    obtain ⟨k, v⟩ := e
    rw [List.map_cons, lookup_cons_eq, lookup_cons_eq]
    by_cases h : key' = k
    · rw [if_pos h, if_pos h, Option.map_some, h]
    · rw [if_neg h, if_neg h, ih]

/-- A value that is looked up stands beside its key. -/
theorem mem_of_lookup {es : List (String × α)} {key : String} {value : α}
    (h : es.lookup key = some value) : (key, value) ∈ es := by
  obtain ⟨l₁, l₂, hl, -⟩ := List.lookup_eq_some_iff.mp h
  rw [hl]
  simp

/-- A value found for a key stands in an entry. -/
theorem mem_of_get? {t : Table α} {key : String} {value : α} (h : t.get? key = some value) :
    (key, value) ∈ t.entries :=
  mem_of_lookup h

/-- The value of an entry is found for its key, since no key stands in two entries. -/
theorem get?_of_mem {t : Table α} {key : String} {value : α} (h : (key, value) ∈ t.entries) :
    t.get? key = some value := by
  obtain ⟨es, hs⟩ := t
  unfold get?
  induction es with
  | nil => simp at h
  | cons e es ih =>
    obtain ⟨he, hes⟩ := List.pairwise_cons.mp hs
    obtain ⟨k, v⟩ := e
    rw [lookup_cons_eq]
    rcases List.mem_cons.mp h with heq | hmem
    · obtain ⟨rfl, rfl⟩ := Prod.ext_iff.mp heq
      rw [if_pos rfl]
    · have hne : key ≠ k := by
        rintro rfl
        exact String.lt_irrefl _ (he (key, value) hmem)
      rw [if_neg hne]
      exact ih hes hmem

/-- Tables with the same entries are equal. -/
theorem ext_entries {s t : Table α} (h : s.entries = t.entries) : s = t := by
  obtain ⟨es, _⟩ := s
  obtain ⟨fs, _⟩ := t
  cases h
  rfl

/-- No key occurs twice. -/
theorem nodup_keys (t : Table α) : (t.entries.map Prod.fst).Nodup := by
  refine List.pairwise_map.mpr (t.sorted.imp fun {a b} hlt (heq : a.1 = b.1) => ?_)
  rw [heq] at hlt
  exact String.lt_irrefl _ hlt

/-- Tables with the same look-ups are equal. -/
theorem ext_get? {s t : Table α} (h : ∀ key, s.get? key = t.get? key) : s = t := by
  have hnodup : ∀ r : Table α, r.entries.Nodup := fun r =>
    (List.pairwise_map.mp r.nodup_keys).imp fun hne heq => hne (congrArg Prod.fst heq)
  have hmem : ∀ e, e ∈ s.entries ↔ e ∈ t.entries := fun e =>
    ⟨fun he => mem_of_get? (h e.1 ▸ get?_of_mem he),
      fun he => mem_of_get? ((h e.1).symm ▸ get?_of_mem he)⟩
  -- Two ascending lists with the same members have them in the same order.
  have hperm := (List.perm_ext_iff_of_nodup (hnodup s) (hnodup t)).mpr hmem
  exact ext_entries (hperm.eq_of_pairwise
    (fun _ _ _ _ hab hba => absurd hba (String.lt_asymm hab)) s.sorted t.sorted)

/-- Clearing a key clears its own look-up and no other. -/
theorem get?_erase (t : Table α) (key key' : String) :
    (t.erase key).get? key' = if key' = key then none else t.get? key' := by
  obtain ⟨es, _⟩ := t
  show (es.filter fun e => e.1 != key).lookup key' = if key' = key then none else es.lookup key'
  clear * -
  induction es with
  | nil => split_ifs <;> rfl
  | cons e es ih =>
    obtain ⟨k, v⟩ := e
    rw [List.filter_cons, lookup_cons_eq]
    by_cases hk : k = key
    · simp only [hk, bne_self_eq_false, Bool.false_eq_true, if_false]
      rw [ih]
      split_ifs <;> rfl
    · simp only [bne_iff_ne.mpr hk, if_true]
      rw [lookup_cons_eq, ih]
      split_ifs with h1 h2
      · exact absurd (h1.symm.trans h2) hk
      all_goals rfl

/-- The table that has at one key what `t` has, and at all others what `others` has. -/
def laidOver (t : Table α) (key : String) (others : Table α) : Table α :=
  match t.get? key with
  | some value => others.insert key value
  | none => others.erase key

/-- What a table says over another one. -/
theorem get?_laidOver (t others : Table α) (key key' : String) :
    (t.laidOver key others).get? key' = if key' = key then t.get? key else others.get? key' := by
  unfold laidOver
  cases t.get? key with
  | some value => exact get?_insert others key key' value
  | none => exact get?_erase others key key'

/-- Over itself a table says what it says. -/
@[simp]
theorem laidOver_self (t : Table α) (key : String) : t.laidOver key t = t :=
  ext_get? fun key' => by
    rw [get?_laidOver]
    split_ifs with h
    · rw [h]
    · rfl

/-- Setting the one key of a table over another one. -/
theorem laidOver_insert (t others : Table α) (key : String) (value : α) :
    (t.laidOver key others).insert key value = (t.insert key value).laidOver key others :=
  ext_get? fun key' => by
    rw [get?_insert, get?_laidOver, get?_laidOver, get?_insert_self]
    split_ifs <;> rfl

/-- Clearing the one key of a table over another one. -/
theorem laidOver_erase (t others : Table α) (key : String) :
    (t.laidOver key others).erase key = (t.erase key).laidOver key others :=
  ext_get? fun key' => by
    rw [get?_erase, get?_laidOver, get?_laidOver, get?_erase, if_pos rfl]
    split_ifs <;> rfl

/-- Setting a key of an ascending list to the value that it has changes nothing. -/
theorem insertEntry_eq_self {key : String} {value : α} :
    ∀ {es : List (String × α)}, es.Pairwise (fun a b => a.1 < b.1) → (key, value) ∈ es →
      insertEntry key value es = es
  | [], _, h => by simp at h
  | (k, v) :: es, hs, h => by
    obtain ⟨he, hes⟩ := List.pairwise_cons.mp hs
    rcases List.mem_cons.mp h with heq | hmem
    · obtain ⟨rfl, rfl⟩ : key = k ∧ value = v := Prod.ext_iff.mp heq
      rw [insertEntry, if_neg (String.lt_irrefl _), if_pos rfl]
    · have hlt : k < key := he _ hmem
      have hne : key ≠ k := by
        rintro rfl
        exact String.lt_irrefl _ hlt
      rw [insertEntry, if_neg (String.lt_asymm hlt), if_neg hne, insertEntry_eq_self hes hmem]

/-- Setting a key to the value that it has changes nothing. -/
theorem insert_eq_self {t : Table α} {key : String} {value : α} (h : t.get? key = some value) :
    t.insert key value = t :=
  ext_entries (insertEntry_eq_self t.sorted (mem_of_get? h))

/-- A key above all keys of a list is set at its end. -/
theorem insertEntry_of_forall_lt {key : String} {value : α} {es : List (String × α)}
    (h : ∀ e ∈ es, e.1 < key) : insertEntry key value es = es ++ [(key, value)] := by
  induction es with
  | nil => rfl
  | cons e es ih =>
    have hlt : e.1 < key := h e List.mem_cons_self
    have hne : key ≠ e.1 := by
      rintro rfl
      exact String.lt_irrefl _ hlt
    rw [insertEntry, if_neg (String.lt_asymm hlt), if_neg hne,
      ih fun d hd => h d (List.mem_cons_of_mem _ hd)]
    rfl

/-- Setting the keys of an ascending list one after the other, on top of smaller keys, puts the list
behind them. -/
theorem foldl_insertEntry {es fs : List (String × α)}
    (h : (fs ++ es).Pairwise fun a b => a.1 < b.1) :
    es.foldl (fun s e => insertEntry e.1 e.2 s) fs = fs ++ es := by
  induction es generalizing fs with
  | nil => simp
  | cons e es ih =>
    have hlt : ∀ d ∈ fs, d.1 < e.1 := fun d hd =>
      (List.pairwise_append.mp h).2.2 d hd e List.mem_cons_self
    have h' : ((fs ++ [e]) ++ es).Pairwise fun a b => a.1 < b.1 := by
      rw [List.append_assoc]
      exact h
    rw [List.foldl_cons, insertEntry_of_forall_lt hlt, ih h', List.append_assoc]
    rfl

/-- The entries of the table of a list. -/
theorem entries_ofList (es : List (String × α)) :
    (ofList es).entries = es.foldl (fun s e => insertEntry e.1 e.2 s) [] := by
  have hfold : ∀ t : Table α, (es.foldl (fun t e => t.insert e.1 e.2) t).entries =
      es.foldl (fun s e => insertEntry e.1 e.2 s) t.entries := by
    induction es with
    | nil => intro t; rfl
    | cons e es ih => intro t; exact ih _
  exact hfold empty

/-- An entry of a list with a key set is the new one or one of the list. -/
theorem mem_of_mem_insertEntry {key : String} {value : α} {e : String × α} :
    ∀ {es : List (String × α)}, e ∈ insertEntry key value es → e = (key, value) ∨ e ∈ es := by
  intro es
  induction es with
  | nil => exact fun h => .inl (List.mem_singleton.mp h)
  | cons d ds ih =>
    intro h
    rw [insertEntry] at h
    split at h
    · rcases List.mem_cons.mp h with rfl | h
      · exact .inl rfl
      · exact .inr h
    · split at h
      · rcases List.mem_cons.mp h with rfl | h
        · exact .inl rfl
        · exact .inr (List.mem_cons_of_mem _ h)
      · rcases List.mem_cons.mp h with rfl | h
        · exact .inr List.mem_cons_self
        · exact (ih h).imp id (List.mem_cons_of_mem _)

/-- An entry of a table with a key set is the new one or one of the table. -/
theorem mem_of_mem_insert {t : Table α} {key : String} {value : α} {e : String × α}
    (h : e ∈ (t.insert key value).entries) : e = (key, value) ∨ e ∈ t.entries :=
  mem_of_mem_insertEntry h

/-- The entries of the table of a list are entries of the list. -/
theorem mem_of_mem_ofList {es : List (String × α)} {e : String × α}
    (h : e ∈ (ofList es).entries) : e ∈ es := by
  -- Each entry of the fold was there before or comes from the list.
  have hfold : ∀ fs : List (String × α),
      e ∈ es.foldl (fun s d => insertEntry d.1 d.2 s) fs → e ∈ fs ∨ e ∈ es := by
    clear h
    induction es with
    | nil => exact fun fs h => .inl h
    | cons d ds ih =>
      intro fs h
      rcases ih _ h with h | h
      · rcases mem_of_mem_insertEntry h with rfl | h
        · exact .inr List.mem_cons_self
        · exact .inl h
      · exact .inr (List.mem_cons_of_mem _ h)
  rw [entries_ofList] at h
  rcases hfold [] h with h | h
  · cases h
  · exact h

/-- The keys of a table are those that have a value. -/
theorem mem_keys {t : Table α} {key : String} : key ∈ t.keys ↔ t.contains key = true := by
  unfold contains keys
  rw [Option.isSome_iff_exists, List.mem_map]
  constructor
  · rintro ⟨e, he, rfl⟩
    exact ⟨e.2, get?_of_mem he⟩
  · rintro ⟨value, hvalue⟩
    exact ⟨(key, value), mem_of_get? hvalue, rfl⟩

/-- The table of a list has for each key the last of its values. -/
theorem get?_ofList (es : List (String × α)) (key : String) :
    (ofList es).get? key = es.reverse.lookup key := by
  -- The induction is from the last value, which stands in front when the list is turned round.
  rw [← es.reverse_reverse]
  generalize es.reverse = fs
  rw [fs.reverse_reverse]
  unfold ofList
  induction fs with
  | nil => rfl
  | cons e fs ih =>
    rw [List.reverse_cons, List.foldl_append, lookup_cons_eq, ← ih]
    exact get?_insert _ _ _ _

/-- A key of the table of a list is one of the list. -/
theorem contains_ofList {es : List (String × α)} {key : String} :
    (ofList es).contains key = true ↔ ∃ value, (key, value) ∈ es := by
  unfold contains
  rw [get?_ofList, List.lookup_isSome_iff]
  simp

/-- A table of values under their own ids has all of them, if no two have the same id. -/
theorem get?_ofList_map {idOf : α → String} {xs : List α}
    (hinj : ∀ x ∈ xs, ∀ y ∈ xs, idOf x = idOf y → x = y) {key : String} {x : α} :
    (ofList (xs.map fun x => (idOf x, x))).get? key = some x ↔ x ∈ xs ∧ idOf x = key := by
  have hmem : ∀ {key x}, (ofList (xs.map fun x => (idOf x, x))).get? key = some x →
      x ∈ xs ∧ idOf x = key := by
    intro key x h
    obtain ⟨y, hy, heq⟩ := List.mem_map.mp (mem_of_mem_ofList (mem_of_get? h))
    cases heq
    exact ⟨hy, rfl⟩
  refine ⟨hmem, ?_⟩
  rintro ⟨hx, rfl⟩
  have hthere : (ofList (xs.map fun x => (idOf x, x))).contains (idOf x) = true :=
    contains_ofList.mpr ⟨x, List.mem_map.mpr ⟨x, hx, rfl⟩⟩
  obtain ⟨y, hy⟩ := Option.isSome_iff_exists.mp hthere
  obtain ⟨hymem, hid⟩ := hmem hy
  rw [hy, hinj y hymem x hx hid]

/-- A table is built again from its entries. -/
@[simp]
theorem ofList_entries (t : Table α) : ofList t.entries = t := by
  apply ext_entries
  rw [entries_ofList, foldl_insertEntry t.sorted]
  rfl

end TextAdventure.Table

namespace TextAdventure.IdSet

/-- An id that was added is in the set. -/
theorem contains_add (s : IdSet) (id id' : String) :
    (s.add id).contains id' = (decide (id' = id) || s.contains id') :=
  Table.contains_insert s id id' ()

/-- Adding an id that is in the set changes nothing. -/
theorem add_eq_self {s : IdSet} {id : String} (h : s.contains id = true) : s.add id = s := by
  obtain ⟨u, hu⟩ := Option.isSome_iff_exists.mp h
  exact Table.insert_eq_self hu

/-- The ids of the set of a list are those of the list. -/
theorem mem_keys_ofIds {ids : List String} {id : String} : id ∈ (ofIds ids).keys ↔ id ∈ ids := by
  rw [Table.mem_keys, ofIds, Table.contains_ofList]
  simp

/-- A set is built again from its ids. -/
@[simp]
theorem ofIds_keys (s : IdSet) : IdSet.ofIds s.keys = s := by
  unfold IdSet.ofIds Table.keys
  rw [List.map_map]
  exact (congrArg Table.ofList (List.map_id' s.entries)).trans (Table.ofList_entries s)

end TextAdventure.IdSet
