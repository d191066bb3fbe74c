/-!
# Tables sorted by key

A `Table` gives a value to each of finitely many strings. Its entries are sorted by key, in the
order of code points, and no key occurs twice; so two tables with the same look-ups are equal, and a
table is written in one order only. An `IdSet` is a table that has nothing to say about its keys.
-/

namespace TextAdventure

/-- A finite map from strings, as a list of entries in the order of the keys. -/
structure Table (α : Type) where
  entries : List (String × α)
  /-- The keys ascend. -/
  sorted : entries.Pairwise fun a b => a.1 < b.1
  deriving DecidableEq

namespace Table

variable {α β : Type}

/-- A list of ascending entries with a value set for a key. -/
def insertEntry (key : String) (value : α) : List (String × α) → List (String × α)
  | [] => [(key, value)]
  | e :: es =>
    if key < e.1 then (key, value) :: e :: es
    else if key = e.1 then (key, value) :: es
    else e :: insertEntry key value es

/-- Setting a value brings in no key but its own. -/
theorem key_of_mem_insertEntry {key : String} {value : α} {e : String × α} :
    ∀ {es : List (String × α)}, e ∈ insertEntry key value es → e.1 = key ∨ e ∈ es := by
  intro es
  induction es with
  | nil =>
    intro h
    simp only [insertEntry, List.mem_singleton] at h
    exact .inl (by rw [h])
  | cons d ds ih =>
    intro h
    rw [insertEntry] at h
    split at h
    · rcases List.mem_cons.1 h with rfl | h
      · exact .inl rfl
      · exact .inr h
    · split at h
      · rcases List.mem_cons.1 h with rfl | h
        · exact .inl rfl
        · exact .inr (List.mem_cons_of_mem _ h)
      · rcases List.mem_cons.1 h with rfl | h
        · exact .inr List.mem_cons_self
        · exact (ih h).imp id (List.mem_cons_of_mem _)

/-- Setting a value keeps the keys ascending. -/
theorem sorted_insertEntry (key : String) (value : α) :
    ∀ {es : List (String × α)}, es.Pairwise (fun a b => a.1 < b.1) →
      (insertEntry key value es).Pairwise fun a b => a.1 < b.1 := by
  intro es
  induction es with
  | nil => intro _; simp [insertEntry]
  | cons d ds ih =>
    intro h
    obtain ⟨hd, hds⟩ := List.pairwise_cons.1 h
    rw [insertEntry]
    split
    · next hlt =>
      refine List.pairwise_cons.2 ⟨fun e he => ?_, h⟩
      rcases List.mem_cons.1 he with rfl | he
      · exact hlt
      · exact String.lt_trans hlt (hd e he)
    · next hnlt =>
      split
      · next heq => exact List.pairwise_cons.2 ⟨fun e he => heq ▸ hd e he, hds⟩
      · next hne =>
        refine List.pairwise_cons.2 ⟨fun e he => ?_, ih hds⟩
        rcases key_of_mem_insertEntry he with hk | he
        · rw [hk]
          exact Std.lt_of_le_of_ne (String.not_lt.1 hnlt) (Ne.symm hne)
        · exact hd e he

/-- The table without entries. -/
def empty : Table α := ⟨[], .nil⟩

instance : Inhabited (Table α) := ⟨empty⟩

/-- The table with a value set for a key, whether or not it had one. -/
def insert (t : Table α) (key : String) (value : α) : Table α :=
  ⟨insertEntry key value t.entries, sorted_insertEntry key value t.sorted⟩

/-- The table without a value for a key. -/
def erase (t : Table α) (key : String) : Table α :=
  ⟨t.entries.filter fun e => e.1 != key, t.sorted.filter _⟩

/-- The table with a function applied to the value of a key, if it has one. -/
def modify (t : Table α) (key : String) (f : α → α) : Table α :=
  ⟨t.entries.map fun e => (e.1, if e.1 = key then f e.2 else e.2), List.pairwise_map.2 t.sorted⟩

/-- The value of a key, if it has one. -/
def get? (t : Table α) (key : String) : Option α := t.entries.lookup key

/-- Whether a key has a value. -/
def contains (t : Table α) (key : String) : Bool := (t.get? key).isSome

/-- The keys, in order. -/
def keys (t : Table α) : List String := t.entries.map (·.1)

/-- The values, in the order of their keys. -/
def values (t : Table α) : List α := t.entries.map (·.2)

/-- Whether the table has no entry. -/
def isEmpty (t : Table α) : Bool := t.entries.isEmpty

/-- The table of a list of entries. Of entries with the same key the last counts. -/
def ofList (es : List (String × α)) : Table α := es.foldl (fun t e => t.insert e.1 e.2) empty

/-- The table with a function applied to each value. -/
def map (f : α → β) (t : Table α) : Table β :=
  ⟨t.entries.map fun e => (e.1, f e.2), List.pairwise_map.2 t.sorted⟩

end Table

/-- A finite set of ids. -/
abbrev IdSet := Table Unit

namespace IdSet

/-- The set with one more id. -/
def add (s : IdSet) (id : String) : IdSet := s.insert id ()

/-- The set of the ids of a list. -/
def ofIds (ids : List String) : IdSet := Table.ofList (ids.map fun id => (id, ()))

end IdSet

end TextAdventure
