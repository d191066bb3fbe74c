import TextAdventure.Json.Tree
import TextAdventure.Proofs.Json.Number
import TextAdventure.Proofs.Table

/-!
# Canonical values

The values that texts are read as: `Json.Held` says that a text can hold the numbers of a value, and
`Json.Sorted` that its fields ascend by key. The tree of a value stands for the value with its
fields sorted, `Json.canon` (`toJson?_toTree`), which is the value itself if it was sorted.

Not every floating-point number is read back from its text. `Json.reread` is a value with the
numbers that their texts are read as; where the numbers are held exactly, it is the value itself
(`reread_eq_self`).
-/

namespace TextAdventure.Json

/-- A number that a text can hold: an integer of 64 bits, or any floating-point number. If it has to
be held exactly, it is the number that its text is read as. -/
def Number.Held (exact : Bool) (n : Number) : Prop :=
  n.Printable ∧ (exact = true → n.reread = n)

/-- An integer that a text can hold is held exactly. -/
theorem Number.held_integer {exact : Bool} {n : Int} (hn : (integer n).Printable) :
    (integer n).Held exact := ⟨hn, fun _ => reread_integer hn⟩

mutual

/-- All numbers of a value can be held by a text. -/
def Held (exact : Bool) : Json → Prop
  | .number n => n.Held exact
  | .array items => HeldItems exact items
  | .object fields => HeldFields exact fields
  | _ => True

/-- `Held` for the items of an array. -/
def HeldItems (exact : Bool) : List Json → Prop
  | [] => True
  | x :: xs => Held exact x ∧ HeldItems exact xs

/-- `Held` for the fields of an object. -/
def HeldFields (exact : Bool) : List (String × Json) → Prop
  | [] => True
  | (_, x) :: xs => Held exact x ∧ HeldFields exact xs

end

mutual

/-- How many arrays and objects lie inside each other. -/
def depth : Json → Nat
  | .array items => itemsDepth items + 1
  | .object fields => fieldsDepth fields + 1
  | _ => 0

/-- `depth` for the items of an array. -/
def itemsDepth : List Json → Nat
  | [] => 0
  | x :: xs => max (depth x) (itemsDepth xs)

/-- `depth` for the fields of an object. -/
def fieldsDepth : List (String × Json) → Nat
  | [] => 0
  | (_, x) :: xs => max (depth x) (fieldsDepth xs)

end

mutual

/-- The fields of all objects in a value ascend by key. -/
def Sorted : Json → Prop
  | .array items => SortedItems items
  | .object fields => (fields.Pairwise fun f g => f.1 < g.1) ∧ SortedFields fields
  | _ => True

/-- `Sorted` for the items of an array. -/
def SortedItems : List Json → Prop
  | [] => True
  | x :: xs => Sorted x ∧ SortedItems xs

/-- `Sorted` for the values of the fields of an object. -/
def SortedFields : List (String × Json) → Prop
  | [] => True
  | (_, x) :: xs => Sorted x ∧ SortedFields xs

end

mutual

/-- The value with the numbers that their texts are read as. -/
def reread : Json → Json
  | .number n => .number n.reread
  | .array items => .array (rereadItems items)
  | .object fields => .object (rereadFields fields)
  | v => v

/-- `reread` for the items of an array. -/
def rereadItems : List Json → List Json
  | [] => []
  | x :: xs => reread x :: rereadItems xs

/-- `reread` for the values of the fields of an object. -/
def rereadFields : List (String × Json) → List (String × Json)
  | [] => []
  | (k, x) :: xs => (k, reread x) :: rereadFields xs

end

mutual

/-- Numbers that are held exactly stay what they are. -/
theorem reread_eq_self : ∀ {v : Json}, v.Held true → v.reread = v
  | .null, _ => rfl
  | .bool _, _ => rfl
  | .number _, h => congrArg Json.number (h.2 rfl)
  | .string _, _ => rfl
  | .array items, h => by rw [reread, rereadItems_eq_self h]
  | .object fields, h => by rw [reread, rereadFields_eq_self h]

/-- `reread_eq_self` for the items of an array. -/
theorem rereadItems_eq_self : ∀ {items : List Json}, HeldItems true items →
    rereadItems items = items
  | [], _ => rfl
  | x :: xs, h => by rw [rereadItems, reread_eq_self h.1, rereadItems_eq_self h.2]

/-- `reread_eq_self` for the fields of an object. -/
theorem rereadFields_eq_self : ∀ {fields : List (String × Json)}, HeldFields true fields →
    rereadFields fields = fields
  | [], _ => rfl
  | (k, x) :: xs, h => by rw [rereadFields, reread_eq_self h.1, rereadFields_eq_self h.2]

end

/-- Items are read one by one. -/
theorem rereadItems_eq_map (items : List Json) : rereadItems items = items.map reread := by
  induction items with
  | nil => rfl
  | cons x xs ih => rw [rereadItems, ih, List.map_cons]

/-- The values of fields are read one by one. -/
theorem rereadFields_eq_map (fields : List (String × Json)) :
    rereadFields fields = fields.map fun f => (f.1, f.2.reread) := by
  induction fields with
  | nil => rfl
  | cons f fs ih => rw [rereadFields, ih, List.map_cons]

/-- The number that a text is read as can be held by a text. -/
theorem Number.Printable.reread : ∀ {n : Number}, n.Printable → n.reread.Printable
  | .integer _, h => by rwa [reread_integer h]
  | .real x, _ => by
    obtain ⟨y, hy⟩ := exists_reread_real x
    rw [hy]
    trivial

mutual

/-- The numbers that texts are read as can be held by texts. -/
theorem Held.reread : ∀ {v : Json}, v.Held false → v.reread.Held false
  | .null, _ => trivial
  | .bool _, _ => trivial
  | .number _, h => ⟨h.1.reread, by simp⟩
  | .string _, _ => trivial
  | .array _, h => heldItems_reread h
  | .object _, h => heldFields_reread h

/-- `Held.reread` for the items of an array. -/
theorem heldItems_reread : ∀ {items : List Json}, HeldItems false items →
    HeldItems false (rereadItems items)
  | [], _ => trivial
  | _ :: _, h => ⟨h.1.reread, heldItems_reread h.2⟩

/-- `Held.reread` for the fields of an object. -/
theorem heldFields_reread : ∀ {fields : List (String × Json)}, HeldFields false fields →
    HeldFields false (rereadFields fields)
  | [], _ => trivial
  | _ :: _, h => ⟨h.1.reread, heldFields_reread h.2⟩

end

mutual

/-- Numbers have no depth. -/
theorem depth_reread : ∀ v : Json, v.reread.depth = v.depth
  | .null => rfl
  | .bool _ => rfl
  | .number _ => rfl
  | .string _ => rfl
  | .array items => congrArg (· + 1) (itemsDepth_reread items)
  | .object fields => congrArg (· + 1) (fieldsDepth_reread fields)

/-- `depth_reread` for the items of an array. -/
theorem itemsDepth_reread : ∀ items : List Json, itemsDepth (rereadItems items) = itemsDepth items
  | [] => rfl
  | x :: xs => congrArg₂ max (depth_reread x) (itemsDepth_reread xs)

/-- `depth_reread` for the fields of an object. -/
theorem fieldsDepth_reread : ∀ fields : List (String × Json),
    fieldsDepth (rereadFields fields) = fieldsDepth fields
  | [] => rfl
  | (_, x) :: xs => congrArg₂ max (depth_reread x) (fieldsDepth_reread xs)

end

mutual

/-- Fields keep their order, whatever is done to numbers. -/
theorem Sorted.reread : ∀ {v : Json}, v.Sorted → v.reread.Sorted
  | .null, _ => trivial
  | .bool _, _ => trivial
  | .number _, _ => trivial
  | .string _, _ => trivial
  | .array _, h => sortedItems_reread h
  | .object _, h => by
    refine ⟨?_, sortedFields_reread h.2⟩
    rw [rereadFields_eq_map]
    exact List.pairwise_map.mpr h.1

/-- `Sorted.reread` for the items of an array. -/
theorem sortedItems_reread : ∀ {items : List Json}, SortedItems items →
    SortedItems (rereadItems items)
  | [], _ => trivial
  | _ :: _, h => ⟨h.1.reread, sortedItems_reread h.2⟩

/-- `Sorted.reread` for the values of the fields of an object. -/
theorem sortedFields_reread : ∀ {fields : List (String × Json)}, SortedFields fields →
    SortedFields (rereadFields fields)
  | [], _ => trivial
  | (_, _) :: _, h => ⟨h.1.reread, sortedFields_reread h.2⟩

end

/-- Ascending fields are sorted already. -/
theorem sortFields_of_pairwise {fields : List (String × Json)}
    (h : fields.Pairwise fun f g => f.1 < g.1) : sortFields fields = fields :=
  Table.foldl_insertEntry h

mutual

/-- The value with the fields of all objects sorted by key. -/
def canon : Json → Json
  | .array items => .array (canonItems items)
  | .object fields => .object (sortFields (canonFields fields))
  | v => v

/-- `canon` for the items of an array. -/
def canonItems : List Json → List Json
  | [] => []
  | x :: xs => canon x :: canonItems xs

/-- `canon` for the values of the fields of an object. -/
def canonFields : List (String × Json) → List (String × Json)
  | [] => []
  | (k, x) :: xs => (k, canon x) :: canonFields xs

end

mutual

/-- The tree of a value stands for the value with sorted fields. -/
theorem toJson?_toTree : ∀ v : Json, v.toTree.toJson? = some v.canon
  | .null => rfl
  | .bool _ => rfl
  | .number _ => rfl
  | .string _ => rfl
  | .array items => by
    rw [toTree, Tree.toJson?, itemsToJson?_itemsToTree items]
    rfl
  | .object fields => by
    rw [toTree, Tree.toJson?, fieldsToJson?_fieldsToTree fields]
    rfl

/-- `toJson?_toTree` for the items of an array. -/
theorem itemsToJson?_itemsToTree : ∀ items : List Json,
    Tree.itemsToJson? (itemsToTree items) = some (canonItems items)
  | [] => rfl
  | x :: xs => by
    rw [itemsToTree, Tree.itemsToJson?, toJson?_toTree x, itemsToJson?_itemsToTree xs]
    rfl

/-- `toJson?_toTree` for the fields of an object. -/
theorem fieldsToJson?_fieldsToTree : ∀ fields : List (String × Json),
    Tree.fieldsToJson? (fieldsToTree fields) = some (canonFields fields)
  | [] => rfl
  | (k, x) :: xs => by
    rw [fieldsToTree, Tree.fieldsToJson?, toJson?_toTree x, fieldsToJson?_fieldsToTree xs]
    rfl

end

mutual

/-- A sorted value is canonical. -/
theorem canon_eq_self : ∀ {v : Json}, v.Sorted → v.canon = v
  | .null, _ => rfl
  | .bool _, _ => rfl
  | .number _, _ => rfl
  | .string _, _ => rfl
  | .array items, h => by rw [canon, canonItems_eq_self h]
  | .object fields, h => by rw [canon, canonFields_eq_self h.2, sortFields_of_pairwise h.1]

/-- `canon_eq_self` for the items of an array. -/
theorem canonItems_eq_self : ∀ {items : List Json}, SortedItems items → canonItems items = items
  | [], _ => rfl
  | x :: xs, h => by rw [canonItems, canon_eq_self h.1, canonItems_eq_self h.2]

/-- `canon_eq_self` for the fields of an object. -/
theorem canonFields_eq_self : ∀ {fields : List (String × Json)}, SortedFields fields →
    canonFields fields = fields
  | [], _ => rfl
  | (k, x) :: xs, h => by rw [canonFields, canon_eq_self h.1, canonFields_eq_self h.2]

end

end TextAdventure.Json
