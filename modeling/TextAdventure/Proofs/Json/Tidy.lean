import TextAdventure.Proofs.Document
import TextAdventure.Proofs.Json.Scan

/-!
# Texts without repeated keys

A tree is tidy if no object in it has a repeated key, if each of its numbers is the one that its
text is read as, and if it stays within some levels of nesting (`Tree.Tidy`). A tidy tree that
stands for a value has the same parts as the tree of this value, up to the order of fields
(`Tree.settled_array`, `Tree.settled_object`), so a reader that does not look at that order reads
the same from both.
-/

namespace TextAdventure.Json

/-! ### Levels of nesting and repeated keys -/

namespace Tree

mutual

/-- How many arrays and objects lie inside each other. -/
def depth : Tree → Nat
  | .array items => itemsDepth items + 1
  | .object fields => fieldsDepth fields + 1
  | _ => 0

/-- `depth` for the items of an array. -/
def itemsDepth : List Tree → Nat
  | [] => 0
  | t :: ts => max (depth t) (itemsDepth ts)

/-- `depth` for the fields of an object. -/
def fieldsDepth : List (String × Tree) → Nat
  | [] => 0
  | (_, t) :: fs => max (depth t) (fieldsDepth fs)

end

mutual

/-- Whether no object has a repeated key. -/
def keysOnce : Tree → Bool
  | .array items => itemsKeysOnce items
  | .object fields => decide (fields.map Prod.fst).Nodup && fieldsKeysOnce fields
  | _ => true

/-- `keysOnce` for the items of an array. -/
def itemsKeysOnce : List Tree → Bool
  | [] => true
  | t :: ts => keysOnce t && itemsKeysOnce ts

/-- `keysOnce` for the values of the fields of an object. -/
def fieldsKeysOnce : List (String × Tree) → Bool
  | [] => true
  | (_, t) :: fs => keysOnce t && fieldsKeysOnce fs

end

mutual

/-- Whether every number is the one that its text is read as. -/
def steady : Tree → Bool
  | .number n => decide (n.reread = n)
  | .array items => itemsSteady items
  | .object fields => fieldsSteady fields
  | _ => true

/-- `steady` for the items of an array. -/
def itemsSteady : List Tree → Bool
  | [] => true
  | t :: ts => steady t && itemsSteady ts

/-- `steady` for the values of the fields of an object. -/
def fieldsSteady : List (String × Tree) → Bool
  | [] => true
  | (_, t) :: fs => steady t && fieldsSteady fs

end

/-- The items of an array are no deeper than all of them. -/
theorem depth_le_itemsDepth {items : List Tree} {t : Tree} (h : t ∈ items) :
    t.depth ≤ itemsDepth items := by
  induction items with
  | nil => cases h
  | cons u us ih =>
    rcases List.mem_cons.mp h with rfl | h
    · exact Nat.le_max_left _ _
    · exact (ih h).trans (Nat.le_max_right _ _)

/-- The fields of an object are no deeper than all of them. -/
theorem depth_le_fieldsDepth {fields : List (String × Tree)} {f : String × Tree}
    (h : f ∈ fields) : f.2.depth ≤ fieldsDepth fields := by
  induction fields with
  | nil => cases h
  | cons g gs ih =>
    rcases List.mem_cons.mp h with rfl | h
    · exact Nat.le_max_left _ _
    · exact (ih h).trans (Nat.le_max_right _ _)

/-- The items of an array have no repeated keys. -/
theorem keysOnce_of_mem_items {items : List Tree} (hkeys : itemsKeysOnce items = true) {t : Tree}
    (h : t ∈ items) : t.keysOnce = true := by
  induction items with
  | nil => cases h
  | cons u us ih =>
    rw [itemsKeysOnce, Bool.and_eq_true] at hkeys
    rcases List.mem_cons.mp h with rfl | h
    · exact hkeys.1
    · exact ih hkeys.2 h

/-- The fields of an object have no repeated keys inside. -/
theorem keysOnce_of_mem_fields {fields : List (String × Tree)}
    (hkeys : fieldsKeysOnce fields = true) {f : String × Tree} (h : f ∈ fields) :
    f.2.keysOnce = true := by
  induction fields with
  | nil => cases h
  | cons g gs ih =>
    rw [fieldsKeysOnce, Bool.and_eq_true] at hkeys
    rcases List.mem_cons.mp h with rfl | h
    · exact hkeys.1
    · exact ih hkeys.2 h

/-- The items of an array are steady. -/
theorem steady_of_mem_items {items : List Tree} (hsteady : itemsSteady items = true) {t : Tree}
    (h : t ∈ items) : t.steady = true := by
  induction items with
  | nil => cases h
  | cons u us ih =>
    rw [itemsSteady, Bool.and_eq_true] at hsteady
    rcases List.mem_cons.mp h with rfl | h
    · exact hsteady.1
    · exact ih hsteady.2 h

/-- The fields of an object are steady. -/
theorem steady_of_mem_fields {fields : List (String × Tree)} (hsteady : fieldsSteady fields = true)
    {f : String × Tree} (h : f ∈ fields) : f.2.steady = true := by
  induction fields with
  | nil => cases h
  | cons g gs ih =>
    rw [fieldsSteady, Bool.and_eq_true] at hsteady
    rcases List.mem_cons.mp h with rfl | h
    · exact hsteady.1
    · exact ih hsteady.2 h

/-- A tree that fits and is steady fits exactly. -/
theorem fitsExactly_of_steady {n : Nat} {t : Tree} (h : t.Fits n) (hsteady : t.steady = true) :
    t.FitsExactly n := by
  induction h with
  | null => exact .null
  | bool b => exact .bool b
  | number h => exact .number ⟨h.1, fun _ => of_decide_eq_true hsteady⟩
  | string s => exact .string s
  | refused => exact .refused
  | array _ ih => exact .array fun t ht => ih t ht (steady_of_mem_items hsteady ht)
  | object _ ih => exact .object fun f hf => ih f hf (steady_of_mem_fields hsteady hf)

/-- No key of an object is repeated. -/
theorem nodup_of_keysOnce {fields : List (String × Tree)}
    (h : (Tree.object fields).keysOnce = true) :
    (fields.map Prod.fst).Nodup := by
  rw [keysOnce, Bool.and_eq_true, decide_eq_true_iff] at h
  exact h.1

/-! ### Tidy trees -/

/-- No object has a repeated key, the numbers are read back from their texts, and the tree nests no
deeper than so many levels. -/
inductive Tidy : Nat → Tree → Prop where
  | null {n : Nat} : Tidy n .null
  | bool {n : Nat} (b : Bool) : Tidy n (.bool b)
  | number {n : Nat} {x : Number} (h : x.Held true) : Tidy n (.number x)
  | string {n : Nat} (s : String) : Tidy n (.string s)
  | refused {n : Nat} : Tidy n .refused
  | array {n : Nat} {items : List Tree} (h : ∀ t ∈ items, Tidy n t) : Tidy (n + 1) (.array items)
  | object {n : Nat} {fields : List (String × Tree)} (hkeys : (fields.map Prod.fst).Nodup)
    (h : ∀ f ∈ fields, Tidy n f.2) : Tidy (n + 1) (.object fields)

namespace Tidy

variable {n : Nat} {t : Tree}

/-- A tidy tree fits exactly. -/
theorem fits (h : t.Tidy n) : t.FitsExactly n := by
  induction h with
  | null => exact .null
  | bool b => exact .bool b
  | number h => exact .number h
  | string s => exact .string s
  | refused => exact .refused
  | array _ ih => exact .array ih
  | object _ _ ih => exact .object ih

/-- What fits exactly, is not too deep and has no repeated keys is tidy. -/
theorem of_fits {m : Nat} (h : t.FitsExactly m) (hdepth : t.depth ≤ n) (hkeys : t.keysOnce = true) :
    t.Tidy n := by
  induction h generalizing n with
  | null => exact .null
  | bool b => exact .bool b
  | number h => exact .number h
  | string s => exact .string s
  | refused => exact .refused
  -- The parts of an array nest one level less than it does.
  | @array m items _ ih =>
    rw [depth] at hdepth
    obtain ⟨k, rfl⟩ : ∃ k, n = k + 1 := ⟨n - 1, by omega⟩
    refine .array fun u hu => ih u hu ?_ (keysOnce_of_mem_items hkeys hu)
    have hle := depth_le_itemsDepth hu
    omega
  | @object m fields _ ih =>
    rw [depth] at hdepth
    rw [keysOnce, Bool.and_eq_true, decide_eq_true_iff] at hkeys
    obtain ⟨k, rfl⟩ : ∃ k, n = k + 1 := ⟨n - 1, by omega⟩
    refine .object hkeys.1 fun f hf => ih f hf ?_ (keysOnce_of_mem_fields hkeys.2 hf)
    have hle := depth_le_fieldsDepth hf
    omega

/-- What lies inside a tidy tree is tidy. -/
theorem inside {u : Tree} (h : t.Tidy (n + 1)) (hu : u.Inside t) : u.Tidy n := by
  cases hu with
  | item hmem =>
    cases h with
    | array h => exact h u hmem
  | field hmem =>
    cases h with
    | object _ h => exact h _ hmem

end Tidy

/-! ### The tree of the value that a tree stands for -/

/-- The tree of the value that a tree stands for, if it stands for one. -/
def settled (t : Tree) : Tree := (t.toJson?.map toTree).getD t

/-- A tree that stands for a value is settled as the tree of the value. -/
theorem settled_eq {t : Tree} {v : Json} (h : t.toJson? = some v) : t.settled = v.toTree := by
  unfold settled
  rw [h]
  rfl

/-- A tree that stands for no value stays as it is. -/
theorem settled_of_none {t : Tree} (h : t.toJson? = none) : t.settled = t := by
  unfold settled
  rw [h]
  rfl

/-- A tree stands for the same value once it is settled. -/
theorem toJson?_settled {exact : Bool} {n : Nat} {t : Tree} (ht : t.Within exact n) :
    t.settled.toJson? = t.toJson? := by
  cases hv : t.toJson? with
  | none => rw [settled_of_none hv, hv]
  | some v => rw [settled_eq hv, toJson?_toTree, canon_eq_self (ht.toJson? hv).1]

/-- The values of items are those of the settled items. -/
theorem map_toTree_of_itemsToJson? {items : List Tree} {vs : List Json}
    (h : itemsToJson? items = some vs) : vs.map toTree = items.map settled := by
  induction items generalizing vs with
  | nil =>
    cases h
    rfl
  | cons t ts ih =>
    rw [itemsToJson?] at h
    obtain ⟨w, hw, h⟩ := Option.bind_eq_some_iff.mp h
    obtain ⟨ws, hws, h⟩ := Option.bind_eq_some_iff.mp h
    cases h
    rw [List.map_cons, List.map_cons, ih hws, settled_eq hw]

/-- The values of fields are those of the settled fields. -/
theorem map_toTree_of_fieldsToJson? {fields : List (String × Tree)} {fs : List (String × Json)}
    (h : fieldsToJson? fields = some fs) :
    (fs.map fun f => (f.1, f.2.toTree)) = fields.map fun f => (f.1, f.2.settled) := by
  induction fields generalizing fs with
  | nil =>
    cases h
    rfl
  | cons f gs ih =>
    rw [fieldsToJson?] at h
    obtain ⟨w, hw, h⟩ := Option.bind_eq_some_iff.mp h
    obtain ⟨ws, hws, h⟩ := Option.bind_eq_some_iff.mp h
    cases h
    rw [List.map_cons, List.map_cons, ih hws, settled_eq hw]

/-- The values of fields have the names of the fields. -/
theorem map_fst_of_fieldsToJson? {fields : List (String × Tree)} {fs : List (String × Json)}
    (h : fieldsToJson? fields = some fs) : fs.map Prod.fst = fields.map Prod.fst := by
  have hmapped := congrArg (List.map Prod.fst) (map_toTree_of_fieldsToJson? h)
  rw [List.map_map, List.map_map] at hmapped
  exact hmapped

/-- An array settles as the array of its settled items. -/
theorem settled_array {items : List Tree} {v : Json} (h : (Tree.array items).toJson? = some v) :
    (Tree.array items).settled = .array (items.map settled) := by
  rw [settled_eq h]
  obtain ⟨vs, hvs, rfl⟩ := Option.map_eq_some_iff.mp h
  rw [toTree, itemsToTree_eq_map, map_toTree_of_itemsToJson? hvs]

/-- An object without repeated keys settles as an object of its settled fields, in some order. -/
theorem settled_object {fields : List (String × Tree)} (hkeys : (fields.map Prod.fst).Nodup)
    {v : Json} (h : (Tree.object fields).toJson? = some v) :
    ∃ fs, (Tree.object fields).settled = .object fs ∧
      fs.Perm (fields.map fun f => (f.1, f.2.settled)) := by
  rw [settled_eq h]
  obtain ⟨vs, hvs, rfl⟩ := Option.map_eq_some_iff.mp h
  refine ⟨_, rfl, ?_⟩
  have hsettled := map_toTree_of_fieldsToJson? hvs
  rw [fieldsToTree_eq_map, ← hsettled]
  exact (sortFields_perm (map_fst_of_fieldsToJson? hvs ▸ hkeys)).map _

end Tree

end TextAdventure.Json
