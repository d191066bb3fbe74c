import Mathlib.Algebra.Order.Ring.Int
import TextAdventure.Document
import TextAdventure.Proofs.Json.Canonical

/-!
# Values that fit into a text

`Json.Fits` says that a text can hold a value below so many levels of nesting, and
`Json.FitsExactly` that the numbers of the value are read back from the text as well.
-/

namespace TextAdventure.Json

/-- The numbers of a value can be held by a text, and it nests no deeper than so many levels. -/
def Within (exact : Bool) (n : Nat) (v : Json) : Prop := v.Held exact ∧ v.depth ≤ n

/-- A text can hold the value within so many levels. -/
abbrev Fits (n : Nat) (v : Json) : Prop := v.Within false n

/-- A text can hold the value within so many levels, and its numbers are read back. -/
abbrev FitsExactly (n : Nat) (v : Json) : Prop := v.Within true n

variable {exact : Bool} {n : Nat}

/-- A value that fits also fits where there are more levels. -/
theorem Within.mono {m : Nat} {v : Json} (h : v.Within exact m) (hmn : m ≤ n) : v.Within exact n :=
  ⟨h.1, le_trans h.2 hmn⟩

mutual

/-- Numbers that are held exactly are held. -/
theorem Held.weaken : ∀ {v : Json}, v.Held true → v.Held false
  | .null, _ => trivial
  | .bool _, _ => trivial
  | .number _, h => ⟨h.1, by simp⟩
  | .string _, _ => trivial
  | .array _, h => heldItems_weaken h
  | .object _, h => heldFields_weaken h

/-- `Held.weaken` for the items of an array. -/
theorem heldItems_weaken : ∀ {items : List Json}, HeldItems true items → HeldItems false items
  | [], _ => trivial
  | _ :: _, h => ⟨h.1.weaken, heldItems_weaken h.2⟩

/-- `Held.weaken` for the fields of an object. -/
theorem heldFields_weaken : ∀ {fields : List (String × Json)}, HeldFields true fields →
    HeldFields false fields
  | [], _ => trivial
  | _ :: _, h => ⟨h.1.weaken, heldFields_weaken h.2⟩

end

/-- A value that fits exactly fits. -/
theorem FitsExactly.weaken {v : Json} (h : v.FitsExactly n) : v.Fits n := ⟨h.1.weaken, h.2⟩

/-- A null fits everywhere. -/
@[simp]
theorem fits_null : Json.null.Within exact n := ⟨trivial, Nat.zero_le n⟩

/-- A truth value fits everywhere. -/
@[simp]
theorem fits_bool (b : Bool) : (Json.bool b).Within exact n := ⟨trivial, Nat.zero_le n⟩

/-- A string fits everywhere. -/
@[simp]
theorem fits_string (s : String) : (Json.string s).Within exact n := ⟨trivial, Nat.zero_le n⟩

/-- A 32-bit integer fits everywhere. -/
@[simp]
theorem fits_ofInt32 (i : Int32) : (Json.ofInt32 i).Within exact n := by
  have hlow := i.minValue_le_toInt
  have hhigh := i.toInt_le
  have hlow' : Int64.minValue.toInt ≤ Int32.minValue.toInt := by decide
  have hhigh' : Int32.maxValue.toInt < UInt64.size := by decide
  exact ⟨Number.held_integer ⟨le_trans hlow' hlow, lt_of_le_of_lt hhigh hhigh'⟩, Nat.zero_le n⟩

/-- An unsigned 32-bit integer fits everywhere. -/
@[simp]
theorem fits_ofUInt32 (i : UInt32) : (Json.ofUInt32 i).Within exact n := by
  have hlt : i.toNat < UInt32.size := i.toNat_lt
  have hsize : UInt32.size ≤ UInt64.size := by decide
  have hlow : Int64.minValue.toInt ≤ 0 := by decide
  exact ⟨Number.held_integer ⟨by omega, by omega⟩, Nat.zero_le n⟩

/-- An array fits if its items fit into one level less. -/
theorem fits_array {items : List Json} (h : ∀ x ∈ items, x.Within exact n) :
    (Json.array items).Within exact (n + 1) := by
  have hitems : HeldItems exact items ∧ itemsDepth items ≤ n := by
    induction items with
    | nil => exact ⟨trivial, Nat.zero_le n⟩
    | cons x xs ih =>
      obtain ⟨hx, hxd⟩ := h x List.mem_cons_self
      obtain ⟨hxs, hxsd⟩ := ih fun y hy => h y (List.mem_cons_of_mem _ hy)
      exact ⟨⟨hx, hxs⟩, max_le hxd hxsd⟩
  exact ⟨hitems.1, Nat.succ_le_succ hitems.2⟩

/-- An object fits if its values fit into one level less. -/
theorem fits_object {fields : List (String × Json)} (h : ∀ f ∈ fields, f.2.Within exact n) :
    (Json.object fields).Within exact (n + 1) := by
  have hfields : HeldFields exact fields ∧ fieldsDepth fields ≤ n := by
    induction fields with
    | nil => exact ⟨trivial, Nat.zero_le n⟩
    | cons f fs ih =>
      obtain ⟨hf, hfd⟩ := h f List.mem_cons_self
      obtain ⟨hfs, hfsd⟩ := ih fun g hg => h g (List.mem_cons_of_mem _ hg)
      exact ⟨⟨hf, hfs⟩, max_le hfd hfsd⟩
  exact ⟨hfields.1, Nat.succ_le_succ hfields.2⟩

/-- The items of an array that fits fit into one level less. -/
theorem Within.items {items : List Json} (h : (Json.array items).Within exact (n + 1)) :
    ∀ x ∈ items, x.Within exact n := by
  obtain ⟨hheld, hdepth⟩ := h
  replace hheld : HeldItems exact items := hheld
  replace hdepth : itemsDepth items ≤ n := Nat.le_of_succ_le_succ hdepth
  induction items with
  | nil => exact fun x hx => by cases hx
  | cons x xs ih =>
    refine List.forall_mem_cons.mpr ⟨⟨hheld.1, (le_max_left _ _).trans hdepth⟩, ?_⟩
    exact ih hheld.2 ((le_max_right _ _).trans hdepth)

/-- The values of an object that fits fit into one level less. -/
theorem Within.fields {fields : List (String × Json)}
    (h : (Json.object fields).Within exact (n + 1)) :
    ∀ f ∈ fields, f.2.Within exact n := by
  obtain ⟨hheld, hdepth⟩ := h
  replace hheld : HeldFields exact fields := hheld
  replace hdepth : fieldsDepth fields ≤ n := Nat.le_of_succ_le_succ hdepth
  induction fields with
  | nil => exact fun f hf => by cases hf
  | cons f fs ih =>
    refine List.forall_mem_cons.mpr ⟨⟨hheld.1, (le_max_left _ _).trans hdepth⟩, ?_⟩
    exact ih hheld.2 ((le_max_right _ _).trans hdepth)

/-- A field that may be left out fits if its value does. -/
theorem fits_optionalField {α : Type} {name : String} {write : α → Json} (x : Option α)
    (h : ∀ y, (write y).Within exact n) : ∀ f ∈ optionalField name write x, f.2.Within exact n := by
  intro f hf
  cases x with
  | none => cases hf
  | some y =>
    rw [List.mem_singleton.mp hf]
    exact h y

/-- A list of strings takes one level. -/
@[simp]
theorem fits_stringList (xs : List String) : (Json.stringList xs).Within exact (n + 1) := by
  refine fits_array fun x hx => ?_
  obtain ⟨s, -, rfl⟩ := List.mem_map.mp hx
  exact fits_string s

/-- A table fits if its values fit into one level less. -/
theorem fits_ofTable {α : Type} (write : α → Json) {t : Table α}
    (h : ∀ e ∈ t.entries, (write e.2).Within exact n) :
    (Json.ofTable write t).Within exact (n + 1) := by
  refine fits_object fun f hf => ?_
  obtain ⟨e, he, rfl⟩ := List.mem_map.mp hf
  exact h e he

end TextAdventure.Json
