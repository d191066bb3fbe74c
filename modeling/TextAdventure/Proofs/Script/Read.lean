import TextAdventure.Proofs.Json.Scan
import TextAdventure.Script

/-!
# What steps are read from

A step that is read from a tree is a value that is kept, or it is the effect that its parts make
(`Step.cases_of_ofTree?`): the fields of an object besides its kind, or the items of an array behind
its kind (`Step.partsOf`). The parts lie inside the tree, and so do the steps of a script
(`Step.exists_inside_of_scriptOfTree?`), so facts about steps are proved by induction on what lies
inside a tree (`Json.Tree.inside_induction`).
-/

namespace TextAdventure

namespace Json

namespace Record

variable {α β : Type} {r : Record α} {read : α → Option β} {x : β}

/-- The value that was found is that of a field. -/
theorem exists_of_find? {names : List String} {value : α} (h : r.find? names = some (some value)) :
    ∃ f ∈ r.fields, f.2 = value := by
  unfold find? at h
  split at h
  · cases h
  · next f hf =>
    cases h
    have hmem : f ∈ r.fields.filter fun f => names.contains f.1 := by
      rw [hf]
      exact List.mem_singleton_self f
    exact ⟨f, (List.mem_filter.mp hmem).1, rfl⟩
  · cases h

/-- A field that may be missing was read, or has its default value. -/
theorem exists_of_among {names : List String} {absent : β}
    (h : r.among names absent read = some x) : x = absent ∨ ∃ f ∈ r.fields, read f.2 = some x := by
  obtain ⟨value, hvalue, h⟩ := Option.bind_eq_some_iff.mp h
  cases value with
  | none =>
    cases h
    exact .inl rfl
  | some v =>
    obtain ⟨f, hf, rfl⟩ := exists_of_find? hvalue
    exact .inr ⟨f, hf, h⟩

/-- A field that has to be there was read. -/
theorem exists_of_required {name : String} (h : r.required name read = some x) :
    ∃ f ∈ r.fields, read f.2 = some x := by
  obtain ⟨value, hvalue, h⟩ := Option.bind_eq_some_iff.mp h
  cases value with
  | none => cases h
  | some v =>
    obtain ⟨f, hf, rfl⟩ := exists_of_find? hvalue
    exact ⟨f, hf, h⟩

/-- The other fields are the same, whatever is done to the values. -/
theorem others_map (φ : α → β) (fields : List (String × α)) (names : List String) :
    others ⟨fields.map fun f => (f.1, φ f.2)⟩ names =
      (others ⟨fields⟩ names).map fun f => (f.1, φ f.2) := by
  unfold others
  rw [List.filter_map]
  rfl

end Record

end Json

namespace Step

/-! ### Effects -/

/-- What an effect is made of: texts, and for some kinds a value or scripts, which were read from
fields. -/
theorem cases_of_effect? {kind : String} {r : Json.Record Field} {s : Step}
    (h : effect? kind r = some s) {motive : Step → Prop}
    (message : ∀ text, motive (.message text)) (art : ∀ file size, motive (.art file size))
    (setFlag : ∀ key value, (r.withDefault "value" .null fun f => f.value.toJson?) = some value →
      motive (.setFlag key value))
    (branch : ∀ key equals onMatch otherwise, kind = "flag_if" →
      (r.withDefault "equals" .null fun f => f.value.toJson?) = some equals →
      r.withDefault "then" [] Field.script? = some onMatch →
      r.withDefault "else" [] Field.script? = some otherwise →
      motive (.branch key equals onMatch otherwise))
    (addItem : ∀ id, motive (.addItem id)) (removeItem : ∀ id, motive (.removeItem id))
    (unlockExit : ∀ room direction, motive (.unlockExit room direction))
    (lockExit : ∀ room direction, motive (.lockExit room direction))
    (transition : ∀ room, motive (.transition room)) (fight : ∀ enemy, motive (.fight enemy)) :
    motive s := by
  -- An effect is read field by field, so each field that it has was read.
  unfold effect? at h
  simp only [Option.map_eq_map, seq_eq_bind_map, Option.bind_eq_bind] at h
  split at h <;> simp only [Option.bind_eq_some_iff, Option.map_eq_some_iff, reduceCtorEq] at h
  · obtain ⟨text, -, rfl⟩ := h
    exact message text
  · obtain ⟨_, ⟨file, -, rfl⟩, size, -, rfl⟩ := h
    exact art file size
  · obtain ⟨_, ⟨key, -, rfl⟩, value, hvalue, rfl⟩ := h
    exact setFlag key value hvalue
  · obtain ⟨_, ⟨_, ⟨_, ⟨key, -, rfl⟩, equals, hequals, rfl⟩, onMatch, hmatch, rfl⟩, otherwise,
      hotherwise, rfl⟩ := h
    exact branch key equals onMatch otherwise rfl hequals hmatch hotherwise
  · obtain ⟨id, -, rfl⟩ := h
    exact addItem id
  · obtain ⟨id, -, rfl⟩ := h
    exact removeItem id
  · obtain ⟨_, ⟨room, -, rfl⟩, direction, -, rfl⟩ := h
    exact unlockExit room direction
  · obtain ⟨_, ⟨room, -, rfl⟩, direction, -, rfl⟩ := h
    exact lockExit room direction
  · obtain ⟨room, -, rfl⟩ := h
    exact transition room
  · obtain ⟨enemy, -, rfl⟩ := h
    exact fight enemy

/-- A field with the script that it is read as. -/
def Field.of (t : Json.Tree) : Field := ⟨t, scriptOfTree? t⟩

/-- The fields of an object, each with its script. -/
theorem fieldsOf_eq_map (fields : List (String × Json.Tree)) :
    fieldsOf fields = fields.map fun f => (f.1, Field.of f.2) := by
  induction fields with
  | nil => rfl
  | cons f fs ih =>
    rw [fieldsOf, ih]
    rfl

/-- The items of an array, each with its script. -/
theorem itemsOf_eq_map (items : List Json.Tree) : itemsOf items = items.map Field.of := by
  induction items with
  | nil => rfl
  | cons t ts ih =>
    rw [itemsOf, ih]
    rfl

/-! ### The parts of an effect -/

/-- The fields that a tree has as an effect of some kind, besides the kind itself. -/
def partsOf (kind : String) : Json.Tree → List (String × Json.Tree)
  | .object fields => Json.Record.others ⟨fields⟩ ["type"]
  | .array (_ :: items) => (fieldNames kind).zip items
  | _ => []

/-- The parts of an effect lie inside its tree. -/
theorem inside_of_mem_partsOf {kind : String} {t : Json.Tree} {f : String × Json.Tree}
    (h : f ∈ partsOf kind t) : f.2.Inside t := by
  unfold partsOf at h
  split at h
  · exact .field (List.mem_filter.mp h).1
  · exact .item (List.mem_cons_of_mem _ (List.of_mem_zip h).2)
  · cases h

/-- A step is a value that is kept, or it is the effect that its parts make. -/
theorem cases_of_ofTree? {t : Json.Tree} {s : Step} (h : ofTree? t = some s) :
    (∃ raw, t.toJson? = some raw ∧ s = .unrecognized raw) ∨
      ∃ kind, effect? kind ⟨(partsOf kind t).map fun f => (f.1, Field.of f.2)⟩ = some s := by
  -- What is neither an object nor an array can only be kept.
  have hleaf : ∀ t : Json.Tree, t.toJson?.map unrecognized = some s →
      ∃ raw, t.toJson? = some raw ∧ s = .unrecognized raw := by
    intro t h
    obtain ⟨raw, hraw, rfl⟩ := Option.map_eq_some_iff.mp h
    exact ⟨raw, hraw, rfl⟩
  -- An object or an array is kept where it is no effect.
  have hgetD : ∀ {x : Option Step} {raw : Json}, some (x.getD (.unrecognized raw)) = some s →
      s = .unrecognized raw ∨ x = some s := by
    intro x raw hx
    cases x with
    | none => exact .inl (Option.some.inj hx).symm
    | some s' => exact .inr hx
  cases t with
  | object fields =>
    rw [ofTree?] at h
    obtain ⟨raw, hraw, h⟩ := Option.bind_eq_some_iff.mp h
    rcases hgetD h with rfl | h
    · exact .inl ⟨raw, hraw, rfl⟩
    · rw [fieldsOf_eq_map] at h
      -- The kind is read from the tag, and the other fields are the parts.
      obtain ⟨kind, -, heffect⟩ := Option.bind_eq_some_iff.mp h
      rw [Json.Record.others_map] at heffect
      exact .inr ⟨kind, heffect⟩
  | array items =>
    rw [ofTree?] at h
    obtain ⟨raw, hraw, h⟩ := Option.bind_eq_some_iff.mp h
    rcases hgetD h with rfl | h
    · exact .inl ⟨raw, hraw, rfl⟩
    · rw [itemsOf_eq_map] at h
      cases items with
      | nil => cases h
      -- The first item is the tag, and the others are the fields of its kind in their order.
      | cons tag items =>
        obtain ⟨kind, -, h⟩ := Option.bind_eq_some_iff.mp h
        obtain ⟨-, -, heffect⟩ := Option.bind_eq_some_iff.mp h
        rw [List.zip_map_right] at heffect
        exact .inr ⟨kind, heffect⟩
  | null => exact .inl (hleaf .null h)
  | bool b => exact .inl (hleaf (.bool b) h)
  | number x => exact .inl (hleaf (.number x) h)
  | string text => exact .inl (hleaf (.string text) h)
  | refused => exact .inl (hleaf .refused h)

/-- No effect is a step that is not recognized. -/
theorem effect?_ne_unrecognized (kind : String) (r : Json.Record Field) (raw : Json) :
    effect? kind r ≠ some (.unrecognized raw) := by
  intro h
  have hne : ∀ s, effect? kind r = some s → s ≠ .unrecognized raw := by
    intro s hs
    apply cases_of_effect? hs <;> simp
  exact hne _ h rfl

/-- A step that is not recognized keeps its value. -/
theorem toJson?_of_unrecognized {t : Json.Tree} {raw : Json}
    (h : ofTree? t = some (.unrecognized raw)) : t.toJson? = some raw := by
  rcases cases_of_ofTree? h with ⟨v, hv, heq⟩ | ⟨kind, heffect⟩
  · rw [hv, Step.unrecognized.inj heq]
  · exact absurd heffect (effect?_ne_unrecognized kind _ raw)

/-- Without fields there is no effect. -/
theorem effect?_nil (kind : String) : effect? kind ⟨[]⟩ = none := by
  unfold effect?
  split <;> rfl

/-- An effect has something inside its tree. -/
theorem exists_inside_of_effect? {kind : String} {t : Json.Tree} {s : Step}
    (h : effect? kind ⟨(partsOf kind t).map fun f => (f.1, Field.of f.2)⟩ = some s) :
    ∃ u : Json.Tree, u.Inside t := by
  cases hparts : partsOf kind t with
  | nil =>
    rw [hparts, List.map_nil, effect?_nil] at h
    cases h
  | cons f fs =>
    have hf : f ∈ partsOf kind t := hparts ▸ List.mem_cons_self
    exact ⟨f.2, inside_of_mem_partsOf hf⟩

/-! ### Scripts -/

/-- The steps of a script come from the items of an array. -/
theorem exists_of_mem_stepsOf? {items : List Json.Tree} {script : Script}
    (h : stepsOf? items = some script) {s : Step} (hs : s ∈ script) :
    ∃ t ∈ items, ofTree? t = some s := by
  induction items generalizing script with
  | nil =>
    cases h
    cases hs
  | cons t ts ih =>
    rw [stepsOf?] at h
    obtain ⟨s', hs', h⟩ := Option.bind_eq_some_iff.mp h
    obtain ⟨ss, hss, h⟩ := Option.bind_eq_some_iff.mp h
    cases h
    rcases List.mem_cons.mp hs with rfl | hs
    · exact ⟨t, List.mem_cons_self, hs'⟩
    · obtain ⟨t', ht', hst⟩ := ih hss hs
      exact ⟨t', List.mem_cons_of_mem _ ht', hst⟩

/-- The steps of a script come from what lies inside its tree. -/
theorem exists_inside_of_scriptOfTree? {t : Json.Tree} {script : Script}
    (h : scriptOfTree? t = some script) {s : Step} (hs : s ∈ script) :
    ∃ u : Json.Tree, u.Inside t ∧ ofTree? u = some s := by
  cases t with
  | array items =>
    obtain ⟨u, hu, hread⟩ := exists_of_mem_stepsOf? h hs
    exact ⟨u, .item hu, hread⟩
  | _ => cases h

end Step

end TextAdventure
