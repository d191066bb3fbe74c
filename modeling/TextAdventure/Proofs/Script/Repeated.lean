import TextAdventure.Proofs.Json.Decides
import TextAdventure.Proofs.Script.Reread

/-!
# Records that repeat a key

A record that is no effect is kept as its value, which has each key once. Whether the value would be
read as an effect depends only on the fields that effects of its kind have, and on which of them are
there, not on what their scripts are (`Step.effect?_congr_find?`, `Step.isSome_effect?_congr`). A
field that is not repeated is the same in the value, so a record can only turn into an effect if it
repeats its kind or a field that effects of this kind have
(`Step.ofTree?_toTree_of_unrecognized`).
-/

namespace TextAdventure

namespace Json

/-! ### Fields that are not repeated -/

namespace Record

variable {α : Type} {fields : List (String × α)} {name : String}

/-- What is found under a name is what a look-up gives. -/
theorem lookup_of_find? {value : Option α} (h : find? ⟨fields⟩ [name] = some value) :
    fields.lookup name = value := by
  rw [lookup_eq_head?]
  unfold find? at h
  split at h
  · next hnone =>
    rw [hnone]
    exact Option.some.inj h
  · next hone =>
    rw [hone]
    exact Option.some.inj h
  · cases h

/-- Of the fields that are left, one that is not left out is found as before. -/
theorem find?_others (hname : name ≠ "type") :
    find? ⟨others ⟨fields⟩ ["type"]⟩ [name] = find? ⟨fields⟩ [name] := by
  have hfilter : (fields.filter fun f => !(["type"].contains f.1)).filter
      (fun f => [name].contains f.1) = fields.filter fun f => [name].contains f.1 := by
    rw [List.filter_filter]
    refine List.filter_congr fun f _ => ?_
    by_cases hf : f.1 = name
    · simp [hf, hname]
    · simp [hf]
  unfold find? others
  rw [hfilter]

end Record

/-- Sorting fields leaves a name that occurs at most once as it is. -/
theorem find?_sortFields {fields : List (String × Json)} {name : String}
    (h : (fields.map Prod.fst).count name ≤ 1) :
    Record.find? ⟨sortFields fields⟩ [name] = Record.find? ⟨fields⟩ [name] := by
  have hreverse : (fields.reverse.map Prod.fst).count name ≤ 1 := by
    rw [List.map_reverse, List.count_reverse]
    exact h
  have hsorted : sortFields fields = (Table.ofList fields).entries := (Table.entries_ofList _).symm
  have hlast : (Table.ofList fields).entries.lookup name = fields.reverse.lookup name :=
    Table.get?_ofList fields name
  calc Record.find? ⟨sortFields fields⟩ [name]
      = some ((Table.ofList fields).entries.lookup name) := by
        rw [hsorted, Record.find?_of_nodup (Table.nodup_keys _)]
    _ = some (fields.reverse.lookup name) := by rw [hlast]
    _ = Record.find? ⟨fields.reverse⟩ [name] := (Record.find?_of_count hreverse).symm
    _ = Record.find? ⟨fields⟩ [name] := Record.find?_perm fields.reverse_perm [name]

end Json

namespace Step

variable {n : Nat} {t : Json.Tree}

/-! ### What makes a record an effect -/

/-- The kind of an effect is none of its fields. -/
theorem type_notMem_fieldNames (kind : String) : "type" ∉ fieldNames kind := by
  unfold fieldNames
  split <;> decide

/-- An effect of a kind depends only on the fields that the kind has. -/
theorem effect?_congr_find? {kind : String} {r r' : Json.Record Field}
    (h : ∀ name ∈ fieldNames kind, r.find? [name] = r'.find? [name]) :
    effect? kind r = effect? kind r' := by
  unfold effect?
  split <;> simp only [Json.Record.required, Json.Record.withDefault, Json.Record.among] <;>
    simp [fieldNames] at h <;> simp [h]

/-- A part of an effect is there if the parts before it are, and if it is there itself. -/
theorem isSome_seq {α β : Type} (f : Option (α → β)) (x : Option α) :
    (f <*> x).isSome = (f.isSome && x.isSome) := by
  cases f <;> cases x <;> rfl

/-- Two fields are akin, and if one of them stands for a value or is a script, so does the other. -/
structure Field.Matching (f g : Field) : Prop extends Field.Akin f g where
  /-- Both stand for a value, or none does. -/
  value : f.value.toJson?.isSome = g.value.toJson?.isSome
  /-- Both are scripts, or none is. -/
  script : f.script?.isSome = g.script?.isSome

section Matching

variable {α : Type} {φ ψ : α → Field}

/-- A field that may be missing is read if it was read from values that are read alike. -/
theorem isSome_withDefault_congr {γ : Type} {fields : List (String × α)} (read : Field → Option γ)
    (h : ∀ f ∈ fields, (read (φ f.2)).isSome = (read (ψ f.2)).isSome) (name : String) (absent : γ) :
    (Json.Record.withDefault ⟨fields.map fun f => (f.1, φ f.2)⟩ name absent read).isSome =
      (Json.Record.withDefault ⟨fields.map fun f => (f.1, ψ f.2)⟩ name absent read).isSome := by
  unfold Json.Record.withDefault Json.Record.among
  rw [Json.Record.find?_map, Json.Record.find?_map]
  cases hfind : Json.Record.find? ⟨fields⟩ [name] with
  | none => rfl
  | some value =>
    cases value with
    | none => rfl
    | some x =>
      obtain ⟨f, hf, rfl⟩ := Json.Record.exists_of_find? hfind
      exact h f hf

/-- Whether fields make an effect depends on which of them are values and scripts, and not on what
the values and the scripts are. -/
theorem isSome_effect?_congr {fields : List (String × α)}
    (h : ∀ f ∈ fields, (φ f.2).Matching (ψ f.2)) (kind : String) :
    (effect? kind ⟨fields.map fun f => (f.1, φ f.2)⟩).isSome =
      (effect? kind ⟨fields.map fun f => (f.1, ψ f.2)⟩).isSome := by
  have htext := Json.Record.required_congr (fun f : Field => f.value.string?)
    fun f hf => (h f hf).text
  have hsize := Json.Record.withDefault_congr
    (fun f : Field => Json.Tree.nullable? Json.Tree.uint32? f.value) fun f hf => (h f hf).size
  have hvalue := isSome_withDefault_congr (fun f : Field => f.value.toJson?)
    fun f hf => (h f hf).value
  have hscript := isSome_withDefault_congr Field.script? fun f hf => (h f hf).script
  unfold effect?
  split <;> simp only [htext, hsize, hvalue, hscript, isSome_seq, Option.map_eq_map,
    Option.isSome_map]

/-- Whether an object is an effect does not depend on what its values and scripts are. -/
theorem isSome_ofFields?_congr {fields : List (String × α)}
    (h : ∀ f ∈ fields, (φ f.2).Matching (ψ f.2)) :
    (ofFields? (fields.map fun f => (f.1, φ f.2))).isSome =
      (ofFields? (fields.map fun f => (f.1, ψ f.2))).isSome :=
  ofFields?_related (fun f hf => (h f hf).kind) (motive := fun x y => x.isSome = y.isSome) rfl
    fun kind _ hfs => isSome_effect?_congr (fun f hf => h f (hfs hf)) kind

/-- Whether an array is an effect does not depend on what its values and scripts are. -/
theorem isSome_ofItems?_congr {items : List α} (h : ∀ x ∈ items, (φ x).Matching (ψ x)) :
    (ofItems? (items.map φ)).isSome = (ofItems? (items.map ψ)).isSome :=
  ofItems?_related (fun x hx => (h x hx).kind) (motive := fun x y => x.isSome = y.isSome) rfl
    fun kind _ hfs => isSome_effect?_congr (fun f hf => h f.2 (hfs f hf)) kind

end Matching

/-! ### What settles as a script -/

/-- Every value is a step. -/
theorem isSome_ofTree? (t : Json.Tree) : (ofTree? t).isSome = t.toJson?.isSome := by
  cases t with
  | object fields =>
    rw [ofTree?]
    cases (Json.Tree.object fields).toJson? <;> rfl
  | array items =>
    rw [ofTree?]
    cases (Json.Tree.array items).toJson? <;> rfl
  | null => rfl
  | bool b => rfl
  | number x => rfl
  | string s => rfl
  | refused => rfl

/-- Every array of values is a script. -/
theorem isSome_stepsOf? (items : List Json.Tree) :
    (stepsOf? items).isSome = (Json.Tree.itemsToJson? items).isSome := by
  induction items with
  | nil => rfl
  | cons t ts ih =>
    have hfirst := isSome_ofTree? t
    rw [stepsOf?, Json.Tree.itemsToJson?]
    generalize ofTree? t = s, t.toJson? = v, stepsOf? ts = ss, Json.Tree.itemsToJson? ts = vs
      at hfirst ih ⊢
    cases s <;> cases v <;> cases hfirst
    · rfl
    · cases ss <;> cases vs <;> cases ih <;> rfl

/-- A tree is a script once it is settled if it was one before. -/
theorem isSome_scriptOfTree?_settled (ht : t.Fits n) :
    (scriptOfTree? t.settled).isSome = (scriptOfTree? t).isSome := by
  have hsettled := Json.Tree.toJson?_settled ht
  cases hv : t.toJson? with
  -- What is no value settles as it is, and everything else as what is written for it.
  | none => rw [Json.Tree.settled_of_none hv]
  | some v =>
    cases t with
    | null => cases hv; rfl
    | bool b => cases hv; rfl
    | number x => cases hv; rfl
    | string s => cases hv; rfl
    | refused => cases hv
    -- An array is a script if its items are steps, which every value is.
    | array items =>
      rw [Json.Tree.settled_array hv] at hsettled ⊢
      rw [Json.Tree.toJson?, Json.Tree.toJson?] at hsettled
      have hitems := congrArg Option.isSome hsettled
      rw [Option.isSome_map, Option.isSome_map] at hitems
      rw [scriptOfTree?, scriptOfTree?, isSome_stepsOf?, isSome_stepsOf?, hitems]
    | object fields =>
      obtain ⟨fs, -, rfl⟩ := Option.map_eq_some_iff.mp hv
      rw [Json.Tree.settled_eq hv]
      rfl

/-! ### Records that are no effects -/

/-- An object that is an effect once its fields are sorted was one before, if it repeats neither its
kind nor a field that effects of this kind have. -/
theorem ofFields?_of_sorted {fields : List (String × Json)} {s : Step}
    (honce : ∀ tag kind, ("type", tag) ∈ fields → kindOf? tag.toTree = some kind →
      ∀ name ∈ "type" :: fieldNames kind, (fields.map Prod.fst).count name ≤ 1)
    (h : ofFields? (fieldsOf (Json.fieldsToTree (Json.sortFields fields))) = some s) :
    ofFields? (fieldsOf (Json.fieldsToTree fields)) = some s := by
  have hmap : ∀ fs : List (String × Json),
      fieldsOf (Json.fieldsToTree fs) = fs.map fun f => (f.1, Field.of f.2.toTree) := by
    intro fs
    rw [fieldsOf_eq_map, Json.fieldsToTree_eq_map, List.map_map]
    rfl
  have hfind : ∀ name, (fields.map Prod.fst).count name ≤ 1 →
      Json.Record.find? ⟨(Json.sortFields fields).map fun f => (f.1, Field.of f.2.toTree)⟩ [name] =
        Json.Record.find? ⟨fields.map fun f => (f.1, Field.of f.2.toTree)⟩ [name] := by
    intro name hname
    rw [Json.Record.find?_map fun v : Json => Field.of v.toTree,
      Json.Record.find?_map fun v : Json => Field.of v.toTree, Json.find?_sortFields hname]
  rw [hmap] at h ⊢
  obtain ⟨kind, hkind, heffect⟩ := Option.bind_eq_some_iff.mp h
  -- The kind was found in a field that was there before the fields were sorted.
  have hcount : ∀ name ∈ "type" :: fieldNames kind, (fields.map Prod.fst).count name ≤ 1 := by
    obtain ⟨value, hvalue, hread⟩ := Option.bind_eq_some_iff.mp hkind
    cases value with
    | none => cases hread
    | some tag =>
      have hmem := Table.mem_of_lookup (Json.Record.lookup_of_find? hvalue)
      obtain ⟨⟨name, v⟩, hv, heq⟩ := List.mem_map.mp hmem
      cases heq
      exact honce v kind (Json.mem_of_mem_sortFields hv) hread
  refine Option.bind_eq_some_iff.mpr ⟨kind, ?_, ?_⟩
  · unfold Json.Record.required at hkind ⊢
    rw [← hfind "type" (hcount "type" List.mem_cons_self)]
    exact hkind
  · rw [← heffect]
    refine effect?_congr_find? fun name hname => ?_
    have hne : name ≠ "type" := fun heq => type_notMem_fieldNames kind (heq ▸ hname)
    rw [Json.Record.find?_others hne, Json.Record.find?_others hne,
      hfind name (hcount name (List.mem_cons_of_mem _ hname))]

end Step

/-- The tree is an object that names a kind of effect, and its kind or one of the fields that
effects of this kind have is repeated in it. -/
def Json.Tree.RepeatsField : Tree → Prop
  | .object fields => ∃ tag ∈ fields, tag.1 = "type" ∧ ∃ kind ∈ Step.kindOf? tag.2,
      ∃ name ∈ "type" :: Step.fieldNames kind, 1 < (fields.map Prod.fst).count name
  | _ => False

instance : DecidablePred Json.Tree.RepeatsField
  | .object fields => inferInstanceAs (Decidable (∃ tag ∈ fields, tag.1 = "type" ∧
      ∃ kind ∈ Step.kindOf? tag.2, ∃ name ∈ "type" :: Step.fieldNames kind,
        1 < (fields.map Prod.fst).count name))
  | .null | .bool _ | .number _ | .string _ | .array _ | .refused => isFalse not_false

namespace Step

variable {n : Nat} {t : Json.Tree} {raw : Json}

/-- No effect that is an object is a step that is not recognized. -/
theorem ofFields?_ne_unrecognized (fields : List (String × Field)) (raw : Json) :
    ofFields? fields ≠ some (.unrecognized raw) := by
  intro h
  obtain ⟨kind, -, heffect⟩ := Option.bind_eq_some_iff.mp h
  exact effect?_ne_unrecognized kind _ raw heffect

/-- No effect that is an array is a step that is not recognized. -/
theorem ofItems?_ne_unrecognized (items : List Field) (raw : Json) :
    ofItems? items ≠ some (.unrecognized raw) := by
  intro h
  cases items with
  | nil => cases h
  | cons tag items =>
    obtain ⟨kind, -, h⟩ := Option.bind_eq_some_iff.mp h
    obtain ⟨-, -, heffect⟩ := Option.bind_eq_some_iff.mp h
    exact effect?_ne_unrecognized kind _ raw heffect

/-- What stands for a step where there is no effect is the value, and then there is no effect. -/
theorem getD_eq_unrecognized_iff {x : Option Step} {v : Json}
    (hx : x ≠ some (.unrecognized raw)) :
    x.getD (.unrecognized v) = .unrecognized raw ↔ v = raw ∧ x = none := by
  cases x with
  | none => simp
  | some s => simpa using fun h => hx (congrArg some h)

/-- An object is kept as its value if it is no effect. -/
theorem ofTree?_object_eq_unrecognized_iff {fields : List (String × Json.Tree)} :
    ofTree? (.object fields) = some (.unrecognized raw) ↔
      (Json.Tree.object fields).toJson? = some raw ∧ ofFields? (fieldsOf fields) = none := by
  rw [ofTree?]
  simp [Option.bind_eq_some_iff, getD_eq_unrecognized_iff (ofFields?_ne_unrecognized _ raw)]

/-- An array is kept as its value if it is no effect. -/
theorem ofTree?_array_eq_unrecognized_iff {items : List Json.Tree} :
    ofTree? (.array items) = some (.unrecognized raw) ↔
      (Json.Tree.array items).toJson? = some raw ∧ ofItems? (itemsOf items) = none := by
  rw [ofTree?]
  simp [Option.bind_eq_some_iff, getD_eq_unrecognized_iff (ofItems?_ne_unrecognized _ raw)]

/-- A tree matches the settled tree. -/
theorem Field.matching_settled (ht : t.Fits n) :
    (Field.of t.settled).Matching (Field.of t) where
  toAkin := akin_settled t
  value := congrArg Option.isSome (Json.Tree.toJson?_settled ht)
  script := isSome_scriptOfTree?_settled ht

/-- Whether an object is an effect can be seen from its settled fields. -/
theorem isSome_ofFields?_settled {fields : List (String × Json.Tree)}
    (h : ∀ f ∈ fields, f.2.Fits n) :
    (ofFields? (fieldsOf (fields.map fun f => (f.1, f.2.settled)))).isSome =
      (ofFields? (fieldsOf fields)).isSome := by
  rw [fieldsOf_eq_map, fieldsOf_eq_map, List.map_map]
  exact isSome_ofFields?_congr (φ := fun t : Json.Tree => Field.of t.settled)
    fun f hf => Field.matching_settled (h f hf)

/-- Whether an array is an effect can be seen from its settled items. -/
theorem isSome_ofItems?_settled {items : List Json.Tree} (h : ∀ t ∈ items, t.Fits n) :
    (ofItems? (itemsOf (items.map Json.Tree.settled))).isSome =
      (ofItems? (itemsOf items)).isSome := by
  rw [itemsOf_eq_map, itemsOf_eq_map, List.map_map]
  exact isSome_ofItems?_congr fun t ht => Field.matching_settled (h t ht)

/-- What names a kind in the values of fields names it in the fields. -/
theorem exists_tag_of_fieldsToJson? {fields : List (String × Json.Tree)}
    {vs : List (String × Json)} (hvs : Json.Tree.fieldsToJson? fields = some vs)
    {v : Json} (hv : ("type", v) ∈ vs) :
    ∃ tag, ("type", tag) ∈ fields ∧ kindOf? tag = kindOf? v.toTree := by
  have hmem : ("type", v.toTree) ∈ vs.map fun f => (f.1, f.2.toTree) :=
    List.mem_map.mpr ⟨_, hv, rfl⟩
  rw [Json.Tree.map_toTree_of_fieldsToJson? hvs] at hmem
  obtain ⟨⟨name, tag⟩, hf, heq⟩ := List.mem_map.mp hmem
  obtain ⟨rfl, hsettled⟩ := Prod.mk.inj heq
  have hkind := (Field.akin_settled tag).kind
  exact ⟨tag, hf, hsettled ▸ hkind.symm⟩

/-- A record that is kept as a value stays what it is, unless it repeats a field that matters. -/
theorem ofTree?_toTree_of_unrecognized (ht : t.Fits n) (h : ofTree? t = some (.unrecognized raw))
    (honce : ¬t.RepeatsField) : ofTree? raw.toTree = some (.unrecognized raw) := by
  have hraw := toJson?_of_unrecognized h
  have hsettled := Json.Tree.toJson?_settled ht
  rw [hraw] at hsettled
  rw [← Json.Tree.settled_eq hraw]
  cases ht with
  | null => cases hraw; exact h
  | bool b => cases hraw; exact h
  | number hx => cases hraw; exact h
  | string s => cases hraw; exact h
  | refused => cases hraw
  | array hitems =>
    -- The items of an array stay at their places.
    rw [Json.Tree.settled_array hraw] at hsettled ⊢
    have hnone := (ofTree?_array_eq_unrecognized_iff.mp h).2
    refine ofTree?_array_eq_unrecognized_iff.mpr ⟨hsettled, ?_⟩
    rw [← Option.not_isSome_iff_eq_none, isSome_ofItems?_settled hitems, hnone]
    exact Bool.false_ne_true
  | @object n fields hfields =>
    obtain ⟨vs, hvs, rfl⟩ := Option.map_eq_some_iff.mp hraw
    rw [Json.Tree.settled_eq hraw] at hsettled ⊢
    have hnone := (ofTree?_object_eq_unrecognized_iff.mp h).2
    refine ofTree?_object_eq_unrecognized_iff.mpr ⟨hsettled, ?_⟩
    -- An effect that is made of the sorted fields is made of the fields as they stood.
    by_contra hsome
    obtain ⟨s, hs⟩ := Option.ne_none_iff_exists'.mp hsome
    have hbefore : ofFields? (fieldsOf (Json.fieldsToTree vs)) = some s := by
      refine ofFields?_of_sorted (fun v kind hv hkind name hname => ?_) hs
      obtain ⟨tag, htag, hsame⟩ := exists_tag_of_fieldsToJson? hvs hv
      rw [Json.Tree.map_fst_of_fieldsToJson? hvs]
      by_contra hcount
      exact honce ⟨_, htag, rfl, kind, hsame.trans hkind, name, hname, Nat.lt_of_not_le hcount⟩
    have hsame := isSome_ofFields?_settled hfields
    rw [Json.fieldsToTree_eq_map, Json.Tree.map_toTree_of_fieldsToJson? hvs] at hbefore
    rw [hbefore, hnone] at hsame
    cases hsame

end Step

end TextAdventure
