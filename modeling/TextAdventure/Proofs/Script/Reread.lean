import TextAdventure.Proofs.Json.Tidy
import TextAdventure.Proofs.Script

/-!
# Scripts are read again

What is written for a step is read again as that step. For an effect this is a matter of its fields.
A record that is no effect is kept as the value that it stands for, and must not become an effect
when it is met again: whether a record is one does not depend on the order of its fields, so it is
none as a value if it was none as it stood in the text (`Step.ofTree?_settled`). This needs that no
key is repeated, for a value keeps but one of the fields with a repeated key.
-/

namespace TextAdventure

namespace Json.Record

variable {α β γ : Type} {fields : List (String × α)} {φ ψ : α → β}

/-- A field that has to be there is read alike from values that are read alike. -/
theorem required_congr (read : β → Option γ) (h : ∀ f ∈ fields, read (φ f.2) = read (ψ f.2))
    (name : String) :
    required ⟨fields.map fun f => (f.1, φ f.2)⟩ name read =
      required ⟨fields.map fun f => (f.1, ψ f.2)⟩ name read := by
  unfold required
  rw [find?_map, find?_map]
  cases hfind : find? ⟨fields⟩ [name] with
  | none => rfl
  | some value =>
    cases value with
    | none => rfl
    | some x =>
      obtain ⟨f, hf, rfl⟩ := exists_of_find? hfind
      exact h f hf

/-- A field that may be missing is read alike from values that are read alike. -/
theorem withDefault_congr (read : β → Option γ) (h : ∀ f ∈ fields, read (φ f.2) = read (ψ f.2))
    (name : String) (absent : γ) : withDefault ⟨fields.map fun f => (f.1, φ f.2)⟩ name absent read =
      withDefault ⟨fields.map fun f => (f.1, ψ f.2)⟩ name absent read := by
  unfold withDefault among
  rw [find?_map, find?_map]
  cases hfind : find? ⟨fields⟩ [name] with
  | none => rfl
  | some value =>
    cases value with
    | none => rfl
    | some x =>
      obtain ⟨f, hf, rfl⟩ := exists_of_find? hfind
      exact h f hf

end Json.Record

namespace Step

/-! ### Fields that an effect cannot tell apart -/

/-- Two fields differ at most in the values that they stand for and the scripts that they are
read as. -/
structure Field.Akin (f g : Field) : Prop where
  /-- They name the same kind. -/
  kind : kindOf? f.value = kindOf? g.value
  /-- They are the same text. -/
  text : f.value.string? = g.value.string?
  /-- They are the same size. -/
  size : Json.Tree.nullable? Json.Tree.uint32? f.value =
    Json.Tree.nullable? Json.Tree.uint32? g.value

/-- An effect cannot tell two fields apart. -/
structure Field.Alike (f g : Field) : Prop extends Field.Akin f g where
  /-- They stand for the same value. -/
  value : f.value.toJson? = g.value.toJson?
  /-- They are the same script. -/
  script : f.script? = g.script?

section Alike

variable {α : Type} {φ ψ : α → Field}

/-- Effects of alike fields are the same. -/
theorem effect?_congr {fields : List (String × α)} (h : ∀ f ∈ fields, (φ f.2).Alike (ψ f.2))
    (kind : String) : effect? kind ⟨fields.map fun f => (f.1, φ f.2)⟩ =
      effect? kind ⟨fields.map fun f => (f.1, ψ f.2)⟩ := by
  have htext := Json.Record.required_congr (fun f : Field => f.value.string?)
    fun f hf => (h f hf).text
  have hsize := Json.Record.withDefault_congr
    (fun f : Field => Json.Tree.nullable? Json.Tree.uint32? f.value) fun f hf => (h f hf).size
  have hvalue := Json.Record.withDefault_congr (fun f : Field => f.value.toJson?)
    fun f hf => (h f hf).value
  have hscript := Json.Record.withDefault_congr Field.script? fun f hf => (h f hf).script
  unfold effect?
  simp only [htext, hsize, hvalue, hscript]

/-- What relates effects of the same kind relates objects whose fields name the same kinds. -/
theorem ofFields?_related {fields : List (String × α)}
    (hkind : ∀ f ∈ fields, kindOf? (φ f.2).value = kindOf? (ψ f.2).value)
    {motive : Option Step → Option Step → Prop} (none : motive none none)
    (effect : ∀ kind fs, fs ⊆ fields → motive (effect? kind ⟨fs.map fun f => (f.1, φ f.2)⟩)
      (effect? kind ⟨fs.map fun f => (f.1, ψ f.2)⟩)) :
    motive (ofFields? (fields.map fun f => (f.1, φ f.2)))
      (ofFields? (fields.map fun f => (f.1, ψ f.2))) := by
  unfold ofFields?
  dsimp only
  rw [Json.Record.required_congr (fun f : Field => kindOf? f.value) hkind,
    Json.Record.others_map, Json.Record.others_map]
  cases Json.Record.required _ "type" _ with
  | none => exact none
  | some kind => exact effect kind _ (List.filter_subset_self _)

/-- What relates effects of the same kind relates arrays whose items name the same kinds. -/
theorem ofItems?_related {items : List α}
    (hkind : ∀ x ∈ items, kindOf? (φ x).value = kindOf? (ψ x).value)
    {motive : Option Step → Option Step → Prop} (none : motive none none)
    (effect : ∀ kind (fs : List (String × α)), (∀ f ∈ fs, f.2 ∈ items) →
      motive (effect? kind ⟨fs.map fun f => (f.1, φ f.2)⟩)
        (effect? kind ⟨fs.map fun f => (f.1, ψ f.2)⟩)) :
    motive (ofItems? (items.map φ)) (ofItems? (items.map ψ)) := by
  cases items with
  | nil => exact none
  | cons tag items =>
    rw [List.map_cons, List.map_cons, ofItems?, ofItems?, hkind tag List.mem_cons_self,
      List.length_map, List.length_map]
    cases kindOf? (ψ tag).value with
    | none => exact none
    | some kind =>
      by_cases hlength : items.length ≤ (fieldNames kind).length
      · simp only [Option.bind_eq_bind, Option.bind_some, guard, if_pos hlength, Option.pure_def]
        rw [List.zip_map_right, List.zip_map_right]
        exact effect kind _ fun f hf => List.mem_cons_of_mem _ (List.of_mem_zip hf).2
      · simp only [Option.bind_eq_bind, Option.bind_some, guard, if_neg hlength]
        exact none

/-- An object of alike fields is the same effect. -/
theorem ofFields?_congr {fields : List (String × α)} (h : ∀ f ∈ fields, (φ f.2).Alike (ψ f.2)) :
    ofFields? (fields.map fun f => (f.1, φ f.2)) =
      ofFields? (fields.map fun f => (f.1, ψ f.2)) :=
  ofFields?_related (fun f hf => (h f hf).kind) rfl fun kind _ hfs =>
    effect?_congr (fun f hf => h f (hfs hf)) kind

/-- An array of alike items is the same effect. -/
theorem ofItems?_congr {items : List α} (h : ∀ x ∈ items, (φ x).Alike (ψ x)) :
    ofItems? (items.map φ) = ofItems? (items.map ψ) :=
  ofItems?_related (fun x hx => (h x hx).kind) rfl fun kind _ hfs =>
    effect?_congr (fun f hf => h f.2 (hfs f hf)) kind

end Alike

/-- An object is the same effect in every order of its fields. -/
theorem ofFields?_perm {fields fields' : List (String × Field)} (h : fields.Perm fields') :
    ofFields? fields = ofFields? fields' := by
  have hothers : (Json.Record.others ⟨fields⟩ ["type"]).Perm
      (Json.Record.others ⟨fields'⟩ ["type"]) :=
    h.filter _
  have hfind := Json.Record.find?_perm hothers
  unfold ofFields?
  simp only [Json.Record.required, Json.Record.find?_perm h]
  refine Option.bind_congr fun kind _ => ?_
  unfold effect?
  simp only [Json.Record.required, Json.Record.withDefault, Json.Record.among, hfind]

/-- A tree and the settled tree are akin. -/
theorem Field.akin_settled (t : Json.Tree) : (Field.of t.settled).Akin (Field.of t) := by
  cases hv : t.toJson? with
  | none =>
    rw [Json.Tree.settled_of_none hv]
    exact ⟨rfl, rfl, rfl⟩
  | some v =>
    cases t with
    | null => cases hv; exact ⟨rfl, rfl, rfl⟩
    | bool b => cases hv; exact ⟨rfl, rfl, rfl⟩
    | number x => cases hv; exact ⟨rfl, rfl, rfl⟩
    | string s => cases hv; exact ⟨rfl, rfl, rfl⟩
    | refused => cases hv
    | array items =>
      rw [Json.Tree.settled_array hv]
      exact ⟨rfl, rfl, rfl⟩
    | object fields =>
      obtain ⟨fs, -, rfl⟩ := Option.map_eq_some_iff.mp hv
      rw [Json.Tree.settled_eq hv]
      exact ⟨rfl, rfl, rfl⟩

/-- The items of an array are read one by one. -/
theorem stepsOf?_congr {items : List Json.Tree} {φ : Json.Tree → Json.Tree}
    (h : ∀ t ∈ items, ofTree? (φ t) = ofTree? t) : stepsOf? (items.map φ) = stepsOf? items := by
  induction items with
  | nil => rfl
  | cons t ts ih =>
    rw [List.map_cons, stepsOf?, stepsOf?, h t List.mem_cons_self,
      ih fun u hu => h u (List.mem_cons_of_mem _ hu)]

/-- A tidy tree is the same step and the same script once it is settled. -/
theorem ofTree?_settled {n : Nat} {t : Json.Tree} (ht : t.Tidy n) :
    ofTree? t.settled = ofTree? t ∧ scriptOfTree? t.settled = scriptOfTree? t := by
  -- By induction on the levels of the tree: what lies inside is alike, so the whole is the same.
  induction ht with
  | null => exact ⟨rfl, rfl⟩
  | bool b => exact ⟨rfl, rfl⟩
  | number h => exact ⟨rfl, rfl⟩
  | string s => exact ⟨rfl, rfl⟩
  | refused => exact ⟨rfl, rfl⟩
  | @array n items h ih =>
    have hvalue := Json.Tree.toJson?_settled (Json.Tree.Tidy.array h).fits
    cases hv : (Json.Tree.array items).toJson? with
    -- What is no value settles as it is.
    | none =>
      rw [Json.Tree.settled_of_none hv]
      exact ⟨rfl, rfl⟩
    | some v =>
      -- Each item is akin to what it settles as, so the effect is the same one.
      have heffect : ofItems? (itemsOf (items.map Json.Tree.settled)) =
          ofItems? (itemsOf items) := by
        rw [itemsOf_eq_map, itemsOf_eq_map, List.map_map]
        exact ofItems?_congr fun t ht =>
          ⟨Field.akin_settled t, Json.Tree.toJson?_settled (h t ht).fits, (ih t ht).2⟩
      rw [Json.Tree.settled_array hv] at hvalue ⊢
      constructor
      · rw [ofTree?, ofTree?, hvalue, heffect]
      · exact stepsOf?_congr fun t ht => (ih t ht).1
  | @object n fields hkeys h ih =>
    have hvalue := Json.Tree.toJson?_settled (Json.Tree.Tidy.object hkeys h).fits
    cases hv : (Json.Tree.object fields).toJson? with
    | none =>
      rw [Json.Tree.settled_of_none hv]
      exact ⟨rfl, rfl⟩
    | some v =>
      -- Settling sorts the fields, which changes nothing for an object with each key once.
      obtain ⟨fs, htree, hperm⟩ := Json.Tree.settled_object hkeys hv
      have heffect : ofFields? (fieldsOf fs) = ofFields? (fieldsOf fields) := by
        have hsame := @ofFields?_congr _ (fun t : Json.Tree => Field.of t.settled) Field.of fields
          fun f hf => ⟨Field.akin_settled f.2, Json.Tree.toJson?_settled (h f hf).fits,
            (ih f hf).2⟩
        rw [fieldsOf_eq_map, fieldsOf_eq_map, ofFields?_perm (hperm.map _), List.map_map]
        exact hsame
      rw [htree] at hvalue ⊢
      refine ⟨?_, rfl⟩
      rw [ofTree?, ofTree?, hvalue, heffect]

/-! ### Steps that are read again -/

/-- What is written for a step takes no more than so many levels, and its tree is read as the
step. -/
structure Rewritten (exact : Bool) (n : Nat) (s : Step) : Prop where
  /-- It fits. -/
  fits : s.toJson.Within exact n
  /-- It is read again. -/
  reread : ofTree? s.toJson.toTree = some s

/-- A step is written as what is read as the step, and the numbers in it are read back. -/
abbrev Stable (n : Nat) (s : Step) : Prop := s.Rewritten true n

end Step

/-- What is written for a script are the values of its steps. -/
theorem Script.toJson_eq_map (script : Script) :
    Document.toJson script = .array (script.map Step.toJson) := by
  have hmap : Step.scriptToJson script = script.map Step.toJson := by
    induction script with
    | nil => rfl
    | cons s ss ih => rw [Step.scriptToJson, ih, List.map_cons]
  exact congrArg Json.array hmap

/-- An array is read as a script item by item. -/
theorem Script.ofTree?_array {write : Step → Json} {φ : Step → Step} {script : Script}
    (h : ∀ s ∈ script, Step.ofTree? (write s).toTree = some (φ s)) :
    Script.ofTree? (Json.array (script.map write)).toTree = some (script.map φ) := by
  rw [Json.toTree, Json.itemsToTree_eq_map]
  show Step.stepsOf? ((script.map write).map Json.toTree) = some (script.map φ)
  induction script with
  | nil => rfl
  | cons s ss ih =>
    rw [List.map_cons, List.map_cons, Step.stepsOf?, h s List.mem_cons_self,
      ih fun t ht => h t (List.mem_cons_of_mem _ ht)]
    rfl

/-- What is written for a script takes one level more than what is written for its steps. -/
theorem Script.fits_of_forall {exact : Bool} {n : Nat} {script : Script}
    (h : ∀ s ∈ script, s.toJson.Within exact n) :
    (Document.toJson script).Within exact (n + 1) := by
  rw [toJson_eq_map]
  refine Json.fits_array fun v hv => ?_
  obtain ⟨s, hs, rfl⟩ := List.mem_map.mp hv
  exact h s hs

/-- A script of stable steps is stable. -/
theorem Script.stable_of_forall {n : Nat} {script : Script} (h : ∀ s ∈ script, s.Stable n) :
    Document.Stable (n + 1) script := by
  have hread := Script.ofTree?_array (φ := id) fun s hs => (h s hs).reread
  rw [List.map_id, ← toJson_eq_map] at hread
  exact ⟨fits_of_forall fun s hs => (h s hs).fits, hread⟩

/-- The steps of a stable script are stable. -/
theorem Script.forall_of_stable {n : Nat} {script : Script} (h : Document.Stable (n + 1) script) :
    ∀ s ∈ script, s.Stable n := by
  obtain ⟨hfits, hread⟩ := h
  rw [toJson_eq_map] at hfits hread
  replace hfits := hfits.items
  rw [Json.toTree, Json.itemsToTree_eq_map] at hread
  replace hread : Step.stepsOf? ((script.map Step.toJson).map Json.toTree) = some script := hread
  induction script with
  | nil => exact fun s hs => by cases hs
  | cons s ss ih =>
    rw [List.map_cons] at hfits
    obtain ⟨hfirst, hrest⟩ := List.forall_mem_cons.mp hfits
    rw [List.map_cons, List.map_cons, Step.stepsOf?] at hread
    obtain ⟨s', hs, hread⟩ := Option.bind_eq_some_iff.mp hread
    obtain ⟨ss', hss, hread⟩ := Option.bind_eq_some_iff.mp hread
    cases hread
    exact List.forall_mem_cons.mpr ⟨⟨hfirst, hs⟩, ih hrest hss⟩

namespace Step

variable {exact : Bool} {n : Nat}

/-- The fields of a written effect make an effect of its kind. -/
theorem ofFields?_tagged {kind : String} {fields : List (String × Json)}
    (htype : ∀ f ∈ fields, f.1 ≠ "type") :
    ofFields? (fieldsOf (("type", Json.Tree.string kind) :: Json.fieldsToTree fields)) =
      effect? kind ⟨fields.map fun f => (f.1, Field.of f.2.toTree)⟩ := by
  have hfields : fieldsOf (("type", Json.Tree.string kind) :: Json.fieldsToTree fields) =
      ("type", Field.of (.string kind)) :: fields.map fun f => (f.1, Field.of f.2.toTree) := by
    rw [fieldsOf_eq_map, Json.fieldsToTree_eq_map, List.map_cons, List.map_map]
    rfl
  -- Besides the kind no field is called `type`.
  have hnone : (fields.map fun f => (f.1, Field.of f.2.toTree)).filter
      (fun f => ["type"].contains f.1) = [] := by
    refine List.filter_eq_nil_iff.mpr fun f hf => ?_
    obtain ⟨g, hg, rfl⟩ := List.mem_map.mp hf
    simpa using htype g hg
  have hall : (fields.map fun f => (f.1, Field.of f.2.toTree)).filter
      (fun f => !(["type"].contains f.1)) = fields.map fun f => (f.1, Field.of f.2.toTree) := by
    refine List.filter_eq_self.mpr fun f hf => ?_
    obtain ⟨g, hg, rfl⟩ := List.mem_map.mp hf
    simpa using htype g hg
  rw [hfields]
  unfold ofFields? Json.Record.required Json.Record.find? Json.Record.others
  dsimp only
  rw [List.filter_cons_of_pos (by simp), hnone, List.filter_cons_of_neg (by simp), hall]
  rfl

/-- A written effect is read as the effect that its fields make, or else kept as a value. -/
theorem ofTree?_tagged_eq (kind : String) {fields : List (String × Json)}
    (htype : ∀ f ∈ fields, f.1 ≠ "type") :
    ofTree? (tagged kind fields).toTree =
      some ((effect? kind ⟨fields.map fun f => (f.1, Field.of f.2.toTree)⟩).getD
        (.unrecognized (tagged kind fields).canon)) := by
  have hvalue := Json.toJson?_toTree (tagged kind fields)
  rw [← ofFields?_tagged htype]
  unfold tagged at hvalue ⊢
  rw [Json.toTree, Json.fieldsToTree] at hvalue ⊢
  rw [ofTree?, hvalue]
  rfl

/-- A written effect is read as the effect that its fields make. -/
theorem ofTree?_tagged {kind : String} {fields : List (String × Json)} {s : Step}
    (htype : ∀ f ∈ fields, f.1 ≠ "type")
    (h : effect? kind ⟨fields.map fun f => (f.1, Field.of f.2.toTree)⟩ = some s) :
    ofTree? (tagged kind fields).toTree = some s := by
  rw [ofTree?_tagged_eq kind htype, h]
  rfl

/-- A written effect takes one level more than its fields. -/
theorem fits_tagged {kind : String} {fields : List (String × Json)}
    (h : ∀ f ∈ fields, f.2.Within exact n) : (tagged kind fields).Within exact (n + 1) := by
  refine Json.fits_object fun f hf => ?_
  rcases List.mem_cons.mp hf with rfl | hf
  · exact Json.fits_string kind
  · exact h f hf

/-- An effect that is made of one text is stable. -/
theorem stable_of_text {make : String → Step} (kind name : String)
    (hwritten : ∀ a, (make a).toJson = tagged kind [(name, .string a)])
    (hread : ∀ r, effect? kind r = make <$> r.required name fun f => f.value.string?)
    (hname : name ≠ "type") (a : String) : (make a).Rewritten exact (n + 1) := by
  constructor
  · rw [hwritten]
    exact fits_tagged (by simp)
  · rw [hwritten]
    refine ofTree?_tagged (by simpa using hname) ?_
    rw [hread]
    simp [Json.Record.required, Json.Record.find?, Field.of, Json.toTree, Json.Tree.string?]

/-- An effect that is made of two texts is stable. -/
theorem stable_of_two_texts {make : String → String → Step} (kind name name' : String)
    (hwritten : ∀ a b, (make a b).toJson = tagged kind [(name, .string a), (name', .string b)])
    (hread : ∀ r, effect? kind r = make <$> (r.required name fun f => f.value.string?) <*>
      r.required name' fun f => f.value.string?)
    (hname : name ≠ "type") (hname' : name' ≠ "type") (hne : name ≠ name') (a b : String) :
    (make a b).Rewritten exact (n + 1) := by
  constructor
  · rw [hwritten]
    exact fits_tagged (by simp)
  · rw [hwritten]
    refine ofTree?_tagged (by simp [hname, hname']) ?_
    rw [hread]
    simp [Json.Record.required, Json.Record.find?, Field.of, Json.toTree, Json.Tree.string?, hne,
      hne.symm]

/-- A picture with a size that was read is the effect that its fields make. -/
theorem effect?_art (file : String) {size : UInt32} {t : Json.Tree}
    (hsize : Json.Tree.nullable? Json.Tree.uint32? t = some (some size)) :
    effect? "ascii" ⟨[("file", Field.of (.string file)), ("fontSize", Field.of t)]⟩ =
      some (art file (some size)) := by
  simp [effect?, Json.Record.required, Json.Record.withDefault, Json.Record.among,
    Json.Record.find?, Field.of, Json.Tree.string?, hsize]

/-- A picture is stable. -/
theorem stable_art (file : String) (size : Option UInt32) :
    (art file size).Rewritten exact (n + 1) := by
  -- A picture is written with one field or with two, according to whether it has a size.
  constructor
  · refine fits_tagged fun f hf => ?_
    rcases List.mem_cons.mp hf with rfl | hf
    · exact Json.fits_string file
    · cases size with
      | none => cases hf
      | some size =>
        rw [List.mem_singleton.mp hf]
        exact Json.fits_ofUInt32 size
  -- Reading it back asks for the size only if there is one.
  · refine ofTree?_tagged ?_ ?_
    · cases size <;> simp [Json.optionalField]
    · cases size with
      | none =>
        simp [effect?, Json.Record.required, Json.Record.withDefault, Json.Record.among,
          Json.Record.find?, Json.optionalField, Field.of, Json.toTree, Json.Tree.string?]
      | some size =>
        have hsize := (Json.rereads_ofUInt32 size).nullable (by simp [Json.ofUInt32]) .written
        rw [Json.Form.tree] at hsize
        exact effect?_art file hsize

/-- Setting a flag to a value of a text is stable. -/
theorem stable_setFlag (key : String) {value : Json} (hsorted : value.Sorted)
    (hfits : value.Within exact n) : (setFlag key value).Rewritten exact (n + 1) := by
  constructor
  · refine fits_tagged fun f hf => ?_
    simp only [List.mem_cons, List.not_mem_nil, or_false] at hf
    rcases hf with rfl | rfl
    · exact Json.fits_string key
    · exact hfits
  · refine ofTree?_tagged (by simp) ?_
    simp [effect?, Json.Record.required, Json.Record.withDefault, Json.Record.among,
      Json.Record.find?, Field.of, Json.toTree, Json.Tree.string?, Json.toJson?_toTree,
      Json.canon_eq_self hsorted]

/-- The fields of a written branch make the branch if each of them is read as its own part. -/
theorem effect?_branch (key : String) {equals : Json} {onMatch otherwise : Script}
    {equals' onMatch' otherwise' : Json.Tree} :
    effect? "flag_if" ⟨[("key", Field.of (.string key)), ("equals", Field.of equals'),
        ("then", Field.of onMatch'), ("else", Field.of otherwise')]⟩ =
      some (branch key equals onMatch otherwise) ↔
    equals'.toJson? = some equals ∧ scriptOfTree? onMatch' = some onMatch ∧
      scriptOfTree? otherwise' = some otherwise := by
  simp [effect?, Json.Record.required, Json.Record.withDefault, Json.Record.among,
    Json.Record.find?, Field.of, Json.Tree.string?, seq_eq_bind_map, Option.bind_eq_some_iff,
    Option.map_eq_some_iff]

/-- A branch is stable if its scripts are and if what it compares the flag with is the value of a
text. -/
theorem stable_branch_iff {key : String} {equals : Json} {onMatch otherwise : Script} :
    (branch key equals onMatch otherwise).Stable (n + 1) ↔
      (equals.canon = equals ∧ equals.FitsExactly n) ∧ Document.Stable n onMatch ∧
        Document.Stable n otherwise := by
  -- None of the fields is the tag, so what is written is read back through them.
  have htype : ∀ f ∈ [("key", Json.string key), ("equals", equals),
    ("then", .array (scriptToJson onMatch)), ("else", .array (scriptToJson otherwise))],
    f.1 ≠ "type" := by simp
  have hread := ofTree?_tagged_eq "flag_if" htype
  constructor
  · rintro ⟨hfits, hreread⟩
    -- A branch is no record that is kept as a value, so its fields make an effect.
    have heffect := hread.symm.trans hreread
    cases hs : effect? "flag_if" _ with
    | none =>
      rw [hs] at heffect
      cases heffect
    | some s =>
      rw [hs] at heffect
      cases heffect
      obtain ⟨hequals, hmatch, hotherwise⟩ := (effect?_branch key).mp hs
      rw [Json.toJson?_toTree] at hequals
      have hfields := hfits.fields
      exact ⟨⟨Option.some.inj hequals, hfields ("equals", equals) (by simp)⟩,
        ⟨hfields ("then", .array (scriptToJson onMatch)) (by simp), hmatch⟩,
        hfields ("else", .array (scriptToJson otherwise)) (by simp), hotherwise⟩
  -- The other way round, every part is read back, and so is the branch.
  · rintro ⟨⟨hequals, hfits⟩, hmatch, hotherwise⟩
    refine ⟨fits_tagged fun f hf => ?_, hread.trans ?_⟩
    · simp only [List.mem_cons, List.not_mem_nil, or_false] at hf
      rcases hf with rfl | rfl | rfl | rfl
      · exact Json.fits_string key
      · exact hfits
      · exact hmatch.fits
      · exact hotherwise.fits
    · have hvalue := (Json.toJson?_toTree equals).trans (congrArg some hequals)
      have heffect := (effect?_branch key).mpr ⟨hvalue, hmatch.reread, hotherwise.reread⟩
      exact congrArg (fun s : Option Step => some (s.getD _)) heffect

/-! ### Steps and scripts that were read -/

/-- What a field of an effect says is a value of a text, and a script that is read again. -/
structure Field.Stable (n : Nat) (f : Field) : Prop where
  /-- The value is sorted and fits. -/
  value : ∀ v, f.value.toJson? = some v → v.Sorted ∧ v.FitsExactly n
  /-- The script is stable. -/
  script : ∀ script, f.script? = some script → Document.Stable (n + 1) script

/-- An effect whose values were read from texts is stable of itself, unless it is a branch. -/
theorem stable_or_branch {kind : String} {r : Json.Record Field} {s : Step}
    (hr : ∀ f ∈ r.fields, ∀ v, f.2.value.toJson? = some v → v.Sorted ∧ v.Within exact n)
    (h : effect? kind r = some s) {motive : Step → Prop}
    (plain : ∀ s : Step, s.Rewritten exact (n + 1) →
      (∀ key equals onMatch otherwise, s ≠ .branch key equals onMatch otherwise) → motive s)
    (branch : ∀ key equals onMatch otherwise, equals.Sorted → equals.Within exact n →
      r.withDefault "then" [] Field.script? = some onMatch →
      r.withDefault "else" [] Field.script? = some otherwise →
      motive (.branch key equals onMatch otherwise)) : motive s := by
  -- A value that an effect has was read from one of its fields, or is the default.
  have hvalue : ∀ {name : String} {value : Json},
      (r.withDefault name .null fun f => f.value.toJson?) = some value →
        value.Sorted ∧ value.Within exact n := by
    intro name value h
    rcases Json.Record.exists_of_among h with rfl | ⟨f, hf, hread⟩
    · exact ⟨trivial, Json.fits_null⟩
    · exact hr f hf value hread
  -- The kinds with one text differ in its name only.
  have htext : ∀ {make : String → Step} (kind name : String),
      (∀ a, (make a).toJson = tagged kind [(name, .string a)]) →
      (∀ r, effect? kind r = make <$> r.required name fun f => f.value.string?) → name ≠ "type" →
      (∀ a key equals onMatch otherwise, make a ≠ .branch key equals onMatch otherwise) →
      ∀ a, motive (make a) :=
    fun kind name hwritten hread hname hne a =>
      plain _ (stable_of_text kind name hwritten hread hname a) (hne a)
  -- The kinds are looked at one by one, and all but the branch are plain.
  apply cases_of_effect? h
  case message => exact htext "message" "text" (fun _ => rfl) (fun _ => rfl) (by simp) (by simp)
  case art => exact fun file size => plain _ (stable_art file size) (by simp)
  case setFlag =>
    intro key value hread
    obtain ⟨hsorted, hfits⟩ := hvalue hread
    exact plain _ (stable_setFlag key hsorted hfits) (by simp)
  case branch =>
    intro key equals onMatch otherwise _ hequals hmatch hotherwise
    obtain ⟨hsorted, hfits⟩ := hvalue hequals
    exact branch key equals onMatch otherwise hsorted hfits hmatch hotherwise
  case addItem => exact htext "add_item" "id" (fun _ => rfl) (fun _ => rfl) (by simp) (by simp)
  case removeItem =>
    exact htext "remove_item" "id" (fun _ => rfl) (fun _ => rfl) (by simp) (by simp)
  case unlockExit =>
    exact fun room direction => plain _ (stable_of_two_texts "unlock_exit" "room" "direction"
      (fun _ _ => rfl) (fun _ => rfl) (by simp) (by simp) (by simp) room direction) (by simp)
  case lockExit =>
    exact fun room direction => plain _ (stable_of_two_texts "lock_exit" "room" "direction"
      (fun _ _ => rfl) (fun _ => rfl) (by simp) (by simp) (by simp) room direction) (by simp)
  case transition => exact htext "transition" "to" (fun _ => rfl) (fun _ => rfl) (by simp) (by simp)
  case fight =>
    exact htext "trigger_fight" "enemy" (fun _ => rfl) (fun _ => rfl) (by simp) (by simp)

/-- An effect that was read from stable fields is stable. -/
theorem stable_of_effect? {kind : String} {r : Json.Record Field} {s : Step}
    (hr : ∀ f ∈ r.fields, f.2.Stable n) (h : effect? kind r = some s) : s.Stable (n + 2) := by
  have hscript : ∀ {name : String} {script : Script},
      r.withDefault name [] Field.script? = some script → Document.Stable (n + 1) script := by
    intro name script h
    rcases Json.Record.exists_of_among h with rfl | ⟨f, hf, hread⟩
    · exact Script.stable_of_forall fun s hs => by cases hs
    · exact (hr f hf).script script hread
  refine stable_or_branch (fun f hf => (hr f hf).value) h (fun s hs _ => ?_) ?_
  · exact ⟨hs.fits.mono (Nat.le_succ _), hs.reread⟩
  · intro key equals onMatch otherwise hsorted hfits hmatch hotherwise
    exact stable_branch_iff.mpr ⟨⟨Json.canon_eq_self hsorted, hfits.mono (Nat.le_succ n)⟩,
      hscript hmatch, hscript hotherwise⟩

/-- A value that is kept as it is stays what it is: it is no effect, whatever the order of its
fields. -/
theorem stable_unrecognized {t : Json.Tree} (ht : t.Tidy n) {raw : Json}
    (hraw : t.toJson? = some raw) (h : ofTree? t = some (.unrecognized raw)) :
    (unrecognized raw).Stable (n + 1) := by
  refine ⟨(ht.fits.toJson? hraw).2.mono (Nat.le_succ n), ?_⟩
  have hsettled := (ofTree?_settled ht).1
  rw [Json.Tree.settled_eq hraw] at hsettled
  exact hsettled.trans h

/-- A step or a script that was read from a tidy tree is stable, with one level more. -/
theorem stable_of_tidy {t : Json.Tree} (ht : t.Tidy n) :
    (∀ s, ofTree? t = some s → s.Stable (n + 1)) ∧
      ∀ script, scriptOfTree? t = some script → Document.Stable (n + 1) script := by
  -- The induction is on what lies inside the tree, for steps and scripts at once: a script is an
  -- array of steps, and an effect has scripts among its parts.
  induction t using Json.Tree.inside_induction generalizing n with
  | tree t ih =>
    refine ⟨fun s h => ?_, fun script h => ?_⟩
    · rcases cases_of_ofTree? h with ⟨raw, hraw, rfl⟩ | ⟨kind, heffect⟩
      · exact stable_unrecognized ht hraw h
      · obtain ⟨u, hu⟩ := exists_inside_of_effect? heffect
        obtain ⟨m, rfl⟩ := Nat.exists_eq_add_one.mpr (ht.fits.pos_of_inside hu)
        refine stable_of_effect? (fun f hf => ?_) heffect
        obtain ⟨g, hg, rfl⟩ := List.mem_map.mp hf
        have htidy := ht.inside (inside_of_mem_partsOf hg)
        exact ⟨fun v hv => htidy.fits.toJson? hv, (ih _ (inside_of_mem_partsOf hg) htidy).2⟩
    · refine Script.stable_of_forall fun s hs => ?_
      obtain ⟨u, hu, hread⟩ := exists_inside_of_scriptOfTree? h hs
      obtain ⟨m, rfl⟩ := Nat.exists_eq_add_one.mpr (ht.fits.pos_of_inside hu)
      exact (ih u hu (ht.inside hu)).1 s hread

end Step

end TextAdventure
