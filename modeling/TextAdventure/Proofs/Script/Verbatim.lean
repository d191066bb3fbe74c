import TextAdventure.Proofs.Script.Repeated

/-!
# Records that are no effects are kept

A script that a text holds is written in texts that are read again (`Script.fits_of_ofText?`). What
is read then has a step wherever the script has one (`Script.stepAt?_map_reread`): the places of the
steps of a script are those of its steps and, inside a branch, those of the scripts of the branch
(`Script.Spot`). A record that is no effect is at its place again, as the value that it stands for
with the numbers that their texts are read as, unless it repeats a field that matters
(`Script.records_kept`).
-/

namespace TextAdventure

namespace Step

/-! ### The scripts of a branch -/

/-- The scripts of a branch. -/
inductive Side where
  /-- The script that runs if the flag has the value. -/
  | onMatch
  /-- The script that runs otherwise. -/
  | otherwise

/-- The field of a branch that has the script. -/
def Side.name : Side → String
  | onMatch => "then"
  | otherwise => "else"

/-- The script of a branch on one side. No other step has one. -/
def scriptOn (side : Side) : Step → Script
  | .branch _ _ onMatch otherwise =>
    match side with
    | .onMatch => onMatch
    | .otherwise => otherwise
  | _ => []

end Step

namespace Script

/-! ### Places of steps -/

/-- A place of a step: in a script itself, or in a script of a branch at some place of it. -/
inductive Spot where
  /-- The step at an index. -/
  | step (i : Nat)
  /-- A place inside the branch at an index. -/
  | inside (i : Nat) (side : Step.Side) (spot : Spot)

/-- The step of a script at a place. -/
def stepAt? (script : Script) : Spot → Option Step
  | .step i => script[i]?
  | .inside i side spot => do
    let s ← script[i]?
    stepAt? (s.scriptOn side) spot

end Script

/-- The record that stands for the step at a place, in the tree that a script is read from. -/
def Json.Tree.recordAt? : Tree → Script.Spot → Option Tree
  | .array items, .step i => items[i]?
  | .array items, .inside i side spot => do
    let t ← items[i]?
    let part ← (Step.partsOf "flag_if" t).lookup side.name
    recordAt? part spot
  | _, _ => none

namespace Step

variable {n : Nat} {t : Json.Tree} {s : Step}

/-- A script of a step stands in one of its fields, or it is empty. -/
theorem scriptOn_of_ofTree? (h : ofTree? t = some s) (side : Side) :
    s.scriptOn side = [] ∨ ∃ part, (partsOf "flag_if" t).lookup side.name = some part ∧
      scriptOfTree? part = some (s.scriptOn side) := by
  rcases cases_of_ofTree? h with ⟨raw, -, rfl⟩ | ⟨kind, heffect⟩
  · exact .inl rfl
  · apply cases_of_effect? heffect
    case branch =>
      rintro key equals onMatch otherwise rfl - hmatch hotherwise
      have hread : Json.Record.withDefault
          ⟨(partsOf "flag_if" t).map fun f => (f.1, Field.of f.2)⟩ side.name [] Field.script? =
            some (scriptOn side (.branch key equals onMatch otherwise)) := by
        cases side with
        | onMatch => exact hmatch
        | otherwise => exact hotherwise
      obtain ⟨value, hvalue, hread⟩ := Option.bind_eq_some_iff.mp hread
      rw [Json.Record.find?_map] at hvalue
      obtain ⟨part, hpart, rfl⟩ := Option.map_eq_some_iff.mp hvalue
      cases part with
      | none => exact .inl (Option.some.inj hread).symm
      | some part => exact .inr ⟨part, Json.Record.lookup_of_find? hpart, hread⟩
    -- No other effect has a script.
    all_goals
      intros
      exact .inl rfl

end Step

namespace Script

variable {n : Nat} {t : Json.Tree} {script : Script} {s : Step} {spot : Spot}

/-- An empty script has no step anywhere. -/
theorem stepAt?_nil (spot : Spot) : stepAt? [] spot = none := by
  cases spot <;> rfl

/-- The steps of a script are those of the items of an array, one by one. -/
theorem exists_of_getElem?_stepsOf? {items : List Json.Tree} (h : Step.stepsOf? items = some script)
    {i : Nat} (hs : script[i]? = some s) : ∃ u, items[i]? = some u ∧ Step.ofTree? u = some s := by
  induction items generalizing script i with
  | nil =>
    cases h
    cases hs
  | cons u us ih =>
    rw [Step.stepsOf?] at h
    obtain ⟨s', hs', h⟩ := Option.bind_eq_some_iff.mp h
    obtain ⟨ss, hss, h⟩ := Option.bind_eq_some_iff.mp h
    cases h
    cases i with
    | zero => exact ⟨u, rfl, hs'.trans hs⟩
    | succ i => exact ih hss hs

/-- The step at a place was read from the record at this place. -/
theorem exists_recordAt? (h : Script.ofTree? t = some script) (hs : script.stepAt? spot = some s) :
    ∃ u, t.recordAt? spot = some u ∧ Step.ofTree? u = some s := by
  -- The induction is on the place: a step inside a branch is one of a script that was read from a
  -- field of the branch.
  induction spot generalizing t script with
  | step i =>
    cases t with
    | array items => exact exists_of_getElem?_stepsOf? h hs
    | _ => cases h
  | inside i side spot ih =>
    cases t with
    | array items =>
      obtain ⟨branch, hbranch, hs⟩ := Option.bind_eq_some_iff.mp hs
      obtain ⟨u, hu, hread⟩ := exists_of_getElem?_stepsOf? h hbranch
      rcases Step.scriptOn_of_ofTree? hread side with hnil | ⟨part, hpart, hscript⟩
      · rw [hnil, stepAt?_nil] at hs
        cases hs
      · obtain ⟨record, hrecord, hstep⟩ := ih hscript hs
        refine ⟨record, ?_, hstep⟩
        rw [Json.Tree.recordAt?, hu]
        simp [hpart, hrecord]
    | _ => cases h

/-- A record at a place fits where the tree does. -/
theorem fits_of_recordAt? (ht : t.Fits n) {u : Json.Tree} (h : t.recordAt? spot = some u) :
    u.Fits n := by
  induction spot generalizing t with
  | step i =>
    cases t with
    | array items => exact (ht.of_inside (.item (List.mem_of_getElem? h))).mono (Nat.sub_le n 1)
    | _ => cases h
  | inside i side spot ih =>
    cases t with
    | array items =>
      rw [Json.Tree.recordAt?] at h
      obtain ⟨branch, hbranch, h⟩ := Option.bind_eq_some_iff.mp h
      obtain ⟨part, hpart, h⟩ := Option.bind_eq_some_iff.mp h
      have hbranch := ht.of_inside (.item (List.mem_of_getElem? hbranch))
      have hpart := hbranch.of_inside (Step.inside_of_mem_partsOf (Table.mem_of_lookup hpart))
      exact ih (hpart.mono (by omega)) h
    | _ => cases h

/-! ### Written scripts fit into texts -/

/-- A script of steps that fit as they are written fits as it is written. -/
theorem fits_of_ofTree? (hstep : ∀ {t s}, Json.Tree.Fits n t → Step.ofTree? t = some s →
    s.toJson.Fits n) (ht : t.Fits (n + 1)) (h : Script.ofTree? t = some script) :
    (Document.toJson script).Fits (n + 1) := by
  refine fits_of_forall fun s hs => ?_
  obtain ⟨u, hu, hread⟩ := Step.exists_inside_of_scriptOfTree? h hs
  exact hstep (ht.inside hu) hread

end Script

namespace Step

variable {n : Nat} {t : Json.Tree} {s : Step}

/-- An effect whose scripts fit fits as it is written. -/
theorem fits_of_effect? {kind : String} {fs : List (String × Json.Tree)}
    (hfits : ∀ f ∈ fs, f.2.Fits (n + 1))
    (hscript : ∀ f ∈ fs, ∀ script, scriptOfTree? f.2 = some script →
      (Document.toJson script).Fits (n + 1))
    (h : effect? kind ⟨fs.map fun f => (f.1, Field.of f.2)⟩ = some s) :
    s.toJson.Fits (n + 2) := by
  -- The scripts of a branch are read from its fields, or are empty.
  have hpart : ∀ {name : String} {script : Script}, Json.Record.withDefault
      ⟨fs.map fun f => (f.1, Field.of f.2)⟩ name [] Field.script? = some script →
        (Document.toJson script).Fits (n + 1) := by
    intro name script h
    rcases Json.Record.exists_of_among h with rfl | ⟨f, hf, hread⟩
    · exact Script.fits_of_forall fun s hs => by cases hs
    · obtain ⟨g, hg, rfl⟩ := List.mem_map.mp hf
      exact hscript g hg script hread
  -- All effects but branches fit of themselves.
  refine stable_or_branch (n := n + 1) (fun f hf v hv => ?_) h (fun s hs _ => hs.fits) ?_
  · obtain ⟨g, hg, rfl⟩ := List.mem_map.mp hf
    exact (hfits g hg).toJson? hv
  · intro key equals onMatch otherwise _ hequals hmatch hotherwise
    refine fits_tagged fun f hf => ?_
    simp only [List.mem_cons, List.not_mem_nil, or_false] at hf
    rcases hf with rfl | rfl | rfl | rfl
    · exact Json.fits_string key
    · exact hequals
    · exact hpart hmatch
    · exact hpart hotherwise

/-- A step that was read from a tree with an even number of levels fits into as many as it is
written. -/
theorem fits_of_ofTree? {k : Nat} (ht : t.Fits (2 * k)) (h : ofTree? t = some s) :
    s.toJson.Fits (2 * k) := by
  -- The induction is on the levels, two at a time: one is that of a step, the other one that of a
  -- script inside it. A branch is written with both of its scripts, whether they were there or not,
  -- and what was read as a branch had a level for them.
  induction k generalizing t s with
  | zero =>
    rcases cases_of_ofTree? h with ⟨raw, hraw, rfl⟩ | ⟨kind, heffect⟩
    · exact (ht.toJson? hraw).2
    · obtain ⟨u, hu⟩ := exists_inside_of_effect? heffect
      exact absurd (ht.pos_of_inside hu) (Nat.lt_irrefl 0)
  | succ k ih =>
    rcases cases_of_ofTree? h with ⟨raw, hraw, rfl⟩ | ⟨kind, heffect⟩
    · exact (ht.toJson? hraw).2
    · have hinside := fun f (hf : f ∈ partsOf kind t) => ht.inside (inside_of_mem_partsOf hf)
      exact fits_of_effect? hinside
        (fun f hf script => Script.fits_of_ofTree? ih (hinside f hf)) heffect

end Step

namespace Script

variable {t : Json.Tree} {script : Script} {s : Step} {spot : Spot}

/-- A script that a text holds can be written in a text. -/
theorem fits_of_ofText? {text : String} (h : Document.ofText? text = some script) :
    (Document.toJson script).Fits Json.Reader.maxNesting := by
  obtain ⟨t, ht, hread⟩ := Option.bind_eq_some_iff.mp h
  exact fits_of_ofTree? (n := 2 * 63) Step.fits_of_ofTree? (Json.Tree.fits_of_ofText? ht) hread

end Script

namespace Step

/-! ### What is read from a written script -/

/-- The step that is read from what is written for a step, with the numbers that their texts are
read as. -/
def reread (s : Step) : Step := (ofTree? s.toJson.reread.toTree).getD s

/-- What is written for a step is read as a step. -/
theorem ofTree?_reread (s : Step) : ofTree? s.toJson.reread.toTree = some s.reread := by
  have hsome : (ofTree? s.toJson.reread.toTree).isSome = true := by
    rw [isSome_ofTree?, Json.toJson?_toTree]
    rfl
  obtain ⟨s', hs⟩ := Option.isSome_iff_exists.mp hsome
  unfold reread
  rw [hs]
  rfl

end Step

/-- What is written for a script is read as a script step by step. -/
theorem Script.ofTree?_reread (script : Script) :
    Script.ofTree? (Document.toJson script).reread.toTree = some (script.map Step.reread) := by
  rw [toJson_eq_map, Json.reread, Json.rereadItems_eq_map, List.map_map]
  exact ofTree?_array fun s _ => s.ofTree?_reread

namespace Step

/-- A branch is read again with what is read from its scripts. -/
theorem reread_branch (key : String) (equals : Json) (onMatch otherwise : Script) :
    reread (.branch key equals onMatch otherwise) =
      .branch key equals.reread.canon (onMatch.map reread) (otherwise.map reread) := by
  have hread : ofTree? (tagged "flag_if" [("key", .string key), ("equals", equals.reread),
        ("then", (Document.toJson onMatch).reread),
        ("else", (Document.toJson otherwise).reread)]).toTree =
      some (.branch key equals.reread.canon (onMatch.map reread) (otherwise.map reread)) :=
    ofTree?_tagged (by simp) ((effect?_branch key).mpr ⟨Json.toJson?_toTree equals.reread,
      onMatch.ofTree?_reread, otherwise.ofTree?_reread⟩)
  exact Option.some.inj ((ofTree?_reread _).symm.trans hread)

/-- The parts of a value match those of the value that is read from its text. -/
theorem Field.matching_reread : ∀ {v : Json}, v.Held false →
    (Field.of v.reread.toTree).Matching (Field.of v.toTree)
  | .null, _ => ⟨⟨rfl, rfl, rfl⟩, rfl, rfl⟩
  | .bool _, _ => ⟨⟨rfl, rfl, rfl⟩, rfl, rfl⟩
  | .string _, _ => ⟨⟨rfl, rfl, rfl⟩, rfl, rfl⟩
  | .number (.integer n), h => by
    rw [Json.reread, Json.Number.reread_integer h.1]
    exact ⟨⟨rfl, rfl, rfl⟩, rfl, rfl⟩
  | .number (.real x), _ => by
    obtain ⟨y, hy⟩ := Json.Number.exists_reread_real x
    rw [Json.reread, hy]
    exact ⟨⟨rfl, rfl, rfl⟩, rfl, rfl⟩
  | .array items, _ => by
    refine ⟨⟨rfl, rfl, rfl⟩, ?_, ?_⟩
    · show (Json.array items).reread.toTree.toJson?.isSome =
        (Json.array items).toTree.toJson?.isSome
      rw [Json.toJson?_toTree, Json.toJson?_toTree]
      rfl
    · show (stepsOf? (Json.itemsToTree (Json.rereadItems items))).isSome =
        (stepsOf? (Json.itemsToTree items)).isSome
      rw [isSome_stepsOf?, isSome_stepsOf?, Json.itemsToJson?_itemsToTree,
        Json.itemsToJson?_itemsToTree]
      rfl
  | .object fields, _ => by
    refine ⟨⟨rfl, rfl, rfl⟩, ?_, rfl⟩
    show (Json.object fields).reread.toTree.toJson?.isSome =
      (Json.object fields).toTree.toJson?.isSome
    rw [Json.toJson?_toTree, Json.toJson?_toTree]
    rfl

/-- A value that is no effect is none with the numbers that their texts are read as. -/
theorem ofTree?_reread_of_unrecognized {raw : Json} (hsorted : raw.Sorted) (hfits : raw.Fits n)
    (h : ofTree? raw.toTree = some (.unrecognized raw)) :
    ofTree? raw.reread.toTree = some (.unrecognized raw.reread) := by
  -- The value with its numbers read again is still sorted, so it is read as itself.
  have hvalue := Json.toJson?_toTree raw.reread
  rw [Json.canon_eq_self hsorted.reread] at hvalue
  cases raw with
  | null => exact h
  | bool b => exact h
  -- A number is no effect, whatever number it is.
  | number x => rfl
  | string s => exact h
  | array items =>
    have hnone := (ofTree?_array_eq_unrecognized_iff.mp h).2
    refine ofTree?_array_eq_unrecognized_iff.mpr ⟨hvalue, ?_⟩
    have hitems := (hfits.mono (Nat.le_succ n)).items
    -- What the items are as fields does not depend on their numbers.
    have hsame := isSome_ofItems?_congr fun v hv => Field.matching_reread (hitems v hv).1
    rw [← Option.not_isSome_iff_eq_none] at hnone ⊢
    rw [itemsOf_eq_map, Json.itemsToTree_eq_map, List.map_map] at hnone ⊢
    rw [Json.rereadItems_eq_map, List.map_map]
    exact hsame ▸ hnone
  | object fields =>
    have hnone := (ofTree?_object_eq_unrecognized_iff.mp h).2
    refine ofTree?_object_eq_unrecognized_iff.mpr ⟨hvalue, ?_⟩
    have hfields := (hfits.mono (Nat.le_succ n)).fields
    have hmatching : ∀ f ∈ fields,
        (Field.of f.2.reread.toTree).Matching (Field.of f.2.toTree) :=
      fun f hf => Field.matching_reread (hfields f hf).1
    have hsame := @isSome_ofFields?_congr _ (fun v => Field.of v.reread.toTree)
      (fun v => Field.of v.toTree) fields hmatching
    rw [← Option.not_isSome_iff_eq_none] at hnone ⊢
    rw [fieldsOf_eq_map, Json.fieldsToTree_eq_map, List.map_map] at hnone ⊢
    rw [Json.rereadFields_eq_map, List.map_map]
    exact hsame ▸ hnone

/-- A script of a step is read again step by step, if it is not empty. -/
theorem scriptOn_reread {s : Step} {side : Side} (h : s.scriptOn side ≠ []) :
    s.reread.scriptOn side = (s.scriptOn side).map reread := by
  cases s with
  | branch key equals onMatch otherwise =>
    rw [reread_branch]
    cases side <;> rfl
  | _ => exact absurd rfl h

end Step

namespace Script

variable {t : Json.Tree} {script : Script} {s : Step} {spot : Spot}

/-- At the place of a step is the step that is read from what is written for it. -/
theorem stepAt?_map_reread (h : script.stepAt? spot = some s) :
    stepAt? (script.map Step.reread) spot = some s.reread := by
  induction spot generalizing script with
  | step i =>
    rw [stepAt?, List.getElem?_map, show script[i]? = some s from h]
    rfl
  | inside i side spot ih =>
    obtain ⟨branch, hbranch, h⟩ := Option.bind_eq_some_iff.mp h
    have hne : branch.scriptOn side ≠ [] := by
      intro hnil
      rw [hnil, stepAt?_nil] at h
      cases h
    rw [stepAt?, List.getElem?_map, hbranch]
    show stepAt? (branch.reread.scriptOn side) spot = some s.reread
    rw [Step.scriptOn_reread hne]
    exact ih h

/-- A script that a text holds can be written and read again, and then it has a step wherever it had
one before. A record that is no effect is at its place again, with the value that it stands for in
the text and the numbers that their texts are read as: it is the step that this value is read as.
Unless the record repeats its kind or a field that effects of this kind have, this is no effect
either, and it is the same record if its numbers are read back. -/
theorem records_kept {text : String} (h : Document.ofText? text = some script) :
    ∃ (t : Json.Tree) (again : Script), Json.Tree.ofText? text = some t ∧
      Document.ofText? (Document.text script) = some again ∧
      Document.ofText? (Document.toJson script).prettyText = some again ∧
      Document.ofText? (Document.fileText script) = some again ∧
      ∀ spot raw, script.stepAt? spot = some (.unrecognized raw) →
        ∃ u, t.recordAt? spot = some u ∧ u.toJson? = some raw ∧
          again.stepAt? spot = Step.ofTree? raw.reread.toTree ∧
          (¬u.RepeatsField → again.stepAt? spot = some (.unrecognized raw.reread) ∧
            (u.steady = true → again.stepAt? spot = some (.unrecognized raw))) := by
  obtain ⟨t, ht, hread⟩ := Option.bind_eq_some_iff.mp h
  have hfits := fits_of_ofText? h
  have hagain := script.ofTree?_reread
  have hpretty : Document.ofText? ((Document.toJson script).prettyText ++ "") =
      some (script.map Step.reread) :=
    (Document.ofText?_prettyText_of_fits hfits (by simp)).trans hagain
  rw [String.append_empty] at hpretty
  refine ⟨t, script.map Step.reread, ht, (Document.ofText?_text_of_fits hfits).trans hagain,
    hpretty, (Document.ofText?_fileText_of_fits hfits).trans hagain, fun spot raw hspot => ?_⟩
  obtain ⟨u, hu, hstep⟩ := exists_recordAt? hread hspot
  have hraw := Step.toJson?_of_unrecognized hstep
  have hkept : stepAt? (script.map Step.reread) spot = Step.ofTree? raw.reread.toTree :=
    (stepAt?_map_reread hspot).trans (Step.ofTree?_reread (.unrecognized raw)).symm
  have hrecord := fits_of_recordAt? (Json.Tree.fits_of_ofText? ht) hu
  refine ⟨u, hu, hraw, hkept, fun honce => ?_⟩
  -- The value is no effect, and its numbers do not make it one.
  obtain ⟨hsorted, hvalue⟩ := hrecord.toJson? hraw
  have hsame := hkept.trans (Step.ofTree?_reread_of_unrecognized hsorted hvalue
    (Step.ofTree?_toTree_of_unrecognized hrecord hstep honce))
  refine ⟨hsame, fun hsteady => ?_⟩
  have hexact := (Json.Tree.fitsExactly_of_steady hrecord hsteady).toJson? hraw
  rw [hsame, Json.reread_eq_self hexact.2.1]

/-- A script as an author may write it: a branch is an array, and in its script lie a record of an
unknown kind, in which a field is repeated, and a message that is no text. -/
def recital : Json := .array [.array [.string "flag_if", .string "lamp", .bool true,
  .array [.object [("type", .string "sing"), ("loud", .bool true), ("loud", .bool false)],
    .object [("type", .string "message"), ("text", .number (.integer 1))]]]]

/-- The script that is read from it. -/
def recited : Script := [.branch "lamp" (.bool true)
  [.unrecognized (.object [("loud", .bool false), ("type", .string "sing")]),
    .unrecognized (.object [("text", .number (.integer 1)), ("type", .string "message")])] []]

/-- Both records are kept inside the branch, though one of them repeats a field. -/
theorem records_kept_recited : Document.ofText? recital.compactText = some recited ∧
    ∃ again : Script, Document.ofText? (Document.fileText recited) = some again ∧
      again.stepAt? (.inside 0 .onMatch (.step 0)) =
        some (.unrecognized (.object [("loud", .bool false), ("type", .string "sing")])) ∧
      again.stepAt? (.inside 0 .onMatch (.step 1)) = some (.unrecognized
        (.object [("text", .number (.integer 1)), ("type", .string "message")])) := by
  have hone : (Json.Number.integer 1).Held true := Json.Number.held_integer ⟨by decide, by decide⟩
  have hheld : recital.Held true := by
    simp only [recital, Json.Held, Json.HeldFields, Json.HeldItems, hone, and_self]
  have htree := Json.Tree.ofText?_compactText hheld (by decide)
  rw [Json.reread_eq_self hheld] at htree
  have hread : Document.ofText? recital.compactText = some recited := by
    unfold Document.ofText?
    rw [htree]
    rfl
  obtain ⟨t, again, ht, -, -, hfile, hkept⟩ := records_kept hread
  obtain rfl := Option.some.inj (htree.symm.trans ht)
  obtain ⟨u, hu, -, -, hsing⟩ := hkept (.inside 0 .onMatch (.step 0)) _ rfl
  obtain ⟨v, hv, -, -, hmessage⟩ := hkept (.inside 0 .onMatch (.step 1)) _ rfl
  cases hu
  cases hv
  exact ⟨hread, again, hfile, (hsing (by decide)).2 (by decide),
    (hmessage (by decide)).2 (by decide +kernel)⟩

/-- A message with two texts. -/
def stutter : Json := .array
  [.object [("type", .string "message"), ("text", .string "a"), ("text", .string "b")]]

/-- A message with two texts is no effect and is kept as a value, but what is written for it is a
message: the effect that was skipped is there once the script is read again. -/
theorem record_revived :
    stutter.compactText = "[\x7b\"type\":\"message\",\"text\":\"a\",\"text\":\"b\"\x7d]" ∧
    ∃ script : Script, Document.ofText? stutter.compactText = some script ∧
      script.stepAt? (.step 0) =
        some (.unrecognized (.object [("text", .string "b"), ("type", .string "message")])) ∧
      Document.ofText? (Document.text script) = some [Step.message "b"] ∧
      Document.ofText? (Document.fileText script) = some [Step.message "b"] := by
  have hheld : stutter.Held true := by
    simp only [stutter, Json.Held, Json.HeldFields, Json.HeldItems, and_self]
  have hread : Document.ofText? stutter.compactText =
      some [Step.unrecognized (.object [("text", .string "b"), ("type", .string "message")])] := by
    unfold Document.ofText?
    rw [Json.Tree.ofText?_compactText hheld (by decide), Json.reread_eq_self hheld]
    rfl
  have hfits := fits_of_ofText? hread
  exact ⟨by decide +kernel, _, hread, rfl, Document.ofText?_text_of_fits hfits,
    Document.ofText?_fileText_of_fits hfits⟩

/-- A record of an unknown kind with a number. -/
def dance (x : Json.Number) : Json := .object [("type", .string "dance"), ("x", .number x)]

/-- A record whose number is not read back stays a record of its kind, but with another number every
time it is read. -/
theorem record_drifts :
    (Json.array [dance .grain]).compactText = "[\x7b\"type\":\"dance\",\"x\":1e-30\x7d]" ∧
    ∃ script : Script, Document.ofText? (Json.array [dance .grain]).compactText = some script ∧
      script.stepAt? (.step 0) = some (.unrecognized (dance .grainBelow)) ∧
      Document.ofText? (Document.text script) = some [Step.unrecognized (dance .grain)] := by
  have hheld : (Json.array [dance .grain]).Held false := by
    simp [dance, Json.Held, Json.HeldFields, Json.HeldItems, Json.Number.Held,
      Json.Number.printable_grain]
  have hreread : (Json.array [dance .grain]).reread = .array [dance .grainBelow] := by
    simp [dance, Json.reread, Json.rereadFields, Json.rereadItems, Json.Number.reread_grain]
  have hreread' : (Json.array [dance .grainBelow]).reread = .array [dance .grain] := by
    simp [dance, Json.reread, Json.rereadFields, Json.rereadItems, Json.Number.reread_grain]
  have hread : Document.ofText? (Json.array [dance .grain]).compactText =
      some [Step.unrecognized (dance .grainBelow)] := by
    unfold Document.ofText?
    rw [Json.Tree.ofText?_compactText hheld (by decide), hreread]
    rfl
  refine ⟨by decide +kernel, _, hread, rfl, ?_⟩
  have hwritten : Document.toJson ([Step.unrecognized (dance .grainBelow)] : Script) =
      .array [dance .grainBelow] := by rfl
  rw [Document.ofText?_text_of_fits (fits_of_ofText? hread), hwritten, hreread']
  rfl

end Script

end TextAdventure
