import TextAdventure.Proofs.Discipline
import TextAdventure.Proofs.Script.Read
import TextAdventure.World

/-!
# What scripts set flags to

The values of flags come from documents: the world names the flags of a new player, and steps of
scripts set others. Whatever a document that was read names can be saved again (`Step.Storable`,
`World.flags_of_ofText?`, `Room.storable_of_ofText?`): a script lies inside a document, so its
values nest less deep than the document does.
-/

namespace TextAdventure

/-- Whatever a step sets a flag to can be saved. -/
inductive Step.Storable : Step → Prop where
  /-- A step that sets a flag sets it to a value that can be saved. -/
  | setFlag (key : String) {value : Json} (sorted : value.Sorted) (fits : value.Fits 125) :
    Storable (.setFlag key value)
  /-- A branch is made of such steps. -/
  | branch (key : String) (equals : Json) {onMatch otherwise : Script}
    (hmatch : ∀ s ∈ onMatch, Storable s) (hotherwise : ∀ s ∈ otherwise, Storable s) :
    Storable (.branch key equals onMatch otherwise)
  /-- Every other step sets no flag. -/
  | other {s : Step} (hflag : ∀ key value, s ≠ .setFlag key value)
    (hbranch : ∀ key equals onMatch otherwise, s ≠ .branch key equals onMatch otherwise) :
    Storable s

namespace Step

/-- A field of an effect can be saved if it is a value and if it is a script. -/
def Field.Storable (f : Field) : Prop :=
  f.value.Fits 125 ∧ ∀ script, f.script? = some script → ∀ s ∈ script, s.Storable

/-- An effect can be saved if its fields can. -/
theorem storable_of_effect? {kind : String} {r : Json.Record Field} {s : Step}
    (hr : ∀ f ∈ r.fields, f.2.Storable) (h : effect? kind r = some s) : s.Storable := by
  have hscript : ∀ {name : String} {script : Script},
      r.withDefault name [] Field.script? = some script → ∀ s ∈ script, s.Storable := by
    intro name script h
    rcases Json.Record.exists_of_among h with rfl | ⟨f, hf, hread⟩
    · exact fun s hs => by cases hs
    · exact (hr f hf).2 script hread
  -- Two kinds of effects hold values or scripts: setting a flag, and a branch.
  apply cases_of_effect? h
  case setFlag =>
    intro key value hvalue
    rcases Json.Record.exists_of_among hvalue with rfl | ⟨f, hf, hread⟩
    · exact .setFlag key trivial Json.fits_null
    · obtain ⟨hsorted, hfits⟩ := (hr f hf).1.toJson? hread
      exact .setFlag key hsorted hfits
  case branch =>
    intro key equals onMatch otherwise _ _ hmatch hotherwise
    exact .branch key equals (hscript hmatch) (hscript hotherwise)
  -- All the others set no flag.
  all_goals
    intros
    exact .other (by simp) (by simp)

/-- What is kept as it is sets no flag. -/
theorem storable_unrecognized (raw : Json) : (unrecognized raw).Storable :=
  .other (by simp) (by simp)

/-- Steps and scripts that lie inside a document can be saved. -/
theorem storable_of_fits {n : Nat} {t : Json.Tree} (ht : t.Fits n) (hn : n ≤ 126) :
    (∀ s, ofTree? t = some s → s.Storable) ∧
      ∀ script, scriptOfTree? t = some script → ∀ s ∈ script, s.Storable := by
  -- The induction is on what lies inside the tree, for steps and scripts at once: a script is an
  -- array of steps, and an effect has scripts among its parts.
  induction t using Json.Tree.inside_induction generalizing n with
  | tree t ih =>
    refine ⟨fun s h => ?_, fun script h s hs => ?_⟩
    · rcases cases_of_ofTree? h with ⟨raw, -, rfl⟩ | ⟨kind, heffect⟩
      · exact storable_unrecognized raw
      · refine storable_of_effect? (fun f hf => ?_) heffect
        obtain ⟨g, hg, rfl⟩ := List.mem_map.mp hf
        have hinside := inside_of_mem_partsOf hg
        have hfits := ht.of_inside hinside
        exact ⟨hfits.mono (by omega), (ih _ hinside hfits (by omega)).2⟩
    · obtain ⟨u, hu, hread⟩ := exists_inside_of_scriptOfTree? h hs
      exact (ih u hu (ht.of_inside hu) (by omega)).1 s hread

end Step

/-- A script that is a field of a document can be saved. -/
theorem Script.storable_of_among {r : Json.Record Json.Tree} (hr : ∀ f ∈ r.fields, f.2.Fits 126)
    {names : List String} {script : Script} (h : r.among names [] Script.ofTree? = some script) :
    ∀ s ∈ script, s.Storable := by
  rcases Json.Record.exists_of_among h with rfl | ⟨f, hf, hread⟩
  · exact fun s hs => by cases hs
  · exact (Step.storable_of_fits (hr f hf) le_rfl).2 script hread

/-- The flags of a world that was read can be saved. -/
theorem World.flags_of_ofText? {text : String} {w : World}
    (h : Document.ofText? text = some w) :
    ∀ e ∈ w.globalFlags.entries, e.2.Sorted ∧ e.2.Fits 125 := by
  obtain ⟨t, ht, h⟩ := Option.bind_eq_some_iff.mp h
  have hfits := Json.Tree.fits_of_ofText? ht
  replace h : World.ofTree? t = some w := h
  simp only [World.ofTree?, Option.bind_eq_bind, Option.bind_eq_some_iff] at h
  obtain ⟨r, hr, id, -, title, -, startRoom, -, flags, hflags, messages, -, h⟩ := h
  cases h
  -- The flags are a table in a field of the document, so two levels inside it.
  intro e he
  rcases Json.Record.exists_of_among hflags with rfl | ⟨f, hf, hread⟩
  · cases he
  · obtain ⟨u, hu, hvalue⟩ := Json.Tree.exists_inside_of_table? hread he
    exact ((hfits.inside (Json.Tree.inside_of_record? hr f hf)).inside hu).toJson? hvalue

/-- The scripts of a room that was read can be saved. -/
theorem Room.storable_of_ofText? {text : String} {r : Room}
    (h : Document.ofText? text = some r) : r.ScriptsAre Step.Storable := by
  obtain ⟨t, ht, h⟩ := Option.bind_eq_some_iff.mp h
  have hfits := Json.Tree.fits_of_ofText? ht
  replace h : Room.ofTree? t = some r := h
  simp only [Room.ofTree?, Option.bind_eq_bind, Option.bind_eq_some_iff] at h
  obtain ⟨fields, hfields, id, -, title, -, description, -, ascii, -, items, -, objects, -,
    exits, -, exitMeta, -, onFirstEnter, hfirst, onEnter, henter, extra, -, h⟩ := h
  cases h
  have hinside := fun f hf => hfits.inside (Json.Tree.inside_of_objectFields? hfields f hf)
  exact ⟨Script.storable_of_among hinside hfirst, Script.storable_of_among hinside henter⟩

/-- The scripts of a fixture that was read can be saved. -/
theorem Fixture.storable_of_ofText? {text : String} {f : Fixture}
    (h : Document.ofText? text = some f) : f.ScriptsAre Step.Storable := by
  obtain ⟨t, ht, h⟩ := Option.bind_eq_some_iff.mp h
  have hfits := Json.Tree.fits_of_ofText? ht
  replace h : Fixture.ofTree? t = some f := h
  simp only [Fixture.ofTree?, Option.bind_eq_bind, Option.bind_eq_some_iff] at h
  obtain ⟨fields, hfields, id, -, name, -, description, -, locked, -, inspect, hinspect, use, huse,
    onLockedUse, hlocked, extra, -, h⟩ := h
  cases h
  have hinside := fun f hf => hfits.inside (Json.Tree.inside_of_objectFields? hfields f hf)
  exact ⟨Script.storable_of_among hinside hinspect, Script.storable_of_among hinside huse,
    Script.storable_of_among hinside hlocked⟩

/-- The scripts of an item that was read can be saved. -/
theorem Item.storable_of_ofText? {text : String} {i : Item}
    (h : Document.ofText? text = some i) : i.ScriptsAre Step.Storable := by
  obtain ⟨t, ht, h⟩ := Option.bind_eq_some_iff.mp h
  have hfits := Json.Tree.fits_of_ofText? ht
  replace h : Item.ofTree? t = some i := h
  simp only [Item.ofTree?, Option.bind_eq_bind, Option.bind_eq_some_iff] at h
  obtain ⟨r, hr, id, -, name, -, description, -, pickup, -, combine, hcombine, onUse, huse, h⟩ := h
  cases h
  have hinside := fun f hf => hfits.inside (Json.Tree.inside_of_record? hr f hf)
  -- The scripts for combining lie one level deeper than the others, in a table.
  refine ⟨Script.storable_of_among hinside huse, fun key script hscript => ?_⟩
  rcases Json.Record.exists_of_among hcombine with rfl | ⟨f, hf, hread⟩
  · cases hscript
  · obtain ⟨u, hu, hvalue⟩ := Json.Tree.exists_inside_of_table? hread (Table.mem_of_get? hscript)
    exact (Step.storable_of_fits ((hinside f hf).inside hu) (by omega)).2 script hvalue

end TextAdventure
