import TextAdventure.Proofs.Document
import TextAdventure.Thing

/-!
# Strengths, pictures and enemies are read again

What is written for the strength of a fighter, a reference to a picture and an enemy is read again,
as a document and as a part of a save, and takes one level of nesting or two.
-/

namespace TextAdventure

open Json (Form Rereads)

variable {exact : Bool} {n : Nat}

/-- A strength takes one level. -/
theorem Stats.fits_toJson (s : Stats) : s.toJson.Within exact (n + 1) :=
  Json.fits_object (by simp)

/-- The strength of a fighter is read again. -/
theorem Stats.rereads (s : Stats) : Rereads Stats.ofTree? s.toJson s := by
  intro form
  obtain ⟨fs, hfs, hperm⟩ := form.tree_object ([("hp", .ofInt32 s.hp),
    ("attack", .ofInt32 s.attack), ("defense", .ofInt32 s.defense)]) (by simp)
  unfold toJson
  rw [hfs]
  have hfind := Json.Record.find?_perm hperm
  simp only [ofTree?, Json.Tree.record?, Option.bind_some, ofRecord?, Json.Record.withDefault,
    Json.Record.among, hfind]
  simp [Json.Record.find?, Json.rereads_ofInt32 _ form]

/-- A reference to a picture takes one level. -/
theorem ArtRef.fits_toJson (a : ArtRef) : a.toJson.Within exact (n + 1) := by
  cases a with
  | path file => exact Json.fits_string file
  | record file size =>
    refine Json.fits_object fun f hf => ?_
    rcases List.mem_cons.mp hf with rfl | hf
    · exact Json.fits_string file
    · exact Json.fits_optionalField size Json.fits_ofUInt32 f hf

/-- A reference to a picture is read again in the form in which it was written. -/
theorem ArtRef.rereads (a : ArtRef) : Rereads ArtRef.ofTree? a.toJson a := by
  intro form
  obtain ⟨w, hw⟩ := form.exists_toJson?_tree a.toJson
  cases a with
  | path file =>
    have htree : form.tree (ArtRef.path file).toJson = .string file := by cases form <;> rfl
    rw [htree]
    rfl
  | record file size =>
    obtain ⟨fs, hfs, hperm⟩ := form.tree_object (("file", .string file) ::
      Json.optionalField "fontSize" .ofUInt32 size) (by cases size <;> simp [Json.optionalField])
    unfold toJson at hw ⊢
    rw [hfs] at hw ⊢
    -- The fields are found by their names, in whatever order they were written.
    have hfind := Json.Record.find?_perm hperm
    simp only [ofTree?, hw, Option.bind_eq_bind, Option.bind_some, Json.Tree.objectFields?,
      Json.Record.required, Json.Record.optional, Json.Record.withDefault, Json.Record.among, hfind]
    cases size with
    | none => simp [Json.Record.find?, Json.optionalField, Json.rereads_string _ form]
    | some n =>
      have hsize := (Json.rereads_ofUInt32 n).nullable (by simp [Json.ofUInt32]) form
      simp [Json.Record.find?, Json.optionalField, Json.rereads_string _ form, hsize]

/-- An enemy takes two levels. -/
theorem Enemy.fits_toJson (e : Enemy) : e.toJson.Within exact (n + 2) := by
  refine Json.fits_object fun f hf => ?_
  simp only [List.mem_append, List.mem_cons, List.not_mem_nil, or_false] at hf
  rcases hf with ((rfl | rfl | rfl | rfl) | hf) | rfl
  · exact Json.fits_string _
  · exact Json.fits_string _
  · exact Json.fits_string _
  · exact e.stats.fits_toJson
  · exact Json.fits_optionalField e.ascii (fun art => art.fits_toJson) f hf
  · exact Json.fits_stringList _

/-- An enemy is read again. -/
theorem Enemy.rereads (e : Enemy) : Rereads Enemy.ofTree? e.toJson e := by
  intro form
  obtain ⟨id, name, description, stats, ascii, drops⟩ := e
  obtain ⟨fs, hfs, hperm⟩ := form.tree_object ([("id", .string id),
      ("name", .string name), ("description", .string description), ("stats", stats.toJson)] ++
    Json.optionalField "ascii" ArtRef.toJson ascii ++ [("drops", .stringList drops)])
    (by cases ascii <;> simp [Json.optionalField])
  unfold toJson
  rw [hfs]
  have hfind := Json.Record.find?_perm hperm
  simp only [ofTree?, Json.Tree.record?, Option.bind_eq_bind, Option.bind_some,
    Json.Record.required, Json.Record.optional, Json.Record.withDefault, Json.Record.among, hfind]
  -- A missing picture is not written, and its default is none.
  cases ascii with
  | none =>
    simp [Json.Record.find?, Json.optionalField, Json.rereads_string _ form, Stats.rereads _ form,
      Json.rereads_stringList _ form]
  | some art =>
    have hart := (ArtRef.rereads art).nullable (by cases art <;> simp [ArtRef.toJson]) form
    simp [Json.Record.find?, Json.optionalField, Json.rereads_string _ form, Stats.rereads _ form,
      Json.rereads_stringList _ form, hart]

end TextAdventure
