import Mathlib.Data.List.Basic
import TextAdventure.Disk.Path

/-!
# The names of joined paths

Joining a path puts one slash in front of it (`Path.join_eq`). So a name that is joined to a path
becomes the last of its names (`Path.exists_names_join`), and what the path says in front stays as
it is.
-/

namespace TextAdventure.Path

variable {base path name : String}

/-- A text without slashes is one name. -/
theorem names_eq_singleton (h : '/' ∉ name.toList) : names name = [name] := by
  have hsplit : name.toList.splitOnP (fun c => c == '/') = [name.toList] :=
    List.splitOnP_eq_singleton fun c hc => beq_false_of_ne fun heq => h (heq ▸ hc)
  unfold names
  rw [hsplit, List.map_singleton, String.ofList_toList]

/-- A path has names, though they may be empty. -/
theorem names_ne_nil (path : String) : names path ≠ [] := by
  unfold names
  rw [ne_eq, List.map_eq_nil_iff]
  exact List.splitOnP_ne_nil _ _

/-- The names on both sides of a slash. -/
theorem names_append_slash (base path : String) :
    names (base ++ "/" ++ path) = names base ++ names path := by
  have htext : (base ++ "/" ++ path).toList = base.toList ++ '/' :: path.toList := by
    rw [String.toList_append, String.toList_append, List.append_assoc]
    rfl
  unfold names
  rw [htext, List.splitOnP_append_cons _ _ (by rfl), List.map_append]

/-- A text without slashes is no absolute path. -/
theorem isAbsolute_eq_false (h : '/' ∉ name.toList) : isAbsolute name = false :=
  beq_false_of_ne fun heq => h (List.mem_of_mem_head? heq)

/-- Where a path starts does not depend on what follows. -/
theorem isAbsolute_append (h : base ≠ "") (path : String) :
    isAbsolute (base ++ path) = isAbsolute base := by
  unfold isAbsolute
  rw [String.toList_append, List.head?_append_of_ne_nil _ (mt String.toList_eq_nil_iff.mp h)]

/-- A path that is not absolute is joined by a slash, which may be there already; only to an empty
path it is joined without one. -/
theorem join_eq (base : String) :
    (base = "" ∧ ∀ path, isAbsolute path = false → join base path = path) ∨
      ∃ before, (base = before ∧ base ≠ "" ∨ base = before ++ "/") ∧
        ∀ path, isAbsolute path = false → join base path = before ++ "/" ++ path := by
  cases hlast : base.toList.getLast? with
  | none =>
    refine .inl ⟨String.toList_eq_nil_iff.mp (List.getLast?_eq_none_iff.mp hlast), ?_⟩
    intro path hpath
    simp [join, hpath, hlast]
  | some c =>
    obtain ⟨cs, hbase⟩ := List.getLast?_eq_some_iff.mp hlast
    by_cases hc : c = '/'
    · have hbefore : base = String.ofList cs ++ "/" := by
        rw [← String.toList_inj, hbase, hc, String.toList_append, String.toList_ofList]
        rfl
      refine .inr ⟨String.ofList cs, .inr hbefore, fun path hpath => ?_⟩
      simp [join, hpath, hlast, hc, ← hbefore]
    · have hne : base ≠ "" := by
        rintro rfl
        simp at hbase
      refine .inr ⟨base, .inl ⟨rfl, hne⟩, fun path hpath => ?_⟩
      simp [join, hpath, hlast, hc]

/-- A name that is joined to a path stands behind names that depend on the path alone. -/
theorem exists_names_join (base : String) :
    ∃ leading, ∀ name, '/' ∉ name.toList → names (join base name) = leading ++ [name] := by
  rcases join_eq base with ⟨-, hjoin⟩ | ⟨before, -, hjoin⟩
  · refine ⟨[], fun name hname => ?_⟩
    rw [hjoin name (isAbsolute_eq_false hname), names_eq_singleton hname, List.nil_append]
  · refine ⟨names before, fun name hname => ?_⟩
    rw [hjoin name (isAbsolute_eq_false hname), names_append_slash, names_eq_singleton hname]

/-- Where a path starts does not depend on what is joined to it. -/
theorem isAbsolute_join (h : isAbsolute path = false) :
    isAbsolute (join base path) = isAbsolute base := by
  rcases join_eq base with ⟨rfl, hjoin⟩ | ⟨before, hbase, hjoin⟩
  · rw [hjoin path h, h]
    rfl
  · rw [hjoin path h]
    rcases hbase with ⟨rfl, hne⟩ | rfl
    · rw [String.append_assoc, isAbsolute_append hne]
    · exact isAbsolute_append (by simp) path

/-- A path to which something is joined is not empty. -/
theorem join_ne_empty (base : String) (hne : path ≠ "") (h : isAbsolute path = false) :
    join base path ≠ "" := by
  rcases join_eq base with ⟨-, hjoin⟩ | ⟨before, -, hjoin⟩
  · rw [hjoin path h]
    exact hne
  · rw [hjoin path h]
    simp [String.append_eq_empty_iff]

/-- A path that ends in a name is joined by a slash. -/
theorem join_join (hname : '/' ∉ name.toList) (hne : name ≠ "") (h : isAbsolute path = false) :
    join (join base name) path = join base name ++ "/" ++ path := by
  have hlast : (join base name).toList.getLast? = name.toList.getLast? := by
    have hnil : name.toList ≠ [] := mt String.toList_eq_nil_iff.mp hne
    rcases join_eq base with ⟨-, hjoin⟩ | ⟨before, -, hjoin⟩
    · rw [hjoin name (isAbsolute_eq_false hname)]
    · rw [hjoin name (isAbsolute_eq_false hname), String.toList_append,
        List.getLast?_append_of_ne_nil _ hnil]
  rcases join_eq (join base name) with ⟨hempty, -⟩ | ⟨before, hbefore, hjoin⟩
  · rw [hempty] at hlast
    exact absurd (String.toList_eq_nil_iff.mp (List.getLast?_eq_none_iff.mp hlast.symm)) hne
  · rcases hbefore with ⟨hbefore, -⟩ | hbefore
    · rw [hjoin path h, hbefore]
    · -- The last character would be a slash of the name.
      rw [hbefore, String.toList_append] at hlast
      refine absurd (List.mem_of_getLast? (a := '/') ?_) hname
      rw [← hlast]
      exact List.getLast?_concat

end TextAdventure.Path
