import TextAdventure.Proofs.Document.Cycle
import TextAdventure.Proofs.Gate

/-!
# Compiled documents are read again

The steps that gates add to a script are effects made of texts, and a branch on a truth value. So
the scripts of a room or fixture that was read from a text are still read again when gates were
compiled into them (`Room.stable_of_compiled`, `Fixture.stable_of_compiled`). What is added nests
only a few levels deep, and takes no level that the document does not have.
-/

namespace TextAdventure

variable {n : Nat}

namespace Gate

variable {g : Gate} {script : Script}

/-- The step that closes the exit is read again. -/
theorem stable_lockStep (g : Gate) : g.lockStep.Stable (n + 1) :=
  Step.stable_of_two_texts "lock_exit" "room" "direction" (fun _ _ => rfl) (fun _ => rfl) (by simp)
    (by simp) (by simp) g.room g.direction

/-- The step that opens the exit is read again. -/
theorem stable_unlockStep (g : Gate) : g.unlockStep.Stable (n + 1) :=
  Step.stable_of_two_texts "unlock_exit" "room" "direction" (fun _ _ => rfl) (fun _ => rfl)
    (by simp) (by simp) (by simp) g.room g.direction

/-- A line is read again. -/
theorem stable_message (text : String) : (Step.message text).Stable (n + 1) :=
  Step.stable_of_text "message" "text" (fun _ => rfl) (fun _ => rfl) (by simp) text

/-- A script that closes the exit as well is read again. -/
theorem stable_ensureLock (h : Document.Stable (n + 2) script) :
    Document.Stable (n + 2) (g.ensureLock script) := by
  unfold ensureLock
  split_ifs
  · exact h
  · refine Script.stable_of_forall (List.forall_mem_cons.mpr ⟨g.stable_lockStep, ?_⟩)
    exact Script.forall_of_stable h

/-- A script that was completed is read again. -/
theorem stable_completeMatch (h : Document.Stable (n + 2) script) :
    Document.Stable (n + 2) (g.completeMatch script) := by
  have hsteps := Script.forall_of_stable h
  have hline : ∀ s ∈ g.successStep :: script, s.Stable (n + 1) :=
    List.forall_mem_cons.mpr ⟨stable_message _, hsteps⟩
  have hunlock : ∀ s ∈ [g.unlockStep], s.Stable (n + 1) :=
    List.forall_mem_singleton.mpr g.stable_unlockStep
  refine Script.stable_of_forall ?_
  unfold completeMatch
  dsimp only
  split_ifs
  · exact hsteps
  · exact List.forall_mem_append.mpr ⟨hsteps, hunlock⟩
  · exact hline
  · exact List.forall_mem_append.mpr ⟨hline, hunlock⟩

/-- A script for any other value of the flag that was completed is read again. -/
theorem stable_completeOtherwise (h : Document.Stable (n + 2) script) :
    Document.Stable (n + 2) (completeOtherwise script) := by
  unfold completeOtherwise
  split_ifs
  · exact Script.stable_of_forall (List.forall_mem_singleton.mpr (stable_message _))
  · exact h

/-- A script without steps is read again. -/
theorem stable_nil : Document.Stable (n + 1) ([] : Script) :=
  Script.stable_of_forall fun s hs => by cases hs

/-- The branch that is added for a gate is read again. -/
theorem stable_branchStep (g : Gate) : g.branchStep.Stable (n + 3) :=
  Step.stable_branch_iff.mpr ⟨⟨rfl, Json.fits_bool true⟩,
    stable_completeMatch (g := g) stable_nil, stable_completeOtherwise stable_nil⟩

/-- A script that opens the exit as well is read again. -/
theorem stable_ensureBranch (h : Document.Stable (n + 4) script) :
    Document.Stable (n + 4) (g.ensureBranch script) := by
  replace h := Script.forall_of_stable h
  refine Script.stable_of_forall ?_
  -- The induction is along the search for the branch.
  fun_induction ensureBranch g script with
  | case1 => exact List.forall_mem_singleton.mpr g.stable_branchStep
  | case2 equals onMatch otherwise rest =>
    obtain ⟨hbranch, hrest⟩ := List.forall_mem_cons.mp h
    obtain ⟨hequals, hmatch, hotherwise⟩ := Step.stable_branch_iff.mp hbranch
    refine List.forall_mem_cons.mpr ⟨Step.stable_branch_iff.mpr ⟨hequals, ?_, ?_⟩, hrest⟩
    · exact stable_completeMatch hmatch
    · exact stable_completeOtherwise hotherwise
  | case3 key equals onMatch otherwise rest hother ih =>
    obtain ⟨hbranch, hrest⟩ := List.forall_mem_cons.mp h
    exact List.forall_mem_cons.mpr ⟨hbranch, ih hrest⟩
  | case4 s rest hnone ih =>
    obtain ⟨hfirst, hrest⟩ := List.forall_mem_cons.mp h
    exact List.forall_mem_cons.mpr ⟨hfirst, ih hrest⟩

/-- A script that closes the exits of several gates as well is read again. -/
theorem stable_ensureLocks (gs : List Gate) (h : Document.Stable (n + 2) script) :
    Document.Stable (n + 2) (ensureLocks gs script) := by
  unfold ensureLocks
  induction gs generalizing script with
  | nil => exact h
  | cons g gs ih => exact ih (stable_ensureLock h)

/-- A script that opens the exits of several gates as well is read again. -/
theorem stable_ensureBranches (gs : List Gate) (h : Document.Stable (n + 4) script) :
    Document.Stable (n + 4) (ensureBranches gs script) := by
  unfold ensureBranches
  induction gs generalizing script with
  | nil => exact h
  | cons g gs ih => exact ih (stable_ensureBranch h)

end Gate

variable {t : Json.Tree}

/-- A room that was read from a tidy tree is stable when gates were compiled into it. -/
theorem Room.stable_of_compiled (ht : t.Tidy (n + 2)) {r : Room} (h : Room.ofTree? t = some r)
    (gs : List Gate) :
    Document.Stable (n + 3) { r with onFirstEnter := Gate.ensureLocks gs r.onFirstEnter } := by
  obtain ⟨hfirst, henter, hextra⟩ := parts_of_tidy ht h
  exact Room.stable (Gate.stable_ensureLocks gs hfirst) henter hextra

/-- A fixture that was read from a tidy tree is stable when gates were compiled into it. -/
theorem Fixture.stable_of_compiled (ht : t.Tidy (n + 4)) {f : Fixture}
    (h : Fixture.ofTree? t = some f) (gs : List Gate) :
    Document.Stable (n + 5) { f with use := Gate.ensureBranches gs f.use } := by
  obtain ⟨hinspect, huse, hlocked, hextra⟩ := parts_of_tidy ht h
  exact Fixture.stable hinspect (Gate.stable_ensureBranches gs huse) hlocked hextra

end TextAdventure
