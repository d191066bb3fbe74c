import TextAdventure.Proofs.Gate
import Mathlib.Data.List.Nodup

/-!
# What compiling gates adds

Compiling gates adds what the metadata of exits asks for, and loses nothing that an author wrote.
In front of the script for the first entry of a room come steps that close exits, one for each gated
exit that the script did not close itself (`Room.Closing`). In the script for using a fixture every
step stays in its place, and is the same unless it is the first branch on the flag of a gate, which
is completed; after them come branches on flags for which there was none (`Gate.Extends`).

What one gate does to a script for using its fixture is `Gate.ensures_ensureBranch`, and
`Gate.Extends.ensures` carries what was done so far to the next gate: a branch can be completed by
several gates, since they may share a flag. `Bundle.lowers_compileGates` says what happens to a
bundle in which rooms are found by their ids, and what the warnings are.
-/

namespace TextAdventure

/-- A step is a branch on a flag. -/
def Step.BranchesOn (s : Step) (flag : String) : Prop :=
  ∃ equals onMatch otherwise, s = .branch flag equals onMatch otherwise

/-- The step at a place of a script is its first branch on a flag. -/
structure Script.FirstBranch (script : Script) (flag : String) (i : Nat) (equals : Json)
    (onMatch otherwise : Script) : Prop where
  /-- The branch is there. -/
  here : script[i]? = some (Step.branch flag equals onMatch otherwise)
  /-- No step before it is a branch on the flag. -/
  first : ∀ j < i, ∀ s, script[j]? = some s → ¬s.BranchesOn flag

/-- Looking for a branch passes over any other step. -/
theorem Script.FirstBranch.cons {script onMatch otherwise : Script} {flag : String} {i : Nat}
    {equals : Json} {s : Step} (hs : ¬s.BranchesOn flag)
    (h : script.FirstBranch flag i equals onMatch otherwise) :
    Script.FirstBranch (s :: script) flag (i + 1) equals onMatch otherwise where
  here := h.here
  first j hj t ht := by
    cases j with
    | zero =>
      obtain rfl := Option.some.inj ht
      exact hs
    | succ j => exact h.first j (Nat.lt_of_succ_lt_succ hj) t ht

namespace Gate

variable {gates : Gate → Prop} {g : Gate} {authored compiled script : Script}
  {flag : String}

/-! ### Scripts for a true flag -/

/-- What gates add to the script of a branch on a flag: a line in front, if no line was there, and
at the end the steps that open the exits of gates with this flag, none of them twice. -/
def Completes (gates : Gate → Prop) (flag : String) (authored compiled : Script) : Prop :=
  ∃ front back, compiled = front ++ authored ++ back ∧
    (front = [] ∨ ∃ g, gates g ∧ g.flagName = flag ∧ front = [g.successStep] ∧
      ∀ text, .message text ∉ authored) ∧
    (∀ s ∈ back, ∃ g, gates g ∧ g.flagName = flag ∧ s = g.unlockStep ∧ s ∉ authored) ∧ back.Nodup

/-- Nothing has to be added. -/
theorem Completes.refl (gates : Gate → Prop) (flag : String) (authored : Script) :
    Completes gates flag authored authored :=
  ⟨[], [], by simp, .inl rfl, by simp, List.nodup_nil⟩

/-- A step that says a line is a message. -/
theorem isMessage_iff {s : Step} : isMessage s = true ↔ ∃ text, s = .message text := by
  cases s <;> simp [isMessage]

/-- A script has a line if one of its steps is a message. -/
theorem any_isMessage_iff : script.any isMessage = true ↔ ∃ text, .message text ∈ script := by
  rw [List.any_eq_true]
  constructor
  · rintro ⟨s, hs, hmessage⟩
    obtain ⟨text, rfl⟩ := isMessage_iff.mp hmessage
    exact ⟨text, hs⟩
  · rintro ⟨text, hmem⟩
    exact ⟨_, hmem, rfl⟩

/-- A test that one step passes and no other finds this step. -/
theorem any_iff_mem {p : Step → Bool} {t : Step} (h : ∀ s, p s = true ↔ s = t) :
    script.any p = true ↔ t ∈ script := by
  simp only [List.any_eq_true, h, exists_eq_right]

/-- A script opens the exit of a gate if the step for the gate is there. -/
theorem any_isUnlock_iff : script.any g.isUnlock = true ↔ g.unlockStep ∈ script :=
  any_iff_mem fun s => by cases s <;> simp [isUnlock, unlockStep]

/-- A line is added in front if there was none. -/
theorem Completes.ensureMessage (h : Completes gates flag authored compiled) (hg : gates g)
    (hflag : g.flagName = flag) :
    Completes gates flag authored
      (if compiled.any isMessage = true then compiled else g.successStep :: compiled) := by
  obtain ⟨front, back, rfl, hfront, hback, hnodup⟩ := h
  split_ifs with hline
  · exact ⟨front, back, rfl, hfront, hback, hnodup⟩
  · rw [any_isMessage_iff] at hline
    have hnone : ∀ text, .message text ∉ authored := by
      intro text hmem
      exact hline ⟨text, by simp [hmem]⟩
    obtain rfl : front = [] := by
      refine hfront.resolve_right ?_
      rintro ⟨g', -, -, rfl, -⟩
      exact hline ⟨_, List.mem_append_left _ List.mem_cons_self⟩
    exact ⟨[g.successStep], back, rfl, .inr ⟨g, hg, hflag, rfl, hnone⟩, hback, hnodup⟩

/-- The step that opens the exit is added at the end if it was not there. -/
theorem Completes.ensureUnlock (h : Completes gates flag authored compiled) (hg : gates g)
    (hflag : g.flagName = flag) :
    Completes gates flag authored
      (if compiled.any g.isUnlock = true then compiled else compiled ++ [g.unlockStep]) := by
  split_ifs with hunlock
  · exact h
  · obtain ⟨front, back, rfl, hfront, hback, hnodup⟩ := h
    rw [any_isUnlock_iff] at hunlock
    have hnew : g.unlockStep ∉ back := fun hmem => hunlock (List.mem_append_right _ hmem)
    have hfree : g.unlockStep ∉ authored := fun hmem =>
      hunlock (List.mem_append_left _ (List.mem_append_right _ hmem))
    refine ⟨front, back ++ [g.unlockStep], List.append_assoc .., hfront, fun s hs => ?_, ?_⟩
    · rcases List.mem_append.mp hs with hs | hs
      · exact hback s hs
      · obtain rfl := List.mem_singleton.mp hs
        exact ⟨g, hg, hflag, rfl, hfree⟩
    · rw [← List.concat_eq_append]
      exact List.Nodup.concat hnew hnodup

/-- A gate with the flag of a branch completes its script further. -/
theorem Completes.completeMatch (h : Completes gates flag authored compiled) (hg : gates g)
    (hflag : g.flagName = flag) : Completes gates flag authored (g.completeMatch compiled) :=
  (h.ensureMessage hg hflag).ensureUnlock hg hflag

/-! ### Scripts for using a fixture -/

/-- What gates leave of a step of a script: the step itself, or, if it is the first branch on the
flag of a gate, a branch with the same flag and the same value whose scripts were completed. -/
inductive Keeps (gates : Gate → Prop) (authored : Script) (i : Nat) : Step → Step → Prop where
  /-- The step is the same. -/
  | same (s : Step) : Keeps gates authored i s s
  /-- The branch was completed. -/
  | completed {flag : String} {equals : Json} {onMatch otherwise onMatch' otherwise' : Script}
    (hfirst : authored.FirstBranch flag i equals onMatch otherwise)
    (hgate : ∃ g, gates g ∧ g.flagName = flag) (hmatch : Completes gates flag onMatch onMatch')
    (hother : otherwise' = otherwise ∨ otherwise = [] ∧ otherwise' = [failureStep]) :
    Keeps gates authored i (.branch flag equals onMatch otherwise)
      (.branch flag equals onMatch' otherwise')

/-- What gates make of the script for using a fixture. -/
structure Extends (gates : Gate → Prop) (authored compiled : Script) : Prop where
  /-- Every step stays in its place. -/
  kept : ∀ i s, authored[i]? = some s → ∃ s', compiled[i]? = some s' ∧ Keeps gates authored i s s'
  /-- What comes after them is a branch on the flag of a gate, which has to be true, and on which
  there was no branch. -/
  added : ∀ i s, authored.length ≤ i → compiled[i]? = some s →
    ∃ g onMatch otherwise, gates g ∧ s = .branch g.flagName (.bool true) onMatch otherwise ∧
      ∀ t ∈ authored, ¬t.BranchesOn g.flagName

/-- Without gates nothing is done. -/
theorem Extends.refl (gates : Gate → Prop) (authored : Script) :
    Extends gates authored authored where
  kept _ s hs := ⟨s, hs, .same s⟩
  added i s hi hs := by
    rw [List.getElem?_eq_none hi] at hs
    cases hs

/-- A branch on a flag stays one. -/
theorem Keeps.branchesOn {i : Nat} {s s' : Step} (h : Keeps gates authored i s s')
    (hs : s.BranchesOn flag) : s'.BranchesOn flag := by
  cases h with
  | same => exact hs
  | completed =>
    obtain ⟨_, _, _, heq⟩ := hs
    cases heq
    exact ⟨_, _, _, rfl⟩

/-- What a gate does to the script for using its fixture. -/
inductive Ensures (g : Gate) (script : Script) : Script → Prop where
  /-- The first branch on the flag is completed. -/
  | completed {i : Nat} {equals : Json} {onMatch otherwise : Script}
    (hfirst : script.FirstBranch g.flagName i equals onMatch otherwise) :
    Ensures g script (script.set i
      (.branch g.flagName equals (g.completeMatch onMatch) (completeOtherwise otherwise)))
  /-- There is no such branch, and one is added. -/
  | added (hnone : ∀ s ∈ script, ¬s.BranchesOn g.flagName) :
    Ensures g script (script ++ [g.branchStep])

/-- Nothing is done to a step that is no branch on the flag. -/
theorem Ensures.cons {s : Step} (hs : ¬s.BranchesOn g.flagName)
    (h : Ensures g authored compiled) : Ensures g (s :: authored) (s :: compiled) := by
  cases h with
  | completed hfirst => exact .completed (hfirst.cons hs)
  | added hnone => exact .added (List.forall_mem_cons.mpr ⟨hs, hnone⟩)

/-- A gate completes the first branch on its flag, or adds one. -/
theorem ensures_ensureBranch (g : Gate) (script : Script) :
    Ensures g script (g.ensureBranch script) := by
  -- The induction is along the search for the branch.
  fun_induction ensureBranch g script with
  | case1 => exact .added (by simp)
  | case2 equals onMatch otherwise rest =>
    exact .completed (i := 0) ⟨rfl, fun _ hj => absurd hj (Nat.not_lt_zero _)⟩
  | case3 key equals onMatch otherwise rest hother ih =>
    refine ih.cons ?_
    rintro ⟨_, _, _, heq⟩
    cases heq
    exact hother rfl
  | case4 s rest hbranch ih =>
    refine ih.cons ?_
    rintro ⟨_, _, _, heq⟩
    exact hbranch _ _ _ _ heq

/-- The script for any other value is the same unless it was empty. -/
theorem completeOtherwise_cases (script : Script) :
    completeOtherwise script = script ∨
      script = [] ∧ completeOtherwise script = [failureStep] := by
  cases script with
  | nil => exact .inr ⟨rfl, rfl⟩
  | cons => exact .inl rfl

/-- The first branch on the flag of a gate is completed further. -/
theorem Keeps.complete {i : Nat} {s : Step} {equals : Json} {onMatch otherwise : Script}
    (h : Keeps gates authored i s (.branch g.flagName equals onMatch otherwise)) (hg : gates g)
    (hhere : authored[i]? = some s)
    (hfirst : ∀ j < i, ∀ t, authored[j]? = some t → ¬t.BranchesOn g.flagName) :
    Keeps gates authored i s
      (.branch g.flagName equals (g.completeMatch onMatch) (completeOtherwise otherwise)) := by
  cases h with
  | same =>
    exact .completed ⟨hhere, hfirst⟩ ⟨g, hg, rfl⟩ ((Completes.refl ..).completeMatch hg rfl)
      (completeOtherwise_cases otherwise)
  | completed hbranch hgate hmatch hother =>
    refine .completed hbranch hgate (hmatch.completeMatch hg rfl) ?_
    rcases hother with rfl | ⟨rfl, rfl⟩
    · exact completeOtherwise_cases _
    · exact .inr ⟨rfl, rfl⟩

/-- A branch that an author wrote is there among what gates made of the script. -/
theorem Extends.branchesOn (h : Extends gates authored compiled) {i : Nat} {s : Step}
    (hs : authored[i]? = some s) (hon : s.BranchesOn flag) :
    ∃ s', compiled[i]? = some s' ∧ s'.BranchesOn flag := by
  obtain ⟨s', hs', hkeeps⟩ := h.kept i s hs
  exact ⟨s', hs', hkeeps.branchesOn hon⟩

/-- Another gate of the fixture loses nothing either. -/
theorem Extends.ensures {next : Script} (h : Extends gates authored compiled) (hg : gates g)
    (he : Ensures g compiled next) : Extends gates authored next := by
  cases he with
  | @completed k equals onMatch otherwise hfirst =>
    have hk : k < compiled.length := List.getElem?_eq_some_iff.mp hfirst.here |>.1
    refine ⟨fun i s hs => ?_, fun i s hi hs => ?_⟩
    · obtain ⟨s', hs', hkeeps⟩ := h.kept i s hs
      by_cases hik : i = k
      · subst hik
        obtain rfl := Option.some.inj (hs'.symm.trans hfirst.here)
        refine ⟨_, List.getElem?_set_self hk, hkeeps.complete hg hs fun j hj t ht hon => ?_⟩
        obtain ⟨t', ht', hon'⟩ := h.branchesOn ht hon
        exact hfirst.first j hj t' ht' hon'
      · exact ⟨s', (List.getElem?_set_ne (Ne.symm hik)).trans hs', hkeeps⟩
    · by_cases hik : i = k
      · -- The branch was added before, so it is completed without being one that was authored.
        subst hik
        obtain ⟨g', onMatch', otherwise', hg', heq, hnone⟩ := h.added i _ hi hfirst.here
        injection heq with hflag hequals
        rw [List.getElem?_set_self hk, hequals] at hs
        rw [← hflag] at hnone
        exact ⟨g, _, _, hg, (Option.some.inj hs).symm, hnone⟩
      · exact h.added i s hi ((List.getElem?_set_ne (Ne.symm hik)).symm.trans hs)
  | added hnone =>
    refine ⟨fun i s hs => ?_, fun i s hi hs => ?_⟩
    · obtain ⟨s', hs', hkeeps⟩ := h.kept i s hs
      have hi : i < compiled.length := List.getElem?_eq_some_iff.mp hs' |>.1
      exact ⟨s', (List.getElem?_append_left hi).trans hs', hkeeps⟩
    · rw [List.getElem?_append] at hs
      split_ifs at hs
      · exact h.added i s hi hs
      · obtain rfl := List.mem_singleton.mp (List.mem_of_getElem? hs)
        refine ⟨g, _, _, hg, rfl, fun t ht hon => ?_⟩
        obtain ⟨j, hj⟩ := List.mem_iff_getElem?.mp ht
        obtain ⟨t', ht', hon'⟩ := h.branchesOn hj hon
        exact hnone t' (List.mem_of_getElem? ht') hon'

/-- The gates of a fixture lose nothing of its script. -/
theorem extends_ensureBranches {gs : List Gate} (hgs : ∀ g ∈ gs, gates g) (authored : Script) :
    Extends gates authored (ensureBranches gs authored) := by
  have hfold : ∀ (gs : List Gate) {compiled : Script}, (∀ g ∈ gs, gates g) →
      Extends gates authored compiled → Extends gates authored (ensureBranches gs compiled) := by
    intro gs
    induction gs with
    | nil => exact fun _ h => h
    | cons g gs ih =>
      intro compiled hgs h
      obtain ⟨hg, hgs⟩ := List.forall_mem_cons.mp hgs
      exact ih hgs (h.ensures hg (g.ensures_ensureBranch compiled))
  exact hfold gs hgs (.refl gates authored)

/-- The scripts of the first branch on a flag are found in the branch. -/
theorem exists_firstBranch_of_branchOn? {onMatch otherwise : Script}
    (h : branchOn? flag script = some (onMatch, otherwise)) :
    ∃ i equals, script.FirstBranch flag i equals onMatch otherwise := by
  fun_induction branchOn? flag script with
  | case1 => cases h
  | case2 equals m o rest =>
    cases h
    exact ⟨0, equals, rfl, fun _ hj => absurd hj (Nat.not_lt_zero _)⟩
  | case3 key equals m o rest hother ih =>
    obtain ⟨i, equals', hfirst⟩ := ih h
    refine ⟨i + 1, equals', hfirst.cons ?_⟩
    rintro ⟨_, _, _, heq⟩
    cases heq
    exact hother rfl
  | case4 s rest hbranch ih =>
    obtain ⟨i, equals, hfirst⟩ := ih h
    refine ⟨i + 1, equals, hfirst.cons ?_⟩
    rintro ⟨_, _, _, heq⟩
    exact hbranch _ _ _ _ heq

/-- A script opens the exit of a gate if its first branch on the flag does. -/
theorem Opens.exists_firstBranch (h : g.Opens script) :
    ∃ i equals onMatch otherwise, script.FirstBranch g.flagName i equals onMatch otherwise ∧
      g.unlockStep ∈ onMatch ∧ (∃ text, .message text ∈ onMatch) ∧ otherwise ≠ [] := by
  obtain ⟨onMatch, otherwise, hbranch, hline, hunlock, hmore⟩ := h
  obtain ⟨i, equals, hfirst⟩ := exists_firstBranch_of_branchOn? hbranch
  refine ⟨i, equals, onMatch, otherwise, hfirst, any_isUnlock_iff.mp hunlock,
    any_isMessage_iff.mp hline, ?_⟩
  rintro rfl
  cases hmore

/-! ### Scripts for entering a room -/

/-- A script closes the exit of a gate if the step for the gate is there. -/
theorem any_isLock_iff : script.any g.isLock = true ↔ g.lockStep ∈ script :=
  any_iff_mem fun _ => ⟨eq_lockStep_of_isLock, fun h => h ▸ g.isLock_lockStep⟩

/-- Steps that close exits come in front of a script, one for each exit that the script did not
close. -/
theorem exists_ensureLocks_eq (gs : List Gate) (script : Script) :
    ∃ locks, ensureLocks gs script = locks ++ script ∧ locks.Nodup ∧
      ∀ s, s ∈ locks ↔ (∃ g ∈ gs, s = g.lockStep) ∧ s ∉ script := by
  induction gs generalizing script with
  | nil => exact ⟨[], rfl, List.nodup_nil, by simp⟩
  | cons g gs ih =>
    show ∃ locks, ensureLocks gs (g.ensureLock script) = locks ++ script ∧ _
    unfold ensureLock
    split_ifs with hlock
    · -- The script closes the exit already, so its step is not among those in front.
      rw [any_isLock_iff] at hlock
      obtain ⟨locks, heq, hnodup, hmem⟩ := ih script
      refine ⟨locks, heq, hnodup, fun s => ?_⟩
      rw [hmem, List.exists_mem_cons_iff, or_and_right]
      refine (or_iff_right ?_).symm
      rintro ⟨rfl, hnot⟩
      exact hnot hlock
    · rw [any_isLock_iff] at hlock
      obtain ⟨locks, heq, hnodup, hmem⟩ := ih (g.lockStep :: script)
      have hnew : g.lockStep ∉ locks := fun h => ((hmem _).mp h).2 List.mem_cons_self
      refine ⟨locks ++ [g.lockStep], heq.trans (by simp), ?_, fun s => ?_⟩
      · rw [← List.concat_eq_append]
        exact List.Nodup.concat hnew hnodup
      · rw [List.mem_append, List.mem_singleton, hmem, List.exists_mem_cons_iff, List.mem_cons]
        by_cases hs : s = g.lockStep
        · subst hs
          simp [hlock]
        · simp [hs]

/-- Metadata of an exit makes a gate if it names a flag or a fixture. -/
theorem ofMeta?_eq_some_iff {room direction : String} {m : ExitMeta} :
    ofMeta? room direction m = some g ↔
      (m.flag.isSome ∨ m.objectId.isSome) ∧ g = ⟨room, direction, m.objectId, m.flag⟩ := by
  unfold ofMeta?
  split_ifs with hnamed
  · rw [Bool.or_eq_true, or_comm] at hnamed
    exact ⟨fun h => ⟨hnamed, (Option.some.inj h).symm⟩, fun h => congrArg some h.2.symm⟩
  · rw [Bool.or_eq_true, or_comm] at hnamed
    exact iff_of_false (fun h => nomatch h) fun h => hnamed h.1

/-- The gates of a room are its gated exits. -/
theorem mem_ofRoom_iff {r : Room} : g ∈ ofRoom r ↔ g.room = r.id ∧
    ∃ m : ExitMeta, r.exitMeta.get? g.direction = some m ∧ (m.flag.isSome ∨ m.objectId.isSome) ∧
      g.objectId = m.objectId ∧ g.flag = m.flag := by
  unfold ofRoom
  simp only [List.mem_filterMap, ofMeta?_eq_some_iff]
  constructor
  · rintro ⟨⟨direction, m⟩, he, hnamed, rfl⟩
    exact ⟨rfl, m, Table.get?_of_mem he, hnamed, rfl, rfl⟩
  · rintro ⟨hroom, m, hm, hnamed, hobject, hflag⟩
    refine ⟨(g.direction, m), Table.mem_of_get? hm, hnamed, ?_⟩
    rw [← hroom, ← hobject, ← hflag]

/-- A gate comes before another one if its room does, or in the same room its direction. -/
def Before (room direction room' direction' : String) : Prop :=
  room < room' ∨ room = room' ∧ direction < direction'

end Gate

/-- What compiling gates makes of a room: in front of the script for its first entry stand steps
that close exits, one for each gated exit that the script did not close. -/
def Room.Closing (authored compiled : Room) : Prop :=
  ∃ locks : Script, compiled = { authored with onFirstEnter := locks ++ authored.onFirstEnter } ∧
    locks.Nodup ∧ ∀ s, s ∈ locks ↔
      (∃ direction, authored.Gated direction ∧ s = .lockExit authored.id direction) ∧
        s ∉ authored.onFirstEnter

/-- What compiling gates makes of a fixture: the script for using it is extended, so that for each
gate the first branch on its flag opens the exit and says so, and does something otherwise. -/
def Fixture.Opening (gates : Gate → Prop) (authored compiled : Fixture) : Prop :=
  ∃ script, compiled = { authored with use := script } ∧ Gate.Extends gates authored.use script ∧
    ∀ g, gates g → ∃ i equals onMatch otherwise,
      script.FirstBranch g.flagName i equals onMatch otherwise ∧
      g.unlockStep ∈ onMatch ∧ (∃ text, .message text ∈ onMatch) ∧ otherwise ≠ []

namespace Bundle

variable {b : Bundle} {g : Gate}

/-- Every room of a bundle is found by its id. -/
def RoomsById (b : Bundle) : Prop := ∀ id r, b.rooms.get? id = some r → r.id = id

/-- A bundle declares a gate if the metadata of an exit names a flag or a fixture. -/
def Declares (b : Bundle) (g : Gate) : Prop :=
  ∃ r m, b.rooms.get? g.room = some r ∧ r.exitMeta.get? g.direction = some m ∧
    (m.flag.isSome ∨ m.objectId.isSome) ∧ g.objectId = m.objectId ∧ g.flag = m.flag

/-- What compiling gates makes of a bundle, and what it warns about. -/
structure Lowers (authored compiled : Bundle) (warnings : List GateWarning) : Prop where
  /-- The same rooms are there, and close their gated exits. -/
  rooms : ∀ id, Option.Rel Room.Closing (authored.rooms.get? id) (compiled.rooms.get? id)
  /-- The same fixtures are there, and open the exits of their gates. -/
  objects : ∀ id, Option.Rel (Fixture.Opening fun g => authored.Declares g ∧ g.objectId = some id)
    (authored.objects.get? id) (compiled.objects.get? id)
  /-- A room without gates is as it was. -/
  other_rooms : ∀ id, (∀ g, authored.Declares g → g.room ≠ id) →
    compiled.rooms.get? id = authored.rooms.get? id
  /-- A fixture without gates is as it was. -/
  other_objects : ∀ id, (∀ g, authored.Declares g → g.objectId ≠ some id) →
    compiled.objects.get? id = authored.objects.get? id
  /-- There is a warning for each gate whose fixture is missing, and no other. -/
  missing : ∀ w, w ∈ warnings ↔ authored.objects.get? w.objectId = none ∧
    ∃ flag, authored.Declares ⟨w.room, w.direction, some w.objectId, flag⟩
  /-- Warnings come by room and direction, never two for a gate. -/
  ordered : warnings.Pairwise fun v w => Gate.Before v.room v.direction w.room w.direction

/-- Compiling gates goes through the gates that a bundle declares. -/
theorem mem_gates_iff (h : b.RoomsById) : g ∈ b.gates ↔ b.Declares g := by
  unfold gates Table.values Declares
  rw [List.mem_flatMap]
  constructor
  · rintro ⟨r, hr, hg⟩
    obtain ⟨e, he, rfl⟩ := List.mem_map.mp hr
    obtain ⟨hroom, m, hm⟩ := Gate.mem_ofRoom_iff.mp hg
    have hfound := Table.get?_of_mem he
    rw [← h _ _ hfound, ← hroom] at hfound
    exact ⟨e.2, m, hfound, hm⟩
  · rintro ⟨r, m, hr, hm⟩
    exact ⟨r, List.mem_map.mpr ⟨_, Table.mem_of_get? hr, rfl⟩,
      Gate.mem_ofRoom_iff.mpr ⟨(h _ _ hr).symm, m, hm⟩⟩

/-- The gates come by room and direction. -/
theorem pairwise_gates (h : b.RoomsById) :
    b.gates.Pairwise fun g g' => Gate.Before g.room g.direction g'.room g'.direction := by
  unfold gates Table.values
  rw [List.flatMap_map, List.pairwise_flatMap]
  constructor
  · -- In a room the exits come by direction.
    intro e _
    refine List.pairwise_filterMap.mpr (e.2.exitMeta.sorted.imp fun hlt g hg g' hg' => ?_)
    obtain ⟨-, rfl⟩ := Gate.ofMeta?_eq_some_iff.mp hg
    obtain ⟨-, rfl⟩ := Gate.ofMeta?_eq_some_iff.mp hg'
    exact .inr ⟨rfl, hlt⟩
  · -- The gates of different rooms come as the rooms do.
    refine b.rooms.sorted.imp_of_mem fun he he' hlt g hg g' hg' => .inl ?_
    rw [Gate.room_of_mem_ofRoom hg, Gate.room_of_mem_ofRoom hg', h _ _ (Table.get?_of_mem he),
      h _ _ (Table.get?_of_mem he')]
    exact hlt

/-- A room closes its gated exits once the gates were compiled. -/
theorem closing_compileGates (h : b.RoomsById) {id : String} {r : Room}
    (hr : b.rooms.get? id = some r) :
    r.Closing { r with
      onFirstEnter := Gate.ensureLocks (b.gates.filter fun g => g.room = id) r.onFirstEnter } := by
  obtain ⟨locks, heq, hnodup, hmem⟩ :=
    Gate.exists_ensureLocks_eq (b.gates.filter fun g => g.room = id) r.onFirstEnter
  refine ⟨locks, by rw [heq], hnodup, fun s => (hmem s).trans (and_congr_left fun _ => ?_)⟩
  simp only [List.mem_filter, mem_gates_iff h, decide_eq_true_eq]
  constructor
  · rintro ⟨g, ⟨⟨r', m, hr', hm, hnamed, -, -⟩, rfl⟩, rfl⟩
    obtain rfl := Option.some.inj (hr'.symm.trans hr)
    refine ⟨g.direction, ⟨m, hm, hnamed⟩, ?_⟩
    rw [h _ _ hr]
    rfl
  · rintro ⟨direction, ⟨m, hm, hnamed⟩, rfl⟩
    refine ⟨⟨id, direction, m.objectId, m.flag⟩, ⟨⟨r, m, hr, hm, hnamed, rfl, rfl⟩, rfl⟩, ?_⟩
    rw [h _ _ hr]
    rfl

/-- A fixture opens the exits of its gates once the gates were compiled. -/
theorem opening_compileGates (h : b.RoomsById) (id : String) (f : Fixture) :
    f.Opening (fun g => b.Declares g ∧ g.objectId = some id) { f with
      use := Gate.ensureBranches (b.gates.filter fun g => g.objectId = some id) f.use } := by
  have hmem : ∀ g, g ∈ b.gates.filter (fun g => g.objectId = some id) ↔
      b.Declares g ∧ g.objectId = some id := by
    intro g
    rw [List.mem_filter, mem_gates_iff h, decide_eq_true_eq]
  exact ⟨_, rfl, Gate.extends_ensureBranches (fun g hg => (hmem g).mp hg) f.use,
    fun g hg => (Gate.opens_ensureBranches ((hmem g).mpr hg)).exists_firstBranch⟩

/-- The warning about a gate names its exit and its fixture, which is missing. -/
theorem warning?_eq_some_iff {w : GateWarning} :
    b.warning? g = some w ↔ b.objects.get? w.objectId = none ∧
      g.room = w.room ∧ g.direction = w.direction ∧ g.objectId = some w.objectId := by
  unfold warning? Table.contains
  cases g.objectId with
  | none => simp
  | some id =>
    dsimp only
    split_ifs with hfound
    · refine iff_of_false (fun h => nomatch h) fun ⟨hmissing, _, _, hid⟩ => ?_
      rw [Option.some.inj hid, hmissing] at hfound
      cases hfound
    · rw [Option.not_isSome_iff_eq_none] at hfound
      constructor
      · rintro ⟨⟩
        exact ⟨hfound, rfl, rfl, rfl⟩
      · rintro ⟨-, hroom, hdirection, hid⟩
        rw [hroom, hdirection, Option.some.inj hid]

/-- The warnings are about the gates whose fixture is missing. -/
theorem mem_warnings_iff (h : b.RoomsById) {w : GateWarning} :
    w ∈ b.warnings ↔ b.objects.get? w.objectId = none ∧
      ∃ flag, b.Declares ⟨w.room, w.direction, some w.objectId, flag⟩ := by
  unfold warnings
  simp only [List.mem_filterMap, mem_gates_iff h, warning?_eq_some_iff]
  constructor
  · rintro ⟨⟨room, direction, objectId, flag⟩, hg, hmissing, rfl, rfl, rfl⟩
    exact ⟨hmissing, flag, hg⟩
  · rintro ⟨hmissing, flag, hg⟩
    exact ⟨_, hg, hmissing, rfl, rfl, rfl⟩

/-- The warnings come by room and direction. -/
theorem pairwise_warnings (h : b.RoomsById) :
    b.warnings.Pairwise fun v w => Gate.Before v.room v.direction w.room w.direction := by
  refine List.pairwise_filterMap.mpr ((pairwise_gates h).imp fun hlt v hv w hw => ?_)
  obtain ⟨-, hroom, hdirection, -⟩ := warning?_eq_some_iff.mp hv
  obtain ⟨-, hroom', hdirection', -⟩ := warning?_eq_some_iff.mp hw
  rwa [← hroom, ← hdirection, ← hroom', ← hdirection']

/-- Gates that are none of those a bundle declares are not compiled. -/
theorem filter_gates_eq_nil (h : b.RoomsById) {p : Gate → Prop} [DecidablePred p]
    (hnone : ∀ g, b.Declares g → ¬p g) : (b.gates.filter fun g => p g) = [] :=
  List.filter_eq_nil_iff.mpr fun g hg hp =>
    hnone g ((mem_gates_iff h).mp hg) (of_decide_eq_true hp)

/-- Compiling gates adds what the metadata of exits asks for, and loses nothing. -/
theorem lowers_compileGates (h : b.RoomsById) : b.Lowers b.compileGates b.warnings where
  rooms id := by
    rw [rooms_compileGates]
    cases hr : b.rooms.get? id with
    | none => exact .none
    | some r => exact .some (closing_compileGates h hr)
  objects id := by
    rw [objects_compileGates]
    cases b.objects.get? id with
    | none => exact .none
    | some f => exact .some (opening_compileGates h id f)
  other_rooms id hnone := by
    rw [rooms_compileGates, filter_gates_eq_nil h hnone]
    exact Option.map_id'
  other_objects id hnone := by
    rw [objects_compileGates, filter_gates_eq_nil h hnone]
    exact Option.map_id'
  missing _ := mem_warnings_iff h
  ordered := pairwise_warnings h

/-- A hall with three gated exits. Two of them share a lever and a flag, and the script closes one
of the two; the third needs a winch. -/
def millHall : Room where
  id := "hall"
  title := "Halle"
  description := ""
  ascii := none
  items := []
  objects := ["lever"]
  exits := .empty
  exitMeta := .ofList [("nord", ⟨true, some "lever", some "strom"⟩),
    ("ost", ⟨true, some "lever", some "strom"⟩), ("west", ⟨true, some "winch", none⟩)]
  onFirstEnter := [.message "Es ist kalt.", .lockExit "hall" "ost"]
  onEnter := []
  extra := .empty

/-- A lever whose script does something for the flag, but opens no exit. -/
def millLever : Fixture where
  id := "lever"
  name := "Hebel"
  description := ""
  locked := false
  inspect := []
  use := [.branch "strom" (.string "an") [.addItem "fuse"] [], .addItem "oil"]
  onLockedUse := []
  extra := .empty

/-- A mill with a hall and a lever, but without a winch. -/
def mill : Bundle := ⟨.ofList [("hall", millHall)], .ofList [("lever", millLever)]⟩

/-- The gates of the mill are compiled. -/
theorem lowers_compileGates_mill : mill.RoomsById ∧
    mill.Lowers mill.compileGates mill.warnings ∧ mill.warnings = [⟨"hall", "west", "winch"⟩] := by
  have hrooms : mill.RoomsById := by
    intro id r hr
    cases List.mem_singleton.mp (Table.mem_of_get? hr)
    rfl
  exact ⟨hrooms, lowers_compileGates hrooms, by decide⟩

example : (mill.compileGates.objects.get? "lever").map Fixture.use = some
    [.branch "strom" (.string "an")
      [.message "Es klickt. Der Weg nach nord ist frei.", .addItem "fuse",
        .unlockExit "hall" "nord", .unlockExit "hall" "ost"]
      [.message "Es tut sich nichts."],
      .addItem "oil"] := by rfl

end Bundle

end TextAdventure
