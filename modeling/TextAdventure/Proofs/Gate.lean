import TextAdventure.Bundle.Gate
import TextAdventure.Proofs.Table

/-!
# What compiling gates does to a bundle

Compiling the gates of a bundle changes nothing about a room but the script for its first entry, and
there it only puts steps in front that close exits (`Bundle.rooms_compileGates`). So every room that
is in a compiled bundle under its own id closes each of its gated exits when it is first entered
(`Bundle.closesGates_of_compileGates`). Nor does it change anything about a fixture but the script
for using it (`Bundle.objects_compileGates`).

What a gate needs of a script is there once the gate has been compiled, and no other gate takes it
away, since gates only add steps. So compiling a compiled bundle changes nothing
(`Bundle.compileGates_compileGates`).
-/

namespace TextAdventure

/-- An exit of a room is gated if its metadata names a flag or a fixture. -/
def Room.Gated (r : Room) (direction : String) : Prop :=
  ∃ m : ExitMeta, r.exitMeta.get? direction = some m ∧ (m.flag.isSome ∨ m.objectId.isSome)

/-- A room closes its gated exits when it is first entered. -/
def Room.ClosesGates (r : Room) : Prop :=
  ∀ direction, r.Gated direction → Step.lockExit r.id direction ∈ r.onFirstEnter

/-- Whether the script for the first entry of a room closes the exits of all gates of the room. -/
def Room.locksGates (r : Room) : Bool :=
  (Gate.ofRoom r).all fun g => r.onFirstEnter.any g.isLock

namespace Gate

variable {g : Gate} {s : Step} {script : Script}

/-- The step that closes the exit of a gate is the only one that closes it. -/
theorem eq_lockStep_of_isLock (h : g.isLock s = true) : s = g.lockStep := by
  unfold isLock at h
  split at h
  · next room direction =>
    rw [Bool.and_eq_true, beq_iff_eq, beq_iff_eq] at h
    obtain ⟨rfl, rfl⟩ := h
    rfl
  · cases h

/-- The step that closes the exit is there afterwards. -/
theorem lockStep_mem_ensureLock (g : Gate) (script : Script) :
    g.lockStep ∈ g.ensureLock script := by
  unfold ensureLock
  split
  · next h =>
    obtain ⟨s, hs, hlock⟩ := List.any_eq_true.mp h
    rw [← eq_lockStep_of_isLock hlock]
    exact hs
  · exact List.mem_cons_self

/-- No step is lost. -/
theorem mem_ensureLock_of_mem (h : s ∈ script) : s ∈ g.ensureLock script := by
  unfold ensureLock
  split
  · exact h
  · exact List.mem_cons_of_mem _ h

section Passes

variable {pass : Gate → Script → Script} {P : Gate → Script → Prop}

/-- What the pass for a gate achieves is there after the passes for several gates, if no pass takes
it away. -/
theorem done_foldl (hdone : ∀ g script, P g (pass g script))
    (hkeep : ∀ {g script} g', P g script → P g (pass g' script)) {gs : List Gate}
    (h : g ∈ gs) : P g (gs.foldl (fun script g => pass g script) script) := by
  have hlater : ∀ (gs : List Gate) {script : Script}, P g script →
      P g (gs.foldl (fun script g => pass g script) script) := by
    intro gs
    induction gs with
    | nil => exact fun h => h
    | cons g' gs ih => exact fun h => ih (hkeep g' h)
  induction gs generalizing script with
  | nil => cases h
  | cons first gs ih =>
    rcases List.mem_cons.mp h with rfl | h
    · exact hlater gs (hdone g script)
    · exact ih h

/-- Where everything is done already, the passes for several gates change nothing. -/
theorem foldl_eq_self (hself : ∀ {g script}, P g script → pass g script = script)
    {gs : List Gate} (h : ∀ g ∈ gs, P g script) :
    gs.foldl (fun script g => pass g script) script = script := by
  induction gs with
  | nil => rfl
  | cons g gs ih =>
    rw [List.foldl_cons, hself (h g List.mem_cons_self)]
    exact ih fun g' hg' => h g' (List.mem_cons_of_mem _ hg')

end Passes

/-- A script that closes the exits of several gates. -/
def ensureLocks (gs : List Gate) (script : Script) : Script :=
  gs.foldl (fun script g => g.ensureLock script) script

/-- The steps that close the exits of several gates are there afterwards. -/
theorem lockStep_mem_ensureLocks {gs : List Gate} (h : g ∈ gs) :
    g.lockStep ∈ ensureLocks gs script :=
  done_foldl (P := fun g script => g.lockStep ∈ script) lockStep_mem_ensureLock
    (fun _ => mem_ensureLock_of_mem) h

/-- A script that closes the exits already stays as it is. -/
theorem ensureLocks_eq_self {gs : List Gate} (h : ∀ g ∈ gs, script.any g.isLock = true) :
    ensureLocks gs script = script := by
  refine foldl_eq_self (P := fun g script => script.any g.isLock = true)
    (fun {g script} hlock => ?_)
    h
  unfold ensureLock
  rw [if_pos hlock]

/-- The step that closes the exit of a gate closes it. -/
theorem isLock_lockStep (g : Gate) : g.isLock g.lockStep = true := by
  simp [isLock, lockStep]

/-- Closing the exits of several gates again changes nothing. -/
theorem ensureLocks_ensureLocks (gs : List Gate) (script : Script) :
    ensureLocks gs (ensureLocks gs script) = ensureLocks gs script :=
  ensureLocks_eq_self fun g hg =>
    List.any_eq_true.mpr ⟨g.lockStep, lockStep_mem_ensureLocks hg, g.isLock_lockStep⟩

/-- The gates of a room are about its exits. -/
theorem room_of_mem_ofRoom {r : Room} (h : g ∈ ofRoom r) : g.room = r.id := by
  obtain ⟨e, -, he⟩ := List.mem_filterMap.mp h
  unfold ofMeta? at he
  split at he
  · cases he
    rfl
  · cases he

/-- A gated exit of a room is one of its gates. -/
theorem exists_ofRoom_of_gated {r : Room} {direction : String} (h : r.Gated direction) :
    ∃ g ∈ ofRoom r, g.room = r.id ∧ g.direction = direction := by
  obtain ⟨m, hm, hnamed⟩ := h
  refine ⟨⟨r.id, direction, m.objectId, m.flag⟩, ?_, rfl, rfl⟩
  have hgate : ofMeta? r.id direction m = some ⟨r.id, direction, m.objectId, m.flag⟩ := by
    unfold ofMeta?
    rw [if_pos]
    rw [Bool.or_eq_true]
    exact hnamed.symm
  exact List.mem_filterMap.mpr ⟨(direction, m), Table.mem_of_get? hm, hgate⟩

/-! ### Opening exits -/

/-- The two scripts of the first branch on a flag. -/
def branchOn? (flag : String) : Script → Option (Script × Script)
  | [] => none
  | .branch key _ onMatch otherwise :: rest =>
    if key = flag then some (onMatch, otherwise) else branchOn? flag rest
  | _ :: rest => branchOn? flag rest

/-- A script opens the exit of a gate: its first branch on the flag has a line and the step that
opens the exit, and says something where the flag has another value. -/
def Opens (g : Gate) (script : Script) : Prop :=
  ∃ onMatch otherwise, branchOn? g.flagName script = some (onMatch, otherwise) ∧
    onMatch.any isMessage = true ∧ onMatch.any g.isUnlock = true ∧ otherwise.isEmpty = false

/-- The step that opens the exit of a gate opens it. -/
theorem isUnlock_unlockStep (g : Gate) : g.isUnlock g.unlockStep = true := by
  simp [isUnlock, unlockStep]

/-- What completes a script without steps. -/
theorem completeMatch_nil (g : Gate) : g.completeMatch [] = [g.successStep, g.unlockStep] := rfl

/-- A complete script stays as it is. -/
theorem completeMatch_eq_self (hline : script.any isMessage = true)
    (hunlock : script.any g.isUnlock = true) : g.completeMatch script = script := by
  simp [completeMatch, hline, hunlock]

/-- Completing a script first adds a line, if there is none, and then takes nothing away. -/
theorem mem_completeMatch
    (h : s ∈ if script.any isMessage = true then script else g.successStep :: script) :
    s ∈ g.completeMatch script := by
  unfold completeMatch
  dsimp only
  split_ifs at h ⊢ <;> first | exact h | exact List.mem_append_left _ h

/-- Completing a script loses none of its steps. -/
theorem any_completeMatch_of_any {p : Step → Bool} (h : script.any p = true) :
    (g.completeMatch script).any p = true := by
  obtain ⟨s, hs, hp⟩ := List.any_eq_true.mp h
  refine List.any_eq_true.mpr ⟨s, mem_completeMatch ?_, hp⟩
  split_ifs
  · exact hs
  · exact List.mem_cons_of_mem _ hs

/-- A script that was completed has a line. -/
theorem any_isMessage_completeMatch (g : Gate) (script : Script) :
    (g.completeMatch script).any isMessage = true := by
  by_cases h : script.any isMessage = true
  · exact any_completeMatch_of_any h
  · refine List.any_eq_true.mpr ⟨g.successStep, mem_completeMatch ?_, rfl⟩
    rw [if_neg h]
    exact List.mem_cons_self

/-- A script that was completed has the step that opens the exit. -/
theorem any_isUnlock_completeMatch (g : Gate) (script : Script) :
    (g.completeMatch script).any g.isUnlock = true := by
  unfold completeMatch
  dsimp only
  generalize (if script.any isMessage = true then script else g.successStep :: script) = first
  split_ifs with h
  · exact h
  · rw [List.any_append, List.any_cons, isUnlock_unlockStep, Bool.true_or, Bool.or_true]

/-- A script for any other value of the flag is not empty once it was completed. -/
theorem isEmpty_completeOtherwise (script : Script) :
    (completeOtherwise script).isEmpty = false := by
  unfold completeOtherwise
  cases script <;> rfl

/-- What a script does for a flag once a gate was compiled: the first branch on its own flag is
complete, and those on other flags are as they were. -/
theorem branchOn?_ensureBranch (g : Gate) (flag : String) (script : Script) :
    branchOn? flag (g.ensureBranch script) =
      if flag = g.flagName then
        let scripts := (branchOn? flag script).getD ([], [])
        some (g.completeMatch scripts.1, completeOtherwise scripts.2)
      else branchOn? flag script := by
  -- The induction is along the search for the branch.
  fun_induction ensureBranch g script with
  | case1 =>
    by_cases h : flag = g.flagName
    · subst h
      simp [branchStep, branchOn?, completeMatch_nil, completeOtherwise]
    · simp [branchStep, branchOn?, h, Ne.symm h]
  | case2 equals onMatch otherwise rest =>
    by_cases h : flag = g.flagName
    · simp [branchOn?, h]
    · simp [branchOn?, h, Ne.symm h]
  | case3 key equals onMatch otherwise rest hother ih =>
    by_cases h : key = flag
    · subst h
      simp [branchOn?, hother]
    · simp [branchOn?, h, ih]
  | case4 s rest hbranch ih =>
    have hskip : ∀ rest : Script, branchOn? flag (s :: rest) = branchOn? flag rest := by
      intro rest
      cases s <;> first | rfl | exact absurd rfl (hbranch _ _ _ _)
    rw [hskip, hskip, ih]

/-- A script that opens the exit already stays as it is. -/
theorem ensureBranch_eq_self (h : g.Opens script) : g.ensureBranch script = script := by
  obtain ⟨onMatch, otherwise, hbranch, hline, hunlock, hmore⟩ := h
  fun_induction ensureBranch g script with
  | case1 => cases hbranch
  | case2 equals m o rest =>
    rw [branchOn?, if_pos rfl] at hbranch
    cases hbranch
    rw [completeMatch_eq_self hline hunlock, completeOtherwise, hmore]
    rfl
  | case3 key equals m o rest hother ih =>
    rw [branchOn?, if_neg hother] at hbranch
    rw [ih hbranch]
  | case4 s rest hnone ih =>
    have hskip : branchOn? g.flagName (s :: rest) = branchOn? g.flagName rest := by
      cases s <;> first | rfl | exact absurd rfl (hnone _ _ _ _)
    rw [ih (hskip.symm.trans hbranch)]

/-- A script opens the exit once the gate was compiled. -/
theorem opens_ensureBranch (g : Gate) (script : Script) : g.Opens (g.ensureBranch script) := by
  refine ⟨_, _, (g.branchOn?_ensureBranch g.flagName script).trans (if_pos rfl), ?_, ?_, ?_⟩
  · exact any_isMessage_completeMatch g _
  · exact any_isUnlock_completeMatch g _
  · exact isEmpty_completeOtherwise _

/-- A script that opens an exit still does so when another gate was compiled. -/
theorem Opens.ensureBranch (h : g.Opens script) (g' : Gate) :
    g.Opens (g'.ensureBranch script) := by
  obtain ⟨onMatch, otherwise, hbranch, hline, hunlock, hmore⟩ := h
  have hafter := g'.branchOn?_ensureBranch g.flagName script
  rw [hbranch] at hafter
  split_ifs at hafter
  · refine ⟨_, _, hafter, ?_, ?_, isEmpty_completeOtherwise _⟩
    · exact any_completeMatch_of_any hline
    · exact any_completeMatch_of_any hunlock
  · exact ⟨_, _, hafter, hline, hunlock, hmore⟩

/-- A script that opens the exits of several gates. -/
def ensureBranches (gs : List Gate) (script : Script) : Script :=
  gs.foldl (fun script g => g.ensureBranch script) script

/-- A script opens the exits of several gates once they were compiled. -/
theorem opens_ensureBranches {gs : List Gate} (h : g ∈ gs) :
    g.Opens (ensureBranches gs script) :=
  done_foldl opens_ensureBranch (fun g' h => Opens.ensureBranch h g') h

/-- Opening the exits of several gates again changes nothing. -/
theorem ensureBranches_ensureBranches (gs : List Gate) (script : Script) :
    ensureBranches gs (ensureBranches gs script) = ensureBranches gs script :=
  foldl_eq_self ensureBranch_eq_self fun _ hg => opens_ensureBranches hg

end Gate

namespace Bundle

variable {b : Bundle} {r : Room}

/-- The steps for several gates change no more about a room than its script for the first entry. -/
theorem rooms_foldl_compileGate (gs : List Gate) (b : Bundle) (id : String) :
    (gs.foldl compileGate b).rooms.get? id = (b.rooms.get? id).map fun r => { r with
      onFirstEnter := Gate.ensureLocks (gs.filter fun g => g.room = id) r.onFirstEnter } := by
  induction gs generalizing b with
  | nil =>
    exact Option.map_id'.symm
  | cons g gs ih =>
    rw [List.foldl_cons, ih]
    show ((b.rooms.modify g.room fun r => { r with
      onFirstEnter := g.ensureLock r.onFirstEnter }).get? id).map _ = _
    rw [Table.get?_modify, Option.map_map]
    -- The first gate is one of this room, or leaves the room alone.
    by_cases h : id = g.room
    · subst h
      simp [Gate.ensureLocks, Function.comp_def]
    · have hother : ¬g.room = id := fun heq => h heq.symm
      simp [h, hother, Function.comp_def]

/-- Compiling the gates of a bundle changes no more about a room than its script for the first
entry. -/
theorem rooms_compileGates (b : Bundle) (id : String) :
    b.compileGates.rooms.get? id = (b.rooms.get? id).map fun r => { r with
      onFirstEnter := Gate.ensureLocks (b.gates.filter fun g => g.room = id) r.onFirstEnter } :=
  rooms_foldl_compileGate b.gates b id

/-- A room of a compiled bundle, under its own id, closes its gated exits when it is first
entered. -/
theorem closesGates_of_compileGates (h : b.compileGates.rooms.get? r.id = some r) :
    r.ClosesGates := by
  intro direction hgated
  rw [rooms_compileGates] at h
  obtain ⟨authored, hauthored, hr⟩ := Option.map_eq_some_iff.mp h
  -- The room comes from an authored one with the same id and the same metadata.
  have hid : authored.id = r.id := by rw [← hr]
  have hsame : authored.exitMeta = r.exitMeta := by rw [← hr]
  have hgated' : authored.Gated direction := by
    unfold Room.Gated
    rw [hsame]
    exact hgated
  obtain ⟨g, hg, hroom, rfl⟩ := Gate.exists_ofRoom_of_gated hgated'
  -- So the gate of the exit is among those that were compiled.
  have hmem : g ∈ b.gates :=
    List.mem_flatMap.mpr ⟨authored, List.mem_map.mpr ⟨_, Table.mem_of_get? hauthored, rfl⟩, hg⟩
  have hlock : g.lockStep ∈ Gate.ensureLocks (b.gates.filter fun g => g.room = r.id)
      authored.onFirstEnter := by
    refine Gate.lockStep_mem_ensureLocks (List.mem_filter.mpr ⟨hmem, ?_⟩)
    rw [hroom, hid]
    exact decide_eq_true rfl
  have hstep : g.lockStep = Step.lockExit r.id g.direction := by
    unfold Gate.lockStep
    rw [hroom, hid]
  have hscript : r.onFirstEnter = Gate.ensureLocks (b.gates.filter fun g => g.room = r.id)
      authored.onFirstEnter := (congrArg Room.onFirstEnter hr).symm
  rw [← hstep, hscript]
  exact hlock

/-- A bundle in which every room is under its own id and closes its gated exits already keeps its
rooms as they are. -/
theorem rooms_compileGates_eq_self
    (h : ∀ e ∈ b.rooms.entries, e.2.id = e.1 ∧ e.2.locksGates = true) (id : String) :
    b.compileGates.rooms.get? id = b.rooms.get? id := by
  rw [rooms_compileGates]
  cases hr : b.rooms.get? id with
  | none => rfl
  | some r =>
    have hlocks : Gate.ensureLocks (b.gates.filter fun g => g.room = id) r.onFirstEnter =
        r.onFirstEnter := Gate.ensureLocks_eq_self fun g hg => by
      obtain ⟨hgates, hroom⟩ := List.mem_filter.mp hg
      -- The gate belongs to some room of the bundle, which is this one by its id.
      obtain ⟨r', hvalue, hgate⟩ := List.mem_flatMap.mp hgates
      obtain ⟨e, he, rfl⟩ := List.mem_map.mp hvalue
      obtain ⟨hid, hcloses⟩ := h e he
      have hkey : e.1 = id := by
        rw [← hid, ← Gate.room_of_mem_ofRoom hgate]
        exact of_decide_eq_true hroom
      have hsame : e.2 = r := by
        have hfound := Table.get?_of_mem he
        rw [hkey, hr] at hfound
        exact (Option.some.inj hfound).symm
      rw [← hsame]
      exact List.all_eq_true.mp hcloses g hgate
    rw [Option.map_some, hlocks]

/-- The steps for several gates change no more about a fixture than its script for being used. -/
theorem objects_foldl_compileGate (gs : List Gate) (b : Bundle) (id : String) :
    (gs.foldl compileGate b).objects.get? id = (b.objects.get? id).map fun f => { f with
      use := Gate.ensureBranches (gs.filter fun g => g.objectId = some id) f.use } := by
  induction gs generalizing b with
  | nil => exact Option.map_id'.symm
  | cons g gs ih =>
    rw [List.foldl_cons, ih]
    -- The gate names this fixture, another one or none.
    cases hobject : g.objectId with
    | none => simp [compileGate, hobject]
    | some other =>
      simp only [compileGate, hobject]
      rw [Table.get?_modify, Option.map_map]
      by_cases h : id = other
      · subst h
        simp [Gate.ensureBranches, Function.comp_def, hobject]
      · have hother : ¬other = id := fun heq => h heq.symm
        simp [h, hother, Function.comp_def, hobject]

/-- Compiling the gates of a bundle changes no more about a fixture than its script for being
used. -/
theorem objects_compileGates (b : Bundle) (id : String) :
    b.compileGates.objects.get? id = (b.objects.get? id).map fun f => { f with
      use := Gate.ensureBranches (b.gates.filter fun g => g.objectId = some id) f.use } :=
  objects_foldl_compileGate b.gates b id

/-- The steps for a gate change no gate. -/
theorem gates_compileGate (b : Bundle) (g : Gate) : (b.compileGate g).gates = b.gates := by
  unfold gates Table.values compileGate Table.modify
  dsimp only
  rw [List.map_map, List.flatMap_map, List.flatMap_map]
  refine List.flatMap_congr fun e _ => ?_
  dsimp only [Function.comp_apply]
  split_ifs <;> rfl

/-- Compiling the gates of a bundle changes no gate. -/
theorem gates_compileGates (b : Bundle) : b.compileGates.gates = b.gates := by
  have hfold : ∀ (gs : List Gate) (b : Bundle), (gs.foldl compileGate b).gates = b.gates := by
    intro gs
    induction gs with
    | nil => exact fun _ => rfl
    | cons g gs ih => exact fun b => (ih _).trans (b.gates_compileGate g)
  exact hfold b.gates b

/-- Compiling the gates of a bundle takes away none of the rooms. -/
theorem contains_rooms_compileGates (b : Bundle) (id : String) :
    b.compileGates.rooms.contains id = b.rooms.contains id := by
  unfold Table.contains
  rw [rooms_compileGates, Option.isSome_map]

/-- Compiling the gates of a bundle takes away none of the fixtures. -/
theorem contains_objects_compileGates (b : Bundle) (id : String) :
    b.compileGates.objects.contains id = b.objects.contains id := by
  unfold Table.contains
  rw [objects_compileGates, Option.isSome_map]

/-- A compiled bundle has the same warnings. -/
theorem warnings_compileGates (b : Bundle) : b.compileGates.warnings = b.warnings := by
  have hwarning : b.compileGates.warning? = b.warning? := by
    funext g
    simp only [warning?, contains_objects_compileGates]
  unfold warnings
  rw [gates_compileGates, hwarning]

/-- Compiling the gates of a compiled bundle changes nothing. -/
theorem compileGates_compileGates (b : Bundle) : b.compileGates.compileGates = b.compileGates := by
  have hrooms : b.compileGates.compileGates.rooms = b.compileGates.rooms := by
    refine Table.ext_get? fun id => ?_
    rw [rooms_compileGates, gates_compileGates, rooms_compileGates, Option.map_map]
    refine congrArg (fun f => (b.rooms.get? id).map f) (funext fun r => ?_)
    simp only [Function.comp_apply, Gate.ensureLocks_ensureLocks]
  have hobjects : b.compileGates.compileGates.objects = b.compileGates.objects := by
    refine Table.ext_get? fun id => ?_
    rw [objects_compileGates, gates_compileGates, objects_compileGates, Option.map_map]
    refine congrArg (fun f => (b.objects.get? id).map f) (funext fun f => ?_)
    simp only [Function.comp_apply, Gate.ensureBranches_ensureBranches]
  calc b.compileGates.compileGates
      = ⟨b.compileGates.compileGates.rooms, b.compileGates.compileGates.objects⟩ := rfl
    _ = b.compileGates := by rw [hrooms, hobjects]

/-- What is compiled once more stays as it is, with the same warnings. -/
theorem compiled_stays (b : Bundle) :
    b.compileGates.compileGates = b.compileGates ∧ b.compileGates.warnings = b.warnings :=
  ⟨b.compileGates_compileGates, b.warnings_compileGates⟩

end Bundle

end TextAdventure
