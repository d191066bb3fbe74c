import TextAdventure.Bundle

/-!
# Gates

Authors say about an exit which fixture opens it and which flag has to be set first. The engine only
knows scripts, so `Bundle.compileGates` turns these *gates* into script steps: the room closes the
exit when it is first entered, and using the fixture opens it if the flag is true.

Steps that are there already are not added again, so compiling a compiled bundle changes nothing.
-/

namespace TextAdventure

/-- An exit that a script has to open. -/
structure Gate where
  room : String
  direction : String
  /-- The fixture that opens the exit. -/
  objectId : Option String
  /-- The flag that the author has named. -/
  flag : Option String
  deriving DecidableEq, Repr

/-- A gate whose fixture does not exist. -/
structure GateWarning where
  room : String
  direction : String
  objectId : String
  deriving DecidableEq, Repr

/-- The wording of a warning. -/
def GateWarning.message (w : GateWarning) : String :=
  "exit " ++ w.room ++ ":" ++ w.direction ++ " references missing object '" ++ w.objectId ++ "'"

namespace Gate

/-- The gate of an exit, if its metadata names a fixture or a flag. -/
def ofMeta? (room direction : String) (m : ExitMeta) : Option Gate :=
  if m.objectId.isSome || m.flag.isSome then some ⟨room, direction, m.objectId, m.flag⟩ else none

/-- The gates of a room, by direction. -/
def ofRoom (r : Room) : List Gate :=
  r.exitMeta.entries.filterMap fun e => ofMeta? r.id e.1 e.2

/-- The flag of the exit, if the author has not named another. -/
def standardFlag (room direction : String) : String :=
  "exit_" ++ room ++ "_" ++ direction ++ "_open"

/-- The flag that has to be true. -/
def flagName (g : Gate) : String := g.flag.getD (standardFlag g.room g.direction)

/-- The step that closes the exit. -/
def lockStep (g : Gate) : Step := .lockExit g.room g.direction

/-- The step that opens the exit. -/
def unlockStep (g : Gate) : Step := .unlockExit g.room g.direction

/-- The line for opening the exit. -/
def successStep (g : Gate) : Step :=
  .message ("Es klickt. Der Weg nach " ++ g.direction ++ " ist frei.")

/-- The line for using the fixture too early. -/
def failureStep : Step := .message "Es tut sich nichts."

/-- Whether a step closes the exit. -/
def isLock (g : Gate) : Step → Bool
  | .lockExit room direction => room == g.room && direction == g.direction
  | _ => false

/-- Whether a step opens the exit. -/
def isUnlock (g : Gate) : Step → Bool
  | .unlockExit room direction => room == g.room && direction == g.direction
  | _ => false

/-- Whether a step says a line. -/
def isMessage : Step → Bool
  | .message _ => true
  | _ => false

/-- A script for entering the room that closes the exit, first of all if it did not before. -/
def ensureLock (g : Gate) (s : Script) : Script :=
  if s.any g.isLock then s else g.lockStep :: s

/-- The script for a true flag, with a line and with the step that opens the exit. -/
def completeMatch (g : Gate) (s : Script) : Script :=
  let s := if s.any isMessage then s else g.successStep :: s
  if s.any g.isUnlock then s else s ++ [g.unlockStep]

/-- The script for any other value of the flag, which is not empty. -/
def completeOtherwise (s : Script) : Script := if s.isEmpty then [failureStep] else s

/-- The branch that is added for the gate. -/
def branchStep (g : Gate) : Step :=
  .branch g.flagName (.bool true) [g.successStep, g.unlockStep] [failureStep]

/-- A script for using the fixture that opens the exit: the first branch on the flag is completed,
or a branch is added at the end. -/
def ensureBranch (g : Gate) : Script → Script
  | [] => [g.branchStep]
  | .branch key equals onMatch otherwise :: rest =>
    -- What the branch compares the flag with stays.
    if key = g.flagName then
      .branch key equals (g.completeMatch onMatch) (completeOtherwise otherwise) :: rest
    else .branch key equals onMatch otherwise :: g.ensureBranch rest
  | s :: rest => s :: g.ensureBranch rest

end Gate

namespace Bundle

/-- The gates of a bundle, by room and direction. -/
def gates (b : Bundle) : List Gate := b.rooms.values.flatMap Gate.ofRoom

/-- The bundle with the steps for one gate. -/
def compileGate (b : Bundle) (g : Gate) : Bundle where
  rooms := b.rooms.modify g.room fun r => { r with onFirstEnter := g.ensureLock r.onFirstEnter }
  objects := match g.objectId with
    | some id => b.objects.modify id fun f => { f with use := g.ensureBranch f.use }
    | none => b.objects

/-- The warning about a gate, if its fixture is not in the bundle. -/
def warning? (b : Bundle) (g : Gate) : Option GateWarning :=
  match g.objectId with
  | some id => if b.objects.contains id then none else some ⟨g.room, g.direction, id⟩
  | none => none

/-- The bundle with the steps for all gates. -/
def compileGates (b : Bundle) : Bundle := b.gates.foldl compileGate b

/-- The warnings about the gates of a bundle. -/
def warnings (b : Bundle) : List GateWarning := b.gates.filterMap b.warning?

end Bundle

end TextAdventure
