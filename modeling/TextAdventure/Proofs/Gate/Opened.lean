import TextAdventure.Proofs.Gate.Added
import TextAdventure.Proofs.Player.Record
import TextAdventure.Proofs.Step
import TextAdventure.Proofs.Unabridged

/-!
# When compiled gates open

A step that opens an exit and that compiling gates has added stands in the script of a branch on the
flag of its gate (`Gate.Unlocking`). A branch runs one of its two scripts and nothing else, so the
step is performed where the flag has the value that the branch asks for, and nowhere else
(`Bundle.unlocks_by_flag`).

A branch that is generated asks for `true`. One that was there before is completed whatever it asks
for, and then the exit opens for that value (`Bundle.unlocks_in_the_dark`).
-/

namespace TextAdventure

/-- Only `true` is the same as `true`. -/
theorem Json.same_true_iff {v : Json} : v.same (.bool true) = true ↔ v = .bool true := by
  cases v <;> simp [Json.same]

/-- A flag is set to `true` if that is its value. -/
theorem Player.hasFlag_true_iff {p : Player} {key : String} :
    p.hasFlag key (.bool true) = true ↔ p.flags.get? key = some (.bool true) := by
  unfold hasFlag
  cases p.flags.get? key with
  | none => exact iff_of_false (fun h => nomatch h) fun h => nomatch h
  | some v => exact Json.same_true_iff.trans (Option.some_inj).symm

namespace Nested

variable {inner : Nested} {n : Nat} {p q : Play} {R : Unit → Play → Prop}
  {E : Failure → Play → Prop}

/-- A branch runs one of its two scripts, and nothing else. -/
theorem step_branch (key : String) (equals : Json) (onMatch otherwise : Script) :
    inner.step (.branch key equals onMatch otherwise) p =
      inner.script (if p.player.hasFlag key equals then onMatch else otherwise)
        (p.performing (.branch key equals onMatch otherwise)) :=
  Act.eq_of_ends ((ends_step_branch key equals onMatch otherwise).mpr (Act.ends_self _ _))

/-- The steps of two scripts, one script after the other. -/
theorem ends_steps_append (before after : Script) :
    (inner.steps (before ++ after)).Ends p R E ↔
      (inner.steps before).Ends p (fun _ q => (inner.steps after).Ends q R E) E := by
  induction before generalizing p with
  | nil => exact Iff.rfl
  | cons s ss ih =>
    rw [List.cons_append, steps, steps, Act.ends_bind, Act.ends_bind]
    simp only [ih]

/-- A step that opens an exit is entered into the journal, whether the player can be saved then or
not. -/
theorem ends_step_unlockExit (room direction : String) :
    (inner.step (.unlockExit room direction)).Ends p
      (fun _ r => (p.performing (.unlockExit room direction)).journal <:+ r.journal)
      fun _ r => (p.performing (.unlockExit room direction)).journal <:+ r.journal := by
  rw [ends_step_revision rfl, Act.ends_persist]
  exact ⟨fun _ => List.suffix_append _ _,
    fun _ _ => (List.suffix_append _ _).trans (List.suffix_cons _ _)⟩

/-- A script that comes to a step that opens an exit performs it. -/
theorem ends_script_unlockExit {before after : Script} {room direction : String}
    (hbefore : (within n).steps before (p.noting .opened) = .ok () q) :
    ((within (n + 1)).script (before ++ .unlockExit room direction :: after)).Ends p
      (fun _ r => (q.performing (.unlockExit room direction)).journal <:+ r.journal)
      fun _ r => (q.performing (.unlockExit room direction)).journal <:+ r.journal := by
  -- What comes after the step keeps the journal.
  have hscenic := Discipline.scenic_recorded
  obtain ⟨hscript, harrival⟩ := hscenic.within n
  have hafter : ((within n).steps after).Keeps .recorded :=
    (hscenic.steps hscript harrival after).keeps
  have hsome : (before ++ Step.unlockExit room direction :: after).isEmpty = false := by simp
  have hclosed : ∀ {r : Play}, r.journal <:+ (r.noting .closed).journal := List.suffix_cons _ _
  unfold within
  dsimp only
  rw [hsome, if_neg Bool.false_ne_true, Act.ends_level, ends_steps_append]
  unfold Act.Ends
  rw [hbefore]
  show Act.Ends _ _ _ _
  rw [steps, Act.ends_bind]
  refine (ends_step_unlockExit room direction).imp (fun _ r hr => ?_) fun _ r hr => hr.trans hclosed
  exact (hafter r trivial).imp (fun _ _ hs => (hr.trans hs).trans hclosed)
    fun _ _ hs => (hr.trans hs).trans hclosed

end Nested

namespace Gate

/-- A step that opens an exit, with its place in a branch: the steps before it and after it in the
script for a match, and the script that the branch runs otherwise. -/
structure Unlocking where
  flag : String
  equals : Json
  before : Script
  room : String
  direction : String
  after : Script
  otherwise : Script

namespace Unlocking

/-- The step that opens the exit. -/
def unlock (u : Unlocking) : Step := .unlockExit u.room u.direction

/-- The branch. -/
def step (u : Unlocking) : Step :=
  .branch u.flag u.equals (u.before ++ u.unlock :: u.after) u.otherwise

/-- The branch is at a place of a compiled script, and the script for a match did not open the exit
before the script was compiled. -/
structure AddedAt (u : Unlocking) (i : Nat) (authored compiled : Script) : Prop where
  /-- The branch is there. -/
  here : compiled[i]? = some u.step
  /-- A branch on the flag that was there before did not open the exit. -/
  new : ∀ equals onMatch otherwise,
    authored[i]? = some (.branch u.flag equals onMatch otherwise) → u.unlock ∉ onMatch

end Unlocking

variable {gates : Gate → Prop} {g : Gate} {authored compiled script : Script} {flag : String}

/-- Branches that gates have added come after the steps of the author. They ask for `true`, and
their scripts consist of nothing but what gates add. -/
def Generates (gates : Gate → Prop) (authored compiled : Script) : Prop :=
  ∀ i s, authored.length ≤ i → compiled[i]? = some s → ∃ flag onMatch,
    s = .branch flag (.bool true) onMatch [failureStep] ∧ Completes gates flag [] onMatch

/-- The branch of a gate consists of what the gate adds. -/
theorem completes_branchStep (hg : gates g) :
    Completes gates g.flagName [] [g.successStep, g.unlockStep] :=
  (Completes.refl gates g.flagName []).completeMatch hg rfl

/-- Another gate adds to the branches of gates only what gates add. -/
theorem Generates.ensures {next : Script} (h : Generates gates authored compiled) (hg : gates g)
    (he : Ensures g compiled next) : Generates gates authored next := by
  intro i s hi hs
  cases he with
  | @completed k equals onMatch otherwise hfirst =>
    have hk : k < compiled.length := List.getElem?_eq_some_iff.mp hfirst.here |>.1
    by_cases hik : i = k
    · subst hik
      obtain ⟨flag, script, heq, hcompletes⟩ := h i _ hi hfirst.here
      cases heq
      rw [List.getElem?_set_self hk] at hs
      exact ⟨_, _, (Option.some.inj hs).symm, hcompletes.completeMatch hg rfl⟩
    · exact h i s hi ((List.getElem?_set_ne (Ne.symm hik)).symm.trans hs)
  | added _ =>
    rw [List.getElem?_append] at hs
    split_ifs at hs
    · exact h i s hi hs
    · obtain rfl := List.mem_singleton.mp (List.mem_of_getElem? hs)
      exact ⟨_, _, rfl, completes_branchStep hg⟩

/-- The gates of a fixture add branches that consist of nothing else. -/
theorem generates_ensureBranches {gs : List Gate} (hgs : ∀ g ∈ gs, gates g) (authored : Script) :
    Generates gates authored (ensureBranches gs authored) := by
  have hfold : ∀ (gs : List Gate) {compiled : Script}, (∀ g ∈ gs, gates g) →
      Generates gates authored compiled →
        Generates gates authored (ensureBranches gs compiled) := by
    intro gs
    induction gs with
    | nil => exact fun _ h => h
    | cons g gs ih =>
      intro compiled hgs h
      obtain ⟨hg, hgs⟩ := List.forall_mem_cons.mp hgs
      exact ih hgs (h.ensures hg (g.ensures_ensureBranch compiled))
  refine hfold gs hgs fun i s hi hs => ?_
  rw [List.getElem?_eq_none hi] at hs
  cases hs

/-- A step that opens an exit and is none of those that were completed is there for a gate. -/
theorem Completes.exists_gate {room direction : String} (h : Completes gates flag authored compiled)
    (hmem : .unlockExit room direction ∈ compiled)
    (hnew : Step.unlockExit room direction ∉ authored) :
    ∃ g, gates g ∧ g.flagName = flag ∧ g.unlockStep = .unlockExit room direction := by
  obtain ⟨front, back, rfl, hfront, hback, -⟩ := h
  rcases List.mem_append.mp hmem with hmem | hmem
  · rcases List.mem_append.mp hmem with hmem | hmem
    · -- What comes in front is a line.
      rcases hfront with rfl | ⟨g, -, -, rfl, -⟩
      · cases hmem
      · cases List.mem_singleton.mp hmem
    · exact absurd hmem hnew
  · obtain ⟨g, hg, hflag, heq, -⟩ := hback _ hmem
    exact ⟨g, hg, hflag, heq.symm⟩

/-- A step that opens an exit and was added is there for a gate with the flag of its branch. The
branch asks for `true` if the author's first branch on the flag does, and what it runs otherwise is
the author's script or the line for using the fixture too early. -/
theorem Unlocking.AddedAt.exists_gate {u : Unlocking} {i : Nat} (h : u.AddedAt i authored compiled)
    (hextends : Extends gates authored compiled) (hgenerates : Generates gates authored compiled)
    (htests : ∀ j value onMatch otherwise, authored.FirstBranch u.flag j value onMatch otherwise →
      value = .bool true) :
    (∃ g, gates g ∧ g.flagName = u.flag ∧ g.unlockStep = u.unlock) ∧ u.equals = .bool true ∧
      ((∃ onMatch, authored[i]? = some (.branch u.flag (.bool true) onMatch u.otherwise)) ∨
        u.otherwise = [failureStep]) := by
  have hmem : u.unlock ∈ u.before ++ u.unlock :: u.after := by simp
  have hhere : compiled[i]? = some (.branch u.flag u.equals (u.before ++ u.unlock :: u.after)
    u.otherwise) := h.here
  rcases Nat.lt_or_ge i authored.length with hi | hi
  · -- The author has written a branch there, and it was completed.
    obtain ⟨s', hs', hkeeps⟩ := hextends.kept i _ (List.getElem?_eq_getElem hi)
    rw [hhere] at hs'
    obtain rfl := Option.some.inj hs'
    generalize hs : authored[i] = s at hkeeps
    have hauthored : authored[i]? = some s := (List.getElem?_eq_getElem hi).trans (congrArg some hs)
    cases hkeeps with
    | same => exact absurd hmem (h.new _ _ _ hauthored)
    | @completed _ _ onMatch otherwise _ _ hfirst _ hmatch hother =>
      have hequals := htests _ _ _ _ hfirst
      refine ⟨hmatch.exists_gate hmem (h.new _ _ _ hauthored), hequals, ?_⟩
      rw [hequals] at hauthored
      rcases hother with rfl | ⟨-, hline⟩
      · exact .inl ⟨onMatch, hauthored⟩
      · exact .inr hline
  · -- The branch was generated.
    obtain ⟨flag, onMatch, heq, hcompletes⟩ := hgenerates i _ hi hhere
    injection heq with hflag hequals hmatch hother
    rw [hmatch] at hmem
    rw [hflag]
    exact ⟨hcompletes.exists_gate hmem List.not_mem_nil, hequals, .inr hother⟩

end Gate

namespace Bundle

variable {b : Bundle} {id : String} {authored compiled : Fixture} {i : Nat} {u : Gate.Unlocking}

/-- Compiling gates never opens an exit without its flag. A step that opens an exit and was added to
the script for using a fixture is there for a gate of the fixture, in a branch on the flag of the
gate. If the author's first branch on the flag, if there is one, asks for `true`, then the branch
runs what it runs otherwise unless the flag is `true`, which is the author's script or a line that
nothing happens; and if the flag is `true`, the step is performed unless a step before it fails. -/
theorem unlocks_by_flag (hauthored : b.objects.get? id = some authored)
    (hcompiled : b.compileGates.objects.get? id = some compiled)
    (hadded : u.AddedAt i authored.use compiled.use)
    (htests : ∀ j value onMatch otherwise,
      authored.use.FirstBranch u.flag j value onMatch otherwise → value = .bool true) :
    (∃ g ∈ b.gates, g.objectId = some id ∧ g.flagName = u.flag ∧ g.unlockStep = u.unlock) ∧
    ((∃ onMatch, authored.use[i]? = some (.branch u.flag (.bool true) onMatch u.otherwise)) ∨
      u.otherwise = [Gate.failureStep]) ∧
    ∀ (n : Nat) (p : Play),
      (p.player.flags.get? u.flag ≠ some (.bool true) → (Nested.within n).step u.step p =
        (Nested.within n).script u.otherwise (p.performing u.step)) ∧
      (p.player.flags.get? u.flag = some (.bool true) → ∀ q,
        (Nested.within n).steps u.before ((p.performing u.step).noting .opened) = .ok () q →
          ((Nested.within (n + 1)).step u.step).Ends p
            (fun _ r => (q.performing u.unlock).journal <:+ r.journal)
            fun _ r => (q.performing u.unlock).journal <:+ r.journal) := by
  rw [objects_compileGates, hauthored] at hcompiled
  obtain rfl := Option.some.inj hcompiled
  -- The gates of the fixture are those that the compiler adds to its script.
  have hgates : ∀ g ∈ b.gates.filter (fun g => g.objectId = some id),
      g ∈ b.gates ∧ g.objectId = some id := by
    intro g hg
    obtain ⟨hmem, hid⟩ := List.mem_filter.mp hg
    exact ⟨hmem, of_decide_eq_true hid⟩
  -- The step was added for one of them, and its branch asks whether the flag is `true`.
  obtain ⟨⟨g, ⟨hg, hid⟩, hflag, hunlock⟩, hequals, hotherwise⟩ := hadded.exists_gate
    (Gate.extends_ensureBranches hgates authored.use)
    (Gate.generates_ensureBranches hgates authored.use) htests
  have hasks : ∀ p : Play, p.player.hasFlag u.flag u.equals = true ↔
      p.player.flags.get? u.flag = some (.bool true) := by
    rw [hequals]
    exact fun _ => Player.hasFlag_true_iff
  refine ⟨⟨g, hg, hid, hflag, hunlock⟩, hotherwise, fun n p => ⟨fun hunset => ?_, ?_⟩⟩
  · unfold Gate.Unlocking.step
    rw [Nested.step_branch, if_neg (mt (hasks p).mp hunset)]
  -- With the flag set the branch runs the steps before the opening, and then the opening itself.
  · intro hset q hq
    unfold Gate.Unlocking.step
    rw [Nested.ends_step_branch, if_pos ((hasks p).mpr hset)]
    exact Nested.ends_script_unlockExit hq

/-- A hall with an exit that a lever opens if a flag is set. -/
def gatedHall : Room where
  id := "hall"
  title := "Halle"
  description := ""
  ascii := none
  items := []
  objects := ["lever"]
  exits := .ofList [("nord", "yard")]
  exitMeta := .ofList [("nord", ⟨true, some "lever", some "strom"⟩)]
  onFirstEnter := []
  onEnter := []
  extra := .empty

/-- A lever that says something about a flag, which is compared with a value. -/
def talkingLever (equals : Json) : Fixture where
  id := "lever"
  name := "Hebel"
  description := ""
  locked := false
  inspect := []
  use := [.branch "strom" equals [.message "Es ist dunkel."] [.message "Es summt."]]
  onLockedUse := []
  extra := .empty

/-- The hall with such a lever. -/
def gatehouse (equals : Json) : Bundle :=
  ⟨.ofList [("hall", gatedHall)], .ofList [("lever", talkingLever equals)]⟩

/-- The step that compiling the gate adds to the script of the lever. -/
def leverUnlocking (equals : Json) : Gate.Unlocking where
  flag := "strom"
  equals := equals
  before := [.message "Es ist dunkel."]
  room := "hall"
  direction := "nord"
  after := []
  otherwise := [.message "Es summt."]

/-- A player before the closed exit of the hall, while the flag has a value. -/
def beforeExit (flag : Json) : Play :=
  .ofPlayer { Player.nowhere with
    location := "hall"
    flags := .ofList [("strom", flag)]
    lockedExits := .ofList [("hall:nord", true)] }

/-- The step is added to the script of the lever, whatever the flag is compared with. -/
theorem addedAt_leverUnlocking (equals : Json) :
    (leverUnlocking equals).AddedAt 0 (talkingLever equals).use [(leverUnlocking equals).step] where
  here := rfl
  new equals' onMatch otherwise h := by
    cases h
    simp [Gate.Unlocking.unlock]

/-- The lever of the gatehouse, if it asks for `true`, does nothing for the exit while the flag is
`false`, and opens the exit while it is `true`. -/
theorem unlocks_by_flag_gatehouse :
    (gatehouse (.bool true)).compileGates.objects.get? "lever" =
        some { talkingLever (.bool true) with use := [(leverUnlocking (.bool true)).step] } ∧
      (Nested.within 31).step (leverUnlocking (.bool true)).step (beforeExit (.bool false)) =
        (Nested.within 31).script [.message "Es summt."]
          ((beforeExit (.bool false)).performing (leverUnlocking (.bool true)).step) ∧
      ((Nested.within 31).step (leverUnlocking (.bool true)).step).Ends (beforeExit (.bool true))
        (fun _ r => .performed (.unlockExit "hall" "nord") ∈ r.journal)
        fun _ r => .performed (.unlockExit "hall" "nord") ∈ r.journal := by
  have hauthored : (gatehouse (.bool true)).objects.get? "lever" =
      some (talkingLever (.bool true)) := rfl
  have hcompiled : (gatehouse (.bool true)).compileGates.objects.get? "lever" =
      some { talkingLever (.bool true) with use := [(leverUnlocking (.bool true)).step] } := rfl
  have htests : ∀ j value onMatch otherwise, Script.FirstBranch (talkingLever (.bool true)).use
      "strom" j value onMatch otherwise → value = .bool true := by
    rintro j value onMatch otherwise ⟨hhere, -⟩
    cases List.mem_singleton.mp (List.mem_of_getElem? hhere)
    rfl
  obtain ⟨-, -, hruns⟩ := unlocks_by_flag hauthored hcompiled
    (addedAt_leverUnlocking (.bool true)) htests
  refine ⟨hcompiled, (hruns 31 (beforeExit (.bool false))).1 (fun h => nomatch h), ?_⟩
  exact ((hruns 30 (beforeExit (.bool true))).2 rfl _ rfl).imp
    (fun _ _ hr => hr.subset List.mem_cons_self) fun _ _ hr => hr.subset List.mem_cons_self

/-- If the lever asks for `false`, it opens the exit while the flag is `false`, and does nothing for
the exit while it is `true`. -/
theorem unlocks_in_the_dark :
    (gatehouse (.bool false)).compileGates.objects.get? "lever" =
        some { talkingLever (.bool false) with use := [(leverUnlocking (.bool false)).step] } ∧
      (leverUnlocking (.bool false)).AddedAt 0 (talkingLever (.bool false)).use
        [(leverUnlocking (.bool false)).step] ∧
      ((Nested.within 31).step (leverUnlocking (.bool false)).step).Ends (beforeExit (.bool false))
        (fun _ r => .performed (.unlockExit "hall" "nord") ∈ r.journal ∧
          r.player.isExitLocked "hall" "nord" = false) (fun _ _ => False) ∧
      ((Nested.within 31).step (leverUnlocking (.bool false)).step).Ends (beforeExit (.bool true))
        (fun _ r => .performed (.unlockExit "hall" "nord") ∉ r.journal ∧
          r.player.isExitLocked "hall" "nord" = true) fun _ _ => False := by
  have hlit : ((Nested.within 31).step (leverUnlocking (.bool false)).step).Ends
      (beforeExit (.bool true))
      (fun _ r => r.journal = [.closed, .said "Es summt.", .performed (.message "Es summt."),
        .opened, .performed (leverUnlocking (.bool false)).step] ∧
          r.player.isExitLocked "hall" "nord" = true) fun _ _ => False := ⟨rfl, rfl⟩
  refine ⟨rfl, addedAt_leverUnlocking (.bool false), ⟨?_, rfl⟩, hlit.imp_ok fun _ r hr => ?_⟩
  · -- Behind the step only its line and the save have come, and then the level was closed.
    exact .tail _ (.tail _ (.tail _ (.head _)))
  · obtain ⟨hjournal, hclosed⟩ := hr
    rw [hjournal]
    exact ⟨by simp [Gate.Unlocking.step], hclosed⟩

end Bundle

end TextAdventure
