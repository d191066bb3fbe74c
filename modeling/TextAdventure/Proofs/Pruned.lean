import TextAdventure.Proofs.Elementary

/-!
# Records that are no effects do no harm

A script is pruned by taking out every record that is no effect, in its branches as well
(`Script.pruned`). Such a record only names itself, so a pruned script ends as the whole script does
and says less on the way (`Nested.pruned_ends_alike`). This holds although a branch of which nothing
is left needs no level any more: with its level goes the line about the limit, if there was one.

The two scripts are run side by side, from states that differ only in what was said
(`Play.SaysMore`). All other acts of play take no notice of what was said, which is a discipline
(`Discipline.wordy`).
-/

namespace TextAdventure

mutual

/-- The step without the records in its scripts that are no effects. -/
def Step.pruned : Step → Step
  | .branch key equals onMatch otherwise =>
    .branch key equals (Script.pruned onMatch) (Script.pruned otherwise)
  | s => s

/-- The script without the records that are no effects. -/
def Script.pruned : Script → Script
  | [] => []
  | s :: ss => if s.isUnrecognized then Script.pruned ss else Step.pruned s :: Script.pruned ss

end

example : Script.pruned [.unrecognized .null, .message "Es knarrt.",
      .branch "strom" (.bool true) [.unrecognized .null] [.addItem "fuse", .unrecognized .null]] =
    [.message "Es knarrt.", .branch "strom" (.bool true) [] [.addItem "fuse"]] := by
  rfl

namespace Event

/-- The line of an event, if it says one. -/
def line? : Event → Option String
  | .said line => some line
  | _ => none

/-- The record of an event, if it writes one. -/
def record? : Event → Option ByteArray
  | .stored record => some record
  | _ => none

/-- The path of an event, if it asks for one. -/
def path? : Event → Option String
  | .fetched path => some path
  | _ => none

/-- The second journal tells of the same questions and writes as the first, and of its lines among
others. -/
structure MoreSaid (events events' : List Event) : Prop where
  /-- The lines are among the others, in order. -/
  lines : (events.filterMap line?).Sublist (events'.filterMap line?)
  /-- The same was written. -/
  records : events'.filterMap record? = events.filterMap record?
  /-- The same was asked for. -/
  paths : events'.filterMap path? = events.filterMap path?

namespace MoreSaid

variable {events events' new new' : List Event}

/-- Nothing more has to be said. -/
theorem refl (events : List Event) : MoreSaid events events := ⟨List.Sublist.refl _, rfl, rfl⟩

/-- More was said in the one part and in the other. -/
theorem append (hnew : MoreSaid new new') (h : MoreSaid events events') :
    MoreSaid (new ++ events) (new' ++ events') where
  lines := by
    rw [List.filterMap_append, List.filterMap_append]
    exact hnew.lines.append h.lines
  records := by rw [List.filterMap_append, List.filterMap_append, hnew.records, h.records]
  paths := by rw [List.filterMap_append, List.filterMap_append, hnew.paths, h.paths]

/-- What is neither a question nor a write may be there or not. -/
theorem of_silent {e : Event} (hrecord : e.record? = none) (hpath : e.path? = none) :
    MoreSaid [] [e] :=
  ⟨List.nil_sublist _, by simp [hrecord], by simp [hpath]⟩

end MoreSaid

end Event

namespace Play

/-- The second state differs from the first only in what happened: more was said. -/
inductive SaysMore (p : Play) : Play → Prop where
  | intro (journal : List Event) (h : Event.MoreSaid p.journal journal) :
    SaysMore p { p with journal := journal }

variable {p q : Play}

/-- Where more was said it stays so after the same event. -/
theorem SaysMore.noting (h : p.SaysMore q) (e : Event) : (p.noting e).SaysMore (q.noting e) := by
  cases h with
  | intro journal h => exact .intro (e :: journal) ((Event.MoreSaid.refl [e]).append h)

/-- What is neither a question nor a write may come on top. -/
theorem SaysMore.on_top (h : p.SaysMore q) {e : Event} (hrecord : e.record? = none)
    (hpath : e.path? = none) : p.SaysMore (q.noting e) := by
  cases h with
  | intro journal h =>
    exact .intro (e :: journal) ((Event.MoreSaid.of_silent hrecord hpath).append h)

/-- The lines said are those of the journal. -/
theorem lines_eq (p : Play) : p.lines = (p.journal.filterMap Event.line?).reverse :=
  List.filterMap_reverse

/-- The records written are those of the journal. -/
theorem stored_eq (p : Play) : p.stored = (p.journal.filterMap Event.record?).reverse :=
  List.filterMap_reverse

/-- The paths asked for are those of the journal. -/
theorem fetched_eq (p : Play) : p.fetched = (p.journal.filterMap Event.path?).reverse :=
  List.filterMap_reverse

end Play

namespace Act

variable {α β : Type}

/-- Two acts end with the same value or with the same failure, and the second has said more. -/
inductive Agree (post : α → Prop) :
    EStateM.Result Failure Play α → EStateM.Result Failure Play α → Prop where
  /-- Both acts succeed. -/
  | ok {a : α} {p q : Play} (ha : post a) (hpq : p.SaysMore q) : Agree post (.ok a p) (.ok a q)
  /-- Both acts fail. -/
  | error {e : Failure} {p q : Play} (hpq : p.SaysMore q) :
    Agree post (.error e p) (.error e q)

/-- Where more was said, the second act goes as the first one, and says more. -/
def Echoes (post : α → Prop) (act act' : Act α) : Prop :=
  ∀ p q, p.SaysMore q → Agree post (act p) (act' q)

/-- Doing nothing goes alike. -/
theorem echoes_pure {post : α → Prop} {a : α} (h : post a) : Echoes post (pure a) (pure a) :=
  fun _ _ hpq => .ok h hpq

/-- Acts go alike one after the other. -/
theorem Echoes.bind {post : α → Prop} {post' : β → Prop} {act act' : Act α}
    {next next' : α → Act β} (h : Echoes post act act')
    (hnext : ∀ a, post a → Echoes post' (next a) (next' a)) :
    Echoes post' (act >>= next) (act' >>= next') := by
  intro p q hpq
  have hact := h p q hpq
  generalize hp : act p = r, hq : act' q = s at hact
  cases hact with
  | ok ha hrs =>
    rw [bind_of_ok hp, bind_of_ok hq]
    exact hnext _ ha _ _ hrs
  | error hrs =>
    rw [bind_of_error hp, bind_of_error hq]
    exact .error hrs

/-- An act may say something first that the other does not say. -/
theorem Echoes.note_first {post : α → Prop} {act act' : Act α} (h : Echoes post act act')
    {e : Event} (hrecord : e.record? = none) (hpath : e.path? = none) :
    Echoes post act (note e >>= fun _ => act') := by
  intro p q hpq
  have hnote : note e q = .ok () (q.noting e) := rfl
  rw [bind_of_ok hnote]
  exact h p (q.noting e) (hpq.on_top hrecord hpath)

/-- Levels go alike if the acts in them do. -/
theorem Echoes.level {act act' : Act Unit} (h : Echoes (fun _ => True) act act') :
    Echoes (fun _ => True) (level act) (level act') := by
  intro p q hpq
  have hact := h _ _ (hpq.noting .opened)
  generalize hp : act (p.noting .opened) = r, hq : act' (q.noting .opened) = s at hact
  cases hact with
  | ok _ hrs =>
    rw [level_of_ok hp, level_of_ok hq]
    exact .ok trivial (hrs.noting .closed)
  | error hrs =>
    rw [level_of_error hp, level_of_error hq]
    exact .error (hrs.noting .closed)

/-- An act that does nothing goes as one that does nothing but say something, in a level of its
own. -/
theorem Echoes.level_around_nothing {act : Act Unit} (h : Echoes (fun _ => True) (pure ()) act) :
    Echoes (fun _ => True) (pure ()) (Act.level act) := by
  intro p q hpq
  have hact := h p _ (hpq.on_top (e := .opened) rfl rfl)
  cases hq : act (q.noting .opened) with
  | ok b s =>
    rw [hq] at hact
    cases hact with
    | ok _ hps =>
      rw [level_of_ok hq]
      exact .ok trivial (hps.on_top rfl rfl)
  | error f s =>
    rw [hq] at hact
    cases hact

end Act

namespace Discipline

/-- To take no notice of what was said. -/
def wordy : Discipline where
  Obeys post act := act.Echoes post act
  pure := Act.echoes_pure
  bind := Act.Echoes.bind

/-- The smallest acts take no notice of what was said. -/
theorem scenic_wordy : wordy.Scenic where
  note _ _ _ hpq := .ok trivial (hpq.noting _)
  player p q hpq := by
    cases hpq with
    | intro journal h => exact .ok trivial (.intro journal h)
  changePlayer change p q hpq := by
    cases hpq with
    | intro journal h => exact .ok trivial (.intro journal h)
  -- The store is the same on both sides, so the save succeeds on both or fails on both.
  persist p q hpq := by
    cases hpq with
    | intro journal h =>
      unfold Act.persist
      simp only
      cases p.saves.put p.saveKey p.player.save with
      | mk result saves =>
        cases result with
        | ok _ =>
          have hstored := (Event.MoreSaid.refl [.stored p.player.save]).append h
          exact .ok trivial (.intro _ hstored)
        | error e => exact .error (.intro journal h)
  -- So is the library, so both ask for the same paths.
  ask {α} {request} _ p q hpq := by
    cases hpq with
    | intro journal h =>
      have hasked := (Event.MoreSaid.refl
        ((request p.source p.library).fetched.map Event.fetched).reverse).append h
      unfold Act.ask
      simp only
      cases (request p.source p.library).result with
      | ok a => exact .ok trivial (.intro _ hasked)
      | error e => exact .error (.intro _ hasked)
  level h := Act.Echoes.level h

end Discipline

namespace Nested

open Act (Echoes)
open Discipline (wordy)

variable {inner : Nested}

/-- A pruned step goes as the whole step if pruned scripts go as whole ones. -/
theorem step_pruned
    (hpruned : ∀ script : Script, Echoes (fun _ => True) (inner.script script.pruned)
      (inner.script script))
    (hscript : ∀ script, wordy.Allows (inner.script script)) (harrival : wordy.Allows inner.arrival)
    (s : Step) : Echoes (fun _ => True) (inner.step s.pruned) (inner.step s) := by
  have hscenic := Discipline.scenic_wordy
  have hsame : wordy.Allows (inner.step s) := hscenic.step hscript harrival s
  cases s with
  -- Of the steps only a branch is changed by pruning, and what it runs is pruned.
  | branch key equals onMatch otherwise =>
    have hchosen : ∀ player : Player, Echoes (fun _ => True)
        (inner.script (if player.hasFlag key equals then Script.pruned onMatch
          else Script.pruned otherwise))
        (inner.script (if player.hasFlag key equals then onMatch else otherwise)) := by
      intro player
      split_ifs
      · exact hpruned onMatch
      · exact hpruned otherwise
    -- The two branches go by different names in the journal, but choose alike.
    have hnote : Echoes (fun _ => True)
        (Act.note (.performed (.branch key equals (Script.pruned onMatch)
          (Script.pruned otherwise))))
        (Act.note (.performed (.branch key equals onMatch otherwise))) := by
      intro p q hpq
      cases hpq with
      | intro journal h =>
        exact .ok trivial (.intro _ ⟨h.lines, h.records, h.paths⟩)
    rw [Step.pruned]
    exact hnote.bind fun _ _ => Act.Echoes.bind hscenic.player fun player _ => hchosen player
  | _ => exact hsame

/-- The steps of a pruned script go as those of the whole script. -/
theorem steps_pruned
    (hstep : ∀ s : Step, Echoes (fun _ => True) (inner.step s.pruned) (inner.step s))
    (script : Script) :
    Echoes (fun _ => True) (inner.steps script.pruned) (inner.steps script) := by
  induction script with
  | nil => exact Act.echoes_pure trivial
  | cons s ss ih =>
    cases hs : s.isUnrecognized with
    | true =>
      cases s with
      | unrecognized raw => exact ih.note_first rfl rfl
      | _ => cases hs
    | false =>
      have hprune : Script.pruned (s :: ss) = s.pruned :: Script.pruned ss := by
        rw [Script.pruned, hs]
        rfl
      rw [hprune]
      exact (hstep s).bind fun _ _ => ih

/-- A pruned script goes as the whole one, however many levels are left. -/
theorem script_pruned (levels : Nat) (script : Script) : Echoes (fun _ => True)
    ((within levels).script script.pruned) ((within levels).script script) := by
  have hscenic := Discipline.scenic_wordy
  have hdone : Echoes (fun _ => True) (pure () : Act Unit) (pure ()) := Act.echoes_pure trivial
  -- The induction is on the levels, since each script runs its branches one level deeper.
  induction levels generalizing script with
  | zero =>
    cases script with
    | nil => exact hdone
    | cons s ss =>
      cases hrest : Script.pruned (s :: ss) with
      | nil => exact (hdone.note_first rfl rfl).note_first rfl rfl
      | cons s' ss' => exact hscenic.tooDeep
  | succ levels ih =>
    obtain ⟨hscript, harrival⟩ := hscenic.within levels
    have hsteps := steps_pruned (step_pruned ih hscript harrival) script
    cases script with
    | nil => exact hdone
    | cons s ss =>
      cases hrest : Script.pruned (s :: ss) with
      | nil =>
        rw [hrest] at hsteps
        exact hsteps.level_around_nothing
      | cons s' ss' =>
        rw [hrest] at hsteps
        exact hsteps.level

/-- A script from which every record that is no effect was taken out, in its branches as well, ends
as the whole script does, from every state and however many levels are left: with success or with
the same failure, and in the same state but for the journal. It asks the source for the same paths
and writes the same records, and its lines are some of those of the whole script, in order. -/
theorem pruned_ends_alike (levels : Nat) (script : Script) (p : Play) :
    ((within levels).script script).Ends p
      (fun _ q => ∃ q', (within levels).script script.pruned p = .ok () q' ∧
        q = { q' with journal := q.journal } ∧ q'.stored = q.stored ∧ q'.fetched = q.fetched ∧
        q'.lines.Sublist q.lines)
      fun e q => ∃ q', (within levels).script script.pruned p = .error e q' ∧
        q = { q' with journal := q.journal } ∧ q'.stored = q.stored ∧ q'.fetched = q.fetched ∧
        q'.lines.Sublist q.lines := by
  have hends := script_pruned levels script p p (.intro p.journal (.refl _))
  have hmore : ∀ {q' q : Play}, q'.SaysMore q → q = { q' with journal := q.journal } ∧
      q'.stored = q.stored ∧ q'.fetched = q.fetched ∧ q'.lines.Sublist q.lines := by
    rintro q' _ ⟨journal, h⟩
    rw [Play.stored_eq, Play.stored_eq, Play.fetched_eq, Play.fetched_eq, Play.lines_eq,
      Play.lines_eq]
    exact ⟨rfl, congrArg _ h.records.symm, congrArg _ h.paths.symm, h.lines.reverse⟩
  unfold Act.Ends
  generalize (within levels).script script.pruned p = pruned,
    (within levels).script script p = whole at hends ⊢
  cases hends with
  | ok _ hq => exact ⟨_, rfl, hmore hq⟩
  | error hq => exact ⟨_, rfl, hmore hq⟩

end Nested

end TextAdventure
