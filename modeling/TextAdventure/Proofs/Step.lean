import TextAdventure.Proofs.Promise

/-!
# What the steps of scripts do

Five kinds of steps change the player, say what has changed and save the player. `Step.revision?`
names the change and the lines, and `Nested.ends_step_revision` says that this is all that such a
step does. A transition changes the player and saves it before the arrival. The other kinds change
nothing by themselves.
-/

namespace TextAdventure

/-- How a step changes the player, and what it says of the player as it was before. -/
structure Step.Revision where
  /-- The change of the player. -/
  change : Player → Player
  /-- The lines that tell of it. -/
  lines : Player → List String

/-- The change that a step makes before it saves the player, if that is all that it does. -/
def Step.revision? : Step → Option Step.Revision
  | .setFlag key value => some ⟨(·.setFlag key value), fun _ => []⟩
  | .addItem id =>
    some ⟨(·.addItem id), fun p => if p.hasItem id then [] else [id ++ " erhalten."]⟩
  | .removeItem id =>
    some ⟨(·.removeItem id), fun p => if p.hasItem id then [id ++ " entfernt."] else []⟩
  | .unlockExit room direction =>
    some ⟨(·.setExitLocked room direction false),
      fun _ => ["Ausgang " ++ direction ++ " ist nun offen."]⟩
  | .lockExit room direction =>
    some ⟨(·.setExitLocked room direction true),
      fun _ => ["Ausgang " ++ direction ++ " ist nun versperrt."]⟩
  | _ => none

/-- A step that changes the player sets a flag, gives or takes an item, or opens or closes an
exit. -/
theorem Step.cases_of_revision? {motive : ∀ s r, Step.revision? s = some r → Prop}
    (setFlag : ∀ key value, motive (.setFlag key value) _ rfl)
    (addItem : ∀ id, motive (.addItem id) _ rfl)
    (removeItem : ∀ id, motive (.removeItem id) _ rfl)
    (unlockExit : ∀ room direction, motive (.unlockExit room direction) _ rfl)
    (lockExit : ∀ room direction, motive (.lockExit room direction) _ rfl)
    {s : Step} {r : Step.Revision} (h : s.revision? = some r) : motive s r h := by
  cases s with
  | setFlag key value =>
    cases h
    exact setFlag key value
  | addItem id =>
    cases h
    exact addItem id
  | removeItem id =>
    cases h
    exact removeItem id
  | unlockExit room direction =>
    cases h
    exact unlockExit room direction
  | lockExit room direction =>
    cases h
    exact lockExit room direction
  | message _ => cases h
  | art _ _ => cases h
  | branch _ _ _ _ => cases h
  | transition _ => cases h
  | fight _ => cases h
  | unrecognized _ => cases h

/-- A step changes the player, or it is of one of the kinds that change nothing by themselves. -/
theorem Step.cases_on_revision? {motive : Step → Prop} (s : Step)
    (revision : ∀ s r, Step.revision? s = some r → motive s)
    (message : ∀ text, motive (.message text)) (art : ∀ file size, motive (.art file size))
    (branch : ∀ key equals onMatch otherwise, motive (.branch key equals onMatch otherwise))
    (transition : ∀ room, motive (.transition room)) (fight : ∀ enemy, motive (.fight enemy))
    (unrecognized : ∀ raw, motive (.unrecognized raw)) : motive s := by
  cases s with
  | setFlag key value => exact revision _ _ rfl
  | addItem id => exact revision _ _ rfl
  | removeItem id => exact revision _ _ rfl
  | unlockExit room direction => exact revision _ _ rfl
  | lockExit room direction => exact revision _ _ rfl
  | message text => exact message text
  | art file size => exact art file size
  | branch key equals onMatch otherwise => exact branch key equals onMatch otherwise
  | transition room => exact transition room
  | fight enemy => exact fight enemy
  | unrecognized raw => exact unrecognized raw

/-- The state in which a step begins. -/
def Play.performing (p : Play) (s : Step) : Play := p.noting (.performed s)

/-- The state after a change of the player and the lines that tell of it. -/
def Play.revised (p : Play) (r : Step.Revision) : Play :=
  { p with
    player := r.change p.player
    journal := ((r.lines p.player).map Event.said).reverse ++ p.journal }

namespace Nested

variable {inner : Nested} {p : Play} {R : Unit → Play → Prop} {E : Failure → Play → Prop}

/-- A step that changes the player tells of it and saves the player. -/
theorem ends_step_revision {s : Step} {r : Step.Revision} (h : s.revision? = some r) :
    (inner.step s).Ends p R E ↔ Act.persist.Ends ((p.performing s).revised r) R E := by
  -- Each revision is a change of the player with the lines that tell of it, or with none.
  have hsaid : ∀ (q : Play) (change : Player → Player) (line : String),
      ((q.changing change).noting (.said line)) =
        q.revised ⟨change, fun _ => [line]⟩ := fun _ _ _ => rfl
  have hsilent : ∀ (q : Play) (change : Player → Player),
      q.changing change = q.revised ⟨change, fun _ => []⟩ := fun _ _ => rfl
  cases h using Step.cases_of_revision? with
  | setFlag key value =>
    unfold Nested.step
    simp only [Step.isUnrecognized, Bool.not_false, if_true, Act.ends_bind, Act.ends_note,
      Act.ends_changePlayer]
    rfl
  | addItem id =>
    -- Whether the item is there already is asked after the step was noted, which changes no item.
    unfold Nested.step
    simp only [Step.isUnrecognized, Bool.not_false, if_true, Act.ends_bind, Act.ends_note,
      Act.ends_player, Act.ends_changePlayer]
    by_cases hknown : p.player.hasItem id = true
    · have hknown' : (p.noting (.performed (.addItem id))).player.hasItem id = true := hknown
      simp only [hknown', Bool.not_true, Bool.false_eq_true, if_false, hsilent]
      simp only [Play.revised, Play.performing, hknown', if_true]
    · have hnew : (p.noting (.performed (.addItem id))).player.hasItem id = false :=
        Bool.eq_false_iff.mpr hknown
      simp only [hnew, Bool.not_false, if_true, Act.ends_bind, Act.ends_say, hsaid]
      simp only [Play.revised, Play.performing, hnew, Bool.false_eq_true, if_false]
  | removeItem id =>
    unfold Nested.step
    simp only [Step.isUnrecognized, Bool.not_false, if_true, Act.ends_bind, Act.ends_note,
      Act.ends_player, Act.ends_changePlayer]
    by_cases hknown : p.player.hasItem id = true
    · have hknown' : (p.noting (.performed (.removeItem id))).player.hasItem id = true := hknown
      simp only [hknown', if_true, Act.ends_bind, Act.ends_say, hsaid]
      simp only [Play.revised, Play.performing, hknown', if_true]
    · have hnew : (p.noting (.performed (.removeItem id))).player.hasItem id = false :=
        Bool.eq_false_iff.mpr hknown
      simp only [hnew, Bool.false_eq_true, if_false, hsilent]
      simp only [Play.revised, Play.performing, hnew, Bool.false_eq_true, if_false]
  | unlockExit room direction =>
    unfold Nested.step
    simp only [Step.isUnrecognized, Bool.not_false, if_true, Act.ends_bind, Act.ends_note,
      Act.ends_changePlayer, Act.ends_say]
    rfl
  | lockExit room direction =>
    unfold Nested.step
    simp only [Step.isUnrecognized, Bool.not_false, if_true, Act.ends_bind, Act.ends_note,
      Act.ends_changePlayer, Act.ends_say]
    rfl

/-- A message is said. -/
@[simp]
theorem ends_step_message (text : String) :
    (inner.step (.message text)).Ends p R E ↔
      R () ((p.performing (.message text)).noting (.said text)) := by
  unfold Nested.step
  simp only [Step.isUnrecognized, Bool.not_false, if_true, Act.ends_bind, Act.ends_note,
    Act.ends_say]
  rfl

/-- A picture is shown. -/
@[simp]
theorem ends_step_art (file : String) (size : Option UInt32) :
    (inner.step (.art file size)).Ends p R E ↔
      (Act.showArt file).Ends (p.performing (.art file size)) R E := by
  unfold Nested.step
  simp only [Step.isUnrecognized, Bool.not_false, if_true, Act.ends_bind, Act.ends_note]
  rfl

/-- A branch runs one of its two scripts. -/
@[simp]
theorem ends_step_branch (key : String) (equals : Json) (onMatch otherwise : Script) :
    (inner.step (.branch key equals onMatch otherwise)).Ends p R E ↔
      (inner.script (if p.player.hasFlag key equals then onMatch else otherwise)).Ends
        (p.performing (.branch key equals onMatch otherwise)) R E := by
  unfold Nested.step
  simp only [Step.isUnrecognized, Bool.not_false, if_true, Act.ends_bind, Act.ends_note,
    Act.ends_player]
  rfl

/-- A transition saves the player in its new room before the room is shown. -/
@[simp]
theorem ends_step_transition (room : String) :
    (inner.step (.transition room)).Ends p R E ↔
      Act.persist.Ends ((p.performing (.transition room)).changing fun q =>
        { q with location := room }) (fun _ q => inner.arrival.Ends q R E) E := by
  unfold Nested.step
  simp only [Step.isUnrecognized, Bool.not_false, if_true, Act.ends_bind, Act.ends_note,
    Act.ends_changePlayer]
  rfl

/-- A fight starts. -/
@[simp]
theorem ends_step_fight (enemy : String) :
    (inner.step (.fight enemy)).Ends p R E ↔
      (Fight.start enemy).Ends (p.performing (.fight enemy)) R E := by
  unfold Nested.step
  simp only [Step.isUnrecognized, Bool.not_false, if_true, Act.ends_bind, Act.ends_note]
  rfl

/-- A record that is no effect is named and skipped. -/
@[simp]
theorem ends_step_unrecognized (raw : Json) :
    (inner.step (.unrecognized raw)).Ends p R E ↔
      R () (p.noting (.said ("Unbekanntes Event: " ++ Step.kindOfUnrecognized raw))) := by
  unfold Nested.step
  simp only [Step.isUnrecognized, Bool.not_true, Bool.false_eq_true, if_false, Act.ends_say]

end Nested

end TextAdventure
