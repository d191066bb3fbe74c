import TextAdventure.Proofs.Discipline
import TextAdventure.Proofs.Progress

/-!
# No command and no request leaves progress unsaved

The promise `progress` of scripts is carried on to rooms, commands and requests, and then read as
`Play.Kept`. A session that goes on from a save is measured from the player right after the save was
read, `Session.reloaded`: reading a save writes nothing, and what is read is what is stored.
-/

namespace TextAdventure

open Promise (progress)

namespace Scene

/-- A script keeps progress. -/
theorem run_progress (script : Script) : (run script).Keeps progress :=
  Nested.script_progress maxLevels script

/-- Entering a room keeps progress. -/
theorem enter_progress (firstTime : Bool) : (enter firstTime).Keeps progress :=
  (render_progress firstTime).bind run_progress

end Scene

namespace Action

/-- Moving saves the player in the new room before the room is shown. -/
theorem goTo_progress (destination : String) : (goTo destination).Keeps progress := by
  intro p hp
  have hsaved : Act.persist.Ends (p.changing fun q => { q with location := destination })
      (fun _ q => progress.ok p q) fun e q => progress.failed e p q := Act.progress_persist rfl
  have henter : Act.Keeps progress (do
      Scene.enter (!(← Act.player).hasVisited destination)) :=
    Act.player_progress.bind fun _ => Scene.enter_progress _
  unfold goTo
  rw [Act.ends_bind, Act.ends_changePlayer, Act.ends_bind]
  exact hsaved.imp_ok fun _ _ hq => henter.after hp hq

/-- Taking an item saves the player with the item. -/
theorem pickUp_progress (listed : String) (item : Item) :
    (pickUp listed item).Keeps progress := by
  intro p _
  unfold pickUp
  rw [Act.ends_bind, Act.ends_changePlayer, Act.ends_bind, Act.ends_say]
  exact Act.progress_persist rfl

/-- The parts of commands keep progress. -/
theorem commands_progress : progress.discipline.Commands fun _ => True where
  say line := (Act.say_progress line).yields fun _ => trivial
  player := Act.player_progress.yields fun _ => trivial
  room _ := (Act.ask_progress _).yields fun _ => trivial
  item _ := (Act.ask_progress _).yields fun _ =>
    ⟨fun _ _ => trivial, fun _ _ _ _ _ => trivial⟩
  fixture _ := (Act.ask_progress _).yields fun _ =>
    ⟨fun _ _ => trivial, fun _ _ => trivial, fun _ _ => trivial⟩
  run script _ := (Scene.run_progress script).yields fun _ => trivial
  look := (Scene.enter_progress false).yields fun _ => trivial
  goTo destination := (goTo_progress destination).yields fun _ => trivial
  pickUp listed item := (pickUp_progress listed item).yields fun _ => trivial
  answer messages command := (Fight.answer_progress messages command).yields fun _ => trivial

/-- A command keeps progress. -/
theorem perform_progress (world : World) (command : Command) :
    (perform world command).Keeps progress := (commands_progress.perform world command).keeps

end Action

namespace Play

variable {start : Player} {p q r : Play} {e : Failure}

/-- A saved player has kept its progress, whatever was done before. -/
theorem IsSaved.kept (hq : q.IsSaved) (hkey : q.saveKey = p.saveKey) : p.Kept start q := by
  right
  rw [← hkey]
  exact hq

/-- A promise kept from a state with the player that is measured from. -/
theorem Kept.of_progress (h : progress.ok q r) (hstored : q.stored = p.stored)
    (hplayer : q.player = start) (hkey : q.saveKey = p.saveKey) : p.Kept start r := by
  obtain ⟨hkey', ⟨hst, hpl, -⟩ | hsaved⟩ := h
  · exact .inl ⟨hst.trans hstored, hpl.trans hplayer⟩
  · exact hsaved.kept (hkey'.trans hkey)

/-- A promise kept by a failure for want of content. -/
theorem Kept.of_failed (h : progress.failed e q r) (he : e.isContent = true)
    (hstored : q.stored = p.stored) (hplayer : q.player = start) (hkey : q.saveKey = p.saveKey) :
    p.Kept start r ∨ r.Unannounced e := by
  obtain ⟨hkey', h⟩ := h
  rcases h he with hidle | hsaved | hart
  · exact .inl (.of_progress ⟨hkey', .inl hidle⟩ hstored hplayer hkey)
  · exact .inl (hsaved.kept (hkey'.trans hkey))
  · exact .inr hart

/-- An act that keeps progress keeps a saved player saved. -/
theorem IsSaved.of_progress (hq : q.IsSaved) (h : progress.ok q r) : r.IsSaved := by
  obtain ⟨hkey, hidle | hsaved⟩ := h
  · exact hq.of_idle hidle hkey
  · exact hsaved

/-- An act that fails for want of content keeps a saved player saved. -/
theorem IsSaved.of_failed (hq : q.IsSaved) (h : progress.failed e q r) (he : e.isContent = true) :
    r.IsSaved ∨ r.Unannounced e := by
  obtain ⟨hkey, h⟩ := h
  rcases h he with hidle | hsaved | hart
  · exact .inl (hq.of_progress ⟨hkey, .inl hidle⟩)
  · exact .inl hsaved
  · exact .inr hart

end Play

/-- An act leaves no progress unsaved, measured from an origin: when it succeeds, and when it fails
for want of content, with an exception that such a failure may have. The journal begins with the
act, so that what it says of effects and writes is about this act. -/
def Act.Secures {α : Type} (act : Act α) (origin : Play → Player)
    (exception : Failure → Play → Prop) : Prop :=
  ∀ p, p.journal = [] → act.Ends p (fun _ q => p.Kept (origin p) q)
    fun e q => e.isContent = true → p.Kept (origin p) q ∨ exception e q

/-- An act that keeps progress leaves none unsaved. -/
theorem Act.Keeps.secures {α : Type} {act : Act α} (h : act.Keeps progress) :
    act.Secures (·.player) fun e q => q.Unannounced e := fun p _ =>
  (h p trivial).imp (fun _ _ hq => .of_progress hq rfl rfl rfl) fun _ _ hq he =>
    Play.Kept.of_failed hq he rfl rfl rfl

/-- Starting a fight leaves no progress unsaved, unless the picture of the enemy cannot be had. -/
theorem Fight.start_secures (id : String) :
    (start id).Secures (·.player) (Unannounced id) := fun p _ =>
  (start_ends id p).imp (fun _ _ hq => .of_progress hq rfl rfl rfl) fun _ _ ⟨hkey, hq⟩ he =>
    (hq he).imp (fun hidle => .of_progress (q := p) ⟨hkey, .inl hidle⟩ rfl rfl rfl) fun h => h.2

namespace Session

/-- The player with which a session goes on from its save, if there is one that can be read. What
the save leaves out comes from the player so far, or from a new player if there is none yet. -/
def reloaded (p : Play) : Option Player :=
  match (Library.getWorld p.source p.library).result with
  | .error _ => none
  | .ok world =>
    let base := if p.player.location.isEmpty
      then Player.fresh world.startRoom world.globalFlags p.stats else p.player
    (p.saves.entries.get? p.saveKey).bind base.restore?

/-- The player from which the progress of a request is measured: the player before the request, or
right after its save was read. -/
def Request.origin (request : Request) (p : Play) : Player :=
  match request with
  | .resume => (reloaded p).getD p.player
  | _ => p.player

/-- A session that starts is saved before its first room is shown. Without the world nothing
happens. -/
theorem start_ends (p : Play) :
    start.Ends p (fun _ q => q.saveKey = p.saveKey ∧ q.IsSaved)
      fun e q => q.saveKey = p.saveKey ∧ (e.isContent = true → (q.IsSaved ∨ q.Unannounced e) ∨
        (Library.getWorld p.source p.library).result = .error e ∧ p.Idle q) := by
  -- What comes after the save keeps progress.
  have hrest : Act.Keeps progress (do
      Act.say "Starte Adventure..."
      Scene.enter true) := (Act.say_progress _).bind fun _ => Scene.enter_progress true
  unfold start Act.world
  rw [Act.ends_bind, Act.ends_ask]
  refine ⟨fun world _ => ?_, fun e he => ⟨rfl, fun _ => .inr ⟨he, p.stored_answered _, rfl, rfl⟩⟩⟩
  unfold activate beginning
  simp only [Act.ends_bind, Act.ends_modify, Act.ends_get, Act.ends_pure, Act.ends_changePlayer]
  -- The play with the new player is named, because only its key matters from here on.
  generalize hq : Play.changing _ _ = q
  have hkey : q.saveKey = p.saveKey := by
    rw [← hq]
    rfl
  rw [Act.ends_persist]
  refine ⟨fun _ => ⟨hkey, fun he => absurd he (by decide)⟩, fun left _ => ?_⟩
  -- From the save on, the progress is what was saved.
  refine (hrest (q.persisted left) trivial).imp ?_ ?_
  · intro _ r hr
    exact ⟨hr.1.trans hkey, (q.isSaved_persisted left).of_progress hr⟩
  · intro e r hr
    exact ⟨hr.1.trans hkey, fun he => .inl ((q.isSaved_persisted left).of_failed hr he)⟩

/-- Starting leaves no progress unsaved. -/
theorem start_secures : start.Secures (·.player) fun e q => q.Unannounced e := by
  intro p _
  refine (start_ends p).imp ?_ ?_
  · intro _ q ⟨hkey, hq⟩
    exact hq.kept hkey
  · intro e q ⟨hkey, hq⟩ he
    rcases hq he with (hsaved | hart) | ⟨-, hidle⟩
    · exact .inl (hsaved.kept hkey)
    · exact .inr hart
    · exact .inl (.of_progress (q := p) ⟨hkey, .inl hidle⟩ rfl rfl rfl)

/-- Starting anew leaves no progress unsaved, although the save is deleted first. -/
theorem reset_secures : reset.Secures (·.player) fun e q => q.Unannounced e := by
  intro p hjournal
  unfold reset
  rw [Act.ends_bind, Act.ends_forget]
  refine ⟨fun _ he => absurd he (by decide), fun left _ => ?_⟩
  exact start_secures _ hjournal

/-- Showing the room of a player that was read from a save keeps progress. -/
theorem proceed_progress : proceed.Keeps progress :=
  (Act.say_progress _).bind fun _ => Act.player_progress.bind fun _ => Scene.enter_progress _

/-- A session keeps the progress of its save once it has a player to read the save into. -/
theorem goOn_kept {p q : Play} {world : World} {origin : Player}
    (hworld : (Library.getWorld q.source q.library).result = .ok world)
    (hstored : q.stored = p.stored) (hkey : q.saveKey = p.saveKey)
    (horigin : ∀ player, (q.saves.entries.get? q.saveKey).bind q.player.restore? = some player →
      player = origin) :
    goOn.Ends q (fun _ r => p.Kept origin r)
      fun e r => e.isContent = true → p.Kept origin r ∨ r.Unannounced e := by
  unfold goOn
  rw [Act.ends_bind, Act.ends_restore]
  refine ⟨fun _ he => absurd he (by decide), fun left _ => ?_⟩
  cases hload : (q.saves.entries.get? q.saveKey).bind q.player.restore? with
  -- The save holds a player, and from there the session goes on as any other does.
  | some player =>
    have hplayer : player = origin := horigin player hload
    refine (proceed_progress _ trivial).imp ?_ ?_
    · intro _ r hr
      exact .of_progress hr hstored hplayer hkey
    · intro e r hr he
      exact Play.Kept.of_failed hr he hstored hplayer hkey
  | none =>
    -- The world was there a moment ago, so the session starts, and that saves it.
    show Act.Ends (Act.say _ >>= fun _ => start) _ _ _
    rw [Act.ends_bind, Act.ends_say]
    refine (start_ends _).imp ?_ ?_
    · intro _ r ⟨hkey', hr⟩
      exact hr.kept (hkey'.trans hkey)
    · intro e r ⟨hkey', hr⟩ he
      rcases hr he with (hsaved | hart) | ⟨hfail, -⟩
      · exact .inl (hsaved.kept (hkey'.trans hkey))
      · exact .inr hart
      · have hagain : (Library.getWorld q.source q.library).result = .error e := hfail
        rw [hworld] at hagain
        cases hagain

/-- Going on leaves no progress unsaved, measured from the player of the save. -/
theorem resume_secures :
    resume.Secures (fun p => (reloaded p).getD p.player) fun e q => q.Unannounced e := by
  intro p _
  show resume.Ends p (fun _ q => p.Kept ((reloaded p).getD p.player) q)
    fun e q => e.isContent = true → p.Kept ((reloaded p).getD p.player) q ∨ q.Unannounced e
  unfold resume Act.world
  rw [Act.ends_bind, Act.ends_ask]
  -- Without the world nothing happens. With it, the player is the one that the save restores.
  refine ⟨fun world hworld => ?_, fun e he _ => .inl (.inl ⟨p.stored_answered _, ?_⟩)⟩
  · have hstored : (p.answered (Library.getWorld p.source p.library)).stored = p.stored :=
      p.stored_answered _
    have hagain := Library.getWorld_again hworld p.source
    unfold activate beginning reloaded
    rw [hworld]
    simp only [Act.ends_bind, Act.ends_modify, Act.ends_player]
    show Act.Ends (if p.player.location.isEmpty = true then _ else _) _ _ _
    split
    · simp only [Act.ends_bind, Act.ends_get, Act.ends_pure, Act.ends_changePlayer]
      refine goOn_kept hagain hstored rfl fun player hload => ?_
      exact (Option.getD_eq_iff.mpr (.inl hload)).symm
    · refine goOn_kept hagain hstored rfl fun player hload => ?_
      exact (Option.getD_eq_iff.mpr (.inl hload)).symm
  · unfold reloaded
    rw [he]
    rfl

/-- A line of input keeps progress. -/
theorem input_progress (line : String) : (input line).Keeps progress := by
  have hactive : requireActive.Keeps progress := by
    intro p hp
    rw [ends_requireActive]
    exact ⟨fun _ => progress.refl hp, fun _ => ⟨rfl, fun he => absurd he (by decide)⟩⟩
  exact hactive.bind fun _ => (Act.ask_progress _).bind fun world =>
    Action.perform_progress world _

/-- Leaving changes nothing about the player. -/
theorem leave_progress : leave.Keeps progress := by
  have hdeactivate : deactivate.Keeps progress := fun p _ => ⟨rfl, .inl ⟨rfl, rfl, rfl⟩⟩
  exact hdeactivate.bind fun _ => Act.sayAll_progress _

/-- Every request leaves no progress unsaved. -/
theorem Request.secures (request : Request) :
    request.act.Secures request.origin fun e q => q.Unannounced e := by
  cases request with
  | start => exact start_secures
  | resume => exact resume_secures
  | reset => exact reset_secures
  | input line => exact (input_progress line).secures
  | leave => exact leave_progress.secures

end Session

/-- No progress is left unsaved, whatever the content, the player and the store, and however the
calls of the store fail: not by a script or an arrival at any level, by entering a room, by a
command, by starting a fight, by an answer in a fight, or by a request. -/
theorem no_progress_left_unsaved :
    (∀ levels script,
      ((Nested.within levels).script script).Secures (·.player) fun e q => q.Unannounced e) ∧
    (∀ levels,
      (Nested.within levels).arrival.Secures (·.player) fun e q => q.Unannounced e) ∧
    (∀ firstTime, (Scene.enter firstTime).Secures (·.player) fun e q => q.Unannounced e) ∧
    (∀ world command,
      (Action.perform world command).Secures (·.player) fun e q => q.Unannounced e) ∧
    (∀ id, (Fight.start id).Secures (·.player) (Fight.Unannounced id)) ∧
    (∀ messages command,
      (Fight.answer messages command).Secures (·.player) fun e q => q.Unannounced e) ∧
    ∀ request : Session.Request,
      request.act.Secures request.origin fun e q => q.Unannounced e := by
  refine ⟨fun levels script => ?_, fun levels => ?_, fun firstTime => ?_, fun world command => ?_,
    Fight.start_secures, fun messages command => ?_, fun request => request.secures⟩
  · exact (Nested.script_progress levels script).secures
  · exact (Nested.arrival_progress levels).secures
  · exact (Scene.enter_progress firstTime).secures
  · exact (Action.perform_progress world command).secures
  · exact (Fight.answer_progress messages command).secures

end TextAdventure
