import TextAdventure.Proofs.Library
import TextAdventure.Proofs.Player
import TextAdventure.Proofs.Step

/-!
# No progress is left unsaved

Whatever an act changes about the player it also writes to the store before it ends. `Play.Kept`
says so of the states before and after an act: nothing was written and the player is as before, or
the record under the session's key is that of the player. It holds when an act succeeds, and also
when it fails for want of content. There is one exception, `Fight.Unannounced`: a fight is on before
its enemy is announced, so if the picture of the enemy cannot be had, the fight has begun and is not
in the save.

The proof carries the promise `progress`, which adds to `Play.Kept` that an act that writes nothing
leaves the entries of the store alone; so it holds of acts one after the other. Each change of the
player is followed by `Act.persist` before anything that can fail for want of content.
-/

namespace TextAdventure

namespace Play

/-- The record under the session's key is that of the player. -/
def IsSaved (p : Play) : Prop := p.saves.entries.get? p.saveKey = some p.player.save

/-- Between two states nothing was written and the player stayed the same, or the record under the
session's key is that of the player. The player at the first state is given apart, since a session
that goes on from a save starts with the player of the save. -/
def Kept (start : Player) (p q : Play) : Prop :=
  (q.stored = p.stored ∧ q.player = start) ∨ q.saves.entries.get? p.saveKey = some q.player.save

/-- Between two states nothing was written, and neither the player nor the store changed. -/
def Idle (p q : Play) : Prop :=
  q.stored = p.stored ∧ q.player = p.player ∧ q.saves.entries = p.saves.entries

/-- The effect that began last. -/
def lastEffect (p : Play) : Option Step :=
  p.journal.findSome? fun | .performed effect => some effect | _ => none

/-- Nothing happened over two acts if nothing happened over each. -/
theorem Idle.trans {p q r : Play} (h : p.Idle q) (h' : q.Idle r) : p.Idle r :=
  ⟨h'.1.trans h.1, h'.2.1.trans h.2.1, h'.2.2.trans h.2.2⟩

/-- A saved player stays saved as long as nothing happens. -/
theorem IsSaved.of_idle {p q : Play} (h : p.IsSaved) (hidle : p.Idle q)
    (hkey : q.saveKey = p.saveKey) : q.IsSaved := by
  obtain ⟨-, hplayer, hentries⟩ := hidle
  unfold IsSaved at h ⊢
  rw [hentries, hkey, hplayer]
  exact h

/-- Writing the player saves it. -/
theorem isSaved_persisted (p : Play) (left : Option Nat) : (p.persisted left).IsSaved :=
  Table.get?_insert_self _ _ _

/-- What is said writes nothing. -/
theorem stored_said (p : Play) (lines : List String) :
    ({ p with journal := (lines.map Event.said).reverse ++ p.journal } : Play).stored =
      p.stored := by
  unfold stored
  rw [List.reverse_append, List.reverse_reverse, List.filterMap_append, List.filterMap_map]
  simp

/-- Asking the library writes nothing. -/
theorem stored_answered {α : Type} (p : Play) (answer : Library.Answer α) :
    (p.answered answer).stored = p.stored := by
  unfold stored answered
  rw [List.reverse_append, List.reverse_reverse, List.filterMap_append, List.filterMap_map]
  simp

/-- Asking the library begins no effect. -/
theorem lastEffect_answered {α : Type} (p : Play) (answer : Library.Answer α) :
    (p.answered answer).lastEffect = p.lastEffect := by
  have hnone : ((answer.fetched.map Event.fetched).reverse.findSome? fun
      | .performed effect => some effect
      | _ => none : Option Step) = none := by
    rw [List.findSome?_eq_none_iff]
    intro e he
    obtain ⟨path, -, rfl⟩ := List.mem_map.mp (List.mem_reverse.mp he)
    rfl
  unfold lastEffect answered
  rw [List.findSome?_append, hnone, Option.none_or]

/-- Entering an event other than a write into the journal writes nothing. -/
theorem stored_noting (p : Play) {e : Event} (he : ∀ record, e ≠ .stored record) :
    (p.noting e).stored = p.stored := by
  unfold stored noting
  rw [List.reverse_cons, List.filterMap_append]
  cases e with
  | stored record => exact absurd rfl (he record)
  | said _ => simp
  | fetched _ => simp
  | performed _ => simp
  | shown _ _ => simp
  | opened => simp
  | closed => simp
  | leftOut => simp

end Play

/-- A fight with an enemy has begun, and the picture of the enemy cannot be had. -/
def Fight.Unannounced (id : String) (e : Failure) (q : Play) : Prop :=
  ∃ enemy art, q.library.enemies.get? id = some enemy ∧ enemy.ascii = some art ∧
    q.player.enemy = some enemy ∧ q.player.inCombat = true ∧
    (Library.getArt q.source art.file q.library).result = .error e

/-- The effect that began last starts a fight, and the picture of its enemy cannot be had. -/
def Play.Unannounced (e : Failure) (q : Play) : Prop :=
  ∃ id, q.lastEffect = some (.fight id) ∧ Fight.Unannounced id e q

namespace Promise

/-- What was changed is saved. -/
def progress : Promise where
  inv _ := True
  ok p q := q.saveKey = p.saveKey ∧ (p.Idle q ∨ q.IsSaved)
  failed e p q := q.saveKey = p.saveKey ∧
    (e.isContent = true → p.Idle q ∨ q.IsSaved ∨ q.Unannounced e)
  again _ _ := trivial
  refl _ := ⟨rfl, .inl ⟨rfl, rfl, rfl⟩⟩
  trans := by
    rintro p q r ⟨hkey, hpq⟩ ⟨hkey', hqr⟩
    refine ⟨hkey'.trans hkey, ?_⟩
    rcases hqr with hidle | hr
    · exact hpq.imp (·.trans hidle) (·.of_idle hidle hkey')
    · exact .inr hr
  failed_after := by
    rintro e p q r ⟨hkey, hpq⟩ ⟨hkey', hqr⟩
    refine ⟨hkey'.trans hkey, fun he => ?_⟩
    rcases hqr he with hidle | hr
    · exact hpq.imp (·.trans hidle) fun hq => .inl (hq.of_idle hidle hkey')
    · exact .inr hr

end Promise

namespace Act

open Promise (progress)

/-- Entering an event other than a write into the journal changes nothing. -/
theorem progress_noting (p : Play) {e : Event} (he : ∀ record, e ≠ .stored record) :
    progress.ok p (p.noting e) :=
  ⟨rfl, .inl ⟨p.stored_noting he, rfl, rfl⟩⟩

/-- An act that ends by writing the player keeps its progress, whatever it did before. -/
theorem progress_persist {p q : Play} (hkey : q.saveKey = p.saveKey) :
    persist.Ends q (fun _ r => progress.ok p r) fun e r => progress.failed e p r := by
  rw [ends_persist]
  refine ⟨fun _ => ⟨hkey, fun he => ?_⟩, fun left _ => ⟨hkey, .inr (q.isSaved_persisted left)⟩⟩
  exact absurd he (by decide)

/-- Saying lines changes nothing. -/
theorem sayAll_progress (lines : List String) : (sayAll lines).Keeps progress := by
  intro p _
  rw [ends_sayAll]
  exact ⟨rfl, .inl ⟨p.stored_said lines, rfl, rfl⟩⟩

/-- Asking the library changes nothing. -/
theorem ask_progress {α : Type} (request : Source → Library → Library.Answer α) :
    (ask request).Keeps progress := by
  intro p _
  have hidle : p.Idle (p.answered (request p.source p.library)) := ⟨p.stored_answered _, rfl, rfl⟩
  rw [ends_ask]
  exact ⟨fun _ _ => ⟨rfl, .inl hidle⟩, fun _ _ => ⟨rfl, fun _ => .inl hidle⟩⟩

/-- Showing a picture changes nothing. -/
theorem showArt_progress (path : String) : (showArt path).Keeps progress :=
  (ask_progress _).bind fun _ => sayAll_progress _

/-- Saying a line changes nothing. -/
theorem say_progress (line : String) : (say line).Keeps progress := fun p _ =>
  progress_noting p (by simp)

/-- Reading the player changes nothing. -/
theorem player_progress : player.Keeps progress := fun _ hp => progress.refl hp

end Act

namespace Scene

open Promise (progress)

/-- A room that is seen for the first time is saved with the player, and seeing a room again changes
nothing. -/
theorem markVisited_progress (id : String) : (markVisited id).Keeps progress := by
  intro p hp
  unfold markVisited
  rw [Act.ends_bind, Act.ends_player, Act.ends_bind, Act.ends_changePlayer]
  -- Seeing a room again writes nothing, but then the player is the same as before.
  by_cases hknown : p.player.hasVisited id = true
  · have hsame : p.changing (·.markVisited id) = p := by
      simp only [Play.changing, Player.markVisited_eq_self hknown]
    rw [hknown, hsame]
    exact progress.refl hp
  · have hnew : p.player.hasVisited id = false := by simpa using hknown
    rw [hnew]
    exact Act.progress_persist rfl

/-- Showing a room keeps progress. -/
theorem render_progress (firstTime : Bool) : (render firstTime).Keeps progress := by
  refine Act.player_progress.bind fun player => ?_
  refine (Act.ask_progress _).bind fun room => (markVisited_progress room.id).bind fun _ => ?_
  have hrest : Act.Keeps progress (do
      Act.sayAll (description room (← Act.player))
      Act.note (.shown room.id firstTime)
      return if firstTime then room.onFirstEnter else room.onEnter) :=
    Act.player_progress.bind fun _ => (Act.sayAll_progress _).bind fun _ =>
      Act.Keeps.bind (fun p _ => Act.progress_noting p (by simp)) fun _ => Act.keeps_pure _
  cases room.ascii with
  | none => exact hrest
  | some art => exact (Act.showArt_progress art.file).bind fun _ => hrest

end Scene

namespace Fight

open Promise (progress)

/-- Starting a fight changes nothing before the enemy is there, and saves the player after the
announcement. Only in between can it fail with the fight begun and not saved, for want of the
picture. -/
theorem start_ends (id : String) (p : Play) :
    (start id).Ends p (fun _ q => progress.ok p q)
      fun e q => q.saveKey = p.saveKey ∧
        (e.isContent = true → p.Idle q ∨ q.lastEffect = p.lastEffect ∧ Unannounced id e q) := by
  -- Everything that starts a fight ends in this save, which a content error cannot spoil.
  have hpersist : ∀ q : Play, q.saveKey = p.saveKey →
      Act.persist.Ends q (fun _ r => progress.ok p r)
        fun e r => r.saveKey = p.saveKey ∧
          (e.isContent = true → p.Idle r ∨ r.lastEffect = p.lastEffect ∧ Unannounced id e r) := by
    intro q hkey
    rw [Act.ends_persist]
    refine ⟨fun _ => ⟨hkey, fun he => ?_⟩, fun left _ => ⟨hkey, .inr (q.isSaved_persisted left)⟩⟩
    exact absurd he (by decide)
  unfold start Act.enemy
  rw [Act.ends_bind, Act.ends_ask]
  refine ⟨fun enemy henemy => ?_, fun e _ => ⟨rfl, fun _ => .inl ⟨p.stored_answered _, rfl, rfl⟩⟩⟩
  have hshelf := Library.get?_of_look henemy
  rw [Act.ends_bind, Act.ends_changePlayer]
  -- Only a picture that cannot be had comes between the fight and the save.
  cases hart : enemy.ascii with
  | none =>
    rw [Act.ends_bind, Act.ends_sayAll]
    exact hpersist _ rfl
  -- The picture is asked for when the fight has begun, and nothing of that is saved yet.
  | some art =>
    unfold Act.showArt
    simp only [Act.ends_bind, Act.ends_ask, Act.ends_sayAll]
    refine ⟨fun text _ => hpersist _ rfl, fun e he => ⟨rfl, fun _ => .inr ⟨?_, ?_⟩⟩⟩
    · rw [Play.lastEffect_answered]
      exact p.lastEffect_answered _
    · have henemies : ((p.answered (Library.getEnemy p.source id p.library)).changing
          (·.beginCombat enemy)).library.enemies.get? id = some enemy := hshelf
      have hfight : ((p.answered (Library.getEnemy p.source id p.library)).changing
          (·.beginCombat enemy)).player = p.player.beginCombat enemy := rfl
      generalize (p.answered (Library.getEnemy p.source id p.library)).changing
        (·.beginCombat enemy) = q at *
      have hlib := Library.library_of_getArt_error he
      have hq : q.answered (Library.getArt q.source art.file q.library) = { q with
          journal := (q.answered (Library.getArt q.source art.file q.library)).journal } := by
        simp only [Play.answered, hlib]
      rw [hq]
      refine ⟨enemy, art, henemies, hart, ?_, ?_, he⟩
      · rw [hfight]
        rfl
      · rw [hfight]
        rfl

/-- Handing over what the enemy dropped cannot fail. -/
theorem forM_loot_ends (drops : List String) (p : Play) :
    (drops.forM loot).Ends p (fun _ q => q.saveKey = p.saveKey) fun _ _ => False := by
  induction drops generalizing p with
  | nil => exact rfl
  | cons drop drops ih =>
    change (loot drop >>= fun _ => drops.forM loot).Ends p _ _
    unfold loot
    simp only [Act.ends_bind, Act.ends_player, Act.ends_changePlayer]
    by_cases hknown : p.player.hasItem drop = true
    · rw [hknown]
      exact ih _
    · have hnew : p.player.hasItem drop = false := by simpa using hknown
      rw [hnew]
      exact ih _

/-- An exchange of blows ends by saving the player. -/
theorem exchange_progress (enemy : Enemy) : (exchange enemy).Keeps progress := by
  intro p _
  unfold exchange
  simp only [Act.ends_bind, Act.ends_player, Act.ends_changePlayer, Act.ends_say]
  generalize hq : (p.changing _).noting _ = q
  have hkey : q.saveKey = p.saveKey := by
    rw [← hq]
    rfl
  split
  · -- The enemy is beaten.
    unfold win
    simp only [Act.ends_bind, Act.ends_say, Act.ends_changePlayer, Act.ends_pure]
    refine (forM_loot_ends _ _).imp (fun _ r hr => ?_) fun _ _ he => he.elim
    exact Act.progress_persist (hr.trans hkey)
  · -- The enemy strikes back.
    unfold counter
    simp only [Act.ends_bind, Act.ends_player, Act.ends_say, Act.ends_changePlayer]
    split
    · simp only [Act.ends_bind, Act.ends_say, Act.ends_changePlayer, Act.ends_pure]
      exact Act.progress_persist hkey
    · simp only [Act.ends_bind, Act.ends_pure]
      exact Act.progress_persist hkey

/-- An answer in a fight keeps progress. -/
theorem answer_progress (messages : Messages) (command : Command) :
    (answer messages command).Keeps progress := by
  unfold answer
  split
  · exact (Act.say_progress _).bind fun _ => Act.keeps_pure _
  · refine Act.player_progress.bind fun player => ?_
    cases player.enemy with
    | some enemy => exact exchange_progress enemy
    | none => exact (Act.say_progress _).bind fun _ => Act.keeps_pure _

end Fight

namespace Nested

open Promise (progress)

/-- Every step of a script keeps progress if the scripts and the arrival inside it do. -/
theorem step_progress (inner : Nested) (hscript : ∀ script, (inner.script script).Keeps progress)
    (harrival : inner.arrival.Keeps progress) (s : Step) : (inner.step s).Keeps progress := by
  intro p hp
  have hperformed : progress.ok p (p.performing s) := Act.progress_noting p (by simp)
  -- The steps that change the player end by saving it.
  cases s using Step.cases_on_revision? with
  | revision s r hr =>
    rw [ends_step_revision hr]
    exact Act.progress_persist rfl
  | message text =>
    rw [ends_step_message]
    exact progress.trans hperformed (Act.progress_noting _ (by simp))
  | art file size =>
    rw [ends_step_art]
    exact (Act.showArt_progress file).after hp hperformed
  | branch key equals onMatch otherwise =>
    rw [ends_step_branch]
    exact (hscript _).after hp hperformed
  | transition room =>
    rw [ends_step_transition]
    have hsaved : Act.persist.Ends ((p.performing (.transition room)).changing fun q =>
        { q with location := room }) (fun _ q => progress.ok p q) fun e q =>
          progress.failed e p q := Act.progress_persist rfl
    exact hsaved.imp_ok fun _ _ hq => harrival.after hp hq
  | fight enemy =>
    rw [ends_step_fight]
    -- The effect that began last is this one, as a failure for want of the picture has it.
    refine (Fight.start_ends enemy _).imp (fun _ _ hq => progress.trans hperformed hq) ?_
    intro e q ⟨hkey, hq⟩
    refine progress.failed_after hperformed ⟨hkey, fun he => ?_⟩
    rcases hq he with hidle | ⟨heffect, hart⟩
    · exact .inl hidle
    · exact .inr (.inr ⟨enemy, heffect, hart⟩)
  | unrecognized raw =>
    rw [ends_step_unrecognized]
    exact Act.progress_noting p (by simp)

/-- Scripts and arrivals keep progress at every level. -/
theorem levels_progress :
    progress.Levels (fun _ => True) (fun _ _ => True) fun _ _ => True := by
  refine Promise.levels_of_keeps (fun e p he _ => Act.progress_noting p he) ?_
    (fun inner hscript harrival s _ =>
      step_progress inner (fun script => hscript script fun _ _ => trivial) harrival s)
    ((Scene.render_progress true).yields fun _ _ _ => trivial)
  intro e p q ⟨hkey, hq⟩
  refine ⟨hkey, fun he => ?_⟩
  rcases hq he with ⟨hst, hpl, hen⟩ | hsaved | hart
  · exact .inl ⟨(q.stored_noting (by simp)).trans hst, hpl, hen⟩
  · exact .inr (.inl hsaved)
  · exact .inr (.inr hart)

/-- Every script keeps progress, however many levels are left. -/
theorem script_progress (levels : Nat) (script : Script) :
    ((within levels).script script).Keeps progress :=
  (levels_progress.within levels).1.keeps fun _ _ => trivial

/-- Every arrival keeps progress, however many levels are left. -/
theorem arrival_progress (levels : Nat) : (within levels).arrival.Keeps progress :=
  (levels_progress.within levels).2.keeps

end Nested

end TextAdventure
