import TextAdventure.Proofs.Exit
import TextAdventure.Proofs.Journal
import TextAdventure.Proofs.Progress
import TextAdventure.Proofs.Unannounced

/-!
# Rooms that were seen were shown

A room is seen, in memory and in the save, once its document was read (`Scene.ends_render_sees`),
and then it is shown, unless its picture is missing. So the rooms that a player has seen after an
act were seen before or shown (`Play.SeesShown`). An act that fails for want of content promises
this if the document of the room in which the player then is was not read (`Promise.entering`).
-/

namespace TextAdventure

open Event (Shows)

/-! ### Showing a room -/

/-- Asking for a picture leaves the rooms of the library as they are. -/
theorem Library.rooms_getArt (source : Source) (path : String) (l : Library) :
    (getArt source path l).library.rooms = l.rooms := by
  unfold getArt
  split
  · rfl
  · split_ifs
    · rfl
    · cases source path <;> rfl

namespace Play

/-- Between two states neither the player nor the store changed. -/
structure Aside (p q : Play) : Prop where
  /-- The player stays as it is. -/
  player : q.player = p.player
  /-- The store stays as it is. -/
  saves : q.saves = p.saves
  /-- The key of the save stays. -/
  saveKey : q.saveKey = p.saveKey
  /-- The source stays. -/
  source : q.source = p.source
  /-- What happened stays in the journal. -/
  journal : p.journal <:+ q.journal

/-- The document of a room is read, and the room is one that the player has seen, in memory and in
the save. -/
structure Sees (room : Room) (p q : Play) : Prop where
  /-- The room is one more that the player has seen. -/
  player : q.player = p.player.markVisited room.id
  /-- The player is saved, unless it had seen the room before. -/
  saved : q.player = p.player ∧ q.saves = p.saves ∨ q.IsSaved
  /-- The key of the save stays. -/
  saveKey : q.saveKey = p.saveKey
  /-- The source stays. -/
  source : q.source = p.source
  /-- The room is on the shelf. -/
  shelf : q.library.rooms.get? p.player.location = some room
  /-- What happened stays in the journal. -/
  journal : p.journal <:+ q.journal

/-- The document of the room in which the player is was not read. -/
def Unread (p : Play) : Prop := p.library.rooms.get? p.player.location = none

variable {p q r : Play} {room : Room}

/-- An answer of the library changes neither the player nor the store. -/
theorem aside_answered {α : Type} (p : Play) (answer : Library.Answer α) :
    p.Aside (p.answered answer) := ⟨rfl, rfl, rfl, rfl, List.suffix_append _ _⟩

/-- What is saved stays saved as long as neither the player nor the store changes. -/
theorem IsSaved.of_aside (h : p.IsSaved) (haside : p.Aside q) : q.IsSaved := by
  unfold IsSaved at h ⊢
  rw [haside.saves, haside.saveKey, haside.player]
  exact h

/-- A room that was seen is seen after anything else that leaves the player and the rooms alone. -/
theorem Sees.trans_aside (h : p.Sees room q) (haside : q.Aside r)
    (hrooms : r.library.rooms = q.library.rooms) : p.Sees room r where
  player := haside.player.trans h.player
  saved := h.saved.imp (fun ⟨hplayer, hsaves⟩ =>
    ⟨haside.player.trans hplayer, haside.saves.trans hsaves⟩) fun hq => hq.of_aside haside
  saveKey := haside.saveKey.trans h.saveKey
  source := haside.source.trans h.source
  shelf := hrooms ▸ h.shelf
  journal := h.journal.trans haside.journal

/-- Who sees a room stays in it. -/
theorem Sees.location (h : p.Sees room q) : q.player.location = p.player.location := by
  rw [h.player]
  rfl

/-- The document of a room that is seen was read. -/
theorem Sees.read (h : p.Sees room q) : ¬q.Unread := by
  intro hunread
  unfold Unread at hunread
  rw [h.location, h.shelf] at hunread
  cases hunread

/-- What is saved stays saved when a room is seen. -/
theorem IsSaved.of_sees (h : p.IsSaved) (hsees : p.Sees room q) : q.IsSaved := by
  rcases hsees.saved with ⟨hplayer, hsaves⟩ | hsaved
  · unfold IsSaved at h ⊢
    rw [hsaves, hsees.saveKey, hplayer]
    exact h
  · exact hsaved

end Play

namespace Scene

variable {p : Play} {room : Room}

/-- Once a room is read, it is marked as seen, and the player saved if that is new. -/
theorem ends_markVisited_sees (hshelf : p.library.rooms.get? p.player.location = some room) :
    (markVisited room.id).Ends p (fun _ q => p.Sees room q) fun e _ => e.isContent = false := by
  unfold markVisited
  rw [Act.ends_bind, Act.ends_player, Act.ends_bind, Act.ends_changePlayer]
  cases hknown : p.player.hasVisited room.id with
  | true =>
    have hsame : p.player.markVisited room.id = p.player := Player.markVisited_eq_self hknown
    exact ⟨rfl, .inl ⟨hsame, rfl⟩, rfl, rfl, hshelf, List.suffix_rfl⟩
  | false =>
    show Act.persist.Ends (p.changing (·.markVisited room.id)) _ _
    rw [Act.ends_persist]
    exact ⟨fun _ => rfl, fun left _ => ⟨rfl, .inr (Play.isSaved_persisted _ left), rfl, rfl, hshelf,
      List.suffix_cons _ _⟩⟩

/-- Describing a room leaves the player and the rooms alone, and then the room was shown. -/
theorem ends_describe (room : Room) (firstTime : Bool) (p : Play) : Act.Ends (do
      if let some art := room.ascii then Act.showArt art.file
      Act.sayAll (description room (← Act.player))
      Act.note (.shown room.id firstTime)
      return if firstTime then room.onFirstEnter else room.onEnter) p
    (fun _ q => p.Aside q ∧ q.library.rooms = p.library.rooms ∧ Shows room.id q.journal)
    fun _ q => p.Aside q ∧ q.library.rooms = p.library.rooms := by
  -- Describing comes last, whether or not a picture was shown before.
  have hrest : ∀ q : Play, p.Aside q → q.library.rooms = p.library.rooms → Act.Ends (do
      Act.sayAll (description room (← Act.player))
      Act.note (.shown room.id firstTime)
      return if firstTime then room.onFirstEnter else room.onEnter) q
      (fun _ r => p.Aside r ∧ r.library.rooms = p.library.rooms ∧ Shows room.id r.journal)
      fun _ r => p.Aside r ∧ r.library.rooms = p.library.rooms := by
    intro q hq hrooms
    rw [Act.ends_bind, Act.ends_player, Act.ends_bind, Act.ends_sayAll, Act.ends_bind,
      Act.ends_note]
    refine ⟨⟨hq.player, hq.saves, hq.saveKey, hq.source, ?_⟩, hrooms, firstTime,
      List.mem_cons_self⟩
    exact hq.journal.trans ((List.suffix_append _ _).trans (List.suffix_cons _ _))
  cases room.ascii with
  | none => exact hrest p ⟨rfl, rfl, rfl, rfl, List.suffix_rfl⟩ rfl
  | some art =>
    -- A picture is only fetched: it touches no player and no room.
    have hasked := p.aside_answered (Library.getArt p.source art.file p.library)
    have hrooms := Library.rooms_getArt p.source art.file p.library
    rw [Act.ends_bind, Act.ends_showArt]
    refine ⟨fun text _ => ?_, fun _ _ => ⟨hasked, hrooms⟩⟩
    rw [Act.ends_sayAll]
    exact hrest _ ⟨rfl, rfl, rfl, rfl, hasked.journal.trans (List.suffix_append _ _)⟩ hrooms

/-- A room is seen when its document was read, whether it can be described then or not. -/
theorem ends_render_sees (firstTime : Bool) (p : Play) : (render firstTime).Ends p
    (fun _ q => ∃ room, p.Sees room q ∧ Shows room.id q.journal)
    fun e q => e.isContent = true → p.Aside q ∨ ∃ room, p.Sees room q := by
  -- Reading the room changes nothing but the library, which holds the room from then on.
  have hasked := p.aside_answered (Library.getRoom p.source p.player.location p.library)
  unfold render Act.room
  rw [Act.ends_bind, Act.ends_player, Act.ends_bind, Act.ends_ask]
  refine ⟨fun room hroom => ?_, fun e _ _ => .inl hasked⟩
  have hshelf :
    (p.answered (Library.getRoom p.source p.player.location p.library)).library.rooms.get?
      (p.answered (Library.getRoom p.source p.player.location p.library)).player.location =
        some room := Library.get?_of_look hroom
  generalize p.answered (Library.getRoom p.source p.player.location p.library) = m
    at hasked hshelf ⊢
  rw [Act.ends_bind]
  -- A store that refuses is no failure of the content.
  refine (ends_markVisited_sees hshelf).imp ?_ fun e _ he hcontent => ?_
  · intro _ q hsees
    -- What was done before the room was marked changed neither the player nor the store.
    have hpq : p.Sees room q :=
      ⟨hasked.player ▸ hsees.player, hasked.player ▸ hasked.saves ▸ hsees.saved,
        hsees.saveKey.trans hasked.saveKey, hsees.source.trans hasked.source,
        hasked.player ▸ hsees.shelf, hasked.journal.trans hsees.journal⟩
    refine (ends_describe room firstTime q).imp ?_ ?_
    · intro _ r ⟨haside, hrooms, hshown⟩
      exact ⟨room, hpq.trans_aside haside hrooms, hshown⟩
    · intro _ r ⟨haside, hrooms⟩ _
      exact .inr ⟨room, hpq.trans_aside haside hrooms⟩
  · rw [he] at hcontent
    cases hcontent

end Scene

/-! ### The rooms that were seen -/

namespace Play

/-- Between two states a player has seen no rooms but those that were shown, and no others are said
to be seen by what was saved. -/
structure SeesShown (p q : Play) : Prop where
  /-- The rooms seen were seen before or shown. -/
  visited : ∀ id, q.player.hasVisited id = true →
    p.player.hasVisited id = true ∨ Shows id q.journal
  /-- The record is as before, or that of a player who had seen only such rooms. -/
  saved : q.saves.entries.get? q.saveKey = p.saves.entries.get? p.saveKey ∨
    ∃ player : Player, q.saves.entries.get? q.saveKey = some player.save ∧
      ∀ id, player.hasVisited id = true → p.player.hasVisited id = true ∨ Shows id q.journal
  /-- The key of the save stays. -/
  saveKey : q.saveKey = p.saveKey
  /-- What happened stays in the journal. -/
  journal : p.journal <:+ q.journal

variable {p q r : Play}

/-- A room that was shown before was shown. -/
theorem shows_of_suffix {journal journal' : List Event} (h : journal <:+ journal') {id : String}
    (hshown : Shows id journal) : Shows id journal' := by
  obtain ⟨first, hmem⟩ := hshown
  exact ⟨first, h.subset hmem⟩

namespace SeesShown

/-- One act after the other. -/
theorem trans (h : p.SeesShown q) (h' : q.SeesShown r) : p.SeesShown r := by
  have hvisited : ∀ id, q.player.hasVisited id = true ∨ Shows id r.journal →
      p.player.hasVisited id = true ∨ Shows id r.journal := by
    intro id hid
    rcases hid with hq | hshown
    · exact (h.visited id hq).imp_right (shows_of_suffix h'.journal)
    · exact .inr hshown
  refine ⟨fun id hid => hvisited id (h'.visited id hid), ?_, h'.saveKey.trans h.saveKey,
    h.journal.trans h'.journal⟩
  rcases h'.saved with hsame | ⟨player, hrecord, hplayer⟩
  · rw [hsame]
    refine h.saved.imp_right fun ⟨player, hrecord, hplayer⟩ => ⟨player, hrecord, fun id hid => ?_⟩
    exact (hplayer id hid).imp_right (shows_of_suffix h'.journal)
  · exact .inr ⟨player, hrecord, fun id hid => hvisited id (hplayer id hid)⟩

/-- Nothing is seen where no more is recorded of rooms than before. -/
theorem of_visited (hplayer : q.player.visited = p.player.visited) (hsaves : q.saves = p.saves)
    (hkey : q.saveKey = p.saveKey) (hjournal : p.journal <:+ q.journal) : p.SeesShown q where
  visited id hid := .inl (Player.hasVisited_congr hplayer id ▸ hid)
  saved := .inl (by rw [hsaves, hkey])
  saveKey := hkey
  journal := hjournal

/-- Nothing is seen where neither the player nor the store changes. -/
theorem of_aside (h : p.Aside q) : p.SeesShown q :=
  of_visited (congrArg Player.visited h.player) h.saves h.saveKey h.journal

/-- A player who is saved has seen no more than before. -/
theorem persisted (h : p.SeesShown q) (left : Option Nat) : p.SeesShown (q.persisted left) := by
  have hjournal : q.journal <:+ (q.persisted left).journal := List.suffix_cons _ _
  have hvisited : ∀ id, q.player.hasVisited id = true →
      p.player.hasVisited id = true ∨ Shows id (q.persisted left).journal := fun id hid =>
    (h.visited id hid).imp_right (shows_of_suffix hjournal)
  exact ⟨hvisited, .inr ⟨q.player, q.isSaved_persisted left, hvisited⟩, h.saveKey,
    h.journal.trans hjournal⟩

/-- A room that is seen and shown. -/
theorem of_sees {room : Room} (h : p.Sees room q) (hshown : Shows room.id q.journal) :
    p.SeesShown q := by
  have hvisited : ∀ id, q.player.hasVisited id = true →
      p.player.hasVisited id = true ∨ Shows id q.journal := by
    intro id hid
    rw [h.player, Player.hasVisited_markVisited, Bool.or_eq_true, decide_eq_true_iff] at hid
    rcases hid with rfl | hid
    · exact .inr hshown
    · exact .inl hid
  refine ⟨hvisited, ?_, h.saveKey, h.journal⟩
  rcases h.saved with ⟨-, hsaves⟩ | hsaved
  · exact .inl (by rw [hsaves, h.saveKey])
  · exact .inr ⟨q.player, hsaved, hvisited⟩

end SeesShown

end Play

/-- Rooms that were seen were shown. An act that fails for want of content promises this only if the
player is in a room whose document was not read. -/
def Promise.entering : Promise where
  inv _ := True
  ok := Play.SeesShown
  failed e p q := e.isContent = true → q.Unread → p.SeesShown q
  again _ _ := trivial
  refl _ := .of_visited rfl rfl rfl List.suffix_rfl
  trans := Play.SeesShown.trans
  failed_after h h' he hq := h.trans (h' he hq)

open Promise (entering)

/-- A change of the player that leaves the rooms seen as they are. -/
theorem Act.changePlayer_entering {change : Player → Player}
    (h : ∀ p : Player, (change p).visited = p.visited) : (changePlayer change).Keeps entering :=
  fun p _ => .of_visited (h p.player) rfl rfl List.suffix_rfl

/-- The smallest acts see no rooms. -/
theorem Discipline.bodily_entering : entering.discipline.Bodily where
  say _ _ _ := ⟨.of_visited rfl rfl rfl (List.suffix_cons _ _), trivial⟩
  player _ hp := ⟨entering.refl hp, trivial⟩
  changePlayer hchange p hp :=
    ⟨Act.changePlayer_entering (fun q => (hchange q).visited) p hp, trivial⟩
  persist p hp := by
    rw [Act.ends_persist]
    exact ⟨fun _ he => absurd he (by decide), fun left _ => ⟨(entering.refl hp).persisted left,
      trivial⟩⟩
  ask _ p _ := by
    rw [Act.ends_ask]
    exact ⟨fun _ _ => ⟨.of_aside (p.aside_answered _), trivial⟩,
      fun _ _ _ _ => .of_aside (p.aside_answered _)⟩

/-- A room that is shown is seen, and one that cannot be read is not. -/
theorem Scene.render_entering (firstTime : Bool) : (render firstTime).Keeps entering := by
  intro p _
  refine (ends_render_sees firstTime p).imp ?_ ?_
  · intro _ q ⟨room, hsees, hshown⟩
    exact .of_sees hsees hshown
  · intro e q hq he hunread
    rcases hq he with haside | ⟨room, hsees⟩
    · exact .of_aside haside
    -- The document of the room was read, so it is not the one in question.
    · exact absurd hunread hsees.read

namespace Nested

/-- A step of a script, if the scripts and the arrival inside it see only what is shown. -/
theorem step_entering (inner : Nested) (hscript : ∀ script, (inner.script script).Keeps entering)
    (harrival : inner.arrival.Keeps entering) (s : Step) : (inner.step s).Keeps entering := by
  intro p hp
  have hbodily := Discipline.bodily_entering
  -- Noting the step shows nothing and visits nothing.
  have hperformed : entering.ok p (p.performing s) :=
    .of_visited rfl rfl rfl (List.suffix_cons _ _)
  -- A step that revises the player visits nothing, and its save is one more event.
  cases s using Step.cases_on_revision? with
  | revision s r hr =>
    have hrevised : entering.ok p ((p.performing s).revised r) :=
      .of_visited (Step.Revision.exits hr p.player).2.1 rfl rfl
        ((List.suffix_cons _ _).trans (List.suffix_append _ _))
    rw [ends_step_revision hr]
    exact hbodily.persist.keeps.after hp hrevised
  | message text =>
    rw [ends_step_message]
    exact entering.trans hperformed (.of_visited rfl rfl rfl (List.suffix_cons _ _))
  | art file size =>
    rw [ends_step_art]
    exact (hbodily.showArt file).keeps.after hp hperformed
  | branch key equals onMatch otherwise =>
    rw [ends_step_branch]
    exact (hscript _).after hp hperformed
  -- A transition may move without showing: what was shown stays, and the arrival shows the rest.
  | transition room =>
    rw [ends_step_transition]
    have hmoved : entering.ok p ((p.performing (.transition room)).changing fun q =>
        { q with location := room }) := .of_visited rfl rfl rfl (List.suffix_cons _ _)
    exact (hbodily.persist.keeps.after hp hmoved).imp_ok fun _ _ hq => harrival.after hp hq
  | fight enemy =>
    rw [ends_step_fight]
    exact (hbodily.startFight enemy).keeps.after hp hperformed
  | unrecognized raw =>
    rw [ends_step_unrecognized]
    exact .of_visited rfl rfl rfl (List.suffix_cons _ _)

/-- Scripts and arrivals at every level see only what is shown. -/
theorem levels_entering :
    entering.Levels (fun _ => True) (fun _ _ => True) fun _ _ => True :=
  Promise.levels_of_keeps (fun _ _ _ _ => .of_visited rfl rfl rfl (List.suffix_cons _ _))
    (fun hq he hunread => (hq he hunread).trans
      (.of_visited rfl rfl rfl (List.suffix_cons _ _)))
    (fun inner hscript harrival s _ =>
      step_entering inner (fun script => hscript script fun _ _ => trivial) harrival s)
    ((Scene.render_entering true).yields fun _ _ _ => trivial)

end Nested

/-- Entering a room sees only what is shown. -/
theorem Scene.enter_entering (firstTime : Bool) : (enter firstTime).Keeps entering :=
  (render_entering firstTime).bind fun _ =>
    (Nested.levels_entering.within maxLevels).1.keeps fun _ _ => trivial

/-- Going somewhere sees only what is shown. -/
theorem Action.goTo_entering (destination : String) : (goTo destination).Keeps entering := by
  have hmoved : (Act.changePlayer fun p => { p with location := destination }).Keeps entering :=
    Act.changePlayer_entering fun _ => rfl
  exact hmoved.bind fun _ => Discipline.bodily_entering.persist.keeps.bind fun _ =>
    Act.keeps_player.bind fun _ => Scene.enter_entering _

/-- Every command sees only what is shown. -/
theorem Discipline.commands_entering : entering.discipline.Commands fun _ => True := by
  have hscript := (Nested.levels_entering.within Scene.maxLevels).1
  refine bodily_entering.commands (fun script => ?_) ?_ fun destination => ?_
  · exact (hscript.keeps fun _ _ => trivial).yields fun _ => trivial
  · exact (Scene.enter_entering false).yields fun _ => trivial
  · exact (Action.goTo_entering destination).yields fun _ => trivial

end TextAdventure
