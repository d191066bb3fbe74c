import TextAdventure.Proofs.Move
import TextAdventure.Proofs.Setback
import TextAdventure.Proofs.Sight
import TextAdventure.Proofs.Unabridged

/-!
# Rooms that cannot be shown

A room whose document is missing is not entered: whatever a session is asked for, the room is no
more among the rooms seen than before, in memory and in the save. But a command to go moves the
player and saves it before the room is shown, so that the player is there nevertheless
(`Session.unread_not_entered`).
-/

namespace TextAdventure

open Event (Shows)
open Promise (entering)

/-! ### The player who goes -/

/-- A player who goes somewhere is there, in memory and in the save, even if no room is shown there
for want of content. -/
theorem Action.ends_goTo_moved (destination : String) (p : Play) :
    (goTo destination).Ends p (fun _ _ => True) fun e q => e.isContent = true → ¬q.ShowsRoom →
      q.player.location = destination ∧ q.saveKey = p.saveKey ∧ q.IsSaved := by
  unfold goTo
  rw [Act.ends_bind, Act.ends_changePlayer, Act.ends_bind, Act.ends_persist]
  refine ⟨fun _ he => absurd he (by decide), fun left _ => ?_⟩
  have hsaved := (p.changing fun q => { q with location := destination }).isSaved_persisted left
  have hthere : ((p.changing fun q => { q with location := destination }).persisted
      left).player.location = destination := rfl
  have hkey : ((p.changing fun q => { q with location := destination }).persisted left).saveKey =
      p.saveKey := rfl
  generalize (p.changing fun q => { q with location := destination }).persisted left = m at *
  unfold Scene.enter
  rw [Act.ends_bind, Act.ends_player, Act.ends_bind]
  refine (Scene.ends_render_sees _ m).imp ?_ ?_
  · intro script q ⟨room, _, first, hshown⟩
    -- Whatever happens once the room was shown, it stays shown.
    have hrecorded := (Discipline.scenic_recorded.within Scene.maxLevels).1 script q trivial
    refine hrecorded.imp (fun _ _ _ => trivial) fun e r hjournal _ hnothing => ?_
    exact absurd ⟨_, hjournal.subset hshown, rfl⟩ hnothing
  · intro e q hq he _
    rcases hq he with haside | ⟨room, hsees⟩
    · exact ⟨haside.player ▸ hthere, haside.saveKey.trans hkey, hsaved.of_aside haside⟩
    · exact ⟨hsees.location.trans hthere, hsees.saveKey.trans hkey, hsaved.of_sees hsees⟩

namespace Session

variable {s : Session} {source : Source} {saves : Saves} {w : World}

/-- Asking for the world leaves the rooms of the library as they are. -/
theorem rooms_getWorld (source : Source) (l : Library) :
    (Library.getWorld source l).library.rooms = l.rooms := by
  unfold Library.getWorld
  split
  · rfl
  · split <;> rfl

/-- A command to go that finds an open exit takes the player to where the exit leads, in memory and
in the save, even if no room is shown there for want of content. -/
theorem ends_input_moved {line : String} {room : Room} {destination : String}
    (hworld : (Library.getWorld source s.library).result = .ok w)
    (hgo : (Command.parse line).verb = .go) (hfree : s.player.inCombat = false)
    (hroom : (Library.getRoom source s.player.location s.library).result = .ok room)
    (hexit : room.exits.get? (Action.exitName (Command.parse line)) = some destination)
    (hopen : s.player.isExitLocked room.id (Action.exitName (Command.parse line)) = false) :
    (input line).Ends (s.play source saves) (fun _ _ => True) fun e q =>
      e.isContent = true → ¬q.ShowsRoom → q.player.location = destination ∧
        q.saves.entries.get? s.saveKey = some q.player.save := by
  unfold input
  rw [Act.ends_bind, ends_requireActive]
  refine ⟨fun _ => ?_, fun _ he => absurd he (by decide)⟩
  have hasked : (Library.getWorld (s.play source saves).source
    (s.play source saves).library).result = .ok w := hworld
  unfold Act.world
  rw [Act.ends_bind, Act.ends_ask_ok hasked]
  -- Once the world is there, the room is still the same.
  have hroom' : (Library.getRoom source s.player.location
      (Library.getWorld source s.library).library).result = .ok room := by
    unfold Library.getRoom at hroom ⊢
    rw [rooms_getWorld]
    exact hroom
  unfold Action.perform
  -- No fight, a command to go and an open exit: the command moves the player.
  rw [Act.ends_bind, Act.ends_player, Play.player_answered]
  have hfree' : (s.play source saves).player.inCombat = false := hfree
  rw [hfree', if_neg (by simp)]
  unfold Action.explore
  rw [hgo]
  show (Action.move w.messages (Command.parse line)).Ends _ _ _
  unfold Action.move Action.currentRoom Act.room
  rw [Act.ends_bind, Act.ends_bind, Act.ends_player, Act.ends_ask_ok hroom']
  simp only [hexit]
  rw [Act.ends_bind, Act.ends_player, Play.player_answered, Play.player_answered]
  have hopen' : (s.play source saves).player.isExitLocked room.id
      (Action.exitName (Command.parse line)) = false := hopen
  rw [hopen', if_neg (by simp)]
  refine (Action.ends_goTo_moved destination _).imp (fun _ _ _ => trivial) ?_
  intro e q hq he hnothing
  obtain ⟨hlocation, hkey, hsaved⟩ := hq he hnothing
  refine ⟨hlocation, ?_⟩
  have hkey' : q.saveKey = s.saveKey := hkey
  unfold Play.IsSaved at hsaved
  rw [hkey'] at hsaved
  exact hsaved

/-! ### Requests that fail -/

/-- The document of the room in which the player then is cannot be had, and this is why the request
failed. -/
def Reply.FailsToRead (source : Source) (e : Failure) (reply : Reply) : Prop :=
  reply.result = .error e ∧
    (Library.getRoom source reply.session.player.location reply.session.library).result = .error e

/-- Whether a result is a certain failure can be decided whatever else it could be. -/
instance decidableEqError {α : Type} (result : Except Failure α) (e : Failure) :
    Decidable (result = .error e) :=
  match result with
  | .ok _ => isFalse nofun
  | .error e' => decidable_of_iff (e' = e) ⟨congrArg _, fun h => Except.error.inj h⟩

instance (source : Source) (e : Failure) (reply : Reply) :
    Decidable (reply.FailsToRead source e) :=
  inferInstanceAs (Decidable (_ ∧ _))

/-- The rooms that the player has seen, in memory and by what was saved, were seen before or
shown. -/
structure Reply.SeesShown (reply : Reply) (key : String) (saves : Saves) (before : String → Prop) :
    Prop where
  /-- In memory. -/
  memory : ∀ id, reply.session.player.hasVisited id = true → before id ∨ Shows id reply.journal
  /-- The record is as it was, or that of a player who has seen only such rooms. -/
  record : reply.saves.entries.get? key = saves.entries.get? key ∨
    ∃ player : Player, reply.saves.entries.get? key = some player.save ∧
      ∀ id, player.hasVisited id = true → before id ∨ Shows id reply.journal

/-- A room counts as seen before a request if the player has seen it: the player of the session, or
that of the save if the session goes on from there. Who begins has seen nothing. -/
def Request.SeenBefore (s : Session) (source : Source) (saves : Saves) (r : Request)
    (id : String) : Prop :=
  match r with
  | .start | .reset => False
  | .resume => ∃ player, reloaded (s.play source saves) = some player ∧
      player.hasVisited id = true
  | .input _ | .leave => s.player.hasVisited id = true

/-- A document that cannot be had was not read. -/
theorem unread_of_error {id : String} {l : Library} {e : Failure}
    (h : (Library.getRoom source id l).result = .error e) : l.rooms.get? id = none := by
  cases hshelf : l.rooms.get? id with
  | none => rfl
  | some room =>
    unfold Library.getRoom Library.look at h
    rw [hshelf] at h
    cases h

/-- What holds when the act of a request fails for want of content holds of the reply. -/
theorem handle_of_failed {r : Request} {e : Failure} {J : Reply → Prop}
    (h : r.act.Ends (s.play source saves) (fun _ _ => True) fun e q =>
      e.isContent = true → J ⟨.error e, q.toSession, q.saves, q.journal⟩)
    (he : e.isContent = true) (hfailed : (s.handle source saves r).result = .error e) :
    J (s.handle source saves r) := by
  have hreply : (s.handle source saves r).result = .error e → J (s.handle source saves r) := by
    rw [handle_iff_ends (J := fun reply => reply.result = .error e → J reply)]
    refine h.imp (fun _ _ _ hok => by cases hok) fun e' q hq hfails => ?_
    cases hfails
    exact hq he
  exact hreply hfailed

section Entering

variable {p q : Play} {e : Failure}

/-- What a player sees in the course of an act is what the reply to it tells. -/
theorem Reply.SeesShown.of_play (h : p.SeesShown q) :
    Reply.SeesShown ⟨.error e, q.toSession, q.saves, q.journal⟩ p.saveKey p.saves
      fun id => p.player.hasVisited id = true := by
  have hkey : q.saveKey = p.saveKey := h.saveKey
  have hsaved := h.saved
  rw [hkey] at hsaved
  exact ⟨h.visited, hsaved⟩

/-- A session that begins and cannot read a room has seen only what was shown. -/
theorem ends_start_entering (before : String → Prop)
    (hworld : (Library.getWorld p.source p.library).result = .ok w) :
    start.Ends p (fun _ _ => True) fun e q => e.isContent = true → q.Unread →
      Reply.SeesShown ⟨.error e, q.toSession, q.saves, q.journal⟩ p.saveKey saves before := by
  have hkeeps : Act.Keeps entering (do
      Act.say "Starte Adventure..."
      Scene.enter true) :=
    (Discipline.bodily_entering.say _).keeps.bind fun _ => Scene.enter_entering true
  refine (ends_start hworld).mpr ⟨fun _ he => absurd he (by decide), fun left _ => ?_⟩
  refine (hkeeps _ trivial).imp (fun _ _ _ => trivial) fun e q hq he hunread => ?_
  have hsees := hq he hunread
  -- The player with whom the session begins has seen nothing.
  have hshown : ∀ id, ((begun p w).persisted left).player.hasVisited id = true ∨
      Shows id q.journal → before id ∨ Shows id q.journal := by
    intro id hid
    rcases hid with hbefore | hshown
    · cases hbefore
    · exact .inr hshown
  refine ⟨fun id hid => hshown id (hsees.visited id hid), .inr ?_⟩
  have hkey : q.saveKey = p.saveKey := hsees.saveKey
  show ∃ player : Player, q.saves.entries.get? p.saveKey = _ ∧ _
  rw [← hkey]
  rcases hsees.saved with hsame | ⟨player, hrecord, hplayer⟩
  · refine ⟨(begun p w).player, ?_, fun id hid => by cases hid⟩
    rw [hsame]
    exact (begun p w).isSaved_persisted left
  · exact ⟨player, hrecord, fun id hid => hshown id (hplayer id hid)⟩

/-- Showing the room of a player who was read from a save sees only what is shown. -/
theorem proceed_entering : proceed.Keeps entering :=
  (Discipline.bodily_entering.say _).keeps.bind fun _ =>
    Act.keeps_player.bind fun _ => Scene.enter_entering _

/-- A session that goes on and cannot read a room has seen only what was shown and what the player
of the save had seen. -/
theorem ends_goOn_entering (hworld : (Library.getWorld p.source p.library).result = .ok w) :
    goOn.Ends p (fun _ _ => True) fun e q => e.isContent = true → q.Unread →
      Reply.SeesShown ⟨.error e, q.toSession, q.saves, q.journal⟩ p.saveKey p.saves fun id =>
        ∃ player, (p.saves.entries.get? p.saveKey).bind p.player.restore? = some player ∧
          player.hasVisited id = true := by
  unfold goOn
  rw [Act.ends_bind, Act.ends_restore]
  refine ⟨fun _ he => absurd he (by decide), fun left _ => ?_⟩
  cases hload : (p.saves.entries.get? p.saveKey).bind p.player.restore? with
  | some player =>
    refine (proceed_entering _ trivial).imp (fun _ _ _ => trivial) fun e q hq he hunread => ?_
    obtain ⟨hmemory, hrecord⟩ := Reply.SeesShown.of_play (e := e) (hq he hunread)
    refine ⟨fun id hid => (hmemory id hid).imp_left fun hseen => ⟨player, rfl, hseen⟩, ?_⟩
    refine hrecord.imp_right fun ⟨saved, hsaved, hseen⟩ => ⟨saved, hsaved, fun id hid => ?_⟩
    exact (hseen id hid).imp_left fun hbefore => ⟨player, rfl, hbefore⟩
  | none =>
    show Act.Ends (Act.say _ >>= fun _ => start) _ _ _
    rw [Act.ends_bind, Act.ends_say]
    exact ends_start_entering _ hworld

/-- A line after which the player is in a room that was not read has shown the rooms that are new to
the player. -/
theorem input_entering (line : String) : (input line).Keeps entering := by
  have hactive : requireActive.Keeps entering := by
    intro p hp
    rw [ends_requireActive]
    exact ⟨fun _ => entering.refl hp, fun _ he => absurd he (by decide)⟩
  have hworld : Act.world.Keeps entering :=
    (Discipline.bodily_entering.ask Library.faithful_getWorld).keeps
  exact hactive.bind fun _ => hworld.bind fun world =>
    (Discipline.commands_entering.perform world _).keeps

/-- Leaving sees nothing. -/
theorem leave_entering : leave.Keeps entering := by
  have hdeactivate : deactivate.Keeps entering := fun p _ =>
    .of_visited rfl rfl rfl List.suffix_rfl
  exact hdeactivate.bind fun _ => (Discipline.bodily_entering.sayAll _).keeps

/-- The player that a session reads from its save once it has the world. -/
theorem reloaded_eq (hworld : (Library.getWorld p.source p.library).result = .ok w) :
    reloaded p = ((ready p w).saves.entries.get? (ready p w).saveKey).bind
      (ready p w).player.restore? := by
  unfold reloaded
  rw [hworld]
  rfl

/-- A request that cannot read a room has seen only what was shown or seen before. -/
theorem Request.ends_entering (r : Request)
    (hworld : (Library.getWorld source s.library).result = .ok w) :
    r.act.Ends (s.play source saves) (fun _ _ => True) fun e q => e.isContent = true → q.Unread →
      Reply.SeesShown ⟨.error e, q.toSession, q.saves, q.journal⟩ s.saveKey saves
        (r.SeenBefore s source saves) := by
  have hstart : (Library.getWorld (s.play source saves).source
    (s.play source saves).library).result = .ok w := hworld
  -- Beginning, going on and beginning anew start from the world; a line and leaving do not.
  cases r with
  | start => exact ends_start_entering _ hstart
  | resume =>
    show Session.resume.Ends _ _ _
    have hagain : (Library.getWorld (ready (s.play source saves) w).source
        (ready (s.play source saves) w).library).result = .ok w :=
      Library.getWorld_again hworld source
    have hgoOn := ends_goOn_entering hagain
    rw [← reloaded_eq hstart] at hgoOn
    exact (ends_resume hstart).mpr hgoOn
  | reset =>
    show Session.reset.Ends _ _ _
    unfold Session.reset
    rw [Act.ends_bind, Act.ends_forget]
    exact ⟨fun _ he => absurd he (by decide), fun left _ => ends_start_entering _ hstart⟩
  | input line =>
    exact (input_entering line _ trivial).imp (fun _ _ _ => trivial) fun e q hq he hunread =>
      .of_play (hq he hunread)
  | leave =>
    exact (leave_entering _ trivial).imp (fun _ _ _ => trivial) fun e q hq he hunread =>
      .of_play (hq he hunread)

end Entering

/-- A room whose document cannot be had is not entered, whatever a session was asked for: unless it
was seen before or shown, it is not among the rooms that the player has seen, in memory and in the
save. But a command to go through an open exit has moved the player, in memory and in the save, when
for want of content no room is shown. -/
theorem unread_not_entered {e : Failure}
    (hworld : (Library.getWorld source s.library).result = .ok w) (he : e.isContent = true) :
    (∀ r reply, s.handle source saves r = reply → reply.FailsToRead source e →
      reply.SeesShown s.saveKey saves (r.SeenBefore s source saves)) ∧
    ∀ line room destination reply, s.handle source saves (.input line) = reply →
      (Command.parse line).verb = .go → s.player.inCombat = false →
      (Library.getRoom source s.player.location s.library).result = .ok room →
      room.exits.get? (Action.exitName (Command.parse line)) = some destination →
      s.player.isExitLocked room.id (Action.exitName (Command.parse line)) = false →
      reply.result = .error e → ¬reply.ShowsRoom →
      reply.session.player.location = destination ∧
        reply.saves.entries.get? s.saveKey = some reply.session.player.save := by
  constructor
  · rintro r reply rfl ⟨hfailed, hroom⟩
    exact handle_of_failed (J := fun reply =>
      reply.session.library.rooms.get? reply.session.player.location = none →
        reply.SeesShown s.saveKey saves (r.SeenBefore s source saves))
      (r.ends_entering hworld) he hfailed (unread_of_error hroom)
  · rintro line room destination reply rfl hgo hfree hroom hexit hopen hfailed hnothing
    exact handle_of_failed (r := .input line) (J := fun reply => ¬reply.ShowsRoom →
      reply.session.player.location = destination ∧
        reply.saves.entries.get? s.saveKey = some reply.session.player.save)
      (ends_input_moved hworld hgo hfree hroom hexit hopen) he hfailed hnothing

/-- A source with a yard, from where one gets to a tower whose picture is missing and to a cellar
without a document. -/
def courtyard : Source
  | "world.json" => .ok (Json.object [("startRoom", .string "hof")]).compactText
  | "rooms/hof.json" => .ok (Json.object [("id", .string "hof"),
      ("exits", .object [("nord", .string "turm"), ("sued", .string "keller")])]).compactText
  | "rooms/turm.json" => .ok (Json.object [("id", .string "turm"),
      ("ascii", .string "ascii/turm.txt")]).compactText
  | path => .error (.load path "missing")

/-- The reply to starting in the yard. -/
def inCourtyard : Reply :=
  (new "burg" "Burg" Library.standardWorldFile "save" .starting).handle courtyard .empty .start

/-- The reply to going to the cellar. -/
def wentSouth : Reply :=
  inCourtyard.session.handle courtyard inCourtyard.saves (.input "geh sued")

/-- The reply to going to the tower. -/
def wentNorth : Reply :=
  inCourtyard.session.handle courtyard inCourtyard.saves (.input "geh nord")

/-- The cellar is not entered, but the player is there. -/
theorem unread_not_entered_cellar :
    wentSouth.FailsToRead courtyard (.load "rooms/keller.json" "missing") ∧
      (wentSouth.SeesShown inCourtyard.session.saveKey inCourtyard.saves fun id =>
        inCourtyard.session.player.hasVisited id = true) ∧
      wentSouth.session.player.location = "keller" ∧
      wentSouth.saves.entries.get? inCourtyard.session.saveKey =
        some wentSouth.session.player.save := by
  have hworld : (Library.getWorld courtyard inCourtyard.session.library).result.toOption.any
      (fun _ => true) = true := by decide +kernel
  obtain ⟨w, hw, -⟩ := Library.exists_of_any hworld
  have hroom : (Library.getRoom courtyard inCourtyard.session.player.location
      inCourtyard.session.library).result.toOption.any (fun room =>
        room.exits.get? "sued" == some "keller" &&
          !inCourtyard.session.player.isExitLocked room.id "sued") = true := by decide +kernel
  -- What the theorem asks of this run is evaluated.
  obtain ⟨room, hread, hchecked⟩ := Library.exists_of_any hroom
  simp only [Bool.and_eq_true, beq_iff_eq, Bool.not_eq_true'] at hchecked
  have hcommand : (Command.parse "geh sued").verb = .go ∧
      Action.exitName (Command.parse "geh sued") = "sued" := by decide +kernel
  have hfails : wentSouth.FailsToRead courtyard (.load "rooms/keller.json" "missing") := by
    decide +kernel
  have hnothing : ¬wentSouth.ShowsRoom := by decide +kernel
  have hcontent : (Failure.load "rooms/keller.json" "missing").isContent = true := rfl
  have hreply : inCourtyard.session.handle courtyard inCourtyard.saves (.input "geh sued") =
      wentSouth := by
    rw [wentSouth]
  have hseen := (unread_not_entered hw hcontent).1 (.input "geh sued") wentSouth hreply hfails
  have hmoved := (unread_not_entered hw hcontent).2 "geh sued" room "keller" wentSouth hreply
    hcommand.1 (by decide +kernel) hread
  rw [hcommand.2] at hmoved
  exact ⟨hfails, hseen, hmoved hchecked.1 hchecked.2 hfails.1 hnothing⟩

/-- Neither the cellar nor the tower can be shown, but whoever goes there is there, in memory and in
the save, and has seen the tower. -/
theorem moved_unshown :
    inCourtyard.Succeeds ∧ inCourtyard.session.player.location = "hof" ∧
      inCourtyard.session.player.hasVisited "turm" = false ∧
      (wentSouth.result = .error (.load "rooms/keller.json" "missing") ∧ ¬wentSouth.ShowsRoom ∧
        wentSouth.session.player.location = "keller" ∧
        wentSouth.saves.entries.get? "save" = some wentSouth.session.player.save) ∧
      wentNorth.result = .error (.load "ascii/turm.txt" "missing") ∧ ¬wentNorth.ShowsRoom ∧
      wentNorth.session.player.location = "turm" ∧
      wentNorth.session.player.hasVisited "turm" = true ∧
      wentNorth.saves.entries.get? "save" = some wentNorth.session.player.save := by
  decide +kernel

end Session

end TextAdventure
