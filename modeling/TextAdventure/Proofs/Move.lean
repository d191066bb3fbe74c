import TextAdventure.Proofs.Quiet
import TextAdventure.Proofs.Run

/-!
# Commands to go

A room is shown by a command to go exactly if the player could leave the room in which it was: it
took input, no fight was on, and the exit that the command means leads somewhere and was open; and
if no room is shown, the player is as before (`Session.ends_input_go`). So whether the player has
moved can be told from the journal (`Session.showsRoom_of_moved`).
-/

namespace TextAdventure

/-- Whether a room was shown. -/
def Event.isShown : Event → Bool
  | .shown _ _ => true
  | _ => false

/-- A room was shown on the way. -/
def Play.ShowsRoom (p : Play) : Prop := ∃ e ∈ p.journal, e.isShown = true

/-- An exit leads out of the room in which the player is, and is open. -/
def Player.HasWayOut (source : Source) (p : Player) (exit : String) : Prop :=
  ∃ r : Room, Library.read source "rooms" p.location = .ok r ∧ (r.exits.get? exit).isSome ∧
    p.isExitLocked r.id exit = false

/-- Whether there is a way out is a matter of the room in which the player is. -/
theorem Player.hasWayOut_iff {source : Source} {p : Player} {exit : String} {room : Room}
    (hroom : Library.read source "rooms" p.location = .ok room) :
    p.HasWayOut source exit ↔
      (room.exits.get? exit).isSome ∧ p.isExitLocked room.id exit = false := by
  constructor
  · rintro ⟨r, hr, hout⟩
    rw [hroom] at hr
    cases hr
    exact hout
  · exact fun hout => ⟨room, hroom, hout⟩

namespace Play

variable {p : Play}

/-- How going ends: a room was shown exactly if there was a way out, and if none was shown, the
player is as before. -/
structure Goes (out : Prop) (p q : Play) : Prop where
  /-- A room was shown exactly if there was a way out. -/
  shown : q.ShowsRoom ↔ out
  /-- The player stays if no room was shown. -/
  stays : q.ShowsRoom ∨ q.player = p.player

/-- A line instead of a room leaves the player where it is. -/
theorem Goes.of_said {out : Prop} {p q : Play} (hq : ¬q.ShowsRoom) (hplayer : q.player = p.player)
    (hout : ¬out) : Goes out p q := ⟨iff_of_false hq hout, .inr hplayer⟩

/-- Nothing was shown where nothing happened. -/
theorem not_showsRoom_of_nil (h : p.journal = []) : ¬p.ShowsRoom := by
  rintro ⟨e, he, -⟩
  rw [h] at he
  cases he

/-- An answer of the library shows no room. -/
theorem not_showsRoom_answered (h : ¬p.ShowsRoom) {α : Type} (answer : Library.Answer α) :
    ¬(p.answered answer).ShowsRoom := by
  rintro ⟨e, he, hshown⟩
  rcases List.mem_append.mp he with hnew | hold
  · obtain ⟨path, -, rfl⟩ := List.mem_map.mp (List.mem_reverse.mp hnew)
    cases hshown
  · exact h ⟨e, hold, hshown⟩

/-- A line shows no room. -/
theorem not_showsRoom_said (h : ¬p.ShowsRoom) (line : String) :
    ¬(p.noting (.said line)).ShowsRoom := by
  rintro ⟨e, he, hshown⟩
  rcases List.mem_cons.mp he with rfl | hold
  · cases hshown
  · exact h ⟨e, hold, hshown⟩

end Play

namespace Scene

variable {source : Source} {p : Play}

/-- Showing a room shows it. -/
theorem render_showsRoom (firstTime : Bool) (p : Play) :
    (render firstTime).Ends p (fun _ q => q.ShowsRoom) fun _ _ => True := by
  -- Describing the room is what shows it, and that comes last.
  have hrest : ∀ (room : Room) (q : Play), Act.Ends (do
      Act.sayAll (description room (← Act.player))
      Act.note (.shown room.id firstTime)
      return if firstTime then room.onFirstEnter else room.onEnter) q
      (fun _ r => r.ShowsRoom) fun _ _ => True := by
    intro room q
    rw [Act.ends_bind, Act.ends_player, Act.ends_bind, Act.ends_sayAll, Act.ends_bind,
      Act.ends_note]
    exact ⟨.shown room.id firstTime, List.mem_cons_self, rfl⟩
  unfold render Act.room
  rw [Act.ends_bind, Act.ends_player, Act.ends_bind, Act.ends_ask]
  refine ⟨fun room _ => ?_, fun _ _ => trivial⟩
  rw [Act.ends_bind]
  refine Act.ends_of_forall (fun _ q => ?_) fun _ _ => trivial
  cases room.ascii with
  | none => exact hrest room q
  | some art =>
    show Act.Ends (Act.showArt art.file >>= fun _ => _) q _ _
    rw [Act.ends_bind]
    exact Act.ends_of_forall (fun _ r => hrest room r) fun _ _ => trivial

/-- Entering a room shows it. -/
theorem enter_showsRoom (firstTime : Bool) (hp : p.Reads source) :
    (enter firstTime).Ends p (fun _ q => q.ShowsRoom) fun _ _ => True := by
  unfold enter
  rw [Act.ends_bind]
  have hrender := (ends_render firstTime hp).and (render_showsRoom firstTime p)
  refine hrender.imp ?_ fun _ _ _ => trivial
  rintro script q ⟨⟨room, hshown, -⟩, e, he, hise⟩
  -- The script that runs then takes nothing out of the journal.
  have hscripts := (Discipline.elementary_frame.scenic.within maxLevels).1
  have hrun := hscripts script q hshown.reads.agreesHere
  refine hrun.imp ?_ fun _ _ _ => trivial
  intro _ r ⟨hframe, _⟩
  exact ⟨e, hframe.journal.subset he, hise⟩

end Scene

namespace Action

variable {source : Source} {p : Play}

/-- Going somewhere shows the room there. -/
theorem goTo_showsRoom (destination : String) (hp : p.Reads source) :
    (goTo destination).Ends p (fun _ q => q.ShowsRoom) fun _ _ => True := by
  have hreads : (p.changing fun q => { q with location := destination }).Reads source :=
    ⟨hp.1, hp.2⟩
  unfold goTo
  rw [Act.ends_bind, Act.ends_changePlayer, Act.ends_bind, Act.ends_persist]
  refine ⟨fun _ => trivial, fun left _ => ?_⟩
  rw [Act.ends_bind, Act.ends_player]
  exact Scene.enter_showsRoom _ (Play.Effectless.persisted hreads left).reads

/-- Going through an exit shows a room exactly if there is a way out, as long as the room behind the
exit can be shown; without a way out the player stays as it is. -/
theorem ends_move (messages : Messages) (command : Command) (hp : p.Reads source)
    (hnothing : ¬p.ShowsRoom) :
    (move messages command).Ends p
      (fun _ q => Play.Goes (p.player.HasWayOut source (exitName command)) p q)
      fun _ q => q.ShowsRoom → p.player.HasWayOut source (exitName command) := by
  have hasked := Play.not_showsRoom_answered hnothing
    (Library.getRoom p.source p.player.location p.library)
  have hreads := hp.answered (Library.faithful_getRoom p.player.location)
  unfold move currentRoom Act.room
  rw [Act.ends_bind, Act.ends_bind, Act.ends_player, Act.ends_ask]
  refine ⟨fun room hroom => ?_, fun _ _ hshown => absurd hshown hasked⟩
  rw [hp.fromSource, (hp.agrees.getRoom _).1] at hroom
  -- The three cases of `HasWayOut`: no exit, a closed one and an open one.
  cases hexit : room.exits.get? (exitName command) with
  | none =>
    simp only [hexit, Act.ends_say]
    refine .of_said (Play.not_showsRoom_said hasked _) rfl ?_
    rw [Player.hasWayOut_iff hroom, hexit]
    rintro ⟨hleads, -⟩
    cases hleads
  | some destination =>
    simp only [hexit, Act.ends_bind, Act.ends_player]
    cases hlocked : p.player.isExitLocked room.id (exitName command) with
    | true =>
      rw [Play.player_answered, if_pos hlocked, Act.ends_say]
      refine .of_said (Play.not_showsRoom_said hasked _) rfl ?_
      rw [Player.hasWayOut_iff hroom, hlocked]
      rintro ⟨-, hopen⟩
      cases hopen
    | false =>
      have hout : p.player.HasWayOut source (exitName command) := by
        rw [Player.hasWayOut_iff hroom, hexit, hlocked]
        exact ⟨rfl, rfl⟩
      rw [Play.player_answered, hlocked, if_neg (by simp)]
      exact (goTo_showsRoom destination hreads).imp
        (fun _ _ hshown => ⟨iff_of_true hshown hout, .inl hshown⟩) fun _ _ _ _ => hout

end Action

namespace Session

variable {source : Source} {p : Play}

/-- A command to go shows a room exactly if the player can leave the room where it is, as long as
the room behind the exit can be shown. -/
theorem ends_input_go {line : String} (hgo : (Command.parse line).verb = .go)
    (hp : p.Reads source) (hjournal : p.journal = []) :
    (input line).Ends p (fun _ q => Play.Goes (p.active = true ∧ p.player.inCombat = false ∧
        p.player.HasWayOut source (Action.exitName (Command.parse line))) p q)
      fun _ q => q.ShowsRoom → p.active = true ∧ p.player.inCombat = false ∧
        p.player.HasWayOut source (Action.exitName (Command.parse line)) := by
  have hnothing := Play.not_showsRoom_of_nil hjournal
  have hasked := Play.not_showsRoom_answered hnothing (Library.getWorld p.source p.library)
  have hreads := hp.answered Library.faithful_getWorld
  unfold input
  rw [Act.ends_bind, ends_requireActive]
  refine ⟨fun hactive => ?_, fun _ hshown => absurd hshown hnothing⟩
  -- Asking for the world shows nothing.
  unfold Act.world
  rw [Act.ends_bind, Act.ends_ask]
  refine ⟨fun world _ => ?_, fun _ _ hshown => absurd hshown hasked⟩
  unfold Action.perform
  rw [Act.ends_bind, Act.ends_player]
  cases hcombat : p.player.inCombat with
  -- In a fight a command to go is answered with a line.
  | true =>
    rw [Play.player_answered, if_pos hcombat, Act.ends_discard]
    unfold Fight.answer
    rw [if_pos (by rw [hgo]; simp), Act.ends_bind, Act.ends_say]
    refine .of_said (Play.not_showsRoom_said hasked _) rfl ?_
    rintro ⟨-, hfree, -⟩
    cases hfree
  | false =>
    have hmove := Action.ends_move world.messages (Command.parse line) hreads hasked
    rw [Play.player_answered, hcombat, if_neg (by simp)]
    unfold Action.explore
    rw [hgo]
    refine hmove.imp (fun _ q hq => ⟨?_, hq.stays⟩) fun _ q hq hshown => ⟨hactive, rfl, hq hshown⟩
    rw [hq.shown]
    exact ⟨fun hout => ⟨hactive, rfl, hout⟩, fun hleaves => hleaves.2.2⟩

/-- What holds of the journal however an act ends holds of the journal of the reply. -/
theorem journal_of_ends {s : Session} {saves : Saves} {r : Request} {J : List Event → Prop}
    (h : r.act.Ends (s.play source saves) (fun _ q => J q.journal) fun _ q => J q.journal) :
    J (s.handle source saves r).journal :=
  handle_of_both_ends (J := fun _ _ journal => J journal) h

/-- A request showed a room. -/
def Reply.ShowsRoom (r : Reply) : Prop := ∃ e ∈ r.journal, e.isShown = true

instance (r : Reply) : Decidable r.ShowsRoom :=
  inferInstanceAs (Decidable (∃ e ∈ r.journal, e.isShown = true))

/-- A command to go that shows a room took the player out of a room through an open exit. -/
theorem hasWayOut_of_showsRoom {s : Session} {saves : Saves} {line : String}
    (hagrees : Library.Agrees source s.library) (hgo : (Command.parse line).verb = .go)
    (hshown : (s.handle source saves (.input line)).ShowsRoom) :
    s.active = true ∧ s.player.inCombat = false ∧
      s.player.HasWayOut source (Action.exitName (Command.parse line)) := by
  have hends := ends_input_go (p := s.play source saves) hgo ⟨rfl, hagrees⟩ rfl
  have hleaves : (input line).Ends (s.play source saves)
      (fun _ q => (∃ e ∈ q.journal, e.isShown = true) → s.active = true ∧
        s.player.inCombat = false ∧
          s.player.HasWayOut source (Action.exitName (Command.parse line)))
      fun _ q => (∃ e ∈ q.journal, e.isShown = true) → s.active = true ∧
        s.player.inCombat = false ∧
          s.player.HasWayOut source (Action.exitName (Command.parse line)) :=
    hends.imp (fun _ _ hq => hq.shown.mp) fun _ _ hq => hq
  exact journal_of_ends (r := .input line) (J := fun journal =>
    (∃ e ∈ journal, e.isShown = true) → _) hleaves hshown

/-- A command to go that succeeds and leaves the player other than it was showed a room. -/
theorem showsRoom_of_moved {s : Session} {saves : Saves} {line : String}
    (hagrees : Library.Agrees source s.library) (hgo : (Command.parse line).verb = .go)
    (hok : (s.handle source saves (.input line)).Succeeds)
    (hmoved : (s.handle source saves (.input line)).session.player ≠ s.player) :
    (s.handle source saves (.input line)).ShowsRoom := by
  have hends := ends_input_go (p := s.play source saves) hgo ⟨rfl, hagrees⟩ rfl
  obtain ⟨q, hq, heq⟩ := handle_of_ends (r := .input line) hends hok
  rw [heq] at hmoved ⊢
  exact hq.stays.resolve_right hmoved

end Session

end TextAdventure
