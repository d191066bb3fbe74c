import TextAdventure.Proofs.Exit
import TextAdventure.Proofs.Move

/-!
# Gated exits are passed only after they were opened

Over the rooms of a compiled bundle, a player who goes through a gated exit goes through one that
the last effect on it opened (`Session.opened_before_passed`), after any run and however the exit
got closed: going on from a save, beginning anew and opening a new session do not lead around a
gate.
-/

namespace TextAdventure

/-- The rooms of a source are those of a bundle, each under its own id. What else the source has may
be anything. -/
def Source.RoomsAre (source : Source) (b : Bundle) : Prop :=
  ∀ id (room : Room), Library.read source "rooms" id = .ok room →
    room.id = id ∧ b.rooms.get? id = some room

/-- The rooms of a compiled bundle close their gated exits when they are first entered. -/
theorem Source.RoomsAre.closesGates {source : Source} {b : Bundle}
    (h : source.RoomsAre b.compileGates) : source.ClosesGates := by
  intro id room hroom
  obtain ⟨rfl, hfound⟩ := h id room hroom
  exact ⟨rfl, Bundle.closesGates_of_compileGates hfound⟩

/-- What is known of the exits after what happened since the adventure was begun. -/
structure Player.KnowsExits (source : Source) (p : Player) (journal : List Event) : Prop where
  /-- What is recorded of an exit is what the last effect on it said. -/
  records : ∀ key, p.lockedExits.get? key = lastLock key journal
  /-- The player is somewhere, and all rooms that it has seen have their gated exits recorded,
  unless something was left out. -/
  seen : .leftOut ∈ journal ∨ p.HasArrived ∧
    ∀ id, p.hasVisited id = true → p.RecordsGates source id

/-- What happened without effects tells nothing of the exits. -/
theorem Player.KnowsExits.append {source : Source} {p : Player} {new journal : List Event}
    (h : p.KnowsExits source journal) (hnew : ∀ s, Event.performed s ∉ new) :
    p.KnowsExits source (new ++ journal) where
  records key := by
    rw [lastLock_append, lastLock_eq_none hnew, Option.none_or]
    exact h.records key
  seen := h.seen.imp_left fun hleft => List.mem_append_right _ hleft

namespace Play

variable {source : Source} {p q : Play} {journal : List Event}

/-- What was recorded of exits and what happened since is what is recorded of them now. -/
theorem Tracks.records (h : p.Tracks q)
    (hp : ∀ key, p.player.lockedExits.get? key = lastLock key (p.journal ++ journal))
    (key : String) : q.player.lockedExits.get? key = lastLock key (q.journal ++ journal) := by
  obtain ⟨new, hnew, hkey⟩ := h
  calc q.player.lockedExits.get? key
      = (lastLock key new).or (lastLock key (p.journal ++ journal)) := by rw [hkey, hp]
    _ = lastLock key (new ++ (p.journal ++ journal)) := (lastLock_append key new _).symm
    _ = lastLock key (q.journal ++ journal) := by rw [hnew, List.append_assoc]

/-- A player who lands has all that it has seen recorded, if it had before. -/
theorem Lands.seen (h : p.Lands source q) (htracks : p.Tracks q)
    (hp : ∀ id, p.player.hasVisited id = true → p.player.RecordsGates source id) :
    .leftOut ∈ q.journal ∨ q.player.HasArrived ∧
      ∀ id, q.player.hasVisited id = true → q.player.RecordsGates source id := by
  refine h.imp_right fun ⟨harrived, hafter⟩ => ⟨harrived, fun id hid => ?_⟩
  rcases hafter id hid with hbefore | hnow
  · exact htracks.recordsGates (hp id hbefore)
  · exact hnow

/-- A player who knows the exits knows them after passing some. -/
theorem Passes.knowsExits (h : p.Passes source q)
    (hp : p.player.KnowsExits source (p.journal ++ journal)) :
    q.player.KnowsExits source (q.journal ++ journal) where
  records := h.tracks.records hp.records
  seen := by
    rcases hp.seen with hleft | ⟨harrived, hseen⟩
    -- Nothing is asked for if something was left out before.
    · left
      rcases List.mem_append.mp hleft with hact | hbefore
      · exact List.mem_append_left _ (h.tracks.mem hact)
      · exact List.mem_append_right _ hbefore
    · exact ((h.lands harrived).seen h.tracks hseen).imp_left fun hleft =>
        List.mem_append_left _ hleft

end Play

namespace Session

open Promise (passage)

variable {source : Source}

/-- Showing the room of a player that was read from a save passes exits. -/
theorem proceed_passage (hsource : source.ClosesGates) : proceed.Keeps (passage source) := by
  have hcommands := Action.commands_passage hsource
  refine (hcommands.say _).keeps.bind fun _ => hcommands.player.keeps.bind fun _ => ?_
  exact fun p hp => (Scene.ends_enter_passage hsource _ hp).imp_ok fun _ _ hq => hq.1

/-- A line of input passes exits. -/
theorem input_passage (hsource : source.ClosesGates) (line : String) :
    (input line).Keeps (passage source) := by
  have hactive : requireActive.Keeps (passage source) := by
    intro p hp
    rw [ends_requireActive]
    exact ⟨fun _ => (passage source).refl hp, fun _ => trivial⟩
  have hworld : Act.world.Keeps (passage source) := fun p hp =>
    ((Discipline.bodily_quiet source).ask Library.faithful_getWorld p hp).imp_ok fun _ _ hq =>
      hq.1.passes
  exact hactive.bind fun _ => hworld.bind fun world => Action.perform_passage hsource world _

/-- A player who has seen nothing yet knows the exits after entering a room for the first time. -/
theorem enter_knowsExits (hsource : source.ClosesGates) {p : Play} (hp : p.Reads source)
    (hvisited : p.player.visited = .empty) (hexits : p.player.lockedExits = .empty)
    (hjournal : ∀ s, Event.performed s ∉ p.journal) :
    (Scene.enter true).Ends p (fun _ q => q.player.KnowsExits source q.journal)
      fun _ _ => True := by
  have hrecords : ∀ key, p.player.lockedExits.get? key = lastLock key (p.journal ++ []) := by
    intro key
    rw [List.append_nil, lastLock_eq_none hjournal, hexits]
    rfl
  have hseen : ∀ id, p.player.hasVisited id = true → p.player.RecordsGates source id := by
    intro id hid
    unfold Player.hasVisited at hid
    rw [hvisited] at hid
    cases hid
  refine (Scene.ends_enter_passage hsource true hp).imp_ok ?_
  intro _ q ⟨hpasses, hlands⟩
  refine ⟨fun key => ?_, (hlands (.inl rfl)).seen hpasses.tracks hseen⟩
  rw [hpasses.tracks.records hrecords, List.append_nil]

/-- A player who begins anew knows the exits. -/
theorem start_knowsExits (hsource : source.ClosesGates) {p : Play} (hp : p.Reads source)
    (hjournal : p.journal = []) :
    start.Ends p (fun _ q => q.player.KnowsExits source q.journal) fun _ _ => True := by
  have hasked := Play.Effectless.answered hp Library.faithful_getWorld
  unfold start Act.world
  rw [Act.ends_bind, Act.ends_ask]
  refine ⟨fun world _ => ?_, fun _ _ => trivial⟩
  unfold activate beginning
  simp only [Act.ends_bind, Act.ends_modify, Act.ends_get, Act.ends_pure, Act.ends_changePlayer]
  -- The state once the new player is there, who has seen no room.
  generalize hfresh : Play.changing _ _ = fresh
  have hbegun : p.Effectless source fresh := by
    rw [← hfresh]
    exact ⟨⟨hasked.reads.1, hasked.reads.2⟩, hasked.journal⟩
  have hplayer : fresh.player.visited = .empty ∧ fresh.player.lockedExits = .empty := by
    rw [← hfresh]
    exact ⟨rfl, rfl⟩
  rw [Act.ends_persist]
  refine ⟨fun _ => trivial, fun left _ => ?_⟩
  rw [Act.ends_say]
  -- Nothing that happens before the first room is an effect.
  have hpersisted := hbegun.trans (.persisted hbegun.reads left)
  have hsaid := hpersisted.trans
    (.noting hpersisted.reads (e := .said "Starte Adventure...") fun _ h => by cases h)
  obtain ⟨new, hnew, hquiet⟩ := hsaid.journal
  rw [hjournal, List.append_nil] at hnew
  rw [← hnew] at hquiet
  exact enter_knowsExits hsource hsaid.reads hplayer.1 hplayer.2 hquiet

/-- What a player knows of the exits is kept up along a run. -/
theorem invariant_knowsExits (hsource : source.ClosesGates) :
    Invariant source (Player.KnowsExits source) where
  start p hp hjournal := start_knowsExits hsource hp.reads hjournal
  proceed p journal hp hfetched hknows := by
    have hnew : ∀ s, Event.performed s ∉ p.journal := by
      intro s hs
      obtain ⟨path, hpath⟩ := hfetched _ hs
      cases hpath
    exact (proceed_passage hsource p hp.reads).imp_ok fun _ _ hq =>
      hq.knowsExits (hknows.append hnew)
  input line p journal hp hjournal hknows := by
    have hknows' : p.player.KnowsExits source (p.journal ++ journal) := by
      rw [hjournal]
      exact hknows
    exact (input_passage hsource line p hp.reads).imp_ok fun _ _ hq => hq.knowsExits hknows'
  said player lines journal h := h.append fun s => Event.performed_notMem_said s lines
  recalled _ _ := ⟨fun h => ⟨h.records, h.seen⟩, fun h => ⟨h.records, h.seen⟩⟩

/-- The castle has no rooms but the hall and the tower. -/
theorem eq_of_read_castle {id : String} {room : Room}
    (h : Library.read castle "rooms" id = .ok room) : id = "hall" ∨ id = "tower" := by
  have hpath : ∃ text, castle ("rooms/" ++ (id ++ ".json")) = .ok text := by
    have hsame : Library.documentPath "rooms" id = "rooms/" ++ (id ++ ".json") :=
      String.append_assoc ..
    unfold Library.read Library.fetch at h
    rw [hsame] at h
    cases hcastle : castle ("rooms/" ++ (id ++ ".json")) with
    | ok text => exact ⟨text, rfl⟩
    | error e =>
      rw [hcastle] at h
      split at h <;> cases h
  -- A path of a room determines the name of the room, and begins unlike the other paths.
  have hname : ∀ name : String, "rooms/" ++ (id ++ ".json") = "rooms/" ++ (name ++ ".json") →
      id = name := fun name heq =>
    (String.append_left_inj _).mp ((String.append_right_inj _).mp heq)
  have hhead : ("rooms/" ++ (id ++ ".json")).toList.head? = some 'r' := by
    rw [String.toList_append]
    rfl
  -- The castle has four documents, and two of them are rooms.
  obtain ⟨text, htext⟩ := hpath
  unfold castle at htext
  split at htext
  · next heq =>
    rw [heq] at hhead
    cases hhead
  · next heq => exact .inl (hname "hall" heq)
  · next heq => exact .inr (hname "tower" heq)
  · next heq =>
    rw [heq] at hhead
    cases hhead
  · cases htext

/-- A room of the castle can be checked by reading it. -/
theorem exists_of_read_castle (id : String) (check : Room → Bool)
    (h : ((Library.read castle "rooms" id : Except Failure Room).toOption.any check) = true) :
    ∃ r : Room, Library.read castle "rooms" id = .ok r ∧ check r = true :=
  Library.exists_of_any h

/-- The rooms of the castle are those of a compiled bundle, and the exit of the hall to the north is
gated. -/
theorem exists_castle_bundle :
    ∃ (b : Bundle) (hall : Room), castle.RoomsAre b.compileGates ∧
      Library.read castle "rooms" "hall" = .ok hall ∧ hall.Gated "nord" := by
  obtain ⟨hall, hhall, hchecked⟩ := exists_of_read_castle "hall" (fun r =>
    (r.id == "hall" && r.locksGates) &&
      (r.exitMeta.get? "nord").any fun m => m.flag.isSome || m.objectId.isSome) (by decide +kernel)
  obtain ⟨tower, htower, hchecked'⟩ := exists_of_read_castle "tower"
    (fun r => r.id == "tower" && r.locksGates) (by decide +kernel)
  rw [Bool.and_eq_true, Bool.and_eq_true, beq_iff_eq] at hchecked
  rw [Bool.and_eq_true, beq_iff_eq] at hchecked'
  obtain ⟨⟨hid, hlocks⟩, hmeta⟩ := hchecked
  obtain ⟨hid', hlocks'⟩ := hchecked'
  -- The bundle was compiled before, so compiling it again leaves its rooms as they are.
  have hentries : ∀ e ∈ ((Bundle.empty.addRoom tower).addRoom hall).rooms.entries,
      e.2.id = e.1 ∧ e.2.locksGates = true := by
    intro e he
    rcases Table.mem_of_mem_insert he with rfl | he
    · exact ⟨rfl, hlocks⟩
    · rcases Table.mem_of_mem_insert he with rfl | he
      · exact ⟨rfl, hlocks'⟩
      · cases he
  have hfound : ∀ key, ((Bundle.empty.addRoom tower).addRoom hall).rooms.get? key =
      if key = "hall" then some hall else if key = "tower" then some tower else none := by
    intro key
    unfold Bundle.addRoom
    rw [Table.get?_insert, Table.get?_insert, hid, hid']
    rfl
  -- What the source reads is then what the bundle has.
  refine ⟨(Bundle.empty.addRoom tower).addRoom hall, hall, fun key room hroom => ?_, hhall, ?_⟩
  · rw [Bundle.rooms_compileGates_eq_self hentries, hfound]
    rcases eq_of_read_castle hroom with rfl | rfl
    · rw [hhall] at hroom
      cases hroom
      exact ⟨hid, rfl⟩
    · rw [htower] at hroom
      cases hroom
      exact ⟨hid', rfl⟩
  · obtain ⟨m, hm, hnamed⟩ := (Option.any_eq_true _ _).mp hmeta
    rw [Bool.or_eq_true] at hnamed
    exact ⟨m, hm, hnamed⟩

/-- A gated exit is passed only after it was opened: after a run over the rooms of a compiled bundle
in which every request succeeded and nothing was left out for want of levels, if a command to go
takes the player out of a room through a gated exit, then the last effect on this exit since the
adventure was begun opened it.

`ShowsRoom` stands for a command to go that moved the player: a command to go that succeeds shows a
room whenever the player is not as before (`showsRoom_of_moved`), and it also shows one if the exit
leads back into the same room. -/
theorem opened_before_passed {s : Session} {saves : Saves} {journal : List Event} {b : Bundle}
    {line : String} {room : Room} (h : Reached source s saves journal)
    (hrooms : source.RoomsAre b.compileGates) (hlevels : .leftOut ∉ journal)
    (hgo : (Command.parse line).verb = .go)
    (hpassed : (s.handle source saves (.input line)).ShowsRoom)
    (hroom : Library.read source "rooms" s.player.location = .ok room)
    (hgated : room.Gated (Action.exitName (Command.parse line))) :
    lastLock (Player.exitKey room.id (Action.exitName (Command.parse line))) journal =
      some false := by
  -- A session that shows a room takes input, so its player knows the exits.
  have hinvariant := invariant_knowsExits hrooms.closesGates
  have hsettled := h.settled hinvariant
  obtain ⟨hactive, -, hout⟩ := hasWayOut_of_showsRoom hsettled.agrees hgo hpassed
  have hknows := hsettled.holds hinvariant hactive
  have hopen := ((Player.hasWayOut_iff hroom).mp hout).2
  -- The player has seen the room, so the exit is recorded, and it was not closed.
  rcases hknows.seen with hleft | ⟨harrived, hseen⟩
  · exact absurd hleft hlevels
  have hrecorded := hseen _ harrived room hroom _ hgated
  obtain ⟨locked, hlocked⟩ := Option.isSome_iff_exists.mp hrecorded
  have hfree : locked = false := by
    unfold Player.isExitLocked at hopen
    rw [hlocked] at hopen
    exact hopen
  calc lastLock (Player.exitKey room.id (Action.exitName (Command.parse line))) journal
      = s.player.lockedExits.get? (Player.exitKey room.id (Action.exitName (Command.parse line))) :=
        (hknows.records _).symm
    _ = some locked := hlocked
    _ = some false := by rw [hfree]

/-- After the lever of the castle was used, the player may go north. -/
theorem opened_before_passed_castle : ∃ hall : Room,
    Library.read castle "rooms" leverUsed.session.player.location = .ok hall ∧
      (leverUsed.session.handle castle leverUsed.saves (.input "n")).ShowsRoom ∧
      lastLock (Player.exitKey hall.id "nord") (leverUsed.journal ++ castleBegun.journal) =
        some false := by
  obtain ⟨b, hall, hrooms, hhall, hgated⟩ := exists_castle_bundle
  have hexit : Action.exitName (Command.parse "n") = "nord" ∧ (Command.parse "n").verb = .go := by
    decide +kernel
  have hchecked : leverUsed.session.player.location = "hall" ∧
      (leverUsed.session.handle castle leverUsed.saves (.input "n")).ShowsRoom ∧
      (leverUsed.journal ++ castleBegun.journal).all (fun e =>
        match e with
        | .leftOut => false
        | _ => true) = true := by decide +kernel
  obtain ⟨hlocation, hpassed, hnone⟩ := hchecked
  have hlevels : Event.leftOut ∉ leverUsed.journal ++ castleBegun.journal := fun hleft =>
    absurd (List.all_eq_true.mp hnone _ hleft) (by simp)
  have hroom : Library.read castle "rooms" leverUsed.session.player.location = .ok hall := by
    rw [hlocation]
    exact hhall
  rw [← hexit.1] at hgated ⊢
  exact ⟨hall, hroom, hpassed,
    opened_before_passed reached_leverUsed hrooms hlevels hexit.2 hpassed hroom hgated⟩

end Session

end TextAdventure
