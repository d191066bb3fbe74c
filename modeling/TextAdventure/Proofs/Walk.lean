import TextAdventure.Proofs.Frame
import TextAdventure.Proofs.Run
import TextAdventure.Proofs.Upkeep

/-!
# Players walk through open exits

Over a source whose scripts hold no transition (`Source.Stays`) nothing but a command to go moves
the player. Scripts at every level, fights and all other commands keep up that the player is in one
room (`Play.upkeep_stays`), whether they succeed or fail. A command to go that moves the player
takes it through an exit that the room declares and that is open (`Action.ends_move_passed`), and
the room behind it cannot move the player on. So the rooms along any lines of input are a walk
(`Session.walks_through_open_exits`).
-/

namespace TextAdventure

/-- A step that does not take the player to another room, whatever script it runs. -/
inductive Step.Stays : Step → Prop where
  /-- Neither of the scripts of a branch does. -/
  | branch {key : String} {equals : Json} {onMatch otherwise : Script}
    (hmatch : ∀ s ∈ onMatch, s.Stays) (hotherwise : ∀ s ∈ otherwise, s.Stays) :
    Stays (.branch key equals onMatch otherwise)
  /-- Any other step that is no transition. -/
  | other {s : Step} (htransition : ∀ room, s ≠ .transition room)
    (hbranch : ∀ key equals onMatch otherwise, s ≠ .branch key equals onMatch otherwise) : Stays s

/-- No script of a source takes the player to another room. -/
structure Source.Stays (source : Source) : Prop where
  /-- The scripts of the rooms. -/
  rooms : ∀ id (r : Room), Library.read source "rooms" id = .ok r → r.ScriptsAre Step.Stays
  /-- The scripts of the items. -/
  items : ∀ id (i : Item), Library.read source "items" id = .ok i → i.ScriptsAre Step.Stays
  /-- The scripts of the fixtures. -/
  fixtures : ∀ id (f : Fixture), Library.read source "objects" id = .ok f →
    f.ScriptsAre Step.Stays

/-- The player can go from its room to another one through an exit: its room declares where the exit
leads, and what was recorded last for the exit is not that it is closed. -/
def Player.CanPass (source : Source) (p : Player) (exit destination : String) : Prop :=
  ∃ r : Room, Library.read source "rooms" p.location = .ok r ∧
    r.exits.get? exit = some destination ∧
    p.lockedExits.get? (Player.exitKey r.id exit) ≠ some true

/-- A line of input leads to a location: the one where the player was, or one to which it can go
through the exit that a command to go means, if it is in no fight. -/
def Player.Leads (source : Source) (p : Player) (line location : String) : Prop :=
  location = p.location ∨
    (Command.parse line).verb = .go ∧ p.inCombat = false ∧
      p.CanPass source (Action.exitName (Command.parse line)) location

/-- An exit that is not closed is not recorded as closed. -/
theorem Player.get?_ne_of_not_locked {p : Player} {room exit : String}
    (h : p.isExitLocked room exit = false) :
    p.lockedExits.get? (exitKey room exit) ≠ some true := by
  intro hlocked
  unfold isExitLocked at h
  rw [hlocked] at h
  cases h

/-- Every change in play leaves the player in its room, if no script takes it to another one. -/
theorem Player.upheld_stays (room : String) :
    Upheld (fun p => p.location = room) Step.Stays where
  -- A transition is what such a script does not have.
  transition hs := by
    cases hs with
    | other htransition _ => exact absurd rfl (htransition _)
  strengthen h _ := h
  addItem h id := ((samePlace_addItem _ id).location).trans h
  takeItem h listed id := ((samePlace_takeItem _ listed id).location).trans h
  markVisited h _ := h
  beginCombat h _ := h
  endCombat h := h
  strike h _ _ := h
  -- A revision leaves the player where it is.
  revision {s r} _ hr p h := by
    cases hr using Step.cases_of_revision? with
    | setFlag _ _ =>
      exact h
    | addItem id =>
      exact ((p.samePlace_addItem id).location).trans h
    | removeItem _ =>
      exact h
    | unlockExit _ _ =>
      exact h
    | lockExit _ _ =>
      exact h

/-- The library agrees with the source, and the player is in a room. -/
structure Play.StaysAt (source : Source) (room : String) (p : Play) : Prop where
  /-- The library agrees with the source. -/
  reads : p.Reads source
  /-- The player is in the room. -/
  location : p.player.location = room

open Promise (invariant)

variable {source : Source} {room : String}

/-- A faithful question is answered by what the source has, and leaves the player in its room. -/
theorem Act.ask_staysAt {α : Type} {request : Source → Library → Library.Answer α}
    {P : α → Prop} (h : Library.Faithful request)
    (hpost : ∀ l a, Library.Agrees source l → (request source l).result = .ok a → P a) :
    (ask request).Yields (invariant (Play.StaysAt source room)) P := by
  intro p hp
  have hq : (p.answered (request p.source p.library)).StaysAt source room :=
    ⟨hp.reads.answered h, hp.location⟩
  rw [ends_ask]
  refine ⟨fun a ha => ⟨hq, ?_⟩, fun _ _ => hq⟩
  rw [hp.reads.fromSource] at ha
  exact hpost p.library a hp.reads.agrees ha

/-- Play leaves the player in its room if no script takes it to another one. -/
theorem Play.upkeep_stays (hsource : source.Stays) (room : String) :
    Upkeep (Play.StaysAt source room) (fun p => p.location = room) Step.Stays where
  upheld := Player.upheld_stays room
  player hp := hp.location
  beside hp hq hbeside :=
    ⟨⟨hbeside.source.trans hp.reads.fromSource, hbeside.library ▸ hp.reads.agrees⟩, hq⟩
  world := (Act.ask_staysAt (P := fun _ => True) Library.faithful_getWorld
    fun _ _ _ _ => trivial).keeps
  enemy id := (Act.ask_staysAt (P := fun _ => True) (Library.faithful_getEnemy id)
    fun _ _ _ _ => trivial).keeps
  art path := (Act.ask_staysAt (P := fun _ => True) (Library.faithful_getArt path)
    fun _ _ _ _ => trivial).keeps
  room id := Act.ask_staysAt (Library.faithful_getRoom id) fun l r hl hr =>
    hsource.rooms id r ((hl.getRoom id).1 ▸ hr)
  item id := Act.ask_staysAt (Library.faithful_getItem id) fun l i hl hi =>
    hsource.items id i ((hl.getItem id).1 ▸ hi)
  fixture id := Act.ask_staysAt (Library.faithful_getFixture id) fun l f hl hf =>
    hsource.fixtures id f ((hl.getFixture id).1 ▸ hf)
  branch hs := by
    cases hs with
    | branch hmatch hotherwise => exact ⟨hmatch, hotherwise⟩
    | other _ hbranch => exact absurd rfl (hbranch _ _ _ _)

/-- The player is where it was, or at the other end of an exit that was open. -/
structure Play.Passed (source : Source) (exit : String) (p q : Play) : Prop where
  /-- The library agrees with the source. -/
  reads : q.Reads source
  /-- The player is in its room or behind the exit. -/
  location : q.player.location = p.player.location ∨
    p.player.CanPass source exit q.player.location

namespace Action

variable {p : Play}

/-- Going somewhere ends there, whether it succeeds or fails. -/
theorem ends_goTo_staysAt (hsource : source.Stays) (destination : String) (hp : p.Reads source) :
    (goTo destination).Ends p (fun _ q => q.StaysAt source destination)
      fun _ q => q.StaysAt source destination := by
  have hupkeep := Play.upkeep_stays hsource destination
  have hmoved : (p.changing fun q => { q with location := destination }).StaysAt source
      destination := ⟨⟨hp.1, hp.2⟩, rfl⟩
  have hrest : Act.Keeps (invariant (Play.StaysAt source destination)) (do
      Act.persist
      Scene.enter (!(← Act.player).hasVisited destination)) :=
    hupkeep.persist.bind fun _ => Act.keeps_player.bind fun _ => hupkeep.enter _
  unfold goTo
  rw [Act.ends_bind, Act.ends_changePlayer]
  exact hrest _ hmoved

/-- Going through an exit leaves the player where it is, or takes it to where the exit leads if it
is open, whether it succeeds or fails. -/
theorem ends_move_passed (hsource : source.Stays) (messages : Messages) (command : Command)
    (hp : p.Reads source) :
    (move messages command).Ends p (fun _ => p.Passed source (exitName command))
      fun _ => p.Passed source (exitName command) := by
  have hasked := hp.answered (Library.faithful_getRoom p.player.location)
  unfold move currentRoom Act.room
  rw [Act.ends_bind, Act.ends_bind, Act.ends_player, Act.ends_ask]
  -- A room that cannot be read is not left.
  refine ⟨fun r hr => ?_, fun _ _ => ⟨hasked, .inl rfl⟩⟩
  rw [hp.fromSource, (hp.agrees.getRoom _).1] at hr
  -- Without an exit, or with a closed one, the player is only told so.
  cases hexit : r.exits.get? (exitName command) with
  | none =>
    simp only [hexit, Act.ends_say]
    exact ⟨⟨hasked.1, hasked.2⟩, .inl rfl⟩
  | some destination =>
    simp only [hexit, Act.ends_bind, Act.ends_player]
    split
    · rw [Act.ends_say]
      exact ⟨⟨hasked.1, hasked.2⟩, .inl rfl⟩
    -- An open exit was passed even if the room behind it cannot be shown.
    · next hopen =>
      have hpass : p.player.CanPass source (exitName command) destination :=
        ⟨r, hr, hexit, Player.get?_ne_of_not_locked (Bool.eq_false_iff.mpr hopen)⟩
      have hthere : ∀ q : Play, q.StaysAt source destination →
          p.Passed source (exitName command) q :=
        fun q hq => ⟨hq.reads, .inr (hq.location.symm ▸ hpass)⟩
      exact (ends_goTo_staysAt hsource destination hasked).imp (fun _ => hthere) fun _ => hthere

/-- A command leaves the player where it is, or takes it to where the exit leads that a command to
go means, if the exit is open and no fight is on. -/
theorem ends_perform_passed (hsource : source.Stays) (world : World) (command : Command)
    (hp : p.Reads source) :
    let passed := fun q : Play => q.Reads source ∧ (q.player.location = p.player.location ∨
      command.verb = .go ∧ p.player.inCombat = false ∧
        p.player.CanPass source (exitName command) q.player.location)
    (perform world command).Ends p (fun _ => passed) fun _ => passed := by
  intro passed
  have hupkeep := Play.upkeep_stays hsource p.player.location
  have hhere : p.StaysAt source p.player.location := ⟨hp, rfl⟩
  have hstays : ∀ q : Play, q.StaysAt source p.player.location → passed q := fun q hq =>
    ⟨hq.reads, .inl hq.location⟩
  unfold perform
  rw [Act.ends_bind, Act.ends_player]
  split
  · rw [Act.ends_discard]
    exact (hupkeep.answer _ _ p hhere).imp (fun _ => hstays) fun _ => hstays
  · next hfree =>
    by_cases hgo : command.verb = .go
    · have hgoes : ∀ q : Play, p.Passed source (exitName command) q → passed q := fun q hq =>
        ⟨hq.reads, hq.location.imp id fun hpass => ⟨hgo, Bool.eq_false_iff.mpr hfree, hpass⟩⟩
      unfold explore
      rw [hgo]
      exact (ends_move_passed hsource world.messages command hp).imp (fun _ => hgoes)
        fun _ => hgoes
    · have hchores := (hupkeep.chores.explore world.messages hgo).keeps
      exact (hchores p hhere).imp (fun _ => hstays) fun _ => hstays

end Action

namespace Session

variable {s : Session} {saves : Saves}

/-- A line of input leads to where the player is afterwards, whether it is carried out or fails and
whatever the store does, and the library still agrees with the source. -/
theorem handle_leads (hsource : source.Stays) (hagrees : Library.Agrees source s.library)
    (line : String) (saves : Saves) :
    let t := (s.handle source saves (.input line)).session
    Library.Agrees source t.library ∧ s.player.Leads source line t.player.location := by
  have hp : (s.play source saves).Reads source := ⟨rfl, hagrees⟩
  have hasked := hp.answered Library.faithful_getWorld
  refine handle_of_both_ends (r := .input line) (J := fun t _ _ =>
    Library.Agrees source t.library ∧ s.player.Leads source line t.player.location) ?_
  show (input line).Ends _ _ _
  unfold input Act.world
  rw [Act.ends_bind, ends_requireActive]
  refine ⟨fun _ => ?_, fun _ => ⟨hagrees, .inl rfl⟩⟩
  rw [Act.ends_bind, Act.ends_ask]
  refine ⟨fun world _ => ?_, fun _ _ => ⟨hasked.agrees, .inl rfl⟩⟩
  exact (Action.ends_perform_passed hsource world (Command.parse line) hasked).imp
    (fun _ q hq => ⟨hq.1.agrees, hq.2⟩) fun _ q hq => ⟨hq.1.agrees, hq.2⟩

/-- Lines are typed one after the other, each with a store that holds anything and fails in any way,
and each leads from where the player was to where it is afterwards. -/
def Walks (source : Source) : Session → List (String × Saves) → Prop
  | _, [] => True
  | s, (line, saves) :: rest =>
    let t := (s.handle source saves (.input line)).session
    s.player.Leads source line t.player.location ∧ Walks source t rest

/-- Players move only through exits that the rooms declare and that are open. Over a source without
transitions every line of input, carried out or not, leaves the player where it is or takes it to
where the exit leads that a command to go means; then no fight was on, and the exit was not recorded
as closed. So the rooms along any lines are a walk through exits that were open when they were
taken. -/
theorem walks_through_open_exits (hsource : source.Stays) (s : Session)
    (hagrees : Library.Agrees source s.library) :
    (∀ (line : String) (saves : Saves), s.player.Leads source line
        (s.handle source saves (.input line)).session.player.location) ∧
      ∀ inputs : List (String × Saves), s.Walks source inputs := by
  refine ⟨fun line saves => (handle_leads hsource hagrees line saves).2, fun inputs => ?_⟩
  induction inputs generalizing s with
  | nil => trivial
  | cons typed rest ih =>
    obtain ⟨hthen, hleads⟩ := handle_leads hsource hagrees typed.1 typed.2
    exact ⟨hleads, ih _ hthen⟩

/-- The paths at which the castle has something. -/
def castlePaths : List String :=
  ["world.json", "rooms/hall.json", "rooms/tower.json", "objects/lever.json"]

/-- The castle has nothing at other paths. -/
theorem mem_castlePaths {path text : String} (h : castle path = .ok text) :
    path ∈ castlePaths := by
  unfold castle at h
  split at h
  all_goals first
    | decide
    | cases h

/-- All documents of a kind in the castle pass a check if what is at the paths of this kind does. -/
theorem check_of_read_castle {α : Type} [Document α] (check : α → Bool) {kind id : String}
    {doc : α} (h : Library.read castle kind id = .ok doc)
    (hcheck : (castlePaths.filter fun path => kind.toList.isPrefixOf path.toList).all (fun path =>
      (castle path).toOption.all fun text => (Document.ofText? text : Option α).all check) = true) :
    check doc = true := by
  obtain ⟨text, htext, hdoc⟩ := Library.exists_text_of_read h
  have hkind : kind.toList.isPrefixOf (Library.documentPath kind id).toList = true := by
    unfold Library.documentPath
    simp only [String.toList_append, List.append_assoc]
    exact List.isPrefixOf_iff_prefix.mpr (List.prefix_append _ _)
  have hmem := (List.mem_filter (p := fun path : String => kind.toList.isPrefixOf path.toList)).mpr
    ⟨mem_castlePaths htext, hkind⟩
  have hchecked := List.all_eq_true.mp hcheck _ hmem
  simp only [htext, Except.toOption, Option.all_some, hdoc] at hchecked
  exact hchecked

/-- Whether a step closes or opens an exit. -/
def turnsExit : Step → Bool
  | .unlockExit _ _ => true
  | .lockExit _ _ => true
  | _ => false

/-- Steps that close or open exits take the player nowhere. -/
theorem stays_of_turnsExit {script : Script} (h : script.all turnsExit = true) :
    ∀ s ∈ script, s.Stays := by
  intro s hs
  have hturns := List.all_eq_true.mp h s hs
  cases s with
  | unlockExit _ _ => exact .other (fun _ => nofun) fun _ _ _ _ => nofun
  | lockExit _ _ => exact .other (fun _ => nofun) fun _ _ _ _ => nofun
  | _ => cases hturns

/-- The scripts of the castle only close and open exits. -/
theorem stays_castle : castle.Stays where
  rooms id r hr := by
    have hcheck := check_of_read_castle
      (fun r : Room => r.onFirstEnter.all turnsExit && r.onEnter.all turnsExit) hr
      (by decide +kernel)
    obtain ⟨hfirst, hagain⟩ := Bool.and_eq_true_iff.mp hcheck
    exact ⟨stays_of_turnsExit hfirst, stays_of_turnsExit hagain⟩
  items id i hi := by
    have hcheck := check_of_read_castle
      (fun i : Item => i.onUse.all turnsExit && i.combine.values.all (·.all turnsExit)) hi
      (by decide +kernel)
    obtain ⟨huse, hcombine⟩ := Bool.and_eq_true_iff.mp hcheck
    refine ⟨stays_of_turnsExit huse, fun key script hscript => ?_⟩
    have hmem : script ∈ i.combine.values := List.mem_map_of_mem (Table.mem_of_get? hscript)
    exact stays_of_turnsExit (List.all_eq_true.mp hcombine script hmem)
  fixtures id f hf := by
    have hcheck := check_of_read_castle
      (fun f : Fixture =>
        f.inspect.all turnsExit && f.use.all turnsExit && f.onLockedUse.all turnsExit) hf
      (by decide +kernel)
    obtain ⟨hboth, hlocked⟩ := Bool.and_eq_true_iff.mp hcheck
    obtain ⟨hinspect, huse⟩ := Bool.and_eq_true_iff.mp hboth
    exact ⟨stays_of_turnsExit hinspect, stays_of_turnsExit huse, stays_of_turnsExit hlocked⟩

/-- North is tried, then the lever is used, then north is tried again; nothing can be saved. -/
def linesInCastle : List (String × Saves) :=
  ["n", "benutze lever", "n"].map fun line => (line, { Saves.empty with puts := some 0 })

/-- In the castle every line leads to where the player is then, although nothing can be saved. -/
theorem walks_in_castle :
    (castle.Stays ∧ Library.Agrees castle castleBegun.session.library) ∧
      (∀ (line : String) (saves : Saves), castleBegun.session.player.Leads castle line
        (castleBegun.session.handle castle saves (.input line)).session.player.location) ∧
      castleBegun.session.Walks castle linesInCastle := by
  have hok : castleBegun.Succeeds := by decide +kernel
  have hreached : Reached castle castleBegun.session castleBegun.saves castleBegun.journal :=
    .start rfl hok
  have hagrees := (hreached.settled (invariant_true castle)).agrees
  have hwalks := walks_through_open_exits stays_castle castleBegun.session hagrees
  exact ⟨⟨stays_castle, hagrees⟩, hwalks.1, hwalks.2 linesInCastle⟩

end Session

end TextAdventure
