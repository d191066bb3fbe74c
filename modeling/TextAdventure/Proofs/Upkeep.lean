import TextAdventure.Proofs.Elementary
import TextAdventure.Proofs.Step

/-!
# What is never given up

`Player.Upheld` lists the changes that play makes to a player, each of which has to keep a property
of the player. Striking the enemy is the one change that depends on what came before it: the enemy
that is struck is the one that was there. `Play.Upkeep` is a property of states of play that is
upheld in this way; scripts at every level and fights keep it, whether they succeed or fail, and so
do commands (`Play.Upkeep.perform`) if it does not matter to the property in which room the player
is (`Player.Anywhere`).
-/

namespace TextAdventure

/-- An invariant, whether acts succeed or fail. -/
def Promise.invariant (inv : Play → Prop) : Promise where
  inv := inv
  ok _ q := inv q
  failed _ _ q := inv q
  again _ hq := hq
  refl hp := hp
  trans _ hr := hr
  failed_after _ hr := hr

/-- A property of players that every change in play keeps, if scripts consist of good steps. -/
structure Player.Upheld (P : Player → Prop) (good : Step → Prop) : Prop where
  /-- A good transition takes the player to another room. -/
  transition : ∀ {room : String}, good (.transition room) → ∀ {p : Player}, P p →
    P { p with location := room }
  /-- The strength of the player changes. -/
  strengthen : ∀ {p : Player}, P p → ∀ stats, P { p with stats := stats }
  /-- The player gets an item. -/
  addItem : ∀ {p : Player}, P p → ∀ id, P (p.addItem id)
  /-- The player takes an item. -/
  takeItem : ∀ {p : Player}, P p → ∀ listed id, P (p.takeItem listed id)
  /-- The player sees a room. -/
  markVisited : ∀ {p : Player}, P p → ∀ room, P (p.markVisited room)
  /-- A fight begins. -/
  beginCombat : ∀ {p : Player}, P p → ∀ enemy, P (p.beginCombat enemy)
  /-- A fight ends. -/
  endCombat : ∀ {p : Player}, P p → P p.endCombat
  /-- The enemy that is there is struck. -/
  strike : ∀ {p : Player} {enemy : Enemy}, P p → p.enemy = some enemy →
    ∀ struck, P { p with enemy := some struck }
  /-- A good step makes its change. -/
  revision : ∀ {s : Step} {r : Step.Revision}, good s → s.revision? = some r →
    ∀ {p : Player}, P p → P (r.change p)

/-- Two properties of players that are upheld are upheld together. -/
theorem Player.Upheld.and {P P' : Player → Prop} {good : Step → Prop} (h : Upheld P good)
    (h' : Upheld P' good) : Upheld (fun p => P p ∧ P' p) good where
  transition hs _ hp := ⟨h.transition hs hp.1, h'.transition hs hp.2⟩
  strengthen hp stats := ⟨h.strengthen hp.1 stats, h'.strengthen hp.2 stats⟩
  addItem hp id := ⟨h.addItem hp.1 id, h'.addItem hp.2 id⟩
  takeItem hp listed id := ⟨h.takeItem hp.1 listed id, h'.takeItem hp.2 listed id⟩
  markVisited hp room := ⟨h.markVisited hp.1 room, h'.markVisited hp.2 room⟩
  beginCombat hp enemy := ⟨h.beginCombat hp.1 enemy, h'.beginCombat hp.2 enemy⟩
  endCombat hp := ⟨h.endCombat hp.1, h'.endCombat hp.2⟩
  strike hp henemy struck := ⟨h.strike hp.1 henemy struck, h'.strike hp.2 henemy struck⟩
  revision hs hr _ hp := ⟨h.revision hs hr hp.1, h'.revision hs hr hp.2⟩

/-- A property of players for which it does not matter in which room they are. -/
def Player.Anywhere (P : Player → Prop) : Prop :=
  ∀ {p : Player}, P p → ∀ room, P { p with location := room }

/-- All that changes between two states is the player, the journal and what the store has under the
player's key, which may be the player as it is now. -/
structure Play.Beside (p q : Play) : Prop where
  /-- The source stays. -/
  source : q.source = p.source
  /-- The library stays. -/
  library : q.library = p.library
  /-- The key of the save stays. -/
  saveKey : q.saveKey = p.saveKey
  /-- The store stays, or has the player as it is now. -/
  entries : q.saves.entries = p.saves.entries ∨
    q.saves.entries = p.saves.entries.insert p.saveKey q.player.save

/-- A property of states of play that holds of the player an upheld property, and is otherwise a
matter of the source, the library and the player's save; the library gives good scripts. -/
structure Play.Upkeep (inv : Play → Prop) (P : Player → Prop) (good : Step → Prop) : Prop where
  /-- What is known of the player is upheld. -/
  upheld : Player.Upheld P good
  /-- It is known of the player. -/
  player : ∀ {p}, inv p → P p.player
  /-- It stays if no more than the player changes, and the player keeps what is known of it. -/
  beside : ∀ {p q : Play}, inv p → P q.player → p.Beside q → inv q
  /-- Asking for the world keeps it. -/
  world : Act.world.Keeps (Promise.invariant inv)
  /-- Asking for an enemy keeps it. -/
  enemy : ∀ id, (Act.enemy id).Keeps (Promise.invariant inv)
  /-- Asking for a picture keeps it. -/
  art : ∀ path,
    (Act.ask fun source => Library.getArt source path).Keeps (Promise.invariant inv)
  /-- Rooms come with good scripts. -/
  room : ∀ id, (Act.room id).Yields (Promise.invariant inv) (Room.ScriptsAre good)
  /-- Items come with good scripts. -/
  item : ∀ id, (Act.item id).Yields (Promise.invariant inv) (Item.ScriptsAre good)
  /-- Fixtures come with good scripts. -/
  fixture : ∀ id, (Act.fixture id).Yields (Promise.invariant inv) (Fixture.ScriptsAre good)
  /-- The scripts of a good branch are good. -/
  branch : ∀ {key equals onMatch otherwise}, good (.branch key equals onMatch otherwise) →
    (∀ s ∈ onMatch, good s) ∧ ∀ s ∈ otherwise, good s

namespace Play.Upkeep

open Promise (invariant)

variable {inv : Play → Prop} {P : Player → Prop} {good : Step → Prop} (h : Upkeep inv P good)

include h

/-- A change of the player that keeps what is known of it keeps the property. -/
theorem same {p q : Play} (hp : inv p) (hq : P q.player) (hsource : q.source = p.source)
    (hlibrary : q.library = p.library) (hkey : q.saveKey = p.saveKey)
    (hsaves : q.saves = p.saves) : inv q :=
  h.beside hp hq ⟨hsource, hlibrary, hkey, .inl (congrArg Saves.entries hsaves)⟩

/-- What adds no more than an event keeps the property. -/
theorem untouched {p q : Play} (hp : inv p) (hsession : q.toSession = p.toSession)
    (hsource : q.source = p.source) (hsaves : q.saves = p.saves) : inv q :=
  h.same hp (hsession ▸ h.player hp) hsource (congrArg Session.library hsession)
    (congrArg Session.saveKey hsession) hsaves

/-! ### The smallest acts -/

/-- Entering an event into the journal. -/
theorem note (e : Event) : (Act.note e).Keeps (invariant inv) :=
  fun _ hp => h.untouched hp rfl rfl rfl

/-- Saying a line. -/
theorem say (line : String) : (Act.say line).Keeps (invariant inv) := h.note _

/-- Saying several lines. -/
theorem sayAll (lines : List String) : (Act.sayAll lines).Keeps (invariant inv) := by
  intro p hp
  rw [Act.ends_sayAll]
  exact h.untouched hp rfl rfl rfl

/-- Writing the player. -/
theorem persist : Act.persist.Keeps (invariant inv) := by
  intro p hp
  have hP : P p.player := h.player hp
  rw [Act.ends_persist]
  exact ⟨fun _ => hp, fun _ _ => h.beside hp hP ⟨rfl, rfl, rfl, .inr rfl⟩⟩

/-- A change of the player that keeps what is known of it. -/
theorem changePlayer {change : Player → Player} (hchange : ∀ p, P p → P (change p)) :
    (Act.changePlayer change).Keeps (invariant inv) :=
  fun p hp => h.same hp (hchange p.player (h.player hp)) rfl rfl rfl rfl

/-- Showing a picture. -/
theorem showArt (path : String) : (Act.showArt path).Keeps (invariant inv) :=
  (h.art path).bind fun _ => h.sayAll _

/-! ### Fights -/

/-- Starting a fight. -/
theorem startFight (id : String) : (Fight.start id).Keeps (invariant inv) := by
  refine (h.enemy id).bind fun enemy => ?_
  refine (h.changePlayer fun _ hp => h.upheld.beginCombat hp enemy).bind fun _ => ?_
  have hrest : Act.Keeps (invariant inv) (do
      Act.sayAll (Fight.announcement enemy)
      Act.persist) := (h.sayAll _).bind fun _ => h.persist
  cases enemy.ascii with
  | none => exact hrest
  | some art => exact (h.showArt art.file).bind fun _ => hrest

/-- Getting what an enemy has dropped. -/
theorem loot (id : String) : (Fight.loot id).Keeps (invariant inv) := by
  refine Act.keeps_player.bind fun player => ?_
  refine (h.changePlayer fun _ hp => h.upheld.addItem hp id).bind fun _ => ?_
  cases player.hasItem id with
  | true => exact Act.keeps_pure ()
  | false => exact h.say _

/-- Winning a fight. -/
theorem win (enemy : Enemy) : (Fight.win enemy).Keeps (invariant inv) := by
  have hloot : (enemy.drops.forM Fight.loot).Keeps (invariant inv) := by
    induction enemy.drops with
    | nil => exact Act.keeps_pure ()
    | cons drop drops ih => exact (h.loot drop).bind fun _ => ih
  exact (h.say _).bind fun _ => hloot.bind fun _ =>
    (h.changePlayer fun _ hp => h.upheld.endCombat hp).bind fun _ =>
      h.persist.bind fun _ => Act.keeps_pure _

/-- The blow of the enemy. -/
theorem counter (enemy : Enemy) : (Fight.counter enemy).Keeps (invariant inv) := by
  refine Act.keeps_player.bind fun player => ?_
  refine (h.changePlayer fun _ hp => h.upheld.strengthen hp _).bind fun _ => ?_
  refine (h.say _).bind fun _ => ?_
  split
  · exact (h.say _).bind fun _ =>
      (h.changePlayer fun _ hp => h.upheld.endCombat hp).bind fun _ =>
        h.persist.bind fun _ => Act.keeps_pure _
  · exact h.persist.bind fun _ => Act.keeps_pure _

/-- An answer in a fight. The blow of the player needs the enemy that is there. -/
theorem answer (messages : Messages) (command : Command) :
    (Fight.answer messages command).Keeps (invariant inv) := by
  unfold Fight.answer
  split
  · exact (h.say _).bind fun _ => Act.keeps_pure _
  · intro p hp
    rw [Act.ends_bind, Act.ends_player]
    cases henemy : p.player.enemy with
    | some enemy =>
      show (Fight.exchange enemy).Ends p _ _
      unfold Fight.exchange
      rw [Act.ends_bind, Act.ends_player]
      dsimp only
      rw [Act.ends_bind, Act.ends_changePlayer, Act.ends_bind, Act.ends_say]
      -- The enemy that is struck is the one that is there.
      have hstruck := h.upheld.strike (h.player hp) henemy
      split
      · exact h.win _ _ (h.same hp (hstruck _) rfl rfl rfl rfl)
      · exact h.counter _ _ (h.same hp (hstruck _) rfl rfl rfl rfl)
    | none => exact (h.say _).bind (fun _ => Act.keeps_pure _) p hp

/-! ### Rooms and scripts -/

/-- Seeing a room. -/
theorem markVisited (id : String) : (Scene.markVisited id).Keeps (invariant inv) := by
  refine Act.keeps_player.bind fun player => ?_
  refine (h.changePlayer fun _ hp => h.upheld.markVisited hp id).bind fun _ => ?_
  cases player.hasVisited id with
  | true => exact Act.keeps_pure ()
  | false => exact h.persist

/-- Showing a room, which gives a good script. -/
theorem render (firstTime : Bool) :
    (Scene.render firstTime).Yields (invariant inv) fun script => ∀ s ∈ script, good s := by
  have hrest : ∀ room : Room, room.ScriptsAre good →
      Act.Yields (invariant inv) (fun script => ∀ s ∈ script, good s) (do
        Act.sayAll (Scene.description room (← Act.player))
        Act.note (.shown room.id firstTime)
        return if firstTime then room.onFirstEnter else room.onEnter) := by
    intro room hroom
    refine Act.keeps_player.bindYields fun _ => (h.sayAll _).bindYields fun _ =>
      (h.note _).bindYields fun _ => Act.yields_pure ?_
    cases firstTime with
    | true => exact hroom.1
    | false => exact hroom.2
  refine Act.keeps_player.bindYields fun player =>
    (h.room player.location).bind fun room hroom => ?_
  refine (h.markVisited room.id).bindYields fun _ => ?_
  cases room.ascii with
  | none => exact hrest room hroom
  | some art => exact (h.showArt art.file).bindYields fun _ => hrest room hroom

/-- A good step keeps the property if the scripts and the arrival inside it do. -/
theorem step (inner : Nested)
    (hscript : ∀ script, (∀ s ∈ script, good s) → (inner.script script).Keeps (invariant inv))
    (harrival : inner.arrival.Keeps (invariant inv)) {s : Step} (hs : good s) :
    (inner.step s).Keeps (invariant inv) := by
  intro p hp
  have hperformed : inv (p.performing s) := h.untouched hp rfl rfl rfl
  -- The steps that change the player save it at once; the others leave it to what lies inside.
  cases s using Step.cases_on_revision? with
  | revision s r hr =>
    rw [Nested.ends_step_revision hr]
    exact h.persist _ (h.same hp (h.upheld.revision hs hr (h.player hperformed)) rfl rfl rfl rfl)
  | message text =>
    rw [Nested.ends_step_message]
    exact h.untouched hp rfl rfl rfl
  | art file size =>
    rw [Nested.ends_step_art]
    exact h.showArt file _ hperformed
  | branch key equals onMatch otherwise =>
    rw [Nested.ends_step_branch]
    obtain ⟨hmatch, hotherwise⟩ := h.branch hs
    split
    · exact hscript onMatch hmatch _ hperformed
    · exact hscript otherwise hotherwise _ hperformed
  | transition room =>
    rw [Nested.ends_step_transition]
    -- Moving the player is a change like any other, and it is saved before anything is shown.
    have hmoved := h.same (q := (p.performing (.transition room)).changing fun q =>
      { q with location := room }) hp (h.upheld.transition hs (h.player hperformed)) rfl rfl rfl
      rfl
    exact (h.persist _ hmoved).imp_ok fun _ q hq => harrival q hq
  | fight enemy =>
    rw [Nested.ends_step_fight]
    exact h.startFight enemy _ hperformed
  | unrecognized raw =>
    rw [Nested.ends_step_unrecognized]
    exact h.untouched hp rfl rfl rfl

/-- Scripts and arrivals at every level. -/
theorem levels : (invariant inv).Levels good (fun _ _ => True) fun _ _ => True :=
  Promise.levels_of_keeps (fun e p _ hp => h.note e p hp) (fun hq => h.untouched hq rfl rfl rfl)
    (fun inner hscript harrival _ hs => h.step inner hscript harrival hs) (h.render true)

/-- A good script. -/
theorem run {script : Script} (hgood : ∀ s ∈ script, good s) :
    (Scene.run script).Keeps (invariant inv) :=
  (h.levels.within Scene.maxLevels).1.keeps hgood

/-- Entering a room. -/
theorem enter (firstTime : Bool) : (Scene.enter firstTime).Keeps (invariant inv) :=
  (h.render firstTime).bindKeeps fun _ hgood => h.run hgood

/-! ### Commands -/

/-- Picking up an item. -/
theorem pickUp (listed : String) (item : Item) :
    (Action.pickUp listed item).Keeps (invariant inv) :=
  (h.changePlayer fun _ hp => h.upheld.takeItem hp listed item.id).bind fun _ =>
    (h.say _).bind fun _ => h.persist

/-- The parts of commands that go nowhere. -/
theorem chores : (invariant inv).discipline.Chores good (invariant inv).discipline.Allows where
  of_allows hact := hact
  after := (invariant inv).discipline.bind
  say line := (h.say line).yields fun _ => trivial
  player := Act.keeps_player.yields fun _ => trivial
  room id := (h.room id).keeps.yields fun _ => trivial
  item := h.item
  fixture := h.fixture
  run _ hgood := (h.run hgood).yields fun _ => trivial
  look := (h.enter false).yields fun _ => trivial
  pickUp listed item := (h.pickUp listed item).yields fun _ => trivial
  answer messages command := (h.answer messages command).yields fun _ => trivial

/-- Going somewhere, if it does not matter where the player is. -/
theorem goTo (hanywhere : Player.Anywhere P) (destination : String) :
    (Action.goTo destination).Keeps (invariant inv) :=
  (h.changePlayer fun _ hp => hanywhere hp destination).bind fun _ =>
    h.persist.bind fun _ => Act.keeps_player.bind fun _ => h.enter _

/-- Every command, if it does not matter where the player is. -/
theorem perform (hanywhere : Player.Anywhere P) (world : World) (command : Command) :
    (Action.perform world command).Keeps (invariant inv) := by
  have hgoTo : ∀ destination, (invariant inv).discipline.Allows (Action.goTo destination) :=
    fun destination => (h.goTo hanywhere destination).yields fun _ => trivial
  have hfinish : (invariant inv).discipline.Finish good (invariant inv).discipline.Allows :=
    { h.chores with goTo := hgoTo }
  exact (hfinish.perform world command).keeps

/-! ### Requests -/

/-- Showing the room of a player that was read from a save. -/
theorem proceed : Session.proceed.Keeps (invariant inv) :=
  (h.say _).bind fun _ => Act.keeps_player.bind fun _ => h.enter _

/-- A line of input, if it does not matter where the player is. -/
theorem input (hanywhere : Player.Anywhere P) (line : String) :
    (Session.input line).Keeps (invariant inv) := by
  have hactive : Session.requireActive.Keeps (invariant inv) := by
    intro p hp
    rw [Session.ends_requireActive]
    exact ⟨fun _ => hp, fun _ => hp⟩
  exact hactive.bind fun _ => h.world.bind fun world => h.perform hanywhere world _

/-- Leaving the adventure. -/
theorem leave : Session.leave.Keeps (invariant inv) := by
  have hdeactivate : Session.deactivate.Keeps (invariant inv) := fun p hp =>
    have hP : P p.player := h.player hp
    h.same hp hP rfl rfl rfl rfl
  exact hdeactivate.bind fun _ => h.sayAll _

/-- Beginning from the start room, where all that is known of new players is what is known of
players. -/
theorem start {about : World → Prop} (hworld : Act.world.Yields (invariant inv) about)
    (hfresh : ∀ w stats, about w → P (.fresh w.startRoom w.globalFlags stats)) :
    Session.start.Keeps (invariant inv) := by
  refine hworld.bindKeeps fun world habout => ?_
  have hactivate : Session.activate.Keeps (invariant inv) := fun p hp =>
    have hP : P p.player := h.player hp
    h.same hp hP rfl rfl rfl rfl
  have hbeginning : (Session.beginning world).Yields (invariant inv) P :=
    fun p hp => ⟨hp, hfresh world p.stats habout⟩
  refine hactivate.bind fun _ => hbeginning.bindKeeps fun fresh hP => ?_
  exact (h.changePlayer fun _ _ => hP).bind fun _ => h.persist.bind fun _ =>
    (h.say _).bind fun _ => h.enter true

/-- Going on from the save, where reading the store keeps the property too. -/
theorem resume {about : World → Prop} (hworld : Act.world.Yields (invariant inv) about)
    (hfresh : ∀ w stats, about w → P (.fresh w.startRoom w.globalFlags stats))
    (hrestore : Act.restore.Keeps (invariant inv)) : Session.resume.Keeps (invariant inv) := by
  have hgoOn : Session.goOn.Keeps (invariant inv) := by
    refine hrestore.bind fun found => ?_
    cases found with
    | true => exact h.proceed
    | false => exact (h.say _).bind fun _ => h.start hworld hfresh
  have hactivate : Session.activate.Keeps (invariant inv) := fun p hp =>
    have hP : P p.player := h.player hp
    h.same hp hP rfl rfl rfl rfl
  refine hworld.bindKeeps fun world habout => ?_
  refine hactivate.bind fun _ => Act.keeps_player.bind fun player => ?_
  have hbeginning : (Session.beginning world).Yields (invariant inv) P :=
    fun p hp => ⟨hp, hfresh world p.stats habout⟩
  cases player.location.isEmpty with
  | true =>
    exact hbeginning.bindKeeps fun fresh hP => (h.changePlayer fun _ _ => hP).bind fun _ => hgoOn
  | false => exact hgoOn

/-- Every request, where reading and deleting the save keep the property too, and it does not matter
where the player is. -/
theorem request (hanywhere : Player.Anywhere P) {about : World → Prop}
    (hworld : Act.world.Yields (invariant inv) about)
    (hfresh : ∀ w stats, about w → P (.fresh w.startRoom w.globalFlags stats))
    (hrestore : Act.restore.Keeps (invariant inv)) (hforget : Act.forget.Keeps (invariant inv))
    (r : Session.Request) : r.act.Keeps (invariant inv) := by
  cases r with
  | start => exact h.start hworld hfresh
  | resume => exact h.resume hworld hfresh hrestore
  | reset => exact hforget.bind fun _ => h.start hworld hfresh
  | input line => exact h.input hanywhere line
  | leave => exact h.leave

end Play.Upkeep

end TextAdventure
