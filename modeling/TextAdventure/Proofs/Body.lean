import TextAdventure.Proofs.Discipline
import TextAdventure.Proofs.Fight
import TextAdventure.Proofs.Player
import TextAdventure.Proofs.Step

/-!
# What touches the body of a player

A script leaves the strength of the player and the record of taken items alone, forgets no room and
no exit, and ends no fight (`Player.Spared`), whatever it reaches and however it ends; and if a
fight has begun, then because an effect said so (`Play.Scripted`). All of this is one promise, which
scripts keep at every level (`Nested.script_scripted`). So do commands, except for those to take and
to attack, which are looked at apart: what a command may do is `Play.Commanded`, and
`Action.body_touched_rightly` says that it does no more.
-/

namespace TextAdventure

namespace Player

/-- What no script takes from a player: its strength and the record of taken items are the same,
the rooms that were seen and the exits that were recorded are still there, and a fight that was on
is on. -/
structure Spared (p q : Player) : Prop where
  /-- The strength is the same. -/
  stats : q.stats = p.stats
  /-- The same items were taken. -/
  takenItems : q.takenItems = p.takenItems
  /-- No room is forgotten. -/
  visited : ∀ room, p.hasVisited room = true → q.hasVisited room = true
  /-- No exit is forgotten, whether it is closed or open. -/
  lockedExits : ∀ key, p.lockedExits.contains key = true → q.lockedExits.contains key = true
  /-- A fight goes on. -/
  inCombat : p.inCombat = true → q.inCombat = true

variable {p q r : Player}

/-- Nothing has to change. -/
theorem Spared.refl (p : Player) : p.Spared p :=
  ⟨rfl, rfl, fun _ h => h, fun _ h => h, fun h => h⟩

/-- One change after the other takes nothing away. -/
theorem Spared.trans (h : p.Spared q) (h' : q.Spared r) : p.Spared r where
  stats := h'.stats.trans h.stats
  takenItems := h'.takenItems.trans h.takenItems
  visited room hroom := h'.visited room (h.visited room hroom)
  lockedExits key hkey := h'.lockedExits key (h.lockedExits key hkey)
  inCombat hcombat := h'.inCombat (h.inCombat hcombat)

/-- Seeing a room takes nothing away. -/
theorem spared_markVisited (p : Player) (room : String) : p.Spared (p.markVisited room) where
  stats := rfl
  takenItems := rfl
  visited id hid := by
    rw [hasVisited_markVisited, hid, Bool.or_true]
  lockedExits _ h := h
  inCombat h := h

/-- Closing or opening an exit takes nothing away. -/
theorem spared_setExitLocked (p : Player) (room direction : String) (locked : Bool) :
    p.Spared (p.setExitLocked room direction locked) where
  stats := rfl
  takenItems := rfl
  visited _ h := h
  lockedExits key hkey := by
    unfold setExitLocked
    rw [Table.contains_insert, hkey, Bool.or_true]
  inCombat h := h

/-- The change that a step makes before it saves the player takes nothing away, and neither begins
nor ends a fight. -/
theorem spared_revision {s : Step} {r : Step.Revision} (h : s.revision? = some r) (p : Player) :
    p.Spared (r.change p) ∧ (r.change p).inCombat = p.inCombat := by
  cases h using Step.cases_of_revision? with
  | setFlag _ _ =>
    exact ⟨⟨rfl, rfl, fun _ h => h, fun _ h => h, fun h => h⟩, rfl⟩
  -- An item that the player has already is not added again.
  | addItem id =>
    show p.Spared (p.addItem id) ∧ (p.addItem id).inCombat = p.inCombat
    unfold addItem
    split
    · exact ⟨.refl p, rfl⟩
    · exact ⟨⟨rfl, rfl, fun _ h => h, fun _ h => h, fun h => h⟩, rfl⟩
  | removeItem _ =>
    exact ⟨⟨rfl, rfl, fun _ h => h, fun _ h => h, fun h => h⟩, rfl⟩
  | unlockExit room direction =>
    exact ⟨p.spared_setExitLocked room direction false, rfl⟩
  | lockExit room direction =>
    exact ⟨p.spared_setExitLocked room direction true, rfl⟩

/-- Taking an item records it under the id that the room lists, and touches nothing else but what is
carried. -/
theorem takeItem_eq (p : Player) (listed id : String) :
    (p.takeItem listed id).stats = p.stats ∧ (p.takeItem listed id).inCombat = p.inCombat ∧
      (p.takeItem listed id).takenItems = p.takenItems.add listed := by
  unfold takeItem addItem
  split <;> exact ⟨rfl, rfl, rfl⟩

/-- What lies in a room was not taken. -/
theorem notMem_takenItems (p : Player) {room : Room} {id : String}
    (h : id ∈ p.visibleItems room) : p.takenItems.contains id = false := by
  have hfree := (List.mem_filter.mp h).2
  cases htaken : p.takenItems.contains id with
  | false => rfl
  | true =>
    rw [htaken] at hfree
    cases hfree

/-- An exchange of blows touches no record of taken items, and ends the fight only if one of the two
is beaten. -/
theorem exchange_touches (p : Player) (enemy : Enemy) :
    (p.exchange enemy).2.takenItems = p.takenItems ∧
      ((p.exchange enemy).2.inCombat = p.inCombat ∨
        (p.exchange enemy).2.inCombat = false ∧
          ((enemy.stats.takeDamage (p.stats.playerDamage enemy.stats)).hp ≤ 0 ∨
            (p.exchange enemy).2.stats.hp ≤ 0)) := by
  by_cases hbeaten : (enemy.stats.takeDamage (p.stats.playerDamage enemy.stats)).isBeaten = true
  · rw [exchange_of_beaten hbeaten]
    exact ⟨rfl, .inr ⟨rfl, .inl (of_decide_eq_true hbeaten)⟩⟩
  by_cases hfallen : (p.stats.takeDamage (enemy.stats.enemyDamage p.stats)).isBeaten = true
  · rw [exchange_of_fallen hbeaten hfallen]
    exact ⟨rfl, .inr ⟨rfl, .inr (of_decide_eq_true hfallen)⟩⟩
  · rw [exchange_of_standing hbeaten hfallen]
    exact ⟨rfl, .inl rfl⟩

end Player

namespace Play

/-- What scripts do between two states: they take nothing from the player, and if they begin a
fight, then by an effect that begins one. -/
structure Scripted (p q : Play) : Prop where
  /-- Nothing is taken from the player. -/
  spared : p.player.Spared q.player
  /-- A fight has begun only if an effect began one. -/
  begun : ∃ new, q.journal = new ++ p.journal ∧ (p.player.inCombat = false →
    q.player.inCombat = true → ∃ enemy, Event.performed (.fight enemy) ∈ new)

variable {p q r : Play}

/-- What neither begins nor ends a fight. -/
theorem Scripted.of_mode (hspared : p.player.Spared q.player)
    (hmode : q.player.inCombat = p.player.inCombat) (hjournal : p.journal <:+ q.journal) :
    p.Scripted q := by
  obtain ⟨new, hnew⟩ := hjournal
  refine ⟨hspared, new, hnew.symm, fun hoff hon => ?_⟩
  rw [hmode, hoff] at hon
  cases hon

/-- What leaves the player as it is. -/
theorem Scripted.of_same (hplayer : q.player = p.player) (hjournal : p.journal <:+ q.journal) :
    p.Scripted q :=
  .of_mode (hplayer ▸ .refl _) (congrArg Player.inCombat hplayer) hjournal

/-- Nothing is done. -/
theorem Scripted.refl (p : Play) : p.Scripted p := .of_same rfl List.suffix_rfl

/-- An event is noted. -/
theorem scripted_noting (p : Play) (e : Event) : p.Scripted (p.noting e) :=
  .of_same rfl (List.suffix_cons _ _)

/-- The library is asked. -/
theorem scripted_answered {α : Type} (p : Play) (answer : Library.Answer α) :
    p.Scripted (p.answered answer) := .of_same rfl (List.suffix_append _ _)

/-- What scripts do one after the other. -/
theorem Scripted.trans (h : p.Scripted q) (h' : q.Scripted r) : p.Scripted r := by
  obtain ⟨new, hnew, hbegun⟩ := h.begun
  obtain ⟨new', hnew', hbegun'⟩ := h'.begun
  refine ⟨h.spared.trans h'.spared, new' ++ new, ?_, fun hoff hon => ?_⟩
  · rw [hnew', hnew, List.append_assoc]
  · -- The fight was begun by the first of the two or by the second.
    cases hmiddle : q.player.inCombat with
    | true =>
      obtain ⟨enemy, hmem⟩ := hbegun hoff hmiddle
      exact ⟨enemy, List.mem_append_right _ hmem⟩
    | false =>
      obtain ⟨enemy, hmem⟩ := hbegun' hmiddle hon
      exact ⟨enemy, List.mem_append_left _ hmem⟩

end Play

/-- Nothing is taken from the player that no script takes, whether acts succeed or fail. -/
def Promise.scripted : Promise where
  inv _ := True
  ok := Play.Scripted
  failed _ := Play.Scripted
  again _ _ := trivial
  refl _ := .refl _
  trans := Play.Scripted.trans
  failed_after := Play.Scripted.trans

open Promise (scripted)

/-! ### The smallest acts -/

namespace Act

/-- Entering an event into the journal. -/
theorem note_scripted (e : Event) : (note e).Keeps scripted := fun p _ => p.scripted_noting e

/-- Saying a line. -/
theorem say_scripted (line : String) : (say line).Keeps scripted := note_scripted _

/-- Saying several lines. -/
theorem sayAll_scripted (lines : List String) : (sayAll lines).Keeps scripted := by
  intro p _
  rw [ends_sayAll]
  exact .of_same rfl (List.suffix_append _ _)

/-- Asking the library. -/
theorem ask_scripted {α : Type} (request : Source → Library → Library.Answer α) :
    (ask request).Keeps scripted := by
  intro p _
  rw [ends_ask]
  exact ⟨fun _ _ => p.scripted_answered _, fun _ _ => p.scripted_answered _⟩

/-- Writing the player. -/
theorem persist_scripted : persist.Keeps scripted := by
  intro p _
  rw [ends_persist]
  exact ⟨fun _ => .of_same rfl List.suffix_rfl, fun _ _ => .of_same rfl (List.suffix_cons _ _)⟩

/-- A change of the player that takes nothing away and begins no fight. -/
theorem changePlayer_scripted {change : Player → Player}
    (h : ∀ p, p.Spared (change p) ∧ (change p).inCombat = p.inCombat) :
    (changePlayer change).Keeps scripted :=
  fun p _ => .of_mode (h p.player).1 (h p.player).2 List.suffix_rfl

/-- Showing a picture. -/
theorem showArt_scripted (path : String) : (showArt path).Keeps scripted :=
  (ask_scripted _).bind fun _ => sayAll_scripted _

/-- Showing a picture that may be missing, before something else. -/
theorem showArt_before_scripted {α : Type} (art : Option ArtRef) {next : Act α}
    (h : next.Keeps scripted) : Act.Keeps scripted (do
      if let some art := art then showArt art.file
      next) := by
  cases art with
  | none => exact h
  | some art => exact (showArt_scripted art.file).bind fun _ => h

end Act

/-! ### Rooms, fights and scripts -/

/-- Showing a room. -/
theorem Scene.render_scripted (firstTime : Bool) : (render firstTime).Keeps scripted := by
  have hseen : ∀ id, (markVisited id).Keeps scripted := by
    intro id
    refine Act.keeps_player.bind fun player => ?_
    refine (Act.changePlayer_scripted fun p => ⟨p.spared_markVisited id, rfl⟩).bind fun _ => ?_
    cases player.hasVisited id with
    | true => exact Act.keeps_pure ()
    | false => exact Act.persist_scripted
  refine Act.keeps_player.bind fun _ => (Act.ask_scripted _).bind fun room => ?_
  refine (hseen room.id).bind fun _ => Act.showArt_before_scripted room.ascii ?_
  exact Act.keeps_player.bind fun _ => (Act.sayAll_scripted _).bind fun _ =>
    (Act.note_scripted _).bind fun _ => Act.keeps_pure _

/-- Starting a fight, on account of an effect. -/
theorem Fight.start_scripted (enemy : String) (p : Play) :
    (start enemy).Ends (p.performing (.fight enemy)) (fun _ q => p.Scripted q)
      fun _ q => p.Scripted q := by
  have hperformed : p.Scripted (p.performing (.fight enemy)) := p.scripted_noting _
  -- Looking the enemy up fetches at most its document.
  unfold start Act.enemy
  rw [Act.ends_bind, Act.ends_ask]
  refine ⟨fun found _ => ?_, fun _ _ => hperformed.trans (Play.scripted_answered _ _)⟩
  rw [Act.ends_bind, Act.ends_changePlayer]
  generalize hq : ((p.performing (.fight enemy)).answered _).changing _ = q
  -- The fight is one that an effect of the script started, which is what lets it begin.
  have hbegun : p.Scripted q := by
    subst hq
    refine ⟨⟨rfl, rfl, fun _ h => h, fun _ h => h, fun _ => rfl⟩,
      ((Library.getEnemy p.source enemy p.library).fetched.map Event.fetched).reverse ++
        [.performed (.fight enemy)], ?_, fun _ _ =>
      ⟨enemy, List.mem_append_right _ List.mem_cons_self⟩⟩
    exact (List.append_assoc _ [Event.performed (.fight enemy)] _).symm
  -- What comes after the fight has begun touches the player no more.
  have hrest : Act.Keeps scripted (do
      if let some art := found.ascii then Act.showArt art.file
      Act.sayAll (announcement found)
      Act.persist) :=
    Act.showArt_before_scripted found.ascii ((Act.sayAll_scripted _).bind fun _ =>
      Act.persist_scripted)
  exact hrest.after trivial hbegun

namespace Nested

/-- A step of a script, if the scripts and the arrival inside it keep the promise. -/
theorem step_scripted (inner : Nested) (hscript : ∀ script, (inner.script script).Keeps scripted)
    (harrival : inner.arrival.Keeps scripted) (s : Step) : (inner.step s).Keeps scripted := by
  intro p hp
  have hperformed : p.Scripted (p.performing s) := p.scripted_noting _
  -- The steps that change the player save it at once; the others leave it to what lies inside.
  cases s using Step.cases_on_revision? with
  | revision s r hr =>
    rw [ends_step_revision hr]
    obtain ⟨hspared, hmode⟩ := Player.spared_revision hr p.player
    have hrevised : p.Scripted ((p.performing s).revised r) :=
      .of_mode hspared hmode (List.IsSuffix.trans (List.suffix_cons _ _) (List.suffix_append _ _))
    exact Act.persist_scripted.after trivial hrevised
  | message text =>
    rw [ends_step_message]
    exact hperformed.trans (Play.scripted_noting _ _)
  | art file size =>
    rw [ends_step_art]
    exact (Act.showArt_scripted file).after hp hperformed
  | branch key equals onMatch otherwise =>
    rw [ends_step_branch]
    exact (hscript _).after hp hperformed
  -- Where the player is does not count here, so a transition is spared like a mere line.
  | transition room =>
    rw [ends_step_transition]
    have hmoved : p.Scripted ((p.performing (.transition room)).changing fun q =>
        { q with location := room }) :=
      .of_mode ⟨rfl, rfl, fun _ h => h, fun _ h => h, fun h => h⟩ rfl (List.suffix_cons _ _)
    exact (Act.persist_scripted.after hp hmoved).imp_ok fun _ _ hq => harrival.after hp hq
  | fight enemy =>
    rw [ends_step_fight]
    exact Fight.start_scripted enemy p
  | unrecognized raw =>
    rw [ends_step_unrecognized]
    exact p.scripted_noting _

/-- Every script, however many levels are left. -/
theorem script_scripted (levels : Nat) (script : Script) :
    ((within levels).script script).Keeps scripted := by
  have hlevels : scripted.Levels (fun _ => True) (fun _ _ => True) fun _ _ => True :=
    Promise.levels_of_keeps (fun e p _ hp => Act.note_scripted e p hp)
      (fun hq => hq.trans (Play.scripted_noting _ _))
      (fun inner hscript harrival s _ =>
        step_scripted inner (fun script => hscript script fun _ _ => trivial) harrival s)
      ((Scene.render_scripted true).yields fun _ _ _ => trivial)
  exact (hlevels.within levels).1.keeps fun _ _ => trivial

end Nested

/-! ### Commands -/

/-- What a command may do to the body of a player and to what it is doing: the strength changes only
by an attack in a fight; a fight ends only by an attack that leaves nothing of the enemy or of the
player, and begins only by an effect that begins one; and what was taken changes only by a command
to take, by one item that was lying in the room. -/
structure Play.Commanded (command : Command) (p q : Play) : Prop where
  /-- The strength changes only by an attack in a fight. -/
  stats : q.player.stats ≠ p.player.stats →
    command.verb = .attack ∧ p.player.inCombat = true
  /-- A fight ends only by an attack after which nothing is left of the enemy or of the player. -/
  ended : p.player.inCombat = true → q.player.inCombat = false →
    command.verb = .attack ∧ ∃ enemy, p.player.enemy = some enemy ∧
      ((enemy.stats.takeDamage (p.player.stats.playerDamage enemy.stats)).hp ≤ 0 ∨
        q.player.stats.hp ≤ 0)
  /-- A fight begins only by an effect. -/
  begun : p.player.inCombat = false → q.player.inCombat = true →
    ∃ new enemy, q.journal = new ++ p.journal ∧ Event.performed (.fight enemy) ∈ new
  /-- One item is taken, which was lying in the room. -/
  taken : q.player.takenItems ≠ p.player.takenItems →
    command.verb = .take ∧ ∃ room id,
      (Library.getRoom p.source p.player.location p.library).result = .ok room ∧
        id ∈ p.player.visibleItems room ∧ p.player.takenItems.contains id = false ∧
          q.player.takenItems = p.player.takenItems.add id

/-- A command may do what scripts do. -/
theorem Play.Scripted.commanded {p q : Play} (h : p.Scripted q) (command : Command) :
    p.Commanded command q where
  stats hchanged := absurd h.spared.stats hchanged
  ended hon hoff := by
    rw [h.spared.inCombat hon] at hoff
    cases hoff
  begun hoff hon := by
    obtain ⟨new, hnew, hbegun⟩ := h.begun
    obtain ⟨enemy, hmem⟩ := hbegun hoff hon
    exact ⟨new, enemy, hnew, hmem⟩
  taken hchanged := absurd h.spared.takenItems hchanged

/-- An act that does no more than scripts do, does what a command may do. -/
theorem Act.Keeps.commanded {act : Act Unit} (h : act.Keeps scripted) (command : Command)
    (p : Play) : act.Ends p (fun _ q => p.Commanded command q) fun _ q => p.Commanded command q :=
  (h p trivial).imp (fun _ _ hq => hq.commanded command) fun _ _ hq => hq.commanded command

namespace Action

variable {command : Command} {p : Play}

/-- Commands that do not take and not attack keep the promise of scripts. -/
theorem errands_scripted : scripted.discipline.Errands (fun _ => True) scripted.discipline.Allows :=
  have hrun : ∀ script, scripted.discipline.Allows (Scene.run script) := fun script =>
    (Nested.script_scripted Scene.maxLevels script).yields fun _ => trivial
  { of_allows := fun hact => hact
    after := scripted.discipline.bind
    say := fun line => (Act.say_scripted line).yields fun _ => trivial
    player := Act.keeps_player.yields fun _ => trivial
    room := fun _ => (Act.ask_scripted _).yields fun _ => trivial
    item := fun _ => (Act.ask_scripted _).yields fun _ =>
      ⟨fun _ _ => trivial, fun _ _ _ _ _ => trivial⟩
    fixture := fun _ => (Act.ask_scripted _).yields fun _ =>
      ⟨fun _ _ => trivial, fun _ _ => trivial, fun _ _ => trivial⟩
    run := fun script _ => hrun script
    look := Discipline.Allows.bind ((Scene.render_scripted false).yields fun _ => trivial) hrun }

/-- Going somewhere keeps the promise of scripts. -/
theorem goTo_scripted (destination : String) : (goTo destination).Keeps scripted := by
  refine (Act.changePlayer_scripted fun p => ?_).bind fun _ => Act.persist_scripted.bind fun _ =>
    Act.keeps_player.bind fun _ => (Scene.render_scripted _).bind fun script =>
      Nested.script_scripted Scene.maxLevels script
  exact ⟨⟨rfl, rfl, fun _ h => h, fun _ h => h, fun h => h⟩, rfl⟩

/-- Picking up an item that lies in the room. -/
theorem pickUp_commanded {q : Play} {room : Room} {listed : String} (hverb : command.verb = .take)
    (hplayer : q.player = p.player)
    (hroom : (Library.getRoom p.source p.player.location p.library).result = .ok room)
    (hlies : listed ∈ p.player.visibleItems room) (item : Item) :
    (pickUp listed item).Ends q (fun _ r => p.Commanded command r)
      fun _ r => p.Commanded command r := by
  obtain ⟨hstats, hmode, htaken⟩ := p.player.takeItem_eq listed item.id
  have hcommanded : ∀ r : Play, r.player = p.player.takeItem listed item.id →
      p.Commanded command r := by
    intro r hr
    rw [← hr] at hstats hmode htaken
    refine ⟨absurd hstats, fun hon hoff => ?_, fun hoff hon => ?_, fun _ => ?_⟩
    · rw [hmode, hon] at hoff
      cases hoff
    · rw [hmode, hoff] at hon
      cases hon
    · exact ⟨hverb, room, listed, hroom, hlies, p.player.notMem_takenItems hlies, htaken⟩
  unfold pickUp
  rw [Act.ends_bind, Act.ends_changePlayer, Act.ends_bind, Act.ends_say]
  have hpicked : ((q.changing (·.takeItem listed item.id)).noting
      (.said ("Du nimmst " ++ item.name ++ "."))).player = p.player.takeItem listed item.id :=
    congrArg (·.takeItem listed item.id) hplayer
  exact Fight.ends_persist.imp (fun _ r hr => hcommanded r (hr.1.trans hpicked))
    fun _ r hr => hcommanded r (hr.1.trans hpicked)

/-- An item that is taken was lying in the room. -/
theorem take_commanded (messages : Messages) (phrase : String) (hverb : command.verb = .take) :
    (take messages phrase).Ends p (fun _ q => p.Commanded command q)
      fun _ q => p.Commanded command q := by
  -- Whatever the command does not find it only tells of.
  have hsay : ∀ {q : Play} (line : String), p.Scripted q → (Act.say line).Ends q
      (fun _ r => p.Commanded command r) fun _ r => p.Commanded command r :=
    fun line hq => (hq.trans (Play.scripted_noting _ (.said line))).commanded command
  unfold take currentRoom Act.room
  rw [Act.ends_bind, Act.ends_bind, Act.ends_player, Act.ends_ask]
  refine ⟨fun room hroom => ?_, fun _ _ => (p.scripted_answered _).commanded command⟩
  -- Reading the room changes nothing but the library.
  have hlooked : p.Scripted (p.answered (Library.getRoom p.source p.player.location p.library)) :=
    p.scripted_answered _
  rw [Act.ends_bind, Act.ends_player, Play.player_answered]
  cases hlisted : Phrase.resolve phrase (p.player.visibleItems room) with
  | none => exact hsay _ hlooked
  -- The room lists an item, and only then is there anything to take.
  | some listed =>
    dsimp only
    unfold Act.item
    rw [Act.ends_bind, Act.ends_ask]
    have hasked := hlooked.trans (Play.scripted_answered _ (Library.getItem p.source listed
      (Library.getRoom p.source p.player.location p.library).library))
    refine ⟨fun item _ => ?_, fun _ _ => hasked.commanded command⟩
    split
    · generalize hq : Play.answered (Play.answered p _) _ = q
      have hplayer : q.player = p.player := by rw [← hq]; rfl
      -- What the phrase resolves to is one of the items that lie there.
      have hlies : listed ∈ p.player.visibleItems room := List.mem_of_find?_eq_some hlisted
      exact pickUp_commanded hverb hplayer hroom hlies item
    · exact hsay _ hasked

/-- An exchange of blows in a fight. -/
theorem exchange_commanded {q : Play} {enemy : Enemy} (hverb : command.verb = .attack)
    (hcombat : p.player.inCombat = true) (henemy : p.player.enemy = some enemy)
    (hq : q.player = (p.player.exchange enemy).2) : p.Commanded command q := by
  obtain ⟨htaken, hmode⟩ := p.player.exchange_touches enemy
  rw [← hq] at htaken hmode
  refine ⟨fun _ => ⟨hverb, hcombat⟩, fun hon hoff => ?_, fun hoff _ => ?_, absurd htaken⟩
  · rcases hmode with hsame | ⟨-, hbeaten⟩
    · rw [hsame, hon] at hoff
      cases hoff
    · exact ⟨hverb, enemy, henemy, hbeaten⟩
  · rw [hcombat] at hoff
    cases hoff

/-- A command outside fights, where no enemy is. -/
theorem explore_commanded (messages : Messages) (command : Command)
    (henemy : p.player.enemy = none) :
    (explore messages command).Ends p (fun _ q => p.Commanded command q)
      fun _ q => p.Commanded command q := by
  by_cases hgo : command.verb = .go
  · unfold explore
    rw [hgo]
    exact Act.Keeps.commanded (errands_scripted.move (fun destination =>
      (goTo_scripted destination).yields fun _ => trivial) messages command).keeps command p
  by_cases htake : command.verb = .take
  · unfold explore withObject
    rw [htake]
    cases command.object with
    | some phrase => exact take_commanded messages phrase htake
    | none => exact (Act.say_scripted _).commanded command p
  by_cases hattack : command.verb = .attack
  · -- There is nobody to attack, and that is all that is said.
    unfold explore
    rw [hattack]
    change (discard (Fight.answer messages command)).Ends p _ _
    rw [Act.ends_discard]
    unfold Act.Ends
    rw [Fight.answer_of_none hattack henemy]
    exact (p.scripted_noting _).commanded command
  · exact Act.Keeps.commanded
      (errands_scripted.explore messages hgo htake hattack).keeps command p

/-- What a command does. It touches the body of the player only as it may, in every state in which a
fight is on exactly while an enemy is there. -/
theorem perform_commanded (world : World) (command : Command)
    (hfight : p.player.inCombat = true ↔ p.player.enemy.isSome = true) :
    (perform world command).Ends p (fun _ q => p.Commanded command q)
      fun _ q => p.Commanded command q := by
  unfold perform
  rw [Act.ends_bind, Act.ends_player]
  split
  · next hcombat =>
    rw [Act.ends_discard]
    by_cases hverb : command.verb = .attack
    · obtain ⟨enemy, henemy⟩ := Option.isSome_iff_exists.mp (hfight.mp hcombat)
      exact (Fight.results_answer world.messages hverb henemy).imp
        (fun _ q hq => exchange_commanded hverb hcombat henemy (congrArg Prod.snd hq.1))
        fun _ q hq => exchange_commanded hverb hcombat henemy hq.1
    · unfold Act.Ends
      rw [Fight.answer_of_ne hverb]
      exact (p.scripted_noting _).commanded command
  · next hfree =>
    have hnobody : p.player.enemy = none := Option.not_isSome_iff_eq_none.mp (mt hfight.mpr hfree)
    exact explore_commanded world.messages command hnobody

/-- Only the right things touch the body of a player. A script, whatever it reaches and however it
ends, leaves the strength of the player and the record of taken items alone, forgets no room and no
exit, and ends no fight. A line of input changes the strength only by an attack in a fight, ends a
fight only by an attack that leaves nothing of one of the two, begins one only by an effect, and
takes only what was lying in the room. -/
theorem body_touched_rightly :
    (∀ levels script (p : Play), ((Nested.within levels).script script).Ends p
      (fun _ q => p.player.Spared q.player) fun _ q => p.player.Spared q.player) ∧
    ∀ world line (p : Play), (p.player.inCombat = true ↔ p.player.enemy.isSome = true) →
      (perform world (Command.parse line)).Ends p (fun _ q => p.Commanded (Command.parse line) q)
        fun _ q => p.Commanded (Command.parse line) q :=
  ⟨fun levels script p => (Nested.script_scripted levels script p trivial).imp
      (fun _ _ hq => hq.spared) fun _ _ hq => hq.spared,
    fun world line _ hfight => perform_commanded world (Command.parse line) hfight⟩

/-- A player who fights with a guard types that it attacks. -/
theorem body_touched_rightly_duel :
    (perform ⟨"", "", "hall", .empty, .standard⟩ (Command.parse "angriff")).Ends
      (Fight.duel Fight.guard)
      (fun _ q => (Fight.duel Fight.guard).Commanded (Command.parse "angriff") q)
      fun _ q => (Fight.duel Fight.guard).Commanded (Command.parse "angriff") q := by
  have hfight : (Fight.duel Fight.guard).player.inCombat = true ↔
      (Fight.duel Fight.guard).player.enemy.isSome = true := ⟨fun _ => rfl, fun _ => rfl⟩
  exact body_touched_rightly.2 ⟨"", "", "hall", .empty, .standard⟩ "angriff" _ hfight

end Action

end TextAdventure
