import TextAdventure.Proofs.Discipline
import TextAdventure.Proofs.Library
import TextAdventure.Proofs.Player

/-!
# Disciplines of the smallest acts

Fights obey a discipline that the smallest acts obey as long as they leave the player where it is
(`Discipline.Bodily`). A discipline that they obey however they change the player
(`Discipline.Scenic`) is obeyed by scripts at every level (`Scenic.within`) and by commands
(`Scenic.commands`), and if reading and deleting the save obey as well (`Discipline.Elementary`), by
requests (`Elementary.request`).
-/

namespace TextAdventure.Discipline

variable {d : Discipline}

/-- The smallest acts obey if they leave the player where it is. -/
structure Bodily (d : Discipline) : Prop where
  /-- A line is said. -/
  say : ∀ line, d.Allows (Act.say line)
  /-- The player is looked at. -/
  player : d.Allows Act.player
  /-- The body of the player changes. -/
  changePlayer : ∀ {change : Player → Player}, (∀ p : Player, p.SamePlace (change p)) →
    d.Allows (Act.changePlayer change)
  /-- The player is written. -/
  persist : d.Allows Act.persist
  /-- The library is asked. -/
  ask : ∀ {α : Type} {request : Source → Library → Library.Answer α},
    Library.Faithful request → d.Allows (Act.ask request)

namespace Bodily

variable (h : d.Bodily)

include h

/-- Saying several lines. -/
theorem sayAll (lines : List String) : d.Allows (Act.sayAll lines) := allows_forM h.say lines

/-- Showing a picture. -/
theorem showArt (path : String) : d.Allows (Act.showArt path) :=
  (h.ask (Library.faithful_getArt path)).bind fun _ => h.sayAll _

/-- Showing a picture that may be missing, before something else. -/
theorem showArt_before {α : Type} (art : Option ArtRef) {next : Act α} {post : α → Prop}
    (hnext : d.Obeys post next) : d.Obeys post (do
      if let some art := art then Act.showArt art.file
      next) := by
  cases art with
  | none => exact hnext
  | some art => exact (h.showArt art.file).bind fun _ => hnext

/-- Starting a fight. -/
theorem startFight (id : String) : d.Allows (Fight.start id) := by
  refine (h.ask (Library.faithful_getEnemy id)).bind fun enemy => ?_
  refine (h.changePlayer fun p => p.samePlace_beginCombat enemy).bind fun _ => ?_
  exact h.showArt_before enemy.ascii ((h.sayAll _).bind fun _ => h.persist)

/-- Getting what an enemy has dropped. -/
theorem loot (id : String) : d.Allows (Fight.loot id) := by
  refine h.player.bind fun player => ?_
  refine (h.changePlayer fun p => p.samePlace_addItem id).bind fun _ => ?_
  cases player.hasItem id with
  | true => exact allows_pure ()
  | false => exact h.say _

/-- Winning a fight. -/
theorem win (enemy : Enemy) : d.Allows (Fight.win enemy) :=
  (h.say _).bind fun _ => (allows_forM h.loot enemy.drops).bind fun _ =>
    (h.changePlayer fun p => p.samePlace_endCombat).bind fun _ => h.persist.bind fun _ =>
      allows_pure _

/-- The blow of the enemy. -/
theorem counter (enemy : Enemy) : d.Allows (Fight.counter enemy) := by
  refine h.player.bind fun player => ?_
  refine (h.changePlayer fun p => p.samePlace_stats _).bind fun _ => (h.say _).bind fun _ => ?_
  split
  · exact (h.say _).bind fun _ => (h.changePlayer fun p => p.samePlace_endCombat).bind fun _ =>
      h.persist.bind fun _ => allows_pure _
  · exact h.persist.bind fun _ => allows_pure _

/-- An exchange of blows. -/
theorem exchange (enemy : Enemy) : d.Allows (Fight.exchange enemy) := by
  refine h.player.bind fun player => ?_
  refine (h.changePlayer fun p => p.samePlace_enemy _).bind fun _ => (h.say _).bind fun _ => ?_
  split
  · exact h.win _
  · exact h.counter _

/-- An answer in a fight. -/
theorem answer (messages : Messages) (command : Command) :
    d.Allows (Fight.answer messages command) := by
  unfold Fight.answer
  split
  · exact (h.say _).bind fun _ => allows_pure _
  · refine h.player.bind fun player => ?_
    cases player.enemy with
    | some enemy => exact h.exchange enemy
    | none => exact (h.say _).bind fun _ => allows_pure _

/-- Picking up an item. -/
theorem pickUp (listed : String) (item : Item) : d.Allows (Action.pickUp listed item) :=
  (h.changePlayer fun p => p.samePlace_takeItem listed item.id).bind fun _ =>
    (h.say _).bind fun _ => h.persist

/-- The parts of commands, if scripts that run and rooms that are shown obey as well. -/
theorem commands (hrun : ∀ script, d.Allows (Scene.run script))
    (hlook : d.Allows (Scene.enter false))
    (hgoTo : ∀ destination, d.Allows (Action.goTo destination)) : d.Commands fun _ => True where
  say := h.say
  player := h.player
  room id := h.ask (Library.faithful_getRoom id)
  item id := Obeys.imp (h.ask (Library.faithful_getItem id)) fun _ _ =>
    ⟨fun _ _ => trivial, fun _ _ _ _ _ => trivial⟩
  fixture id := Obeys.imp (h.ask (Library.faithful_getFixture id)) fun _ _ =>
    ⟨fun _ _ => trivial, fun _ _ => trivial, fun _ _ => trivial⟩
  run script _ := hrun script
  look := hlook
  goTo := hgoTo
  pickUp := h.pickUp
  answer := h.answer

omit h in
/-- The smallest acts keep two promises at once if they keep each of them. -/
theorem both {c c' : Promise} (h : c.discipline.Bodily) (h' : c'.discipline.Bodily) :
    (c.both c').discipline.Bodily where
  say line := Act.Yields.both (h.say line) (h'.say line)
  player := Act.Yields.both h.player h'.player
  changePlayer hchange := Act.Yields.both (h.changePlayer hchange) (h'.changePlayer hchange)
  persist := Act.Yields.both h.persist h'.persist
  ask hrequest := Act.Yields.both (h.ask hrequest) (h'.ask hrequest)

end Bodily

/-- The smallest acts of which rooms and scripts are made obey. -/
structure Scenic (d : Discipline) : Prop where
  /-- An event other than a write is entered into the journal. -/
  note : ∀ {e : Event}, (∀ record, e ≠ .stored record) → d.Allows (Act.note e)
  /-- The player is looked at. -/
  player : d.Allows Act.player
  /-- The player changes. -/
  changePlayer : ∀ change, d.Allows (Act.changePlayer change)
  /-- The player is written. -/
  persist : d.Allows Act.persist
  /-- The library is asked. -/
  ask : ∀ {α : Type} {request : Source → Library → Library.Answer α},
    Library.Faithful request → d.Allows (Act.ask request)
  /-- A level around an act that obeys. -/
  level : ∀ {act : Act Unit}, d.Allows act → d.Allows (Act.level act)

namespace Scenic

variable (h : d.Scenic)

include h

/-- Saying a line. -/
theorem say (line : String) : d.Allows (Act.say line) := h.note (by simp)

/-- The smallest acts obey in particular if they leave the player where it is. -/
theorem bodily : d.Bodily where
  say := h.say
  player := h.player
  changePlayer _ := h.changePlayer _
  persist := h.persist
  ask := h.ask

/-- Seeing a room. -/
theorem markVisited (id : String) : d.Allows (Scene.markVisited id) := by
  refine h.player.bind fun player => (h.changePlayer _).bind fun _ => ?_
  cases player.hasVisited id with
  | true => exact allows_pure ()
  | false => exact h.persist

/-- Showing a room. -/
theorem render (firstTime : Bool) : d.Allows (Scene.render firstTime) := by
  refine h.player.bind fun player => (h.ask (Library.faithful_getRoom _)).bind fun room => ?_
  refine (h.markVisited _).bind fun _ => h.bodily.showArt_before room.ascii ?_
  exact h.player.bind fun _ => (h.bodily.sayAll _).bind fun _ => (h.note (by simp)).bind fun _ =>
    allows_pure _

/-- Saying that the levels are used up. -/
theorem tooDeep : d.Allows Scene.tooDeep := (h.note (by simp)).bind fun _ => h.say _

/-- Beginning an effect. -/
theorem performed (s : Step) : d.Allows (Act.note (.performed s)) := h.note (by simp)

/-- A step of a script, if the scripts and the arrival inside it obey. -/
theorem step {inner : Nested} (hscript : ∀ script, d.Allows (inner.script script))
    (harrival : d.Allows inner.arrival) (s : Step) : d.Allows (inner.step s) := by
  -- A change is saved after it was told of, or in silence.
  have hsave : ∀ (change : Player → Player) (line : String), d.Allows (do
      Act.changePlayer change
      Act.say line
      Act.persist) := fun _ _ => (h.changePlayer _).bind fun _ => (h.say _).bind fun _ => h.persist
  have hsilent : ∀ change : Player → Player, d.Allows (do
      Act.changePlayer change
      Act.persist) := fun _ => (h.changePlayer _).bind fun _ => h.persist
  cases s with
  | message text => exact (h.performed _).bind fun _ => h.say text
  | art file size => exact (h.performed _).bind fun _ => h.bodily.showArt file
  | setFlag key value => exact (h.performed _).bind fun _ => hsilent _
  | branch key equals onMatch otherwise =>
    exact (h.performed _).bind fun _ => h.player.bind fun _ => hscript _
  | addItem id =>
    -- Whether the player has the item decides which of the two it is.
    refine (h.performed _).bind fun _ => h.player.bind fun player => ?_
    cases hknown : player.hasItem id with
    | true => exact hsilent _
    | false => exact hsave _ _
  | removeItem id =>
    refine (h.performed _).bind fun _ => h.player.bind fun player => ?_
    cases hknown : player.hasItem id with
    | true => exact hsave _ _
    | false => exact hsilent _
  | unlockExit room direction => exact (h.performed _).bind fun _ => hsave _ _
  | lockExit room direction => exact (h.performed _).bind fun _ => hsave _ _
  | transition room =>
    exact (h.performed _).bind fun _ => (h.changePlayer _).bind fun _ => h.persist.bind fun _ =>
      harrival
  | fight enemy => exact (h.performed _).bind fun _ => h.bodily.startFight enemy
  | unrecognized raw => exact h.say _

/-- The steps of a script, one after the other. -/
theorem steps {inner : Nested} (hscript : ∀ script, d.Allows (inner.script script))
    (harrival : d.Allows inner.arrival) (script : Script) : d.Allows (inner.steps script) := by
  induction script with
  | nil => exact allows_pure ()
  | cons s ss ih => exact (h.step hscript harrival s).bind fun _ => ih

/-- Scripts and arrivals at every level. -/
theorem within (levels : Nat) :
    (∀ script, d.Allows ((Nested.within levels).script script)) ∧
      d.Allows (Nested.within levels).arrival := by
  induction levels with
  | zero =>
    refine ⟨fun script => ?_, h.tooDeep⟩
    cases script with
    | nil => exact allows_pure ()
    | cons s ss => exact h.tooDeep
  | succ levels ih =>
    obtain ⟨hscript, harrival⟩ := ih
    refine ⟨fun script => ?_, h.level ((h.render true).bind hscript)⟩
    cases script with
    | nil => exact allows_pure ()
    | cons s ss => exact h.level (h.steps hscript harrival (s :: ss))

/-- Entering a room. -/
theorem enter (firstTime : Bool) : d.Allows (Scene.enter firstTime) :=
  (h.render firstTime).bind (h.within Scene.maxLevels).1

/-- Going somewhere. -/
theorem goTo (destination : String) : d.Allows (Action.goTo destination) :=
  (h.changePlayer _).bind fun _ => h.persist.bind fun _ => h.player.bind fun _ => h.enter _

/-- The parts of commands. -/
theorem commands : d.Commands fun _ => True :=
  h.bodily.commands (h.within Scene.maxLevels).1 (h.enter false) h.goTo

end Scenic

/-- The smallest acts obey, in scenes and around them. -/
structure Elementary (d : Discipline) : Prop where
  /-- An event is entered into the journal. -/
  note : ∀ e, d.Allows (Act.note e)
  /-- The player is looked at. -/
  player : d.Allows Act.player
  /-- The player changes. -/
  changePlayer : ∀ change, d.Allows (Act.changePlayer change)
  /-- The player is written. -/
  persist : d.Allows Act.persist
  /-- The save is read. -/
  restore : d.Allows Act.restore
  /-- The save is deleted. -/
  forget : d.Allows Act.forget
  /-- The library is asked. -/
  ask : ∀ {α : Type} {request : Source → Library → Library.Answer α},
    Library.Faithful request → d.Allows (Act.ask request)
  /-- A level around an act that obeys. -/
  level : ∀ {act : Act Unit}, d.Allows act → d.Allows (Act.level act)
  /-- The session takes input from now on. -/
  activate : d.Allows Session.activate
  /-- The session takes no more input. -/
  deactivate : d.Allows Session.deactivate
  /-- The session has to take input. -/
  requireActive : d.Allows Session.requireActive
  /-- A new player comes with the strength that the session has for it. -/
  beginning : ∀ world, d.Allows (Session.beginning world)

namespace Elementary

variable (h : d.Elementary)

include h

/-- The smallest acts obey in scenes. -/
theorem scenic : d.Scenic where
  note _ := h.note _
  player := h.player
  changePlayer := h.changePlayer
  persist := h.persist
  ask := h.ask
  level := h.level

/-- Asking for the world. -/
theorem world : d.Allows Act.world := h.ask Library.faithful_getWorld

/-- Beginning from the start room. -/
theorem start : d.Allows Session.start :=
  h.world.bind fun world => h.activate.bind fun _ => (h.beginning world).bind fun _ =>
    (h.changePlayer _).bind fun _ => h.persist.bind fun _ => (h.scenic.say _).bind fun _ =>
      h.scenic.enter true

/-- Showing the room of a player that was read from a save. -/
theorem proceed : d.Allows Session.proceed :=
  (h.scenic.say _).bind fun _ => h.player.bind fun _ => h.scenic.enter _

/-- Going on from the save. -/
theorem goOn : d.Allows Session.goOn := by
  refine h.restore.bind fun found => ?_
  cases found with
  | true => exact h.proceed
  | false => exact (h.scenic.say _).bind fun _ => h.start

/-- Every request. -/
theorem request (r : Session.Request) : d.Allows r.act := by
  cases r with
  | start => exact h.start
  | resume =>
    refine h.world.bind fun world => h.activate.bind fun _ => h.player.bind fun player => ?_
    cases player.location.isEmpty with
    | true => exact (h.beginning world).bind fun _ => (h.changePlayer _).bind fun _ => h.goOn
    | false => exact h.goOn
  | reset => exact h.forget.bind fun _ => h.start
  | input line =>
    exact h.requireActive.bind fun _ => h.world.bind fun world => h.scenic.commands.perform world _
  | leave => exact h.deactivate.bind fun _ => h.scenic.bodily.sayAll _

end Elementary

end TextAdventure.Discipline
