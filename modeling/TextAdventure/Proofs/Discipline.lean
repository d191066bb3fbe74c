import TextAdventure.Proofs.Promise

/-!
# Disciplines of acts

A `Discipline` is anything that acts obey one after the other once each of them does: to keep a
promise is one, and to end alike from similar states is another. So what the commands of a player do
is gone through once, for all disciplines. `Discipline.Commands` says what has to be shown of the
parts of which commands are made, and `Discipline.Commands.perform` draws the conclusion. Whatever a
command does last may be more than what obeys (`Discipline.Finish`): a script runs and a room is
shown once in a command, and nothing comes after them.
-/

namespace TextAdventure

/-- What acts obey one after the other. -/
structure Discipline where
  /-- An act obeys, and something is known of its value. -/
  Obeys : {α : Type} → (α → Prop) → Act α → Prop
  /-- Doing nothing obeys. -/
  pure : ∀ {α : Type} {post : α → Prop} {a : α}, post a → Obeys post (Pure.pure a)
  /-- An act may rely on what is known of the value of the act before it. -/
  bind : ∀ {α β : Type} {post : α → Prop} {post' : β → Prop} {act : Act α} {next : α → Act β},
    Obeys post act → (∀ a, post a → Obeys post' (next a)) → Obeys post' (act >>= next)

/-- To keep a promise is a discipline. -/
def Promise.discipline (c : Promise) : Discipline where
  Obeys := Act.Yields c
  pure := Act.yields_pure
  bind := Act.Yields.bind

/-- All scripts of an item consist of good steps. -/
def Item.ScriptsAre (good : Step → Prop) (i : Item) : Prop :=
  (∀ s ∈ i.onUse, good s) ∧ ∀ key script, i.combine.get? key = some script → ∀ s ∈ script, good s

/-- All scripts of a fixture consist of good steps. -/
def Fixture.ScriptsAre (good : Step → Prop) (f : Fixture) : Prop :=
  (∀ s ∈ f.inspect, good s) ∧ (∀ s ∈ f.use, good s) ∧ ∀ s ∈ f.onLockedUse, good s

/-- All scripts of a room consist of good steps. -/
def Room.ScriptsAre (good : Step → Prop) (r : Room) : Prop :=
  (∀ s ∈ r.onFirstEnter, good s) ∧ ∀ s ∈ r.onEnter, good s

namespace Discipline

variable {α β : Type} {d : Discipline} {good : Step → Prop}

/-- An act obeys a discipline, and nothing is known of its value. -/
def Allows (d : Discipline) (act : Act α) : Prop := d.Obeys (fun _ => True) act

/-- One act after the other obeys. -/
theorem Allows.bind {post : β → Prop} {act : Act α} {next : α → Act β} (h : d.Allows act)
    (hnext : ∀ a, d.Obeys post (next a)) : d.Obeys post (act >>= next) :=
  d.bind h fun a _ => hnext a

/-- What is known of the value of an act may be weakened. -/
theorem Obeys.imp {post post' : α → Prop} {act : Act α} (h : d.Obeys post act)
    (hpost : ∀ a, post a → post' a) : d.Obeys post' act := by
  have hbind := d.bind h fun a ha => d.pure (hpost a ha)
  rw [bind_pure] at hbind
  exact hbind

/-- Doing nothing obeys. -/
theorem allows_pure (a : α) : d.Allows (Pure.pure a) := d.pure trivial

/-- Forgetting the value of an act that obeys. -/
theorem Allows.discard {act : Act α} (h : d.Allows act) : d.Allows (Functor.discard act) :=
  h.bind fun _ => allows_pure ()

/-- Several acts, one for each item of a list, obey if each of them does. -/
theorem allows_forM {act : α → Act Unit} (h : ∀ a, d.Allows (act a)) (xs : List α) :
    d.Allows (xs.forM act) := by
  induction xs with
  | nil => exact allows_pure ()
  | cons x xs ih => exact (h x).bind fun _ => ih

/-- What has to be shown of the parts of commands for all commands to obey. -/
structure Commands (d : Discipline) (good : Step → Prop) : Prop where
  /-- A line is said. -/
  say : ∀ line, d.Allows (Act.say line)
  /-- The player is looked at. -/
  player : d.Allows Act.player
  /-- A room is looked at. -/
  room : ∀ id, d.Allows (Act.room id)
  /-- An item comes with good scripts. -/
  item : ∀ id, d.Obeys (Item.ScriptsAre good) (Act.item id)
  /-- A fixture comes with good scripts. -/
  fixture : ∀ id, d.Obeys (Fixture.ScriptsAre good) (Act.fixture id)
  /-- A good script runs. -/
  run : ∀ script, (∀ s ∈ script, good s) → d.Allows (Scene.run script)
  /-- The room in which the player is gets shown again. -/
  look : d.Allows (Scene.enter false)
  /-- The player moves. -/
  goTo : ∀ destination, d.Allows (Action.goTo destination)
  /-- The player picks up an item. -/
  pickUp : ∀ listed item, d.Allows (Action.pickUp listed item)
  /-- The player answers in a fight. -/
  answer : ∀ messages command, d.Allows (Fight.answer messages command)

/-- What has to be shown of the parts of commands that leave the player and the things where they
are and fight nobody, if acts that do not obey come last in them. -/
structure Errands (d : Discipline) (good : Step → Prop) (last : Act Unit → Prop) : Prop where
  /-- What obeys may come last. -/
  of_allows : ∀ {act : Act Unit}, d.Allows act → last act
  /-- What obeys may come before what comes last. -/
  after : ∀ {α : Type} {post : α → Prop} {act : Act α} {next : α → Act Unit},
    d.Obeys post act → (∀ a, post a → last (next a)) → last (act >>= next)
  /-- A line is said. -/
  say : ∀ line, d.Allows (Act.say line)
  /-- The player is looked at. -/
  player : d.Allows Act.player
  /-- A room is looked at. -/
  room : ∀ id, d.Allows (Act.room id)
  /-- An item comes with good scripts. -/
  item : ∀ id, d.Obeys (Item.ScriptsAre good) (Act.item id)
  /-- A fixture comes with good scripts. -/
  fixture : ∀ id, d.Obeys (Fixture.ScriptsAre good) (Act.fixture id)
  /-- A good script runs. -/
  run : ∀ script, (∀ s ∈ script, good s) → last (Scene.run script)
  /-- The room in which the player is gets shown again. -/
  look : last (Scene.enter false)

/-- What has to be shown of the parts of commands that go nowhere if acts that do not obey come last
in them. -/
structure Chores (d : Discipline) (good : Step → Prop) (last : Act Unit → Prop) : Prop
    extends Errands d good last where
  /-- The player picks up an item. -/
  pickUp : ∀ listed item, d.Allows (Action.pickUp listed item)
  /-- The player answers in a fight. -/
  answer : ∀ messages command, d.Allows (Fight.answer messages command)

/-- What has to be shown of the parts of commands if acts that do not obey come last in them. -/
structure Finish (d : Discipline) (good : Step → Prop) (last : Act Unit → Prop) : Prop
    extends Chores d good last where
  /-- The player moves. -/
  goTo : ∀ destination, last (Action.goTo destination)

namespace Errands

variable {last : Act Unit → Prop} (h : d.Errands good last)

include h

/-- An act that obeys comes before what comes last. -/
theorem before {act : Act α} {next : α → Act Unit} (hact : d.Allows act)
    (hnext : ∀ a, last (next a)) : last (act >>= next) := h.after hact fun a _ => hnext a

/-- Saying a line comes last. -/
theorem lastSay (line : String) : last (Act.say line) := h.of_allows (h.say line)

/-- Saying several lines comes last. -/
theorem sayAll (lines : List String) : last (Act.sayAll lines) :=
  h.of_allows (allows_forM h.say lines)

/-- Looking at the room in which the player is obeys. -/
theorem currentRoom : d.Allows Action.currentRoom := h.player.bind fun player =>
  h.room player.location

/-- Looking at things. -/
theorem inspect (messages : Messages) (phrase : String) :
    last (Action.inspect messages phrase) := by
  refine h.before h.currentRoom fun room => ?_
  cases Phrase.resolve phrase room.objects with
  | some id =>
    refine h.after (h.fixture id) fun fixture hfixture => h.before (h.say _) fun _ => ?_
    exact h.run _ hfixture.1
  | none =>
    refine h.before h.player fun player => ?_
    cases Phrase.resolve phrase (player.visibleItems room ++ player.inventory) with
    | some id => exact h.after (h.item id) fun item _ => h.lastSay _
    | none => exact h.lastSay _

/-- Using things. -/
theorem use (messages : Messages) (phrase : String) : last (Action.use messages phrase) := by
  refine h.before h.currentRoom fun room => ?_
  cases Phrase.resolve phrase room.objects with
  | some id =>
    refine h.after (h.fixture id) fun fixture hfixture => ?_
    split
    · exact h.run _ hfixture.2.2
    · exact h.run _ hfixture.2.1
  | none =>
    refine h.before h.player fun player => ?_
    cases Phrase.resolve phrase player.inventory with
    | some id => exact h.after (h.item id) fun item hitem => h.run _ hitem.1
    | none => exact h.lastSay _

/-- Combining things. -/
theorem combine (messages : Messages) (command : Command) :
    last (Action.combine messages command) := by
  refine h.before h.player fun player => ?_
  cases Phrase.resolve (command.object.getD "") player.inventory with
  | none => exact h.lastSay _
  | some id =>
    refine h.after (h.item id) fun item hitem => ?_
    cases hscript : item.combine.get? (Phrase.normalize (command.target.getD "")) with
    | some script => exact h.run script (hitem.2 _ script hscript)
    | none => exact h.lastSay _

/-- Listing what is carried. -/
theorem inventory (messages : Messages) : last (Action.inventory messages) := by
  refine h.before h.player fun player => ?_
  show last (if player.inventory.isEmpty then Act.say messages.inventoryEmpty
    else Act.sayAll ("Inventar:" :: player.inventory.map fun id => "- " ++ id))
  split
  · exact h.lastSay _
  · exact h.sayAll _

/-- A command that needs an object. -/
theorem withObject (messages : Messages) (command : Command) {act : String → Act Unit}
    (hact : ∀ phrase, last (act phrase)) : last (Action.withObject messages command act) := by
  unfold Action.withObject
  cases command.object with
  | some phrase => exact hact phrase
  | none => exact h.lastSay _

/-- Going through an exit. -/
theorem move (hgoTo : ∀ destination, last (Action.goTo destination)) (messages : Messages)
    (command : Command) : last (Action.move messages command) := by
  refine h.before h.currentRoom fun room => ?_
  dsimp only
  cases room.exits.get? (Action.exitName command) with
  | none => exact h.lastSay _
  | some destination =>
    refine h.before h.player fun player => ?_
    split
    · exact h.lastSay _
    · exact hgoTo destination

/-- A command outside fights that does not go, take or attack. -/
theorem explore (messages : Messages) {command : Command} (hgo : command.verb ≠ .go)
    (htake : command.verb ≠ .take) (hattack : command.verb ≠ .attack) :
    last (Action.explore messages command) := by
  -- Opening, closing, pushing and pulling are uses of what is named.
  have huse := h.withObject messages command (h.use messages)
  unfold Action.explore
  cases hverb : command.verb with
  | go => exact absurd hverb hgo
  | take => exact absurd hverb htake
  | inspect | look =>
    dsimp only
    cases command.object with
    | some phrase => exact h.inspect messages phrase
    | none => exact h.look
  | use => exact huse
  | openUp => exact huse
  | close => exact huse
  | push => exact huse
  | pull => exact huse
  | combine => exact h.combine messages command
  | inventory => exact h.inventory messages
  | help => exact h.sayAll _
  | attack => exact absurd hverb hattack
  | other _ => exact h.lastSay _

end Errands

namespace Chores

variable {last : Act Unit → Prop} (h : d.Chores good last)

include h

/-- Taking an item. -/
theorem take (messages : Messages) (phrase : String) : last (Action.take messages phrase) := by
  refine h.before h.currentRoom fun room => h.before h.player fun player => ?_
  cases Phrase.resolve phrase (player.visibleItems room) with
  | none => exact h.lastSay _
  | some listed =>
    refine h.after (h.item listed) fun item _ => ?_
    split
    · exact h.of_allows (h.pickUp listed item)
    · exact h.lastSay _

/-- A command outside fights that goes nowhere. -/
theorem explore (messages : Messages) {command : Command} (hgo : command.verb ≠ .go) :
    last (Action.explore messages command) := by
  by_cases htake : command.verb = .take
  · unfold Action.explore
    rw [htake]
    exact h.withObject messages command (h.take messages)
  by_cases hattack : command.verb = .attack
  · unfold Action.explore
    rw [hattack]
    exact h.of_allows (h.answer messages command).discard
  exact h.toErrands.explore messages hgo htake hattack

end Chores

namespace Finish

variable {last : Act Unit → Prop} (h : d.Finish good last)

include h

/-- A command outside fights. -/
theorem explore (messages : Messages) (command : Command) :
    last (Action.explore messages command) := by
  by_cases hverb : command.verb = .go
  · unfold Action.explore
    rw [hverb]
    exact h.move h.goTo messages command
  · exact h.toChores.explore messages hverb

/-- Every command. -/
theorem perform (world : World) (command : Command) : last (Action.perform world command) := by
  refine h.before h.player fun player => ?_
  split
  · exact h.of_allows (h.answer world.messages command).discard
  · exact h.explore world.messages command

end Finish

/-- Where all parts of commands obey, none of them has to come last. -/
theorem Commands.finish (h : d.Commands good) : d.Finish good d.Allows where
  of_allows hact := hact
  after := d.bind
  say := h.say
  player := h.player
  room := h.room
  item := h.item
  fixture := h.fixture
  run := h.run
  look := h.look
  goTo := h.goTo
  pickUp := h.pickUp
  answer := h.answer

/-- Every command obeys. -/
theorem Commands.perform (h : d.Commands good) (world : World) (command : Command) :
    d.Allows (Action.perform world command) := h.finish.perform world command

end Discipline

end TextAdventure
