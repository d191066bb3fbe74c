import TextAdventure.Proofs.Shared
import TextAdventure.Proofs.Storable

/-!
# What was taken is gone for good

An item that was taken out of a room is recorded under the id that the room lists, and no change in
play takes a record back (`Player.upheld_taken`). The record is saved together with the item, and
whoever reads the save has it again. So after a command has taken an item (`Session.Takes`), the
item lies in no room until the adventure is begun anew (`Session.Later`), whatever the content says
by then, whatever is typed, and also in sessions that were opened later and go on from the save
(`Session.taken_is_gone`).
-/

namespace TextAdventure

namespace Player

/-- Getting an item takes no record back. -/
theorem takenItems_addItem (p : Player) (id : String) :
    (p.addItem id).takenItems = p.takenItems := by
  unfold addItem
  split <;> rfl

/-- Taking an item records it under the id that the room lists. -/
theorem contains_takeItem (p : Player) (listed id listed' : String) :
    (p.takeItem listed id).takenItems.contains listed' =
      (decide (listed' = listed) || p.takenItems.contains listed') := by
  unfold takeItem
  rw [takenItems_addItem]
  exact IdSet.contains_add p.takenItems listed listed'

/-- Every change in play leaves the record of an item that was taken. -/
theorem upheld_taken (listed : String) (good : Step → Prop) :
    Upheld (fun p => p.takenItems.contains listed = true) good where
  transition _ _ h := h
  strengthen h _ := h
  addItem {p} h id := (p.takenItems_addItem id).symm ▸ h
  takeItem {p} h listed' id := by
    -- A taken item is recorded under the id that lists it; the others stay recorded.
    rw [contains_takeItem, h, Bool.or_true]
  markVisited h _ := h
  beginCombat h _ := h
  endCombat h := h
  strike h _ _ := h
  -- No revision takes an item off the record; only an added item touches it at all.
  revision {s r} _ hr p h := by
    cases hr using Step.cases_of_revision? with
    | setFlag _ _ =>
      exact h
    | addItem id =>
      exact (p.takenItems_addItem id).symm ▸ h
    | removeItem _ =>
      exact h
    | unlockExit _ _ =>
      exact h
    | lockExit _ _ =>
      exact h

/-- A player who can be saved, with a record of an item that was taken. -/
def Took (listed : String) (p : Player) : Prop :=
  p.Storable ∧ p.takenItems.contains listed = true

/-- Every change in play leaves such a player, if scripts set flags only to values that can be
saved. -/
theorem upheld_took (listed : String) : Upheld (Took listed) Step.Storable :=
  upheld_storable.and (upheld_taken listed Step.Storable)

/-- Such a player took the item wherever it is. -/
theorem took_anywhere (listed : String) : Anywhere (Took listed) := fun h room =>
  ⟨storable_anywhere h.1 room, h.2⟩

/-- The player that the save of such a player is read as is one as well. -/
theorem Took.recalled {listed : String} {p : Player} (h : p.Took listed) :
    p.recalled.Took listed := ⟨h.1.recalled, h.2⟩

/-- What was taken lies in no room. -/
theorem Took.notMem_visibleItems {listed : String} {p : Player} (h : p.Took listed)
    (room : Room) : listed ∉ p.visibleItems room := by
  intro hmem
  have hfree := (List.mem_filter.mp hmem).2
  rw [h.2] at hfree
  cases hfree

/-- What is carried lies in no room. -/
theorem notMem_visibleItems_of_hasItem {p : Player} {id : String} (h : p.hasItem id = true)
    (room : Room) : id ∉ p.visibleItems room := by
  intro hmem
  have hfree := (List.mem_filter.mp hmem).2
  rw [h, Bool.not_true, Bool.and_false] at hfree
  cases hfree

end Player

open Promise (invariant)

/-- The player took an item, and so did the one of the save. -/
structure Play.Remembers (listed : String) (p : Play) : Prop where
  /-- The player did. -/
  player : p.player.Took listed
  /-- The player of the save did. -/
  saved : ∃ r : Player, r.Took listed ∧ p.saves.entries.get? p.saveKey = some r.save

/-- What was taken stays taken in play, over any content. -/
theorem Play.upkeep_remembers (listed : String) :
    Upkeep (fun p => p.library.FromTexts ∧ p.Remembers listed) (Player.Took listed)
      Step.Storable :=
  Play.upkeep_fromTexts (Player.upheld_took listed) (fun hp => hp.player)
    (fun {p q} hp hq hbeside => by
      obtain ⟨r, hr, hsaved⟩ := hp.saved
      refine ⟨hq, ?_⟩
      rw [hbeside.saveKey]
      -- The save is the one that was there, or the player as it is now.
      rcases hbeside.entries with hsame | hnew
      · exact ⟨r, hr, hsame ▸ hsaved⟩
      · exact ⟨q.player, hq, hnew ▸ Table.get?_insert_self _ _ _⟩)
    fun _ _ hp => ⟨hp.player, hp.saved⟩

namespace Session

variable {s t : Session} {source : Source} {saves saves' : Saves} {line listed : String}

/-- The answer to a session that asks for the room in which its player is. -/
def roomAnswer (s : Session) (source : Source) : Library.Answer Room :=
  Library.getRoom source s.player.location (Library.getWorld source s.library).library

/-- The answer to a session that then asks for an item. -/
def itemAnswer (s : Session) (source : Source) (id : String) : Library.Answer Item :=
  Library.getItem source id (s.roomAnswer source).library

/-- A line of input is a command to take that picks up the item which the room lists under an id. -/
structure Takes (s : Session) (source : Source) (line listed : String) : Prop where
  /-- The session takes input. -/
  active : s.active = true
  /-- No fight is on. -/
  free : s.player.inCombat = false
  /-- The line is a command to take. -/
  verb : (Command.parse line).verb = .take
  /-- The content has a world. -/
  world : ∃ w, (Library.getWorld source s.library).result = .ok w
  /-- The room lists the item that is meant, and it lies there. -/
  lies : ∃ phrase room, (Command.parse line).object = some phrase ∧
    (s.roomAnswer source).result = .ok room ∧
      Phrase.resolve phrase (s.player.visibleItems room) = some listed
  /-- The item can be picked up. -/
  item : ∃ item, (s.itemAnswer source listed).result = .ok item ∧ item.pickup = true

/-- A session may be in the state, with a store that does not fail. Its player can be saved, and if
it takes input, it took the item; and so did the player of the save. -/
structure Remembers (listed : String) (s : Session) (saves : Saves) : Prop where
  /-- The library holds documents that were read from texts. -/
  fromTexts : s.library.FromTexts
  /-- The player can be saved. -/
  storable : s.player.Storable
  /-- The player of a session that takes input took the item. -/
  player : s.active = true → s.player.Took listed
  /-- The player of the save took the item. -/
  saved : ∃ r : Player, r.Took listed ∧ saves.entries.get? s.saveKey = some r.save

/-- A session after another one, with the store then, and the adventure not begun anew in between:
it got requests over any content, whether they were carried out or failed, its library was cleared,
and new sessions were opened that play from the same save. -/
inductive Later (s : Session) (saves : Saves) : Session → Saves → Prop where
  /-- Nothing has happened. -/
  | now : Later s saves s saves
  /-- A request is carried out, or fails. -/
  | request {t : Session} {saves' : Saves} (h : Later s saves t saves') (source : Source)
    (r : Request) (hr : r.Begins = false) :
    Later s saves (t.handle source saves' r).session (t.handle source saves' r).saves
  /-- The library is cleared. -/
  | clear {t : Session} {saves' : Saves} (h : Later s saves t saves') :
    Later s saves t.clearLibrary saves'
  /-- A new session is opened. -/
  | reopen {t : Session} {saves' : Saves} (h : Later s saves t saves')
    (id title worldFile : String) (stats : Stats) :
    Later s saves (new id title worldFile t.saveKey stats) saves'

/-- A command that takes an item succeeds, records that the item was taken, and saves the record. -/
theorem ends_input_takes (h : s.Takes source line listed) (hsaves : saves.Reliable) :
    (input line).Ends (s.play source saves) (fun _ q =>
      q.player.takenItems.contains listed = true ∧
        q.saves.entries.get? q.saveKey = some q.player.save) fun _ _ => False := by
  -- The command is followed to its end: the session is on, the world is there, nobody fights.
  obtain ⟨w, hw⟩ := h.world
  obtain ⟨phrase, room, hphrase, hroom, hresolve⟩ := h.lies
  obtain ⟨item, hitem, hpickup⟩ := h.item
  unfold input Act.world
  rw [Act.ends_bind, ends_requireActive]
  refine ⟨fun _ => ?_, fun hoff => Bool.noConfusion (h.active.symm.trans hoff)⟩
  rw [Act.ends_bind, Act.ends_ask]
  refine ⟨fun world _ => ?_, fun e he => nomatch hw.symm.trans he⟩
  unfold Action.perform
  rw [Act.ends_bind, Act.ends_player, Play.player_answered]
  have hfree : (s.play source saves).player.inCombat = false := h.free
  rw [hfree, if_neg (by simp)]
  -- The verb takes what the phrase names.
  unfold Action.explore
  rw [h.verb]
  unfold Action.withObject
  rw [hphrase]
  dsimp only
  unfold Action.take Action.currentRoom Act.room
  rw [Act.ends_bind, Act.ends_bind, Act.ends_player, Act.ends_ask]
  refine ⟨fun room' hroom' => ?_, fun e he => nomatch hroom.symm.trans he⟩
  obtain rfl : room = room' := Except.ok.inj (hroom.symm.trans hroom')
  rw [Act.ends_bind, Act.ends_player, Play.player_answered, Play.player_answered]
  -- The room lists the item, and the item may be picked up.
  have hlisted : Phrase.resolve phrase ((s.play source saves).player.visibleItems room) =
    some listed := hresolve
  rw [hlisted]
  dsimp only
  unfold Act.item
  rw [Act.ends_bind, Act.ends_ask]
  refine ⟨fun item' hitem' => ?_, fun e he => nomatch hitem.symm.trans he⟩
  obtain rfl : item = item' := Except.ok.inj (hitem.symm.trans hitem')
  rw [if_pos hpickup]
  unfold Action.pickUp
  rw [Act.ends_bind, Act.ends_changePlayer, Act.ends_bind, Act.ends_say, Act.ends_persist]
  -- Nothing is refused by a store that is reliable.
  have hputs : saves.puts = none := hsaves.puts
  refine ⟨fun hrefused => ?_, fun left _ => ⟨?_, Table.get?_insert_self _ _ _⟩⟩
  · have hlimit : Saves.spend saves.puts = none := hrefused
    rw [hputs] at hlimit
    cases hlimit
  · show ((s.player.takeItem listed item.id).takenItems.contains listed) = true
    rw [Player.contains_takeItem, decide_eq_true rfl, Bool.true_or]

/-- After a command has taken an item, the session remembers it. -/
theorem remembers_of_takes (hs : s.library.FromTexts ∧ s.player.Storable)
    (h : s.Takes source line listed) (hsaves : saves.Reliable) :
    Remembers listed (s.handle source saves (.input line)).session
      (s.handle source saves (.input line)).saves := by
  have hstorable := (Request.input line).storable (s.play source saves) hs
  have hends := (ends_input_takes h hsaves).and hstorable
  refine handle_of_both_ends (r := .input line) (J := fun t saves' _ =>
    Remembers listed t saves') (hends.imp ?_ fun _ _ hfalse => hfalse.1.elim)
  intro _ q ⟨⟨htaken, hsaved⟩, hfrom, hplayer⟩
  exact ⟨hfrom, hplayer, fun _ => ⟨hplayer, htaken⟩, q.player, ⟨hplayer, htaken⟩, hsaved⟩

/-- A state in which play goes on remembers the item. -/
theorem remembers_of_play {q : Play} (h : q.library.FromTexts ∧ q.Remembers listed) :
    Remembers listed q.toSession q.saves :=
  ⟨h.1, h.2.player.1, fun _ => h.2.player, h.2.saved⟩

/-- A session that does not take input refuses a line; one that does remembers the item
afterwards. -/
theorem Remembers.input (h : t.Remembers listed saves) (line : String) :
    (input line).Ends (t.play source saves) (fun _ q => Remembers listed q.toSession q.saves)
      fun _ q => Remembers listed q.toSession q.saves := by
  cases hactive : t.active with
  | true =>
    have hplay : (t.play source saves).library.FromTexts ∧
        (t.play source saves).Remembers listed :=
      ⟨h.fromTexts, h.player hactive, h.saved⟩
    have hkeeps := (Play.upkeep_remembers listed).input (Player.took_anywhere listed) line
    exact (hkeeps _ hplay).imp (fun _ _ hq => remembers_of_play hq) fun _ _ hq =>
      remembers_of_play hq
  | false =>
    unfold Session.input
    rw [Act.ends_bind, ends_requireActive]
    exact ⟨fun hon => Bool.noConfusion (hactive.symm.trans hon), fun _ => h⟩

/-- A session that goes on from its save remembers the item. -/
theorem Remembers.resume (h : t.Remembers listed saves) (hsaves : saves.Reliable) :
    resume.Ends (t.play source saves) (fun _ q => Remembers listed q.toSession q.saves)
      fun _ q => Remembers listed q.toSession q.saves := by
  obtain ⟨r, hr, hsaved⟩ := h.saved
  have hworld : _ ∧ (Library.getWorld source t.library).library.FromTexts := h.fromTexts.getWorld
  cases hw : (Library.getWorld source t.library).result with
  | error e =>
    unfold Session.resume Act.world
    rw [Act.ends_bind, Act.ends_ask]
    exact ⟨fun w hw' => (nomatch hw.symm.trans hw'),
      fun _ _ => ⟨hworld.2, h.storable, h.player, r, hr, hsaved⟩⟩
  | ok w =>
    have hkey : (ready (t.play source saves) w).saves.entries.get?
      (ready (t.play source saves) w).saveKey = some r.save := hsaved
    rw [ends_resume hw, ends_goOn hkey hr.1]
    refine ⟨fun hrefused => ?_, fun left _ => ?_⟩
    · have hlimit : Saves.spend saves.gets = none := hrefused
      rw [hsaves.gets] at hlimit
      cases hlimit
    -- The player of the save took the item, whoever the session had before.
    · have hloaded : (loaded (ready (t.play source saves) w) r.recalled left).library.FromTexts ∧
          (loaded (ready (t.play source saves) w) r.recalled left).Remembers listed :=
        ⟨hworld.2, hr.recalled, r, hr, hsaved⟩
      exact ((Play.upkeep_remembers listed).proceed _ hloaded).imp
        (fun _ _ hq => remembers_of_play hq) fun _ _ hq => remembers_of_play hq

/-- A session that is left remembers the item. -/
theorem Remembers.leave (h : t.Remembers listed saves) :
    leave.Ends (t.play source saves) (fun _ q => Remembers listed q.toSession q.saves)
      fun _ q => Remembers listed q.toSession q.saves := by
  unfold Session.leave deactivate
  rw [Act.ends_bind, Act.ends_modify, Act.ends_sayAll]
  exact ⟨h.fromTexts, h.storable, fun hon => Bool.noConfusion hon, h.saved⟩

/-- A session remembers the item after every request that does not begin the adventure anew. -/
theorem Remembers.request (h : t.Remembers listed saves) (hsaves : saves.Reliable)
    (source : Source) {r : Request} (hr : r.Begins = false) :
    Remembers listed (t.handle source saves r).session (t.handle source saves r).saves := by
  refine handle_of_both_ends (J := fun t saves' _ => Remembers listed t saves') ?_
  cases r with
  | start => cases hr
  | reset => cases hr
  | resume => exact h.resume hsaves
  | input line => exact h.input line
  | leave => exact h.leave

/-- Later sessions remember the item, and the store is still one that does not fail. -/
theorem Later.remembers (h : Later s saves t saves') (hsaves : saves.Reliable)
    (hs : s.Remembers listed saves) : t.Remembers listed saves' ∧ saves'.Reliable := by
  induction h with
  | now => exact ⟨hs, hsaves⟩
  | @request t saves' _ source r hr ih =>
    exact ⟨ih.1.request ih.2 source hr, (t.handle_laidOver source saves' r .empty).2.2 ih.2⟩
  | clear _ ih => exact ⟨⟨Library.fromTexts_empty _, ih.1.storable, ih.1.player, ih.1.saved⟩, ih.2⟩
  | reopen _ id title worldFile stats ih =>
    exact ⟨⟨Library.fromTexts_empty _, storable_nowhere, fun hon => Bool.noConfusion hon,
      ih.1.saved⟩, ih.2⟩

/-- What was taken is gone for good. Whatever happened to a session before, if the store does not
fail and a command takes the item that a room lists under an id, then in every later session that
takes input this id is not among the visible items of any room, until the adventure is begun anew.
And no session ever has an id that is both carried and visible. -/
theorem taken_is_gone (hs : Possible s) (hsaves : saves.Reliable)
    (htakes : s.Takes source line listed)
    (hlater : Later (s.handle source saves (.input line)).session
      (s.handle source saves (.input line)).saves t saves') :
    (t.active = true → ∀ room, listed ∉ t.player.visibleItems room) ∧
      ∀ u : Session, Possible u → ∀ id room, u.player.hasItem id = true →
        id ∉ u.player.visibleItems room := by
  have hreliable := (s.handle_laidOver source saves (.input line) .empty).2.2 hsaves
  have hafter := remembers_of_takes (storable_of_possible hs) htakes hsaves
  refine ⟨fun hactive room => ?_, fun u _ id room hcarried =>
    Player.notMem_visibleItems_of_hasItem hcarried room⟩
  exact ((hlater.remembers hreliable hafter).1.player hactive).notMem_visibleItems room

/-- A cellar in which a lamp lies, which is carried as a lantern. -/
def cellar : Source
  | "world.json" => .ok (Json.object [("startRoom", .string "cellar")]).compactText
  | "rooms/cellar.json" => .ok (Json.object [
      ("id", .string "cellar"), ("items", .stringList ["lamp"])]).compactText
  | "items/lamp.json" => .ok (Json.object [
      ("id", .string "lantern"), ("pickup", .bool true)]).compactText
  | path => .error (.load path "missing")

/-- The reply to starting in the cellar. -/
def cellarBegun : Reply :=
  (new "cellar" "Cellar" Library.standardWorldFile "save" .starting).handle cellar .empty .start

/-- The reply to taking the lamp then. -/
def lampTaken : Reply :=
  cellarBegun.session.handle cellar cellarBegun.saves (.input "nimm lamp")

/-- The reply to going on from the save in a new session for which there is no content but the
world. -/
def wentOn : Reply :=
  (new "cellar" "Cellar" "world.json" lampTaken.session.saveKey .starting).handle
    (fun path => if path = "world.json" then cellar path else .error (.load path "missing"))
    lampTaken.saves .resume

/-- The command takes the lamp. -/
theorem takes_lamp : cellarBegun.session.Takes cellar "nimm lamp" "lamp" := by
  have hsession : cellarBegun.session.active = true ∧ cellarBegun.session.player.inCombat = false ∧
      (Command.parse "nimm lamp").verb = .take ∧
        (Command.parse "nimm lamp").object = some "lamp" := by decide +kernel
  have hanswers :
      (Library.getWorld cellar cellarBegun.session.library).result.toOption.any (fun _ => true) =
        true ∧
      (cellarBegun.session.roomAnswer cellar).result.toOption.any (fun room =>
        Phrase.resolve "lamp" (cellarBegun.session.player.visibleItems room) == some "lamp") =
        true ∧
      (cellarBegun.session.itemAnswer cellar "lamp").result.toOption.any (·.pickup) = true := by
    decide +kernel
  obtain ⟨hactive, hfree, hverb, hobject⟩ := hsession
  obtain ⟨hworld, hroom, hitem⟩ := hanswers
  obtain ⟨w, hw, -⟩ := Library.exists_of_any hworld
  obtain ⟨room, hroom, hresolve⟩ := Library.exists_of_any hroom
  exact ⟨hactive, hfree, hverb, ⟨w, hw⟩, ⟨"lamp", room, hobject, hroom, eq_of_beq hresolve⟩,
    Library.exists_of_any hitem⟩

/-- The lamp is gone in a session that was opened after it was taken, although that session found no
room. -/
theorem taken_is_gone_cellar :
    (Possible cellarBegun.session ∧ cellarBegun.saves.Reliable ∧
      cellarBegun.session.Takes cellar "nimm lamp" "lamp" ∧
      Later lampTaken.session lampTaken.saves wentOn.session wentOn.saves ∧
      wentOn.session.active = true) ∧
      (wentOn.session.active = true →
        ∀ room, "lamp" ∉ wentOn.session.player.visibleItems room) ∧
      ∀ u : Session, Possible u → ∀ id room, u.player.hasItem id = true →
        id ∉ u.player.visibleItems room := by
  have hpossible : Possible cellarBegun.session := .request (.new ..) cellar .empty .start
  have hreliable : cellarBegun.saves.Reliable :=
    (handle_laidOver _ cellar .empty .start .empty).2.2 Saves.reliable_empty
  have hactive : wentOn.session.active = true := by decide +kernel
  have hlater : Later lampTaken.session lampTaken.saves wentOn.session wentOn.saves :=
    .request (.reopen .now "cellar" "Cellar" "world.json" .starting) _ .resume rfl
  exact ⟨⟨hpossible, hreliable, takes_lamp, hlater, hactive⟩,
    taken_is_gone hpossible hreliable takes_lamp hlater⟩

end Session

end TextAdventure
