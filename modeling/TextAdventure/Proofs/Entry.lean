import Mathlib.Data.List.TakeWhile
import TextAdventure.Proofs.Chronicle
import TextAdventure.Proofs.Passage

/-!
# When a room is entered for the first time

Along every run the rooms that a player has seen are those that were shown since the adventure was
begun last, and each room that is shown is followed by the script that is due: the one for the first
entry if an effect leads there, the adventure begins there or the room was not shown since, and
otherwise the one for later entries (`Session.entered_as_due`).

What a command does before it shows a room or runs a script is hushed, and nothing comes after
(`Discipline.Finish`). So the events of a request are calm ones, then at most one room, and then
what a script recounts.
-/

namespace TextAdventure

namespace Event

/-- Whether an event is that something was left out. -/
def isLeftOut : Event → Bool
  | .leftOut => true
  | _ => false

instance (events : List Event) : Decidable (.leftOut ∈ events) :=
  decidable_of_iff (∃ e ∈ events, e.isLeftOut = true) <| by
    constructor
    · rintro ⟨e, hmem, he⟩
      cases e with
      | leftOut => exact hmem
      | _ => cases he
    · exact fun hmem => ⟨_, hmem, rfl⟩

/-- Whether an event is that a room was shown. -/
def isShowing (id : String) : Event → Bool
  | .shown room _ => room == id
  | _ => false

instance (id : String) (events : List Event) : Decidable (Shows id events) :=
  decidable_of_iff (∃ e ∈ events, e.isShowing id = true) <| by
    constructor
    · rintro ⟨e, hmem, he⟩
      cases e with
      | shown room first => exact ⟨first, eq_of_beq he ▸ hmem⟩
      | _ => cases he
    · rintro ⟨first, hmem⟩
      exact ⟨_, hmem, beq_self_eq_true id⟩

end Event

open Event (Shows)

/-- What the journal of an act tells of the rooms that were shown, if these rooms had been seen
before. -/
structure Play.Admits (source : Source) (seen : Player) (q : Play) : Prop where
  /-- A room is entered for the first time if an effect leads there or if it was not seen, and then
  its script for this entry runs. -/
  rooms : ∀ before id first after, q.journal.reverse = before ++ .shown id first :: after →
    (first = true ↔ headedFor before.reverse = some id ∨
      ¬(seen.hasVisited id = true ∨ Shows id before)) ∧
      (.leftOut ∉ after → RunsNext source id first after)
  /-- The rooms seen are those seen before and those shown. -/
  visited : ∀ id, q.player.hasVisited id = true ↔ seen.hasVisited id = true ∨ Shows id q.journal
  /-- The player is somewhere, unless something was left out. -/
  arrived : .leftOut ∈ q.journal ∨ q.player.HasArrived

/-- The state in which a request goes on that has shown no room yet. -/
structure Play.Opens (source : Source) (p : Play) : Prop where
  /-- The library has read the source. -/
  reads : p.Reads source
  /-- Nothing but calm events happened. -/
  calm : ∀ e ∈ p.journal, e.isCalm = true

namespace Play

variable {source : Source} {p q m : Play} {seen : Player}

/-- Calm events leave a request where it was. -/
theorem Opens.of_calm (h : p.Opens source) (hreads : m.Reads source) (hm : p.Calm m) :
    m.Opens source := by
  obtain ⟨new, hnew, hcalm⟩ := hm
  refine ⟨hreads, fun e he => ?_⟩
  rw [hnew] at he
  exact (List.mem_append.mp he).elim (hcalm e) (h.calm e)

/-- What is hushed leaves a request where it was. -/
theorem Opens.hushed (h : p.Opens source) (hm : (Promise.hushed source).ok p m) :
    m.Opens source := h.of_calm hm.1.reads hm.2

/-- Calm events before a request has shown a room show none. -/
theorem Opens.not_shows (h : p.Opens source) (id : String) : ¬Shows id p.journal :=
  Event.not_shows_of_calm h.calm id

/-- What was seen before matters only as far as rooms go. -/
theorem Admits.of_visited {seen' : Player} (h : q.Admits source seen)
    (hsame : ∀ id, seen'.hasVisited id = seen.hasVisited id) : q.Admits source seen' := by
  refine ⟨?_, ?_, h.arrived⟩
  · intro before id first after
    rw [hsame]
    exact h.rooms before id first after
  · intro id
    rw [hsame]
    exact h.visited id

/-- Rooms that effects lead to are admitted: they are entered for the first time. -/
theorem admits_of_recounts {effects : List Step} {events : List Event} (hp : p.Opens source)
    (harrived : p.player.HasArrived) (h : p.Recounts source effects events q) :
    q.Admits source p.player := by
  -- From now on the journal reads from the oldest event to the newest.
  have hjournal : q.journal.reverse = p.journal.reverse ++ events := by
    rw [h.journal, List.reverse_append, List.reverse_reverse]
  refine ⟨fun before id first after heq => ?_, fun id => ?_, ?_⟩
  · rw [hjournal] at heq
    -- Nothing was shown in what was there before, so a room is shown among the new events.
    rcases split_append heq with ⟨between, hbefore, -⟩ | ⟨between, rfl, hevents⟩
    · refine absurd ⟨first, ?_⟩ (hp.not_shows id)
      rw [← List.mem_reverse, hbefore]
      exact List.mem_append_right _ List.mem_cons_self
    · obtain ⟨rfl, hheaded, hruns⟩ := h.staged between id first after hevents
      rw [List.reverse_append, List.reverse_reverse]
      refine ⟨iff_of_true rfl (.inl hheaded), fun hleft => ?_⟩
      have hnext := hruns [] hleft
      rw [List.append_nil] at hnext
      exact hnext
  · rw [h.visited, h.journal, Event.shows_append, Event.shows_reverse,
      or_iff_left (hp.not_shows id)]
  -- The player had arrived, and is on the way only if something was left out.
  · refine (h.arrived harrived).imp_left fun hleft => ?_
    rw [h.journal]
    exact List.mem_append_left _ (List.mem_reverse.mpr hleft)

/-- A room is admitted that a request shows after calm events, and so are the rooms to which its
script leads. -/
theorem admits_of_entered {room : Room} {first : Bool} {before events : List Event}
    (hp : p.Opens source) (hsource : source.NamesRooms)
    (hfirst : first = !p.player.hasVisited p.player.location)
    (hm : p.Entered source first room before m) (h : m.Recounts source [] events q)
    (hruns : Runs (room.entryScript first) events) : q.Admits source p.player := by
  -- The source names its rooms, so the room that was shown is the one where the player is.
  have hid : room.id = p.player.location := hsource _ room hm.isRoom
  have hjournal : q.journal.reverse =
      (p.journal.reverse ++ before) ++ .shown room.id first :: events := by
    rw [h.journal, hm.journal]
    simp
  have hcalm : ∀ e ∈ p.journal.reverse ++ before, e.isCalm = true := by
    intro e he
    rcases List.mem_append.mp he with hold | hnew
    · exact hp.calm e (List.mem_reverse.mp hold)
    · exact hm.calm e hnew
  -- What follows the room is staged behind it, and behind everything that came before.
  have hstaged : Staged source (.shown room.id first :: (p.journal.reverse ++ before).reverse)
      events := by
    have hevents := h.staged
    rw [hm.journal] at hevents
    rw [List.reverse_append, List.reverse_reverse]
    exact hevents
  refine ⟨fun before' id first' after heq => ?_, fun id => ?_, ?_⟩
  · rw [hjournal] at heq
    rcases hstaged.split_shown hcalm heq with ⟨rfl, rfl, rfl, rfl⟩ | ⟨rfl, hheaded, hnext⟩
    -- This is the room that the request itself shows.
    · have hheaded : headedFor (p.journal.reverse ++ before).reverse = none :=
        headedFor_of_calm fun e he => hcalm e (List.mem_reverse.mp he)
      refine ⟨?_, fun hleft => ⟨room, ?_, ?_⟩⟩
      · rw [hheaded, or_iff_left (Event.not_shows_of_calm hcalm room.id), hid, hfirst]
        simp
      · rw [hid]
        exact hm.isRoom
      · have hnext := hruns hleft [] rfl
        rw [List.append_nil] at hnext
        exact hnext
    -- This is a room to which an effect of the script leads.
    · refine ⟨iff_of_true rfl (.inl hheaded), fun hleft => ?_⟩
      have hnext' := hnext [] hleft
      rw [List.append_nil] at hnext'
      exact hnext'
  -- Rooms are visited when they are shown: the first one by the request, the others by its script.
  · have hshows : Shows id q.journal ↔ id = room.id ∨ Shows id events := by
      have hnone := Event.not_shows_of_calm hcalm id
      rw [← Event.shows_reverse, hjournal, Event.shows_append, or_iff_right hnone,
        Event.shows_cons]
      simp [eq_comm]
    rw [h.visited, hm.visited, hshows, or_comm (a := id = room.id), or_assoc]
  -- The player is in the room that was shown, and hence has arrived when its script begins.
  · have harrived : m.player.HasArrived := by
      unfold Player.HasArrived
      rw [hm.visited, hm.location]
      exact .inl hid.symm
    refine (h.arrived harrived).imp_left fun hleft => ?_
    rw [h.journal]
    exact List.mem_append_left _ (List.mem_reverse.mpr hleft)

end Play

/-! ### Commands -/

/-- An act admits rooms if the request has shown none before. -/
def Act.Admits (source : Source) (act : Act Unit) : Prop :=
  ∀ p : Play, p.Opens source → p.player.HasArrived →
    act.Ends p (fun _ q => q.Admits source p.player) fun _ _ => True

namespace Scene

variable {source : Source}

/-- A room is admitted that a player enters as the rooms seen say. -/
theorem ends_enter_admits (hsource : source.NamesRooms) {first : Bool} {p : Play}
    (hp : p.Opens source) (hfirst : first = !p.player.hasVisited p.player.location) :
    (enter first).Ends p (fun _ q => q.Admits source p.player) fun _ _ => True := by
  unfold enter run
  rw [Act.ends_bind]
  refine (ends_render_entered first hp.reads).imp_ok ?_
  rintro script m ⟨room, before, hm, rfl⟩
  refine ((Nested.recounts_within hsource maxLevels).script _ m hm.reads).imp_ok ?_
  rintro _ q ⟨events, hq, hruns⟩
  exact Play.admits_of_entered hp hsource hfirst hm hq hruns

end Scene

namespace Action

variable {source : Source}

/-- Going somewhere admits rooms. -/
theorem goTo_admits (hsource : source.NamesRooms) (destination : String) :
    (goTo destination).Admits source := by
  intro p hp _
  unfold goTo
  rw [Act.ends_bind, Act.ends_changePlayer, Act.ends_bind, Act.ends_persist]
  refine ⟨fun _ => trivial, fun left _ => ?_⟩
  rw [Act.ends_bind, Act.ends_player]
  have hopens : ((p.changing fun q => { q with location := destination }).persisted left).Opens
      source := hp.of_calm ⟨hp.reads.1, hp.reads.2⟩ (.of_cons rfl rfl)
  exact (Scene.ends_enter_admits hsource hopens rfl).imp_ok fun _ _ hq =>
    hq.of_visited fun _ => rfl

/-- What commands do last admits rooms. -/
theorem finish_admits (hsource : source.NamesRooms) :
    (Promise.hushed source).discipline.Finish (fun _ => True) (Act.Admits source) := by
  -- Only what runs a script or goes somewhere shows rooms. Everything else is hushed.
  have hbodily := Discipline.bodily_hushed source
  exact {
    of_allows := by
      intro act hact p hp harrived
      refine (hact p ⟨hp.reads, trivial⟩).imp ?_ fun _ _ _ => trivial
      intro _ q ⟨hq, _⟩
      obtain ⟨events, hq⟩ := Play.Recounts.of_hushed hq
      exact Play.admits_of_recounts hp harrived hq
    after := by
      -- An act that is hushed moves nobody, so what comes after it starts from the same place.
      intro α post act next hact hnext p hp harrived
      rw [Act.ends_bind]
      refine (hact p ⟨hp.reads, trivial⟩).imp ?_ fun _ _ _ => trivial
      intro a m ⟨hm, ha⟩
      have hsame := hm.1.samePlace
      have harrived' : m.player.HasArrived := by
        unfold Player.HasArrived
        rw [hsame.hasVisited, hsame.location]
        exact harrived
      exact (hnext a ha m (hp.hushed hm) harrived').imp_ok fun _ _ hq =>
        hq.of_visited fun id => (hsame.hasVisited id).symm
    say := hbodily.say
    player := hbodily.player
    room := fun id => hbodily.ask (Library.faithful_getRoom id)
    item := fun id => Discipline.Obeys.imp (hbodily.ask (Library.faithful_getItem id))
      fun _ _ => ⟨fun _ _ => trivial, fun _ _ _ _ _ => trivial⟩
    fixture := fun id => Discipline.Obeys.imp (hbodily.ask (Library.faithful_getFixture id))
      fun _ _ => ⟨fun _ _ => trivial, fun _ _ => trivial, fun _ _ => trivial⟩
    -- A script is recounted at the top level, where all levels are left.
    run := by
      intro script _ p hp harrived
      refine ((Nested.recounts_within hsource Scene.maxLevels).script script p hp.reads).imp_ok ?_
      rintro _ q ⟨events, hq, -⟩
      exact Play.admits_of_recounts hp harrived hq
    look := fun p hp harrived => Scene.ends_enter_admits hsource hp (by
      unfold Player.HasArrived at harrived
      rw [harrived]
      rfl)
    goTo := goTo_admits hsource
    pickUp := hbodily.pickUp
    answer := hbodily.answer }

end Action

/-! ### Runs -/

/-- The rooms that the player has seen are those that were shown, and the player is somewhere,
unless something was left out. -/
def Player.Recalls (p : Player) (journal : List Event) : Prop :=
  .leftOut ∈ journal ∨ p.HasArrived ∧ ∀ id, p.hasVisited id = true ↔ Shows id journal

/-- A player recalls the rooms that an act has shown, if it recalled those before. -/
theorem Play.Admits.recalls {source : Source} {seen : Player} {q : Play} {since : List Event}
    (h : q.Admits source seen) (hseen : ∀ id, seen.hasVisited id = true ↔ Shows id since) :
    q.player.Recalls (q.journal ++ since) := by
  refine h.arrived.imp (List.mem_append_left _) fun harrived => ⟨harrived, fun id => ?_⟩
  rw [h.visited, hseen, Event.shows_append, or_comm]

namespace Session

variable {source : Source} {p : Play}

/-- Showing the room of a player that was read from a save admits rooms. -/
theorem ends_proceed_admits (hsource : source.NamesRooms) (hp : p.Opens source) :
    proceed.Ends p (fun _ q => q.Admits source p.player) fun _ _ => True := by
  unfold proceed
  rw [Act.ends_bind, Act.ends_say, Act.ends_bind, Act.ends_player]
  have hopens : (p.noting (.said "Lade letzten Spielstand...")).Opens source :=
    hp.of_calm ⟨hp.reads.1, hp.reads.2⟩ (.of_cons rfl rfl)
  exact Scene.ends_enter_admits hsource hopens rfl

/-- A line of input admits rooms. -/
theorem input_admits (hsource : source.NamesRooms) (line : String) :
    (input line).Admits source := by
  have hfinish := Action.finish_admits hsource
  have hactive : (Promise.hushed source).discipline.Allows requireActive := by
    intro p hp
    rw [ends_requireActive]
    exact ⟨fun _ => ⟨(Promise.hushed source).refl hp, trivial⟩, fun _ => ⟨trivial, trivial⟩⟩
  have hworld : (Promise.hushed source).discipline.Allows Act.world :=
    (Discipline.bodily_hushed source).ask Library.faithful_getWorld
  exact hfinish.before hactive fun _ => hfinish.before hworld fun world =>
    hfinish.perform world _

/-- Beginning from the start room admits rooms, and none was seen before. -/
theorem ends_start_admits (hsource : source.NamesRooms) (hp : p.Reads source)
    (hjournal : p.journal = []) : start.Ends p (fun _ q => ∃ seen : Player,
      (∀ id, seen.hasVisited id = false) ∧ q.Admits source seen) fun _ _ => True := by
  -- The world document is asked for before anything else happens.
  have hasked := (Discipline.bodily_hushed source).ask Library.faithful_getWorld p ⟨hp, trivial⟩
  unfold start Act.world
  rw [Act.ends_bind]
  rw [Act.ends_ask] at hasked ⊢
  refine ⟨fun world hworld => ?_, fun _ _ => trivial⟩
  have hopens : p.Opens source := ⟨hp, fun e he => by
    rw [hjournal] at he
    cases he⟩
  obtain ⟨hreads, hcalm⟩ := hopens.hushed (hasked.1 world hworld).1
  unfold activate beginning
  simp only [Act.ends_bind, Act.ends_modify, Act.ends_get, Act.ends_pure, Act.ends_changePlayer]
  -- The state once the new player is there, who has seen no room.
  generalize hfresh : Play.changing _ _ = fresh
  have hfreshOpens : fresh.Opens source := by
    rw [← hfresh]
    exact ⟨⟨hreads.1, hreads.2⟩, hcalm⟩
  have hnone : ∀ id, fresh.player.hasVisited id = false := by
    rw [← hfresh]
    exact fun _ => rfl
  -- Once the player is saved and greeted, the start room is entered.
  rw [Act.ends_persist]
  refine ⟨fun _ => trivial, fun left _ => ?_⟩
  rw [Act.ends_say]
  have hstored : fresh.Calm (fresh.persisted left) := .of_cons rfl rfl
  have hbegun : ((fresh.persisted left).noting (.said "Starte Adventure...")).Opens source :=
    hfreshOpens.of_calm ⟨hfreshOpens.reads.1, hfreshOpens.reads.2⟩
      (hstored.trans (.of_cons rfl rfl))
  have hfirst : true = !fresh.player.hasVisited fresh.player.location := by
    rw [hnone]
    rfl
  exact (Scene.ends_enter_admits hsource hbegun hfirst).imp_ok fun _ _ hq =>
    ⟨fresh.player, hnone, hq⟩

/-- Continuing admits rooms, and those seen before are those that the saved player has seen. -/
theorem ends_resume_admits (hsource : source.NamesRooms) (hp : p.Opens source) {w : World}
    {player : Player} (hworld : (Library.getWorld p.source p.library).result = .ok w)
    (hsaved : p.saves.entries.get? p.saveKey = some player.save) (hplayer : player.Storable) :
    resume.Ends p (fun _ q => q.Admits source player.recalled) fun _ _ => True := by
  have hkey : (ready p w).saves.entries.get? (ready p w).saveKey = some player.save := hsaved
  rw [ends_resume hworld, ends_goOn hkey hplayer]
  refine ⟨fun _ => trivial, fun left _ => ?_⟩
  have hasked :=
    (Discipline.bodily_hushed source).ask Library.faithful_getWorld p ⟨hp.reads, trivial⟩
  rw [Act.ends_ask] at hasked
  have hanswered := hp.hushed (hasked.1 w hworld).1
  have hopens : (loaded (ready p w) player.recalled left).Opens source :=
    ⟨⟨hanswered.reads.1, hanswered.reads.2⟩, hanswered.calm⟩
  exact ends_proceed_admits hsource hopens

/-- A player recalls the rooms that were shown, along a run. -/
theorem invariant_recalls (hsource : source.NamesRooms) : Invariant source Player.Recalls where
  start p hp hjournal := by
    -- A new player has seen nothing, so all that counts is what this request shows.
    refine (ends_start_admits hsource hp.reads hjournal).imp_ok ?_
    rintro _ q ⟨seen, hnone, hq⟩
    have hrecalls : q.player.Recalls (q.journal ++ []) := hq.recalls fun id => by simp [hnone]
    rw [List.append_nil] at hrecalls
    exact hrecalls
  proceed p journal hp hfetched hrecalls := by
    -- Whether a level was ever left out decides between the two cases of the invariant.
    rcases hrecalls with hleft | ⟨-, hvisited⟩
    · exact Act.ends_of_forall (fun _ _ => .inl (List.mem_append_right _ hleft))
        fun _ _ => trivial
    have hopens : p.Opens source := ⟨hp.reads, fun e he => by
      obtain ⟨path, rfl⟩ := hfetched e he
      rfl⟩
    exact (ends_proceed_admits hsource hopens).imp_ok fun _ _ hq => hq.recalls hvisited
  input line p journal hp hjournal hrecalls := by
    rcases hrecalls with hleft | ⟨harrived, hvisited⟩
    · exact Act.ends_of_forall (fun _ _ => .inl (List.mem_append_right _ hleft))
        fun _ _ => trivial
    have hopens : p.Opens source := ⟨hp.reads, fun e he => by
      rw [hjournal] at he
      cases he⟩
    exact (input_admits hsource line p hopens harrived).imp_ok fun _ _ hq => hq.recalls hvisited
  said player lines journal hrecalls := by
    -- Lines that a session says are calm, and show no room.
    have hsaid : ∀ e ∈ (lines.map Event.said).reverse, e.isCalm = true := by
      intro e he
      obtain ⟨line, -, rfl⟩ := List.mem_map.mp (List.mem_reverse.mp he)
      rfl
    refine hrecalls.imp (List.mem_append_right _) fun ⟨harrived, hvisited⟩ => ⟨harrived, ?_⟩
    intro id
    rw [hvisited, Event.shows_append, or_iff_right (Event.not_shows_of_calm hsaid id)]
  recalled _ _ := Iff.rfl

/-- A request along a run, with the session and the store before it and with what happened since the
adventure was begun last. A run begins with the start of a new session. -/
inductive Asked (source : Source) : Session → Saves → List Event → Request → Prop where
  /-- A new session is started, whatever the store holds. -/
  | first {id title worldFile saveKey : String} {stats : Stats} {saves : Saves} :
    Asked source (new id title worldFile saveKey stats) saves [] .start
  /-- A session that was reached is asked for something. -/
  | next {s : Session} {saves : Saves} {journal : List Event} (h : Reached source s saves journal)
    (r : Request) : Asked source s saves journal r

/-- What happened since the adventure was begun last, as far as a request can remember. -/
def Request.since (r : Request) (journal : List Event) : List Event :=
  if r.Begins then [] else journal

/-- A line of input remembers everything. -/
theorem Request.since_input (line : String) (journal : List Event) :
    (Request.input line).since journal = journal := rfl

/-- A room has to be entered for the first time, after what happened earlier in a request: an effect
leads there, the request begins the adventure there, or the room was not shown since the adventure
was begun. -/
def Request.EntersFirst (r : Request) (journal earlier : List Event) (id : String) : Prop :=
  headedFor earlier.reverse = some id ∨ (r.Begins = true ∧ ∀ id', ¬Shows id' earlier) ∨
    ¬(Shows id (r.since journal) ∨ Shows id earlier)

/-- A request admits rooms, and those seen before are those shown since the adventure was begun. -/
theorem Asked.ends_admits {s : Session} {saves : Saves} {journal : List Event} {r : Request}
    (h : Asked source s saves journal r) (hsource : source.NamesRooms) (hr : r ≠ .leave)
    (hlevels : .leftOut ∉ journal) : r.act.Ends (s.play source saves) (fun _ q => ∃ seen : Player,
      (∀ id, seen.hasVisited id = true ↔ Shows id (r.since journal)) ∧ q.Admits source seen)
      fun _ _ => True := by
  -- A request that begins the adventure does not depend on what was before.
  have hbegin : ∀ p : Play, p.Reads source → p.journal = [] → start.Ends p
      (fun _ q => ∃ seen : Player, (∀ id, seen.hasVisited id = true ↔ Shows id []) ∧
        q.Admits source seen) fun _ _ => True := by
    intro p hp hjournal
    refine (ends_start_admits hsource hp hjournal).imp_ok ?_
    rintro _ q ⟨seen, hnone, hq⟩
    exact ⟨seen, fun id => by simp [hnone], hq⟩
  cases h with
  | first => exact hbegin _ ⟨rfl, Library.agrees_empty source _⟩ rfl
  | next hreached r =>
    have hinvariant := invariant_recalls hsource
    have hsettled := hreached.settled hinvariant
    have hagrees := hsettled.agrees
    -- What every session after a run has: the world, a library that agrees and a player on record.
    obtain ⟨w, hw⟩ := hsettled.world
    obtain ⟨player, hplayer, hsaved, -, hrecalls⟩ := hsettled.saved
    obtain ⟨-, hvisited⟩ := hrecalls.resolve_left hlevels
    have hopens : (s.play source saves).Opens source :=
      ⟨⟨rfl, hagrees⟩, fun e he => by cases he⟩
    cases r with
    | start => exact hbegin _ hopens.reads rfl
    -- The player that is resumed is the recorded one, and recalls what was shown.
    | resume =>
      have hworld : (Library.getWorld source s.library).result = .ok w :=
        hagrees.getWorld.1.trans hw
      exact (ends_resume_admits hsource hopens hworld hsaved hplayer).imp_ok fun _ _ hq =>
        ⟨player.recalled, hvisited, hq⟩
    | reset =>
      -- The record is deleted first, and then the adventure begins from an empty journal.
      show reset.Ends _ _ _
      unfold reset
      rw [Act.ends_bind, Act.ends_forget]
      exact ⟨fun _ => trivial, fun left _ => hbegin _ ⟨rfl, hagrees⟩ rfl⟩
    | input line =>
      show (input line).Ends _ _ _
      -- A session that takes no input refuses the line; the player of one that does recalls rooms.
      cases hs : s.active with
      | false =>
        unfold input
        rw [Act.ends_bind, ends_requireActive]
        refine ⟨fun hon => ?_, fun _ => trivial⟩
        have hoff : s.active = true := hon
        rw [hs] at hoff
        cases hoff
      | true =>
        obtain ⟨harrived, hvisited⟩ := (hsettled.holds hinvariant hs).resolve_left hlevels
        exact (input_admits hsource line _ hopens harrived).imp_ok fun _ _ hq =>
          ⟨_, hvisited, hq⟩
    | leave => exact absurd rfl hr

/-- Rooms are entered as is due: after a run in which every request succeeded and nothing was left
out for want of levels, each room that a request shows is followed by its script for the first entry
if an effect leads there, the request begins the adventure there or the room was not shown since the
adventure was begun, and otherwise by its script for later entries; and the rooms that the player
has seen afterwards are those that were shown since. -/
theorem entered_as_due {s : Session} {saves : Saves} {journal : List Event} {r : Request}
    {reply : Reply} (h : Asked source s saves journal r) (hsource : source.NamesRooms)
    (hr : r ≠ .leave) (hlevels : .leftOut ∉ journal) (hreply : s.handle source saves r = reply)
    (hok : reply.Succeeds) (hlevels' : .leftOut ∉ reply.journal) :
    (∀ earlier id first later,
      reply.journal.reverse = earlier ++ .shown id first :: later →
      ∃ room : Room, Library.read source "rooms" id = .ok room ∧
        (r.EntersFirst journal earlier id → nextEffects later = room.onFirstEnter.effects) ∧
        (¬r.EntersFirst journal earlier id → nextEffects later = room.onEnter.effects)) ∧
      ∀ id, reply.session.player.hasVisited id = true ↔
        Shows id (reply.journal ++ r.since journal) := by
  subst hreply
  -- The play behind the reply admits its rooms, and the rest is read off that.
  obtain ⟨q, ⟨seen, hseen, hq⟩, heq⟩ := handle_of_ends (h.ends_admits hsource hr hlevels) hok
  rw [heq] at hlevels' ⊢
  refine ⟨fun earlier id first later hshown => ?_, fun id => ?_⟩
  · obtain ⟨hfirst, hruns⟩ := hq.rooms earlier id first later hshown
    -- What is behind the room in the journal left nothing out, because nothing in the reply did.
    have hleft : .leftOut ∉ later := by
      intro hmem
      refine hlevels' (List.mem_reverse.mp ?_)
      rw [hshown]
      exact List.mem_append_right _ (List.mem_cons_of_mem _ hmem)
    obtain ⟨room, hroom, hnext⟩ := hruns hleft
    have hdue : first = true ↔ r.EntersFirst journal earlier id := by
      rw [hfirst, hseen]
      unfold Request.EntersFirst Request.since
      -- Where the request begins the adventure, no room was shown since but by the request.
      constructor
      · exact Or.imp_right .inr
      · rintro (hheaded | ⟨hbegins, hnone⟩ | hnew)
        · exact .inl hheaded
        · right
          rw [if_pos hbegins]
          simp [hnone]
        · exact .inr hnew
    refine ⟨room, hroom, fun hd => ?_, fun hd => ?_⟩
    · rw [hnext, hdue.mpr hd]
      rfl
    · have hlater : first = false := Bool.eq_false_iff.mpr fun htrue => hd (hdue.mp htrue)
      rw [hnext, hlater]
      rfl
  · rw [hq.visited, hseen, Event.shows_append, or_comm]

/-- Every room of the castle is under its own id. -/
theorem namesRooms_castle : castle.NamesRooms := by
  intro id room hroom
  have hname : ∀ name : String,
      ((Library.read castle "rooms" name : Except Failure Room).toOption.any
      fun r => r.id == name) = true → Library.read castle "rooms" name = .ok room →
        room.id = name := by
    intro name hchecked hread
    obtain ⟨room', hroom', hid⟩ := exists_of_read_castle name (fun r => r.id == name) hchecked
    rw [hread] at hroom'
    cases hroom'
    exact eq_of_beq hid
  -- There are two rooms, and each is under its own id.
  rcases eq_of_read_castle hroom with rfl | rfl
  · exact hname "hall" (by decide +kernel) hroom
  · exact hname "tower" (by decide +kernel) hroom

/-- What happened before the first room that a journal shows, the oldest event first. -/
def beforeShown (journal : List Event) : List Event :=
  journal.reverse.takeWhile fun e => !e.isShown

/-- The first room that a journal shows, and whether it was shown for the first time. -/
def firstShown (journal : List Event) : Option (String × Bool) :=
  match journal.reverse.find? Event.isShown with
  | some (.shown id first) => some (id, first)
  | _ => none

/-- A journal goes on with the first room that it shows, and before it shows none. -/
theorem exists_split_of_firstShown {journal : List Event} {id : String} {first : Bool}
    (h : firstShown journal = some (id, first)) :
    ∃ later, journal.reverse = beforeShown journal ++ .shown id first :: later ∧
      ∀ id', ¬Shows id' (beforeShown journal) := by
  unfold firstShown at h
  split at h
  · next hfind =>
    cases h
    rw [List.find?_eq_head?_dropWhile_not, List.head?_eq_some_iff] at hfind
    obtain ⟨later, hlater⟩ := hfind
    refine ⟨later, ?_, ?_⟩
    · rw [← hlater]
      exact List.takeWhile_append_dropWhile.symm
    · rintro id' ⟨first', hmem⟩
      cases List.mem_takeWhile_imp hmem
  · cases h

/-- The reply to looking around in the hall of the castle. -/
def lookedAround : Reply :=
  castleBegun.session.handle castle castleBegun.saves (.input "umsehen")

/-- Whoever starts in the castle is shown the hall, and its script for the first entry runs. When
the player looks around there, its other script runs, which is another one, and the player has seen
what was shown. -/
theorem entered_as_due_castle : ∃ hall : Room,
    Library.read castle "rooms" "hall" = .ok hall ∧
    hall.onFirstEnter.effects ≠ hall.onEnter.effects ∧
    (∃ earlier later, castleBegun.journal.reverse = earlier ++ .shown "hall" true :: later ∧
      nextEffects later = hall.onFirstEnter.effects) ∧
    (∃ earlier later, lookedAround.journal.reverse = earlier ++ .shown "hall" false :: later ∧
      nextEffects later = hall.onEnter.effects) ∧
    ∀ id, lookedAround.session.player.hasVisited id = true ↔
      Shows id (lookedAround.journal ++ castleBegun.journal) := by
  have hchecked : (castleBegun.Succeeds ∧ lookedAround.Succeeds) ∧
      .leftOut ∉ lookedAround.journal ++ castleBegun.journal ∧
      firstShown castleBegun.journal = some ("hall", true) ∧
      firstShown lookedAround.journal = some ("hall", false) ∧
      headedFor (beforeShown lookedAround.journal).reverse = none ∧
      Shows "hall" castleBegun.journal := by decide +kernel
  -- The two replies are evaluated once, and what is checked of them is used below.
  obtain ⟨⟨hok, hok'⟩, hlevels, hfirst, hfirst', hheaded, hshown⟩ := hchecked
  have hlevels₁ : .leftOut ∉ castleBegun.journal :=
    fun hleft => hlevels (List.mem_append_right _ hleft)
  have hlevels₂ : .leftOut ∉ lookedAround.journal :=
    fun hleft => hlevels (List.mem_append_left _ hleft)
  have hstart : (new "castle" "Castle" Library.standardWorldFile "save" .starting).handle castle
      .empty .start = castleBegun := rfl
  have hlook : castleBegun.session.handle castle castleBegun.saves (.input "umsehen") =
      lookedAround := rfl
  have hreached : Reached castle castleBegun.session castleBegun.saves castleBegun.journal :=
    .start hstart hok
  obtain ⟨hrooms, -⟩ := entered_as_due .first namesRooms_castle (by decide) (by simp) hstart hok
    hlevels₁
  obtain ⟨hrooms', hvisited⟩ := entered_as_due (.next hreached (.input "umsehen"))
    namesRooms_castle (by decide) hlevels₁ hlook hok' hlevels₂
  rw [Request.since_input] at hvisited
  obtain ⟨later, hsplit, hnone⟩ := exists_split_of_firstShown hfirst
  obtain ⟨later', hsplit', -⟩ := exists_split_of_firstShown hfirst'
  -- Both times the room that is shown is the hall, so it is one document that is read.
  obtain ⟨hall, hhall, hdue, -⟩ := hrooms _ _ _ _ hsplit
  obtain ⟨hall', hhall', -, hdue'⟩ := hrooms' _ _ _ _ hsplit'
  obtain rfl : hall = hall' := Except.ok.inj (hhall.symm.trans hhall')
  -- The start begins the adventure in the hall; looking around shows it once more.
  have hlater : ¬(Request.input "umsehen").EntersFirst castleBegun.journal
      (beforeShown lookedAround.journal) "hall" := by
    rintro (hto | ⟨hbegins, -⟩ | hnew)
    · rw [hheaded] at hto
      cases hto
    · cases hbegins
    · rw [Request.since_input] at hnew
      exact hnew (.inl hshown)
  refine ⟨hall, hhall, ?_, ⟨_, later, hsplit, hdue (.inr (.inl ⟨rfl, hnone⟩))⟩,
    ⟨_, later', hsplit', hdue' hlater⟩, hvisited⟩
  -- The script for the first entry closes an exit, the other one does not.
  obtain ⟨hall', hhall', hdiffer⟩ := exists_of_read_castle "hall"
    (fun r => (r.onFirstEnter.effects.any fun s =>
        (Event.lock? "hall:nord" (.performed s)).isSome) !=
      r.onEnter.effects.any fun s => (Event.lock? "hall:nord" (.performed s)).isSome)
    (by decide +kernel)
  obtain rfl : hall = hall' := Except.ok.inj (hhall.symm.trans hhall')
  intro hsame
  rw [hsame, bne_self_eq_false] at hdiffer
  cases hdiffer

end Session

end TextAdventure
