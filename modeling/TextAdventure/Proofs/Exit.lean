import TextAdventure.Proofs.Gate
import TextAdventure.Proofs.Quiet
import TextAdventure.Proofs.Step

/-!
# Exits that scripts close and open

What is recorded of an exit is what the effect that came last said (`lastLock`). Where rooms close
their gated exits when they are first entered, every room that a player sees during an act has all
of its gated exits recorded at the end of the act, unless something was left out for want of levels
(`Play.Passes`). In between this is not so: a room is seen before its script runs, and the script
may lead on to other rooms. So the promise is about whole arrivals, and it asks for nothing as long
as the player is on the way to a room that it has not seen.
-/

namespace TextAdventure

/-- What an event says about an exit: that it is closed from now on, or that it is open. -/
def Event.lock? (key : String) : Event → Option Bool
  | .performed (.lockExit room direction) =>
    if key = Player.exitKey room direction then some true else none
  | .performed (.unlockExit room direction) =>
    if key = Player.exitKey room direction then some false else none
  | _ => none

/-- What the last effect on an exit said about it, if there was one. The newest event comes
first. -/
def lastLock (key : String) (journal : List Event) : Option Bool :=
  journal.findSome? (Event.lock? key)

/-- What happened before counts if nothing was said since. -/
theorem lastLock_append (key : String) (new journal : List Event) :
    lastLock key (new ++ journal) = (lastLock key new).or (lastLock key journal) :=
  List.findSome?_append

/-- Without effects nothing is said about exits. -/
theorem lastLock_eq_none {key : String} {journal : List Event}
    (h : ∀ s, Event.performed s ∉ journal) : lastLock key journal = none := by
  refine List.findSome?_eq_none_iff.mpr fun e he => ?_
  cases e with
  | performed s => exact absurd he (h s)
  | said _ => rfl
  | fetched _ => rfl
  | stored _ => rfl
  | shown _ _ => rfl
  | opened => rfl
  | closed => rfl
  | leftOut => rfl

/-- A change that a step makes stays in the room, and records of exits what the step says. -/
theorem Step.Revision.exits {s : Step} {r : Revision} (h : s.revision? = some r) (p : Player) :
    (r.change p).location = p.location ∧ (r.change p).visited = p.visited ∧
      ∀ key, (r.change p).lockedExits.get? key =
        (Event.lock? key (.performed s)).or (p.lockedExits.get? key) := by
  have hinsert : ∀ (key' : String) (locked : Bool) (key : String),
      (p.lockedExits.insert key' locked).get? key =
        (if key = key' then some locked else none).or (p.lockedExits.get? key) := by
    intro key' locked key
    rw [Table.get?_insert]
    split <;> rfl
  cases h using Step.cases_of_revision? with
  -- Flags and items have nothing to do with exits.
  | setFlag key value =>
    exact ⟨rfl, rfl, fun _ => rfl⟩
  | addItem id =>
    have hsame := p.samePlace_addItem id
    exact ⟨hsame.location, hsame.visited, fun _ => congrArg (Table.get? · _) hsame.lockedExits⟩
  | removeItem id =>
    exact ⟨rfl, rfl, fun _ => rfl⟩
  | unlockExit room direction =>
    exact ⟨rfl, rfl, hinsert _ _⟩
  | lockExit room direction =>
    exact ⟨rfl, rfl, hinsert _ _⟩

/-! ### What an act leaves of the exits -/

/-- For each gated exit of a room it is recorded whether it is closed. -/
def Player.RecordsGates (source : Source) (p : Player) (id : String) : Prop :=
  ∀ room : Room, Library.read source "rooms" id = .ok room → ∀ direction, room.Gated direction →
    (p.lockedExits.get? (exitKey room.id direction)).isSome

/-- The player has seen the room in which it is. -/
def Player.HasArrived (p : Player) : Prop := p.hasVisited p.location = true

/-- Every room is under its own id, and closes its gated exits when it is first entered. -/
def Source.ClosesGates (source : Source) : Prop :=
  ∀ id (room : Room), Library.read source "rooms" id = .ok room → room.id = id ∧ room.ClosesGates

namespace Play

variable {source : Source} {p q r : Play}

/-- What is recorded of exits is what was recorded before and what the effects in between said. -/
def Tracks (p q : Play) : Prop :=
  ∃ new, q.journal = new ++ p.journal ∧ ∀ key,
    q.player.lockedExits.get? key = (lastLock key new).or (p.player.lockedExits.get? key)

/-- Records are kept one after the other. -/
theorem Tracks.trans (h : p.Tracks q) (h' : q.Tracks r) : p.Tracks r := by
  obtain ⟨new, hnew, hrecords⟩ := h
  obtain ⟨new', hnew', hrecords'⟩ := h'
  refine ⟨new' ++ new, ?_, fun key => ?_⟩
  · rw [hnew', hnew, List.append_assoc]
  · rw [hrecords' key, hrecords key, lastLock_append, Option.or_assoc]

/-- Without effects records are kept by leaving them alone. -/
theorem Effectless.tracks (h : p.Effectless source q)
    (hsame : q.player.lockedExits = p.player.lockedExits) : p.Tracks q := by
  obtain ⟨new, hnew, hquiet⟩ := h.journal
  refine ⟨new, hnew, fun key => ?_⟩
  rw [lastLock_eq_none hquiet, Option.none_or, hsame]

/-- What happened stays in the journal. -/
theorem Tracks.mem (h : p.Tracks q) {e : Event} (he : e ∈ p.journal) : e ∈ q.journal := by
  obtain ⟨new, hnew, -⟩ := h
  rw [hnew]
  exact List.mem_append_right _ he

/-- An exit that was recorded stays recorded. -/
theorem Tracks.isSome (h : p.Tracks q) {key : String}
    (hp : (p.player.lockedExits.get? key).isSome) : (q.player.lockedExits.get? key).isSome := by
  obtain ⟨new, -, hrecords⟩ := h
  rw [hrecords, Option.isSome_or, hp, Bool.or_true]

/-- A room whose gated exits were recorded keeps them so. -/
theorem Tracks.recordsGates (h : p.Tracks q) {id : String}
    (hp : p.player.RecordsGates source id) : q.player.RecordsGates source id :=
  fun room hroom direction hgated => h.isSome (hp room hroom direction hgated)

/-- The player has arrived somewhere, and what it has seen on the way has its gated exits recorded,
unless something was left out. -/
def Lands (source : Source) (p q : Play) : Prop :=
  .leftOut ∈ q.journal ∨ q.player.HasArrived ∧ ∀ id, q.player.hasVisited id = true →
    p.player.hasVisited id = true ∨ q.player.RecordsGates source id

/-- Who lands depends only on the rooms seen before. -/
theorem Lands.of_visited (h : q.Lands source r) (hsame : q.player.visited = p.player.visited) :
    p.Lands source r := by
  refine h.imp_right fun ⟨harrived, hseen⟩ => ⟨harrived, fun id hid => ?_⟩
  rw [← Player.hasVisited_congr hsame]
  exact hseen id hid

/-- What an act leaves of the exits. -/
structure Passes (source : Source) (p q : Play) : Prop where
  /-- The library has read the source afterwards. -/
  reads : q.Reads source
  /-- Records are kept. -/
  tracks : p.Tracks q
  /-- A player who was somewhere is somewhere afterwards. -/
  lands : p.player.HasArrived → p.Lands source q

/-- A player who has landed and then acts has landed. -/
theorem Passes.lands_of_lands (h : q.Passes source r) (hq : p.Lands source q) :
    p.Lands source r := by
  rcases hq with hleft | ⟨harrived, hseen⟩
  · exact .inl (h.tracks.mem hleft)
  · rcases h.lands harrived with hleft | ⟨harrived', hseen'⟩
    · exact .inl hleft
    -- A room seen at the end was seen before the first act, or on the way of one of the two.
    · refine .inr ⟨harrived', fun id hid => ?_⟩
      rcases hseen' id hid with hq | hr
      · exact (hseen id hq).imp_right h.tracks.recordsGates
      · exact .inr hr

/-- Passing one exit after the other. -/
theorem Passes.trans (h : p.Passes source q) (h' : q.Passes source r) : p.Passes source r where
  reads := h'.reads
  tracks := h.tracks.trans h'.tracks
  lands harrived := h'.lands_of_lands (h.lands harrived)

/-- A player who stays where it is stays landed. -/
theorem Tracks.passes (h : p.Tracks q) (hq : q.Reads source)
    (hlocation : q.player.location = p.player.location)
    (hvisited : q.player.visited = p.player.visited) : p.Passes source q := by
  refine ⟨hq, h, fun harrived => ?_⟩
  have hseen := Player.hasVisited_congr hvisited
  refine .inr ⟨?_, fun id hid => .inl ((hseen id).symm.trans hid)⟩
  unfold Player.HasArrived
  rw [hseen, hlocation]
  exact harrived

/-- Without effects nothing changes about exits. -/
theorem Quiet.passes (h : p.Quiet source q) : p.Passes source q :=
  (h.tracks h.samePlace.lockedExits).passes h.reads h.samePlace.location h.samePlace.visited

/-- The beginning of a step that says nothing about exits. -/
theorem passes_performing (hp : p.Reads source) {s : Step}
    (hs : ∀ key, Event.lock? key (.performed s) = none) : p.Passes source (p.performing s) := by
  have htracks : p.Tracks (p.performing s) := by
    refine ⟨[.performed s], rfl, fun key => ?_⟩
    unfold lastLock
    rw [List.findSome?_singleton, hs, Option.none_or]
    rfl
  exact htracks.passes ⟨hp.1, hp.2⟩ rfl rfl

/-- A change that a step makes, and the write after it. -/
theorem passes_revised (hp : p.Reads source) {s : Step} {r : Step.Revision}
    (hr : s.revision? = some r) : p.Passes source ((p.performing s).revised r) := by
  obtain ⟨hlocation, hvisited, hexits⟩ := Step.Revision.exits hr p.player
  have hsaid : ∀ s', Event.performed s' ∉ ((r.lines p.player).map Event.said).reverse :=
    fun s' => Event.performed_notMem_said s' _
  have htracks : p.Tracks ((p.performing s).revised r) := by
    refine ⟨((r.lines p.player).map Event.said).reverse ++ [.performed s], ?_, fun key => ?_⟩
    · rw [List.append_assoc]
      rfl
    · rw [lastLock_append, lastLock_eq_none hsaid, Option.none_or]
      unfold lastLock
      rw [List.findSome?_singleton]
      exact hexits key
  exact htracks.passes ⟨hp.1, hp.2⟩ hlocation hvisited

end Play

/-- Exits are recorded, and rooms seen have their gated exits recorded. -/
def Promise.passage (source : Source) : Promise where
  inv := Play.Reads source
  ok := Play.Passes source
  failed _ _ _ := True
  again _ hq := hq.reads
  refl hp := ((Promise.quiet source).refl hp).passes
  trans := Play.Passes.trans
  failed_after _ _ := trivial

/-- A step that closes an exit leaves it recorded, unless something was left out. -/
def Step.LeavesRecord (s : Step) (q : Play) : Prop :=
  .leftOut ∈ q.journal ∨ ∀ room direction, s = .lockExit room direction →
    (q.player.lockedExits.get? (Player.exitKey room direction)).isSome

/-! ### Rooms and scripts -/

namespace Scene

variable {source : Source} {p : Play}

/-- Showing a room and running its script passes exits. A player who arrives for the first time, or
in a room that it has seen, has landed: the script for the first entry closes the gated exits of the
room. -/
theorem ends_render_run (hsource : source.ClosesGates) {run : Script → Act Unit}
    (hrun : (Promise.passage source).Runs (fun _ => True) Step.LeavesRecord run) (firstTime : Bool)
    (hp : p.Reads source) :
    Act.Ends (do run (← render firstTime)) p (fun _ r => p.Passes source r ∧
      (firstTime = true ∨ p.player.HasArrived → p.Lands source r)) fun _ _ => True := by
  rw [Act.ends_bind]
  -- The room is shown, which leads from `p` to `q`, and then its script runs, from `q` to `r`.
  refine (ends_render firstTime hp).imp_ok ?_
  rintro script q ⟨room, hshown, rfl⟩
  refine (hrun _ (fun _ _ => trivial) q hshown.reads).imp_ok ?_
  intro _ r ⟨hpasses, hsteps⟩
  obtain ⟨hid, hcloses⟩ := hsource _ room hshown.room
  have harrived : q.player.HasArrived := by
    unfold Player.HasArrived
    rw [hshown.visited, hshown.location, hid, decide_eq_true rfl, Bool.true_or]
  have hlands : firstTime = true ∨ p.player.HasArrived → p.Lands source r := by
    intro hknown
    rcases hpasses.lands harrived with hleft | ⟨harrived', hseen⟩
    · exact .inl hleft
    by_cases hleft : .leftOut ∈ r.journal
    · exact .inl hleft
    refine .inr ⟨harrived', fun id hrid => ?_⟩
    rcases hseen id hrid with hqid | hrecords
    · rw [hshown.visited, Bool.or_eq_true, decide_eq_true_iff] at hqid
      rcases hqid with rfl | hpid
      · rcases hknown with rfl | harrived
        -- The room is entered for the first time, so what closes its gated exits has just run.
        · right
          intro room' hroom' direction hgated
          rw [hid, hshown.room] at hroom'
          cases hroom'
          have hstep := hsteps _ (hcloses direction hgated)
          exact (hstep.resolve_left hleft) _ _ rfl
        -- The room was seen before.
        · left
          rw [hid]
          exact harrived
      · exact .inl hpid
    · exact .inr hrecords
  have htracks : p.Tracks r := (hshown.tracks hshown.lockedExits).trans hpasses.tracks
  exact ⟨⟨hpasses.reads, htracks, fun harrived => hlands (.inr harrived)⟩, hlands⟩

end Scene

namespace Nested

open Promise (passage)

variable {source : Source} {p : Play}

/-- A step passes exits if the scripts and the arrival inside it do, and leaves recorded what it
closes. -/
theorem ends_step_passage {inner : Nested}
    (hscript : (passage source).Runs (fun _ => True) Step.LeavesRecord inner.script)
    (harrival : (passage source).Arrives (Play.Lands source) inner.arrival) (s : Step)
    (hp : p.Reads source) :
    (inner.step s).Ends p (fun _ q => p.Passes source q ∧ s.LeavesRecord q) fun _ _ => True := by
  cases hr : s.revision? with
  | some r =>
    -- The change of the player, and then the write.
    have hrevised := Play.passes_revised hp hr
    rw [ends_step_revision hr, Act.ends_persist]
    refine ⟨fun _ => trivial, fun left _ => ?_⟩
    have hpersisted : ((p.performing s).revised r).Quiet source
        (((p.performing s).revised r).persisted left) := ⟨.persisted hrevised.reads left, .refl _⟩
    refine ⟨hrevised.trans hpersisted.passes, .inr ?_⟩
    -- An exit that this very step closes is recorded as closed.
    rintro room direction rfl
    obtain ⟨-, -, hexits⟩ := Step.Revision.exits hr p.player
    show ((r.change p.player).lockedExits.get? _).isSome
    rw [hexits]
    simp [Event.lock?]
  | none =>
    -- Whatever is left closes and opens no exit itself.
    have hother : ∀ q, s.LeavesRecord q := by
      refine fun q => .inr ?_
      rintro room direction rfl
      cases hr
    have hsilent : ∀ key, Event.lock? key (.performed s) = none := by
      intro key
      cases s with
      | lockExit _ _ => cases hr
      | unlockExit _ _ => cases hr
      | _ => rfl
    have hbodily := Discipline.bodily_quiet source
    have hbegun := Play.passes_performing hp hsilent
    suffices h : (inner.step s).Ends p (fun _ q => p.Passes source q) fun _ _ => True from
      h.imp_ok fun _ q hq => ⟨hq, hother q⟩
    cases s with
    | message text =>
      rw [ends_step_message]
      exact hbegun.trans (hbodily.say text _ hbegun.reads).1.passes
    | art file size =>
      rw [ends_step_art]
      exact (hbodily.showArt file _ hbegun.reads).imp_ok fun _ _ hq => hbegun.trans hq.1.passes
    | branch key equals onMatch otherwise =>
      rw [ends_step_branch]
      exact (hscript _ (fun _ _ => trivial) _ hbegun.reads).imp_ok fun _ _ hq => hbegun.trans hq.1
    | transition room =>
      rw [ends_step_transition, Act.ends_persist]
      refine ⟨fun _ => trivial, fun left _ => ?_⟩
      -- The player is on the way, so only what is recorded can be added up here.
      have hreads : ((p.performing (.transition room)).changing fun q =>
          { q with location := room }).Reads source := ⟨hp.1, hp.2⟩
      have hpersisted := Play.Effectless.persisted hreads left
      refine (harrival _ hpersisted.reads).imp_ok ?_
      intro _ q ⟨hpasses, hlands⟩
      have htracks := (hbegun.tracks.trans (hpersisted.tracks rfl)).trans hpasses.tracks
      exact ⟨hpasses.reads, htracks, fun _ => hlands.of_visited rfl⟩
    | fight enemy =>
      rw [ends_step_fight]
      exact (hbodily.startFight enemy _ hbegun.reads).imp_ok fun _ _ hq =>
        hbegun.trans hq.1.passes
    | unrecognized raw =>
      rw [ends_step_unrecognized]
      exact (hbodily.say _ p hp).1.passes
    | setFlag _ _ => cases hr
    | addItem _ => cases hr
    | removeItem _ => cases hr
    | unlockExit _ _ => cases hr
    | lockExit _ _ => cases hr

/-- Scripts and arrivals pass exits at every level. -/
theorem levels_passage (hsource : source.ClosesGates) :
    (passage source).Levels (fun _ => True) Step.LeavesRecord (Play.Lands source) where
  lasting hpq hp := hp.imp hpq.tracks.mem fun hsome room direction hs =>
    hpq.tracks.isSome (hsome room direction hs)
  opened p hp := (Play.Quiet.noting hp fun _ h => by cases h).passes
  closed p hp := (Play.Quiet.noting hp fun _ h => by cases h).passes
  failed_closed _ := trivial
  landed_level h := h.imp_left fun hleft => List.mem_cons_of_mem _ hleft
  leftOut p line hp := by
    have hnoted := (Play.Quiet.noting hp (e := .leftOut) fun _ h => by cases h).passes
    have hsaid := (Play.Quiet.noting hnoted.reads (e := .said line) fun _ h => by cases h).passes
    have hleft : Event.leftOut ∈ ((p.noting .leftOut).noting (.said line)).journal :=
      List.mem_cons_of_mem _ List.mem_cons_self
    exact ⟨hnoted.trans hsaid, fun _ => .inl hleft, .inl hleft⟩
  step inner hscript harrival s _ p hp := ends_step_passage hscript harrival s hp
  arrival inner hscript p hp :=
    (Scene.ends_render_run hsource hscript true hp).imp_ok fun _ _ hq => ⟨hq.1, hq.2 (.inl rfl)⟩

end Nested

/-! ### Commands -/

namespace Scene

open Promise (passage)

variable {source : Source} {p : Play}

/-- A script passes exits. -/
theorem run_passage (hsource : source.ClosesGates) (script : Script) :
    (run script).Keeps (passage source) :=
  ((Nested.levels_passage hsource).within maxLevels).1.keeps fun _ _ => trivial

/-- A player who enters a room that it has seen, or for the first time, has landed. -/
theorem ends_enter_passage (hsource : source.ClosesGates) (firstTime : Bool)
    (hp : p.Reads source) :
    (enter firstTime).Ends p (fun _ q => p.Passes source q ∧
      (firstTime = true ∨ p.player.HasArrived → p.Lands source q)) fun _ _ => True :=
  ends_render_run hsource ((Nested.levels_passage hsource).within maxLevels).1 firstTime hp

end Scene

namespace Action

open Promise (passage)

variable {source : Source} {p : Play}

/-- Going somewhere passes exits, and the player has landed there. -/
theorem ends_goTo_passage (hsource : source.ClosesGates) (destination : String)
    (hp : p.Reads source) :
    (goTo destination).Ends p (fun _ q => p.Passes source q) fun _ _ => True := by
  have hreads : (p.changing fun q => { q with location := destination }).Reads source :=
    ⟨hp.1, hp.2⟩
  unfold goTo
  rw [Act.ends_bind, Act.ends_changePlayer, Act.ends_bind, Act.ends_persist]
  refine ⟨fun _ => trivial, fun left _ => ?_⟩
  rw [Act.ends_bind, Act.ends_player]
  have hpersisted := Play.Effectless.persisted hreads left
  refine (Scene.ends_enter_passage hsource _ hpersisted.reads).imp_ok ?_
  intro _ q ⟨hpasses, hlands⟩
  -- The room is entered for the first time exactly if the player has not seen it.
  have hlanded := hlands (by
    rw [Bool.not_eq_true']
    exact (Bool.eq_false_or_eq_true _).symm)
  exact ⟨hpasses.reads, (hpersisted.tracks rfl).trans hpasses.tracks,
    fun _ => hlanded.of_visited rfl⟩

/-- The parts of commands pass exits. -/
theorem commands_passage (hsource : source.ClosesGates) :
    (passage source).discipline.Commands fun _ => True := by
  have hbodily := Discipline.bodily_quiet source
  -- Whatever is quiet passes exits.
  have hquiet : ∀ {α : Type} {post : α → Prop} {act : Act α},
      (Promise.quiet source).discipline.Obeys post act →
        (passage source).discipline.Obeys post act :=
    fun hact p hp => (hact p hp).imp_ok fun _ _ hq => ⟨hq.1.passes, hq.2⟩
  exact {
    say := fun line => hquiet (hbodily.say line)
    player := hquiet hbodily.player
    room := fun id => hquiet (hbodily.ask (Library.faithful_getRoom id))
    item := fun id => hquiet (Discipline.ask_quiet (Library.faithful_getItem id) fun _ _ _ _ =>
      ⟨fun _ _ => trivial, fun _ _ _ _ _ => trivial⟩)
    fixture := fun id => hquiet (Discipline.ask_quiet (Library.faithful_getFixture id)
      fun _ _ _ _ => ⟨fun _ _ => trivial, fun _ _ => trivial, fun _ _ => trivial⟩)
    run := fun script _ => (Scene.run_passage hsource script).yields fun _ => trivial
    look := fun p hp => (Scene.ends_enter_passage hsource false hp).imp_ok fun _ _ hq =>
      ⟨hq.1, trivial⟩
    goTo := fun destination p hp => (ends_goTo_passage hsource destination hp).imp_ok fun _ _ hq =>
      ⟨hq, trivial⟩
    pickUp := fun listed item => hquiet (hbodily.pickUp listed item)
    answer := fun messages command => hquiet (hbodily.answer messages command) }

/-- A command passes exits. -/
theorem perform_passage (hsource : source.ClosesGates) (world : World) (command : Command) :
    (perform world command).Keeps (passage source) :=
  ((commands_passage hsource).perform world command).keeps

end Action

end TextAdventure
