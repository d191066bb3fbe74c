import TextAdventure.Proofs.Frame

/-!
# Acts without effects

Most of what happens in play is no effect of a script: lines are said, documents are fetched, rooms
are shown and fights are fought. `Play.Quiet` says that no effect began and that the player stayed
where it was; the smallest acts are quiet if they change no more than the body of the player
(`Discipline.bodily_quiet`), and so are fights. `Scene.ends_render` says what it means to show a
room: no effect begins, and the room is one that the player has seen.
-/

namespace TextAdventure

/-- Saying lines is no effect. -/
theorem Event.performed_notMem_said (s : Step) (lines : List String) :
    Event.performed s ∉ (lines.map Event.said).reverse := by
  intro hs
  obtain ⟨line, -, hline⟩ := List.mem_map.mp (List.mem_reverse.mp hs)
  cases hline

/-- Asking the source is no effect. -/
theorem Event.performed_notMem_fetched (s : Step) (paths : List String) :
    Event.performed s ∉ (paths.map Event.fetched).reverse := by
  intro hs
  obtain ⟨path, -, hpath⟩ := List.mem_map.mp (List.mem_reverse.mp hs)
  cases hpath

/-- Between two states no effect began. -/
structure Play.Effectless (source : Source) (p q : Play) : Prop where
  /-- The library has read the source afterwards. -/
  reads : q.Reads source
  /-- What happened is no effect. -/
  journal : ∃ new, q.journal = new ++ p.journal ∧ ∀ s, Event.performed s ∉ new

/-- Between two states no effect began, and the player stayed where it was. -/
structure Play.Quiet (source : Source) (p q : Play) : Prop extends Play.Effectless source p q where
  /-- Only the body of the player changed. -/
  samePlace : p.player.SamePlace q.player

namespace Play.Effectless

variable {source : Source} {p q r : Play}

/-- Nothing has to happen. -/
theorem refl (hp : p.Reads source) : p.Effectless source p := ⟨hp, [], rfl, fun _ h => by cases h⟩

/-- An event that is no effect. -/
theorem noting (hp : p.Reads source) {e : Event} (he : ∀ s, e ≠ .performed s) :
    p.Effectless source (p.noting e) :=
  ⟨⟨hp.1, hp.2⟩, [e], rfl, fun s hs => he s (List.mem_singleton.mp hs).symm⟩

/-- Writing the player is no effect. -/
theorem persisted (hp : p.Reads source) (left : Option Nat) :
    p.Effectless source (p.persisted left) :=
  ⟨⟨hp.1, hp.2⟩, [.stored p.player.save], rfl, fun s hs => by cases List.mem_singleton.mp hs⟩

/-- Asking the library is no effect. -/
theorem answered (hp : p.Reads source) {α : Type} {request : Source → Library → Library.Answer α}
    (h : Library.Faithful request) :
    p.Effectless source (p.answered (request p.source p.library)) :=
  ⟨hp.answered h, _, rfl, fun s => Event.performed_notMem_fetched s _⟩

/-- One after the other, without effects. -/
theorem trans (hpq : p.Effectless source q) (hqr : q.Effectless source r) :
    p.Effectless source r := by
  obtain ⟨new, hnew, hquiet⟩ := hpq.journal
  obtain ⟨new', hnew', hquiet'⟩ := hqr.journal
  refine ⟨hqr.reads, new' ++ new, ?_, fun s hs => ?_⟩
  · rw [hnew', hnew, List.append_assoc]
  · rcases List.mem_append.mp hs with h | h
    · exact hquiet' s h
    · exact hquiet s h

end Play.Effectless

/-- An event that is no effect is quiet. -/
theorem Play.Quiet.noting {source : Source} {p : Play} (hp : p.Reads source) {e : Event}
    (he : ∀ s, e ≠ .performed s) : p.Quiet source (p.noting e) := ⟨.noting hp he, .refl _⟩

/-- No effect begins, and the player stays where it is. -/
def Promise.quiet (source : Source) : Promise where
  inv := Play.Reads source
  ok := Play.Quiet source
  failed _ _ _ := True
  again _ hq := hq.reads
  refl hp := ⟨.refl hp, .refl _⟩
  trans h h' := ⟨h.toEffectless.trans h'.toEffectless, h.samePlace.trans h'.samePlace⟩
  failed_after _ _ := trivial

namespace Discipline

open Promise (quiet)

variable {source : Source}

/-- Entering an event other than an effect into the journal is quiet. -/
theorem note_quiet {e : Event} (he : ∀ s, e ≠ .performed s) :
    (quiet source).discipline.Allows (Act.note e) :=
  fun _ hp => ⟨.noting hp he, trivial⟩

/-- A faithful question is quiet, and answered by what the source has. -/
theorem ask_quiet {α : Type} {request : Source → Library → Library.Answer α} {post : α → Prop}
    (h : Library.Faithful request)
    (hpost : ∀ l a, Library.Agrees source l → (request source l).result = .ok a → post a) :
    (quiet source).discipline.Obeys post (Act.ask request) := by
  intro p hp
  rw [Act.ends_ask]
  refine ⟨fun a ha => ⟨⟨.answered hp h, .refl _⟩, ?_⟩, fun _ _ => trivial⟩
  rw [hp.fromSource] at ha
  exact hpost p.library a hp.agrees ha

/-- The smallest acts are quiet if they leave the player where it is. -/
theorem bodily_quiet (source : Source) : (quiet source).discipline.Bodily where
  say _ := note_quiet fun _ h => by cases h
  player _ hp := ⟨(quiet source).refl hp, trivial⟩
  changePlayer hchange p hp :=
    ⟨⟨⟨⟨hp.1, hp.2⟩, [], rfl, fun _ h => by cases h⟩, hchange p.player⟩, trivial⟩
  persist p hp := by
    rw [Act.ends_persist]
    exact ⟨fun _ => trivial, fun left _ => ⟨⟨.persisted hp left, .refl _⟩, trivial⟩⟩
  ask h := ask_quiet h fun _ _ _ _ => trivial

end Discipline

/-- What showing a room leaves: no effect began, and the room was seen. -/
structure Scene.Shown (source : Source) (p q : Play) (r : Room) : Prop
    extends Play.Effectless source p q where
  /-- It is the room in which the player is. -/
  room : Library.read source "rooms" p.player.location = .ok r
  /-- The player stays in its room. -/
  location : q.player.location = p.player.location
  /-- The room is one more that the player has seen. -/
  visited : ∀ id, q.player.hasVisited id = (decide (id = r.id) || p.player.hasVisited id)
  /-- The exits that are closed or open stay so. -/
  lockedExits : q.player.lockedExits = p.player.lockedExits

namespace Scene

open Promise (quiet)

variable {source : Source} {p : Play}

/-- Describing a room is quiet, and answers the script of the room. -/
theorem describe_quiet (room : Room) (firstTime : Bool) : (quiet source).discipline.Obeys
    (fun script => script = if firstTime then room.onFirstEnter else room.onEnter) (do
      if let some art := room.ascii then Act.showArt art.file
      Act.sayAll (description room (← Act.player))
      Act.note (.shown room.id firstTime)
      return if firstTime then room.onFirstEnter else room.onEnter) := by
  have hbodily := Discipline.bodily_quiet source
  refine hbodily.showArt_before room.ascii ?_
  refine hbodily.player.bind fun player => (hbodily.sayAll _).bind fun _ => ?_
  have hnote : (quiet source).discipline.Allows (Act.note (.shown room.id firstTime)) :=
    Discipline.note_quiet fun _ h => by cases h
  exact hnote.bind fun _ => (quiet source).discipline.pure rfl

/-- Seeing a room is no effect. -/
theorem ends_markVisited (id : String) (hp : p.Reads source) :
    (markVisited id).Ends p (fun _ q => p.Effectless source q ∧
      q.player = p.player.markVisited id) fun _ _ => True := by
  have hreads : (p.changing (·.markVisited id)).Reads source := ⟨hp.1, hp.2⟩
  have hmarked : p.Effectless source (p.changing (·.markVisited id)) :=
    ⟨hreads, [], rfl, fun _ h => by cases h⟩
  unfold markVisited
  rw [Act.ends_bind, Act.ends_player, Act.ends_bind, Act.ends_changePlayer]
  -- A room that is new to the player is written to the save at once.
  cases p.player.hasVisited id with
  | true => exact ⟨hmarked, rfl⟩
  | false =>
    show Act.persist.Ends (p.changing (·.markVisited id)) _ _
    rw [Act.ends_persist]
    exact ⟨fun _ => trivial, fun left _ => ⟨hmarked.trans (.persisted hreads left), rfl⟩⟩

/-- Showing a room shows the room in which the player is, and answers its script. -/
theorem ends_render (firstTime : Bool) (hp : p.Reads source) :
    (render firstTime).Ends p (fun script q => ∃ r, Shown source p q r ∧
      script = if firstTime then r.onFirstEnter else r.onEnter) fun _ _ => True := by
  have hasked := Play.Effectless.answered hp (Library.faithful_getRoom p.player.location)
  unfold render Act.room
  rw [Act.ends_bind, Act.ends_player, Act.ends_bind, Act.ends_ask]
  refine ⟨fun r hr => ?_, fun _ _ => trivial⟩
  rw [hp.fromSource, (hp.agrees.getRoom _).1] at hr
  -- First the room is marked as seen, then it is described.
  rw [Act.ends_bind]
  refine (ends_markVisited r.id hasked.reads).imp_ok ?_
  intro _ q ⟨hseen, hplayer⟩
  refine (describe_quiet r firstTime q hseen.reads).imp_ok ?_
  intro script q' ⟨hquiet, hscript⟩
  refine ⟨r, ⟨(hasked.trans hseen).trans hquiet.toEffectless, hr, ?_, ?_, ?_⟩, hscript⟩
  · rw [hquiet.samePlace.location, hplayer]
    rfl
  · intro id
    rw [hquiet.samePlace.hasVisited, hplayer, Player.hasVisited_markVisited]
    rfl
  · rw [hquiet.samePlace.lockedExits, hplayer]
    rfl

end Scene

end TextAdventure
