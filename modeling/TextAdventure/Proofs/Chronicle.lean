import TextAdventure.Proofs.Exit
import TextAdventure.Proofs.Journal

/-!
# What acts recount

`Play.Recounts` says what an act adds to the journal: effects of the level in which it runs, whole
levels, and rooms that are shown because of an effect and followed by their script for the first
entry. Scripts and arrivals at every level add nothing else (`Nested.recounts_within`).
-/

namespace TextAdventure

open Event (Shows)

/-! ### Calm acts -/

/-- Between two states nothing but calm events happened. -/
def Play.Calm (p q : Play) : Prop :=
  ∃ new, q.journal = new ++ p.journal ∧ ∀ e ∈ new, e.isCalm = true

namespace Play.Calm

variable {p q r : Play}

/-- Nothing happened. -/
theorem of_eq (h : q.journal = p.journal) : p.Calm q := ⟨[], h, fun _ he => by cases he⟩

/-- A calm event happened. -/
theorem of_cons {e : Event} (h : q.journal = e :: p.journal) (he : e.isCalm = true) : p.Calm q := by
  refine ⟨[e], h, fun e' he' => ?_⟩
  rw [List.mem_singleton.mp he']
  exact he

/-- Calm events one after the other. -/
theorem trans (h : p.Calm q) (h' : q.Calm r) : p.Calm r := by
  obtain ⟨new, hnew, hcalm⟩ := h
  obtain ⟨new', hnew', hcalm'⟩ := h'
  refine ⟨new' ++ new, ?_, fun e he => ?_⟩
  · rw [hnew', hnew, List.append_assoc]
  · exact (List.mem_append.mp he).elim (hcalm' e) (hcalm e)

end Play.Calm

/-- Nothing but calm events happens. -/
def Promise.calm : Promise where
  inv _ := True
  ok := Play.Calm
  failed _ _ _ := True
  again _ _ := trivial
  refl _ := .of_eq rfl
  trans := Play.Calm.trans
  failed_after _ _ := trivial

namespace Discipline

open Promise (calm)

/-- The smallest acts are calm. -/
theorem bodily_calm : calm.discipline.Bodily where
  say _ _ _ := ⟨.of_cons rfl rfl, trivial⟩
  player _ _ := ⟨.of_eq rfl, trivial⟩
  changePlayer _ _ _ := ⟨.of_eq rfl, trivial⟩
  persist _ _ := by
    rw [Act.ends_persist]
    exact ⟨fun _ => trivial, fun _ _ => ⟨.of_cons rfl rfl, trivial⟩⟩
  ask _ p _ := by
    have hfetched : ∀ (paths : List String), ∀ e ∈ (paths.map Event.fetched).reverse,
        e.isCalm = true := by
      intro paths e he
      obtain ⟨path, -, rfl⟩ := List.mem_map.mp (List.mem_reverse.mp he)
      rfl
    rw [Act.ends_ask]
    exact ⟨fun _ _ => ⟨⟨_, rfl, hfetched _⟩, trivial⟩, fun _ _ => trivial⟩

end Discipline

/-- Nothing but calm events happens, and the player stays where it is. -/
def Promise.hushed (source : Source) : Promise := (Promise.quiet source).both Promise.calm

/-- The smallest acts are hushed if they leave the player where it is. -/
theorem Discipline.bodily_hushed (source : Source) :
    (Promise.hushed source).discipline.Bodily := (bodily_quiet source).both bodily_calm

/-- Seeing a room is calm. -/
theorem Scene.markVisited_calm (id : String) :
    (Scene.markVisited id).Keeps Promise.calm := by
  have hbodily := Discipline.bodily_calm
  have hmark : (Act.changePlayer (·.markVisited id)).Keeps Promise.calm := fun _ _ => .of_eq rfl
  refine Act.keeps_player.bind fun player => hmark.bind fun _ => ?_
  cases player.hasVisited id with
  | true => exact Act.keeps_pure ()
  | false => exact hbodily.persist.keeps

/-- A room was shown after calm events, and the player is there. -/
structure Play.Entered (source : Source) (first : Bool) (room : Room) (before : List Event)
    (p q : Play) : Prop where
  /-- The library has read the source afterwards. -/
  reads : q.Reads source
  /-- It is the room in which the player is. -/
  isRoom : Library.read source "rooms" p.player.location = .ok room
  /-- It was shown last. -/
  journal : q.journal = .shown room.id first :: (before.reverse ++ p.journal)
  /-- Before that nothing but calm events happened. -/
  calm : ∀ e ∈ before, e.isCalm = true
  /-- The player stays in its room. -/
  location : q.player.location = p.player.location
  /-- The room is one more that the player has seen. -/
  visited : ∀ id, q.player.hasVisited id = true ↔ id = room.id ∨ p.player.hasVisited id = true

/-- A room is shown after calm events, and its script is answered. -/
theorem Scene.ends_render_entered {source : Source} {p : Play} (firstTime : Bool)
    (hp : p.Reads source) :
    (render firstTime).Ends p (fun script q => ∃ room before,
      p.Entered source firstTime room before q ∧ script = room.entryScript firstTime)
      fun _ _ => True := by
  -- What happens before the room is shown is calm.
  have hcalm : (render firstTime).Ends p (fun _ q => ∃ (room : Room) (m : Play),
      Library.read source "rooms" p.player.location = .ok room ∧ p.Calm m ∧
        q.journal = .shown room.id firstTime :: m.journal) fun _ _ => True := by
    have hbodily := Discipline.bodily_calm
    have hroom := hbodily.ask (Library.faithful_getRoom p.player.location) p trivial
    unfold render
    rw [Act.ends_bind, Act.ends_player, Act.ends_bind]
    unfold Act.room
    rw [Act.ends_ask] at hroom ⊢
    refine ⟨fun room hread => ?_, fun _ _ => trivial⟩
    obtain ⟨hasked, -⟩ := hroom.1 room hread
    rw [hp.fromSource, (hp.agrees.getRoom _).1] at hread
    -- Whether or not a picture was shown, the room is described from where the play stands then.
    have hdescribe : ∀ q : Play, p.Calm q → Act.Ends (do
        Act.sayAll (description room (← Act.player))
        Act.note (.shown room.id firstTime)
        return if firstTime then room.onFirstEnter else room.onEnter) q
        (fun _ q => ∃ (room : Room) (m : Play),
          Library.read source "rooms" p.player.location = .ok room ∧ p.Calm m ∧
            q.journal = .shown room.id firstTime :: m.journal) fun _ _ => True := by
      intro q hq
      have hsaid := hbodily.sayAll (description room q.player) q trivial
      rw [Act.ends_sayAll] at hsaid
      rw [Act.ends_bind, Act.ends_player, Act.ends_bind, Act.ends_sayAll, Act.ends_bind,
        Act.ends_note]
      exact ⟨room, _, hread, hq.trans hsaid.1, rfl⟩
    rw [Act.ends_bind]
    refine (markVisited_calm room.id _ trivial).imp_ok fun _ q hmarked => ?_
    have hq : p.Calm q := hasked.trans hmarked
    cases room.ascii with
    | none => exact hdescribe q hq
    | some art =>
      show Act.Ends (Act.showArt art.file >>= _) q _ _
      rw [Act.ends_bind]
      exact (hbodily.showArt art.file q trivial).imp_ok fun _ r hr => hdescribe r (hq.trans hr.1)
  -- What shows the room is one lemma, and that nothing else was told before it is the other.
  refine ((ends_render firstTime hp).and hcalm).imp ?_ fun _ _ _ => trivial
  rintro script q ⟨⟨room, hshown, rfl⟩, room', m, hread, ⟨new, hm, hnew⟩, hjournal⟩
  rw [hshown.room] at hread
  cases hread
  refine ⟨room, new.reverse, ⟨hshown.reads, hshown.room, ?_, ?_, hshown.location, ?_⟩, rfl⟩
  · rw [hjournal, hm, List.reverse_reverse]
  · exact fun e he => hnew e (List.mem_reverse.mp he)
  · intro id
    rw [hshown.visited, Bool.or_eq_true, decide_eq_true_iff]

/-! ### What acts recount -/

/-- What an act adds to the journal, in order, and what the journal then tells of its level. -/
structure Play.Recounts (source : Source) (effects : List Step) (events : List Event)
    (p q : Play) : Prop where
  /-- The library has read the source afterwards. -/
  reads : q.Reads source
  /-- This is what happened. -/
  journal : q.journal = events.reverse ++ p.journal
  /-- These are the effects of the level. -/
  tells : Tells effects events
  /-- Rooms are shown because of effects. -/
  staged : Staged source p.journal events
  /-- The rooms seen are those seen before and those shown. -/
  visited : ∀ id, q.player.hasVisited id = true ↔ p.player.hasVisited id = true ∨ Shows id events
  /-- A player who was somewhere is somewhere afterwards, unless something was left out. -/
  arrived : p.player.HasArrived → .leftOut ∈ events ∨ q.player.HasArrived

namespace Play.Recounts

variable {source : Source} {effects effects' : List Step} {events events' : List Event}
  {p q r : Play}

/-- Recounting one act after the other. -/
theorem trans (h : p.Recounts source effects events q) (h' : q.Recounts source effects' events' r) :
    p.Recounts source (effects ++ effects') (events ++ events') r where
  reads := h'.reads
  journal := by rw [h'.journal, h.journal, List.reverse_append, List.append_assoc]
  tells := h.tells.append h'.tells
  staged := by
    have hstaged := h'.staged
    rw [h.journal] at hstaged
    exact h.staged.append hstaged
  visited id := by rw [h'.visited, h.visited, Event.shows_append, or_assoc]
  arrived harrived := by
    rcases h.arrived harrived with hleft | hq
    · exact .inl (List.mem_append_left _ hleft)
    · exact (h'.arrived hq).imp_left (List.mem_append_right _)

/-- What is hushed has no effects to recount. -/
theorem of_hushed (h : (Promise.hushed source).ok p q) :
    ∃ events, p.Recounts source [] events q := by
  obtain ⟨h, new, hnew, hnew'⟩ := h
  have hcalm' : ∀ e ∈ new.reverse, e.isCalm = true := fun e he => hnew' e (List.mem_reverse.mp he)
  refine ⟨new.reverse, h.reads, ?_, .of_calm hcalm', .of_calm hcalm', fun id => ?_, fun hp => ?_⟩
  · rw [List.reverse_reverse]
    exact hnew
  · rw [h.samePlace.hasVisited, or_iff_left (Event.not_shows_of_calm hcalm' id)]
  · right
    unfold Player.HasArrived
    rw [h.samePlace.hasVisited, h.samePlace.location]
    exact hp

/-- An effect began. -/
theorem performing (hp : p.Reads source) (s : Step) :
    p.Recounts source [s] [.performed s] (p.performing s) where
  reads := ⟨hp.1, hp.2⟩
  journal := rfl
  tells := .performed s
  staged := .of_not_shown fun _ _ hmem => by cases List.mem_singleton.mp hmem
  visited id := by
    rw [or_iff_left (by simp)]
    rfl
  arrived := .inr

/-- A level inside the level of an act has no effects of this level. -/
theorem level (h : (p.noting .opened).Recounts source effects events q) :
    p.Recounts source [] (.opened :: (events ++ [.closed])) (q.noting .closed) where
  reads := ⟨h.reads.1, h.reads.2⟩
  journal := by
    show .closed :: q.journal = _
    rw [h.journal]
    simp [noting]
  tells := h.tells.level
  staged := by
    have hinside : Staged source (.opened :: p.journal) (events ++ [.closed]) :=
      h.staged.append .closed
    exact Staged.opened.append hinside
  visited id := by
    have hsame : Shows id (.opened :: (events ++ [.closed])) ↔ Shows id events := by simp
    rw [hsame]
    exact h.visited id
  arrived hp := (h.arrived hp).imp_left fun hleft =>
    List.mem_cons_of_mem _ (List.mem_append_left _ hleft)

end Play.Recounts

/-- Where the events of a script are, its effects run next. An empty script has no events. -/
def Runs (script : Script) (events : List Event) : Prop :=
  .leftOut ∉ events → ∀ later, nextEffects later = [] →
    nextEffects (events ++ later) = script.effects

/-- A room that an effect leads to is entered for the first time, and its script runs, all of this
inside a level. -/
theorem Play.Entered.recounts {source : Source} {room : Room} {before events : List Event}
    {p m q : Play} (h : (p.noting .opened).Entered source true room before m)
    (hnamed : room.id = p.player.location) (hheaded : headedFor p.journal = some p.player.location)
    (hq : m.Recounts source [] events q) (hruns : Runs room.onFirstEnter events) :
    ∃ events', p.Recounts source [] events' (q.noting .closed) ∧
      (.leftOut ∈ events' ∨ q.player.HasArrived) := by
  -- The script of the room is the last thing that counts here, so the events of it stand for all of
  -- them unless a level was left out.
  have hstaged : Staged source (before.reverse ++ .opened :: p.journal)
      (.shown room.id true :: (events ++ [.closed])) := by
    have hrest : Staged source (.shown room.id true :: (before.reverse ++ .opened :: p.journal))
        (events ++ [.closed]) := by
      have hevents := hq.staged
      rw [h.journal] at hevents
      exact hevents.append .closed
    refine .shown ?_ hrest fun later hleft => ⟨room, hnamed ▸ h.isRoom, ?_⟩
    · rw [headedFor_append fun e he => h.calm e (List.mem_reverse.mp he), hnamed]
      exact hheaded
    · rw [List.append_assoc]
      exact hruns (fun hmem => hleft (List.mem_append_left _ hmem)) _ rfl
  -- The room that was shown is where the player is, and so the player has arrived.
  have harrived : .leftOut ∈ events ∨ q.player.HasArrived := by
    refine hq.arrived ?_
    unfold Player.HasArrived
    rw [h.visited, h.location]
    exact .inl hnamed.symm
  -- The level wraps the events of the entry: what is left out in them is left out in all.
  have hleft : ∀ e ∈ events, e ∈ Event.opened :: ((before ++ .shown room.id true :: events) ++
      [.closed]) := by
    intro e he
    simp [he]
  have hshows : ∀ id, Shows id (.opened :: ((before ++ .shown room.id true :: events) ++
      [.closed])) ↔ id = room.id ∨ Shows id events := by
    intro id
    have hbefore := Event.not_shows_of_calm h.calm id
    simp [hbefore, eq_comm]
  refine ⟨.opened :: ((before ++ .shown room.id true :: events) ++ [.closed]),
    -- Whatever was told before the room was shown is calm, and only tells of no room.
    ⟨⟨hq.reads.1, hq.reads.2⟩, ?_, ?_, ?_, fun id => ?_, fun _ => ?_⟩, ?_⟩
  · show .closed :: q.journal = _
    rw [hq.journal, h.journal]
    simp [noting]
  · exact ((Tells.of_calm h.calm).append ((Tells.shown _ _).append hq.tells)).level
  · have hbefore : Staged source (.opened :: p.journal) before := .of_calm h.calm
    have hopened : Staged source p.journal [.opened] := .opened
    have hall := hopened.append (hbefore.append hstaged)
    rw [List.append_assoc]
    exact hall
  · show q.player.hasVisited id = true ↔ _
    rw [hq.visited, h.visited, hshows, or_comm (a := id = room.id), or_assoc]
    rfl
  · exact harrived.imp_left (hleft _)
  · exact harrived.imp_left (hleft _)

/-! ### Scripts and arrivals -/

/-- What the scripts and the arrival inside a step recount. -/
structure Nested.Recounts (source : Source) (inner : Nested) : Prop where
  /-- A script runs as a level of its own. -/
  script : ∀ script p, p.Reads source → (inner.script script).Ends p
    (fun _ q => ∃ events, p.Recounts source [] events q ∧ Runs script events) fun _ _ => True
  /-- A player arrives at the room that an effect leads to. -/
  arrival : ∀ p, p.Reads source → headedFor p.journal = some p.player.location →
    inner.arrival.Ends p (fun _ q => ∃ events, p.Recounts source [] events q ∧
      (.leftOut ∈ events ∨ q.player.HasArrived)) fun _ _ => True

namespace Nested

variable {source : Source} {p : Play} {inner : Nested}

/-- A step that changes the player recounts itself. -/
theorem ends_step_recounts_revision {s : Step} {r : Step.Revision} (hr : s.revision? = some r)
    (hp : p.Reads source) : (inner.step s).Ends p
      -- A revision moves nobody and visits nothing, so that all it adds is calm.
      (fun _ q => ∃ events, p.Recounts source [s] events q) fun _ _ => True := by
  have hbodily := Discipline.bodily_calm
  rw [ends_step_revision hr, Act.ends_persist]
  refine ⟨fun _ => trivial, fun left _ => ?_⟩
  obtain ⟨hlocation, hvisited, -⟩ := Step.Revision.exits hr p.player
  -- The lines that tell of the change, and the write after them, are calm.
  have hcalm : ∀ e ∈ ((r.lines p.player).map Event.said) ++
      [.stored (((p.performing s).revised r).player.save)], e.isCalm = true := by
    intro e he
    rcases List.mem_append.mp he with hsaid | hstored
    · obtain ⟨line, -, rfl⟩ := List.mem_map.mp hsaid
      rfl
    · rw [List.mem_singleton.mp hstored]
      rfl
  have hseen := Player.hasVisited_congr hvisited
  have hrevised : (p.performing s).Recounts source [] ((r.lines p.player).map Event.said ++
      [.stored (((p.performing s).revised r).player.save)])
      (((p.performing s).revised r).persisted left) := by
    refine ⟨⟨hp.1, hp.2⟩, ?_, .of_calm hcalm, .of_calm hcalm, fun id => ?_, fun hp => .inr ?_⟩
    · simp only [List.reverse_append, List.reverse_singleton, List.append_assoc]
      rfl
    · rw [or_iff_left (Event.not_shows_of_calm hcalm id)]
      exact Bool.eq_iff_iff.mp (hseen id)
    · show (r.change p.player).hasVisited (r.change p.player).location = true
      rw [hseen, hlocation]
      exact hp
  exact ⟨_, (Play.Recounts.performing hp s).trans hrevised⟩

/-- A transition recounts itself and the arrival. -/
theorem ends_step_recounts_transition (h : inner.Recounts source) (room : String)
    (hp : p.Reads source) : (inner.step (.transition room)).Ends p
      (fun _ q => ∃ events, p.Recounts source [.transition room] events q) fun _ _ => True := by
  rw [ends_step_transition, Act.ends_persist]
  refine ⟨fun _ => trivial, fun left _ => ?_⟩
  -- The play behind the save is named, because only four facts about it matter.
  generalize hm : Play.persisted _ _ = m
  have hreads : m.Reads source := by
    rw [← hm]
    exact ⟨hp.1, hp.2⟩
  have hlocation : m.player.location = room := by
    rw [← hm]
    rfl
  have hvisited : m.player.visited = p.player.visited := by
    rw [← hm]
    rfl
  obtain ⟨record, hjournal⟩ : ∃ record,
      m.journal = .stored record :: .performed (.transition room) ::
      p.journal := by
    rw [← hm]
    exact ⟨_, rfl⟩
  have hheaded : headedFor m.journal = some m.player.location := by
    rw [hjournal, hlocation]
    rfl
  refine (h.arrival m hreads hheaded).imp_ok ?_
  rintro _ q ⟨events, hq, harrived⟩
  -- The player is on the way in between, so the arrival is what makes it be somewhere.
  refine ⟨.performed (.transition room) :: .stored record :: events, hq.reads, ?_, ?_, ?_,
    fun id => ?_, fun _ => ?_⟩
  · rw [hq.journal, hjournal]
    simp
  · have hstored : Tells [] [.stored record] := .of_calm (by simp [Event.isCalm])
    exact (Tells.performed (.transition room)).append (hstored.append hq.tells)
  · have hstaged := hq.staged
    rw [hjournal] at hstaged
    have hbefore : Staged source p.journal [.performed (.transition room), .stored record] :=
      .of_not_shown (by simp)
    -- Nothing is shown until the transition was saved.
    exact hbefore.append hstaged
  · rw [hq.visited, Player.hasVisited_congr hvisited]
    simp
  · exact harrived.imp_left fun hleft => by simp [hleft]

/-- A step recounts itself, if it is an effect. -/
theorem ends_step_recounts (h : inner.Recounts source) (s : Step) (hp : p.Reads source) :
    (inner.step s).Ends p (fun _ q => ∃ events, p.Recounts source (Script.effects [s]) events q)
      fun _ _ => True := by
  have hbodily := Discipline.bodily_hushed source
  have hbegun := Play.Recounts.performing hp s
  -- The steps that revise the player are one case, and what is left is looked at by kind.
  cases s using Step.cases_on_revision? with
  | revision s r hr =>
    have heffects : Script.effects [s] = [s] := by
      cases s with
      | unrecognized _ => cases hr
      | _ => rfl
    rw [heffects]
    exact ends_step_recounts_revision hr hp
  -- A step that only tells, shows or starts something is hushed: it enters no room and runs no
  -- script.
  | message text =>
    rw [ends_step_message]
    obtain ⟨events, hsaid⟩ :=
      Play.Recounts.of_hushed (hbodily.say text _ ⟨hbegun.reads, trivial⟩).1
    exact ⟨_, hbegun.trans hsaid⟩
  | art file size =>
    rw [ends_step_art]
    refine (hbodily.showArt file _ ⟨hbegun.reads, trivial⟩).imp ?_ fun _ _ _ => trivial
    intro _ q ⟨hq, _⟩
    obtain ⟨events, hshown⟩ := Play.Recounts.of_hushed hq
    exact ⟨_, hbegun.trans hshown⟩
  -- A branch tells of the script that was chosen, which need not be an effect of this one.
  | branch key equals onMatch otherwise =>
    rw [ends_step_branch]
    refine (h.script _ _ hbegun.reads).imp_ok ?_
    rintro _ q ⟨events, hq, -⟩
    exact ⟨_, hbegun.trans hq⟩
  | transition room => exact ends_step_recounts_transition h room hp
  | fight enemy =>
    rw [ends_step_fight]
    refine (hbodily.startFight enemy _ ⟨hbegun.reads, trivial⟩).imp ?_ fun _ _ _ => trivial
    intro _ q ⟨hq, _⟩
    obtain ⟨events, hstarted⟩ := Play.Recounts.of_hushed hq
    exact ⟨_, hbegun.trans hstarted⟩
  | unrecognized raw =>
    rw [ends_step_unrecognized]
    exact Play.Recounts.of_hushed (hbodily.say _ p ⟨hp, trivial⟩).1

/-- The steps of a script recount the effects of the script. -/
theorem ends_steps_recounts (h : inner.Recounts source) (script : Script) (hp : p.Reads source) :
    (inner.steps script).Ends p (fun _ q => ∃ events, p.Recounts source script.effects events q)
      fun _ _ => True := by
  induction script generalizing p with
  | nil =>
    exact Play.Recounts.of_hushed ((Promise.hushed source).refl ⟨hp, trivial⟩)
  | cons s ss ih =>
    rw [Nested.steps, Act.ends_bind]
    refine (ends_step_recounts h s hp).imp_ok ?_
    rintro _ q ⟨events, hq⟩
    refine (ih hq.reads).imp_ok ?_
    rintro _ r ⟨events', hr⟩
    have heffects : Script.effects (s :: ss) = Script.effects [s] ++ Script.effects ss :=
      List.filter_append (p := fun t : Step => !t.isUnrecognized) [s] ss
    rw [heffects]
    exact ⟨_, hq.trans hr⟩

/-- What is said instead of a script or an arrival tells that something was left out. -/
theorem ends_tooDeep_recounts (hp : p.Reads source) :
    Scene.tooDeep.Ends p (fun _ q => ∃ events, p.Recounts source [] events q ∧ .leftOut ∈ events)
      fun _ _ => True := by
  unfold Scene.tooDeep
  rw [Act.ends_bind, Act.ends_note, Act.ends_say]
  refine ⟨[.leftOut, .said _], ⟨⟨hp.1, hp.2⟩, rfl, ?_, .of_not_shown (by simp), fun id => ?_,
    fun hp => .inr hp⟩, List.mem_cons_self⟩
  · have hsaid : Tells [] [.said "Die Ereigniskette ist zu tief verschachtelt."] :=
      .of_calm (by simp [Event.isCalm])
    exact Tells.leftOut.append hsaid
  · rw [or_iff_left (by simp)]
    rfl

/-- Scripts and arrivals recount at every level. -/
theorem recounts_within (hsource : source.NamesRooms) (levels : Nat) :
    (within levels).Recounts source := by
  -- An empty script has no events and no effects.
  have hempty : ∀ p : Play, p.Reads source → ∃ events, p.Recounts source [] events p ∧
      Runs [] events := by
    intro p hp
    refine ⟨[], ⟨hp, rfl, .nil, .of_not_shown (by simp), ?_, .inr⟩, fun _ _ hlater => hlater⟩
    exact fun id => (or_iff_left (Event.not_shows_nil id)).symm
  -- By induction on the levels that are left, for scripts and arrivals together, since each leads
  -- to the other.
  induction levels with
  -- Without a level, everything but the empty script is left out, and the journal says so.
  | zero =>
    refine ⟨fun script p hp => ?_, fun p hp _ => ?_⟩
    · cases script with
      | nil => exact hempty p hp
      | cons s ss =>
        refine (ends_tooDeep_recounts hp).imp_ok ?_
        rintro _ q ⟨events, hq, hleft⟩
        exact ⟨events, hq, fun hnone => absurd hleft hnone⟩
    · refine (ends_tooDeep_recounts hp).imp_ok ?_
      rintro _ q ⟨events, hq, hleft⟩
      exact ⟨events, hq, .inl hleft⟩
  | succ levels ih =>
    have hopened : ∀ {p : Play}, p.Reads source → (p.noting .opened).Reads source :=
      fun hp => ⟨hp.1, hp.2⟩
    refine ⟨fun script p hp => ?_, fun p hp hheaded => ?_⟩
    -- Opening a level keeps the library, so that the steps are recounted from there.
    · cases script with
      | nil => exact hempty p hp
      | cons s ss =>
        show (Act.level ((within levels).steps (s :: ss))).Ends p _ _
        rw [Act.ends_level]
        refine (ends_steps_recounts ih (s :: ss) (hopened hp)).imp_ok ?_
        rintro _ q ⟨events, hq⟩
        exact ⟨_, hq.level, fun _ later _ => hq.tells.nextEffects_level later⟩
    -- An arrival shows the room and runs its script. The room carries the id that it was asked for
    -- by, because the source names its rooms.
    · show (Act.level do (within levels).script (← Scene.render true)).Ends p _ _
      rw [Act.ends_level, Act.ends_bind]
      refine (Scene.ends_render_entered true (hopened hp)).imp_ok ?_
      rintro script m ⟨room, before, hm, rfl⟩
      refine (ih.script _ m hm.reads).imp_ok ?_
      rintro _ q ⟨events, hq, hruns⟩
      exact hm.recounts (hsource _ room hm.isRoom) hheaded hq hruns

end Nested

end TextAdventure
