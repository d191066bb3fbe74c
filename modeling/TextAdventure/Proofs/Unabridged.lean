import TextAdventure.Proofs.Elementary

/-!
# What a journal tells of the limit on levels

What happened stays in the journal (`Discipline.scenic_recorded`). Scripts and arrivals that need
more levels than there are get left out, and a line tells of it (`Play.TellsLimit`). Nothing else
leaves anything out: fights and rooms do not (`Discipline.bodily_unabridged`,
`Discipline.render_unabridged`).
-/

namespace TextAdventure

namespace Play

/-- The state at the end of an act. -/
def atEnd : EStateM.Result Failure Play Unit → Play
  | .ok _ q => q
  | .error _ q => q

/-- Nothing was left out between two states. -/
def Unabridged (p q : Play) : Prop := ∃ new, q.journal = new ++ p.journal ∧ .leftOut ∉ new

/-- Between two states something was left out, and a line has told of it. -/
def TellsLimit (p q : Play) : Prop :=
  ∃ newer older, q.journal =
    newer ++ .said "Die Ereigniskette ist zu tief verschachtelt." :: .leftOut :: older ++ p.journal

variable {p q r : Play}

/-- Nothing happened. -/
theorem Unabridged.of_eq (h : q.journal = p.journal) : p.Unabridged q :=
  ⟨[], h, fun hmem => by cases hmem⟩

/-- Something else happened. -/
theorem Unabridged.of_cons {e : Event} (h : q.journal = e :: p.journal) (he : e ≠ .leftOut) :
    p.Unabridged q :=
  ⟨[e], h, fun hmem => he (List.mem_singleton.mp hmem).symm⟩

/-- Nothing was left out, one time after the other. -/
theorem Unabridged.trans (h : p.Unabridged q) (h' : q.Unabridged r) : p.Unabridged r := by
  obtain ⟨new, hnew, hall⟩ := h
  obtain ⟨new', hnew', hall'⟩ := h'
  refine ⟨new' ++ new, ?_, fun hmem => (List.mem_append.mp hmem).elim hall' hall⟩
  rw [hnew', hnew, List.append_assoc]

/-- What was told stays told. -/
theorem TellsLimit.before (h : p.TellsLimit q) (hqr : q.journal <:+ r.journal) :
    p.TellsLimit r := by
  obtain ⟨newer, older, hjournal⟩ := h
  obtain ⟨new, hnew⟩ := hqr
  refine ⟨new ++ newer, older, ?_⟩
  rw [← hnew, hjournal]
  simp

/-- What is told after something else is told. -/
theorem TellsLimit.after (h : q.TellsLimit r) (hpq : p.journal <:+ q.journal) :
    p.TellsLimit r := by
  obtain ⟨newer, older, hjournal⟩ := h
  obtain ⟨new, hnew⟩ := hpq
  refine ⟨newer, older ++ new, ?_⟩
  rw [hjournal, ← hnew]
  simp

end Play

/-- What happened stays in the journal. -/
def Promise.recorded : Promise where
  inv _ := True
  ok p q := p.journal <:+ q.journal
  failed _ p q := p.journal <:+ q.journal
  again _ _ := trivial
  refl _ := List.suffix_rfl
  trans h h' := h.trans h'
  failed_after h h' := h.trans h'

/-- Nothing is left out. -/
def Promise.unabridged : Promise where
  inv _ := True
  ok := Play.Unabridged
  failed _ := Play.Unabridged
  again _ _ := trivial
  refl _ := .of_eq rfl
  trans := Play.Unabridged.trans
  failed_after := Play.Unabridged.trans

namespace Discipline

open Promise (recorded unabridged)

/-- The smallest acts keep the journal. -/
theorem scenic_recorded : recorded.discipline.Scenic where
  note _ _ _ := ⟨List.suffix_cons _ _, trivial⟩
  player _ _ := ⟨List.suffix_rfl, trivial⟩
  changePlayer _ _ _ := ⟨List.suffix_rfl, trivial⟩
  persist _ _ := by
    rw [Act.ends_persist]
    exact ⟨fun _ => List.suffix_rfl, fun _ _ => ⟨List.suffix_cons _ _, trivial⟩⟩
  ask _ _ _ := by
    rw [Act.ends_ask]
    exact ⟨fun _ _ => ⟨List.suffix_append _ _, trivial⟩, fun _ _ => List.suffix_append _ _⟩
  level h p _ := by
    rw [Act.ends_level]
    have hopened : p.journal <:+ (p.noting .opened).journal := List.suffix_cons _ _
    exact (h (p.noting .opened) trivial).imp
      (fun _ q hq => ⟨(hopened.trans hq.1).trans (List.suffix_cons _ _), trivial⟩)
      fun _ q hq => (hopened.trans hq).trans (List.suffix_cons _ _)

/-- The smallest acts leave nothing out. -/
theorem bodily_unabridged : unabridged.discipline.Bodily where
  say _ _ _ := ⟨.of_cons rfl (by simp), trivial⟩
  player _ _ := ⟨.of_eq rfl, trivial⟩
  changePlayer _ _ _ := ⟨.of_eq rfl, trivial⟩
  persist _ _ := by
    rw [Act.ends_persist]
    exact ⟨fun _ => .of_eq rfl, fun _ _ => ⟨.of_cons rfl (by simp), trivial⟩⟩
  ask _ p _ := by
    have hfetched : ∀ paths : List String, .leftOut ∉ (paths.map Event.fetched).reverse := by
      simp
    rw [Act.ends_ask]
    exact ⟨fun _ _ => ⟨⟨_, rfl, hfetched _⟩, trivial⟩, fun _ _ => ⟨_, rfl, hfetched _⟩⟩

/-- Showing a room leaves nothing out. -/
theorem render_unabridged (firstTime : Bool) :
    unabridged.discipline.Allows (Scene.render firstTime) := by
  have hbodily := bodily_unabridged
  have hmark : ∀ id, unabridged.discipline.Allows (Scene.markVisited id) := by
    intro id
    have hchange : unabridged.discipline.Allows (Act.changePlayer (·.markVisited id)) :=
      fun _ _ => ⟨.of_eq rfl, trivial⟩
    refine hbodily.player.bind fun player => hchange.bind fun _ => ?_
    cases player.hasVisited id with
    | true => exact allows_pure ()
    | false => exact hbodily.persist
  have hshown : ∀ id, unabridged.discipline.Allows (Act.note (.shown id firstTime)) :=
    fun _ _ _ => ⟨.of_cons rfl (by simp), trivial⟩
  refine hbodily.player.bind fun player =>
    (hbodily.ask (Library.faithful_getRoom _)).bind fun room => (hmark room.id).bind fun _ => ?_
  refine hbodily.showArt_before room.ascii (hbodily.player.bind fun _ => ?_)
  exact (hbodily.sayAll _).bind fun _ => (hshown room.id).bind fun _ => allows_pure _

end Discipline

namespace Act

variable {c : Promise} {act : Act Unit} {p : Play}

/-- What an act promises also of its failures holds at its end. -/
theorem ok_atEnd (hfailed : ∀ {e p q}, c.failed e p q → c.ok p q) (h : c.discipline.Allows act)
    (hp : c.inv p) : c.ok p (Play.atEnd (act p)) := by
  have hends := h p hp
  unfold Ends at hends
  cases hact : act p with
  | ok _ q =>
    rw [hact] at hends
    exact hends.1
  | error e q =>
    rw [hact] at hends
    exact hfailed hends

end Act

end TextAdventure
