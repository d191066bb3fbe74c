import TextAdventure.Proofs.Elementary

/-!
# What the library holds cannot be told

Two states of play are `Play.Similar` if they differ only in the documents that their libraries have
read, both of the same source, and in what was fetched on the way. `Session.Request.uniform` says
that every request ends alike from similar states: with the same value or the same failure, and
again in similar states. To end alike is a discipline that the smallest acts obey; only `Act.ask`
looks at the library, and a faithful question is answered by what the source has.
-/

namespace TextAdventure

/-- Whether an event is a question to the source. -/
def Event.isFetched : Event → Bool
  | .fetched _ => true
  | _ => false

namespace Play

/-- What happened apart from questions to the source, the newest first. -/
def deeds (p : Play) : List Event := p.journal.filter fun e => !e.isFetched

/-- A state differs from another one only in what its library has read and in what was fetched, and
both libraries agree with the source. -/
inductive Similar (p : Play) : Play → Prop where
  | intro (library : Library) (journal : List Event)
    (worldFile : library.worldFile = p.library.worldFile)
    (deeds : { p with journal := journal }.deeds = p.deeds)
    (agrees : Library.Agrees p.source p.library) (agrees' : Library.Agrees p.source library) :
    Similar p { p with library := library, journal := journal }

variable {p q : Play}

/-- The same lines were said in similar states. -/
theorem Similar.lines_eq (h : p.Similar q) : q.lines = p.lines := by
  -- What was said can be told from the deeds alone.
  have hlines : ∀ r : Play, r.lines = { r with journal := r.deeds }.lines := by
    intro r
    unfold lines deeds
    rw [← List.filter_reverse, List.filterMap_filter]
    congr 1
    funext e
    cases e <;> rfl
  have hdeeds : q.deeds = p.deeds := by
    cases h with
    | intro library journal _ deeds _ _ => exact deeds
  rw [hlines q, hlines p, hdeeds]
  rfl

/-- Similar states stay similar after the same event. -/
theorem Similar.noting (h : p.Similar q) (e : Event) : (p.noting e).Similar (q.noting e) := by
  cases h with
  | intro library journal worldFile deeds agrees agrees' =>
    refine .intro library (e :: journal) worldFile ?_ agrees agrees'
    show List.filter _ (e :: journal) = List.filter _ (e :: p.journal)
    rw [List.filter_cons, List.filter_cons]
    split
    · exact congrArg _ deeds
    · exact deeds

/-- What was fetched is no deed. -/
theorem deeds_answered {α : Type} (p : Play) (answer : Library.Answer α) :
    (p.answered answer).deeds = p.deeds := by
  unfold deeds answered
  rw [List.filter_append, List.filter_reverse, List.filter_map]
  have hnone : answer.fetched.filter ((fun e => !e.isFetched) ∘ Event.fetched) = [] :=
    List.filter_eq_nil_iff.mpr fun _ _ h => Bool.noConfusion h
  rw [hnone]
  rfl

end Play

namespace Act

variable {α β : Type}

/-- Two ends of an act are alike: the same value or the same failure, in similar states. -/
def Alike (post : α → Prop) : EStateM.Result Failure Play α → EStateM.Result Failure Play α → Prop
  | .ok a p, .ok b q => a = b ∧ post a ∧ p.Similar q
  | .error e p, .error f q => e = f ∧ p.Similar q
  | _, _ => False

/-- An act ends alike from similar states. -/
def Uniform (post : α → Prop) (act : Act α) : Prop :=
  ∀ p q, p.Similar q → Alike post (act p) (act q)

/-- Doing nothing ends alike. -/
theorem uniform_pure {post : α → Prop} {a : α} (h : post a) : Uniform post (pure a) :=
  fun _ _ hpq => ⟨rfl, h, hpq⟩

/-- Acts end alike one after the other. -/
theorem Uniform.bind {post : α → Prop} {post' : β → Prop} {act : Act α} {next : α → Act β}
    (h : act.Uniform post) (hnext : ∀ a, post a → (next a).Uniform post') :
    (act >>= next).Uniform post' := by
  intro p q hpq
  have hact := h p q hpq
  show Alike post' (EStateM.bind act next p) (EStateM.bind act next q)
  unfold EStateM.bind
  -- Both acts succeed with the same result, or both fail alike.
  cases hp : act p with
  | ok a r =>
    cases hq : act q with
    | ok b s =>
      rw [hp, hq] at hact
      obtain ⟨rfl, ha, hrs⟩ := hact
      exact hnext a ha r s hrs
    | error f s =>
      rw [hp, hq] at hact
      exact hact.elim
  | error e r =>
    cases hq : act q with
    | ok b s =>
      rw [hp, hq] at hact
      exact hact.elim
    | error f s =>
      rw [hp, hq] at hact
      exact hact

end Act

namespace Discipline

/-- To end alike from similar states. -/
def uniform : Discipline where
  Obeys := Act.Uniform
  pure := Act.uniform_pure
  bind := Act.Uniform.bind

/-- An act that changes a state in the same way as a similar one ends alike. -/
theorem uniform_modify {f : Play → Play} (h : ∀ p q : Play, p.Similar q → (f p).Similar (f q)) :
    uniform.Allows (modify f) := fun p q hpq => ⟨rfl, trivial, h p q hpq⟩

/-- A faithful question is answered alike. -/
theorem uniform_ask {α : Type} {request : Source → Library → Library.Answer α}
    (h : Library.Faithful request) : uniform.Allows (Act.ask request) := by
  obtain ⟨truth, htruth⟩ := h
  intro p q hpq
  cases hpq with
  | intro library journal worldFile deeds agrees agrees' =>
    obtain ⟨hresult, hagrees, hworldFile⟩ := htruth p.source p.library agrees
    obtain ⟨hresult', hagrees', hworldFile'⟩ := htruth p.source library agrees'
    -- Both answers are what the source has, whatever was on the shelves.
    have hsame : (request p.source library).result = (request p.source p.library).result := by
      rw [hresult, hresult', worldFile]
    have hsimilar : (p.answered (request p.source p.library)).Similar
        ({ p with library := library, journal := journal }.answered
          (request p.source library)) := by
      refine .intro (request p.source library).library _ ?_ ?_ hagrees hagrees'
      · calc (request p.source library).library.worldFile = library.worldFile := hworldFile'
          _ = p.library.worldFile := worldFile
          _ = (request p.source p.library).library.worldFile := hworldFile.symm
      · have hq := Play.deeds_answered { p with library := library, journal := journal }
          (request p.source library)
        calc _ = { p with library := library, journal := journal }.deeds := hq
          _ = p.deeds := deeds
          _ = (p.answered (request p.source p.library)).deeds := (Play.deeds_answered p _).symm
    -- The answer and what is told of it are the same, so both acts end in the same way.
    unfold Act.ask
    simp only [hsame]
    cases (request p.source p.library).result with
    | ok a => exact ⟨rfl, trivial, hsimilar⟩
    | error e => exact ⟨rfl, hsimilar⟩

/-- Saving the player ends alike. -/
theorem uniform_persist : uniform.Allows Act.persist := by
  intro p q hpq
  cases hpq with
  | intro library journal worldFile deeds agrees agrees' =>
    unfold Act.persist
    simp only
    cases p.saves.put p.saveKey p.player.save with
    | mk result saves =>
      cases result with
      | ok _ =>
        have hstored := congrArg (Event.stored p.player.save :: ·) deeds
        exact ⟨rfl, trivial, .intro library _ worldFile hstored agrees agrees'⟩
      | error e => exact ⟨rfl, .intro library journal worldFile deeds agrees agrees'⟩

/-- Reading the save of the player ends alike. -/
theorem uniform_restore : uniform.Allows Act.restore := by
  intro p q hpq
  cases hpq with
  | intro library journal worldFile deeds agrees agrees' =>
    unfold Act.restore
    simp only
    cases p.saves.get p.saveKey with
    | mk result saves =>
      cases result with
      | ok bytes =>
        simp only
        cases bytes.bind p.player.restore? with
        | some player =>
          exact ⟨rfl, trivial, .intro library journal worldFile deeds agrees agrees'⟩
        | none => exact ⟨rfl, trivial, .intro library journal worldFile deeds agrees agrees'⟩
      | error e => exact ⟨rfl, .intro library journal worldFile deeds agrees agrees'⟩

/-- Removing the save of the player ends alike. -/
theorem uniform_forget : uniform.Allows Act.forget := by
  intro p q hpq
  cases hpq with
  | intro library journal worldFile deeds agrees agrees' =>
    unfold Act.forget
    simp only
    cases p.saves.remove p.saveKey with
    | mk result saves =>
      cases result with
      | ok _ => exact ⟨rfl, trivial, .intro library journal worldFile deeds agrees agrees'⟩
      | error e => exact ⟨rfl, .intro library journal worldFile deeds agrees agrees'⟩

/-- A level ends alike if the act in it does. -/
theorem uniform_level {act : Act Unit} (h : uniform.Allows act) :
    uniform.Allows (Act.level act) := by
  intro p q hpq
  -- The level begins and ends in similar states, and the act inside it ends alike.
  have hact := h _ _ (hpq.noting .opened)
  cases hp : act (p.noting .opened) with
  | ok a r =>
    cases hq : act (q.noting .opened) with
    | ok b s =>
      rw [hp, hq] at hact
      rw [Act.level_of_ok hp, Act.level_of_ok hq]
      exact ⟨rfl, trivial, hact.2.2.noting .closed⟩
    | error f s =>
      rw [hp, hq] at hact
      exact hact.elim
  | error e r =>
    cases hq : act (q.noting .opened) with
    | ok b s =>
      rw [hp, hq] at hact
      exact hact.elim
    | error f s =>
      rw [hp, hq] at hact
      rw [Act.level_of_error hp, Act.level_of_error hq]
      exact ⟨hact.1, hact.2.noting .closed⟩

/-- The smallest acts end alike from similar states. -/
theorem elementary_uniform : uniform.Elementary where
  note e := uniform_modify fun _ _ hpq => hpq.noting e
  player p q hpq := by
    cases hpq with
    | intro library journal worldFile deeds agrees agrees' =>
      exact ⟨rfl, trivial, .intro library journal worldFile deeds agrees agrees'⟩
  -- Apart from questions, no act looks at the library, so what differs there stays apart.
  changePlayer change := uniform_modify fun p q hpq => by
    cases hpq with
    | intro library journal worldFile deeds agrees agrees' =>
      exact .intro library journal worldFile deeds agrees agrees'
  persist := uniform_persist
  restore := uniform_restore
  forget := uniform_forget
  ask h := uniform_ask h
  level h := uniform_level h
  activate := uniform_modify fun p q hpq => by
    cases hpq with
    | intro library journal worldFile deeds agrees agrees' =>
      exact .intro library journal worldFile deeds agrees agrees'
  deactivate := uniform_modify fun p q hpq => by
    cases hpq with
    | intro library journal worldFile deeds agrees agrees' =>
      exact .intro library journal worldFile deeds agrees agrees'
  requireActive p q hpq := by
    have hact : ∀ r : Play, Session.requireActive r =
        (if !r.active then throw .noSession else Pure.pure () : Act Unit) r := fun _ => rfl
    -- Whether the session takes input is not a matter of its library.
    have hactive : q.active = p.active := by
      cases hpq
      rfl
    show Act.Alike _ (Session.requireActive p) (Session.requireActive q)
    rw [hact, hact, hactive]
    cases p.active with
    | true => exact ⟨rfl, trivial, hpq⟩
    | false => exact ⟨rfl, hpq⟩
  beginning world p q hpq := by
    cases hpq with
    | intro library journal worldFile deeds agrees agrees' =>
      exact ⟨rfl, trivial, .intro library journal worldFile deeds agrees agrees'⟩

end Discipline

/-- Every request ends alike from similar states. -/
theorem Session.Request.uniform (r : Request) : r.act.Uniform fun _ => True :=
  Discipline.elementary_uniform.request r

end TextAdventure
