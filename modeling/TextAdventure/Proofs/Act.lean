import TextAdventure.Session
import Mathlib.Data.List.Basic

/-!
# How acts end

`Act.Ends` says how an act ends from a state: what holds if it succeeds, and what holds if it fails.
The lemmas below compute it for each way of building an act, so that a straight run of acts is
taken apart by `rw` or `simp`. A request is replied to as its act ends (`Session.handle_eq`).
-/

namespace TextAdventure

namespace Play

/-- The state after an event. -/
def noting (p : Play) (e : Event) : Play := { p with journal := e :: p.journal }

/-- The state after a change of the player. -/
def changing (p : Play) (change : Player → Player) : Play := { p with player := change p.player }

/-- The state after writing the player to the store, which then has so many writes left. -/
def persisted (p : Play) (left : Option Nat) : Play :=
  { p with
    saves := { p.saves with
      puts := left
      entries := p.saves.entries.insert p.saveKey p.player.save }
    journal := .stored p.player.save :: p.journal }

/-- The state after an answer of the library. -/
def answered {α : Type} (p : Play) (answer : Library.Answer α) : Play :=
  { p with
    library := answer.library
    journal := (answer.fetched.map Event.fetched).reverse ++ p.journal }

/-- The library does not change the player. -/
@[simp]
theorem player_answered {α : Type} (p : Play) (answer : Library.Answer α) :
    (p.answered answer).player = p.player := rfl

end Play

namespace Act

variable {α β : Type} {p : Play}

/-- How an act ends from a state: with a value and a state of which `ok` holds, or with a failure
and a state of which `failed` holds. -/
def Ends (act : Act α) (p : Play) (ok : α → Play → Prop) (failed : Failure → Play → Prop) : Prop :=
  match act p with
  | .ok a q => ok a q
  | .error e q => failed e q

section Ends

variable {Q Q' : α → Play → Prop} {R : β → Play → Prop} {E E' : Failure → Play → Prop}

/-- What holds at the end of an act may be weakened. -/
theorem Ends.imp {act : Act α} (h : act.Ends p Q E) (hQ : ∀ a q, Q a q → Q' a q)
    (hE : ∀ e q, E e q → E' e q) : act.Ends p Q' E' := by
  unfold Ends at h ⊢
  cases hact : act p with
  | ok a q => rw [hact] at h; exact hQ a q h
  | error e q => rw [hact] at h; exact hE e q h

/-- What holds at the end of an act that succeeds may be weakened. -/
theorem Ends.imp_ok {act : Act α} (h : act.Ends p Q E) (hQ : ∀ a q, Q a q → Q' a q) :
    act.Ends p Q' E := h.imp hQ fun _ _ he => he

/-- What holds at two ends of an act holds at one. -/
theorem Ends.and {act : Act α} (h : act.Ends p Q E) (h' : act.Ends p Q' E') :
    act.Ends p (fun a q => Q a q ∧ Q' a q) (fun e q => E e q ∧ E' e q) := by
  unfold Ends at h h' ⊢
  cases hact : act p with
  | ok a q => rw [hact] at h h'; exact ⟨h, h'⟩
  | error e q => rw [hact] at h h'; exact ⟨h, h'⟩

/-- An act that does not fail ends with a value. -/
theorem Ends.exists_ok {act : Act α} (h : act.Ends p Q fun _ _ => False) :
    ∃ a q, act p = .ok a q ∧ Q a q := by
  unfold Ends at h
  cases hact : act p with
  | ok a q =>
    rw [hact] at h
    exact ⟨a, q, rfl, h⟩
  | error e q =>
    rw [hact] at h
    exact h.elim

/-- What always holds, holds at the end of an act. -/
theorem ends_of_forall {act : Act α} (hQ : ∀ a q, Q a q) (hE : ∀ e q, E e q) :
    act.Ends p Q E := by
  unfold Ends
  cases act p with
  | ok a q => exact hQ a q
  | error e q => exact hE e q

/-- An act ends as another one does if this holds at its end. -/
theorem eq_of_ends {act act' : Act α} {q : Play}
    (h : act.Ends p (fun a r => act' q = .ok a r) fun e r => act' q = .error e r) :
    act p = act' q := by
  unfold Ends at h
  cases hact : act p with
  | ok a r =>
    rw [hact] at h
    exact h.symm
  | error e r =>
    rw [hact] at h
    exact h.symm

/-- An act ends as it does. -/
theorem ends_self (act : Act α) (p : Play) :
    act.Ends p (fun a r => act p = .ok a r) fun e r => act p = .error e r := by
  unfold Ends
  cases act p <;> rfl

@[simp]
theorem ends_pure (a : α) : Ends (pure a) p Q E ↔ Q a p := Iff.rfl

@[simp]
theorem ends_bind (act : Act α) (next : α → Act β) :
    Ends (act >>= next) p R E ↔ act.Ends p (fun a q => (next a).Ends q R E) E := by
  unfold Ends
  change (match EStateM.bind act next p with
    | .ok a q => R a q
    | .error e q => E e q) ↔ _
  unfold EStateM.bind
  cases act p <;> rfl

/-- After an act that goes well the next one begins. -/
theorem bind_of_ok {act : Act α} {next : α → Act β} {a : α} {q : Play} (h : act p = .ok a q) :
    (act >>= next) p = next a q := by
  change EStateM.bind act next p = _
  unfold EStateM.bind
  rw [h]

/-- After an act that fails there is no next one. -/
theorem bind_of_error {act : Act α} {next : α → Act β} {e : Failure} {q : Play}
    (h : act p = .error e q) : (act >>= next) p = .error e q := by
  change EStateM.bind act next p = _
  unfold EStateM.bind
  rw [h]

@[simp]
theorem ends_discard (act : Act α) {R : Unit → Play → Prop} :
    Ends (discard act) p R E ↔ act.Ends p (fun _ q => R () q) E := by
  have hmap : discard act = EStateM.map (Function.const α ()) act := rfl
  unfold Ends
  rw [hmap]
  unfold EStateM.map
  cases act p <;> rfl

@[simp]
theorem ends_get {R : Play → Play → Prop} : Ends get p R E ↔ R p p := Iff.rfl

@[simp]
theorem ends_modify {R : Unit → Play → Prop} (f : Play → Play) :
    Ends (modify f) p R E ↔ R () (f p) := Iff.rfl

@[simp]
theorem ends_note {R : Unit → Play → Prop} (e : Event) :
    (note e).Ends p R E ↔ R () (p.noting e) := Iff.rfl

@[simp]
theorem ends_say {R : Unit → Play → Prop} (line : String) :
    (say line).Ends p R E ↔ R () (p.noting (.said line)) := Iff.rfl

@[simp]
theorem ends_changePlayer {R : Unit → Play → Prop} (change : Player → Player) :
    (changePlayer change).Ends p R E ↔ R () (p.changing change) := Iff.rfl

@[simp]
theorem ends_player {R : Player → Play → Prop} : player.Ends p R E ↔ R p.player p := Iff.rfl

/-- Lines are said one after the other. -/
theorem ends_sayAll {R : Unit → Play → Prop} (lines : List String) :
    (sayAll lines).Ends p R E ↔
      R () { p with journal := (lines.map Event.said).reverse ++ p.journal } := by
  unfold sayAll
  induction lines generalizing p with
  | nil => rfl
  | cons line lines ih =>
    change ((say line >>= fun _ => lines.forM say).Ends p R E) ↔ _
    rw [ends_bind, ends_say, ih]
    simp [Play.noting]

/-- Writing the player fails if no write is left, and changes nothing then. -/
theorem ends_persist {R : Unit → Play → Prop} :
    persist.Ends p R E ↔
      (Saves.spend p.saves.puts = none → E Saves.refused p) ∧
      ∀ left, Saves.spend p.saves.puts = some left → R () (p.persisted left) := by
  unfold Ends persist Saves.put
  cases Saves.spend p.saves.puts <;> simp [Play.persisted]

/-- The library answers with a document or a failure, and remembers what it has read. -/
theorem ends_ask (request : Source → Library → Library.Answer α) :
    (ask request).Ends p Q E ↔
      (∀ a, (request p.source p.library).result = .ok a →
        Q a (p.answered (request p.source p.library))) ∧
      ∀ e, (request p.source p.library).result = .error e →
        E e (p.answered (request p.source p.library)) := by
  unfold Ends ask
  cases hr : (request p.source p.library).result <;> simp [hr, Play.answered]

/-- A library that has the document hands it out. -/
theorem ends_ask_ok {request : Source → Library → Library.Answer α} {a : α}
    (h : (request p.source p.library).result = .ok a) :
    (ask request).Ends p Q E ↔ Q a (p.answered (request p.source p.library)) := by
  rw [ends_ask, h]
  simp

/-- A library that does not have the document fails. -/
theorem ends_ask_error {request : Source → Library → Library.Answer α} {e : Failure}
    (h : (request p.source p.library).result = .error e) :
    (ask request).Ends p Q E ↔ E e (p.answered (request p.source p.library)) := by
  rw [ends_ask, h]
  simp

/-- Reading the store fails if no read is left; a save that cannot be read counts as none. -/
theorem ends_restore {R : Bool → Play → Prop} :
    restore.Ends p R E ↔
      (Saves.spend p.saves.gets = none → E Saves.refused p) ∧
      ∀ left, Saves.spend p.saves.gets = some left →
        match (p.saves.entries.get? p.saveKey).bind p.player.restore? with
        | some player => R true { p with saves := { p.saves with gets := left }, player := player }
        | none => R false { p with saves := { p.saves with gets := left } } := by
  unfold Ends restore Saves.get
  cases Saves.spend p.saves.gets with
  | none => simp
  | some left =>
    cases h : (p.saves.entries.get? p.saveKey).bind p.player.restore? <;> simp [h]

/-- Deleting the save fails if no deletion is left, and changes nothing then. -/
theorem ends_forget {R : Unit → Play → Prop} :
    forget.Ends p R E ↔
      (Saves.spend p.saves.removes = none → E Saves.refused p) ∧
      ∀ left, Saves.spend p.saves.removes = some left →
        R () { p with saves := { p.saves with
          removes := left, entries := p.saves.entries.erase p.saveKey } } := by
  unfold Ends forget Saves.remove
  cases Saves.spend p.saves.removes <;> simp

/-- A level is opened before the act inside it, and closed however that act ends. -/
theorem ends_level {R : Unit → Play → Prop} (act : Act Unit) :
    (level act).Ends p R E ↔
      act.Ends (p.noting .opened) (fun _ q => R () (q.noting .closed))
        (fun e q => E e (q.noting .closed)) := by
  unfold Ends level Play.noting
  cases act { p with journal := .opened :: p.journal } <;> rfl

/-- A level goes well if the act in it does. -/
theorem level_of_ok {act : Act Unit} {q : Play} (h : act (p.noting .opened) = .ok () q) :
    level act p = .ok () (q.noting .closed) := by
  unfold Play.noting at h
  unfold level
  rw [h]
  rfl

/-- A level fails as the act in it does. -/
theorem level_of_error {act : Act Unit} {e : Failure} {q : Play}
    (h : act (p.noting .opened) = .error e q) : level act p = .error e (q.noting .closed) := by
  unfold Play.noting at h
  unfold level
  rw [h]
  rfl

end Ends

end Act

namespace Session

variable {p : Play} {R : Unit → Play → Prop} {E : Failure → Play → Prop}

/-- A session that takes no input fails and changes nothing. -/
theorem ends_requireActive :
    requireActive.Ends p R E ↔
      (p.active = true → R () p) ∧ (p.active = false → E .noSession p) := by
  unfold requireActive
  rw [Act.ends_bind, Act.ends_get]
  cases hactive : p.active with
  | true =>
    show R () p ↔ _
    simp
  | false =>
    show E .noSession p ↔ _
    simp

/-- The state in which a request begins. -/
def play (s : Session) (source : Source) (saves : Saves) : Play :=
  { toSession := s, source := source, saves := saves, journal := [] }

/-- The reply to a request whose act ended in a given way. -/
def replyOf : EStateM.Result Failure Play Unit → Reply
  | .ok _ p => ⟨.ok p.lines, p.toSession, p.saves, p.journal⟩
  | .error e p => ⟨.error e, p.toSession, p.saves, p.journal⟩

/-- A request is replied to as its act ends. -/
theorem handle_eq (s : Session) (source : Source) (saves : Saves) (r : Request) :
    s.handle source saves r = replyOf (r.act (s.play source saves)) := by
  unfold handle replyOf play
  cases r.act { toSession := s, source := source, saves := saves, journal := [] } <;> rfl

variable {s : Session} {source : Source} {saves : Saves}

/-- What holds of the reply to a request is what holds as its act ends. -/
theorem handle_iff_ends {r : Request} {J : Reply → Prop} :
    J (s.handle source saves r) ↔ r.act.Ends (s.play source saves)
      (fun _ q => J ⟨.ok q.lines, q.toSession, q.saves, q.journal⟩)
      fun e q => J ⟨.error e, q.toSession, q.saves, q.journal⟩ := by
  rw [handle_eq]
  unfold Act.Ends
  cases r.act (s.play source saves) <;> rfl

/-- What holds however the act of a request ends holds of the reply. -/
theorem handle_of_both_ends {r : Request} {J : Session → Saves → List Event → Prop}
    (h : r.act.Ends (s.play source saves) (fun _ q => J q.toSession q.saves q.journal)
      fun _ q => J q.toSession q.saves q.journal) :
    J (s.handle source saves r).session (s.handle source saves r).saves
      (s.handle source saves r).journal :=
  (handle_iff_ends (J := fun reply => J reply.session reply.saves reply.journal)).mpr h

end Session

end TextAdventure
