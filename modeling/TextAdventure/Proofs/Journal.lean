import TextAdventure.Play
import TextAdventure.Proofs.Library

/-!
# What a journal tells

A journal tells which script runs after a room was shown: the effects of the level that is opened
next (`nextEffects`). It also tells why the room was shown: an effect that leads somewhere is under
way (`headedFor`) as long as nothing but the arrival has begun since. `Tells` and `Staged` say what
a part of a journal tells of its level and of the rooms in it, and both add up along the journal.
-/

namespace TextAdventure

namespace Event

/-- Whether an event is none of the events that scripts, effects and rooms consist of. -/
def isCalm : Event → Bool
  | .said _ => true
  | .fetched _ => true
  | .stored _ => true
  | _ => false

/-- A room was shown among these events. -/
def Shows (id : String) (events : List Event) : Prop := ∃ first, Event.shown id first ∈ events

@[simp]
theorem shows_append (id : String) (events events' : List Event) :
    Shows id (events ++ events') ↔ Shows id events ∨ Shows id events' := by
  unfold Shows
  simp only [List.mem_append, exists_or]

@[simp]
theorem shows_cons (id : String) (e : Event) (events : List Event) :
    Shows id (e :: events) ↔ (∃ first, e = .shown id first) ∨ Shows id events := by
  unfold Shows
  simp only [List.mem_cons, exists_or, eq_comm]

@[simp]
theorem not_shows_nil (id : String) : ¬Shows id [] := by
  rintro ⟨first, hmem⟩
  cases hmem

@[simp]
theorem shows_reverse (id : String) (events : List Event) :
    Shows id events.reverse ↔ Shows id events := by
  unfold Shows
  simp only [List.mem_reverse]

/-- Where nothing but calm events happened, no room was shown. -/
theorem not_shows_of_calm {events : List Event} (h : ∀ e ∈ events, e.isCalm = true) (id : String) :
    ¬Shows id events := by
  rintro ⟨first, hmem⟩
  cases h _ hmem

end Event

/-- The effects of a script. What is no effect is named and skipped. -/
def Script.effects (script : Script) : List Step := script.filter fun s => !s.isUnrecognized

/-- The script of a room for the first or for a later entry. -/
def Room.entryScript (room : Room) (first : Bool) : Script :=
  if first then room.onFirstEnter else room.onEnter

open Event (Shows)

/-- The room to which an effect leads that is under way: nothing has happened since but the
beginning of the arrival. The newest event comes first. -/
def headedFor : List Event → Option String
  | .performed (.transition room) :: _ => some room
  | .said _ :: older => headedFor older
  | .fetched _ :: older => headedFor older
  | .stored _ :: older => headedFor older
  | .opened :: older => headedFor older
  | _ => none

/-- The effects of a level up to its end, where so many levels inside it are open. The oldest event
comes first. -/
def levelEffects : Nat → List Event → List Step
  | _, [] => []
  | depth, .opened :: later => levelEffects (depth + 1) later
  | 0, .closed :: _ => []
  | depth + 1, .closed :: later => levelEffects depth later
  | 0, .performed s :: later => s :: levelEffects 0 later
  | depth, _ :: later => levelEffects depth later

/-- The effects of the script that runs next, which is one level deeper. -/
def nextEffects : List Event → List Step
  | .opened :: later => levelEffects 0 later
  | _ => []

/-- What happened is a part of a level, with these effects of the level itself. -/
structure Tells (effects : List Step) (events : List Event) : Prop where
  /-- The effects are those of the level. -/
  here : ∀ later, levelEffects 0 (events ++ later) = effects ++ levelEffects 0 later
  /-- Deeper inside they are none of the level. -/
  deeper : ∀ depth later,
    levelEffects (depth + 1) (events ++ later) = levelEffects (depth + 1) later

namespace Tells

variable {effects effects' : List Step} {events events' : List Event}

/-- Nothing happened. -/
theorem nil : Tells [] [] := ⟨fun _ => rfl, fun _ _ => rfl⟩

/-- One part of a level after the other. -/
theorem append (h : Tells effects events) (h' : Tells effects' events') :
    Tells (effects ++ effects') (events ++ events') where
  here later := by rw [List.append_assoc, h.here, h'.here, List.append_assoc]
  deeper depth later := by rw [List.append_assoc, h.deeper, h'.deeper]

/-- An effect began. -/
theorem performed (s : Step) : Tells [s] [.performed s] := ⟨fun _ => rfl, fun _ _ => rfl⟩

/-- A room was shown. -/
theorem shown (id : String) (first : Bool) : Tells [] [.shown id first] :=
  ⟨fun _ => rfl, fun _ _ => rfl⟩

/-- Something was left out. -/
theorem leftOut : Tells [] [.leftOut] := ⟨fun _ => rfl, fun _ _ => rfl⟩

/-- Calm events are no effects. -/
theorem of_calm (h : ∀ e ∈ events, e.isCalm = true) : Tells [] events := by
  induction events with
  | nil => exact nil
  | cons e events ih =>
    have hfirst : Tells [] [e] := by
      have he := h e List.mem_cons_self
      cases e with
      | said _ => exact ⟨fun _ => rfl, fun _ _ => rfl⟩
      | fetched _ => exact ⟨fun _ => rfl, fun _ _ => rfl⟩
      | stored _ => exact ⟨fun _ => rfl, fun _ _ => rfl⟩
      | _ => cases he
    exact hfirst.append (ih fun e' he' => h e' (List.mem_cons_of_mem _ he'))

/-- A level inside the level. -/
theorem level (h : Tells effects events) : Tells [] (.opened :: (events ++ [.closed])) where
  here later := by
    show levelEffects 1 ((events ++ [.closed]) ++ later) = _
    rw [List.append_assoc, h.deeper]
    rfl
  deeper depth later := by
    show levelEffects (depth + 2) ((events ++ [.closed]) ++ later) = _
    rw [List.append_assoc, h.deeper]
    rfl

/-- The effects of a level are those of the script that runs when it is opened. -/
theorem nextEffects_level (h : Tells effects events) (later : List Event) :
    nextEffects ((.opened :: (events ++ [.closed])) ++ later) = effects := by
  show levelEffects 0 ((events ++ [.closed]) ++ later) = effects
  rw [List.append_assoc, h.here]
  exact List.append_nil effects

end Tells

/-- Calm events do not change what is under way. -/
theorem headedFor_append {new : List Event} (h : ∀ e ∈ new, e.isCalm = true) (older : List Event) :
    headedFor (new ++ older) = headedFor older := by
  induction new with
  | nil => rfl
  | cons e new ih =>
    have hrest := ih fun e' he' => h e' (List.mem_cons_of_mem _ he')
    have he := h e List.mem_cons_self
    cases e with
    | said _ => exact hrest
    | fetched _ => exact hrest
    | stored _ => exact hrest
    | _ => cases he

/-- No effect is under way where nothing but calm events happened. -/
theorem headedFor_of_calm {events : List Event} (h : ∀ e ∈ events, e.isCalm = true) :
    headedFor events = none := by
  have hnone := headedFor_append h []
  rw [List.append_nil] at hnone
  exact hnone

/-! ### Rooms that effects lead to -/

/-- Every room is under its own id. -/
def Source.NamesRooms (source : Source) : Prop :=
  ∀ id (room : Room), Library.read source "rooms" id = .ok room → room.id = id

/-- The script of a room runs next, for the first or for a later entry. -/
def RunsNext (source : Source) (id : String) (first : Bool) (later : List Event) : Prop :=
  ∃ room : Room, Library.read source "rooms" id = .ok room ∧
    nextEffects later = (room.entryScript first).effects

/-- Every room that is shown among events, which come after others, is one that an effect leads to,
and its script for the first entry runs next, unless something was left out. -/
def Staged (source : Source) (older events : List Event) : Prop :=
  ∀ before id first after, events = before ++ .shown id first :: after →
    first = true ∧ headedFor (before.reverse ++ older) = some id ∧
      ∀ later, .leftOut ∉ after → RunsNext source id true (after ++ later)

/-- An event among the events of two acts is one of the first act or one of the second. -/
theorem split_append {events events' before after : List Event} {e : Event}
    (h : events ++ events' = before ++ e :: after) :
    (∃ between, events = before ++ e :: between ∧ after = between ++ events') ∨
      ∃ between, before = events ++ between ∧ events' = between ++ e :: after := by
  rcases List.append_eq_append_iff.mp h with
    ⟨between, hbefore, hevents⟩ | ⟨between, hevents, hafter⟩
  · exact .inr ⟨between, hbefore, hevents⟩
  · cases between with
    | nil =>
      rw [List.append_nil] at hevents
      exact .inr ⟨[], by rw [hevents, List.append_nil], hafter.symm⟩
    | cons e' between =>
      obtain ⟨rfl, hrest⟩ := List.cons.inj hafter
      exact .inl ⟨between, hevents, hrest⟩

namespace Staged

variable {source : Source} {older events events' : List Event}

/-- No room was shown. -/
theorem of_not_shown (h : ∀ id first, Event.shown id first ∉ events) :
    Staged source older events := by
  rintro before id first after rfl
  exact absurd (List.mem_append_right _ List.mem_cons_self) (h id first)

/-- A level began. -/
theorem opened : Staged source older [.opened] := of_not_shown (by simp)

/-- A level came to its end. -/
theorem closed : Staged source older [.closed] := of_not_shown (by simp)

/-- Calm events show no room. -/
theorem of_calm (h : ∀ e ∈ events, e.isCalm = true) : Staged source older events :=
  of_not_shown fun id first hmem => Event.not_shows_of_calm h id ⟨first, hmem⟩

/-- Rooms shown in one act after the other. -/
theorem append (h : Staged source older events)
    (h' : Staged source (events.reverse ++ older) events') :
    Staged source older (events ++ events') := by
  intro before id first after heq
  rcases split_append heq with ⟨between, hevents, rfl⟩ | ⟨between, rfl, hevents'⟩
  · obtain ⟨hfirst, hheaded, hruns⟩ := h before id first between hevents
    refine ⟨hfirst, hheaded, fun later hleft => ?_⟩
    rw [List.append_assoc]
    exact hruns _ fun hmem => hleft (List.mem_append_left _ hmem)
  · obtain ⟨hfirst, hheaded, hruns⟩ := h' between id first after hevents'
    rw [List.reverse_append, List.append_assoc]
    exact ⟨hfirst, hheaded, hruns⟩

/-- A room that an effect leads to was shown, and then the script for its first entry ran. -/
theorem shown {id : String} (hheaded : headedFor older = some id)
    (h : Staged source (.shown id true :: older) events)
    (hruns : ∀ later, .leftOut ∉ events → RunsNext source id true (events ++ later)) :
    Staged source older (.shown id true :: events) := by
  intro before id' first after heq
  cases before with
  | nil =>
    cases heq
    exact ⟨rfl, hheaded, hruns⟩
  | cons e before =>
    obtain ⟨rfl, hevents⟩ := List.cons.inj heq
    rw [List.reverse_cons, List.append_assoc]
    exact h before id' first after hevents

/-- Where a room was shown after calm events, every room that was shown is this one or one that an
effect leads to afterwards. -/
theorem split_shown {room id : String} {first first' : Bool} {calm before after : List Event}
    (hcalm : ∀ e ∈ calm, e.isCalm = true)
    (h : Staged source (.shown room first :: calm.reverse) events)
    (heq : calm ++ .shown room first :: events = before ++ .shown id first' :: after) :
    (before = calm ∧ id = room ∧ first' = first ∧ after = events) ∨
      (first' = true ∧ headedFor before.reverse = some id ∧
        ∀ later, .leftOut ∉ after → RunsNext source id true (after ++ later)) := by
  rcases split_append heq with ⟨between, hbefore, -⟩ | ⟨between, rfl, hevents⟩
  · refine absurd ⟨first', ?_⟩ (Event.not_shows_of_calm hcalm id)
    rw [hbefore]
    exact List.mem_append_right _ List.mem_cons_self
  · cases between with
    | nil =>
      obtain ⟨hshown, rfl⟩ := List.cons.inj hevents
      cases hshown
      exact .inl ⟨List.append_nil calm, rfl, rfl, rfl⟩
    | cons e between =>
      obtain ⟨rfl, hafter⟩ := List.cons.inj hevents
      obtain ⟨hfirst, hheaded, hruns⟩ := h between id first' after hafter
      rw [List.reverse_append, List.reverse_cons, List.append_assoc]
      exact .inr ⟨hfirst, hheaded, hruns⟩

end Staged

end TextAdventure
