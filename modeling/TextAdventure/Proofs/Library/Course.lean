import TextAdventure.Proofs.Library
import Mathlib.Data.List.Induction
import Mathlib.Logic.Function.Basic

/-!
# What a library remembers

A library has a shelf for each kind of document, and each request has code of its own. For all of
them the same holds (`Library.Question.ask_of_held`, `Library.Question.ask_of_not_held`): what is on
the shelf is handed out and nothing is fetched, and otherwise the answer is what the source has, for
which one path is fetched at most, and it is put on the shelf if it is no failure.

A course of events (`Library.Course`) is made of questions, of clearing the library and of changes
of the source, in any order. All along it the library holds just what it has handed out since it was
cleared last (`Library.Course.remembers_after`).
-/

namespace TextAdventure.Library

/-- What a library can be asked for. -/
inductive Question where
  /-- The world. -/
  | world
  /-- The room with an id. -/
  | room (id : String)
  /-- The item with an id. -/
  | item (id : String)
  /-- The fixture with an id. -/
  | fixture (id : String)
  /-- The enemy with an id. -/
  | enemy (id : String)
  /-- The picture at a path. -/
  | art (path : String)
  deriving DecidableEq

namespace Question

/-- What a question asks for. -/
abbrev Value : Question → Type
  | world => World
  | room _ => Room
  | item _ => Item
  | fixture _ => Fixture
  | enemy _ => Enemy
  | art _ => String

/-- The answer of a library. -/
def ask (source : Source) (l : Library) : (q : Question) → Answer q.Value
  | world => getWorld source l
  | room id => getRoom source id l
  | item id => getItem source id l
  | fixture id => getFixture source id l
  | enemy id => getEnemy source id l
  | art path => getArt source path l

/-- What a source has, without any library. -/
def truth (source : Source) (worldFile : String) : (q : Question) → Except Failure q.Value
  | world => fetch source worldFile
  | room id => read source "rooms" id
  | item id => read source "items" id
  | fixture id => read source "objects" id
  | enemy id => read source "enemies" id
  | art path => readArt source path

/-- The path of a document of a kind, unless the id is turned down. -/
def documentPaths (kind id : String) : List String :=
  if isFileName id then [documentPath kind id] else []

/-- The path that belongs to a question, unless its id or its path is turned down. -/
def paths (worldFile : String) : Question → List String
  | world => [worldFile]
  | room id => documentPaths "rooms" id
  | item id => documentPaths "items" id
  | fixture id => documentPaths "objects" id
  | enemy id => documentPaths "enemies" id
  | art path => if leadsUp path then [] else [path]

end Question

variable {source : Source} {l : Library} {q q' : Question}

/-- What a library holds for a question. -/
def held (l : Library) : (q : Question) → Option q.Value
  | .world => l.world
  | .room id => l.rooms.get? id
  | .item id => l.items.get? id
  | .fixture id => l.fixtures.get? id
  | .enemy id => l.enemies.get? id
  | .art path => l.art.get? path

/-- The library with an answer to a question on its shelf. -/
def keep (l : Library) : (q : Question) → q.Value → Library
  | .world, w => { l with world := some w }
  | .room id, r => { l with rooms := l.rooms.insert id r }
  | .item id, i => { l with items := l.items.insert id i }
  | .fixture id, f => { l with fixtures := l.fixtures.insert id f }
  | .enemy id, e => { l with enemies := l.enemies.insert id e }
  | .art path, text => { l with art := l.art.insert path text }

/-- The library after an answer to a question: an answer that is no failure is kept. -/
def keepResult (l : Library) (q : Question) : Except Failure q.Value → Library
  | .ok v => l.keep q v
  | .error _ => l

/-- A library holds what is put on its shelf, and else what it held before. -/
theorem held_keep (l : Library) (q : Question) (v : q.Value) :
    (l.keep q v).held = Function.update l.held q (some v) := by
  funext q'
  by_cases hq : q' = q
  · subst hq
    rw [Function.update_self]
    cases q' with
    | world => rfl
    | room id => exact Table.get?_insert_self l.rooms id v
    | item id => exact Table.get?_insert_self l.items id v
    | fixture id => exact Table.get?_insert_self l.fixtures id v
    | enemy id => exact Table.get?_insert_self l.enemies id v
    | art path => exact Table.get?_insert_self l.art path v
  · rw [Function.update_of_ne hq]
    have hother : ∀ {α : Type} (shelf : Table α) {id id' : String} (doc : α), id' ≠ id →
        (shelf.insert id doc).get? id' = shelf.get? id' := fun shelf _ _ doc hid =>
      (shelf.get?_insert _ _ doc).trans (if_neg hid)
    -- A question of another kind is about another shelf.
    cases q <;> cases q' <;> first
      | rfl
      | exact absurd rfl hq
      | exact hother _ _ fun hid => hq (congrArg _ hid)

/-- A library that did not hold an answer holds it once it is kept, and what it held before. -/
theorem held_keep_iff {v : q.Value} {v' : q'.Value} (h : l.held q = none) :
    (l.keep q v).held q' = some v' ↔
      (⟨q', v'⟩ : (q : Question) × q.Value) = ⟨q, v⟩ ∨ l.held q' = some v' := by
  rw [held_keep]
  by_cases hq : q' = q
  · subst hq
    simp [h, eq_comm]
  · simp [hq]

/-- What is kept does not change the path of the world document. -/
theorem worldFile_keep (l : Library) (q : Question) (v : q.Value) :
    (l.keep q v).worldFile = l.worldFile := by
  cases q <;> rfl

namespace Question

/-- A document that is not on its shelf is looked up in the source, for which one path is fetched
unless the id is turned down. -/
theorem look_of_not_held {α : Type} [Document α] {kind id : String} {shelf : Table α}
    (h : shelf.get? id = none) :
    look source kind shelf id = (read source kind id,
      (match (read source kind id : Except Failure α) with
        | .ok doc => shelf.insert id doc
        | .error _ => shelf), documentPaths kind id) := by
  unfold look read documentPaths
  rw [h]
  dsimp only
  split_ifs with hid
  · cases (fetch source (documentPath kind id) : Except Failure α) <;> rfl
  · rfl

/-- A library hands out what it holds, and nothing is fetched. -/
theorem ask_of_held {v : q.Value} (h : l.held q = some v) : q.ask source l = ⟨.ok v, l, []⟩ := by
  -- The four shelves of documents are looked at in the same way.
  have hlook : ∀ {α : Type} [Document α] {kind id : String} {shelf : Table α} {doc : α},
      shelf.get? id = some doc → look source kind shelf id = (.ok doc, shelf, []) := by
    intro α _ kind id shelf doc hdoc
    unfold look
    rw [hdoc]
  cases q with
  | world =>
    show getWorld source l = _
    unfold getWorld
    rw [show l.world = some v from h]
  | room id =>
    show getRoom source id l = _
    unfold getRoom
    rw [hlook h]
  | item id =>
    show getItem source id l = _
    unfold getItem
    rw [hlook h]
  | fixture id =>
    show getFixture source id l = _
    unfold getFixture
    rw [hlook h]
  | enemy id =>
    show getEnemy source id l = _
    unfold getEnemy
    rw [hlook h]
  | art path =>
    show getArt source path l = _
    unfold getArt
    rw [show l.art.get? path = some v from h]

/-- What a library does not hold it answers as the source does. At most the path that belongs to the
question is fetched, and the answer is kept unless it is a failure. -/
theorem ask_of_not_held (h : l.held q = none) :
    q.ask source l = ⟨q.truth source l.worldFile, l.keepResult q (q.truth source l.worldFile),
      q.paths l.worldFile⟩ := by
  -- Only what the source answers decides what is kept, so each question splits on that.
  cases q with
  | world =>
    show getWorld source l = ⟨fetch source l.worldFile,
      l.keepResult .world (fetch source l.worldFile), [l.worldFile]⟩
    unfold getWorld
    rw [show l.world = none from h]
    cases (fetch source l.worldFile : Except Failure World) <;> rfl
  | room id =>
    show getRoom source id l = ⟨read source "rooms" id,
      l.keepResult (.room id) (read source "rooms" id), documentPaths "rooms" id⟩
    unfold getRoom
    rw [look_of_not_held h]
    cases (read source "rooms" id : Except Failure Room) <;> rfl
  | item id =>
    show getItem source id l = ⟨read source "items" id,
      l.keepResult (.item id) (read source "items" id), documentPaths "items" id⟩
    unfold getItem
    rw [look_of_not_held h]
    cases (read source "items" id : Except Failure Item) <;> rfl
  | fixture id =>
    show getFixture source id l = ⟨read source "objects" id,
      l.keepResult (.fixture id) (read source "objects" id), documentPaths "objects" id⟩
    unfold getFixture
    rw [look_of_not_held h]
    cases (read source "objects" id : Except Failure Fixture) <;> rfl
  | enemy id =>
    show getEnemy source id l = ⟨read source "enemies" id,
      l.keepResult (.enemy id) (read source "enemies" id), documentPaths "enemies" id⟩
    unfold getEnemy
    rw [look_of_not_held h]
    cases (read source "enemies" id : Except Failure Enemy) <;> rfl
  | art path =>
    show getArt source path l = ⟨readArt source path,
      l.keepResult (.art path) (readArt source path), if leadsUp path then [] else [path]⟩
    unfold getArt readArt
    rw [show l.art.get? path = none from h]
    dsimp only
    split_ifs with hup
    · rfl
    · cases source path <;> rfl

end Question

/-! ### Courses of events -/

/-- What can happen to a library and its source. -/
inductive Happening where
  /-- The library is asked. -/
  | ask (q : Question)
  /-- The library forgets its documents. -/
  | clear
  /-- The source becomes another one. -/
  | edit (source : Source)

/-- A library in the course of events. -/
structure Course where
  source : Source
  library : Library
  /-- What the library has handed out since it was cleared last, the newest first. -/
  handed : List ((q : Question) × q.Value)

namespace Course

/-- A new library. -/
def new (source : Source) (worldFile : String) : Course := ⟨source, .empty worldFile, []⟩

/-- What something that happens leads to. -/
def next (c : Course) : Happening → Course
  | .ask q =>
    let answer := q.ask c.source c.library
    { c with
      library := answer.library
      handed := (answer.result.toOption.map (Sigma.mk q)).toList ++ c.handed }
  | .clear => { c with library := c.library.clear, handed := [] }
  | .edit source => { c with source := source }

/-- What several things that happen one after the other lead to. -/
def after (c : Course) (hs : List Happening) : Course := hs.foldl next c

/-- A library holds just what it has handed out since it was cleared last. -/
structure Remembers (worldFile : String) (c : Course) : Prop where
  /-- The path of the world document is known. -/
  worldFile : c.library.worldFile = worldFile
  /-- What is held was handed out, and what was handed out is held. -/
  held : ∀ (q : Question) (v : q.Value), c.library.held q = some v ↔ ⟨q, v⟩ ∈ c.handed

variable {worldFile : String} {c : Course}

/-- A library without documents holds nothing. -/
theorem held_empty (worldFile : String) (q : Question) : (empty worldFile).held q = none := by
  cases q <;> rfl

/-- A new library has handed out nothing and holds nothing. -/
theorem remembers_new (source : Source) (worldFile : String) :
    (new source worldFile).Remembers worldFile :=
  ⟨rfl, fun q v => by simp [new, held_empty]⟩

/-- A library still holds just what it has handed out, whatever happens. -/
theorem Remembers.next (hc : c.Remembers worldFile) (h : Happening) :
    (c.next h).Remembers worldFile := by
  cases h with
  -- What is forgotten was handed out before, but nothing is held.
  | clear => exact ⟨hc.worldFile, fun q v => by simp [Course.next, clear, held_empty]⟩
  | edit source => exact ⟨hc.worldFile, hc.held⟩
  | ask q =>
    show Remembers worldFile { c with
      library := (q.ask c.source c.library).library
      handed := ((q.ask c.source c.library).result.toOption.map (Sigma.mk q)).toList ++ c.handed }
    cases hheld : c.library.held q with
    | some v =>
      -- It is handed out once more.
      rw [Question.ask_of_held hheld]
      refine ⟨hc.worldFile, fun q' v' => (hc.held q' v').trans ?_⟩
      refine (List.mem_cons.trans (or_iff_right_of_imp ?_)).symm
      rintro ⟨⟩
      exact (hc.held q v).mp hheld
    | none =>
      rw [Question.ask_of_not_held hheld]
      cases q.truth c.source c.library.worldFile with
      | error e => exact ⟨hc.worldFile, hc.held⟩
      | ok v =>
        refine ⟨(worldFile_keep c.library q v).trans hc.worldFile, fun q' v' => ?_⟩
        refine Iff.trans ?_ List.mem_cons.symm
        exact (held_keep_iff hheld).trans (or_congr_right (hc.held q' v'))

/-- All along a course of events a library holds just what it has handed out. -/
theorem remembers_after (source : Source) (worldFile : String) (hs : List Happening) :
    ((new source worldFile).after hs).Remembers worldFile := by
  induction hs using List.reverseRecOn with
  | nil => exact remembers_new source worldFile
  | append_singleton hs h ih =>
    unfold after at ih ⊢
    rw [List.foldl_append]
    exact ih.next h

/-- A question is answered from the shelf if it was answered before, and from the source if not. -/
structure LoadsIfAbsent (worldFile : String) (c : Course) (q : Question) : Prop where
  /-- What was handed out since the library was cleared last is handed out again, and nothing is
  fetched. -/
  again : ∀ v, ⟨q, v⟩ ∈ c.handed → q.ask c.source c.library = ⟨.ok v, c.library, []⟩
  /-- Otherwise the answer is what the source has now. At most the path that belongs to the question
  is fetched, and the answer is kept unless it is a failure. -/
  afresh : (∀ v, ⟨q, v⟩ ∉ c.handed) → q.ask c.source c.library =
    ⟨q.truth c.source worldFile, c.library.keepResult q (q.truth c.source worldFile),
      q.paths worldFile⟩

/-- A library that holds just what it has handed out loads what it does not hold. -/
theorem Remembers.loadsIfAbsent (hc : c.Remembers worldFile) (q : Question) :
    c.LoadsIfAbsent worldFile q := by
  refine ⟨fun v hv => Question.ask_of_held ((hc.held q v).mpr hv), fun hnone => ?_⟩
  have hheld : c.library.held q = none :=
    Option.eq_none_iff_forall_ne_some.mpr fun v hv => hnone v ((hc.held q v).mp hv)
  rw [← hc.worldFile]
  exact Question.ask_of_not_held hheld

end Course

end TextAdventure.Library
