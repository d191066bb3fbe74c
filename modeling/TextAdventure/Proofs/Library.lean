import TextAdventure.Library
import TextAdventure.Proofs.Table

/-!
# A library and its source

`Library.read` and `Library.readArt` say what a source has, without any shelf. A library *agrees*
with a source if all that it holds is what the source has. Then each of its answers is what the
source has, and it agrees with the source afterwards: whether a document was on the shelf cannot be
told from the answer. A new library agrees with every source.
-/

namespace TextAdventure.Library

variable {α : Type} [Document α] {source : Source} {l : Library}

/-- The document of a kind with an id, as a source has it. -/
def read (source : Source) (kind id : String) : Except Failure α :=
  if isFileName id then fetch source (documentPath kind id)
  else .error (.load (documentPath kind id) "invalid id")

/-- The picture at a path, as a source has it. -/
def readArt (source : Source) (path : String) : Except Failure String :=
  if leadsUp path then .error (.load path "invalid path") else source path

/-- An answer that passes a check is no failure. -/
theorem exists_of_any {β : Type} {answer : Except Failure β} {check : β → Bool}
    (h : answer.toOption.any check = true) : ∃ b, answer = .ok b ∧ check b = true := by
  cases answer with
  | ok b => exact ⟨b, rfl, h⟩
  | error e => cases h

/-- The documents on a shelf are those of the source. -/
def ShelfAgrees (source : Source) (kind : String) (shelf : Table α) : Prop :=
  ∀ id doc, shelf.get? id = some doc → read source kind id = .ok doc

/-- All that a library holds is what the source has. -/
structure Agrees (source : Source) (l : Library) : Prop where
  /-- The world is that of the source. -/
  world : ∀ w, l.world = some w → fetch source l.worldFile = .ok w
  /-- The rooms are those of the source. -/
  rooms : ShelfAgrees source "rooms" l.rooms
  /-- The items are those of the source. -/
  items : ShelfAgrees source "items" l.items
  /-- The fixtures are those of the source. -/
  fixtures : ShelfAgrees source "objects" l.fixtures
  /-- The enemies are those of the source. -/
  enemies : ShelfAgrees source "enemies" l.enemies
  /-- The pictures are those of the source. -/
  art : ∀ path text, l.art.get? path = some text → readArt source path = .ok text

/-- A library without documents agrees with every source. -/
theorem agrees_empty (source : Source) (worldFile : String) : Agrees source (empty worldFile) where
  world _ h := by cases h
  rooms _ _ h := by cases h
  items _ _ h := by cases h
  fixtures _ _ h := by cases h
  enemies _ _ h := by cases h
  art _ _ h := by cases h

/-- What is not on the shelf is looked up in the source. -/
theorem look_of_get?_none {kind id : String} {shelf : Table α} (h : shelf.get? id = none) :
    (look source kind shelf id).1 = read source kind id ∧
      ((∃ doc, read source kind id = .ok doc ∧
          (look source kind shelf id).2.1 = shelf.insert id doc) ∨
        (∃ e, (read source kind id : Except Failure α) = .error e ∧
          (look source kind shelf id).2.1 = shelf)) := by
  unfold look read
  rw [h]
  by_cases hid : isFileName id = true
  · simp only [hid, if_true]
    cases hf : (fetch source (documentPath kind id) : Except Failure α) <;> simp
  · simp [hid]

/-- A document that was looked up is on the shelf. -/
theorem get?_of_look {kind id : String} {shelf : Table α} {doc : α}
    (h : (look source kind shelf id).1 = .ok doc) :
    (look source kind shelf id).2.1.get? id = some doc := by
  cases hg : shelf.get? id with
  | some found =>
    have hl : look source kind shelf id = (.ok found, shelf, []) := by
      unfold look
      rw [hg]
    rw [hl] at h ⊢
    cases h
    exact hg
  | none =>
    obtain ⟨hres, hshelf⟩ :=
      (look_of_get?_none hg : (look source kind shelf id).1 = read source kind id ∧ _)
    rw [hres] at h
    rcases hshelf with ⟨doc', hdoc, hs⟩ | ⟨e, he, -⟩
    · rw [hdoc] at h
      cases h
      rw [hs, Table.get?_insert_self]
    · rw [he] at h
      cases h

/-- From a shelf that agrees with the source comes what the source has, and the shelf agrees with
the source afterwards. -/
theorem ShelfAgrees.look {kind : String} {shelf : Table α} (h : ShelfAgrees source kind shelf)
    (id : String) :
    (look source kind shelf id).1 = read source kind id ∧
      ShelfAgrees source kind (Library.look source kind shelf id).2.1 := by
  cases hg : shelf.get? id with
  | some found =>
    have hl : Library.look source kind shelf id = (.ok found, shelf, []) := by
      unfold Library.look
      rw [hg]
    rw [hl]
    exact ⟨(h id found hg).symm, h⟩
  | none =>
    obtain ⟨hres, hshelf⟩ :=
      (look_of_get?_none hg : (Library.look source kind shelf id).1 = read source kind id ∧ _)
    refine ⟨hres, ?_⟩
    -- A document that was fetched is put on the shelf as the source has it.
    rcases hshelf with ⟨doc, hdoc, hs⟩ | ⟨e, -, hs⟩
    · rw [hs]
      intro id' doc' hget
      rw [Table.get?_insert] at hget
      split_ifs at hget with heq
      · cases hget
        rw [heq, hdoc]
      · exact h id' doc' hget
    · rw [hs]
      exact h

/-- The world of a library that agrees with the source. -/
theorem Agrees.getWorld (h : Agrees source l) :
    (getWorld source l).result = fetch source l.worldFile ∧
      Agrees source (Library.getWorld source l).library := by
  unfold Library.getWorld
  cases hw : l.world with
  | some w => exact ⟨(h.world w hw).symm, h⟩
  | none =>
    cases hf : (fetch source l.worldFile : Except Failure World) with
    | ok w =>
      refine ⟨rfl, { h with world := ?_ }⟩
      intro w' hw'
      cases hw'
      exact hf
    | error e => exact ⟨rfl, h⟩

/-- A world that was handed out once is handed out again. -/
theorem getWorld_again {w : World} (h : (getWorld source l).result = .ok w) (source' : Source) :
    (getWorld source' (getWorld source l).library).result = .ok w := by
  -- The world is on the shelf afterwards, whether it was there before or fetched.
  have hkept : (getWorld source l).library.world = some w := by
    unfold getWorld at h ⊢
    cases hw : l.world with
    | some w' =>
      rw [hw] at h
      cases h
      exact hw
    | none =>
      rw [hw] at h
      cases hf : (fetch source l.worldFile : Except Failure World) with
      | ok w' =>
        rw [hf] at h
        cases h
        rfl
      | error e =>
        rw [hf] at h
        cases h
  rw [getWorld, hkept]

/-- A library that has no world keeps what it has. -/
theorem getWorld_of_error {e : Failure} (h : (getWorld source l).result = .error e) :
    getWorld source l = ⟨.error e, l, [l.worldFile]⟩ := by
  unfold getWorld at h ⊢
  cases hw : l.world with
  | some w =>
    rw [hw] at h
    cases h
  | none =>
    rw [hw] at h
    cases hf : (fetch source l.worldFile : Except Failure World) with
    | ok w =>
      rw [hf] at h
      cases h
    | error e' =>
      rw [hf] at h
      cases h
      rfl

/-- A room of a library that agrees with the source. -/
theorem Agrees.getRoom (h : Agrees source l) (id : String) :
    (getRoom source id l).result = read source "rooms" id ∧
      Agrees source (Library.getRoom source id l).library :=
  ⟨(h.rooms.look id).1, { h with rooms := (h.rooms.look id).2 }⟩

/-- An item of a library that agrees with the source. -/
theorem Agrees.getItem (h : Agrees source l) (id : String) :
    (getItem source id l).result = read source "items" id ∧
      Agrees source (Library.getItem source id l).library :=
  ⟨(h.items.look id).1, { h with items := (h.items.look id).2 }⟩

/-- A fixture of a library that agrees with the source. -/
theorem Agrees.getFixture (h : Agrees source l) (id : String) :
    (getFixture source id l).result = read source "objects" id ∧
      Agrees source (Library.getFixture source id l).library :=
  ⟨(h.fixtures.look id).1, { h with fixtures := (h.fixtures.look id).2 }⟩

/-- An enemy of a library that agrees with the source. -/
theorem Agrees.getEnemy (h : Agrees source l) (id : String) :
    (getEnemy source id l).result = read source "enemies" id ∧
      Agrees source (Library.getEnemy source id l).library :=
  ⟨(h.enemies.look id).1, { h with enemies := (h.enemies.look id).2 }⟩

/-- A library that has no picture keeps what it has. -/
theorem library_of_getArt_error {path : String} {e : Failure}
    (h : (getArt source path l).result = .error e) : (getArt source path l).library = l := by
  unfold getArt at h ⊢
  split at h
  · cases h
  · split_ifs at h ⊢
    · rfl
    · cases hs : source path with
      | ok text => rw [hs] at h; cases h
      | error e => rfl

/-- A picture of a library that agrees with the source. -/
theorem Agrees.getArt (h : Agrees source l) (path : String) :
    (getArt source path l).result = readArt source path ∧
      Agrees source (Library.getArt source path l).library := by
  unfold Library.getArt
  cases hg : l.art.get? path with
  | some text => exact ⟨(h.art path text hg).symm, h⟩
  | none =>
    unfold readArt
    -- A path that leads up is refused by the library and by the source alike.
    by_cases hup : leadsUp path = true
    · simp only [hup, if_true]
      exact ⟨trivial, h⟩
    · simp only [hup, Bool.false_eq_true, if_false]
      cases hs : source path with
      | error e => exact ⟨rfl, h⟩
      | ok text =>
        refine ⟨rfl, { h with art := ?_ }⟩
        intro path' text' hget
        rw [Table.get?_insert] at hget
        split_ifs at hget with heq
        · cases hget
          unfold readArt
          rw [heq, if_neg hup, hs]
        · exact h.art path' text' hget

/-! ### Faithful questions -/

/-- A question to a library whose answer, as long as the library agrees with its source, is a matter
of the source and of the path of the world document alone. -/
def Faithful {α : Type} (request : Source → Library → Answer α) : Prop :=
  ∃ truth : Source → String → Except Failure α, ∀ source l, Agrees source l →
    (request source l).result = truth source l.worldFile ∧
      Agrees source (request source l).library ∧
      (request source l).library.worldFile = l.worldFile

/-- A library that is asked for the world keeps its path. -/
theorem worldFile_getWorld : (getWorld source l).library.worldFile = l.worldFile := by
  unfold getWorld
  cases l.world with
  | some w => rfl
  | none => cases (fetch source l.worldFile : Except Failure World) <;> rfl

/-- A library that is asked for a picture keeps the path of the world document. -/
theorem worldFile_getArt (path : String) :
    (getArt source path l).library.worldFile = l.worldFile := by
  unfold getArt
  split
  · rfl
  · split
    · rfl
    · split <;> rfl

/-- The question for the world is faithful. -/
theorem faithful_getWorld : Faithful getWorld :=
  ⟨fun source worldFile => fetch source worldFile,
    fun _ _ h => ⟨h.getWorld.1, h.getWorld.2, worldFile_getWorld⟩⟩

/-- The question for a room is faithful. -/
theorem faithful_getRoom (id : String) : Faithful fun source => getRoom source id :=
  ⟨fun source _ => read source "rooms" id, fun _ _ h => ⟨(h.getRoom id).1, (h.getRoom id).2, rfl⟩⟩

/-- The question for an item is faithful. -/
theorem faithful_getItem (id : String) : Faithful fun source => getItem source id :=
  ⟨fun source _ => read source "items" id, fun _ _ h => ⟨(h.getItem id).1, (h.getItem id).2, rfl⟩⟩

/-- The question for a fixture is faithful. -/
theorem faithful_getFixture (id : String) : Faithful fun source => getFixture source id :=
  ⟨fun source _ => read source "objects" id,
    fun _ _ h => ⟨(h.getFixture id).1, (h.getFixture id).2, rfl⟩⟩

/-- The question for an enemy is faithful. -/
theorem faithful_getEnemy (id : String) : Faithful fun source => getEnemy source id :=
  ⟨fun source _ => read source "enemies" id,
    fun _ _ h => ⟨(h.getEnemy id).1, (h.getEnemy id).2, rfl⟩⟩

/-- The question for a picture is faithful. -/
theorem faithful_getArt (path : String) : Faithful fun source => getArt source path :=
  ⟨fun source _ => readArt source path,
    fun _ _ h => ⟨(h.getArt path).1, (h.getArt path).2, worldFile_getArt path⟩⟩

end TextAdventure.Library
