import TextAdventure.Proofs.Library.Course
import TextAdventure.Proofs.Resume

/-!
# Forgetting what was read cannot be told

A library loads what it does not hold and is otherwise invisible (`Session.library_invisible`). In
the course of events it answers from its shelf or as its source does, and over a source that does
not change a session may forget what it has read at any time: every request is replied to as if it
had not. A session that forgets and one that does not are twins (`Session.Twin`), and what one
request does to twins is `Session.Twin.handle`.
-/

namespace TextAdventure.Session

/-- What is done with a session. -/
inductive Doing where
  /-- The session is asked for something. -/
  | request (r : Request)
  /-- The library of the session forgets its documents. -/
  | clear
  /-- The store changes, not on account of the session. -/
  | outside (change : Saves → Saves)

/-- Whether the library forgets its documents. -/
def Doing.isClear : Doing → Bool
  | .clear => true
  | _ => false

/-- The replies of a session over a source to all that it is asked for. -/
def replies (source : Source) : Session → Saves → List Doing → List Reply
  | _, _, [] => []
  | s, saves, .request r :: ds =>
    let reply := s.handle source saves r
    reply :: replies source reply.session reply.saves ds
  | s, saves, .clear :: ds => replies source s.clearLibrary saves ds
  | s, saves, .outside change :: ds => replies source s (change saves) ds

/-- A session differs from another one only in what its library has read, and both libraries agree
with the source. -/
inductive Twin (source : Source) (s : Session) : Session → Prop where
  | intro (library : Library) (worldFile : library.worldFile = s.library.worldFile)
    (agrees : Library.Agrees source s.library) (agrees' : Library.Agrees source library) :
    Twin source s { s with library := library }

variable {source : Source} {s t : Session}

/-- A new session is its own twin. -/
theorem twin_new (source : Source) (id title worldFile saveKey : String) (stats : Stats) :
    Twin source (new id title worldFile saveKey stats) (new id title worldFile saveKey stats) :=
  .intro (.empty worldFile) rfl (Library.agrees_empty source worldFile)
    (Library.agrees_empty source worldFile)

/-- A session that forgets what it has read stays a twin. -/
theorem Twin.clear (h : Twin source s t) : Twin source s t.clearLibrary := by
  cases h with
  | intro library worldFile agrees agrees' =>
    exact .intro library.clear worldFile agrees (Library.agrees_empty source library.worldFile)

/-- The sessions of similar states are twins. -/
theorem twin_of_similar {p q : Play} (h : p.Similar q) (hsource : p.source = source) :
    Twin source p.toSession q.toSession := by
  cases h with
  | intro library journal worldFile deeds agrees agrees' =>
    rw [hsource] at agrees agrees'
    exact .intro library worldFile agrees agrees'

/-- Twins reply to a request in the same way, and stay twins. -/
theorem Twin.handle (h : Twin source s t) (saves : Saves) (r : Request) :
    (s.handle source saves r).SameAs (t.handle source saves r) ∧
      Twin source (s.handle source saves r).session (t.handle source saves r).session := by
  cases h with
  | intro library worldFile agrees agrees' =>
    have hsimilar : (s.play source saves).Similar
        ({ s with library := library }.play source saves) :=
      .intro library [] worldFile rfl agrees agrees'
    have halike := r.uniform _ _ hsimilar
    have hframe := (Discipline.elementary_frame.request r).keeps (s.play source saves) agrees
    unfold Act.Ends at hframe
    rw [handle_eq, handle_eq]
    refine ⟨sameAs_replyOf halike, ?_⟩
    -- Both requests end alike, in similar states over the same source.
    cases hact : r.act (s.play source saves) with
    | ok a p =>
      cases hact' : r.act ({ s with library := library }.play source saves) with
      | ok b q =>
        rw [hact, hact'] at halike
        rw [hact] at hframe
        exact twin_of_similar halike.2.2 hframe.source
      | error f q =>
        rw [hact, hact'] at halike
        exact halike.elim
    | error e p =>
      cases hact' : r.act ({ s with library := library }.play source saves) with
      | ok b q =>
        rw [hact, hact'] at halike
        exact halike.elim
      | error f q =>
        rw [hact, hact'] at halike
        rw [hact] at hframe
        exact twin_of_similar halike.2 hframe.source

/-- A twin replies as if its library had forgotten nothing. -/
theorem Twin.replies (h : Twin source s t) (saves : Saves) (ds : List Doing) :
    List.Forall₂ Reply.SameAs (replies source s saves (ds.filter fun d => !d.isClear))
      (replies source t saves ds) := by
  induction ds generalizing s t saves with
  | nil => exact .nil
  | cons d ds ih =>
    cases d with
    | request r =>
      obtain ⟨hsame, htwin⟩ := h.handle saves r
      refine .cons hsame ?_
      rw [hsame.saves]
      exact ih htwin _
    | clear => exact ih h.clear saves
    | outside change => exact ih h (change saves)

/-- The library loads what it does not hold, and is otherwise invisible. After questions, clearings
and changes of the source in any order, a question that was answered since the library was cleared
last has the same answer again, and nothing is fetched; any other is answered as the source does,
for which at most the path that belongs to it is fetched, and only an answer that is no failure is
kept. So over a source that does not change, a session replies to everything as if its library were
never cleared. -/
theorem library_invisible :
    (∀ (source : Source) (worldFile : String) (hs : List Library.Happening) (q : Library.Question),
      ((Library.Course.new source worldFile).after hs).LoadsIfAbsent worldFile q) ∧
    ∀ (source : Source) (id title worldFile saveKey : String) (stats : Stats) (saves : Saves)
      (ds : List Doing), List.Forall₂ Reply.SameAs
      (replies source (new id title worldFile saveKey stats) saves (ds.filter fun d => !d.isClear))
      (replies source (new id title worldFile saveKey stats) saves ds) :=
  ⟨fun source worldFile hs q =>
      (Library.Course.remembers_after source worldFile hs).loadsIfAbsent q,
    fun source id title worldFile saveKey stats saves ds =>
      (twin_new source id title worldFile saveKey stats).replies saves ds⟩

/-- The castle after someone has asked for its hall and then removed its files. -/
def emptiedCastle : Library.Course :=
  (Library.Course.new castle Library.standardWorldFile).after
    [.ask (.room "hall"), .edit fun path => .error (.load path "missing")]

/-- The hall of the castle is still there once its files are removed, until the library is
cleared. -/
theorem library_invisible_castle :
    (∃ hall, (Library.Question.room "hall").ask emptiedCastle.source emptiedCastle.library =
      ⟨.ok hall, emptiedCastle.library, []⟩) ∧
    (Library.Question.room "hall").ask emptiedCastle.source emptiedCastle.library.clear =
      ⟨.error (.load "rooms/hall.json" "missing"), emptiedCastle.library.clear,
        ["rooms/hall.json"]⟩ := by
  have hread : ((Library.Question.room "hall").ask castle
      (.empty Library.standardWorldFile)).result.toOption.isSome = true := by decide +kernel
  obtain ⟨hall, hhall⟩ := Option.isSome_iff_exists.mp hread
  have hhanded : ⟨.room "hall", hall⟩ ∈ emptiedCastle.handed := by
    show _ ∈ (((Library.Question.room "hall").ask castle
      (.empty Library.standardWorldFile)).result.toOption.map (Sigma.mk _)).toList ++ []
    rw [hhall]
    exact List.mem_singleton_self _
  refine ⟨⟨hall, (library_invisible.1 castle _ _ (.room "hall")).again hall hhanded⟩, ?_⟩
  exact (library_invisible.1 castle Library.standardWorldFile [.ask (.room "hall"),
    .edit fun path => .error (.load path "missing"), .clear] (.room "hall")).afresh
      fun _ h => by cases h

end TextAdventure.Session
