import TextAdventure.Proofs.Run
import TextAdventure.Proofs.Uniform

/-!
# Going on in a new session is the same as staying

After any run a new session, which has read nothing and knows no player, goes on from the save
exactly as the session of the run would (`Session.resume_afresh`). Both read the same save, which
overwrites every field of the player, so they differ from then on only in what their libraries have
read, and that cannot be told.
-/

namespace TextAdventure.Session

variable {source : Source} {s : Session} {saves : Saves}

/-- Showing the room of a player that was read from a save ends alike from similar states. -/
theorem proceed_uniform : proceed.Uniform fun _ => True := Discipline.elementary_uniform.proceed

/-- Two replies are the same apart from what was fetched. -/
structure Reply.SameAs (r t : Reply) : Prop where
  /-- The same lines, or the same failure. -/
  result : t.result = r.result
  /-- The same session, apart from its library, so the same player. -/
  session : t.session = { r.session with library := t.session.library }
  /-- The same store, with the same save. -/
  saves : t.saves = r.saves
  /-- The same happened. -/
  deeds : (t.journal.filter fun e => !e.isFetched) = r.journal.filter fun e => !e.isFetched

/-- Acts that end alike are replied to in the same way. -/
theorem sameAs_replyOf {x y : EStateM.Result Failure Play Unit}
    (h : Act.Alike (fun _ => True) x y) : (replyOf x).SameAs (replyOf y) := by
  -- Similar states differ in what their libraries hold, which is no part of a reply.
  have hsimilar : ∀ {p q : Play}, p.Similar q →
      q.toSession = { p.toSession with library := q.library } ∧ q.saves = p.saves ∧
        q.deeds = p.deeds := by
    intro p q hpq
    cases hpq with
    | intro library journal worldFile deeds agrees agrees' => exact ⟨rfl, rfl, deeds⟩
  -- Acts that end alike both succeed or both fail.
  cases x with
  | ok a p =>
    cases y with
    | ok b q =>
      obtain ⟨-, -, hpq⟩ := h
      obtain ⟨hsession, hsaves, hdeeds⟩ := hsimilar hpq
      exact ⟨congrArg Except.ok hpq.lines_eq, hsession, hsaves, hdeeds⟩
    | error f q => exact h.elim
  | error e p =>
    cases y with
    | ok b q => exact h.elim
    | error f q =>
      obtain ⟨rfl, hpq⟩ := h
      obtain ⟨hsession, hsaves, hdeeds⟩ := hsimilar hpq
      exact ⟨rfl, hsession, hsaves, hdeeds⟩

/-- A session and a new one in its place are similar once both have read the same save, whatever
players they had. -/
theorem similar_loaded {later : Saves} {w : World} {player : Player} {left : Option Nat}
    (h : Library.Agrees source s.library) :
    (loaded (ready (s.play source later) w) player left).Similar
      (loaded (ready (s.reopened.play source later) w) player left) := by
  have hempty := Library.agrees_empty source s.library.worldFile
  have hworldFile : (Library.getWorld source s.reopened.library).library.worldFile =
      (Library.getWorld source s.library).library.worldFile := by
    rw [Library.worldFile_getWorld, Library.worldFile_getWorld]
    rfl
  have hdeeds := Play.deeds_answered (s.play source later) (Library.getWorld source s.library)
  have hdeeds' := Play.deeds_answered (s.play source later)
    (Library.getWorld source s.reopened.library)
  exact .intro (Library.getWorld source s.reopened.library).library
    (((Library.getWorld source s.reopened.library).fetched.map Event.fetched).reverse ++ [])
    hworldFile (hdeeds'.trans hdeeds.symm) h.getWorld.2 hempty.getWorld.2

/-- Going on in a new session is the same as staying: after a run in which every request succeeded,
over a source that does not change, and with a store that still holds what it held and can be read,
a new session goes on with the same lines, the same player and the same store. -/
theorem resume_afresh {journal : List Event} {later : Saves} (h : Reached source s saves journal)
    (hentries : later.entries = saves.entries) (hread : Saves.spend later.gets ≠ none) :
    (s.handle source later .resume).SameAs (s.reopened.handle source later .resume) := by
  have hsettled := h.settled (invariant_true source)
  -- The save is that of a player who can be read back, and the source has a world.
  obtain ⟨w, hw⟩ := hsettled.world
  obtain ⟨player, hplayer, hsaved, -, -⟩ := hsettled.saved
  obtain ⟨left, hleft⟩ := Option.ne_none_iff_exists'.mp hread
  have hfound : later.entries.get? s.saveKey = some player.save := by
    rw [hentries]
    exact hsaved
  -- Both sessions show the room of the player that the save is read as.
  have hstayed : resume (s.play source later) =
      proceed (loaded (ready (s.play source later) w) player.recalled left) :=
    resume_eq (hsettled.agrees.getWorld.1.trans hw) hfound hplayer hleft
  have hanew : resume (s.reopened.play source later) =
      proceed (loaded (ready (s.reopened.play source later) w) player.recalled left) :=
    resume_eq ((Library.agrees_empty source _).getWorld.1.trans hw) hfound hplayer hleft
  -- They differ only in their libraries, and that cannot be told.
  have hsimilar : (loaded (ready (s.play source later) w) player.recalled left).Similar
      (loaded (ready (s.reopened.play source later) w) player.recalled left) :=
    similar_loaded hsettled.agrees
  have halike := proceed_uniform _ _ hsimilar
  rw [← hstayed, ← hanew] at halike
  rw [handle_eq, handle_eq]
  exact sameAs_replyOf halike

/-- After the lever of the castle was used, a new session goes on as the old one would. -/
theorem resume_castle_afresh :
    (leverUsed.session.handle castle { leverUsed.saves with gets := none, puts := none }
      .resume).SameAs
      (leverUsed.session.reopened.handle castle { leverUsed.saves with gets := none, puts := none }
        .resume) := by
  have hread : Saves.spend none ≠ none := by decide
  -- The reply is generalized, since otherwise it would be computed on the way.
  have hall : ∀ (r : Reply) (journal : List Event), Reached castle r.session r.saves journal →
      (r.session.handle castle { r.saves with gets := none, puts := none } .resume).SameAs
        (r.session.reopened.handle castle { r.saves with gets := none, puts := none } .resume) :=
    fun r journal h => resume_afresh h rfl hread
  exact hall leverUsed _ reached_leverUsed

end TextAdventure.Session
