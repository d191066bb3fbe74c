import TextAdventure.Proofs.Act
import TextAdventure.Proofs.Library

/-!
# Fights that cannot be announced

An enemy is a document that may name a picture, and the document or the picture may be missing when
a fight is to start. Then nothing is said and nothing is saved; but if only the picture is missing,
the player is in the fight (`Fight.start_unannounced`).
-/

namespace TextAdventure

/-- Asking the library says nothing. -/
theorem Play.lines_answered {α : Type} (p : Play) (answer : Library.Answer α) :
    (p.answered answer).lines = p.lines := by
  unfold lines answered
  rw [List.reverse_append, List.reverse_reverse, List.filterMap_append, List.filterMap_map]
  simp

/-- A picture is shown line by line, if the library has it. -/
theorem Act.ends_showArt {p : Play} {path : String} {R : Unit → Play → Prop}
    {E : Failure → Play → Prop} : (showArt path).Ends p R E ↔
      (∀ text, (Library.getArt p.source path p.library).result = .ok text →
        (sayAll (Text.lines text)).Ends
          (p.answered (Library.getArt p.source path p.library)) R E) ∧
      ∀ e, (Library.getArt p.source path p.library).result = .error e →
        E e (p.answered (Library.getArt p.source path p.library)) := by
  unfold showArt
  rw [ends_bind, ends_ask]

namespace Fight

/-- How a fight fails to start: if the document of the enemy cannot be had, with the player as
before; if only the picture of the enemy cannot be had, with the player in the fight. -/
inductive FailsToStart (id : String) (p : Play) (e : Failure) (player : Player) : Prop where
  /-- There is no document. -/
  | unread (h : (Library.getEnemy p.source id p.library).result = .error e)
    (hplayer : player = p.player)
  /-- There is no picture. -/
  | unseen {enemy : Enemy} {art : ArtRef}
    (h : (Library.getEnemy p.source id p.library).result = .ok enemy)
    (hart : enemy.ascii = some art)
    (hpicture : (Library.getArt p.source art.file
      (Library.getEnemy p.source id p.library).library).result = .error e)
    (hplayer : player = p.player.beginCombat enemy)

/-- A fight that does not start for want of content says nothing and saves nothing. The player is as
before if the document of the enemy is missing, and in the fight if its picture is. -/
theorem start_unannounced {id : String} {p q : Play} {e : Failure}
    (h : start id p = .error e q) (he : e.isContent = true) :
    q.lines = p.lines ∧ q.saves = p.saves ∧ FailsToStart id p e q.player := by
  have hends : (start id).Ends p (fun _ _ => True) fun e q => e.isContent = true →
      q.lines = p.lines ∧ q.saves = p.saves ∧ FailsToStart id p e q.player := by
    -- A store that refuses is no failure of the content, so the save cannot end this way.
    have hpersist : ∀ q : Play, Act.persist.Ends q (fun _ _ => True) fun e q =>
        e.isContent = true → q.lines = p.lines ∧ q.saves = p.saves ∧
          FailsToStart id p e q.player := by
      intro q
      rw [Act.ends_persist]
      exact ⟨fun _ he => absurd he (by decide), fun _ _ => trivial⟩
    unfold start Act.enemy
    rw [Act.ends_bind, Act.ends_ask]
    refine ⟨fun enemy henemy => ?_, fun e hread _ => ⟨p.lines_answered _, rfl, .unread hread rfl⟩⟩
    rw [Act.ends_bind, Act.ends_changePlayer]
    -- The fight has begun when the picture is asked for.
    cases hart : enemy.ascii with
    | none =>
      rw [Act.ends_bind, Act.ends_sayAll]
      exact hpersist _
    | some art =>
      rw [Act.ends_bind, Act.ends_showArt]
      refine ⟨fun text _ => ?_, fun e hpicture _ => ⟨?_, rfl, .unseen henemy hart hpicture rfl⟩⟩
      · rw [Act.ends_sayAll, Act.ends_bind, Act.ends_sayAll]
        exact hpersist _
      · rw [Play.lines_answered]
        exact p.lines_answered _
  unfold Act.Ends at hends
  rw [h] at hends
  exact hends he

/-- A fight with an enemy whose picture cannot be had fails to start, but the player is in it. -/
theorem start_unseen {id : String} {p : Play} {e : Failure} {enemy : Enemy} {art : ArtRef}
    (henemy : (Library.getEnemy p.source id p.library).result = .ok enemy)
    (hart : enemy.ascii = some art)
    (hpicture : (Library.getArt p.source art.file
      (Library.getEnemy p.source id p.library).library).result = .error e) :
    ∃ q, start id p = .error e q ∧ q.player = p.player.beginCombat enemy ∧ q.saves = p.saves := by
  have hends : (start id).Ends p (fun _ _ => False) fun e' q =>
      e' = e ∧ q.player = p.player.beginCombat enemy ∧ q.saves = p.saves := by
    unfold start Act.enemy
    rw [Act.ends_bind, Act.ends_ask_ok henemy, Act.ends_bind, Act.ends_changePlayer]
    simp only [hart]
    rw [Act.ends_bind, Act.ends_showArt]
    refine ⟨fun text htext => ?_, fun e' he' => ⟨?_, rfl, rfl⟩⟩
    · cases hpicture.symm.trans htext
    · cases hpicture.symm.trans he'
      rfl
  unfold Act.Ends at hends
  cases hstart : start id p with
  | ok _ q =>
    rw [hstart] at hends
    exact hends.elim
  | error e' q =>
    rw [hstart] at hends
    obtain ⟨rfl, hplayer, hsaves⟩ := hends
    exact ⟨q, rfl, hplayer, hsaves⟩

/-- A source with a rat whose picture is missing, and without other documents. -/
def ratNest : Source
  | "enemies/ratte.json" => .ok (Json.object [("id", .string "ratte"), ("stats", .object []),
      ("ascii", .string "ascii/ratte.txt")]).compactText
  | path => .error (.load path "missing")

/-- A player in front of the nest. -/
def atNest : Play :=
  (Session.new "keller" "Keller" "world.json" "save" .starting).play ratNest .empty

/-- A ghost without a document does not start a fight. -/
theorem start_unannounced_ghost : ∃ q,
    start "geist" atNest = .error (.load "enemies/geist.json" "missing") q ∧ q.lines = [] ∧
      q.saves = atNest.saves ∧
      FailsToStart "geist" atNest (.load "enemies/geist.json" "missing") q.player := by
  have hstart : ∃ q, start "geist" atNest = .error (.load "enemies/geist.json" "missing") q :=
    ⟨_, rfl⟩
  obtain ⟨q, hq⟩ := hstart
  exact ⟨q, hq, start_unannounced hq rfl⟩

/-- The rat without a picture fails to appear, but the player is in a fight with it that the save
knows nothing of. -/
theorem in_fight_unannounced : ∃ e q, start "ratte" atNest = .error e q ∧ e.isContent = true ∧
    atNest.player.inCombat = false ∧ q.player.inCombat = true ∧ q.player.enemy.isSome = true ∧
    q.saves.entries.get? "save" = none := by
  have hread : ((Library.getEnemy ratNest "ratte" atNest.library).result.toOption.any fun enemy =>
      enemy.ascii.map ArtRef.file == some "ascii/ratte.txt") = true := by decide +kernel
  have hpicture : (Library.getArt ratNest "ascii/ratte.txt"
      (Library.getEnemy ratNest "ratte" atNest.library).library).result =
        .error (.load "ascii/ratte.txt" "missing") := by decide +kernel
  obtain ⟨rat, hrat, hnamed⟩ := Library.exists_of_any hread
  obtain ⟨art, hart, hfile⟩ := Option.map_eq_some_iff.mp (beq_iff_eq.mp hnamed)
  rw [← hfile] at hpicture
  obtain ⟨q, hq, hplayer, hsaves⟩ := start_unseen (p := atNest) hrat hart hpicture
  rw [hfile] at hq
  refine ⟨_, q, hq, rfl, rfl, ?_, ?_, ?_⟩
  · rw [hplayer]
    rfl
  · rw [hplayer]
    rfl
  · rw [hsaves]
    rfl

end Fight

end TextAdventure
