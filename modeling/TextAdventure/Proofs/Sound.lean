import TextAdventure.Proofs.Coherent
import TextAdventure.Proofs.Frame
import TextAdventure.Proofs.Player.Record
import TextAdventure.Proofs.Script

/-!
# Whatever happens, the player can be saved

A state of play is `Play.Sound` over a source if its library agrees with the source and its player
can be saved and read back (`Player.Storable`). A coherent player can be saved if its flags can, and
scripts set flags only to values of documents; hence scripts at every level and commands keep a
sound state sound, whether they succeed or fail (`Play.upkeep_sound`).
-/

namespace TextAdventure

namespace Player

/-- A player that can be saved is coherent. -/
theorem Storable.coherent {p : Player} (h : p.Storable) : p.Coherent := ⟨h.inventory, h.inCombat⟩

/-- A coherent player can be saved if its flags are those of a player that can. -/
theorem Storable.of_coherent {p q : Player} (h : p.Storable) (hq : q.Coherent)
    (hflags : q.flags = p.flags) : q.Storable := ⟨hq.inventory, hq.inCombat, hflags ▸ h.flags⟩

/-- A new player can be saved if its flags can. -/
theorem storable_fresh (location : String) {flags : Table Json} (stats : Stats)
    (h : ∀ e ∈ flags.entries, e.2.Sorted ∧ e.2.Fits 125) :
    (Player.fresh location flags stats).Storable := ⟨List.nodup_nil, rfl, h⟩

/-- A player with a flag set to a value that can be saved. -/
theorem Storable.setFlag {p : Player} (h : p.Storable) (key : String) {value : Json}
    (hsorted : value.Sorted) (hfits : value.Fits 125) : (p.setFlag key value).Storable := by
  refine ⟨h.inventory, h.inCombat, fun e he => ?_⟩
  rcases Table.mem_of_mem_insert he with rfl | he
  · exact ⟨hsorted, hfits⟩
  · exact h.flags e he

/-- A player can be saved or not wherever it is. -/
theorem storable_anywhere : Anywhere Storable := fun h _ =>
  h.of_coherent (coherent_anywhere h.coherent _) rfl

/-- Every change in play leaves a player that can be saved, if scripts set flags only to values that
can be saved. -/
theorem upheld_storable : Upheld Storable Step.Storable where
  transition _ _ h := storable_anywhere h _
  strengthen h stats := h.of_coherent (upheld_coherent.strengthen h.coherent stats) rfl
  addItem {p} h id :=
    h.of_coherent (upheld_coherent.addItem h.coherent id) (p.samePlace_addItem id).flags
  takeItem {p} h listed id :=
    h.of_coherent (upheld_coherent.takeItem h.coherent listed id)
      (p.samePlace_takeItem listed id).flags
  markVisited h room := h.of_coherent (upheld_coherent.markVisited h.coherent room) rfl
  beginCombat h enemy := h.of_coherent (upheld_coherent.beginCombat h.coherent enemy) rfl
  endCombat h := h.of_coherent (upheld_coherent.endCombat h.coherent) rfl
  strike h henemy struck := h.of_coherent (upheld_coherent.strike h.coherent henemy struck) rfl
  revision {s r} hs hr p h := by
    have hcoherent := upheld_coherent.revision trivial hr h.coherent
    cases hr using Step.cases_of_revision? with
    | setFlag key value =>
      cases hs with
      | setFlag _ hsorted hfits => exact h.setFlag key hsorted hfits
      | other hflag _ => exact absurd rfl (hflag key value)
    -- The other steps that change the player leave its flags alone.
    | addItem id =>
      exact h.of_coherent hcoherent (p.samePlace_addItem id).flags
    | removeItem id =>
      exact h.of_coherent hcoherent rfl
    | unlockExit room direction =>
      exact h.of_coherent hcoherent rfl
    | lockExit room direction =>
      exact h.of_coherent hcoherent rfl

end Player

namespace Library

variable {α : Type} [Document α] {source : Source}

/-- A document that was read is what the text at its path says. -/
theorem exists_text_of_read {kind id : String} {doc : α} (h : read source kind id = .ok doc) :
    ∃ text, source (documentPath kind id) = .ok text ∧ Document.ofText? text = some doc := by
  unfold read fetch at h
  split at h
  · split at h
    · next text htext =>
      split at h
      · next hdoc =>
        cases h
        exact ⟨text, htext, hdoc⟩
      · cases h
    · cases h
  · cases h

end Library

/-- The library agrees with the source, and the player can be saved. -/
structure Play.Sound (source : Source) (p : Play) : Prop where
  /-- The content comes from the source. -/
  fromSource : p.source = source
  /-- What the library has read is what the source has. -/
  agrees : Library.Agrees source p.library
  /-- The player can be saved and read back. -/
  player : p.player.Storable

/-- A sound state is one over the source. -/
theorem Play.Sound.reads {source : Source} {p : Play} (hp : p.Sound source) : p.Reads source :=
  ⟨hp.fromSource, hp.agrees⟩

/-- A sound state stays sound. -/
def Promise.sound (source : Source) : Promise := invariant (Play.Sound source)

/-- A faithful question keeps a state sound, and is answered by what the source has. -/
theorem Act.ask_sound {source : Source} {α : Type} {request : Source → Library → Library.Answer α}
    {post : α → Prop} (h : Library.Faithful request)
    (hpost : ∀ l a, Library.Agrees source l → (request source l).result = .ok a → post a) :
    (ask request).Yields (Promise.sound source) post := by
  intro p hp
  have hq := hp.reads.answered h
  have hsound : (p.answered (request p.source p.library)).Sound source :=
    ⟨hq.fromSource, hq.agrees, hp.player⟩
  rw [ends_ask]
  refine ⟨fun a ha => ⟨hsound, ?_⟩, fun _ _ => hsound⟩
  rw [hp.fromSource] at ha
  exact hpost p.library a hp.agrees ha

/-- Play keeps a sound state sound. -/
theorem Play.upkeep_sound (source : Source) :
    Upkeep (Play.Sound source) Player.Storable Step.Storable where
  upheld := Player.upheld_storable
  player hp := hp.player
  -- What a state agrees on with another one it keeps, as long as the player can be saved.
  beside hp hq hbeside :=
    ⟨hbeside.source.trans hp.fromSource, hbeside.library ▸ hp.agrees, hq⟩
  world := (Act.ask_sound Library.faithful_getWorld fun _ _ _ _ => trivial :
    (Act.ask _).Yields _ fun _ => True).keeps
  enemy id := (Act.ask_sound (Library.faithful_getEnemy id) fun _ _ _ _ => trivial :
    (Act.ask _).Yields _ fun _ => True).keeps
  art path := (Act.ask_sound (Library.faithful_getArt path) fun _ _ _ _ => trivial :
    (Act.ask _).Yields _ fun _ => True).keeps
  -- A document that is read comes from a text, so the scripts in it set flags to values of texts.
  room id := Act.ask_sound (Library.faithful_getRoom id) fun l room hl hroom => by
    rw [(hl.getRoom id).1] at hroom
    obtain ⟨text, -, htext⟩ := Library.exists_text_of_read hroom
    exact Room.storable_of_ofText? htext
  item id := Act.ask_sound (Library.faithful_getItem id) fun l item hl hitem => by
    rw [(hl.getItem id).1] at hitem
    obtain ⟨text, -, htext⟩ := Library.exists_text_of_read hitem
    exact Item.storable_of_ofText? htext
  fixture id := Act.ask_sound (Library.faithful_getFixture id) fun l fixture hl hfixture => by
    rw [(hl.getFixture id).1] at hfixture
    obtain ⟨text, -, htext⟩ := Library.exists_text_of_read hfixture
    exact Fixture.storable_of_ofText? htext
  branch hs := by
    cases hs with
    | branch _ _ hmatch hotherwise => exact ⟨hmatch, hotherwise⟩
    | other _ hbranch => exact absurd rfl (hbranch _ _ _ _)

end TextAdventure
