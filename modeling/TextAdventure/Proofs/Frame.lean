import TextAdventure.Proofs.Elementary

/-!
# What no act changes

No act changes who plays what, the source of content or the path of the world document, nothing is
taken out of the journal, and a library that agrees with its source goes on agreeing with it
(`Play.Frame`). This is a discipline that the smallest acts obey.
-/

namespace TextAdventure

/-- The content comes from a source, and what the library has read is what the source has. -/
structure Play.Reads (source : Source) (p : Play) : Prop where
  /-- The content comes from the source. -/
  fromSource : p.source = source
  /-- What the library has read is what the source has. -/
  agrees : Library.Agrees source p.library

/-- The library agrees with the source at hand. -/
theorem Play.Reads.agreesHere {source : Source} {p : Play} (hp : p.Reads source) :
    Library.Agrees p.source p.library := by
  rw [hp.fromSource]
  exact hp.agrees

/-- A faithful question leaves the source and a library that agrees with it. -/
theorem Play.Reads.answered {source : Source} {p : Play} (hp : p.Reads source) {α : Type}
    {request : Source → Library → Library.Answer α} (h : Library.Faithful request) :
    (p.answered (request p.source p.library)).Reads source := by
  obtain ⟨truth, htruth⟩ := h
  obtain ⟨-, hafter, -⟩ := htruth p.source p.library hp.agreesHere
  refine ⟨hp.fromSource, ?_⟩
  rw [hp.fromSource] at hafter ⊢
  exact hafter

/-- What no act changes: who plays what, over which source, with a library that agrees with the
source. -/
structure Play.Frame (p q : Play) : Prop where
  /-- The adventure stays. -/
  id : q.id = p.id
  /-- The title stays. -/
  title : q.title = p.title
  /-- The strength of new players stays. -/
  stats : q.stats = p.stats
  /-- The key of the save stays. -/
  saveKey : q.saveKey = p.saveKey
  /-- The source stays. -/
  source : q.source = p.source
  /-- The path of the world document stays. -/
  worldFile : q.library.worldFile = p.library.worldFile
  /-- What happened stays in the journal. -/
  journal : p.journal <:+ q.journal
  /-- The library agrees with the source afterwards. -/
  agrees : Library.Agrees q.source q.library

namespace Play.Frame

variable {p q r : Play}

/-- Nothing has to change. -/
theorem refl (hp : Library.Agrees p.source p.library) : p.Frame p :=
  ⟨rfl, rfl, rfl, rfl, rfl, rfl, List.suffix_rfl, hp⟩

/-- What two acts leave alone. -/
theorem trans (h : p.Frame q) (h' : q.Frame r) : p.Frame r where
  id := h'.id.trans h.id
  title := h'.title.trans h.title
  stats := h'.stats.trans h.stats
  saveKey := h'.saveKey.trans h.saveKey
  source := h'.source.trans h.source
  worldFile := h'.worldFile.trans h.worldFile
  journal := h.journal.trans h'.journal
  agrees := h'.agrees

end Play.Frame

/-- Everything that no act changes stays. -/
def Promise.frame : Promise where
  inv p := Library.Agrees p.source p.library
  ok := Play.Frame
  failed _ := Play.Frame
  again _ hq := hq.agrees
  refl := Play.Frame.refl
  trans := Play.Frame.trans
  failed_after := Play.Frame.trans

namespace Discipline

open Promise (frame)

/-- The smallest acts keep the frame. -/
theorem elementary_frame : frame.discipline.Elementary where
  note _ _ hp := ⟨⟨rfl, rfl, rfl, rfl, rfl, rfl, List.suffix_cons _ _, hp⟩, trivial⟩
  player _ hp := ⟨frame.refl hp, trivial⟩
  changePlayer _ _ hp := ⟨⟨rfl, rfl, rfl, rfl, rfl, rfl, List.suffix_rfl, hp⟩, trivial⟩
  persist p hp := by
    rw [Act.ends_persist]
    exact ⟨fun _ => frame.refl hp, fun _ _ =>
      ⟨⟨rfl, rfl, rfl, rfl, rfl, rfl, List.suffix_cons _ _, hp⟩, trivial⟩⟩
  restore p hp := by
    rw [Act.ends_restore]
    refine ⟨fun _ => frame.refl hp, fun left _ => ?_⟩
    -- A save that cannot be read leaves the player as it is.
    cases (p.saves.entries.get? p.saveKey).bind p.player.restore? with
    | some player => exact ⟨⟨rfl, rfl, rfl, rfl, rfl, rfl, List.suffix_rfl, hp⟩, trivial⟩
    | none => exact ⟨⟨rfl, rfl, rfl, rfl, rfl, rfl, List.suffix_rfl, hp⟩, trivial⟩
  forget p hp := by
    rw [Act.ends_forget]
    exact ⟨fun _ => frame.refl hp, fun _ _ =>
      ⟨⟨rfl, rfl, rfl, rfl, rfl, rfl, List.suffix_rfl, hp⟩, trivial⟩⟩
  -- A question changes the library, which still agrees with the source afterwards.
  ask := by
    intro α request ⟨truth, htruth⟩ p hp
    obtain ⟨-, hagrees, hworldFile⟩ := htruth p.source p.library hp
    have hanswered : p.Frame (p.answered (request p.source p.library)) :=
      ⟨rfl, rfl, rfl, rfl, rfl, hworldFile, List.suffix_append _ _, hagrees⟩
    rw [Act.ends_ask]
    exact ⟨fun _ _ => ⟨hanswered, trivial⟩, fun _ _ => hanswered⟩
  -- Both ends of a level only add to the journal.
  level := by
    intro act h p hp
    have hopened : p.Frame (p.noting .opened) :=
      ⟨rfl, rfl, rfl, rfl, rfl, rfl, List.suffix_cons _ _, hp⟩
    have hclosed : ∀ q, (p.noting .opened).Frame q → p.Frame (q.noting .closed) := fun q hq =>
      (hopened.trans hq).trans
        ⟨rfl, rfl, rfl, rfl, rfl, rfl, List.suffix_cons _ _, hq.agrees⟩
    rw [Act.ends_level]
    exact (h (p.noting .opened) hp).imp (fun _ q hq => ⟨hclosed q hq.1, trivial⟩)
      fun _ q hq => hclosed q hq
  activate _ hp := ⟨⟨rfl, rfl, rfl, rfl, rfl, rfl, List.suffix_rfl, hp⟩, trivial⟩
  deactivate _ hp := ⟨⟨rfl, rfl, rfl, rfl, rfl, rfl, List.suffix_rfl, hp⟩, trivial⟩
  requireActive p hp := by
    rw [Session.ends_requireActive]
    exact ⟨fun _ => ⟨frame.refl hp, trivial⟩, fun _ => frame.refl hp⟩
  beginning _ _ hp := ⟨frame.refl hp, trivial⟩

end Discipline

end TextAdventure
