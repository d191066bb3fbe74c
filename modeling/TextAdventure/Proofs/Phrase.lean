import TextAdventure.Phrase
import TextAdventure.Proofs.Command

/-!
# Ids can be typed as words

An id in ASCII is a row of parts with underscores in between, and words *spell* it if they are its
parts, in upper or lower case (`Phrase.Spells`). A line in which a verb stands before such words,
with spaces in between, is read as the verb and a phrase that is the id in lower case
(`Command.parse_take_spaced`, `Phrase.Spells.normalize`), and in any list that has the id, this
phrase means the first id that holds it (`Phrase.exists_firstHolding`).
-/

namespace TextAdventure

open LetterCase (IsAscii lower)
open Text (IsWord Spaced)

/-! ### Lines of words in ASCII -/

namespace Command

variable {line : String} {words source target : List String}

/-- A line that is written as words in ASCII is read off these words in lower case. -/
theorem parse_spaced (h : Spaced words line) (hwords : ∀ w ∈ words, IsWord w ∧ IsAscii w.toList) :
    parse line = ofWords line (words.map lower) := by
  -- The words are trimmed already, so the line is its own text in lower case.
  have htrim : Text.trim line = line := by
    rw [Text.trim, (h.trimmed fun w hw => (hwords w hw).1).trimList, String.ofList_toList]
  have hspaced : Spaced (words.map lower) (lineOf line) := by
    rw [lineOf, htrim]
    exact (LetterCase.spaced_lower h fun w hw => (hwords w hw).2).2
  have hlower : ∀ w ∈ words.map lower, IsWord w := by
    intro w hw
    obtain ⟨v, hv, rfl⟩ := List.mem_map.mp hw
    exact LetterCase.isWord_lower (hwords v hv).2 (hwords v hv).1
  have hcut := hspaced.words hlower
  -- The words are cut from the line again, and the first of them ends where it should.
  rw [← hcut]
  refine parse_eq_ofWords ?_
  rw [hcut]
  cases hws : words.map lower with
  | nil => exact .inl (Nat.zero_le 1)
  | cons w ws =>
    cases ws with
    | nil => exact .inl (Nat.le_refl 1)
    | cons v vs =>
      rw [hws] at hspaced hlower
      exact .inr (hspaced.firstGap (List.cons_ne_nil v vs) (hlower w List.mem_cons_self))

/-- What stands behind the word for taking is what to take. -/
theorem parse_take_spaced (h : Spaced ("nimm" :: words) line) (hne : words ≠ [])
    (hwords : ∀ w ∈ words, IsWord w ∧ IsAscii w.toList) :
    parse line = ⟨.take, some (" ".intercalate (words.map lower)), none, none, line⟩ := by
  have hall : ∀ w ∈ "nimm" :: words, IsWord w ∧ IsAscii w.toList := by
    intro w hw
    rcases List.mem_cons.mp hw with rfl | hw
    · exact ⟨by decide, by decide⟩
    · exact hwords w hw
  have hverb : lower "nimm" = "nimm" := by decide +kernel
  rw [parse_spaced h hall, List.map_cons, hverb, ofWords_eq_iff]
  refine .verb (fun word hone => ?_) ?_ ?_
  · exact absurd (List.map_eq_nil_iff.mp (List.cons.inj hone).2) hne
  · have hentry : (Verb.take, ["nimm", "nehmen", "hole", "grab", "pick"]) ∈ Verb.vocabulary := by
      decide +kernel
    exact .known hentry List.mem_cons_self
  · rw [← phraseOf_of_ne_nil (fun hnil => hne (List.map_eq_nil_iff.mp hnil))]
    exact .rest (by decide) (by decide)

/-- The words on either side of the connective are the two halves of a combination. -/
theorem parse_combine_spaced (h : Spaced ("kombiniere" :: (source ++ "mit" :: target)) line)
    (hsource : source ≠ []) (htarget : target ≠ [])
    (hwords : ∀ w ∈ source ++ target, IsWord w ∧ IsAscii w.toList)
    (hfirst : ∀ w ∈ source.tail, isConnective (lower w) = false) :
    parse line = ⟨.combine, some (" ".intercalate (source.map lower)),
      some (" ".intercalate (target.map lower)), none, line⟩ := by
  -- All words are plain, the verb and the connective among them.
  have hall : ∀ w ∈ "kombiniere" :: (source ++ "mit" :: target), IsWord w ∧ IsAscii w.toList := by
    intro w hw
    rcases List.mem_cons.mp hw with rfl | hw
    · exact ⟨by decide, by decide⟩
    · rcases List.mem_append.mp hw with hw | hw
      · exact hwords w (List.mem_append_left _ hw)
      · rcases List.mem_cons.mp hw with rfl | hw
        · exact ⟨by decide, by decide⟩
        · exact hwords w (List.mem_append_right _ hw)
  have hverb : lower "kombiniere" = "kombiniere" := by decide +kernel
  have hmit : lower "mit" = "mit" := by decide +kernel
  rw [parse_spaced h hall, List.map_cons, List.map_append, List.map_cons, hverb, hmit,
    ofWords_eq_iff]
  -- The connective is the first one, because the source has none behind its first word.
  have hsplits : Splits (source.map lower ++ "mit" :: target.map lower) (source.map lower)
      (target.map lower) := by
    refine ⟨⟨"mit", by decide, rfl⟩, ?_, ?_, fun w hw => ?_⟩
    · exact fun hnil => hsource (List.map_eq_nil_iff.mp hnil)
    · exact fun hnil => htarget (List.map_eq_nil_iff.mp hnil)
    · rw [← List.map_tail] at hw
      obtain ⟨v, hv, rfl⟩ := List.mem_map.mp hw
      exact hfirst v hv
  -- There is more than one word, so the line is no direction alone.
  refine .verb (fun word hone => ?_) ?_ (.combined hsplits)
  · have hnil := (List.cons.inj hone).2
    exact absurd (List.append_eq_nil_iff.mp hnil).2 (List.cons_ne_nil _ _)
  · have hentry : (Verb.combine, ["kombiniere", "combine"]) ∈ Verb.vocabulary := by decide +kernel
    exact .known hentry List.mem_cons_self

end Command

namespace Phrase

/-! ### Spelling an id -/

/-- A word spells a part of an id, which is a word in ASCII, if they differ in upper and lower case
only. -/
structure SpellsPart (word part : String) : Prop where
  /-- The part is not empty and has no blank. -/
  isWord : IsWord part
  /-- The part is in ASCII. -/
  ascii : IsAscii part.toList
  /-- The letters are the same. -/
  letters : word.toList.map Char.toLower = part.toList.map Char.toLower

/-- Words spell an id: it is made of parts with underscores in between, and each word spells a part.
A part may itself have underscores, which then stand in the word as well. -/
inductive Spells : List String → String → Prop where
  /-- An id of one part. -/
  | part {word part : String} (hword : SpellsPart word part) : Spells [word] part
  /-- A part before others. -/
  | cons {word part : String} {words : List String} {id : String} (hword : SpellsPart word part)
    (h : Spells words id) : Spells (word :: words) (part ++ "_" ++ id)

variable {word part id target line : String} {words words' : List String}

/-- What spells a part is a word in ASCII. -/
theorem SpellsPart.isWord_word (h : SpellsPart word part) : IsWord word ∧ IsAscii word.toList := by
  -- Each letter of the word is in lower case one of the part, too.
  have hletter : ∀ c ∈ word.toList, c.toNat < 128 ∧ Text.isBlank c = false := by
    intro c hc
    have hlower : c.toLower ∈ part.toList.map Char.toLower :=
      h.letters ▸ List.mem_map_of_mem hc
    obtain ⟨d, hd, heq⟩ := List.mem_map.mp hlower
    have hascii : c.toNat < 128 := by
      refine LetterCase.ascii_of_toLower ?_
      rw [← heq]
      exact (LetterCase.toLower_of_ascii (h.ascii d hd)).1
    refine ⟨hascii, ?_⟩
    rw [← (LetterCase.toLower_of_ascii hascii).2.1, ← heq,
      (LetterCase.toLower_of_ascii (h.ascii d hd)).2.1, h.isWord.2 d hd]
  refine ⟨⟨fun hnil => h.isWord.1 ?_, fun c hc => (hletter c hc).2⟩, fun c hc => (hletter c hc).1⟩
  have hletters := h.letters
  rw [hnil] at hletters
  exact List.map_eq_nil_iff.mp hletters.symm

/-- What spells a part is the part in lower case. -/
theorem SpellsPart.lower_eq (h : SpellsPart word part) : lower word = lower part := by
  rw [← String.toList_inj, LetterCase.toList_lower_of_ascii h.isWord_word.2,
    LetterCase.toList_lower_of_ascii h.ascii, h.letters]

/-- What spells an id are words in ASCII. -/
theorem Spells.isWord_words (h : Spells words id) : ∀ w ∈ words, IsWord w ∧ IsAscii w.toList := by
  induction h with
  | part hword =>
    intro w hw
    rw [List.mem_singleton.mp hw]
    exact hword.isWord_word
  | cons hword h ih =>
    intro w hw
    rcases List.mem_cons.mp hw with rfl | hw
    · exact hword.isWord_word
    · exact ih w hw

/-- There is a word for each part of an id, and there is a part. -/
theorem Spells.ne_nil (h : Spells words id) : words ≠ [] := by
  cases h <;> exact List.cons_ne_nil _ _

/-- An id that is spelt is not empty, and in ASCII. -/
theorem Spells.ascii_id (h : Spells words id) : id.toList ≠ [] ∧ IsAscii id.toList := by
  induction h with
  | part hword => exact ⟨hword.isWord.1, hword.ascii⟩
  | cons hword h ih =>
    refine ⟨?_, LetterCase.isAscii_append (LetterCase.isAscii_append hword.ascii (by decide)) ih.2⟩
    rw [String.toList_append, String.toList_append]
    exact List.append_ne_nil_of_right_ne_nil _ ih.1

/-- The words in lower case, with underscores in between, are the id in lower case. -/
theorem Spells.joined (h : Spells words id) : "_".intercalate (words.map lower) = lower id := by
  induction h with
  | part hword => exact hword.lower_eq
  | @cons word part words id hword h ih =>
    have hpart : IsAscii (part ++ "_").toList := LetterCase.isAscii_append hword.ascii (by decide)
    have hbar : lower "_" = "_" := by decide +kernel
    obtain ⟨first, rest, rfl⟩ := List.exists_cons_of_ne_nil h.ne_nil
    rw [LetterCase.lower_append_of_ascii hpart h.ascii_id.2,
      LetterCase.lower_append_of_ascii hword.ascii (by decide), hbar, ← hword.lower_eq, ← ih]
    exact String.intercalate_cons_cons

/-- The phrase of the words is, in the spelling of ids, the id in lower case. -/
theorem Spells.normalize (h : Spells words id) :
    normalize (" ".intercalate (words.map lower)) = lower id := by
  have hne : words.map lower ≠ [] := fun hnil => h.ne_nil (List.map_eq_nil_iff.mp hnil)
  have hwords : ∀ w ∈ words.map lower, IsWord w := by
    intro w hw
    obtain ⟨v, hv, rfl⟩ := List.mem_map.mp hw
    exact LetterCase.isWord_lower (h.isWord_words v hv).2 (h.isWord_words v hv).1
  have hlower : (words.map lower).map lower = words.map lower := by
    rw [List.map_map]
    exact List.map_congr_left fun w hw => LetterCase.lower_lower_of_ascii (h.isWord_words w hw).2
  rw [Phrase.normalize, (Text.spaced_intercalate hne).words hwords, hlower, h.joined]

/-! ### The id that is meant -/

/-- An id holds another if the other is, in lower case, a part of it. -/
def Holds (id other : String) : Prop := (lower other).toList <:+: (lower id).toList

/-- The first of the ids that holds another. -/
structure FirstHolding (ids : List String) (id found : String) : Prop where
  /-- It is one of the ids, and none of those before it holds the other. -/
  position : ∃ before after, ids = before ++ found :: after ∧ ∀ earlier ∈ before, ¬Holds earlier id
  /-- It holds the other. -/
  holds : Holds found id

/-- A phrase that is an id in lower case matches the ids that hold it. -/
theorem isMatch_lower_iff (hne : (lower id).toList ≠ []) {other : String} :
    isMatch (lower id) other = true ↔ Holds other id := by
  have hempty : (lower id).toList.isEmpty = false := List.isEmpty_eq_false_iff.mpr hne
  rw [isMatch, hempty, Bool.not_false, Bool.true_and, Text.occursIn_iff, Holds, lower,
    String.toList_ofList, lower, String.toList_ofList]

/-- A phrase that is an id in lower case means the first id that holds it, and there is one if the
id is in the list. -/
theorem exists_firstHolding {phrase : String} {ids : List String}
    (hphrase : normalize phrase = lower id) (hne : (lower id).toList ≠ []) (hid : id ∈ ids) :
    ∃ found, resolve phrase ids = some found ∧ FirstHolding ids id found := by
  unfold resolve
  rw [hphrase]
  cases hfound : ids.find? (isMatch (lower id)) with
  | none =>
    have hnone := List.find?_eq_none.mp hfound id hid
    exact absurd ((isMatch_lower_iff hne).mpr (List.infix_refl _)) hnone
  | some found =>
    obtain ⟨hmatch, before, after, heq, hbefore⟩ := List.find?_eq_some_iff_append.mp hfound
    refine ⟨found, rfl, ⟨before, after, heq, fun earlier hearlier hholds => ?_⟩,
      (isMatch_lower_iff hne).mp hmatch⟩
    have hno := hbefore earlier hearlier
    rw [(isMatch_lower_iff hne).mpr hholds] at hno
    cases hno

/-- In lower case, an id that is spelt is not empty. -/
theorem Spells.lower_ne_nil (h : Spells words id) : (lower id).toList ≠ [] := by
  rw [LetterCase.toList_lower_of_ascii h.ascii_id.2]
  exact fun hnil => h.ascii_id.1 (List.map_eq_nil_iff.mp hnil)

/-- What spells an id can be typed behind a verb: what is then meant in a list that has the id is
the first of the list that holds it. If no word behind the first is a connective, it can be typed as
the first half of a combination as well, and the second half is then the key of what it spells. -/
theorem Spells.typed (h : Spells words id) :
    (∀ line, Spaced ("nimm" :: words) line →
      ∃ phrase, Command.parse line = ⟨.take, some phrase, none, none, line⟩ ∧
        ∀ ids, id ∈ ids → ∃ found, resolve phrase ids = some found ∧ FirstHolding ids id found) ∧
    ((∀ w ∈ words.tail, Command.isConnective (lower w) = false) →
      ∀ target words' line, Spells words' target →
        Spaced ("kombiniere" :: (words ++ "mit" :: words')) line →
        ∃ phrase other, Command.parse line = ⟨.combine, some phrase, some other, none, line⟩ ∧
          Phrase.normalize other = lower target ∧
          ∀ ids, id ∈ ids →
            ∃ found, resolve phrase ids = some found ∧ FirstHolding ids id found) := by
  constructor
  · intro line hline
    exact ⟨_, Command.parse_take_spaced hline h.ne_nil h.isWord_words,
      fun ids hid => exists_firstHolding h.normalize h.lower_ne_nil hid⟩
  · intro hfirst target words' line htarget hline
    have hwords : ∀ w ∈ words ++ words', IsWord w ∧ IsAscii w.toList := by
      intro w hw
      exact (List.mem_append.mp hw).elim (h.isWord_words w) (htarget.isWord_words w)
    exact ⟨_, _, Command.parse_combine_spaced hline h.ne_nil htarget.ne_nil hwords hfirst,
      htarget.normalize, fun ids hid => exists_firstHolding h.normalize h.lower_ne_nil hid⟩

/-- A lamp is taken, and combined with a rope. -/
theorem typed_rote_lampe : Spells ["ROTE", "lampe"] "rote_Lampe" ∧
    (∃ phrase, Command.parse "nimm ROTE  lampe" =
        ⟨.take, some phrase, none, none, "nimm ROTE  lampe"⟩ ∧
      ∃ found, resolve phrase ["lampe", "alte_rote_lampe", "rote_Lampe"] = some found ∧
        FirstHolding ["lampe", "alte_rote_lampe", "rote_Lampe"] "rote_Lampe" found) ∧
    ∃ phrase other, Command.parse "kombiniere ROTE lampe mit Seil" =
        ⟨.combine, some phrase, some other, none, "kombiniere ROTE lampe mit Seil"⟩ ∧
      Phrase.normalize other = lower "seil" := by
  have hparts : "rote" ++ "_" ++ "Lampe" = "rote_Lampe" := by decide
  have hid : Spells ["ROTE", "lampe"] "rote_Lampe" := by
    rw [← hparts]
    exact .cons ⟨by decide, by decide, by decide⟩ (.part ⟨by decide, by decide, by decide⟩)
  have hseil : Spells ["Seil"] "seil" := .part ⟨by decide, by decide, by decide⟩
  have htake : Spaced ["nimm", "ROTE", "lampe"] "nimm ROTE  lampe" :=
    .cons "nimm" 0 (.cons "ROTE" 1 (.word "lampe"))
  have hcombine : Spaced ["kombiniere", "ROTE", "lampe", "mit", "Seil"]
      "kombiniere ROTE lampe mit Seil" :=
    .cons "kombiniere" 0 (.cons "ROTE" 0 (.cons "lampe" 0 (.cons "mit" 0 (.word "Seil"))))
  obtain ⟨phrase, htaken, hmeant⟩ := hid.typed.1 _ htake
  obtain ⟨item, other, hcombined, hother, -⟩ :=
    hid.typed.2 (by decide +kernel) "seil" ["Seil"] _ hseil hcombine
  exact ⟨hid, ⟨phrase, htaken, hmeant _ (by decide)⟩, item, other, hcombined, hother⟩

end Phrase

end TextAdventure
