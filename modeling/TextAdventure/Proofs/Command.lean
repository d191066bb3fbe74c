import TextAdventure.Command
import TextAdventure.Proofs.LetterCase

/-!
# Commands are read off their words

The verb of a line is looked for in the line itself, where a form may be of several words, and
everything else in the words of the line. If the first word is the last one or a space follows it,
the verb is that of the first word alone (`Verb.ofLine?_eq`), since a form of several words begins
with another form of the same verb. Then a command is read off the words of its line
(`Command.parse_eq_ofWords`), and it is what these words mean (`Command.Means`).
-/

namespace TextAdventure

open Text (isBlank Unbroken EndsWord Trimmed)

namespace Verb

/-- The verb of a word, if the table has it. -/
def ofWord? (word : String) : Option Verb :=
  (vocabulary.find? fun entry => entry.2.contains word).map (·.1)

/-- A word, which holds no blank, names a verb: the word is one of the forms of the verb, or none
of the forms in the table, and then it is itself the verb. -/
inductive Names (word : String) : Verb → Prop where
  /-- The table has the word. -/
  | known {verb : Verb} {forms : List String} (hentry : (verb, forms) ∈ vocabulary)
    (hform : word ∈ forms) : Names word verb
  /-- The table does not have the word. -/
  | unknown (h : ∀ entry ∈ vocabulary, word ∉ entry.2) : Names word (.other word)

/-- No form belongs to two verbs. -/
theorem verb_of_form : ∀ entry ∈ vocabulary, ∀ entry' ∈ vocabulary, ∀ form ∈ entry.2,
    form ∈ entry'.2 → entry.1 = entry'.1 := by
  decide +kernel

/-- A form of several words begins with a form of the same verb that is a single word. -/
theorem exists_short_form : ∀ entry ∈ vocabulary, ∀ form ∈ entry.2, ¬Unbroken form.toList →
    ∃ short ∈ entry.2, Unbroken short.toList ∧ short.toList ++ [' '] <+: form.toList := by
  decide +kernel

/-- A word names the verb that the table has for it, or else itself. -/
theorem names_iff {word : String} {verb : Verb} :
    Names word verb ↔ (ofWord? word).getD (.other word) = verb := by
  unfold ofWord?
  cases hfound : vocabulary.find? fun entry => entry.2.contains word with
  | none =>
    -- No form in the table is this word.
    have hnone : ∀ entry ∈ vocabulary, word ∉ entry.2 := fun entry hentry hform =>
      List.find?_eq_none.mp hfound entry hentry (List.contains_iff_mem.mpr hform)
    show Names word verb ↔ Verb.other word = verb
    constructor
    · rintro (⟨hentry, hform⟩ | _)
      · exact absurd hform (hnone _ hentry)
      · rfl
    · rintro rfl
      exact .unknown hnone
  | some entry =>
    -- The table has the word in one place only, so the verb that was found is the one.
    have hentry : entry ∈ vocabulary := List.mem_of_find?_eq_some hfound
    have hcontains : entry.2.contains word = true := by
      simpa using List.find?_some hfound
    have hform : word ∈ entry.2 := List.contains_iff_mem.mp hcontains
    show Names word verb ↔ entry.1 = verb
    constructor
    · rintro (⟨hentry', hform'⟩ | hnone)
      · exact verb_of_form entry hentry _ hentry' word hform hform'
      · exact absurd hform (hnone entry hentry)
    · rintro rfl
      exact .known hentry hform

variable {form line word : String} {rest : List Char}

/-- A line begins with a form if it is the form, or the form and a space come first in it. -/
theorem beginsWith_iff : beginsWith form line = true ↔
    line = form ∨ form.toList ++ [' '] <+: line.toList := by
  unfold beginsWith
  rw [Bool.or_eq_true, beq_iff_eq, List.isPrefixOf_iff_prefix]

/-- What is nothing or begins with a space ends a word. -/
theorem endsWord_of_space (h : rest = [] ∨ rest.head? = some ' ') : EndsWord rest := by
  intro c hc
  rcases h with rfl | h
  · cases hc
  · rw [h] at hc
    cases hc
    decide

/-- A line whose first word is followed by nothing or by a space begins with a form of one word if
that is the first word. -/
theorem beginsWith_word (hform : Unbroken form.toList) (hword : Unbroken word.toList)
    (hline : line.toList = word.toList ++ rest) (hrest : rest = [] ∨ rest.head? = some ' ') :
    beginsWith form line = true ↔ word = form := by
  have hfirst := Text.takeWhile_append hword (endsWord_of_space hrest)
  rw [beginsWith_iff, ← String.toList_inj, hline]
  constructor
  · -- Either way the form is the part of the line before its first blank, and so is the word.
    rintro (heq | ⟨tail, htail⟩)
    · have hwhole : (form.toList ++ []).takeWhile (fun c => !isBlank c) = form.toList :=
        Text.takeWhile_append hform nofun
      rw [List.append_nil] at hwhole
      rw [heq, hwhole] at hfirst
      exact String.toList_inj.mp hfirst.symm
    · have hpart : (form.toList ++ ' ' :: tail).takeWhile (fun c => !isBlank c) = form.toList :=
        Text.takeWhile_append hform (endsWord_of_space (.inr rfl))
      rw [List.append_assoc, List.singleton_append] at htail
      rw [htail, hfirst] at hpart
      exact String.toList_inj.mp hpart
  · rintro rfl
    rcases hrest with rfl | hrest
    · exact .inl (List.append_nil _)
    · obtain ⟨tail, rfl⟩ : ∃ tail, rest = ' ' :: tail := List.head?_eq_some_iff.mp hrest
      exact .inr ⟨tail, by rw [List.append_assoc, List.singleton_append]⟩

/-- A line that begins with a form of several words begins with the first of them. -/
theorem beginsWith_short {short : String} (hshort : short.toList ++ [' '] <+: form.toList)
    (h : beginsWith form line = true) : beginsWith short line = true := by
  rw [beginsWith_iff] at h ⊢
  rcases h with rfl | h
  · exact .inr hshort
  · exact .inr ((hshort.trans (List.prefix_append _ _)).trans h)

/-- The verb of a line is that of its first word, if nothing or a space follows this word. -/
theorem ofLine?_eq (hword : Unbroken word.toList) (hline : line.toList = word.toList ++ rest)
    (hrest : rest = [] ∨ rest.head? = some ' ') : ofLine? line = ofWord? word := by
  unfold ofLine? ofWord?
  rw [← List.head?_filter, ← List.head?_filter]
  congr 2
  refine List.filter_congr fun entry hentry => ?_
  rw [Bool.eq_iff_iff, List.any_eq_true, List.contains_iff_mem]
  constructor
  · rintro ⟨form, hform, hbegins⟩
    by_cases hone : Unbroken form.toList
    · exact (beginsWith_word hone hword hline hrest).mp hbegins ▸ hform
    · obtain ⟨short, hmem, hshort, hprefix⟩ := exists_short_form entry hentry form hform hone
      have hbegins' := beginsWith_short hprefix hbegins
      exact (beginsWith_word hshort hword hline hrest).mp hbegins' ▸ hmem
  · intro hmem
    exact ⟨word, hmem, (beginsWith_word hword hword hline hrest).mpr rfl⟩

end Verb

namespace Command

/-- The line that is read: without blanks at its ends and in lower case. -/
def lineOf (text : String) : String := LetterCase.lower (Text.trim text)

/-- The command that the words of a line mean. -/
def ofWords (text : String) (words : List String) : Command :=
  match soleDirection? words with
  | some direction => ⟨.go, none, none, some direction, text⟩
  | none =>
    let first := words.head?.getD ""
    let verb := (Verb.ofWord? first).getD (.other first)
    let (object, target, direction) := arguments verb words
    ⟨verb, object, target, direction, text⟩

/-- The line that is read has no blank at its ends. -/
theorem trimmed_lineOf (text : String) : Trimmed (lineOf text).toList := by
  unfold lineOf LetterCase.lower Text.trim
  rw [String.toList_ofList, String.toList_ofList]
  exact (Text.trimmed_trimList _).lowerList

/-- A command is read off the words of its line if there is no more than one, or if a space follows
the first. -/
theorem parse_eq_ofWords {text : String} (h : (Text.words (lineOf text)).length ≤ 1 ∨
    Text.firstGap (lineOf text).toList = some ' ') :
    parse text = ofWords text (Text.words (lineOf text)) := by
  -- The first word ends at a blank, and by hypothesis this blank is a space or nothing follows.
  obtain ⟨w, rest, hsplit, hw, -, hfirst, hgap, hlast⟩ := (trimmed_lineOf text).exists_word
  have hrest : rest = [] ∨ rest.head? = some ' ' := by
    rcases h with h | h
    · rw [Text.words, List.length_map] at h
      exact .inl (hlast h)
    · exact .inr (hgap ▸ h)
  have hword : (Text.words (lineOf text)).head?.getD "" = String.ofList w := by
    rw [Text.words, List.head?_map, ← hfirst]
    cases (Text.wordList (lineOf text).toList).head? <;> rfl
  -- The verb is looked for at the start of the line, where the forms of the table are followed by a
  -- space.
  have hverb : Verb.ofLine? (lineOf text) = Verb.ofWord? (String.ofList w) := by
    have hline : (lineOf text).toList = (String.ofList w).toList ++ rest := by
      rw [String.toList_ofList]
      exact hsplit
    refine Verb.ofLine?_eq ?_ hline hrest
    rw [String.toList_ofList]
    exact hw
  rw [← hword] at hverb
  have hparse := parse.eq_1 text
  unfold lineOf at hverb ⊢
  -- From here on it does not matter how the line comes about.
  generalize LetterCase.lower (Text.trim text) = line at hverb hparse ⊢
  rw [hparse, hverb]
  rfl

/-! ### The two halves of a combination -/

/-- Words are cut into two halves at a connective, if there is a word on either side of it and none
of the words before it is a connective, but for the first. -/
structure Splits (words source target : List String) : Prop where
  /-- The halves are on either side of a connective. -/
  cut : ∃ connective, isConnective connective = true ∧ words = source ++ connective :: target
  /-- There is a word before it. -/
  source_ne : source ≠ []
  /-- There is a word behind it. -/
  target_ne : target ≠ []
  /-- It is the first connective behind a word. -/
  first : ∀ word ∈ source.tail, isConnective word = false

/-- The search for the cut, when some words were already passed. What was passed counts as part of
the first half, and only the very first word of it may be a connective. -/
theorem splitFrom_eq_some_iff {passed words source target : List String} :
    splitFrom passed words = some (source, target) ↔
      ∃ new connective, isConnective connective = true ∧ words = new ++ connective :: target ∧
        source = passed.reverse ++ new ∧ source ≠ [] ∧ target ≠ [] ∧
        ∀ word ∈ if passed.isEmpty then new.tail else new, isConnective word = false := by
  -- The search is followed word by word. `passed` grows by the word that is no cut.
  fun_induction splitFrom passed words with
  | case1 passed word next rest hcut =>
    obtain ⟨hword, hpassed⟩ := Bool.and_eq_true_iff.mp hcut
    have hempty : passed.isEmpty = false := by simpa using hpassed
    -- The cut is here, and a later one would have this connective in its first half.
    rw [hempty]
    constructor
    · intro h
      cases h
      refine ⟨[], word, hword, rfl, (List.append_nil _).symm, ?_, List.cons_ne_nil _ _, nofun⟩
      simpa using hempty
    · rintro ⟨new, connective, hconnective, hwords, rfl, -, -, hnone⟩
      cases new with
      | nil =>
        obtain ⟨-, htarget⟩ := List.cons.inj hwords
        rw [htarget, List.append_nil]
      | cons first new =>
        obtain ⟨rfl, -⟩ := List.cons.inj hwords
        have hno := hnone word List.mem_cons_self
        rw [hword] at hno
        cases hno
  | case2 passed word next rest hcut ih =>
    rw [ih, List.reverse_cons]
    -- No cut at `word`, and so a first half here is one of the rest with `word` in front.
    constructor
    · rintro ⟨new, connective, hconnective, hwords, hsource, hne, htarget, hnone⟩
      refine ⟨word :: new, connective, hconnective, by rw [hwords]; rfl, ?_, hne, htarget, ?_⟩
      · rw [hsource, List.append_assoc, List.singleton_append]
      · cases hpassed : passed.isEmpty with
        | true => exact hnone
        | false =>
          have hword : isConnective word = false := by simpa [hpassed] using hcut
          intro w hw
          rcases List.mem_cons.mp hw with rfl | hw
          · exact hword
          · exact hnone w hw
    -- The other way round, a first half that is empty would make `word` the cut.
    · rintro ⟨new, connective, hconnective, hwords, hsource, hne, htarget, hnone⟩
      cases new with
      | nil =>
        obtain ⟨rfl, -⟩ := List.cons.inj hwords
        have hempty : passed = [] := by simpa [hconnective] using hcut
        rw [hempty] at hsource
        exact absurd hsource hne
      | cons first new =>
        obtain ⟨rfl, hrest⟩ := List.cons.inj hwords
        refine ⟨new, connective, hconnective, hrest, ?_, hne, htarget, fun w hw => ?_⟩
        · rw [hsource, List.append_assoc, List.singleton_append]
        · refine hnone w ?_
          split
          · exact hw
          · exact List.mem_cons_of_mem _ hw
  | case3 passed words hshort =>
    constructor
    · intro h
      cases h
    · rintro ⟨new, connective, hconnective, hwords, hsource, hne, htarget, hnone⟩
      obtain ⟨next, target, rfl⟩ := List.exists_cons_of_ne_nil htarget
      -- There is a word behind the cut, and one at it.
      cases new with
      | nil => exact absurd hwords (hshort connective next target)
      | cons first new =>
        cases new with
        | nil => exact absurd hwords (hshort first connective (next :: target))
        | cons second new => exact absurd hwords (hshort first second _)

/-- The two halves of a combination are those at the first connective behind a word. -/
theorem splitCombination_eq_some_iff {words source target : List String} :
    splitCombination words = some (source, target) ↔ Splits words source target := by
  unfold splitCombination
  rw [splitFrom_eq_some_iff]
  constructor
  · rintro ⟨new, connective, hconnective, hwords, rfl, hsource, htarget, hfirst⟩
    exact ⟨⟨connective, hconnective, hwords⟩, hsource, htarget, hfirst⟩
  · rintro ⟨⟨connective, hconnective, hwords⟩, hsource, htarget, hfirst⟩
    exact ⟨source, connective, hconnective, hwords, rfl, hsource, htarget, hfirst⟩

/-! ### What the words of a line mean -/

/-- What the words of a line give to a verb: an object, a target and a direction. -/
inductive Gives : Verb → List String → Option String → Option String → Option Direction → Prop where
  /-- The first word that is a direction is where to go. -/
  | direction {before after : List String} {word : String} {direction : Direction}
    (hbefore : ∀ w ∈ before, Direction.ofWord? w = none)
    (hword : Direction.ofWord? word = some direction) :
    Gives .go (before ++ word :: after) none none (some direction)
  /-- Without a direction, the second word is what to go to. -/
  | nowhere {words : List String} (hnone : ∀ w ∈ words, Direction.ofWord? w = none) :
    Gives .go words words[1]? none none
  /-- Two halves are combined with each other. -/
  | combined {words source target : List String} (hsplits : Splits (words.drop 1) source target) :
    Gives .combine words (some (" ".intercalate source)) (some (" ".intercalate target)) none
  /-- Without two halves, everything behind the verb is combined with nothing. -/
  | whole {words : List String} (hnone : ∀ source target, ¬Splits (words.drop 1) source target) :
    Gives .combine words (phraseOf (words.drop 1)) none none
  /-- Any other verb acts on everything behind it. -/
  | rest {verb : Verb} {words : List String} (hgo : verb ≠ .go) (hcombine : verb ≠ .combine) :
    Gives verb words (phraseOf (words.drop 1)) none none

/-- What a text with these words means. -/
inductive Means (text : String) : List String → Command → Prop where
  /-- A single word that is a direction is a way to go. -/
  | direction {word : String} {direction : Direction}
    (hword : Direction.ofWord? word = some direction) :
    Means text [word] ⟨.go, none, none, some direction, text⟩
  /-- In any other line the first word names the verb, and the words give it its arguments. -/
  | verb {words : List String} {verb : Verb} {object target : Option String}
    {direction : Option Direction}
    (hwords : ∀ word, words = [word] → Direction.ofWord? word = none)
    (hverb : Verb.Names (words.head?.getD "") verb)
    (hgives : Gives verb words object target direction) :
    Means text words ⟨verb, object, target, direction, text⟩

/-- The halves of a combination are never empty, and so they are phrases. -/
theorem phraseOf_of_ne_nil {words : List String} (h : words ≠ []) :
    phraseOf words = some (" ".intercalate words) := by
  unfold phraseOf
  rw [List.isEmpty_eq_false_iff.mpr h]
  rfl

/-- The arguments of a verb are what the words give to it. -/
theorem arguments_eq_iff {verb : Verb} {words : List String} {object target : Option String}
    {direction : Option Direction} : arguments verb words = (object, target, direction) ↔
      Gives verb words object target direction := by
  constructor
  -- The three kinds of verb that `arguments` tells apart: combining, going, and all others.
  · intro h
    unfold arguments at h
    dsimp only at h
    split at h
    · split at h
      · next source target hsplit =>
        have hsplits := splitCombination_eq_some_iff.mp hsplit
        rw [phraseOf_of_ne_nil hsplits.source_ne, phraseOf_of_ne_nil hsplits.target_ne] at h
        cases h
        exact .combined hsplits
      · next hnone =>
        cases h
        refine .whole fun source target hsplits => ?_
        rw [splitCombination_eq_some_iff.mpr hsplits] at hnone
        cases hnone
    · split at h
      · next direction hsome =>
        cases h
        obtain ⟨before, word, after, rfl, hword, hbefore⟩ := List.findSome?_eq_some_iff.mp hsome
        exact .direction hbefore hword
      · next hnone =>
        cases h
        rw [List.head?_drop]
        exact .nowhere (List.findSome?_eq_none_iff.mp hnone)
    · next hcombine hgo =>
      cases h
      exact .rest hgo hcombine
  · intro h
    -- Each rule determines what the search in it finds.
    cases h with
    | @direction before after word direction hbefore hword =>
      have hsome := List.findSome?_eq_some_iff.mpr ⟨before, word, after, rfl, hword, hbefore⟩
      simp only [arguments, hsome]
    | nowhere hnone =>
      simp only [arguments, List.findSome?_eq_none_iff.mpr hnone, List.head?_drop]
    | combined hsplits =>
      simp only [arguments, splitCombination_eq_some_iff.mpr hsplits,
        phraseOf_of_ne_nil hsplits.source_ne, phraseOf_of_ne_nil hsplits.target_ne]
    | whole hnone =>
      have hsplit : splitCombination (words.drop 1) = none := by
        cases hsplit : splitCombination (words.drop 1) with
        | none => rfl
        | some halves => exact absurd (splitCombination_eq_some_iff.mp hsplit) (hnone _ _)
      simp only [arguments, hsplit]
    | rest hgo hcombine =>
      unfold arguments
      split
      · exact absurd rfl hcombine
      · exact absurd rfl hgo
      · rfl

/-- No single direction is all there is, if the words are not a single direction. -/
theorem soleDirection?_eq_none_iff {words : List String} : soleDirection? words = none ↔
    ∀ word, words = [word] → Direction.ofWord? word = none := by
  unfold soleDirection?
  constructor
  · rintro h word rfl
    exact h
  · intro h
    split
    · exact h _ rfl
    · rfl

/-- The command that is read off words is what they mean. -/
theorem ofWords_eq_iff {text : String} {words : List String} {command : Command} :
    ofWords text words = command ↔ Means text words command := by
  constructor
  -- A single word that is a direction goes there. Otherwise the first word is the verb.
  · rintro rfl
    unfold ofWords
    split
    · next direction hsole =>
      unfold soleDirection? at hsole
      split at hsole
      · exact .direction hsole
      · cases hsole
    · next hsole =>
      exact .verb (soleDirection?_eq_none_iff.mp hsole) (Verb.names_iff.mpr rfl)
        (arguments_eq_iff.mp rfl)
  · intro h
    cases h with
    | @direction word direction hword =>
      have hsole : soleDirection? [word] = some direction := hword
      simp only [ofWords, hsole]
    | verb hwords hverb hgives =>
      simp only [ofWords, soleDirection?_eq_none_iff.mpr hwords, Verb.names_iff.mp hverb,
        arguments_eq_iff.mpr hgives]

/-- A text means what its words mean, if it has no more than one or a space follows the first: the
command that is read is the only one that the words allow. -/
theorem parse_eq_iff {text : String} {command : Command}
    (h : (Text.words (lineOf text)).length ≤ 1 ∨
      Text.firstGap (lineOf text).toList = some ' ') :
    parse text = command ↔ Means text (Text.words (lineOf text)) command := by
  rw [parse_eq_ofWords h]
  exact ofWords_eq_iff

/-- Two halves are combined, however they are spaced. -/
theorem parse_eq_combination :
    Text.firstGap (lineOf " Kombiniere Rote  Lampe mit Seil ").toList = some ' ' ∧
      parse " Kombiniere Rote  Lampe mit Seil " = ⟨.combine, some "rote lampe", some "seil", none,
        " Kombiniere Rote  Lampe mit Seil "⟩ := by
  have hgap : Text.firstGap (lineOf " Kombiniere Rote  Lampe mit Seil ").toList = some ' ' := by
    decide +kernel
  have hwords : Text.words (lineOf " Kombiniere Rote  Lampe mit Seil ") =
      ["kombiniere", "rote", "lampe", "mit", "seil"] := by
    decide +kernel
  refine ⟨hgap, (parse_eq_iff (.inr hgap)).mpr ?_⟩
  rw [hwords]
  have hsplits : Splits ["rote", "lampe", "mit", "seil"] ["rote", "lampe"] ["seil"] :=
    ⟨⟨"mit", by decide, rfl⟩, by decide, by decide, by decide⟩
  have hentry : (Verb.combine, ["kombiniere", "combine"]) ∈ Verb.vocabulary := by decide +kernel
  have hgives : Gives .combine ["kombiniere", "rote", "lampe", "mit", "seil"] (some "rote lampe")
      (some "seil") none :=
    @Gives.combined ["kombiniere", "rote", "lampe", "mit", "seil"] _ _ hsplits
  exact .verb (fun word h => by cases h) (.known hentry (by decide)) hgives

end Command

end TextAdventure
