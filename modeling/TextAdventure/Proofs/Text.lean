import TextAdventure.Text
import Mathlib.Data.List.Infix
import Mathlib.Data.List.TakeWhile

/-!
# Words between blanks

A text is *trimmed* if there is no blank at either end. Such a text is its first word, and after it
nothing or a blank (`Text.Trimmed.exists_word`). Texts that are written as words with spaces between
them (`Text.Spaced`) are trimmed, and cut into the same words again (`Text.Spaced.words`).
-/

namespace TextAdventure.Text

/-- No character of the text is a blank. -/
def Unbroken (cs : List Char) : Prop := ∀ c ∈ cs, isBlank c = false

instance (cs : List Char) : Decidable (Unbroken cs) :=
  List.decidableBAll (fun c => isBlank c = false) cs

/-- A word ends before the text: there is nothing or a blank. -/
def EndsWord (cs : List Char) : Prop := ∀ c ∈ cs.head?, isBlank c = true

/-- There is no blank at the ends of the text. -/
structure Trimmed (cs : List Char) : Prop where
  /-- The first character is no blank. -/
  first : ∀ c ∈ cs.head?, isBlank c = false
  /-- The last character is no blank. -/
  last : ∀ c ∈ cs.getLast?, isBlank c = false

/-- The blank behind the first word of a text, if there is one. -/
def firstGap (cs : List Char) : Option Char :=
  ((cs.dropWhile isBlank).dropWhile fun c => !isBlank c).head?

variable {cs w rest : List Char}

/-! ### Taking off the blanks -/

/-- A text that does not begin with a blank has none to take off in front. -/
theorem dropWhile_of_first (h : ∀ c ∈ cs.head?, isBlank c = false) :
    cs.dropWhile isBlank = cs := by
  cases cs with
  | nil => rfl
  | cons c cs =>
    have hc : ¬isBlank c = true := by
      rw [h c rfl]
      decide
    exact List.dropWhile_cons_of_neg hc

/-- What is left when blanks are taken off in front does not begin with a blank. -/
theorem first_dropWhile (cs : List Char) :
    ∀ c ∈ (cs.dropWhile isBlank).head?, isBlank c = false := by
  intro c hc
  have h := List.head?_dropWhile_not isBlank cs
  rw [Option.mem_def.mp hc] at h
  exact h

/-- The end of a text stays when blanks are taken off in front. -/
theorem last_dropWhile (h : ∀ c ∈ cs.getLast?, isBlank c = false) :
    ∀ c ∈ (cs.dropWhile isBlank).getLast?, isBlank c = false := by
  intro c hc
  obtain ⟨pre, hpre⟩ := List.dropWhile_suffix isBlank (l := cs)
  refine h c ?_
  rw [← hpre, List.getLast?_append, Option.mem_def.mp hc]
  rfl

/-- A text without blanks at its ends is left as it is. -/
theorem Trimmed.trimList (h : Trimmed cs) : trimList cs = cs := by
  unfold Text.trimList
  rw [dropWhile_of_first h.first, dropWhile_of_first, List.reverse_reverse]
  rw [List.head?_reverse]
  exact h.last

/-- Taking off the blanks leaves a text without blanks at its ends. -/
theorem trimmed_trimList (cs : List Char) : Trimmed (trimList cs) := by
  unfold trimList
  constructor
  · rw [List.head?_reverse]
    refine last_dropWhile ?_
    rw [List.getLast?_reverse]
    exact first_dropWhile cs
  · rw [List.getLast?_reverse]
    exact first_dropWhile _

/-! ### Cutting into words -/

/-- A blank in front of a text is no part of its words. -/
theorem wordList_cons_of_blank {c : Char} (h : isBlank c = true) (cs : List Char) :
    wordList (c :: cs) = wordList cs := by
  rw [wordList.eq_def]
  exact if_pos h

/-- A character that is no blank goes with the word behind it, unless a blank is behind it. -/
theorem wordList_cons_of_not_blank {c : Char} (h : isBlank c = false) (cs : List Char) :
    wordList (c :: cs) = match cs, wordList cs with
      | d :: _, w :: ws => if isBlank d then [c] :: w :: ws else (c :: w) :: ws
      | _, ws => [c] :: ws := by
  rw [wordList.eq_def]
  exact if_neg (by rw [h]; decide)

/-- Blanks hold no words. -/
theorem wordList_append_of_blank {gap : List Char} (h : ∀ c ∈ gap, isBlank c = true)
    (cs : List Char) : wordList (gap ++ cs) = wordList cs := by
  induction gap with
  | nil => rfl
  | cons c gap ih =>
    rw [List.cons_append, wordList_cons_of_blank (h c List.mem_cons_self)]
    exact ih fun d hd => h d (List.mem_cons_of_mem _ hd)

/-- A word in front of a text is its first word. -/
theorem wordList_append (hne : w ≠ []) (hw : Unbroken w) (hrest : EndsWord rest) :
    wordList (w ++ rest) = w :: wordList rest := by
  induction w with
  | nil => exact absurd rfl hne
  | cons c w ih =>
    have hc : isBlank c = false := hw c List.mem_cons_self
    cases w with
    | nil =>
      -- The word ends here, and so `c` begins a word of its own.
      cases rest with
      | nil => exact wordList_cons_of_not_blank hc []
      | cons d rest =>
        have hd : isBlank d = true := hrest d rfl
        show wordList (c :: d :: rest) = [c] :: wordList (d :: rest)
        rw [wordList_cons_of_not_blank hc]
        cases wordList (d :: rest) with
        | nil => rfl
        | cons v vs => exact if_pos hd
    | cons d w =>
      have hd : isBlank d = false := hw d (by simp)
      have hrec := ih (List.cons_ne_nil d w) fun x hx => hw x (List.mem_cons_of_mem _ hx)
      have hcons : c :: d :: w ++ rest = c :: (d :: w ++ rest) := rfl
      rw [hcons, wordList_cons_of_not_blank hc, hrec]
      exact if_neg (by rw [hd]; decide)

/-- A text without words holds blanks only. -/
theorem isBlank_of_wordList_eq_nil (h : wordList cs = []) : ∀ c ∈ cs, isBlank c = true := by
  induction cs with
  | nil => simp
  | cons c cs ih =>
    cases hc : isBlank c with
    | true =>
      rw [wordList_cons_of_blank hc] at h
      intro d hd
      rcases List.mem_cons.mp hd with rfl | hd
      · exact hc
      · exact ih h d hd
    | false =>
      rw [wordList_cons_of_not_blank hc] at h
      split at h
      · split at h <;> cases h
      · cases h

/-- The part of a text before its first blank. -/
theorem takeWhile_append (hw : Unbroken w) (hrest : EndsWord rest) :
    (w ++ rest).takeWhile (fun c => !isBlank c) = w := by
  rw [List.takeWhile_append_of_pos fun c hc => by rw [hw c hc]; rfl]
  cases rest with
  | nil => exact List.append_nil w
  | cons d rest =>
    rw [List.takeWhile_cons_of_neg (by rw [hrest d rfl]; decide), List.append_nil]

/-- What begins behind the first blank-free part of a text ends a word. -/
theorem endsWord_dropWhile (cs : List Char) : EndsWord (cs.dropWhile fun c => !isBlank c) := by
  intro c hc
  have h := List.head?_dropWhile_not (fun c => !isBlank c) cs
  rw [Option.mem_def.mp hc] at h
  simpa using h

/-- A trimmed text is its first word and what follows it. If that is the only word, nothing
follows; otherwise the first word is followed by the gap behind it. -/
theorem Trimmed.exists_word (h : Trimmed cs) : ∃ w rest, cs = w ++ rest ∧ Unbroken w ∧
    EndsWord rest ∧ (wordList cs).head?.getD [] = w ∧ firstGap cs = rest.head? ∧
    ((wordList cs).length ≤ 1 → rest = []) := by
  cases cs with
  | nil => exact ⟨[], [], rfl, by decide, nofun, rfl, rfl, fun _ => rfl⟩
  | cons c cs =>
    -- The first word is everything up to the first blank.
    have hsplit : (c :: cs).takeWhile (fun c => !isBlank c) ++
      (c :: cs).dropWhile (fun c => !isBlank c) = c :: cs := List.takeWhile_append_dropWhile
    have hw : Unbroken ((c :: cs).takeWhile fun c => !isBlank c) := fun d hd => by
      simpa using List.all_eq_true.mp List.all_takeWhile d hd
    have hends := endsWord_dropWhile (c :: cs)
    have hgap : firstGap (c :: cs) = ((c :: cs).dropWhile fun c => !isBlank c).head? := by
      unfold firstGap
      rw [dropWhile_of_first h.first]
    have hne : (c :: cs).takeWhile (fun c => !isBlank c) ≠ [] := by
      rw [List.takeWhile_cons_of_pos (by rw [h.first c rfl]; rfl)]
      exact List.cons_ne_nil _ _
    revert hsplit hw hends hgap hne
    generalize (c :: cs).takeWhile (fun c => !isBlank c) = w
    generalize (c :: cs).dropWhile (fun c => !isBlank c) = rest
    intro hsplit hw hends hgap hne
    -- So the words of the text are this one and the words of the rest.
    have hwords := wordList_append hne hw hends
    rw [hsplit] at hwords
    refine ⟨w, rest, hsplit.symm, hw, hends, by rw [hwords]; rfl, hgap, fun hlength => ?_⟩
    -- The text ends with what is no blank, so no blanks can follow the only word.
    rw [hwords, List.length_cons] at hlength
    have hnone : wordList rest = [] := List.eq_nil_of_length_eq_zero (by omega)
    have hblank := isBlank_of_wordList_eq_nil hnone
    cases hlast : rest.getLast? with
    | none => exact List.getLast?_eq_none_iff.mp hlast
    | some d =>
      have hd : isBlank d = true := hblank d (List.mem_of_getLast? hlast)
      have hd' : isBlank d = false := by
        refine h.last d ?_
        rw [← hsplit, List.getLast?_append, hlast]
        rfl
      rw [hd] at hd'
      cases hd'

/-! ### Words with spaces between them -/

/-- A text is written as the words, one after the other, with one or more spaces between them. -/
inductive Spaced : List String → String → Prop where
  /-- A single word. -/
  | word (w : String) : Spaced [w] w
  /-- A word before others. -/
  | cons (w : String) (more : Nat) {ws : List String} {text : String} (h : Spaced ws text) :
    Spaced (w :: ws) (w ++ (String.ofList (List.replicate (more + 1) ' ') ++ text))

/-- A string that can be a word: it has a character and no blank. -/
def IsWord (w : String) : Prop := w.toList ≠ [] ∧ Unbroken w.toList

instance (w : String) : Decidable (IsWord w) :=
  inferInstanceAs (Decidable (w.toList ≠ [] ∧ Unbroken w.toList))

/-- A gap is made of blanks. -/
theorem isBlank_of_mem_gap {n : Nat} : ∀ c ∈ List.replicate n ' ', isBlank c = true := by
  intro c hc
  rw [List.eq_of_mem_replicate hc]
  decide

/-- A gap ends the word before it. -/
theorem endsWord_gap (more : Nat) (cs : List Char) :
    EndsWord (List.replicate (more + 1) ' ' ++ cs) := by
  intro c hc
  cases hc
  decide

/-- A word followed by a gap and a text, as characters. -/
theorem toList_spaced (w : String) (more : Nat) (text : String) :
    (w ++ (String.ofList (List.replicate (more + 1) ' ') ++ text)).toList =
      w.toList ++ (List.replicate (more + 1) ' ' ++ text.toList) := by
  rw [String.toList_append, String.toList_append, String.toList_ofList]

variable {ws : List String} {text : String}

/-- A text that is written as words is cut into these words. -/
theorem Spaced.words (h : Spaced ws text) (hws : ∀ w ∈ ws, IsWord w) : Text.words text = ws := by
  have hlist : wordList text.toList = ws.map String.toList := by
    induction h with
    | word w =>
      obtain ⟨hne, hw⟩ := hws w List.mem_cons_self
      have hone : wordList (w.toList ++ []) = w.toList :: wordList [] :=
        wordList_append hne hw nofun
      rw [List.append_nil] at hone
      exact hone
    | cons w more h ih =>
      obtain ⟨hne, hw⟩ := hws w List.mem_cons_self
      rw [toList_spaced, wordList_append hne hw (endsWord_gap more _),
        wordList_append_of_blank isBlank_of_mem_gap,
        ih fun v hv => hws v (List.mem_cons_of_mem _ hv)]
      rfl
  rw [Text.words, hlist, List.map_map]
  have hid : String.ofList ∘ String.toList = id := funext fun _ => String.ofList_toList
  rw [hid, List.map_id]

/-- What is written as words is not empty. -/
theorem Spaced.ne_nil (h : Spaced ws text) (hws : ∀ w ∈ ws, IsWord w) : text.toList ≠ [] := by
  cases h with
  | word => exact (hws text List.mem_cons_self).1
  | cons w more h =>
    rw [toList_spaced]
    exact List.append_ne_nil_of_left_ne_nil (hws w List.mem_cons_self).1 _

/-- A text that is written as words has no blank at its ends. -/
theorem Spaced.trimmed (h : Spaced ws text) (hws : ∀ w ∈ ws, IsWord w) : Trimmed text.toList := by
  induction h with
  | word w =>
    have hw := (hws w List.mem_cons_self).2
    exact ⟨fun c hc => hw c (List.mem_of_head? hc), fun c hc => hw c (List.mem_of_getLast? hc)⟩
  | @cons w more ws text h ih =>
    obtain ⟨hne, hw⟩ := hws w List.mem_cons_self
    have hrest : ∀ v ∈ ws, IsWord v := fun v hv => hws v (List.mem_cons_of_mem _ hv)
    rw [toList_spaced]
    constructor
    · rw [List.head?_append_of_ne_nil _ hne]
      exact fun c hc => hw c (List.mem_of_head? hc)
    · rw [← List.append_assoc, List.getLast?_append_of_ne_nil _ (h.ne_nil hrest)]
      exact (ih hrest).last

/-- Behind the first of several words there is a space. -/
theorem Spaced.firstGap {w : String} (h : Spaced (w :: ws) text) (hne : ws ≠ []) (hw : IsWord w) :
    firstGap text.toList = some ' ' := by
  cases h with
  | word => exact absurd rfl hne
  | @cons _ more _ text h =>
    have hfirst : ∀ c ∈ (w.toList ++ (List.replicate (more + 1) ' ' ++ text.toList)).head?,
        isBlank c = false := by
      rw [List.head?_append_of_ne_nil _ hw.1]
      exact fun c hc => hw.2 c (List.mem_of_head? hc)
    unfold Text.firstGap
    rw [toList_spaced, dropWhile_of_first hfirst,
      List.dropWhile_append_of_pos fun c hc => by rw [hw.2 c hc]; rfl]
    rfl

/-- Words joined by single spaces are written with spaces between them. -/
theorem spaced_intercalate (h : ws ≠ []) : Spaced ws (" ".intercalate ws) := by
  induction ws with
  | nil => exact absurd rfl h
  | cons w ws ih =>
    cases ws with
    | nil =>
      rw [String.intercalate_singleton]
      exact .word w
    | cons v vs =>
      rw [String.intercalate_cons_cons, String.append_assoc]
      exact .cons w 0 (ih (List.cons_ne_nil v vs))

/-! ### Occurrences -/

/-- A text occurs in another if it is a part of it. -/
theorem occursIn_iff {part : List Char} : occursIn part cs = true ↔ part <:+: cs := by
  induction cs with
  | nil => rw [occursIn, List.isEmpty_iff, List.infix_nil]
  | cons c cs ih =>
    rw [occursIn, Bool.or_eq_true, List.isPrefixOf_iff_prefix, ih, List.infix_cons_iff]

end TextAdventure.Text
