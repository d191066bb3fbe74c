import TextAdventure.LetterCase
import TextAdventure.Proofs.Text

/-!
# Lower case and blanks

The lower-case form of a character that is no blank holds no blank: no range of the table leads to
one (`LetterCase.not_blank_of_shift`). So a trimmed text is trimmed in lower case as well
(`Text.Trimmed.lowerList`). In ASCII a text is put in lower case one letter after the other
(`LetterCase.lowerList_of_ascii`), and to do it twice is to do it once.
-/

namespace TextAdventure

namespace LetterCase

open Text (isBlank Unbroken Trimmed)

/-! ### ASCII -/

/-- A text in ASCII. -/
def IsAscii (cs : List Char) : Prop := ∀ c ∈ cs, c.toNat < 128

instance (cs : List Char) : Decidable (IsAscii cs) :=
  List.decidableBAll (fun c : Char => c.toNat < 128) cs

/-- What holds of the first 128 characters holds of each character in ASCII. -/
theorem forall_ascii {P : Char → Prop} (h : ∀ n < 128, P (Char.ofNat n)) {c : Char}
    (hc : c.toNat < 128) : P c :=
  Char.ofNat_toNat c ▸ h c.toNat hc

/-- A letter of ASCII stays in ASCII in lower case, is no blank unless it was one, and is in lower
case once and for all. -/
theorem toLower_of_ascii {c : Char} (h : c.toNat < 128) :
    c.toLower.toNat < 128 ∧ isBlank c.toLower = isBlank c ∧ c.toLower.toLower = c.toLower :=
  forall_ascii (P := fun c => c.toLower.toNat < 128 ∧ isBlank c.toLower = isBlank c ∧
    c.toLower.toLower = c.toLower) (by decide +kernel) h

/-- What is in ASCII in lower case is in ASCII. -/
theorem ascii_of_toLower {c : Char} (h : c.toLower.toNat < 128) : c.toNat < 128 := by
  unfold Char.toLower at h
  split at h
  · next hupper =>
    have hle : c.toNat ≤ 'Z'.toNat := hupper.2
    exact Nat.lt_of_le_of_lt hle (by decide)
  · exact h

/-! ### Blanks -/

/-- The code points of the blanks. -/
def blankCodes : List Nat :=
  [0x09, 0x0A, 0x0B, 0x0C, 0x0D, 0x20, 0x85, 0xA0, 0x1680, 0x2000, 0x2001, 0x2002, 0x2003, 0x2004,
    0x2005, 0x2006, 0x2007, 0x2008, 0x2009, 0x200A, 0x2028, 0x2029, 0x202F, 0x205F, 0x3000]

/-- A blank has one of the code points of blanks. -/
theorem toNat_mem_blankCodes {c : Char} (h : isBlank c = true) : c.toNat ∈ blankCodes := by
  unfold isBlank at h
  simp only [Bool.or_eq_true, Bool.and_eq_true, decide_eq_true_eq, beq_iff_eq] at h
  simp only [blankCodes, List.mem_cons, List.not_mem_nil, or_false]
  omega

/-- No range of the table leads to a blank. -/
theorem not_blank_of_shift : ∀ s ∈ lowerShifts, ∀ b ∈ blankCodes,
    ¬((s.first : Int) + s.shift ≤ b ∧ (b : Int) ≤ s.last + s.shift) := by
  decide +kernel

/-- A code point is that of its character, unless it is that of none. -/
theorem toNat_ofNat_or (n : Nat) : (Char.ofNat n).toNat = n ∨ (Char.ofNat n).toNat = 0 := by
  by_cases hn : n.isValidChar
  · left
    unfold Char.ofNat
    rw [dif_pos hn]
    rfl
  · right
    unfold Char.ofNat
    rw [dif_neg hn]
    rfl

/-- By the table, what is no blank is none in lower case. -/
theorem isBlank_lowerByTable {c : Char} (h : isBlank c = false) :
    isBlank (lowerByTable c) = false := by
  unfold lowerByTable
  dsimp only
  split
  · next s hs =>
    have hmem : s ∈ lowerShifts := List.mem_of_find?_eq_some hs
    have hfound := List.find?_some hs
    simp only [Bool.and_eq_true, decide_eq_true_eq] at hfound
    obtain ⟨⟨hfirst, hlast⟩, -⟩ := hfound
    refine Bool.eq_false_iff.mpr fun hblank => ?_
    have hcode := toNat_mem_blankCodes hblank
    rcases toNat_ofNat_or (c.toNat + s.shift).toNat with hn | hn
    · rw [hn] at hcode
      have hpos : ∀ b ∈ blankCodes, 0 < b := by decide
      have := hpos _ hcode
      exact not_blank_of_shift s hmem _ hcode (by omega)
    · rw [hn] at hcode
      exact absurd hcode (by decide)
  · exact h

/-- The lower-case form of a character is not empty. -/
theorem lowerChar_ne_nil (c : Char) : lowerChar c ≠ [] := by
  unfold lowerChar
  split
  · exact List.cons_ne_nil _ _
  · split <;> exact List.cons_ne_nil _ _

/-- The lower-case form of what is no blank holds no blank. -/
theorem unbroken_lowerChar {c : Char} (h : isBlank c = false) : Unbroken (lowerChar c) := by
  unfold lowerChar
  split
  · next hascii =>
    intro d hd
    rw [List.mem_singleton.mp hd, (toLower_of_ascii hascii).2.1, h]
  · split
    · decide
    · intro d hd
      rw [List.mem_singleton.mp hd, isBlank_lowerByTable h]

/-- The lower-case form of a sigma is no blank. -/
theorem isBlank_lowerSigma (before after : List Char) :
    isBlank (lowerSigma before after) = false := by
  unfold lowerSigma
  split <;> decide

/-- A text in lower case begins with a form of its first character, which holds no blank if the
character is none. -/
theorem exists_lowerAfter_cons (c : Char) (before cs : List Char) :
    ∃ form, form ≠ [] ∧ (isBlank c = false → Unbroken form) ∧
      lowerAfter before (c :: cs) = form ++ lowerAfter (c :: before) cs := by
  rw [lowerAfter]
  split
  · refine ⟨_, List.cons_ne_nil _ _, fun _ d hd => ?_, rfl⟩
    rw [List.mem_singleton.mp hd, isBlank_lowerSigma]
  · exact ⟨_, lowerChar_ne_nil c, unbroken_lowerChar, rfl⟩

/-- In lower case a text begins with no blank if it did not begin with one. -/
theorem first_lowerAfter {before cs : List Char} (h : ∀ c ∈ cs.head?, isBlank c = false) :
    ∀ d ∈ (lowerAfter before cs).head?, isBlank d = false := by
  cases cs with
  | nil => nofun
  | cons c cs =>
    obtain ⟨form, hne, hform, heq⟩ := exists_lowerAfter_cons c before cs
    intro d hd
    rw [heq, List.head?_append_of_ne_nil _ hne] at hd
    exact hform (h c rfl) d (List.mem_of_head? hd)

/-- In lower case a text ends with no blank if it did not end with one. -/
theorem last_lowerAfter {before cs : List Char} (h : ∀ c ∈ cs.getLast?, isBlank c = false) :
    ∀ d ∈ (lowerAfter before cs).getLast?, isBlank d = false := by
  induction cs generalizing before with
  | nil => nofun
  | cons c cs ih =>
    obtain ⟨form, hne, hform, heq⟩ := exists_lowerAfter_cons c before cs
    intro d hd
    rw [heq] at hd
    cases cs with
    | nil =>
      rw [lowerAfter, List.append_nil] at hd
      exact hform (h c rfl) d (List.mem_of_getLast? hd)
    | cons c' cs =>
      -- The last character comes from the rest, which is not empty in lower case either.
      obtain ⟨form', hne', -, heq'⟩ := exists_lowerAfter_cons c' (c :: before) cs
      have hrest : lowerAfter (c :: before) (c' :: cs) ≠ [] := by
        rw [heq']
        exact List.append_ne_nil_of_left_ne_nil hne' _
      rw [List.getLast?_append_of_ne_nil _ hrest] at hd
      exact ih h d hd

end LetterCase

/-- A trimmed text is trimmed in lower case. -/
theorem Text.Trimmed.lowerList {cs : List Char} (h : Text.Trimmed cs) :
    Text.Trimmed (LetterCase.lowerList cs) :=
  ⟨LetterCase.first_lowerAfter h.first, LetterCase.last_lowerAfter h.last⟩

namespace LetterCase

/-! ### ASCII texts -/

/-- A text in ASCII is put in lower case one letter after the other. -/
theorem lowerList_of_ascii {cs : List Char} (h : IsAscii cs) :
    lowerList cs = cs.map Char.toLower := by
  have hafter : ∀ before, lowerAfter before cs = cs.map Char.toLower := by
    induction cs with
    | nil => exact fun _ => rfl
    | cons c cs ih =>
      intro before
      have hc : c.toNat < 128 := h c List.mem_cons_self
      have hsigma : (c == 'Σ') = false := by
        refine beq_false_of_ne fun heq => ?_
        rw [heq] at hc
        exact absurd hc (by decide)
      rw [lowerAfter, hsigma, ih (fun d hd => h d (List.mem_cons_of_mem _ hd))]
      unfold lowerChar
      rw [if_pos hc]
      rfl
  exact hafter []

variable {s t : String}

/-- A string in ASCII is put in lower case one letter after the other. -/
theorem toList_lower_of_ascii (h : IsAscii s.toList) :
    (lower s).toList = s.toList.map Char.toLower := by
  rw [lower, String.toList_ofList, lowerList_of_ascii h]

/-- Two strings in ASCII are in ASCII together. -/
theorem isAscii_append (hs : IsAscii s.toList) (ht : IsAscii t.toList) :
    IsAscii (s ++ t).toList := by
  rw [String.toList_append]
  intro c hc
  exact (List.mem_append.mp hc).elim (hs c) (ht c)

/-- Of two strings in ASCII, each is put in lower case by itself. -/
theorem lower_append_of_ascii (hs : IsAscii s.toList) (ht : IsAscii t.toList) :
    lower (s ++ t) = lower s ++ lower t := by
  rw [← String.toList_inj, String.toList_append, toList_lower_of_ascii (isAscii_append hs ht),
    toList_lower_of_ascii hs, toList_lower_of_ascii ht, String.toList_append, List.map_append]

/-- A gap is in ASCII. -/
theorem isAscii_gap (n : Nat) : IsAscii (String.ofList (List.replicate n ' ')).toList := by
  rw [String.toList_ofList]
  intro c hc
  rw [List.eq_of_mem_replicate hc]
  decide

/-- A gap stays as it is in lower case. -/
theorem lower_gap (n : Nat) :
    lower (String.ofList (List.replicate n ' ')) = String.ofList (List.replicate n ' ') := by
  rw [← String.toList_inj, toList_lower_of_ascii (isAscii_gap n), String.toList_ofList,
    List.map_replicate]
  rfl

/-- In lower case, a string in ASCII stays in ASCII. -/
theorem isAscii_lower (h : IsAscii s.toList) : IsAscii (lower s).toList := by
  rw [toList_lower_of_ascii h]
  intro c hc
  obtain ⟨d, hd, rfl⟩ := List.mem_map.mp hc
  exact (toLower_of_ascii (h d hd)).1

/-- In lower case, a word in ASCII stays a word. -/
theorem isWord_lower (h : IsAscii s.toList) (hword : Text.IsWord s) : Text.IsWord (lower s) := by
  unfold Text.IsWord
  rw [toList_lower_of_ascii h]
  refine ⟨fun hnil => hword.1 (List.map_eq_nil_iff.mp hnil), fun c hc => ?_⟩
  obtain ⟨d, hd, rfl⟩ := List.mem_map.mp hc
  rw [(toLower_of_ascii (h d hd)).2.1, hword.2 d hd]

/-- What is in lower case stays as it is. -/
theorem lower_lower_of_ascii (h : IsAscii s.toList) : lower (lower s) = lower s := by
  rw [← String.toList_inj, toList_lower_of_ascii (isAscii_lower h), toList_lower_of_ascii h,
    List.map_map]
  exact List.map_congr_left fun c hc => (toLower_of_ascii (h c hc)).2.2

/-- A text that is written as words in ASCII is in lower case written as these words in lower
case. -/
theorem spaced_lower {ws : List String} {text : String} (h : Text.Spaced ws text)
    (hws : ∀ w ∈ ws, IsAscii w.toList) :
    IsAscii text.toList ∧ Text.Spaced (ws.map lower) (lower text) := by
  induction h with
  | word w => exact ⟨hws w List.mem_cons_self, .word (lower w)⟩
  | cons w more h ih =>
    have hw := hws w List.mem_cons_self
    obtain ⟨htext, hspaced⟩ := ih fun v hv => hws v (List.mem_cons_of_mem _ hv)
    have hrest := isAscii_append (isAscii_gap (more + 1)) htext
    refine ⟨isAscii_append hw hrest, ?_⟩
    rw [lower_append_of_ascii hw hrest, lower_append_of_ascii (isAscii_gap _) htext, lower_gap]
    exact .cons (lower w) more hspaced

end LetterCase

end TextAdventure
