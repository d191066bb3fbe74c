import Mathlib.Tactic.SplitIfs
import TextAdventure.Preview
import TextAdventure.Proofs.Json.String

/-!
# What a preview keeps

A preview holds no control character, so it is one line (`Preview.printable_previewList`,
`Text.lineList_of_notMem`). Each character is escaped by itself, and what was written for it can be
told from what follows (`Preview.unescape?_escapeChar`). So the text is read back from its escaped
form, whatever it holds (`Preview.unescape?_escapeList`), and a preview loses only what lies behind
the cut, which falls between two characters of the text (`Preview.previews_read_back`).
-/

namespace TextAdventure

/-- A text without line feeds is no more than one line. -/
theorem Text.length_lineList_le_one {cs : List Char} (h : '\n' ∉ cs) :
    (lineList cs).length ≤ 1 := by
  fun_induction lineList cs with
  | case1 => exact Nat.zero_le 1
  | case2 => exact absurd List.mem_cons_self h
  | case3 => exact absurd (List.mem_cons_of_mem _ List.mem_cons_self) h
  | case4 => exact Nat.le_refl 1
  | case5 c cs _ _ l ls hlines ih =>
    rw [hlines] at ih
    exact ih (mt (List.mem_cons_of_mem c) h)

namespace Preview

open Json.Reader (hexValue? hexValue4?)

/-- A character that is no control character. -/
def Printable (c : Char) : Prop := 0x20 ≤ c.toNat ∧ ¬(0x7F ≤ c.toNat ∧ c.toNat ≤ 0x9F)

instance (c : Char) : Decidable (Printable c) :=
  inferInstanceAs (Decidable (_ ∧ _))

/-- A character is printable if Unicode does not call it a control character. -/
theorem isControl_eq_false_iff {c : Char} : isControl c = false ↔ Printable c := by
  unfold isControl Printable
  simp only [Bool.or_eq_false_iff, Bool.and_eq_false_iff, decide_eq_false_iff_not]
  omega

/-! ### One line -/

/-- A hexadecimal digit is printable. -/
theorem printable_hexDigit {n : Nat} (h : n < 16) : Printable (hexDigit n) := by
  have hall : ∀ m < 16, Printable (hexDigit m) := by decide
  exact hall n h

/-- A control character is one of the first 160 characters. -/
theorem toNat_lt_of_isControl {c : Char} (h : isControl c = true) : c.toNat < 160 := by
  unfold isControl at h
  simp only [Bool.or_eq_true, Bool.and_eq_true, decide_eq_true_eq] at h
  omega

/-- What is written for a character is printable. -/
theorem printable_escapeChar (c : Char) : ∀ d ∈ escapeChar c, Printable d := by
  unfold escapeChar
  simp only [beq_iff_eq]
  split_ifs with hslash hfeed hreturn htab hcontrol
  · simp [Printable]
  · simp [Printable]
  · simp [Printable]
  · simp [Printable]
  -- A code below 256 has two digits, and the others of the four are zeros.
  · have hlt := toNat_lt_of_isControl hcontrol
    have hhigh := printable_hexDigit (n := c.toNat / 16) (by omega)
    have hlow := printable_hexDigit (n := c.toNat % 16) (by omega)
    have hrest : ∀ d ∈ ['\\', 'u', '\x7b', '0', '0', '\x7d'], Printable d := by simp [Printable]
    intro d hd
    simp only [hexDigits, List.cons_append, List.nil_append, List.mem_cons, List.not_mem_nil,
      or_false] at hd
    rcases hd with rfl | rfl | rfl | rfl | rfl | rfl | rfl | rfl
    · exact hrest _ (by decide)
    · exact hrest _ (by decide)
    · exact hrest _ (by decide)
    · exact hrest _ (by decide)
    · exact hrest _ (by decide)
    · exact hhigh
    · exact hlow
    · exact hrest _ (by decide)
  -- Without an escape the character is no control character.
  · intro d hd
    rw [List.mem_singleton.mp hd]
    exact isControl_eq_false_iff.mp (Bool.eq_false_iff.mpr hcontrol)

/-- A preview is printable. -/
theorem printable_previewList (cs : List Char) : ∀ d ∈ previewList cs, Printable d := by
  intro d hd
  rcases List.mem_append.mp hd with hd | hd
  · obtain ⟨c, -, hd⟩ := List.mem_flatMap.mp hd
    exact printable_escapeChar c d hd
  · split_ifs at hd
    · rw [List.mem_singleton.mp hd]
      decide
    · cases hd

/-! ### Reading an escaped text -/

/-- The text whose escaped form is given. A backslash always begins an escape. -/
def unescape? : List Char → Option (List Char)
  | [] => some []
  | '\\' :: '\\' :: cs => (unescape? cs).map ('\\' :: ·)
  | '\\' :: 'n' :: cs => (unescape? cs).map ('\n' :: ·)
  | '\\' :: 'r' :: cs => (unescape? cs).map ('\r' :: ·)
  | '\\' :: 't' :: cs => (unescape? cs).map ('\t' :: ·)
  | '\\' :: 'u' :: '\x7b' :: a :: b :: c :: d :: '\x7d' :: cs => do
    let n ← hexValue4? a b c d
    (unescape? cs).map (Char.ofNat n :: ·)
  | '\\' :: _ => none
  | c :: cs => (unescape? cs).map (c :: ·)

/-- The digits of a control character stand for its code point. -/
theorem hexValue4?_hexDigits {c : Char} (h : c.toNat < 256) :
    hexValue4? '0' '0' (hexDigit (c.toNat / 16)) (hexDigit (c.toNat % 16)) = some c.toNat := by
  have hzero : hexValue? '0' = some 0 := rfl
  have hhigh : hexValue? (hexDigit (c.toNat / 16)) = some (c.toNat / 16) :=
    Json.Reader.hexValue?_hexDigit (by omega)
  have hlow : hexValue? (hexDigit (c.toNat % 16)) = some (c.toNat % 16) :=
    Json.Reader.hexValue?_hexDigit (by omega)
  have hsum : (0 * 16 + 0) * 256 + c.toNat / 16 * 16 + c.toNat % 16 = c.toNat := by omega
  unfold hexValue4?
  rw [hzero, hhigh, hlow]
  exact congrArg some hsum

/-- What was written for a character is read as the character, whatever follows. -/
theorem unescape?_escapeChar (c : Char) (cs : List Char) :
    unescape? (escapeChar c ++ cs) = (unescape? cs).map (c :: ·) := by
  unfold escapeChar
  simp only [beq_iff_eq]
  split_ifs with hslash hfeed hreturn htab hcontrol
  · rw [hslash]
    rfl
  · rw [hfeed]
    rfl
  · rw [hreturn]
    rfl
  · rw [htab]
    rfl
  · have hlt := toNat_lt_of_isControl hcontrol
    show (hexValue4? '0' '0' (hexDigit (c.toNat / 16)) (hexDigit (c.toNat % 16))).bind _ = _
    rw [hexValue4?_hexDigits (by omega), Option.bind_some, Char.ofNat_toNat]
    rfl
  · -- Only a backslash begins an escape.
    rw [List.singleton_append, unescape?] <;> simp [hslash]

/-- A text is read back from its escaped form. -/
theorem unescape?_escapeList (cs : List Char) : unescape? (escapeList cs) = some cs := by
  induction cs with
  | nil => rfl
  | cons c cs ih =>
    unfold escapeList at ih ⊢
    rw [List.flatMap_cons, unescape?_escapeChar, ih, Option.map_some]

/-! ### Previews -/

/-- The preview of a text that is not too long is its escaped form. -/
theorem previewList_of_length_le {cs : List Char} (h : cs.length ≤ maxLength) :
    previewList cs = escapeList cs := by
  unfold previewList
  rw [if_neg (by omega), List.append_nil, List.take_of_length_le h]

/-- The preview of a text that is too long is that of its beginning, with the mark of the cut. -/
theorem previewList_of_length_gt {cs : List Char} (h : maxLength < cs.length) :
    previewList cs = previewList (cs.take maxLength) ++ [cutMark] := by
  rw [previewList_of_length_le (List.length_take_le _ _)]
  unfold previewList
  rw [if_pos h]

/-- A preview is one line without control characters. A text of at most 200 characters is read back
from its preview, so different texts have different previews. The preview of a longer text is that
of its first 200 characters and the mark of the cut. -/
theorem previews_read_back (s : String) :
    (∀ c ∈ (escape s).toList, Printable c) ∧ (Text.lines (escape s)).length ≤ 1 ∧
      (s.length ≤ 200 → unescape? (escape s).toList = some s.toList ∧
        ∀ t : String, t.length ≤ 200 → escape t = escape s → t = s) ∧
      (200 < s.length → escape s = escape (String.ofList (s.toList.take 200)) ++ "…") := by
  have hescape : ∀ t : String, (escape t).toList = previewList t.toList :=
    fun t => String.toList_ofList
  have hread : ∀ t : String, t.length ≤ 200 → unescape? (escape t).toList = some t.toList := by
    intro t ht
    rw [hescape, previewList_of_length_le ht, unescape?_escapeList]
  have hprintable : ∀ c ∈ (escape s).toList, Printable c := by
    rw [hescape]
    exact printable_previewList s.toList
  refine ⟨hprintable, ?_, fun hs => ⟨hread s hs, fun t ht heq => ?_⟩, fun hs => ?_⟩
  · unfold Text.lines
    rw [List.length_map]
    exact Text.length_lineList_le_one fun hfeed => absurd (hprintable _ hfeed) (by decide)
  · have hsame := hread t ht
    rw [heq, hread s hs] at hsame
    exact (String.toList_inj.mp (Option.some.inj hsame)).symm
  · rw [← String.toList_inj, String.toList_append, hescape, hescape, String.toList_ofList]
    exact previewList_of_length_gt hs

/-- A line with an escape typed by a player and a bell, and the start of a text without end. -/
theorem previews_read_back_noise :
    escape "nord\n\\u0007\x07" = "nord\\n\\\\u0007\\u\x7b0007\x7d" ∧
      unescape? (escape "nord\n\\u0007\x07").toList = some "nord\n\\u0007\x07".toList ∧
      escape (String.ofList (List.replicate 201 '\n')) =
        escape (String.ofList ((String.ofList (List.replicate 201 '\n')).toList.take 200)) ++
          "…" := by
  have hshort := (previews_read_back "nord\n\\u0007\x07").2.2.1 (by decide)
  have hlong := (previews_read_back (String.ofList (List.replicate 201 '\n'))).2.2.2 (by
    rw [String.length_ofList, List.length_replicate]
    decide)
  exact ⟨by decide +kernel, hshort.1, hlong⟩

end Preview

end TextAdventure
