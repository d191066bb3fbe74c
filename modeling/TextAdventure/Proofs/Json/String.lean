import Mathlib.Tactic.SplitIfs
import TextAdventure.Json.Reader
import TextAdventure.Json.Writer

/-!
# Strings in JSON texts

A string that is written is scanned as its characters, one piece each: control characters without a
short escape come as units, and no unit is half of a surrogate pair. Bytes that are a text at all
are those of one text (`fromUTF8?_eq_some`).
-/

namespace TextAdventure

/-- A text is read back from its bytes, and from no others. -/
theorem fromUTF8?_eq_some {bytes : ByteArray} {text : String} :
    String.fromUTF8? bytes = some text ↔ bytes = text.toUTF8 := by
  unfold String.fromUTF8?
  constructor
  · intro h
    split_ifs at h
    cases h
    rfl
  · rintro rfl
    have hvalid : text.toUTF8.IsValidUTF8 := text.isValidUTF8
    rw [dif_pos hvalid]
    rfl

end TextAdventure

namespace TextAdventure.Json.Reader

open Writer (escape hexDigit quote)

variable {cs : List Char}

/-- A hexadecimal digit stands for its number. -/
theorem hexValue?_hexDigit {n : Nat} (h : n < 16) : hexValue? (hexDigit n) = some n := by
  have hall : ∀ m < 16, hexValue? (hexDigit m) = some m := by decide
  exact hall n h

/-- The piece as which a character is written. -/
def pieceOf (c : Char) : Piece :=
  if c.toNat < 0x20 ∧ c ∉ ['\x08', '\x0c', '\n', '\r', '\t'] then .unit c.toNat else .char c

/-- A short escape is scanned as the character that it stands for. -/
theorem scanString_short {e c : Char} (h : shortEscape? e = some c) :
    scanString ('\\' :: e :: cs) = (scanString cs).map fun p => (.char c :: p.1, p.2) := by
  have hne : e ≠ 'u' := by
    rintro rfl
    cases h
  rw [scanString, h]
  · cases scanString cs <;> rfl
  · intro _ _ _ _ _ heq
    exact absurd heq hne

/-- An escape with four digits is scanned as the unit that it stands for. -/
theorem scanString_unit {a b c d : Char} {n : Nat} (h : hexValue4? a b c d = some n) :
    scanString ('\\' :: 'u' :: a :: b :: c :: d :: cs) =
      (scanString cs).map fun p => (.unit n :: p.1, p.2) := by
  rw [scanString, h]
  cases scanString cs <;> rfl

/-- A character that needs no escape is scanned as itself. -/
theorem scanString_plain {c : Char} (hquote : c ≠ '"') (hslash : c ≠ '\\') (hc : ¬ c.toNat < 0x20) :
    scanString (c :: cs) = (scanString cs).map fun p => (.char c :: p.1, p.2) := by
  rw [scanString]
  · have hguard : (decide (c.toNat < 0x20) || c == '\\') = false := by simp [hc, hslash]
    rw [if_neg (by rw [hguard]; decide)]
    cases scanString cs <;> rfl
  · intro heq
    exact hquote heq
  · intro _ _ _ _ _ heq
    exact absurd heq hslash
  · intro _ _ heq
    exact absurd heq hslash

/-- A character that is written in a string is scanned as its piece. -/
theorem scanString_escape (c : Char) :
    scanString (escape c ++ cs) = (scanString cs).map fun p => (pieceOf c :: p.1, p.2) := by
  have hshort : ∀ {e c : Char}, shortEscape? e = some c → pieceOf c = .char c →
      scanString ('\\' :: e :: cs) = (scanString cs).map fun p => (pieceOf c :: p.1, p.2) := by
    intro e c he hc
    rw [scanString_short he, hc]
  unfold escape
  simp only [beq_iff_eq]
  -- The seven short escapes, the other control characters, and the characters without escape.
  split_ifs with h1 h2 h3 h4 h5 h6 h7 h8
  · rw [h1]
    exact hshort rfl rfl
  · rw [h2]
    exact hshort rfl rfl
  · rw [h3]
    exact hshort rfl rfl
  · rw [h4]
    exact hshort rfl rfl
  · rw [h5]
    exact hshort rfl rfl
  · rw [h6]
    exact hshort rfl rfl
  · rw [h7]
    exact hshort rfl rfl
  -- A control character without a short escape is written with its code in four digits.
  · have hunit : pieceOf c = .unit c.toNat := by
      unfold pieceOf
      rw [if_pos ⟨h8, by simp [h3, h4, h5, h6, h7]⟩]
    have hvalue : hexValue4? '0' '0' (hexDigit (c.toNat / 16)) (hexDigit (c.toNat % 16)) =
        some c.toNat := by
      have hzero : hexValue? '0' = some 0 := rfl
      have hsum : (0 * 16 + 0) * 256 + c.toNat / 16 * 16 + c.toNat % 16 = c.toNat := by omega
      unfold hexValue4?
      rw [hzero, hexValue?_hexDigit (by omega), hexValue?_hexDigit (by omega)]
      exact congrArg some hsum
    rw [hunit]
    exact scanString_unit hvalue
  -- Everything else stands for itself.
  · have hchar : pieceOf c = .char c := by
      unfold pieceOf
      rw [if_neg fun h => h8 h.1]
    rw [hchar]
    exact scanString_plain h1 h2 h8

/-- A string that is written is scanned piece by piece. -/
theorem scanString_quote (s rest : List Char) :
    scanString (s.flatMap escape ++ '"' :: rest) = some (s.map pieceOf, rest) := by
  induction s with
  | nil => rw [List.flatMap_nil, List.nil_append, scanString]; rfl
  | cons c s ih =>
    rw [List.flatMap_cons, List.append_assoc, scanString_escape, ih]
    rfl

/-- A piece that is no half of a surrogate pair stands for its character. -/
theorem joinPieces_pieceOf (c : Char) (ps : List Piece) :
    joinPieces (pieceOf c :: ps) = (joinPieces ps).map (c :: ·) := by
  unfold pieceOf
  split_ifs with h
  · -- A unit that is written is a control character, so no half of a surrogate pair.
    have hhigh : isHighSurrogate c.toNat = false := by
      unfold isHighSurrogate
      simp only [Bool.and_eq_false_iff, decide_eq_false_iff_not]
      omega
    have hlow : isLowSurrogate c.toNat = false := by
      unfold isLowSurrogate
      simp only [Bool.and_eq_false_iff, decide_eq_false_iff_not]
      omega
    rcases ps with _ | ⟨_ | _, ps⟩
    · simp [joinPieces, hhigh, hlow, Char.ofNat_toNat]
    · simp [joinPieces, hhigh, hlow, Char.ofNat_toNat]
    · simp [joinPieces, hhigh, hlow, Char.ofNat_toNat]
  · rw [joinPieces]

/-- The pieces as which a string is written stand for the string. -/
theorem stringOf?_pieceOf (s : String) : stringOf? (s.toList.map pieceOf) = some s := by
  have hjoin : ∀ cs : List Char, joinPieces (cs.map pieceOf) = some cs := by
    intro cs
    induction cs with
    | nil => rfl
    | cons c cs ih =>
      rw [List.map_cons, joinPieces_pieceOf, ih]
      rfl
  unfold stringOf?
  rw [hjoin, Option.map_some, String.ofList_toList]

end TextAdventure.Json.Reader
