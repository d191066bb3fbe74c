import TextAdventure.Json.Reader
import TextAdventure.Json.Writer
import TextAdventure.Proofs.Binary64.Scaled

/-!
# Numbers in JSON texts

A number that is written is scanned as a literal, as long as what follows does not go on with a
character of a number (`AfterNumber`). Integers of 64 bits are written as integers and read back. A
floating-point number is written in one of four layouts, each of which keeps its digits. Since these
are rounded more than once when they are read, the number that comes back may be a neighbour of the
one that was written, `Number.reread`; but a number always comes back (`scanNumber_number`), and it
is the one that was written if that has few digits (`Number.reread_short`).
-/

namespace TextAdventure.Json

/-- An integer that a text can hold as an integer. Every floating-point number can be held. -/
def Number.Printable : Number → Prop
  | .integer n => Int64.minValue.toInt ≤ n ∧ n < UInt64.size
  | .real _ => True

namespace Reader

open Decimal (digitList valueOf)

/-- What follows a number does not belong to it. -/
def AfterNumber (rest : List Char) : Prop :=
  ∀ c ∈ rest.head?, c.isDigit = false ∧ c ≠ '.' ∧ c ≠ 'e' ∧ c ≠ 'E'

/-- Digits are scanned up to the first character that is none. -/
theorem scanDigits_append {ds rest : List Char} (hds : ∀ d ∈ ds, d.isDigit = true)
    (hrest : ∀ c ∈ rest.head?, c.isDigit = false) : scanDigits (ds ++ rest) = (ds, rest) := by
  have htake : rest.takeWhile Char.isDigit = [] := by
    cases rest with
    | nil => rfl
    | cons c cs => rw [List.takeWhile_cons, hrest c rfl]; rfl
  have hdrop : rest.dropWhile Char.isDigit = rest := by
    cases rest with
    | nil => rfl
    | cons c cs => rw [List.dropWhile_cons, hrest c rfl]; rfl
  unfold scanDigits
  rw [List.takeWhile_append_of_pos hds, List.dropWhile_append_of_pos hds, htake, hdrop,
    List.append_nil]

/-- The digits of a number may begin a literal: they are not empty, and begin with a zero only if
this is the one digit. -/
theorem guard_digitList (n : Nat) : ((digitList n).isEmpty = false) ∧
    ((digitList n).head? != some '0' || (digitList n).length == 1) = true := by
  obtain ⟨d, ds, heq, -, hzero, hsmall⟩ := Decimal.digitList_eq_cons n
  rw [heq]
  refine ⟨rfl, ?_⟩
  by_cases hn : n = 0
  · simp [hsmall (by omega)]
  · simp [hzero hn]

/-- The parts of a literal are scanned one after the other. -/
theorem scanUnsigned_eq {negative : Bool} {whole fraction rest rest' rest'' : List Char}
    {exponent : Option Int} (hdigits : ∀ d ∈ whole, d.isDigit = true)
    (hguard : whole.isEmpty = false ∧ (whole.head? != some '0' || whole.length == 1) = true)
    (hwhole : ∀ c ∈ rest.head?, c.isDigit = false)
    (hfraction : scanFraction rest = some (fraction, rest'))
    (hexponent : scanExponent rest' = some (exponent, rest'')) :
    scanUnsigned negative (whole ++ rest) =
      some (⟨negative, whole, fraction, exponent⟩, rest'') := by
  unfold scanUnsigned
  rw [scanDigits_append hdigits hwhole]
  simp [hguard.1, hguard.2, hfraction, hexponent, guard]

/-- A text that does not begin with a point has no fraction. -/
theorem scanFraction_none {rest : List Char} (h : ∀ c ∈ rest.head?, c ≠ '.') :
    scanFraction rest = some ([], rest) := by
  cases rest with
  | nil => rfl
  | cons c cs =>
    unfold scanFraction
    split
    · next heq => exact absurd (List.cons.inj heq).1 (h c rfl)
    · rfl

/-- The digits after a point are the fraction. -/
theorem scanFraction_some {ds rest : List Char} (hds : ∀ d ∈ ds, d.isDigit = true) (hne : ds ≠ [])
    (hrest : ∀ c ∈ rest.head?, c.isDigit = false) :
    scanFraction ('.' :: (ds ++ rest)) = some (ds, rest) := by
  simp only [scanFraction, scanDigits_append hds hrest]
  simp [hne]

/-- A text that does not begin with a letter for an exponent has no exponent. -/
theorem scanExponent_none {rest : List Char} (h : ∀ c ∈ rest.head?, c ≠ 'e' ∧ c ≠ 'E') :
    scanExponent rest = some (none, rest) := by
  cases rest with
  | nil => rfl
  | cons c cs =>
    obtain ⟨hlower, hupper⟩ := h c rfl
    simp [scanExponent, hlower, hupper]

/-- The digits of an exponent stand for it. -/
theorem scanExponentDigits_digitList {rest : List Char} (negative : Bool) (n : Nat)
    (hrest : ∀ c ∈ rest.head?, c.isDigit = false) :
    scanExponentDigits negative (digitList n ++ rest) =
      some (some (if negative then -(n : Int) else n), rest) := by
  unfold scanExponentDigits
  rw [scanDigits_append (fun _ => Decimal.isDigit_of_mem_digitList) hrest]
  simp [(guard_digitList n).1, Decimal.valueOf_digitList]

/-- An exponent that is written is scanned. -/
theorem scanExponent_exponentList {rest : List Char} (n : Int)
    (hrest : ∀ c ∈ rest.head?, c.isDigit = false) :
    scanExponent ('e' :: (Binary64.exponentList n ++ rest)) = some (some n, rest) := by
  unfold Binary64.exponentList
  split
  · have habs : -(n.natAbs : Int) = n := by omega
    show scanExponentDigits true (digitList n.natAbs ++ rest) = _
    rw [scanExponentDigits_digitList true _ hrest, if_pos rfl, habs]
  · have habs : (n.natAbs : Int) = n := by omega
    show scanExponentDigits false (digitList n.natAbs ++ rest) = _
    rw [scanExponentDigits_digitList false _ hrest, if_neg (by decide), habs]

/-! ### The decimal of a literal -/

/-- The decimal that a literal with a fraction or an exponent stands for. -/
def Literal.decimal (l : Literal) : Decimal :=
  ⟨valueOf (l.whole ++ l.fraction), l.exponent.getD 0 - l.fraction.length⟩

/-- A literal with a fraction or an exponent is a floating-point number. -/
theorem Literal.number?_eq {l : Literal} (h : l.fraction ≠ [] ∨ l.exponent ≠ none) :
    l.number? = (Binary64.ofScaled l.negative l.taken.digits l.taken.exponent).map .real := by
  unfold Literal.number?
  dsimp only
  rw [if_neg]
  simp only [Bool.and_eq_true, List.isEmpty_iff, Option.isNone_iff_eq_none]
  rintro ⟨⟨hfraction, hexponent⟩, -⟩
  exact h.elim (fun hne => hne hfraction) fun hne => hne hexponent

/-- Digits that stand for a number of 64 bits are all taken. -/
theorem gather_of_lt {start : Nat} {ds : List Char}
    (h : Decimal.valueFrom start ds < UInt64.size) :
    gather start ds = (Decimal.valueFrom start ds, 0) := by
  induction ds generalizing start with
  | nil => rfl
  | cons d ds ih =>
    have hroom : 10 * start + Decimal.digitValue d < UInt64.size :=
      (Decimal.le_valueFrom _ ds).trans_lt h
    rw [gather, if_pos hroom]
    exact ih h

/-- Digits that are taken stand for a number of 64 bits. It is not beyond what all digits stand for,
if zeros are put in the place of those that are left. -/
theorem gather_le {start : Nat} (hstart : start < UInt64.size) (ds : List Char) :
    (gather start ds).1 < UInt64.size ∧
      (gather start ds).1 * Nat.pow 10 (gather start ds).2 ≤ Decimal.valueFrom start ds := by
  induction ds generalizing start with
  | nil => exact ⟨hstart, (Nat.mul_one start).le⟩
  | cons d ds ih =>
    rw [gather]
    split_ifs with hroom
    · exact ih hroom
    · refine ⟨hstart, ?_⟩
      rw [Decimal.valueFrom_eq, List.length_cons]
      exact Nat.le_add_right _ _

/-- What is taken from a literal whose whole part has room in 64 bits is not beyond its decimal. -/
theorem Literal.taken_le {l : Literal} (h : valueOf l.whole < UInt64.size) :
    l.taken.digits < UInt64.size ∧ l.taken.value ≤ l.decimal.value := by
  have hwhole : gather 0 l.whole = (valueOf l.whole, 0) := gather_of_lt h
  obtain ⟨hroom, hle⟩ := gather_le h l.fraction
  have hvalue :
      Decimal.valueFrom (valueOf l.whole) l.fraction = valueOf (l.whole ++ l.fraction) := by
    rw [Decimal.valueFrom_eq, Decimal.valueOf_append]
  rw [hvalue] at hle
  unfold Literal.taken Literal.decimal Decimal.value
  rw [hwhole]
  dsimp only
  refine ⟨hroom, ?_⟩
  generalize gather (valueOf l.whole) l.fraction = g at hle
  generalize l.exponent.getD 0 = e
  -- The digits that are left are moved into the exponent.
  have hexp : e + ((0 : Nat) : Int) - ((l.fraction.length : Int) - g.2) =
      g.2 + (e - l.fraction.length) := by omega
  have hcast : (g.1 : ℚ) * 10 ^ (g.2 : Int) ≤ valueOf (l.whole ++ l.fraction) := by
    rw [Nat.pow_eq] at hle
    rw [zpow_natCast]
    exact_mod_cast hle
  rw [hexp, zpow_add₀ (by norm_num), ← mul_assoc]
  gcongr

/-- Digits of 64 bits are all taken. -/
theorem Literal.taken_eq {l : Literal} (h : l.decimal.digits < UInt64.size) :
    l.taken = l.decimal := by
  have hvalue :
      Decimal.valueFrom (valueOf l.whole) l.fraction = valueOf (l.whole ++ l.fraction) := by
    rw [Decimal.valueFrom_eq, Decimal.valueOf_append]
  replace h : Decimal.valueFrom (valueOf l.whole) l.fraction < UInt64.size := hvalue.trans_lt h
  have hwhole : gather 0 l.whole = (valueOf l.whole, 0) :=
    gather_of_lt ((Decimal.le_valueFrom _ _).trans_lt h)
  unfold taken decimal
  rw [hwhole]
  dsimp only
  rw [gather_of_lt h, hvalue]
  simp

/-- A literal may begin with digits of which the first is not a zero. -/
theorem guard_of_ne_zero {d : Char} {ds : List Char} (hd : d ≠ '0') : (d :: ds).isEmpty = false ∧
    ((d :: ds).head? != some '0' || (d :: ds).length == 1) = true := by
  simp [hd]

/-! ### Layouts -/

/-- A text without a sign is scanned as a literal, whatever follows. The literal stands for a
decimal, and its whole part has room in 64 bits. -/
structure ScansAs (negative : Bool) (text : List Char) (d : Decimal) (l : Literal) : Prop where
  /-- The text is scanned. -/
  scan : ∀ rest, AfterNumber rest → scanUnsigned negative (text ++ rest) = some (l, rest)
  /-- The literal has the sign. -/
  negative : l.negative = negative
  /-- It is no integer. -/
  real : l.fraction ≠ [] ∨ l.exponent ≠ none
  /-- The whole part is short. -/
  whole : valueOf l.whole < UInt64.size
  /-- The literal stands for the decimal. -/
  value : l.decimal.value = d.value
  /-- Its exponent is that of the decimal, unless the decimal is whole and has a zero behind the
  point. -/
  point : l.decimal.exponent = d.exponent ∨ 0 ≤ d.exponent ∧ l.decimal.exponent = -1

/-- Up to nineteen digits have room in 64 bits. -/
theorem valueOf_lt_size {ds : List Char} (hds : ∀ c ∈ ds, c.isDigit = true) (h : ds.length ≤ 19) :
    valueOf ds < UInt64.size := by
  have hpow : Nat.pow 10 ds.length ≤ Nat.pow 10 19 := Nat.pow_le_pow_right (by decide) h
  have hsize : Nat.pow 10 19 < UInt64.size := by decide
  exact (Decimal.valueOf_lt hds).trans (hpow.trans_lt hsize)

section Layouts

variable (negative : Bool) {c : Char} {ds : List Char}

/-- A point is no digit. -/
theorem not_isDigit_point (cs : List Char) : ∀ x ∈ ('.' :: cs).head?, x.isDigit = false := by
  intro x hx
  cases hx
  rfl

/-- The letter of an exponent is no digit. -/
theorem not_isDigit_letter (cs : List Char) : ∀ x ∈ ('e' :: cs).head?, x.isDigit = false := by
  intro x hx
  cases hx
  rfl

/-- Digits with a point before the last of them. -/
theorem scansAs_point {fraction : List Char} (hds : ∀ x ∈ ds ++ fraction, x.isDigit = true)
    (hguard : ds.isEmpty = false ∧ (ds.head? != some '0' || ds.length == 1) = true)
    (hlength : ds.length ≤ 19) (hne : fraction ≠ []) :
    ScansAs negative (ds ++ '.' :: fraction)
      ⟨valueOf (ds ++ fraction), -(fraction.length : Int)⟩ ⟨negative, ds, fraction, none⟩ where
  scan rest hrest := by
    rw [List.append_assoc, List.cons_append]
    exact scanUnsigned_eq (fun x hx => hds x (List.mem_append_left _ hx)) hguard
      (not_isDigit_point _)
      (scanFraction_some (fun x hx => hds x (List.mem_append_right _ hx)) hne
        fun x hx => (hrest x hx).1)
      (scanExponent_none fun x hx => (hrest x hx).2.2)
  negative := rfl
  real := .inl hne
  whole := valueOf_lt_size (fun x hx => hds x (List.mem_append_left _ hx)) hlength
  value := by
    unfold Literal.decimal
    rw [Option.getD_none, zero_sub]
  point := .inl (zero_sub _)

/-- Digits with zeros and a point before them. -/
theorem exists_scansAs_small (hds : ∀ x ∈ ds, x.isDigit = true) (hne : ds ≠ []) (k : Nat) :
    ∃ l, ScansAs negative ('0' :: '.' :: List.replicate k '0' ++ ds)
      ⟨valueOf ds, -(k : Int) - ds.length⟩ l := by
  -- The zeros before the digits are digits that stand for nothing.
  have hall : ∀ x ∈ ['0'] ++ (List.replicate k '0' ++ ds), x.isDigit = true := by
    intro x hx
    rw [← List.append_assoc] at hx
    rcases List.mem_append.mp hx with hx | hx
    · have hzeros : ['0'] ++ List.replicate k '0' = List.replicate (k + 1) '0' := rfl
      rw [hzeros] at hx
      rw [(List.mem_replicate.mp hx).2]
      rfl
    · exact hds x hx
  have hvalue : valueOf (['0'] ++ (List.replicate k '0' ++ ds)) = valueOf ds := by
    have hzero : valueOf ['0'] = 0 := rfl
    rw [Decimal.valueOf_append, Decimal.valueOf_append, Decimal.valueOf_replicate, hzero]
    simp
  have hscan := scansAs_point negative hall ⟨rfl, rfl⟩ (by simp) (by simp [hne])
  have hexp : -((k + ds.length : Nat) : Int) = -(k : Int) - ds.length := by omega
  rw [hvalue, List.length_append, List.length_replicate, hexp] at hscan
  exact ⟨_, hscan⟩

/-- Digits with zeros and a point behind them. -/
theorem exists_scansAs_whole (hds : ∀ x ∈ c :: ds, x.isDigit = true) (hc : c ≠ '0') {k : Nat}
    (hlength : ds.length + k < 19) :
    ∃ l, ScansAs negative (c :: ds ++ List.replicate k '0' ++ ['.', '0'])
      ⟨valueOf (c :: ds), k⟩ l := by
  have hall : ∀ x ∈ (c :: (ds ++ List.replicate k '0')) ++ ['0'], x.isDigit = true := by
    intro x hx
    rw [← List.cons_append, List.append_assoc] at hx
    rcases List.mem_append.mp hx with hx | hx
    · exact hds x hx
    · have hzeros : List.replicate k '0' ++ ['0'] = List.replicate (k + 1) '0' :=
        List.replicate_succ'.symm
      rw [hzeros] at hx
      rw [(List.mem_replicate.mp hx).2]
      rfl
  -- The zeros behind the digits multiply their value, and move into the exponent.
  have hvalue : valueOf ((c :: (ds ++ List.replicate k '0')) ++ ['0']) =
      valueOf (c :: ds) * Nat.pow 10 (k + 1) := by
    have hzero : valueOf ['0'] = 0 := rfl
    rw [← List.cons_append, Decimal.valueOf_append, Decimal.valueOf_append,
      Decimal.valueOf_replicate, hzero, List.length_replicate, List.length_singleton]
    simp only [Nat.pow_eq, Nat.pow_succ]
    ring
  have hscan := scansAs_point negative hall (guard_of_ne_zero hc) (by simp; omega) (by simp)
  refine ⟨_, { hscan with
    value := hscan.value.trans ?_
    point := .inr ⟨Int.natCast_nonneg k, hscan.point.elim id (fun h => absurd h.1 (by simp))⟩ }⟩
  rw [hvalue]
  unfold Decimal.value
  rw [List.length_singleton, Nat.pow_eq]
  push_cast
  rw [zpow_neg, zpow_one, zpow_natCast, pow_succ]
  ring

/-- Digits with a point among them. -/
theorem exists_scansAs_inside (hds : ∀ x ∈ c :: ds, x.isDigit = true) (hc : c ≠ '0') {j : Nat}
    (hj : j < ds.length) (hlength : j < 19) :
    ∃ l, ScansAs negative ((c :: ds).take (j + 1) ++ '.' :: (c :: ds).drop (j + 1))
      ⟨valueOf (c :: ds), -((ds.length - j : Nat) : Int)⟩ l := by
  have hjoin : (c :: ds.take j) ++ ds.drop j = c :: ds := by
    rw [List.cons_append, List.take_append_drop]
  have hshort : (c :: ds.take j).length ≤ 19 := by
    rw [List.length_cons, List.length_take]
    omega
  have hne : ds.drop j ≠ [] := fun hnil => absurd (List.drop_eq_nil_iff.mp hnil) (by omega)
  have hscan := scansAs_point negative (hjoin ▸ hds) (guard_of_ne_zero hc) hshort hne
  rw [hjoin, List.length_drop] at hscan
  exact ⟨_, hscan⟩

/-- A digit, the others as a fraction, and an exponent. -/
theorem scansAs_exponent (hds : ∀ x ∈ c :: ds, x.isDigit = true) (hc : c ≠ '0') (e : Int) :
    ScansAs negative
      ([c] ++ (if ds.isEmpty then [] else '.' :: ds) ++ 'e' :: Binary64.exponentList e)
      ⟨valueOf (c :: ds), e - ds.length⟩ ⟨negative, [c], ds, some e⟩ := by
  have hone : ∀ x ∈ [c], x.isDigit = true := fun x hx =>
    hds x (List.mem_cons.mpr (.inl (List.mem_singleton.mp hx)))
  refine ⟨fun rest hrest => ?_, rfl, .inr (by simp), valueOf_lt_size hone (by simp), rfl, .inl rfl⟩
  have hexponent := scanExponent_exponentList e fun x hx => (hrest x hx).1
  cases ds with
  | nil =>
    exact scanUnsigned_eq hone (guard_of_ne_zero hc) (not_isDigit_letter _)
      (scanFraction_none (by simp)) hexponent
  | cons d ds =>
    have htext : [c] ++ (if (d :: ds).isEmpty then [] else '.' :: d :: ds) ++
        'e' :: Binary64.exponentList e ++ rest =
          [c] ++ '.' :: ((d :: ds) ++ 'e' :: (Binary64.exponentList e ++ rest)) := by simp
    rw [htext]
    exact scanUnsigned_eq hone (guard_of_ne_zero hc) (not_isDigit_point _)
      (scanFraction_some (fun x hx => hds x (List.mem_cons_of_mem _ hx)) (by simp)
        (not_isDigit_letter _)) hexponent

end Layouts

/-- A positive decimal that is written is scanned as a literal that stands for the decimal. -/
theorem exists_scansAs_decimalList (negative : Bool) {d : Decimal} (hd : d.digits ≠ 0) :
    ∃ l, ScansAs negative (Binary64.decimalList d) d l := by
  obtain ⟨c, cs, heq, -, hzero, -⟩ := Decimal.digitList_eq_cons d.digits
  have hc : c ≠ '0' := hzero hd
  have hall : ∀ x ∈ c :: cs, x.isDigit = true := fun x hx =>
    Decimal.isDigit_of_mem_digitList (heq ▸ hx)
  have hvalue : valueOf (c :: cs) = d.digits := by rw [← heq, Decimal.valueOf_digitList]
  have heta : ∀ {m : Nat} {e : Int}, m = d.digits → e = d.exponent → (⟨m, e⟩ : Decimal) = d := by
    rintro _ _ rfl rfl
    rfl
  unfold Binary64.decimalList
  rw [heq]
  extract_lets ds leading tail
  have hlen : (ds.length : Int) = cs.length + 1 := by
    show ((c :: cs).length : Int) = _
    rw [List.length_cons]
    push_cast
    rfl
  have hleading : leading = d.exponent + ds.length - 1 := rfl
  -- The point stands before, behind or among the digits, unless an exponent is written.
  split
  · split
    · have hsmall := exists_scansAs_small negative hall (by simp) (-leading - 1).toNat
      rw [heta hvalue (by rw [List.length_cons]; push_cast; omega)] at hsmall
      exact hsmall
    · split
      · have hwhole := exists_scansAs_whole negative hall hc
          (by omega : cs.length + d.exponent.toNat < 19)
        rw [heta hvalue (by omega)] at hwhole
        exact hwhole
      · obtain ⟨j, hj⟩ : ∃ j, (leading + 1).toNat = j + 1 := ⟨leading.toNat, by omega⟩
        have hinside := exists_scansAs_inside negative hall hc (by omega : j < cs.length) (by omega)
        rw [heta hvalue (by omega)] at hinside
        rw [hj]
        exact hinside
  · have hexponent := scansAs_exponent negative hall hc leading
    rw [heta hvalue (by omega)] at hexponent
    exact ⟨_, hexponent⟩

/-! ### Numbers -/

/-- A sign is scanned before the rest of a number. -/
theorem scanNumber_of_scanUnsigned {negative : Bool} {text rest : List Char} {l : Literal}
    (h : scanUnsigned negative text = some (l, rest)) :
    scanNumber ((if negative then ['-'] else []) ++ text) = some (l, rest) := by
  cases negative with
  | true => exact h
  | false =>
    show scanNumber text = some (l, rest)
    unfold scanNumber
    split
    · -- An unsigned number does not begin with a sign.
      cases h
    · exact h

/-- A literal that stands for a decimal within the limit is read as some number. -/
theorem ScansAs.exists_number? {negative : Bool} {text : List Char} {d : Decimal} {l : Literal}
    (h : ScansAs negative text d l) (hd : d.value ≤ Binary64.limit) :
    ∃ y, l.number? = some (.real y) := by
  obtain ⟨hroom, hle⟩ := Literal.taken_le h.whole
  obtain ⟨y, hy⟩ := Binary64.exists_ofScaled l.negative hroom (hle.trans (h.value.trans_le hd))
  refine ⟨y, ?_⟩
  rw [Literal.number?_eq h.real, hy]
  rfl

/-- The text of the largest number is read as some number. -/
theorem exists_scan_largest (negative : Bool) :
    ∃ l y, (∀ rest, AfterNumber rest → scanUnsigned negative
      (Binary64.decimalList (Binary64.largest negative).shortest ++ rest) = some (l, rest)) ∧
        l.number? = some (.real y) := by
  have hds : ∀ x ∈ '1' :: "7976931348623157".toList, x.isDigit = true :=
    List.all_eq_true.mp (by decide)
  have htext : Binary64.decimalList ⟨17976931348623157, 292⟩ = ['1'] ++
      (if "7976931348623157".toList.isEmpty then [] else '.' :: "7976931348623157".toList) ++
        'e' :: Binary64.exponentList 308 := by decide +kernel
  have hscan := scansAs_exponent negative hds (by decide) 308
  have hsome : ∀ s : Bool, ((⟨s, ['1'], "7976931348623157".toList, some 308⟩ : Literal).number?).any
      (fun n => match n with | .real _ => true | .integer _ => false) = true := by decide +kernel
  rw [Binary64.shortest_largest, htext]
  have hnumber := hsome negative
  rw [Option.any_eq_true] at hnumber
  obtain ⟨n, hn, hreal⟩ := hnumber
  cases n with
  | integer _ => cases hreal
  | real y => exact ⟨_, y, hscan.scan, hn⟩

/-- The text of a number other than zero is a sign and the shortest decimal. -/
theorem scanNumber_shortest {x : Binary64} {l : Literal} (hx : x.significand ≠ 0)
    (h : ∀ rest, AfterNumber rest →
      scanUnsigned x.negative (Binary64.decimalList x.shortest ++ rest) = some (l, rest)) :
    ∀ rest, AfterNumber rest → scanNumber (x.textList ++ rest) = some (l, rest) := by
  intro rest hrest
  have htest : (x.significand == 0) = false := beq_false_of_ne hx
  unfold Binary64.textList
  simp only [htest, Bool.false_eq_true, if_false, List.append_assoc]
  exact scanNumber_of_scanUnsigned (h rest hrest)

/-- The text of a floating-point number is scanned as a literal that stands for some floating-point
number. -/
theorem scanNumber_textList (x : Binary64) :
    ∃ l y, (∀ rest, AfterNumber rest → scanNumber (x.textList ++ rest) = some (l, rest)) ∧
      l.number? = some (.real y) := by
  -- The shortest decimal is that of a number other than zero, so zero is written apart.
  by_cases hx : x.significand = 0
  · have hdigits : ∀ c ∈ ['0'] ++ ['0'], c.isDigit = true := List.all_eq_true.mp (by decide)
    have hscan := scansAs_point x.negative hdigits ⟨rfl, rfl⟩ (by decide) (by simp)
    have hvalue : valueOf (['0'] ++ ['0']) = 0 := rfl
    obtain ⟨y, hy⟩ := hscan.exists_number? (by
      rw [hvalue]
      unfold Decimal.value
      rw [Nat.cast_zero, zero_mul]
      exact Nat.cast_nonneg _)
    refine ⟨_, y, fun rest hrest => ?_, hy⟩
    have htest : (x.significand == 0) = true := beq_iff_eq.mpr hx
    unfold Binary64.textList
    simp only [htest, if_true, List.append_assoc]
    exact scanNumber_of_scanUnsigned (hscan.scan rest hrest)
  -- The largest number is told apart, since its decimal may be beyond it.
  by_cases hlargest : x = Binary64.largest x.negative
  · obtain ⟨l, y, hscan, hy⟩ := exists_scan_largest x.negative
    rw [← hlargest] at hscan
    exact ⟨l, y, scanNumber_shortest hx hscan, hy⟩
  · have hshort := Binary64.ofDecimal_shortest hx
    obtain ⟨l, hscan⟩ := exists_scansAs_decimalList x.negative (Binary64.digits_ne_zero hx hshort)
    obtain ⟨y, hy⟩ := hscan.exists_number? (Binary64.value_le_limit hx hlargest hshort)
    exact ⟨l, y, scanNumber_shortest hx hscan.scan, hy⟩

/-- The text of an integer is scanned as a literal that stands for it. -/
theorem scanNumber_integerList {n : Int} (hn : (Number.integer n).Printable) :
    ∃ l, (∀ rest, AfterNumber rest →
      scanNumber (Decimal.integerList n ++ rest) = some (l, rest)) ∧
        l.number? = some (.integer n) := by
  refine ⟨⟨decide (n < 0), digitList n.natAbs, [], none⟩, fun rest hrest => ?_, ?_⟩
  · have htext : Decimal.integerList n ++ rest =
        (if decide (n < 0) = true then ['-'] else []) ++ (digitList n.natAbs ++ rest) := by
      unfold Decimal.integerList
      by_cases hneg : n < 0 <;> simp [hneg]
    rw [htext]
    exact scanNumber_of_scanUnsigned (scanUnsigned_eq (fun _ => Decimal.isDigit_of_mem_digitList)
      (guard_digitList _) (fun x hx => (hrest x hx).1)
      (scanFraction_none fun x hx => (hrest x hx).2.1)
      (scanExponent_none fun x hx => (hrest x hx).2.2))
  · unfold Literal.number?
    have habs : (if decide (n < 0) = true then -(n.natAbs : Int) else n.natAbs) = n := by
      split_ifs with h
      · have hneg : n < 0 := by simpa using h
        omega
      · have hnonneg : ¬ n < 0 := by simpa using h
        omega
    -- Only the literal of a negative zero is no integer.
    have hzero : (decide (n < 0) && n.natAbs == 0) = false := by
      simp only [Bool.and_eq_false_iff, decide_eq_false_iff_not, beq_eq_false_iff_ne]
      omega
    have hrange : (Int64.minValue.toInt ≤ n && n < UInt64.size) = true := by
      simp only [Bool.and_eq_true, decide_eq_true_eq]
      exact hn
    simp only [List.isEmpty_nil, Option.isNone_none, Bool.and_true, Decimal.valueOf_digitList, habs,
      hzero, Bool.not_false]
    rw [if_pos (by simpa using hrange)]

end Reader

/-- The number that the text of a number is read as. -/
def Number.reread (n : Number) : Number :=
  ((Reader.scanNumber (Writer.number n)).bind fun r => r.1.number?).getD n

/-- What is scanned from the text of a number is the number that it is read as. -/
theorem Number.reread_eq {n m : Number} {l : Reader.Literal}
    (hscan : ∀ rest, Reader.AfterNumber rest →
      Reader.scanNumber (Writer.number n ++ rest) = some (l, rest))
    (hnumber : l.number? = some m) : n.reread = m := by
  have hend := hscan [] fun c hc => by cases hc
  rw [List.append_nil] at hend
  unfold reread
  rw [hend, Option.bind_some, hnumber, Option.getD_some]

/-- An integer is read back. -/
theorem Number.reread_integer {n : Int} (hn : (integer n).Printable) :
    (integer n).reread = integer n := by
  obtain ⟨l, hscan, hnumber⟩ := Reader.scanNumber_integerList hn
  exact reread_eq hscan hnumber

/-- A floating-point number is read as a floating-point number. -/
theorem Number.exists_reread_real (x : Binary64) : ∃ y, (real x).reread = real y := by
  obtain ⟨l, y, hscan, hnumber⟩ := Reader.scanNumber_textList x
  exact ⟨y, reread_eq (n := .real x) hscan hnumber⟩

/-- A decimal with few digits, of which not many stand behind the point, is scanned as a literal
with few digits and a small exponent. -/
theorem Reader.ScansAs.decimal_short {negative : Bool} {text : List Char} {d : Decimal}
    {l : Reader.Literal} (h : Reader.ScansAs negative text d l) (hd : d.digits ≠ 0)
    (hdigits : d.digits * Nat.pow 10 (d.exponent + 1).toNat < Nat.pow 2 53)
    (hexp : -22 ≤ d.exponent) :
    l.decimal.digits < Nat.pow 2 53 ∧ l.decimal.exponent.natAbs ≤ 22 := by
  have hten : (10 : ℚ) ≠ 0 := by norm_num
  have hvalue := h.value
  unfold Decimal.value at hvalue
  rcases h.point with hpoint | ⟨hwhole, hpoint⟩
  · rw [hpoint] at hvalue ⊢
    have hsame : l.decimal.digits = d.digits := by
      exact_mod_cast mul_right_cancel₀ (zpow_ne_zero _ hten) hvalue
    rw [hsame]
    refine ⟨(Nat.le_mul_of_pos_right _ (Nat.pow_pos (by decide))).trans_lt hdigits, ?_⟩
    -- An exponent beyond 22 would not leave room for a single digit.
    by_contra hlarge
    have hpow : Nat.pow 10 16 ≤ Nat.pow 10 (d.exponent + 1).toNat :=
      Nat.pow_le_pow_right (by decide) (by omega)
    have hle := Nat.le_mul_of_pos_left (Nat.pow 10 (d.exponent + 1).toNat)
      (Nat.pos_of_ne_zero hd)
    have hsmall : Nat.pow 2 53 < Nat.pow 10 16 := by decide
    omega
  · rw [hpoint] at hvalue ⊢
    obtain ⟨k, hk⟩ := Int.eq_ofNat_of_zero_le hwhole
    have hsame : l.decimal.digits = d.digits * Nat.pow 10 (k + 1) := by
      have hcast : (l.decimal.digits : ℚ) = d.digits * 10 ^ (k + 1) := by
        rw [hk, zpow_natCast, zpow_neg, zpow_one, mul_inv_eq_iff_eq_mul₀ hten] at hvalue
        rw [hvalue, pow_succ, mul_assoc]
      rw [Nat.pow_eq]
      exact_mod_cast hcast
    have hcount : (d.exponent + 1).toNat = k + 1 := by omega
    rw [hcount] at hdigits
    exact ⟨hsame.trans_lt hdigits, by decide⟩

/-- A floating-point number is read back if its digits, without the point, make a number of at most
53 bits, and if not more than 22 of them stand behind the point. -/
theorem Number.reread_short {x : Binary64}
    (hdigits : x.shortest.digits * Nat.pow 10 (x.shortest.exponent + 1).toNat < Nat.pow 2 53)
    (hexp : -22 ≤ x.shortest.exponent) : (real x).reread = real x := by
  by_cases hx : x.significand = 0
  · have hread : ∀ s : Bool, (real (.zero s)).reread = real (.zero s) := by decide +kernel
    rw [Binary64.eq_zero hx]
    exact hread _
  have hshort := Binary64.ofDecimal_shortest hx
  have hd := Binary64.digits_ne_zero hx hshort
  obtain ⟨l, hscan⟩ := Reader.exists_scansAs_decimalList x.negative hd
  obtain ⟨hfew, hsmall⟩ := hscan.decimal_short hd hdigits hexp
  have hsize : Nat.pow 2 53 < UInt64.size := by decide
  refine reread_eq (n := .real x) (Reader.scanNumber_shortest hx hscan.scan) ?_
  rw [Reader.Literal.number?_eq hscan.real, Reader.Literal.taken_eq (hfew.trans hsize),
    hscan.negative, Binary64.ofScaled_of_ofDecimal hx hshort hfew hsmall hscan.value]
  rfl

/-- The number nearest to `1e-30`. -/
def Number.grain : Number := .real ⟨false, 5708990770823840, -152, by decide⟩

/-- The number below it, which is printed as `9.999999999999999e-31`. -/
def Number.grainBelow : Number := .real ⟨false, 5708990770823839, -152, by decide⟩

/-- A text can hold both of them. -/
theorem Number.printable_grain : grain.Printable ∧ grainBelow.Printable := ⟨trivial, trivial⟩

/-- Not every number is read back: each of these two is read as the other one. -/
theorem Number.reread_grain : grain.reread = grainBelow ∧ grainBelow.reread = grain := by
  decide +kernel

/-- A number that is written is scanned as a literal that stands for the number that it is read
as. -/
theorem Reader.scanNumber_number {n : Number} (hn : n.Printable) :
    ∃ l, (∀ rest, AfterNumber rest → scanNumber (Writer.number n ++ rest) = some (l, rest)) ∧
      l.number? = some n.reread := by
  cases n with
  | integer n =>
    obtain ⟨l, hscan, hnumber⟩ := scanNumber_integerList hn
    exact ⟨l, hscan, hnumber.trans (congrArg some (Number.reread_integer hn).symm)⟩
  | real x =>
    obtain ⟨l, y, hscan, hnumber⟩ := scanNumber_textList x
    have hread := Number.reread_eq (n := .real x) hscan hnumber
    exact ⟨l, hscan, hnumber.trans (congrArg some hread.symm)⟩

end TextAdventure.Json
