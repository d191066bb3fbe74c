import Mathlib.Algebra.Order.Ring.Nat
import Mathlib.Data.List.Basic
import Mathlib.Tactic.Linarith
import Mathlib.Tactic.Ring
import TextAdventure.Decimal

/-!
# Digits of numbers

A list of digits stands for a number, and `Decimal.digitList` gives the one list that stands for a
number and has no zero to spare (`valueOf_digitList`, `head?_digitList`). Its length is the number
of digits (`lt_length_digitList`).
-/

namespace TextAdventure.Decimal

/-- A digit stands for its number. -/
theorem digitValue_digitChar {n : Nat} (h : n < 10) : digitValue (digitChar n) = n := by
  have hall : ∀ m < 10, digitValue (digitChar m) = m := by decide
  exact hall n h

/-- A digit is one of the ten characters. -/
theorem isDigit_digitChar {n : Nat} (h : n < 10) : (digitChar n).isDigit = true := by
  have hall : ∀ m < 10, (digitChar m).isDigit = true := by decide
  exact hall n h

/-- Only the digit of zero is a zero. -/
theorem digitChar_ne_zero {n : Nat} (h : n < 10) (hn : n ≠ 0) : digitChar n ≠ '0' := by
  have hall : ∀ m < 10, m ≠ 0 → digitChar m ≠ '0' := by decide
  exact hall n h hn

/-- Digits after others shift them. -/
theorem valueFrom_eq (start : Nat) (ds : List Char) :
    valueFrom start ds = start * Nat.pow 10 ds.length + valueOf ds := by
  unfold valueOf
  induction ds generalizing start with
  | nil => simp [valueFrom]
  | cons d ds ih =>
    have hstart : valueFrom start (d :: ds) = valueFrom (10 * start + digitValue d) ds := rfl
    have hzero : valueFrom 0 (d :: ds) = valueFrom (digitValue d) ds := by
      unfold valueFrom
      rw [List.foldl_cons, Nat.mul_zero, Nat.zero_add]
    rw [hstart, hzero, ih, ih (digitValue d), List.length_cons, Nat.pow_eq, Nat.pow_eq,
      Nat.pow_succ]
    ring

/-- The number of two lists of digits, one after the other. -/
theorem valueOf_append (ds es : List Char) :
    valueOf (ds ++ es) = valueOf ds * Nat.pow 10 es.length + valueOf es := by
  rw [← valueFrom_eq]
  unfold valueOf valueFrom
  rw [List.foldl_append]

/-- What stands before other digits is not beyond the whole. -/
theorem le_valueFrom (start : Nat) (ds : List Char) : start ≤ valueFrom start ds := by
  rw [valueFrom_eq]
  exact (Nat.le_mul_of_pos_right start (Nat.pow_pos (by decide))).trans (Nat.le_add_right _ _)

/-- A digit stands for a number below ten. -/
theorem digitValue_lt {c : Char} (h : c.isDigit = true) : digitValue c < 10 := by
  unfold Char.isDigit at h
  simp only [Bool.and_eq_true, decide_eq_true_eq, UInt32.le_iff_toNat_le] at h
  have hlast : c.toNat ≤ 57 := h.2
  unfold digitValue
  omega

/-- Digits stand for a number with no more digits. -/
theorem valueOf_lt {ds : List Char} (h : ∀ c ∈ ds, c.isDigit = true) :
    valueOf ds < Nat.pow 10 ds.length := by
  induction ds with
  | nil => decide
  | cons d ds ih =>
    have hd := digitValue_lt (h d List.mem_cons_self)
    have hds := ih fun c hc => h c (List.mem_cons_of_mem _ hc)
    have hvalue : valueOf (d :: ds) = digitValue d * Nat.pow 10 ds.length + valueOf ds := by
      have hone : valueOf [d] = digitValue d := by
        show 10 * 0 + digitValue d = digitValue d
        rw [Nat.mul_zero, Nat.zero_add]
      rw [← List.singleton_append, valueOf_append, hone]
    calc valueOf (d :: ds) = digitValue d * Nat.pow 10 ds.length + valueOf ds := hvalue
      _ < digitValue d * Nat.pow 10 ds.length + Nat.pow 10 ds.length := by omega
      _ = (digitValue d + 1) * Nat.pow 10 ds.length := by ring
      _ ≤ 10 * Nat.pow 10 ds.length := Nat.mul_le_mul_right _ hd
      _ = Nat.pow 10 (ds.length + 1) := Nat.mul_comm _ _

/-- Zeros stand for nothing. -/
theorem valueOf_replicate (n : Nat) : valueOf (List.replicate n '0') = 0 := by
  induction n with
  | zero => rfl
  | succ n ih =>
    rw [List.replicate_succ', valueOf_append, ih, Nat.zero_mul]
    rfl

/-- The digits of a number stand for it. -/
theorem valueOf_digitList (n : Nat) : valueOf (digitList n) = n := by
  fun_induction digitList n with
  | case1 n h =>
    show 10 * 0 + digitValue (digitChar n) = n
    rw [digitValue_digitChar h]
    omega
  | case2 n _ ih =>
    have hlast : valueOf [digitChar (n % 10)] = n % 10 := by
      show 10 * 0 + digitValue (digitChar (n % 10)) = n % 10
      rw [digitValue_digitChar (Nat.mod_lt n (by decide))]
      omega
    rw [valueOf_append, ih, hlast]
    show n / 10 * 10 + n % 10 = n
    omega

/-- The digits of a number are digits. -/
theorem isDigit_of_mem_digitList {n : Nat} {c : Char} (h : c ∈ digitList n) : c.isDigit = true := by
  fun_induction digitList n with
  | case1 n hn =>
    rw [List.mem_singleton.mp h]
    exact isDigit_digitChar hn
  | case2 n _ ih =>
    rcases List.mem_append.mp h with h | h
    · exact ih h
    · rw [List.mem_singleton.mp h]
      exact isDigit_digitChar (Nat.mod_lt n (by decide))

/-- The digits of a number begin with a digit, which is a zero for no number but zero. -/
theorem digitList_eq_cons (n : Nat) :
    ∃ d ds, digitList n = d :: ds ∧ d.isDigit = true ∧ (n ≠ 0 → d ≠ '0') ∧ (n < 10 → ds = []) := by
  fun_induction digitList n with
  | case1 n h => exact ⟨_, _, rfl, isDigit_digitChar h, digitChar_ne_zero h, fun _ => rfl⟩
  | case2 n h ih =>
    obtain ⟨d, ds, heq, hd, hzero, -⟩ := ih
    refine ⟨d, ds ++ [digitChar (n % 10)], ?_, hd, fun _ => hzero (by omega), fun hn => absurd hn h⟩
    rw [heq]
    rfl

/-- A number has more digits than a power of ten below it has zeros. -/
theorem lt_length_digitList {n k : Nat} (h : Nat.pow 10 k ≤ n) : k < (digitList n).length := by
  fun_induction digitList n generalizing k with
  | case1 n hn =>
    cases k with
    | zero => simp
    | succ k =>
      have hpow : 0 < Nat.pow 10 k := Nat.pow_pos (by decide)
      rw [Nat.pow_eq, Nat.pow_succ, ← Nat.pow_eq] at h
      omega
  | case2 n hn ih =>
    rw [List.length_append, List.length_singleton]
    cases k with
    | zero => omega
    | succ k =>
      rw [Nat.pow_eq, Nat.pow_succ, ← Nat.pow_eq] at h
      have hlt := ih (k := k) (by omega)
      omega

/-- A number below a power of ten has no more digits than the power has zeros. -/
theorem length_digitList_le {n k : Nat} (h : n < Nat.pow 10 (k + 1)) :
    (digitList n).length ≤ k + 1 := by
  fun_induction digitList n generalizing k with
  | case1 n _ => simp
  | case2 n hn ih =>
    rw [List.length_append, List.length_singleton]
    rw [Nat.pow_eq, Nat.pow_succ, ← Nat.pow_eq] at h
    cases k with
    | zero =>
      have hone : Nat.pow 10 0 = 1 := rfl
      omega
    | succ k =>
      have hle := ih (k := k) (by omega)
      omega

/-- A number that is not zero has one digit more when a zero is put behind it. -/
theorem length_digitList_mul_ten {n : Nat} (h : n ≠ 0) :
    (digitList (10 * n)).length = (digitList n).length + 1 := by
  rw [digitList, if_neg (by omega), List.length_append, List.length_singleton,
    Nat.mul_div_cancel_left n (by decide)]

end TextAdventure.Decimal
