import Mathlib.Algebra.Group.Nat.Defs
import Mathlib.Data.List.Basic

/-!
# Decimal numerals

The digits of a number as bytes, the most significant one first, and the number that
a string of digits stands for.
-/

namespace Decimal

def IsDigit (d : UInt8) : Prop := 48 ≤ d ∧ d ≤ 57

instance (d : UInt8) : Decidable (IsDigit d) := inferInstanceAs (Decidable (_ ∧ _))

def digits (n : ℕ) : List UInt8 := (Nat.toDigits 10 n).map Char.toUInt8

def value (ds : List UInt8) : ℕ := ds.foldl (fun n d => 10 * n + (d.toNat - 48)) 0

/-- At least `width` digits, with zeros in front. -/
def padded (width n : ℕ) : List UInt8 :=
  List.replicate (width - (digits n).length) 48 ++ digits n

theorem toNat_digit {c : Char} (h : c.isDigit = true) : c.toUInt8.toNat = c.toNat := by
  have hle : c.toNat ≤ 57 := (Char.isDigit_iff_toNat.mp h).2
  have hlt : c.toNat < 256 := Nat.lt_of_le_of_lt hle (by decide)
  exact Nat.mod_eq_of_lt hlt

theorem isDigit_char {n : ℕ} {c : Char} (h : c ∈ Nat.toDigits 10 n) : c.isDigit = true :=
  Nat.isDigit_of_mem_toDigits (by decide) (by decide) h

theorem digits_ne_nil (n : ℕ) : digits n ≠ [] :=
  fun h => Nat.toDigits_ne_nil (List.map_eq_nil_iff.mp h)

theorem isDigit_of_mem_digits {n : ℕ} {d : UInt8} (h : d ∈ digits n) : IsDigit d := by
  obtain ⟨c, hc, rfl⟩ := List.mem_map.mp h
  have hdigit := isDigit_char hc
  have hnat := toNat_digit hdigit
  rw [Char.isDigit_iff_toNat] at hdigit
  rw [IsDigit, UInt8.le_iff_toNat_le, UInt8.le_iff_toNat_le, hnat]
  exact hdigit

theorem foldl_digits (cs : List Char) (h : ∀ c ∈ cs, c.isDigit = true) (n : ℕ) :
    (cs.map Char.toUInt8).foldl (fun n d => 10 * n + (d.toNat - 48)) n
      = Nat.ofDigitChars 10 cs n := by
  induction cs generalizing n with
  | nil => rw [Nat.ofDigitChars_nil]; rfl
  | cons c cs ih =>
    obtain ⟨hc, hcs⟩ := List.forall_mem_cons.mp h
    rw [List.map_cons, List.foldl_cons, toNat_digit hc, ih hcs, Nat.ofDigitChars_cons]
    rfl

@[simp] theorem value_digits (n : ℕ) : value (digits n) = n := by
  rw [value, digits, foldl_digits _ fun _ => isDigit_char, Nat.ofDigitChars_ten_toDigits]

theorem foldl_lt (ds : List UInt8) (h : ∀ d ∈ ds, IsDigit d) (n : ℕ) :
    ds.foldl (fun n d => 10 * n + (d.toNat - 48)) n < (n + 1) * 10 ^ ds.length := by
  induction ds generalizing n with
  | nil =>
    rw [List.foldl_nil, List.length_nil, Nat.pow_zero]
    omega
  | cons d ds ih =>
    obtain ⟨⟨-, hd⟩, hds⟩ := List.forall_mem_cons.mp h
    have hdigit : d.toNat ≤ 57 := UInt8.le_iff_toNat_le.mp hd
    calc (d :: ds).foldl (fun n d => 10 * n + (d.toNat - 48)) n
        < (10 * n + (d.toNat - 48) + 1) * 10 ^ ds.length := ih hds _
      _ ≤ (10 * (n + 1)) * 10 ^ ds.length := Nat.mul_le_mul_right _ (by omega)
      _ = (n + 1) * 10 ^ (d :: ds).length := by
        rw [List.length_cons, Nat.pow_succ', Nat.mul_comm 10, Nat.mul_assoc]

theorem value_lt {ds : List UInt8} (h : ∀ d ∈ ds, IsDigit d) : value ds < 10 ^ ds.length := by
  have hlt := foldl_lt ds h 0
  rwa [Nat.zero_add, Nat.one_mul] at hlt

theorem digits_injective {n m : ℕ} (h : digits n = digits m) : n = m := by
  rw [← value_digits n, h, value_digits]

theorem padded_ne_nil (width n : ℕ) : padded width n ≠ [] :=
  fun h => digits_ne_nil n (List.append_eq_nil_iff.mp h).2

theorem isDigit_of_mem_padded {width n : ℕ} {d : UInt8} (h : d ∈ padded width n) : IsDigit d := by
  rcases List.mem_append.mp h with hzero | hdigit
  · rw [List.eq_of_mem_replicate hzero]
    decide
  · exact isDigit_of_mem_digits hdigit

@[simp] theorem value_padded (width n : ℕ) : value (padded width n) = n := by
  have hzeros : ∀ k, (List.replicate k (48 : UInt8)).foldl
      (fun n d => 10 * n + (d.toNat - 48)) 0 = 0 := by
    intro k
    induction k with
    | zero => rfl
    | succ k ih =>
      rw [List.replicate_succ, List.foldl_cons]
      exact ih
  rw [value, padded, List.foldl_append, hzeros]
  exact value_digits n

end Decimal
