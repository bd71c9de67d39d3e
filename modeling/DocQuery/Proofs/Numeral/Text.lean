import DocQuery.Proofs.Numeral.Grammar
import Mathlib.Algebra.Group.Nat.Defs
/-!
# Numerals as text

A numeral has many spellings and one text: its sign, its digits with a
point among them if there is a fraction, and its exponent with a sign. The
text of a numeral that JSON has is one of its spellings (`spelled_text`).
-/

namespace DocQuery

namespace Text

/-- The digits of two texts one behind the other. -/
theorem toNat_append (s t : Text) : toNat (s ++ t) = toNat s * 10 ^ t.length + toNat t := by
  rw [toNat, Nat.ofDigitChars_append, Nat.ofDigitChars_eq_ofDigitChars_zero, Nat.mul_comm]
  rfl

/-- Zeros in front count nothing. -/
theorem toNat_zeros_append (k : Nat) (t : Text) : toNat (List.replicate k '0' ++ t) = toNat t := by
  rw [toNat, Nat.ofDigitChars_append, Nat.ofDigitChars_replicate_zero, Nat.mul_zero]
  rfl

/-- Zeros behind count as a power of ten. -/
theorem toNat_append_zeros (t : Text) (k : Nat) :
    toNat (t ++ List.replicate k '0') = toNat t * 10 ^ k := by
  have hzeros : toNat (List.replicate k '0') = 0 := by
    rw [toNat, Nat.ofDigitChars_replicate_zero, Nat.mul_zero]
  rw [toNat_append, hzeros, List.length_replicate, Nat.add_zero]

theorem all_isDigit_ofNat (n : Nat) : (ofNat n).all Char.isDigit :=
  List.all_eq_true.2 fun _ => isDigit_of_mem_ofNat

/-- **A spelled number other than zero does not begin with a zero.** -/
theorem head?_ofNat {n : Nat} (h : 0 < n) : (ofNat n).head? ≠ some '0' := by
  induction n using Nat.strongRecOn with
  | ind n ih =>
    rw [ofNat, Nat.toDigits_eq_if (by decide)]
    split
    · have hdigit : ∀ n < 10, 0 < n → [Nat.digitChar n].head? ≠ some '0' := by decide
      exact hdigit n ‹_› h
    · rename_i hlarge
      -- the first digit is that of the number without its last digit
      have hhead := ih (n / 10) (by omega) (by omega)
      rw [ofNat] at hhead
      obtain ⟨c, ds, hsplit⟩ := List.exists_cons_of_ne_nil (Nat.toDigits_ne_nil (n := n / 10))
      rw [hsplit] at hhead ⊢
      exact hhead

end Text

namespace Numeral

/-! ## The text of a numeral -/

/-- The text of an exponent. -/
def exponentText : Option Int → Text
  | none => []
  | some k => 'e' :: (if k < 0 then '-' else '+') :: Text.ofNat k.natAbs

/-- The text of a numeral behind its sign. -/
def magnitude (n : Numeral) : Text :=
  n.whole ++ (fractionText n.fraction ++ exponentText n.exponent)

/-- **The text of a numeral.** -/
def text (n : Numeral) : Text := if n.negative then '-' :: n.magnitude else n.magnitude

/-- The text of an exponent spells it. -/
theorem spelled_exponentText (k : Option Int) : SpelledExponent k (exponentText k) := by
  cases k with
  | none => exact .absent
  | some k =>
    have hrun : IsRun (Text.ofNat k.natAbs) := ⟨Text.all_isDigit_ofNat _, Text.ofNat_ne_nil _⟩
    rw [exponentText]
    by_cases hneg : k < 0
    · have hvalue : signed true (Text.toNat (Text.ofNat k.natAbs)) = k := by
        rw [signed, if_pos rfl, Text.toNat_ofNat]
        omega
      have hspelled := SpelledExponent.present (.inl rfl) .minus hrun
      rw [hvalue] at hspelled
      rw [if_pos hneg]
      exact hspelled
    · have hvalue : signed false (Text.toNat (Text.ofNat k.natAbs)) = k := by
        rw [signed, if_neg Bool.false_ne_true, Text.toNat_ofNat]
        omega
      have hspelled := SpelledExponent.present (.inl rfl) .plus hrun
      rw [hvalue] at hspelled
      rw [if_neg hneg]
      exact hspelled

/-- **The text of a numeral spells it.** -/
theorem spelled_text {n : Numeral} (h : n.IsReadable) : Spelled n n.text := by
  have hspelled := Spelled.mk h (spelled_exponentText n.exponent)
  have htext : minus n.negative ++ n.magnitude = n.text := by
    rw [text]
    cases n.negative <;> rfl
  rw [← htext]
  exact hspelled

end Numeral

end DocQuery
