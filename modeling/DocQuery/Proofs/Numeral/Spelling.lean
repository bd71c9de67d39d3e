import DocQuery.Json.Basic
import DocQuery.Proofs.Binary64.ReadsBack
import DocQuery.Proofs.Numeral.Text
/-!
# Spelled numbers read back

A numeral denotes an integer where it is spelled as one of 64 bits, and
otherwise the double nearest to it, rounded once. Under this reading every
number is the number of its own spelling (`exists_numeral`): the layout of
a double puts the point somewhere among the digits of its shortest decimal
or behind zeros added to them, which changes neither the value nor the
class, and the shortest decimal reads back.
-/

namespace DocQuery

namespace Numeral

/-- **The number of a numeral, rounded once.** -/
def rounded? (n : Numeral) : Option Number :=
  match n.integer? with
  | some i => if h : Number.InRange i then some (.int i h) else n.nearest?.map .float
  | none => n.nearest?.map .float

/-- A numeral with a fraction or an exponent is no integer. -/
theorem integer?_eq_none {n : Numeral} (h : n.fraction ≠ [] ∨ n.exponent ≠ none) :
    n.integer? = none := by
  have hmark : ¬ (n.fraction.isEmpty && n.exponent.isNone) := by
    simp only [Bool.and_eq_true, List.isEmpty_iff, Option.isNone_iff_eq_none,
      Decidable.not_and_iff_or_not]
    exact h
  exact if_neg hmark

/-- It is the double nearest to it. -/
theorem rounded?_of_mark {n : Numeral} (h : n.fraction ≠ [] ∨ n.exponent ≠ none) :
    n.rounded? = n.nearest?.map .float := by
  rw [rounded?, integer?_eq_none h]

/-- And an integer denotes no other. -/
theorem integer?_of_rounded? {n : Numeral} {i : Int} {h : Number.InRange i}
    (hn : n.rounded? = some (.int i h)) : n.integer? = some i := by
  have hfloat : n.nearest?.map Number.float ≠ some (.int i h) := by
    cases n.nearest? <;> nofun
  rw [rounded?] at hn
  split at hn
  · rename_i j hj
    split at hn
    · cases hn
      exact hj
    · exact absurd hn hfloat
  · exact absurd hn hfloat

/-! ## Integers -/

/-- A spelled number is a zero or begins with another digit. -/
theorem zero_or_head?_ofNat (n : Nat) : Text.ofNat n = ['0'] ∨ (Text.ofNat n).head? ≠ some '0' := by
  rcases Nat.eq_zero_or_pos n with rfl | hpos
  · exact .inl rfl
  · exact .inr (Text.head?_ofNat hpos)

/-- The numeral of an integer. -/
def ofInt (i : Int) : Numeral := ⟨i < 0, Text.ofNat i.natAbs, [], none⟩

theorem isReadable_ofInt (i : Int) : (ofInt i).IsReadable where
  whole := Text.all_isDigit_ofNat _
  whole_ne_nil := Text.ofNat_ne_nil _
  zero := zero_or_head?_ofNat _
  fraction := rfl

theorem text_ofInt (i : Int) : (ofInt i).text = Text.ofInt i := by
  have hmagnitude : (ofInt i).magnitude = Text.ofNat i.natAbs := by
    rw [magnitude]
    exact List.append_nil _
  rw [text, hmagnitude]
  cases i with
  | ofNat n => rfl
  | negSucc n => exact if_pos (decide_eq_true (Int.negSucc_lt_zero n))

theorem integer?_ofInt (i : Int) : (ofInt i).integer? = some i := by
  rw [integer?]
  change (if (decide (i < 0)) = true then
    if (Text.toNat (Text.ofNat i.natAbs) : Int) = 0 then none
    else some (-(Text.toNat (Text.ofNat i.natAbs) : Int))
    else some (Text.toNat (Text.ofNat i.natAbs) : Int)) = some i
  rw [Text.toNat_ofNat]
  by_cases hneg : i < 0
  · rw [if_pos (decide_eq_true hneg), if_neg (by omega)]
    exact congrArg some (by omega)
  · rw [if_neg (by simpa using hneg)]
    exact congrArg some (by omega)

/-! ## Doubles -/

open Binary64

/-- Zeros that are taken from the power of ten to the digits leave the
double as it is. -/
theorem ofDecimal?_tenth (negative : Bool) (digits : Nat) {e : Nat} (he : 3 * e < 1024) :
    ofDecimal? negative (digits * 10 ^ (e + 1)) (-1) = ofDecimal? negative digits e := by
  unfold ofDecimal?
  rcases Nat.eq_zero_or_pos digits with rfl | hpos
  · rw [Nat.zero_mul, if_pos rfl, if_pos rfl]
  · have hscaled : digits * 10 ^ (e + 1) ≠ 0 :=
      Nat.mul_ne_zero (Nat.ne_of_gt hpos) (Nat.ne_of_gt (Nat.pow_pos (by decide)))
    have hquotient : ofQuotient? negative (digits * 10 ^ (e + 1)) (tenTo 1) =
        ofQuotient? negative (digits * tenTo e) 1 := by
      have hscale : ofQuotient? negative (digits * tenTo e * 10) (1 * 10) =
          ofQuotient? negative (digits * tenTo e) 1 := ofQuotient?_mul negative (by decide)
      rw [Nat.pow_succ, ← Nat.mul_assoc]
      exact hscale
    rw [if_neg hscaled, if_neg (Nat.ne_of_gt hpos), if_neg (by decide), if_neg (by omega),
      if_neg (by decide), if_neg (by omega), if_neg (by omega), if_pos (by omega)]
    exact hquotient

/-- Digits that a layout can be made of. -/
structure IsDigits (digits : Text) : Prop where
  /-- There are digits only. -/
  all : digits.all Char.isDigit
  /-- There is one at least. -/
  ne_nil : digits ≠ []
  /-- The first is no zero. -/
  head : digits.head? ≠ some '0'

theorem isDigits_ofNat {n : Nat} (h : 0 < n) : IsDigits (Text.ofNat n) :=
  ⟨Text.all_isDigit_ofNat n, Text.ofNat_ne_nil n, Text.head?_ofNat h⟩

/-- A numeral that lays out digits: its text is the layout with the sign in
front, it is readable, it has a fraction or an exponent, and it has the
double of the digits at a power of ten. -/
structure LaysOut (n : Numeral) (negative : Bool) (laid digits : Text) (exponent : Int) :
    Prop where
  sign : n.negative = negative
  magnitude : n.magnitude = laid
  isReadable : n.IsReadable
  mark : n.fraction ≠ [] ∨ n.exponent ≠ none
  nearest : n.nearest? = ofDecimal? negative (Text.toNat digits) exponent

variable {digits : Text} {k : Int}

/-- The head of digits stays when something is put behind them. -/
theorem IsDigits.head?_append (h : IsDigits digits) (t : Text) :
    (digits ++ t).head? ≠ some '0' := by
  obtain ⟨d, ds, hsplit⟩ := List.exists_cons_of_ne_nil h.ne_nil
  have hhead := h.head
  rw [hsplit] at hhead ⊢
  exact hhead

theorem all_isDigit_append {s t : Text} (hs : s.all Char.isDigit) (ht : t.all Char.isDigit) :
    (s ++ t).all Char.isDigit := by
  rw [List.all_append, hs, ht, Bool.true_and]

theorem all_isDigit_zeros (m : Nat) : (List.replicate m '0').all Char.isDigit := by
  rw [List.all_eq_true]
  intro c hc
  rw [List.eq_of_mem_replicate hc]
  rfl

/-- The text of a numeral with a fraction and no exponent. -/
theorem magnitude_of_fraction {negative : Bool} {whole fraction : Text} (h : fraction ≠ []) :
    (Numeral.mk negative whole fraction none).magnitude = whole ++ '.' :: fraction := by
  have htext : fractionText fraction = '.' :: fraction := if_neg (mt List.isEmpty_iff.1 h)
  rw [magnitude, htext, exponentText, List.append_nil]

/-- Digits behind the point and behind zeros. -/
theorem laysOut_fraction (negative : Bool) (h : IsDigits digits) (hk : k < 0) :
    LaysOut ⟨negative, ['0'], List.replicate (-k - 1).toNat '0' ++ digits, none⟩ negative
      ('0' :: '.' :: (List.replicate (-k - 1).toNat '0' ++ digits)) digits
      (k + 1 - digits.length) := by
  have hfraction : List.replicate (-k - 1).toNat '0' ++ digits ≠ [] :=
    List.append_ne_nil_of_right_ne_nil _ h.ne_nil
  have hexponent : (0 : Int) - (List.replicate (-k - 1).toNat '0' ++ digits).length =
      k + 1 - digits.length := by
    rw [List.length_append, List.length_replicate]
    omega
  refine ⟨rfl, magnitude_of_fraction hfraction, ⟨rfl, List.cons_ne_nil _ _, .inl rfl,
    all_isDigit_append (all_isDigit_zeros _) h.all⟩, .inl hfraction, ?_⟩
  rw [nearest?, Option.getD_none, hexponent]
  change ofDecimal? negative (Text.toNat (List.replicate 1 '0' ++ _)) _ = _
  rw [Text.toNat_zeros_append, Text.toNat_zeros_append]

/-- Digits in front of zeros and of the point. -/
theorem laysOut_whole (negative : Bool) (h : IsDigits digits) (hlength : digits.length ≤ k + 1)
    (hk : k < leastExponential) :
    LaysOut ⟨negative, digits ++ List.replicate (k.toNat + 1 - digits.length) '0', ['0'], none⟩
      negative (digits ++ List.replicate (k.toNat + 1 - digits.length) '0' ++ ['.', '0']) digits
      (k + 1 - digits.length) := by
  have hexponent : k + 1 - digits.length = ((k.toNat + 1 - digits.length : Nat) : Int) := by
    have := List.length_pos_iff.2 h.ne_nil
    omega
  have hzeros : digits ++ List.replicate (k.toNat + 1 - digits.length) '0' ++ ['0'] =
      digits ++ List.replicate (k.toNat + 1 - digits.length + 1) '0' := by
    rw [List.append_assoc, List.replicate_succ']
  have hsmall : k < 16 := hk
  refine ⟨rfl, magnitude_of_fraction (List.cons_ne_nil _ _), ⟨all_isDigit_append h.all
    (all_isDigit_zeros _), List.append_ne_nil_of_left_ne_nil h.ne_nil _, .inr (h.head?_append _),
    rfl⟩, .inl (List.cons_ne_nil _ _), ?_⟩
  rw [nearest?, hzeros, Text.toNat_append_zeros, hexponent]
  exact ofDecimal?_tenth negative (Text.toNat digits) (by omega)

/-- Digits on both sides of the point. -/
theorem laysOut_split (negative : Bool) (h : IsDigits digits) (hk : 0 ≤ k)
    (hlength : k + 1 < digits.length) :
    LaysOut ⟨negative, digits.take (k.toNat + 1), digits.drop (k.toNat + 1), none⟩ negative
      (digits.take (k.toNat + 1) ++ '.' :: digits.drop (k.toNat + 1)) digits
      (k + 1 - digits.length) := by
  have hfraction : digits.drop (k.toNat + 1) ≠ [] := by
    rw [← List.length_pos_iff, List.length_drop]
    omega
  have hwhole : digits.take (k.toNat + 1) ≠ [] := by
    rw [← List.length_pos_iff, List.length_take]
    omega
  have hhead : (digits.take (k.toNat + 1)).head? ≠ some '0' := by
    rw [List.head?_take, if_neg (by omega)]
    exact h.head
  have hexponent : (0 : Int) - (digits.drop (k.toNat + 1)).length = k + 1 - digits.length := by
    rw [List.length_drop]
    omega
  have hdigits : ∀ c ∈ digits, c.isDigit := List.all_eq_true.1 h.all
  refine ⟨rfl, magnitude_of_fraction hfraction, ⟨?_, hwhole, .inr hhead, ?_⟩, .inl hfraction, ?_⟩
  · exact List.all_eq_true.2 fun c hc => hdigits c (List.mem_of_mem_take hc)
  · exact List.all_eq_true.2 fun c hc => hdigits c (List.mem_of_mem_drop hc)
  · rw [nearest?, List.take_append_drop, Option.getD_none, hexponent]

/-- **A positional layout**, of which the first digit counts `10 ^ k`. -/
theorem exists_positional (negative : Bool) (h : IsDigits digits) (hk : k < leastExponential) :
    ∃ n : Numeral, n.LaysOut negative (positional digits k) digits (k + 1 - digits.length) := by
  rw [positional]
  split
  · rename_i hneg
    exact ⟨_, laysOut_fraction negative h hneg⟩
  split
  · rename_i hlength
    exact ⟨_, laysOut_whole negative h hlength hk⟩
  · rename_i hneg hlength
    exact ⟨_, laysOut_split negative h (Int.not_lt.1 hneg) (Int.not_le.1 hlength)⟩

/-- **An exponential layout**: the point is behind the first digit, if
there are others. -/
theorem exists_exponential (negative : Bool) (h : IsDigits digits) (k : Int) :
    ∃ n : Numeral, n.LaysOut negative (exponential digits k) digits (k + 1 - digits.length) := by
  obtain ⟨first, rest, rfl⟩ := List.exists_cons_of_ne_nil h.ne_nil
  have hall : first.isDigit ∧ rest.all Char.isDigit := by
    simpa only [List.all_cons, Bool.and_eq_true] using h.all
  have hfirst : [first].all Char.isDigit := by
    rw [List.all_cons, hall.1]
    rfl
  have hexponent : k - rest.length = k + 1 - (first :: rest).length := by
    rw [List.length_cons]
    omega
  refine ⟨⟨negative, [first], rest, some k⟩, rfl, ?_, ⟨hfirst, List.cons_ne_nil _ _, .inr h.head,
    hall.2⟩, .inr (Option.some_ne_none k), ?_⟩
  · cases rest with
    | nil => rfl
    | cons second rest => rfl
  · rw [nearest?, ← hexponent]
    rfl

/-- Every decimal but zero is laid out as a numeral. -/
theorem exists_layout (negative : Bool) (d : Decimal) (hd : 0 < d.digits) :
    ∃ n : Numeral, n.LaysOut negative (layout d) (Text.ofNat d.digits) d.exponent := by
  have hdigits := isDigits_ofNat hd
  have hexponent : d.exponent = d.exponent + (Text.ofNat d.digits).length - 1 + 1 -
      (Text.ofNat d.digits).length := by omega
  rw [layout]
  split
  · rename_i hpositional
    have hlayout := exists_positional negative hdigits hpositional.2
    rwa [← hexponent] at hlayout
  · have hlayout := exists_exponential negative hdigits
      (d.exponent + (Text.ofNat d.digits).length - 1)
    rwa [← hexponent] at hlayout

end Numeral

open Numeral Binary64

/-- The shortest decimal of a double other than zero has digits. -/
theorem Binary64.digits_shortest_pos {x : Binary64} (h : x.isZero = false) :
    0 < x.shortest.digits := by
  refine Nat.pos_of_ne_zero fun hdigits => ?_
  have hreads := ofDecimal?_shortest x
  rw [hdigits, ofDecimal?, if_pos rfl] at hreads
  rw [← Option.some.inj hreads] at h
  cases h

/-- **Every number is the number of its spelling**, read as a numeral. -/
theorem Number.exists_numeral (n : Number) : ∃ m : Numeral,
    m.IsReadable ∧ m.text = n.spelling ∧ m.rounded? = some n := by
  cases n with
  | int i hrange =>
    refine ⟨ofInt i, isReadable_ofInt i, text_ofInt i, ?_⟩
    rw [rounded?, integer?_ofInt]
    exact dif_pos hrange
  | float x =>
    cases hzero : x.isZero with
    | true =>
      have hx : x = zero x.negative := eq_zero_of_rank (beq_iff_eq.1 hzero)
      refine ⟨⟨x.negative, ['0'], ['0'], none⟩, ⟨rfl, List.cons_ne_nil _ _, .inl rfl, rfl⟩, ?_, ?_⟩
      · change _ = x.spelling
        rw [Binary64.spelling]
        simp only [if_pos hzero]
        rfl
      · rw [rounded?_of_mark (.inl (List.cons_ne_nil _ _))]
        exact congrArg (some <| Number.float ·) hx.symm
    | false =>
      obtain ⟨m, hlays⟩ := exists_layout x.negative x.shortest (digits_shortest_pos hzero)
      refine ⟨m, hlays.isReadable, ?_, ?_⟩
      · change _ = x.spelling
        rw [text, hlays.sign, hlays.magnitude, Binary64.spelling]
        simp only [hzero, Bool.false_eq_true, if_false]
      · rw [rounded?_of_mark hlays.mark, hlays.nearest, Text.toNat_ofNat, ofDecimal?_shortest]
        rfl

end DocQuery
