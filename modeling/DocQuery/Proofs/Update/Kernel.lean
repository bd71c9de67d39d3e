import DocQuery.Proofs.Json.ReadsBack
import DocQuery.Proofs.Literal.Cast
import DocQuery.Proofs.Literal.Unquote
import DocQuery.Proofs.Update.Outline
/-!
# What a right-hand side shows of its leaf

A right-hand side does not keep everything of the leaf that it sets:
`false` and `null` are written as nothing, and `true` and the doubles that
are integers below the bound are written as integers. What it does keep is
again a leaf, `Json.shown`. The leaf that is shown has the same text as
the leaf it is shown of (`leafText_shown`), and it can be read from that
text (`readLeaf?_leafText`), so two leaves have one right-hand side exactly
when they show the same. `leafText_eq_iff` says which pairs of leaves these
are.
-/

namespace DocQuery

/-! ## What a leaf shows -/

namespace Number

/-- An integer below the bound of the cast has at most 64 bits. -/
theorem inRange_of_natAbs_lt {i : Int} (h : i.natAbs < integerCastBound) : InRange i := by
  have hlt : i.natAbs < 10 ^ 15 := h
  constructor <;> omega

theorem inRange_toInt {x : Binary64} (h : x.isIntegral && x.trunc < integerCastBound) :
    InRange x.toInt := by
  have hlt : x.trunc < integerCastBound := of_decide_eq_true (Bool.and_eq_true_iff.1 h).2
  rw [← x.natAbs_toInt] at hlt
  exact inRange_of_natAbs_lt hlt

/-- The number that the cast of a number spells: the integer that a double
is, below the bound, and any other number as it is. -/
def shown : Number → Number
  | int i h => int i h
  | float x =>
    if h : x.isIntegral && x.trunc < integerCastBound then int x.toInt (inRange_toInt h)
    else float x

/-- **The cast of a number is the spelling of what it shows.** -/
theorem cast_eq (n : Number) : n.cast = n.shown.spelling := by
  cases n with
  | int i h => rfl
  | float x =>
    rw [cast, shown]
    split <;> rfl

/-- What a number shows is shown as it is. -/
theorem shown_shown (n : Number) : n.shown.shown = n.shown := by
  cases n with
  | int i h => rfl
  | float x =>
    by_cases hcast : x.isIntegral && x.trunc < integerCastBound
    · rw [shown, dif_pos hcast, shown]
    · rw [shown, dif_neg hcast, shown, dif_neg hcast]

end Number

namespace Json

/-- **What a right-hand side shows of its leaf.** -/
def shown : Json → Json
  | bool false => null
  | bool true => num (.int 1 (by decide))
  | num n => num n.shown
  | v => v

/-- **The integers that leaves are cast to**: an integer itself, a double
that is an integer of a magnitude below the bound, and one for `true`. -/
inductive CastsTo : Json → Int → Prop
  /-- An integer. -/
  | int (i : Int) (inRange : Number.InRange i) : CastsTo (num (.int i inRange)) i
  /-- A double without a fraction. -/
  | float {x : Binary64} {i : Int} (isInteger : x.IsInteger i)
      (lt_bound : i.natAbs < Number.integerCastBound) : CastsTo (num (.float x)) i
  /-- The truth value that counts as one. -/
  | true : CastsTo (bool true) 1

variable {v w : Json} {i : Int}

theorem shown_float_eq_int_iff {x : Binary64} {h : Number.InRange i} :
    (Number.float x).shown = .int i h ↔ x.IsInteger i ∧ i.natAbs < Number.integerCastBound := by
  rw [Number.shown, Binary64.isInteger_iff]
  constructor
  · intro heq
    split at heq
    · rename_i hcast
      obtain ⟨hintegral, hlt⟩ := Bool.and_eq_true_iff.1 hcast
      cases heq
      rw [Binary64.natAbs_toInt]
      exact ⟨⟨hintegral, rfl⟩, of_decide_eq_true hlt⟩
    · cases heq
  · rintro ⟨⟨hintegral, rfl⟩, hlt⟩
    rw [Binary64.natAbs_toInt] at hlt
    rw [dif_pos (by rw [hintegral, decide_eq_true hlt]; rfl)]

/-- A leaf is cast to an integer if that is what it shows. -/
theorem castsTo_iff : v.CastsTo i ↔ ∃ h, v.shown = num (.int i h) := by
  constructor
  · rintro (⟨_, hrange⟩ | ⟨hinteger, hlt⟩ | _)
    · exact ⟨hrange, rfl⟩
    · exact ⟨Number.inRange_of_natAbs_lt hlt,
        congrArg num (shown_float_eq_int_iff.2 ⟨hinteger, hlt⟩)⟩
    · exact ⟨by decide, rfl⟩
  · rintro ⟨hrange, hshown⟩
    cases v with
    | num n =>
      have hn : n.shown = .int i hrange := Json.num.inj hshown
      cases n with
      | int j h =>
        cases hn
        exact .int i hrange
      | float x =>
        obtain ⟨hinteger, hlt⟩ := shown_float_eq_int_iff.1 hn
        exact .float hinteger hlt
    | bool b =>
      cases b
      · cases hshown
      · cases hshown
        exact .true
    | _ => cases hshown

/-- **A leaf shows nothing, an integer, or itself**, and in the last case
it is neither of the first two. -/
theorem shown_cases (v : Json) :
    ((v = bool false ∨ v = null) ∧ v.shown = null) ∨
    (∃ i h, v.shown = num (.int i h)) ∨
    (v.shown = v ∧ v ≠ null ∧ ∀ i h, v ≠ num (.int i h)) := by
  cases v with
  | null => exact .inl ⟨.inr rfl, rfl⟩
  | bool b =>
    cases b
    · exact .inl ⟨.inl rfl, rfl⟩
    · exact .inr (.inl ⟨1, by decide, rfl⟩)
  | num n =>
    cases n with
    | int i h => exact .inr (.inl ⟨i, h, rfl⟩)
    | float x =>
      by_cases hcast : x.isIntegral && x.trunc < Number.integerCastBound
      · exact .inr (.inl ⟨x.toInt, _, congrArg num (dif_pos hcast)⟩)
      · exact .inr (.inr ⟨congrArg num (dif_neg hcast), by simp, by simp⟩)
  | str s => exact .inr (.inr ⟨rfl, by simp, by simp⟩)
  | arr items => exact .inr (.inr ⟨rfl, by simp, by simp⟩)
  | obj members => exact .inr (.inr ⟨rfl, by simp, by simp⟩)

/-- **Which leaves show the same.** -/
theorem shown_eq_iff : v.shown = w.shown ↔
    v = w ∨ ((v = bool false ∨ v = null) ∧ (w = bool false ∨ w = null)) ∨
      ∃ i, v.CastsTo i ∧ w.CastsTo i := by
  constructor
  · intro h
    rcases shown_cases v with ⟨hv, hnull⟩ | ⟨i, hrange, hint⟩ | ⟨hself, hnull, hint⟩
    · rcases shown_cases w with ⟨hw, -⟩ | ⟨i, hrange, hint⟩ | ⟨hself, hne, -⟩
      · exact .inr (.inl ⟨hv, hw⟩)
      · rw [hnull, hint] at h
        cases h
      · rw [hnull, hself] at h
        exact absurd h.symm hne
    · have hv : v.CastsTo i := castsTo_iff.2 ⟨hrange, hint⟩
      have hw : w.CastsTo i := castsTo_iff.2 ⟨hrange, h.symm.trans hint⟩
      exact .inr (.inr ⟨i, hv, hw⟩)
    · rcases shown_cases w with ⟨-, hwnull⟩ | ⟨i, hrange, hwint⟩ | ⟨hwself, -, -⟩
      · rw [hself, hwnull] at h
        exact absurd h hnull
      · rw [hself, hwint] at h
        exact absurd h (hint i hrange)
      · rw [hself, hwself] at h
        exact .inl h
  · rintro (rfl | ⟨hv, hw⟩ | ⟨i, hv, hw⟩)
    · rfl
    · rcases hv with rfl | rfl <;> rcases hw with rfl | rfl <;> rfl
    · obtain ⟨hrange, hvint⟩ := castsTo_iff.1 hv
      obtain ⟨_, hwint⟩ := castsTo_iff.1 hw
      rw [hvint, hwint]

end Json

/-! ## Right-hand sides read back -/

/-- **A leaf has the text of what it shows.** -/
theorem leafText_shown (v : Json) : leafText v.shown = leafText v := by
  cases v with
  | num n =>
    change leafText (.num n.shown) = leafText (.num n)
    rw [leafText_num, leafText_num, Number.cast_eq, Number.cast_eq, Number.shown_shown]
  | bool b => cases b <;> rfl
  | _ => rfl

/-- The leaf that a right-hand side shows: nothing is `null`, a literal is
a text, and anything else is JSON. -/
def readLeaf? : Text → Option Json
  | [] => some .null
  | '"' :: t => do
    let (s, rest) ← Literal.inside? t
    if rest.isEmpty then return .str s else none
  | t => Json.readRounded? t

/-- Compact JSON other than a string is read as JSON. -/
theorem readLeaf?_compact {v : Json} (h : v.KeysDistinct) (hhead : v.compact.head? ≠ some '"') :
    readLeaf? v.compact = some v := by
  obtain ⟨c, t, hsplit, -⟩ := v.exists_head_compact
  have hread := Json.readRounded?_compact h
  have hquote : c ≠ '"' := by
    rintro rfl
    rw [hsplit] at hhead
    exact hhead rfl
  rw [hsplit] at hread ⊢
  rw [readLeaf?]
  · exact hread
  · exact List.cons_ne_nil c t
  · intro rest heq
    exact hquote (List.cons_eq_cons.1 heq).1

/-- A spelled number does not begin with a quote. -/
theorem Number.head?_spelling (n : Number) : n.spelling.head? ≠ some '"' := by
  intro h
  have hnumeral := isNumeral_of_mem_spelling (List.mem_of_mem_head? h)
  exact absurd hnumeral (by decide)

/-- **What a leaf shows reads back from its right-hand side.** -/
theorem readLeaf?_leafText {v : Json} (hleaf : v.isLeaf) (h : v.KeysDistinct) :
    readLeaf? (leafText v) = some v.shown := by
  cases v with
  | null => rfl
  | bool b =>
    cases b
    · rfl
    · exact readLeaf?_compact (v := .num (.int 1 (by decide))) trivial (by decide)
  | num n =>
    rw [leafText_num, Number.cast_eq]
    exact readLeaf?_compact (v := .num n.shown) trivial n.shown.head?_spelling
  | str s =>
    have hinside := Literal.inside?_escape s []
    change readLeaf? ('"' :: (Literal.escape s ++ ['"'])) = some (.str s)
    rw [readLeaf?, hinside]
    rfl
  | arr items =>
    have hhead : (Json.arr items).compact.head? = some '[' := rfl
    exact readLeaf?_compact h (by rw [hhead]; decide)
  | obj members =>
    cases members with
    | nil => exact readLeaf?_compact h (by decide)
    | cons m ms => cases hleaf

/-! ## Leaves with one right-hand side -/

/-- **When two leaves have one right-hand side.** A leaf is set by one
statement, and its right-hand side is that of another leaf if and only if
the leaves are equal, or both are `false` or `null`, or both are cast to
the same integer. So a text shares its right-hand side with no other
leaf. Objects inside the leaves have distinct keys, as all values have. -/
theorem leafText_eq_iff {v w : Json} (hv : v.isLeaf) (hw : w.isLeaf) (hvkeys : v.KeysDistinct)
    (hwkeys : w.KeysDistinct) :
    (∀ path : KeyPath, (Script.ofValue path v).map Instruction.text =
      [path.text ++ " = ".toList ++ leafText v ++ [';']]) ∧
    (leafText v = leafText w ↔
      v = w ∨ ((v = .bool false ∨ v = .null) ∧ (w = .bool false ∨ w = .null)) ∨
        ∃ i, v.CastsTo i ∧ w.CastsTo i) ∧
    ∀ s, v = .str s → leafText v = leafText w → w = .str s := by
  have hkernel : leafText v = leafText w ↔ v.shown = w.shown := by
    constructor
    · intro h
      have hread : some v.shown = some w.shown := by
        rw [← readLeaf?_leafText hv hvkeys, h, readLeaf?_leafText hw hwkeys]
      exact Option.some.inj hread
    · intro h
      rw [← leafText_shown v, h, leafText_shown]
  refine ⟨fun path => ?_, hkernel.trans Json.shown_eq_iff, ?_⟩
  · rw [Script.ofValue_of_isLeaf hv]
    rfl
  · rintro s rfl h
    rcases Json.shown_eq_iff.1 (hkernel.1 h) with heq | ⟨hnull, -⟩ | ⟨i, hcast, -⟩
    · exact heq.symm
    · rcases hnull with hnull | hnull <;> cases hnull
    · cases hcast

/-- Zero as an integer, and as a double with a sign. -/
def plainZero : Number := .int 0 (by decide)

def minusZero : Number := .float (.zero true)

/-- An array with a number inside an object. -/
def wrapped (n : Number) : Json := .arr [.obj [("a".toList, .num n), ("b".toList, .null)]]

/-- Minus zero has the right-hand side of the integer zero. The text of a
zero has not, and inside an array the two zeros are told apart. -/
theorem leafText_eq_iff_zeros :
    leafText (.num minusZero) = leafText (.num plainZero) ∧
    leafText (.str "0".toList) ≠ leafText (.num plainZero) ∧
    (wrapped plainZero).isLeaf ∧ (wrapped plainZero).KeysDistinct ∧
    leafText (wrapped minusZero) ≠ leafText (wrapped plainZero) := by
  have hcasts : (Json.num minusZero).CastsTo 0 :=
    .float (Binary64.isInteger_zero true) (by decide)
  obtain ⟨-, hkernel, -⟩ := leafText_eq_iff (v := .num minusZero) (w := .num plainZero) rfl rfl
    trivial trivial
  obtain ⟨-, -, htext⟩ := leafText_eq_iff (v := .str "0".toList) (w := .num plainZero) rfl rfl
    trivial trivial
  have hkeys : ∀ n, (wrapped n).KeysDistinct := fun n => by
    simp [wrapped, Json.KeysDistinct, Json.ItemsDistinct, Json.MembersDistinct, Json.keys]
  obtain ⟨-, hwrapped, -⟩ := leafText_eq_iff (v := wrapped minusZero) (w := wrapped plainZero)
    rfl rfl (hkeys _) (hkeys _)
  refine ⟨hkernel.2 (.inr (.inr ⟨0, hcasts, .int 0 _⟩)), fun h => ?_, rfl, hkeys plainZero,
    fun h => ?_⟩
  · cases htext _ rfl h
  · rcases hwrapped.1 h with heq | ⟨hnull, -⟩ | ⟨i, hcast, -⟩
    · cases heq
    · rcases hnull with hnull | hnull <;> cases hnull
    · cases hcast

end DocQuery
