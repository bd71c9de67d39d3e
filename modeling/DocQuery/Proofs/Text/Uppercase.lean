import DocQuery.Text.Uppercase
import Mathlib.Data.List.Forall2
/-!
# Which texts have an ASCII upper case

Two letters beyond ASCII have a capital of ASCII, the long s and the
dotless i (`capitals_eq_iff`). Ligatures and letters with marks may be
written with capitals of ASCII too, but they take more than one character.
So a word of capitals that no such expansion is part of is the upper case
of the texts that spell it letter by letter, and of no others
(`upper_eq_iff`).
-/

namespace DocQuery

namespace Text

variable {c k : Char} {t word : Text}

/-- **The letters that have a capital of ASCII for their upper case**: the
capital, its small letter, and for two capitals one letter more. -/
def variants (k : Char) : List Char :=
  k :: k.toLower :: (if k = 'S' then ['ſ'] else if k = 'I' then ['ı'] else [])

/-! ## What the tables hold -/

/-- An expansion has more than one character. -/
theorem length_ne_one_of_mem_expansions : ∀ e ∈ capitalExpansions, e.2.length ≠ 1 := by
  decide

/-- The capitals of a run are beyond ASCII, unless the run is the dotless i
or the long s alone. -/
theorem capital_of_mem_runs : ∀ run ∈ capitalRuns,
    (∀ n ≤ run.last - run.first, 0x80 ≤ (Char.ofNat (run.capital + n)).toNat) ∨
      run = ⟨0x131, 0x131, 1, 0x49⟩ ∨ run = ⟨0x17F, 0x17F, 1, 0x53⟩ := by
  decide +kernel

/-- A character of ASCII is among the letters that have its upper case, if
that is a capital. -/
theorem mem_variants_toUpper : ∀ n < 0x80, (Char.ofNat n).toUpper.isUpper →
    Char.ofNat n ∈ variants (Char.ofNat n).toUpper := by
  decide

/-! ## One character -/

/-- Where the upper case of a character is from. -/
theorem capitals_cases (c : Char) :
    c.toNat < 0x80 ∧ capitals c = [c.toUpper] ∨
    0x80 ≤ c.toNat ∧ ((∃ e ∈ capitalExpansions, capitals c = e.2.map Char.ofNat) ∨
      (∃ run ∈ capitalRuns, run.holds c.toNat ∧
        capitals c = [Char.ofNat (run.capital + (c.toNat - run.first))]) ∨
      capitals c = [c]) := by
  rw [capitals]
  split
  · rename_i hascii
    exact .inl ⟨hascii, rfl⟩
  · rename_i hbeyond
    refine .inr ⟨Nat.le_of_not_lt hbeyond, ?_⟩
    split
    · rename_i codes hlookup
      obtain ⟨before, after, hsplit, -⟩ := List.lookup_eq_some_iff.1 hlookup
      refine .inl ⟨(c.toNat, codes), ?_, rfl⟩
      rw [hsplit]
      exact List.mem_append_right _ List.mem_cons_self
    · split
      · rename_i run hfind
        have hholds := List.find?_some hfind
        exact .inr (.inl ⟨run, List.mem_of_find?_eq_some hfind, hholds, rfl⟩)
      · exact .inr (.inr rfl)

/-- So the upper case is one character or an expansion. -/
theorem exists_capitals (c : Char) :
    (∃ k, capitals c = [k]) ∨ ∃ e ∈ capitalExpansions, capitals c = e.2.map Char.ofNat := by
  rcases capitals_cases c with ⟨-, h⟩ | ⟨-, h | ⟨run, -, -, h⟩ | h⟩
  · exact .inl ⟨_, h⟩
  · exact .inr h
  · exact .inl ⟨_, h⟩
  · exact .inl ⟨_, h⟩

theorem toNat_of_isUpper (h : k.isUpper) : 65 ≤ k.toNat ∧ k.toNat ≤ 90 :=
  of_decide_eq_true h

/-- **Beyond ASCII two letters have a capital of ASCII.** -/
theorem eq_of_capitals_eq (hc : 0x80 ≤ c.toNat) (hk : k.isUpper) (h : capitals c = [k]) :
    c = 'ſ' ∧ k = 'S' ∨ c = 'ı' ∧ k = 'I' := by
  obtain ⟨-, hascii⟩ := toNat_of_isUpper hk
  rcases capitals_cases c with ⟨hlt, -⟩ | ⟨-, ⟨e, he, hcapitals⟩ | ⟨run, hrun, hholds, hcapitals⟩ |
    hcapitals⟩
  · omega
  · have hlength : (e.2.map Char.ofNat).length = 1 := by rw [← hcapitals, h]; rfl
    rw [List.length_map] at hlength
    exact absurd hlength (length_ne_one_of_mem_expansions e he)
  · have hletter : Char.ofNat (run.capital + (c.toNat - run.first)) = k :=
      List.head_eq_of_cons_eq (hcapitals.symm.trans h)
    simp only [CapitalRun.holds, Bool.and_eq_true, decide_eq_true_eq] at hholds
    obtain ⟨⟨hfirst, hlast⟩, -⟩ := hholds
    rcases capital_of_mem_runs run hrun with hbeyond | rfl | rfl
    · have hcapital := hbeyond (c.toNat - run.first) (by omega)
      rw [hletter] at hcapital
      omega
    · have hcode : c.toNat = 'ı'.toNat := Nat.le_antisymm hlast hfirst
      refine .inr ⟨Char.toNat_inj.1 hcode, ?_⟩
      rw [← hletter, hcode]
      rfl
    · have hcode : c.toNat = 'ſ'.toNat := Nat.le_antisymm hlast hfirst
      refine .inl ⟨Char.toNat_inj.1 hcode, ?_⟩
      rw [← hletter, hcode]
      rfl
  · have hletter : c = k := List.head_eq_of_cons_eq (hcapitals.symm.trans h)
    rw [hletter] at hc
    omega

/-- The letters that have a capital for their upper case do have it. -/
theorem capitals_variants : ∀ m < 26,
    (variants (Char.ofNat (65 + m))).all (capitals · = [Char.ofNat (65 + m)]) := by
  decide +kernel

/-- **Which characters have a given capital of ASCII for their upper
case.** -/
theorem capitals_eq_iff (hk : k.isUpper) : capitals c = [k] ↔ c ∈ variants k := by
  obtain ⟨hlow, hhigh⟩ := toNat_of_isUpper hk
  constructor
  · intro h
    by_cases hc : c.toNat < 0x80
    · rw [capitals, if_pos hc, List.singleton_inj] at h
      have hmem := mem_variants_toUpper c.toNat hc
      rw [Char.ofNat_toNat, h] at hmem
      exact hmem hk
    · rcases eq_of_capitals_eq (Nat.le_of_not_lt hc) hk h with ⟨rfl, rfl⟩ | ⟨rfl, rfl⟩
      · decide
      · decide
  · have hindex : Char.ofNat (65 + (k.toNat - 65)) = k := by
      rw [Nat.add_sub_cancel' hlow, Char.ofNat_toNat]
    have hall := capitals_variants (k.toNat - 65) (by omega)
    rw [hindex, List.all_eq_true] at hall
    exact fun hc => of_decide_eq_true (hall c hc)

/-! ## Words -/

/-- **The texts that have a word of capitals for their upper case** are
those that spell it letter by letter, if no expansion is part of the
word. -/
theorem upper_eq_iff (hword : ∀ k ∈ word, k.isUpper)
    (hexpansions : ∀ e ∈ capitalExpansions, ¬ e.2.map Char.ofNat <:+: word) :
    upper t = word ↔ List.Forall₂ (fun c k => c ∈ variants k) t word := by
  induction t generalizing word with
  | nil => exact eq_comm.trans List.forall₂_nil_left_iff.symm
  | cons c t ih =>
    have hupper : upper (c :: t) = capitals c ++ upper t := List.flatMap_cons
    have htail : ∀ {k : Char} {rest : Text}, word = k :: rest →
        (upper t = rest ↔ List.Forall₂ (fun c k => c ∈ variants k) t rest) := by
      rintro k rest rfl
      exact ih (fun k hk => hword k (List.mem_cons_of_mem _ hk))
        fun e he hin => hexpansions e he (List.infix_cons hin)
    rw [hupper, List.forall₂_cons_left_iff]
    constructor
    · intro h
      rcases exists_capitals c with ⟨k, hk⟩ | ⟨e, he, hcapitals⟩
      · rw [hk, List.singleton_append] at h
        have hletter : k.isUpper := hword k (h ▸ List.mem_cons_self)
        exact ⟨k, upper t, (capitals_eq_iff hletter).1 hk, (htail h.symm).1 rfl, h.symm⟩
      · rw [hcapitals] at h
        exact absurd (h ▸ (List.prefix_append _ _).isInfix) (hexpansions e he)
    · rintro ⟨k, rest, hk, hrest, rfl⟩
      have hletter : k.isUpper := hword k List.mem_cons_self
      rw [(capitals_eq_iff hletter).2 hk, (htail rfl).2 hrest, List.singleton_append]

end Text

end DocQuery
