import DocQuery.Proofs.Scope.Refusals
import DocQuery.Proofs.Text.Uppercase
/-!
# Which texts name a direction

The upper case of a text is compared with the keywords of an ordering, so
a text names a direction if it spells the keyword letter by letter, in
either case; a long s counts as an S, and no other character beyond ASCII
counts as anything, be it a ligature with an S in it. No text at all means
descending. Every other text is refused before the field is looked at
(`directions_exact`), whatever field and scope it is for.
-/

namespace DocQuery

namespace Direction

variable {t : Text} {d : Direction}

/-- The letters of a direction, each by the characters that it may be
spelled with. -/
def letters : Direction → List (List Char)
  | ascending => [['A', 'a'], ['S', 's', 'ſ'], ['C', 'c']]
  | descending => [['D', 'd'], ['E', 'e'], ['S', 's', 'ſ'], ['C', 'c']]

/-- **A text names a direction**: it spells its letters, or it is empty and
the direction is down. -/
abbrev Names (d : Direction) (t : Text) : Prop :=
  List.Forall₂ (fun c choices => c ∈ choices) t d.letters ∨ d = descending ∧ t = []

/-! ## Upper case and keywords -/

/-- A keyword is made of capitals, and no expansion is part of it. -/
theorem plain_keyword (d : Direction) : (∀ k ∈ d.keyword, k.isUpper) ∧
    ∀ e ∈ Text.capitalExpansions, ¬ e.2.map Char.ofNat <:+: d.keyword := by
  cases d with
  | ascending => exact ⟨List.all_eq_true.1 (by decide), by decide +kernel⟩
  | descending => exact ⟨List.all_eq_true.1 (by decide), by decide +kernel⟩

theorem letters_eq (d : Direction) : d.letters = d.keyword.map Text.variants := by
  cases d <;> decide

/-- The upper case of a text is the keyword if the text spells its
letters. -/
theorem upper_eq_keyword_iff : t.upper = d.keyword ↔
    List.Forall₂ (fun c choices => c ∈ choices) t d.letters := by
  obtain ⟨hcapitals, hexpansions⟩ := plain_keyword d
  rw [letters_eq, List.forall₂_map_right_iff]
  exact Text.upper_eq_iff hcapitals hexpansions

/-- Only the upper case of no text is empty. -/
theorem upper_eq_nil_iff : t.upper = [] ↔ t = [] := by
  have hletters : ∀ k ∈ ([] : Text), k.isUpper := fun _ hk => absurd hk List.not_mem_nil
  rw [Text.upper_eq_iff hletters (by decide +kernel), List.forall₂_nil_right_iff]

/-! ## Directions -/

/-- **A text is taken for a direction exactly if it names it.** -/
theorem parse?_eq_some_iff : parse? t = some d ↔ d.Names t := by
  have hnames : d.Names t ↔ t.upper = d.keyword ∨ d = descending ∧ t.upper = [] := by
    rw [Names, ← upper_eq_keyword_iff, upper_eq_nil_iff]
  rw [hnames, parse?]
  split
  · rename_i hdescending
    rcases hdescending with hupper | hupper
    · rw [hupper]
      cases d <;> decide
    · rw [hupper]
      cases d <;> decide
  · rename_i hother
    split
    · rename_i hascending
      rw [hascending]
      cases d <;> decide
    · rename_i hnone
      refine iff_of_false nofun ?_
      rintro (hupper | ⟨-, hupper⟩)
      · cases d with
        | ascending => exact hnone hupper
        | descending => exact hother (.inr hupper)
      · exact hother (.inl hupper)

theorem parse_eq_ok_iff : parse t = .ok d ↔ d.Names t := by
  rw [← parse?_eq_some_iff, parse]
  cases parse? t with
  | none => exact iff_of_false nofun nofun
  | some d' =>
    exact ⟨fun h => congrArg some (Except.ok.inj h), fun h => congrArg Except.ok (Option.some.inj h)⟩

/-- A text that names no direction is refused. -/
theorem parse_eq_error (h : ∀ d : Direction, ¬ d.Names t) :
    parse t = .error (.argument .order .direction) := by
  have hnone : parse? t = none := by
    rw [Option.eq_none_iff_forall_ne_some]
    exact fun d hd => h d (parse?_eq_some_iff.1 hd)
  rw [parse, hnone]

end Direction

namespace Scope

/-- An ordering by a text that names no direction is refused on every
scope, whatever it orders by. -/
theorem take_orderBy_of_not_names {t : Text} (h : ∀ d : Direction, ¬ d.Names t) (field : Operand)
    (s : Scope) : s.take (.orderBy field t) = .error (.argument .order .direction) := by
  rw [take, Step.compile, orderTerm, Direction.parse_eq_error h]
  rfl

/-- **Which texts name a direction, and what becomes of the others.** A
text is taken for a direction exactly if it spells its letters, or is
empty and the direction is down. Any other text is refused, and with it
the ordering by any field; that leaves every scope as it is, its ordering
terms included, and the steps behind it to themselves. -/
theorem directions_exact :
    (∀ (t : Text) (d : Direction), Direction.parse t = .ok d ↔ d.Names t) ∧
    ∀ t : Text, (∀ d : Direction, ¬ d.Names t) →
      Direction.parse t = .error (.argument .order .direction) ∧
      ∀ (field : Operand) (s : Scope),
        s.take (.orderBy field t) = .error (.argument .order .direction) ∧
        s.run [.orderBy field t] = s ∧
        ∀ rest, s.run (.orderBy field t :: rest) = s.run rest := by
  refine ⟨fun t d => Direction.parse_eq_ok_iff, fun t h => ⟨Direction.parse_eq_error h, ?_⟩⟩
  intro field s
  have hrefused := take_orderBy_of_not_names h field s
  have hkept := run_of_error hrefused
  refine ⟨hrefused, hkept, fun rest => ?_⟩
  rw [run_cons, hkept]

/-- A long s counts as an S, but the upper case of an eszett is two. -/
theorem directions_exact_sharp :
    Direction.parse "aſC".toList = .ok .ascending ∧
    (∀ d : Direction, ¬ d.Names "deßc".toList) ∧
    Direction.parse "deßc".toList = .error (.argument .order .direction) ∧
    ({ orders := ["x ASC".toList] } : Scope).run
      [.orderBy (.field "y".toList) "deßc".toList, .limit (.num (.ofWord 7))] =
        { orders := ["x ASC".toList], limit := 7 } := by
  have hsharp : ∀ d : Direction, ¬ d.Names "deßc".toList := by
    intro d
    cases d <;> decide
  obtain ⟨hnames, hothers⟩ := directions_exact
  obtain ⟨hrefused, hscopes⟩ := hothers _ hsharp
  obtain ⟨-, -, hrun⟩ := hscopes (.field "y".toList) { orders := ["x ASC".toList] }
  exact ⟨(hnames _ _).2 (.inl (by decide)), hsharp, hrefused, hrun [.limit (.num (.ofWord 7))]⟩

end Scope

end DocQuery
