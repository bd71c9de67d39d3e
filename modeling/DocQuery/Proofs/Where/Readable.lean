import DocQuery.Proofs.Json.Closed
import DocQuery.Proofs.Where.Clause
/-!
# The where clause can be read back

A reader that knows literals can take a where clause apart: a predicate
whose text is closed ends at the first space outside literals, a group is
told from a predicate by its parenthesis, and whatever follows an item
says by its first character whether a sibling comes. So two trees of one
text are one tree (`textAll_cancel`). Comparisons of plain fields with
arbitrary values have closed texts, and for steps of that kind the tree
can be read off the clause of the scope (`items_eq_of_filters_eq`).
-/

namespace DocQuery

open WhereClause Item

namespace WhereClause

/-! ## Readable trees -/

/-- Where a reader of predicates stops outside literals: at white space
and parentheses. -/
def stopsPredicate (c : Char) : Bool := Text.isSpace c || c = '(' || c = ')'

theorem stopsPredicate_of_isDigit {c : Char} (h : c.isDigit) : stopsPredicate c = false := by
  have hspace : Text.isSpace c = false := Text.isSpace_of_isDigit h
  have hleft : c ≠ '(' := by
    rintro rfl
    exact absurd h (by decide)
  have hright : c ≠ ')' := by
    rintro rfl
    exact absurd h (by decide)
  simp [stopsPredicate, hspace, hleft, hright]

/-- Such a reader passes JSON. -/
theorem passesJson_stopsPredicate : PassesJson stopsPredicate where
  numeral c h := by
    simp only [isNumeral, Bool.or_eq_true, decide_eq_true_eq] at h
    rcases h with (((h | rfl) | rfl) | rfl) | rfl
    · exact stopsPredicate_of_isDigit h
    all_goals rfl
  mark := by decide

/-- A closed text is not blank unless it is empty. -/
theorem isBlank_of_closed {t : Text} (h : Closed stopsPredicate t) (hne : t ≠ []) :
    t.isBlank = false := by
  obtain ⟨c, t, rfl⟩ := List.exists_cons_of_ne_nil hne
  have hstop : stopsPredicate c = false := h.head
  have hspace : Text.isSpace c = false := by
    cases hc : Text.isSpace c with
    | false => rfl
    | true => simp [stopsPredicate, hc] at hstop
  simp [Text.isBlank, hspace]

/-- Only a first sibling has no connective. -/
theorem isNone_jointOf {first : Bool} {c : Connective} : (jointOf first c).isNone = first := by
  cases first <;> rfl

namespace Item

mutual

/-- Whether an item can be read: its predicates are closed and not empty,
and the first of siblings is the one without connective. -/
def IsReadable (first : Bool) : Item → Prop
  | predicate j body => j.isNone = first ∧ Closed stopsPredicate body ∧ body ≠ []
  | group j items => j.isNone = first ∧ AreReadable true items

/-- Whether siblings can be read. -/
def AreReadable (first : Bool) : List Item → Prop
  | [] => True
  | i :: rest => IsReadable first i ∧ AreReadable false rest

end

mutual

/-- A predicate that can be read is not blank. -/
theorem isSolid_of_isReadable {first : Bool} : ∀ {i : Item}, IsReadable first i → isSolid i
  | predicate _ body, h => by
    rw [isSolid, isBlank_of_closed h.2.1 h.2.2]
    rfl
  | group _ _, h => areSolid_of_areReadable h.2

theorem areSolid_of_areReadable {first : Bool} :
    ∀ {items : List Item}, AreReadable first items → areSolid items
  | [], _ => rfl
  | _ :: _, h => by
    rw [areSolid, isSolid_of_isReadable h.1, areSolid_of_areReadable h.2]
    rfl

end

/-! ## Reading them back -/

/-- What can follow siblings: nothing, or what closes their group. -/
def EndsSiblings (t : Text) : Prop := t = [] ∨ ∃ rest, t = ')' :: rest

/-- What follows siblings is no further sibling. -/
theorem not_endsSiblings_text (i : Item) (t : Text) : ¬ EndsSiblings (text i ++ t) := by
  have hhead : ∀ (j : Option Connective) (u : Text), ¬ EndsSiblings (spelled j ++ ' ' :: u) := by
    rintro (_ | _ | _) u (h | ⟨rest, h⟩)
    all_goals cases h
  cases i with
  | predicate j body =>
    rw [text, List.append_assoc]
    exact hhead j _
  | group j items =>
    rw [text, List.append_assoc]
    exact hhead j _

/-- Whether there is a connective is known from the place among the
siblings, and which one from the text. -/
theorem spelled_cancel {j₁ j₂ : Option Connective} {t₁ t₂ : Text}
    (hnone : j₁.isNone = j₂.isNone) (h : spelled j₁ ++ ' ' :: t₁ = spelled j₂ ++ ' ' :: t₂) :
    j₁ = j₂ ∧ t₁ = t₂ := by
  -- of the nine pairs, those of one connective are the case at hand, and the
  -- others differ in their first character or in `hnone`
  rcases j₁ with _ | _ | _ <;> rcases j₂ with _ | _ | _ <;>
    simp_all [spelled, Connective.symbol]

/-- A predicate is no group: the parenthesis of a group is no part of a
closed text. -/
theorem predicate_ne_group {body t u : Text} (hclosed : Closed stopsPredicate body)
    (hne : body ≠ []) : body ++ t ≠ '(' :: u := by
  obtain ⟨c, body, rfl⟩ := List.exists_cons_of_ne_nil hne
  intro h
  obtain ⟨rfl, -⟩ := List.cons_eq_cons.1 h
  exact absurd hclosed.head (by decide)

mutual

/-- Items in one place that have one text, whatever follows them, are one
item. -/
theorem text_cancel {first : Bool} : ∀ {i₁ i₂ : Item} {t₁ t₂ : Text}, IsReadable first i₁ →
    IsReadable first i₂ → text i₁ ++ t₁ = text i₂ ++ t₂ → i₁ = i₂ ∧ t₁ = t₂
  | predicate j₁ body₁, predicate j₂ body₂, t₁, t₂, h₁, h₂, h => by
    simp only [text, List.append_assoc, List.cons_append, List.nil_append] at h
    obtain ⟨rfl, hbehind⟩ := spelled_cancel (h₁.1.trans h₂.1.symm) h
    obtain ⟨rfl, -, rfl⟩ := closed_cancel (by decide) (by decide) h₁.2.1 h₂.2.1
      hbehind
    exact ⟨rfl, rfl⟩
  | group j₁ items₁, group j₂ items₂, t₁, t₂, h₁, h₂, h => by
    simp only [text, List.append_assoc, List.cons_append, List.nil_append] at h
    obtain ⟨rfl, hbehind⟩ := spelled_cancel (h₁.1.trans h₂.1.symm) h
    -- inside, both lists of siblings end at the parenthesis of their group
    obtain ⟨rfl, hclose⟩ := textAll_cancel h₁.2 h₂.2 (.inr ⟨t₁, rfl⟩) (.inr ⟨t₂, rfl⟩)
      (List.cons_eq_cons.1 hbehind).2
    exact ⟨rfl, (List.cons_eq_cons.1 hclose).2⟩
  | predicate j₁ body₁, group j₂ items₂, t₁, t₂, h₁, h₂, h => by
    simp only [text, List.append_assoc, List.cons_append, List.nil_append] at h
    obtain ⟨rfl, hbehind⟩ := spelled_cancel (h₁.1.trans h₂.1.symm) h
    exact absurd hbehind (predicate_ne_group h₁.2.1 h₁.2.2)
  | group j₁ items₁, predicate j₂ body₂, t₁, t₂, h₁, h₂, h => by
    simp only [text, List.append_assoc, List.cons_append, List.nil_append] at h
    obtain ⟨rfl, hbehind⟩ := spelled_cancel (h₁.1.trans h₂.1.symm) h
    exact absurd hbehind.symm (predicate_ne_group h₂.2.1 h₂.2.2)

/-- **Siblings that have one text are the same siblings**, whatever ends
them. -/
theorem textAll_cancel {first : Bool} : ∀ {xs ys : List Item} {t₁ t₂ : Text},
    AreReadable first xs → AreReadable first ys → EndsSiblings t₁ → EndsSiblings t₂ →
    textAll xs ++ t₁ = textAll ys ++ t₂ → xs = ys ∧ t₁ = t₂
  | [], [], t₁, t₂, _, _, _, _, h => ⟨rfl, h⟩
  | [], y :: ys, t₁, t₂, _, _, hend, _, h => by
    -- the end of the one text would be the next sibling of the other
    rw [textAll, textAll, List.nil_append, List.append_assoc] at h
    exact absurd (h ▸ hend) (not_endsSiblings_text y _)
  | x :: xs, [], t₁, t₂, _, _, _, hend, h => by
    rw [textAll, textAll, List.nil_append, List.append_assoc] at h
    exact absurd (h ▸ hend) (not_endsSiblings_text x _)
  | x :: xs, y :: ys, t₁, t₂, h₁, h₂, hend₁, hend₂, h => by
    rw [textAll, textAll, List.append_assoc, List.append_assoc] at h
    obtain ⟨rfl, hrest⟩ := text_cancel h₁.1 h₂.1 h
    obtain ⟨rfl, hends⟩ := textAll_cancel h₁.2 h₂.2 hend₁ hend₂ hrest
    exact ⟨rfl, hends⟩

end

end Item

/-- Text that stands for itself: no white space, no parentheses, no quotes
and no backslashes. -/
def isBare (t : Text) : Bool := t.all fun c => !stopsPredicate c && c ≠ '"' && c ≠ '\\'

theorem closed_of_isBare {t : Text} (h : isBare t) : Closed stopsPredicate t := by
  refine Closed.of_forall fun c hc => ?_
  have hbare := List.all_eq_true.1 h c hc
  simp only [Bool.and_eq_true, Bool.not_eq_true', decide_eq_true_eq] at hbare
  exact ⟨hbare.1.2, hbare.1.1⟩

end WhereClause

/-! ## Steps that can be read back -/

/-- A field by name, without quote and backslash in the name, or bare
text. -/
def Operand.isBareField : Operand → Bool
  | field name => !name.contains '"' && !name.contains '\\'
  | lit (.str t) => isBare t
  | _ => false

mutual

/-- Whether a step compares a bare field with a value by a bare operator,
or is a group of such steps. -/
def Step.isReadable : Step → Bool
  | filter _ field operator (.lit _) => field.isBareField && isBare operator
  | filterGroup _ inner => Step.areReadable inner
  | _ => false

/-- Whether all steps are of this kind. -/
def Step.areReadable : List Step → Bool
  | [] => true
  | step :: rest => step.isReadable && Step.areReadable rest

end

theorem Operand.closed_resolved {o : Operand} (h : o.isBareField) :
    Closed stopsPredicate o.resolved := by
  cases o with
  | field name =>
    simp only [isBareField, Bool.and_eq_true, Bool.not_eq_true', List.contains_eq_mem,
      decide_eq_false_iff_not] at h
    exact closed_accessor (by decide) h.1 h.2
  | lit v =>
    cases v with
    | str t => exact closed_of_isBare h
    | _ => cases h
  | raw t => cases h

/-- A comparison of a bare field is never refused. -/
theorem Predicate.compile_bare {field value : Operand} (operator : Text)
    (h : field.isBareField) : (Predicate.compare field operator value).compile =
      .ok (field.resolved ++ operator ++ value.encode) := by
  have hplain : field.isComposite = false := by
    cases field with
    | lit v => cases v <;> first | rfl | cases h
    | _ => rfl
  rw [compile, subject, hplain]
  rfl

mutual

/-- Such a step is never refused, and leaves one sibling, which can be
read. -/
theorem Step.readable_of_isReadable (first : Bool) : ∀ {step : Step}, step.isReadable →
    (∃ e, step.compile = .ok e) ∧ ∃ i, step.items first = [i] ∧ IsReadable first i
  | filter c field operator (.lit v), h => by
    obtain ⟨hfield, hoperator⟩ := Bool.and_eq_true_iff.1 h
    refine ⟨⟨.predicate c (field.resolved ++ operator ++ (Operand.lit v).encode), ?_⟩,
      _, rfl, isNone_jointOf, ?_, ?_⟩
    · rw [Step.compile, Predicate.compile_bare operator hfield]
      rfl
    · exact ((Operand.closed_resolved hfield).append (closed_of_isBare hoperator)).append
        (passesJson_stopsPredicate.closed_encode v)
    · exact List.append_ne_nil_of_right_ne_nil _ (Operand.encode_lit_ne_nil v)
  | filterGroup c inner, h => by
    obtain ⟨⟨edits, hedits⟩, hitems⟩ := Step.readable_of_areReadable true h
    refine ⟨⟨.group c edits, ?_⟩, _, rfl, isNone_jointOf, hitems⟩
    rw [Step.compile, hedits]
    rfl

/-- And so are such steps. -/
theorem Step.readable_of_areReadable (first : Bool) : ∀ {steps : List Step},
    Step.areReadable steps → (∃ edits, Step.compileAll steps = .ok edits) ∧
      AreReadable first (Step.itemsAll first steps)
  | [], _ => ⟨⟨_, rfl⟩, trivial⟩
  | step :: rest, h => by
    obtain ⟨hstep, hrest⟩ := Bool.and_eq_true_iff.1 h
    obtain ⟨⟨e, he⟩, i, hi, hread⟩ := Step.readable_of_isReadable first hstep
    obtain ⟨⟨edits, hedits⟩, hreads⟩ := Step.readable_of_areReadable false hrest
    refine ⟨⟨e :: edits, ?_⟩, ?_⟩
    · rw [Step.compileAll, he, hedits]
      rfl
    · rw [Step.itemsAll, hi]
      simpa using ⟨hread, hreads⟩

end

namespace Scope

/-- Such steps run to the end, and the clause is the text of a tree that
can be read. -/
theorem takeAll_of_areReadable (limit offset : UInt64) {steps : List Step}
    (h : Step.areReadable steps) : AreReadable true (Step.itemsAll true steps) ∧
      ∃ s, ({ limit, offset } : Scope).takeAll steps = .ok s ∧
        s.filters = textAll (Step.itemsAll true steps) := by
  obtain ⟨⟨edits, hedits⟩, hread⟩ := Step.readable_of_areReadable true h
  have hrun : ({ limit, offset } : Scope).takeAll steps =
      .ok (Edit.applyAll { limit, offset } edits) := by
    rw [takeAll, hedits]
    rfl
  exact ⟨hread, _, hrun, filters_eq_append hrun (areSolid_of_areReadable hread)⟩

/-- **The where clause says which predicates it was made of.** Two runs of
comparisons of bare fields with values of any kind, grouped in any way,
that come to the same clause have the same predicate tree: the same groups
around the same predicates, and the same connective on every sibling but
the first. -/
theorem items_eq_of_filters_eq (limit₁ offset₁ limit₂ offset₂ : UInt64)
    {steps₁ steps₂ : List Step} (h₁ : Step.areReadable steps₁) (h₂ : Step.areReadable steps₂) :
    ∃ s₁ s₂ : Scope,
      ({ limit := limit₁, offset := offset₁ } : Scope).takeAll steps₁ = .ok s₁ ∧
      ({ limit := limit₂, offset := offset₂ } : Scope).takeAll steps₂ = .ok s₂ ∧
      (s₁.filters = s₂.filters → Step.itemsAll true steps₁ = Step.itemsAll true steps₂) := by
  obtain ⟨hread₁, s₁, hrun₁, htext₁⟩ := takeAll_of_areReadable limit₁ offset₁ h₁
  obtain ⟨hread₂, s₂, hrun₂, htext₂⟩ := takeAll_of_areReadable limit₂ offset₂ h₂
  refine ⟨s₁, s₂, hrun₁, hrun₂, fun heq => ?_⟩
  have htexts : textAll (Step.itemsAll true steps₁) ++ [] =
      textAll (Step.itemsAll true steps₂) ++ [] := by
    rw [List.append_nil, List.append_nil, ← htext₁, ← htext₂, heq]
  exact (textAll_cancel hread₁ hread₂ (.inl rfl) (.inl rfl) htexts).1

/-- Steps whose values hold spaces, parentheses, quotes and connectives,
with the equality sign in the operator. -/
def spacedSteps : List Step :=
  [.filterEq .and (.lit (.str "a".toList)) (.lit (.str "b\") && ( c".toList)),
    .filterGroup .or [], .filter .and (.field "d e)".toList) ['<'] (.lit (.arr [.str [')']]))]

/-- The same tree from other steps: the equality sign is divided between
the field and the operator, and the first connective, which is not
written, is the other one. -/
def dividedSteps : List Step :=
  [.filter .or (.lit (.str "a=".toList)) ['='] (.lit (.str "b\") && ( c".toList)),
    .filterGroup .or [], .filter .and (.field "d e)".toList) ['<'] (.lit (.arr [.str [')']]))]

/-- Those two runs come to one clause. -/
theorem items_eq_of_filters_eq_spaced :
    Step.areReadable spacedSteps ∧ Step.areReadable dividedSteps ∧ ∃ s₁ s₂ : Scope,
      ({ limit := 20, offset := 0 } : Scope).takeAll spacedSteps = .ok s₁ ∧
      ({ limit := 1, offset := 2 } : Scope).takeAll dividedSteps = .ok s₂ ∧
      s₁.filters = s₂.filters ∧
      Step.itemsAll true spacedSteps = Step.itemsAll true dividedSteps := by
  have h₁ : Step.areReadable spacedSteps := by decide
  have h₂ : Step.areReadable dividedSteps := by decide
  obtain ⟨s₁, s₂, hrun₁, hrun₂, htree⟩ := items_eq_of_filters_eq 20 0 1 2 h₁ h₂
  have heq : s₁.filters = s₂.filters := by
    cases hrun₁
    cases hrun₂
    decide
  exact ⟨h₁, h₂, s₁, s₂, hrun₁, hrun₂, heq, htree heq⟩

end Scope

end DocQuery
