import DocQuery.Collection
import DocQuery.Proofs.Sequence
/-!
# Keywords stand apart

The assembler of a query puts no space between a where clause and what is
around it: the clause has to bring its own. It does (`isSpaced_takeAll`):
an edit only ever adds to the clause (`Edit.prefix_apply`), what it adds
to an empty clause begins with a space, and at its end it leaves a space
or the parenthesis of a closed group. Inside of a group the clause may end
in the opened parenthesis, but no query is made there. So every section
of a query ends where a keyword can follow, and whichever sections are
missing, the next keyword stands apart (`keywords_stand_apart`).
-/

namespace DocQuery

open WhereClause

/-- A text ends in a space or in a closing parenthesis. -/
abbrev Text.EndsApart (t : Text) : Prop := t.getLast? = some ' ' ∨ t.getLast? = some ')'

namespace Text.EndsApart

variable {t u : Text}

theorem concat_space (t : Text) : EndsApart (t ++ [' ']) := .inl List.getLast?_concat

theorem concat_parenthesis (t : Text) : EndsApart (t ++ [')']) := .inr List.getLast?_concat

/-- What ends apart does so behind any text. -/
theorem append (t : Text) (h : EndsApart u) : EndsApart (t ++ u) := by
  have hne : u ≠ [] := by
    rintro rfl
    rcases h with h | h <;> cases h
  rwa [EndsApart, List.getLast?_append_of_ne_nil t hne]

/-- And so does a text with texts behind it that are empty or end apart. -/
theorem append_flatMap {α : Type} {f : α → Text} (h : EndsApart t) {xs : List α}
    (hxs : ∀ x ∈ xs, f x = [] ∨ EndsApart (f x)) : EndsApart (t ++ xs.flatMap f) := by
  induction xs generalizing t with
  | nil => rwa [List.flatMap_nil, List.append_nil]
  | cons x xs ih =>
    rw [List.flatMap_cons, ← List.append_assoc]
    refine ih ?_ fun y hy => hxs y (List.mem_cons_of_mem x hy)
    rcases hxs x List.mem_cons_self with hnil | hx
    · rwa [hnil, List.append_nil]
    · exact hx.append t

end Text.EndsApart

open Text (EndsApart)

/-! ## The spaces of a clause -/

namespace WhereClause

/-- A clause is empty, or it begins with a space and ends apart. -/
abbrev IsSpaced (clause : Text) : Prop :=
  clause = [] ∨ clause.head? = some ' ' ∧ EndsApart clause

/-- **Whatever is joined to a clause, it begins with a space afterwards**:
the first of a clause is joined by nothing. -/
theorem IsSpaced.head?_append {clause : Text} (h : IsSpaced clause) (c : Connective)
    (added : Text) : (clause ++ (joint c clause ++ ' ' :: added)).head? = some ' ' := by
  rcases h with rfl | ⟨hhead, -⟩
  · rfl
  · rw [List.head?_append, hhead]
    rfl

/-- A clause with one predicate more ends in a space. -/
theorem IsSpaced.push {clause : Text} (h : IsSpaced clause) (c : Connective) (body : Text) :
    IsSpaced (push c body clause) := by
  have hsplit : WhereClause.push c body clause =
      (clause ++ (joint c clause ++ ' ' :: body)) ++ [' '] := by
    simp only [WhereClause.push, fragment, List.append_assoc, List.cons_append]
  exact .inr ⟨h.head?_append c (body ++ [' ']), hsplit ▸ .concat_space _⟩

/-- A clause with one group more ends in a parenthesis, whatever has been
added inside of the group. -/
theorem IsSpaced.group {clause inside : Text} (h : IsSpaced clause) (c : Connective)
    (hinside : openGroup c clause <+: inside) : IsSpaced (closeGroup inside) := by
  obtain ⟨added, rfl⟩ := hinside
  have hsplit : closeGroup (openGroup c clause ++ added) =
      clause ++ (joint c clause ++ ' ' :: ('(' :: (added ++ [')']))) := by
    simp only [closeGroup, openGroup, List.append_assoc, List.cons_append, List.nil_append]
  exact .inr ⟨hsplit ▸ h.head?_append c _, .concat_parenthesis _⟩

end WhereClause

/-! ## The clause of a scope -/

mutual

/-- **An edit takes nothing back** of the clause. -/
theorem Edit.prefix_apply : ∀ (e : Edit) (s : Scope), s.filters <+: (Edit.apply s e).filters
  | predicate c body, _ => List.prefix_append _ _
  | group c inner, s => by
    have hopened : s.filters <+: openGroup c s.filters := List.prefix_append _ _
    have hinner := Edit.prefix_applyAll inner { s with filters := openGroup c s.filters }
    exact (hopened.trans hinner).trans (List.prefix_append _ _)
  | select _, _ | limit _, _ | offset _, _ | order _, _ | groupTerm _, _ | join _, _
  | prepend _, _ | listWords _, _ | alternatives _, _ => List.prefix_refl _

/-- And neither do edits. -/
theorem Edit.prefix_applyAll : ∀ (edits : List Edit) (s : Scope),
    s.filters <+: (Edit.applyAll s edits).filters
  | [], _ => List.prefix_refl _
  | e :: rest, s => (Edit.prefix_apply e s).trans (Edit.prefix_applyAll rest _)

end

/-- **An edit leaves a spaced clause spaced.** -/
theorem Edit.isSpaced_apply {s : Scope} (h : IsSpaced s.filters) (e : Edit) :
    IsSpaced (Edit.apply s e).filters := by
  cases e with
  | predicate c body => exact h.push c body
  | group c inner =>
    exact h.group c (Edit.prefix_applyAll inner { s with filters := openGroup c s.filters })
  | _ => exact h

theorem Edit.isSpaced_applyAll {s : Scope} (h : IsSpaced s.filters) (edits : List Edit) :
    IsSpaced (Edit.applyAll s edits).filters := by
  induction edits generalizing s with
  | nil => exact h
  | cons e rest ih => exact ih (Edit.isSpaced_apply h e)

/-- **The clause of a scope that steps lead to is spaced.** -/
theorem Scope.isSpaced_takeAll {limit offset : UInt64} {steps : List Step} {s : Scope}
    (h : ({ limit, offset } : Scope).takeAll steps = .ok s) : IsSpaced s.filters := by
  obtain ⟨edits, -, hs⟩ := Except.ok_of_bind h
  cases hs
  exact Edit.isSpaced_applyAll (.inl rfl) edits

/-! ## The sections of a query -/

namespace Collection

/-- A query up to its sections with keywords. -/
def opening (c : Collection) (s : Scope) : Text :=
  s.prepend ++ "SELECT ".toList ++ s.select ++ " FROM ".toList ++ c.viewed s ++ [' '] ++
    joinSection s.join

/-- The sections with keywords, each behind its keyword; a section that is
missing is empty. -/
def keyed (s : Scope) : List (Text × Text) :=
  [("WHERE".toList, whereSection s.filters),
    ("GROUP BY".toList, termSection "GROUP BY".toList s.groups),
    ("ORDER BY".toList, termSection "ORDER BY".toList s.orders),
    ("LIMIT".toList, limitSection s.offset s.limit)]

theorem query_eq_keyed (c : Collection) (s : Scope) :
    c.query s = opening c s ++ (keyed s).flatMap (·.2) := by
  rw [query, ← opening]
  simp only [keyed, List.flatMap_cons, List.flatMap_nil, List.append_nil, List.append_assoc]

/-- In front of the sections there is a space. -/
theorem endsApart_opening (c : Collection) (s : Scope) : EndsApart (opening c s) := by
  unfold opening
  cases s.join with
  | none => simpa only [joinSection, List.append_nil] using EndsApart.concat_space _
  | some text => exact (EndsApart.concat_space text).append _

theorem endsApart_whereSection {filters : Text} (h : IsSpaced filters) :
    whereSection filters = [] ∨ EndsApart (whereSection filters) := by
  rcases h with rfl | ⟨-, hends⟩
  · exact .inl rfl
  · unfold whereSection
    split
    · exact .inl rfl
    · exact .inr (hends.append _)

theorem endsApart_termSection (keyword : Text) (terms : List Text) :
    termSection keyword terms = [] ∨ EndsApart (termSection keyword terms) := by
  unfold termSection
  split
  · exact .inl rfl
  · have hspace : ∀ t : Text, EndsApart (' ' :: (t ++ [' '])) := fun t =>
      EndsApart.concat_space (' ' :: t)
    exact .inr ((hspace _).append keyword)

/-- **Where the pagination is not yet written, a keyword can follow.** -/
theorem endsApart_of_keyed {s : Scope} (h : IsSpaced s.filters) (c : Collection)
    {before after : List (Text × Text)} {p : Text × Text}
    (hsplit : keyed s = before ++ p :: after) :
    EndsApart (opening c s ++ before.flatMap (·.2)) := by
  have hbefore : ∀ q ∈ before, q ∈ (keyed s).dropLast := by
    intro q hq
    rw [hsplit, List.dropLast_append_of_ne_nil (List.cons_ne_nil p after)]
    exact List.mem_append_left _ hq
  refine (endsApart_opening c s).append_flatMap fun q hq => ?_
  have hmem := hbefore q hq
  simp only [keyed, List.dropLast_cons_cons, List.dropLast_singleton, List.mem_cons,
    List.not_mem_nil, or_false] at hmem
  rcases hmem with rfl | rfl | rfl
  · exact endsApart_whereSection h
  · exact endsApart_termSection _ _
  · exact endsApart_termSection _ _

/-- **A section begins with its keyword and a space**, if it is there. -/
theorem begins_of_mem_keyed {s : Scope} (h : IsSpaced s.filters) {p : Text × Text}
    (hp : p ∈ keyed s) : p.2 = [] ∨ ∃ rest, p.2 = p.1 ++ ' ' :: rest := by
  have hterms : ∀ (keyword : Text) (terms : List Text), termSection keyword terms = [] ∨
      ∃ rest, termSection keyword terms = keyword ++ ' ' :: rest := by
    intro keyword terms
    unfold termSection
    split
    · exact .inl rfl
    · exact .inr ⟨_, rfl⟩
  simp only [keyed, List.mem_cons, List.not_mem_nil, or_false] at hp
  rcases hp with rfl | rfl | rfl | rfl
  · rcases h with hnil | ⟨hhead, -⟩
    · exact .inl (by rw [hnil]; rfl)
    · obtain ⟨rest, hrest⟩ := List.head?_eq_some_iff.1 hhead
      exact .inr ⟨rest, by rw [hrest]; rfl⟩
  · exact hterms _ _
  · exact hterms _ _
  · exact .inr ⟨_, rfl⟩

/-- **Keywords stand apart.** The where clause of a scope that valid steps
lead to is empty, or it begins with a space and ends with a space or a
closing parenthesis. So in the queries of the scope, whichever sections
there are, what is written in front of a section ends with a space or a
closing parenthesis, and the section is missing or begins with its keyword
and a space. -/
theorem keywords_stand_apart {limit offset : UInt64} {steps : List Step} {s : Scope}
    (h : ({ limit, offset } : Scope).takeAll steps = .ok s) :
    (s.filters = [] ∨ s.filters.head? = some ' ' ∧
      (s.filters.getLast? = some ' ' ∨ s.filters.getLast? = some ')')) ∧
    ∀ (c : Collection) (before after : List (Text × Text)) (keyword written : Text),
      keyed s = before ++ (keyword, written) :: after →
        let front := opening c s ++ before.flatMap (·.2)
        c.query s = front ++ (written ++ after.flatMap (·.2)) ∧
        (front.getLast? = some ' ' ∨ front.getLast? = some ')') ∧
        (written = [] ∨ ∃ rest, written = keyword ++ ' ' :: rest) := by
  have hspaced := Scope.isSpaced_takeAll h
  refine ⟨hspaced, fun c before after keyword written hsplit => ⟨?_, ?_, ?_⟩⟩
  · rw [query_eq_keyed, hsplit, List.flatMap_append, List.flatMap_cons, List.append_assoc]
  · exact endsApart_of_keyed hspaced c hsplit
  · refine begins_of_mem_keyed hspaced (p := (keyword, written)) ?_
    rw [hsplit]
    exact List.mem_append_right _ List.mem_cons_self

/-- A blank predicate and a group with nothing in it but an ordering. -/
def blankSteps : List Step :=
  [.filterRaw .or [], .filterGroup .and [.orderBy (.raw ['x']) []]]

/-- The scope of those steps. -/
def blankScope : Scope := { filters := "   ()".toList, orders := ["x DESC".toList] }

/-- In its query the ordering comes right behind the parenthesis. -/
theorem keywords_stand_apart_blank :
    ({ limit := 20, offset := 0 } : Scope).takeAll blankSteps = .ok blankScope ∧
    (blankScope.filters.head? = some ' ' ∧
      (blankScope.filters.getLast? = some ' ' ∨ blankScope.filters.getLast? = some ')')) ∧
    let front := "SELECT * FROM books WHERE   ()".toList
    (Collection.mk "100.books".toList).query blankScope =
      front ++ ("ORDER BY x DESC ".toList ++ "LIMIT 0, 20".toList) ∧
    (front.getLast? = some ' ' ∨ front.getLast? = some ')') := by
  have htake : ({ limit := 20, offset := 0 } : Scope).takeAll blankSteps = .ok blankScope := rfl
  have hkeyed : keyed blankScope =
      [("WHERE".toList, "WHERE   ()".toList), ("GROUP BY".toList, [])] ++
        ("ORDER BY".toList, "ORDER BY x DESC ".toList) :: [("LIMIT".toList, "LIMIT 0, 20".toList)] :=
    rfl
  obtain ⟨hclause, hsections⟩ := keywords_stand_apart htake
  obtain ⟨hquery, hfront, -⟩ := hsections (Collection.mk "100.books".toList) _ _ _ _ hkeyed
  exact ⟨htake, hclause.resolve_left (by decide), hquery, hfront⟩

end Collection

end DocQuery
