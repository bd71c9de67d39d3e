import DocQuery.Proofs.Where.Tree
/-!
# The where clause is the text of its tree

A scope keeps no tree: whether a predicate is the first of its siblings is
read off the clause so far, which is blank or ends in an opened group.
`atStart_concat` reduces that test to the last character. As long as no
predicate is blank the test finds exactly the first siblings, at every
depth, and the clause is the text of the predicate tree
(`filters_of_takeAll`).
-/

namespace DocQuery

open WhereClause

namespace WhereClause

/-! ## The test for a first sibling -/

/-- The test looks at the last character and at nothing else of a clause
that is not blank. -/
theorem atStart_concat (t : Text) (c : Char) :
    atStart (t ++ [c]) = (t.isBlank && Text.isSpace c || c == '(') := by
  simp [atStart, Text.isBlank]

/-- Behind a predicate that is not blank comes a later sibling. -/
theorem atStart_fragment {body : Text} (h : body.isBlank = false) (clause joint : Text) :
    atStart (clause ++ fragment joint body) = false := by
  have hsplit : clause ++ fragment joint body = (clause ++ (joint ++ ' ' :: body)) ++ [' '] := by
    simp [fragment]
  have hblank : (clause ++ (joint ++ ' ' :: body)).isBlank = false := by
    simp only [Text.isBlank] at h ⊢
    simp [h]
  rw [hsplit, atStart_concat, hblank]
  rfl

/-- Inside an opened group comes a first sibling. -/
theorem atStart_openGroup (c : Connective) (clause : Text) :
    atStart (openGroup c clause) = true := by
  have hsplit : openGroup c clause = (clause ++ (joint c clause ++ [' '])) ++ ['('] := by
    simp [openGroup]
  rw [hsplit, atStart_concat]
  simp

/-- Behind a closed group comes a later sibling. -/
theorem atStart_closeGroup (clause : Text) : atStart (closeGroup clause) = false := by
  rw [closeGroup, atStart_concat]
  simp [Text.isSpace]

/-- What the test writes is what the place among the siblings asks for. -/
theorem joint_eq_spelled (c : Connective) (clause : Text) :
    joint c clause = spelled (jointOf (atStart clause) c) := by
  rw [joint, jointOf]
  split <;> rfl

end WhereClause

/-! ## The clause of a scope -/

open Item

mutual

/-- **What an edit does to the clause**: the text of its sibling is added,
and the next sibling is the first only if this was to be and did not
come. -/
theorem Edit.filters_apply : ∀ (e : Edit) (s : Scope),
    areSolid (e.items (atStart s.filters)) →
      (Edit.apply s e).filters = s.filters ++ textAll (e.items (atStart s.filters)) ∧
      atStart (Edit.apply s e).filters =
        (atStart s.filters && (e.items (atStart s.filters)).isEmpty)
  | predicate c body, s, hsolid => by
    have hbody : body.isBlank = false := by
      simpa [Edit.items, areSolid, isSolid] using hsolid
    have htext : WhereClause.push c body s.filters =
        s.filters ++ textAll ((predicate c body).items (atStart s.filters)) := by
      simp [WhereClause.push, fragment, joint_eq_spelled, Edit.items, textAll, text]
    refine ⟨htext, ?_⟩
    change atStart (WhereClause.push c body s.filters) = _
    rw [WhereClause.push, atStart_fragment hbody]
    simp [Edit.items]
  | group c inner, s, hsolid => by
    have hinner : areSolid (Edit.itemsAll true inner) := by
      simpa [Edit.items, areSolid, isSolid] using hsolid
    have hopened := Edit.filters_applyAll inner
      { s with filters := openGroup c s.filters } (by rwa [atStart_openGroup])
    rw [atStart_openGroup] at hopened
    refine ⟨?_, ?_⟩
    · -- the inner edits run on the whole scope, whose clause ends in the opened group
      change closeGroup
        (Edit.applyAll { s with filters := openGroup c s.filters } inner).filters = _
      rw [hopened]
      simp [closeGroup, openGroup, joint_eq_spelled, Edit.items, textAll, text]
    · rw [Edit.apply, atStart_closeGroup]
      simp [Edit.items]
  | select _, s, _ | limit _, s, _ | offset _, s, _ | order _, s, _ | groupTerm _, s, _
  | join _, s, _ | prepend _, s, _ | listWords _, s, _ | alternatives _, s, _ =>
    ⟨(List.append_nil _).symm, (Bool.and_true _).symm⟩

/-- And edits add the texts of their siblings. -/
theorem Edit.filters_applyAll : ∀ (edits : List Edit) (s : Scope),
    areSolid (Edit.itemsAll (atStart s.filters) edits) →
      (Edit.applyAll s edits).filters =
        s.filters ++ textAll (Edit.itemsAll (atStart s.filters) edits)
  | [], s, _ => (List.append_nil _).symm
  | e :: rest, s, hsolid => by
    rw [Edit.itemsAll, areSolid_append, Bool.and_eq_true] at hsolid
    obtain ⟨htext, hstart⟩ := Edit.filters_apply e s hsolid.1
    have hrest := Edit.filters_applyAll rest (Edit.apply s e) (by rw [hstart]; exact hsolid.2)
    rw [Edit.applyAll, hrest, hstart, htext, Edit.itemsAll, textAll_append, List.append_assoc]

end

namespace Scope

/-- Valid steps add the text of their predicate tree to the clause. -/
theorem filters_eq_append {start s : Scope} {steps : List Step}
    (h : start.takeAll steps = .ok s)
    (hsolid : areSolid (Step.itemsAll (atStart start.filters) steps)) :
    s.filters = start.filters ++ textAll (Step.itemsAll (atStart start.filters) steps) := by
  obtain ⟨edits, hedits, h⟩ := Except.ok_of_bind h
  cases h
  rw [← Step.itemsAll_compile _ steps hedits] at hsolid ⊢
  exact Edit.filters_applyAll edits start hsolid

/-- **The where clause of a scope is the text of its predicate tree.** The
scope is a fresh one after steps that are all valid, of whose predicates
none is blank; steps of other kinds may stand anywhere, inside groups
too. -/
theorem filters_of_takeAll {limit offset : UInt64} {steps : List Step} {s : Scope}
    (h : ({ limit, offset } : Scope).takeAll steps = .ok s)
    (hsolid : areSolid (Step.itemsAll true steps)) :
    s.filters = textAll (Step.itemsAll true steps) :=
  filters_eq_append h hsolid

/-- Steps with a group in a group, fragments that end in parentheses, and
steps of other kinds at the front and inside a group. -/
def nestedSteps : List Step :=
  [.orderBy (.raw "x".toList) "asc".toList,
    .filterEq .and (.lit (.str "a".toList)) (.field "b".toList),
    .filterGroup .or [.join "j".toList, .filterRaw .or "d(".toList,
      .filterGroup .and [.filterRaw .or "e)".toList]],
    .filterRaw .and "f".toList]

/-- The clause of those steps. -/
theorem filters_of_takeAll_nested : ∃ s : Scope,
    ({ limit := 20, offset := 0 } : Scope).takeAll nestedSteps = .ok s ∧
      areSolid (Step.itemsAll true nestedSteps) ∧
      s.filters = " a==this[\"b\"] || ( d( && ( e) ))&& f ".toList := by
  have hsolid : areSolid (Step.itemsAll true nestedSteps) := by decide
  refine ⟨_, rfl, hsolid, ?_⟩
  exact (filters_of_takeAll rfl hsolid).trans (by decide)

end Scope

end DocQuery
