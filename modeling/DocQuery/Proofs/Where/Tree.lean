import DocQuery.Proofs.Sequence
import DocQuery.Scope
/-!
# The predicate tree of a where clause

The structure that a where clause has and that no scope keeps: predicates
and groups of them, each with what joins it to the sibling before. The
tree is read off the steps, and off the edits that they compile to, by
one rule: the first sibling of the clause and of every group is joined to
nothing, and a step that is no predicate leaves no sibling behind.
-/

namespace DocQuery

namespace WhereClause

/-- A predicate, or a group of them, behind its connective. The first of
its siblings has none. -/
inductive Item
  | predicate (joint : Option Connective) (text : Text)
  | group (joint : Option Connective) (items : List Item)

/-- A connective as written, and nothing where there is none. -/
def spelled : Option Connective → Text
  | none => []
  | some c => c.symbol

namespace Item

mutual

/-- The text of an item: a predicate between spaces, a group between a
space and its parentheses. -/
def text : Item → Text
  | predicate j body => spelled j ++ ' ' :: (body ++ [' '])
  | group j items => spelled j ++ ' ' :: '(' :: (textAll items ++ [')'])

/-- **The text of siblings**, in their order and with nothing between. -/
def textAll : List Item → Text
  | [] => []
  | i :: rest => text i ++ textAll rest

end

mutual

/-- Whether no predicate of an item is blank. -/
def isSolid : Item → Bool
  | predicate _ body => !body.isBlank
  | group _ items => areSolid items

/-- Whether no predicate of the items is blank. -/
def areSolid : List Item → Bool
  | [] => true
  | i :: rest => isSolid i && areSolid rest

end

theorem textAll_append (xs ys : List Item) : textAll (xs ++ ys) = textAll xs ++ textAll ys := by
  induction xs with
  | nil => rfl
  | cons x rest ih => rw [List.cons_append, textAll, textAll, ih, List.append_assoc]

theorem areSolid_append (xs ys : List Item) :
    areSolid (xs ++ ys) = (areSolid xs && areSolid ys) := by
  induction xs with
  | nil => rfl
  | cons x rest ih => rw [List.cons_append, areSolid, areSolid, ih, Bool.and_assoc]

end Item

/-- What joins a sibling: the connective of its step, unless it is the
first. -/
def jointOf (first : Bool) (c : Connective) : Option Connective := if first then none else some c

end WhereClause

open WhereClause (Item jointOf)

/-! ## The tree of edits -/

mutual

/-- The sibling that an edit leaves behind, if any. -/
def Edit.items (first : Bool) : Edit → List Item
  | predicate c body => [.predicate (jointOf first c) body]
  | group c inner => [.group (jointOf first c) (Edit.itemsAll true inner)]
  | _ => []

/-- The siblings that edits leave behind. The first sibling is that of the
first edit that leaves one. -/
def Edit.itemsAll (first : Bool) : List Edit → List Item
  | [] => []
  | e :: rest => e.items first ++ Edit.itemsAll (first && (e.items first).isEmpty) rest

end

/-! ## The tree of steps -/

mutual

/-- The sibling that a step leaves behind, if any. A comparison is its
field, its operator and its value. -/
def Step.items (first : Bool) : Step → List Item
  | filter c field operator value =>
    [.predicate (jointOf first c) (field.resolved ++ operator ++ value.encode)]
  | filterRaw c fragment => [.predicate (jointOf first c) fragment]
  | filterGroup c inner => [.group (jointOf first c) (Step.itemsAll true inner)]
  | _ => []

/-- **The predicate tree of steps.** -/
def Step.itemsAll (first : Bool) : List Step → List Item
  | [] => []
  | step :: rest =>
    step.items first ++ Step.itemsAll (first && (step.items first).isEmpty) rest

end

/-- The text of a predicate that is accepted. -/
theorem Predicate.compile_compare {field value : Operand} {operator body : Text}
    (h : (Predicate.compare field operator value).compile = .ok body) :
    body = field.resolved ++ operator ++ value.encode := by
  rw [Predicate.compile] at h
  split at h
  · cases h
  · cases h
    rfl

mutual

/-- **A step and the edit that it compiles to leave the same sibling.** -/
theorem Step.items_compile (first : Bool) : ∀ (step : Step) {e : Edit}, step.compile = .ok e →
    e.items first = step.items first
  | filter c field operator value, e, h => by
    obtain ⟨body, hbody, h⟩ := Except.ok_of_bind h
    cases h
    rw [Predicate.compile_compare hbody]
    rfl
  | filterGroup c inner, e, h => by
    obtain ⟨edits, hinner, h⟩ := Except.ok_of_bind h
    cases h
    rw [Edit.items, Step.itemsAll_compile true inner hinner]
    rfl
  | filterRaw _ _, e, h | join _, e, h | prepend _, e, h | listWords _, e, h
  | alternatives _, e, h => by cases h; rfl
  | select _, e, h | limit _, e, h | offset _, e, h | orderBy _ _, e, h | groupBy _, e, h => by
    obtain ⟨_, -, h⟩ := Except.ok_of_bind h
    cases h
    rfl

/-- And so do steps and their edits. -/
theorem Step.itemsAll_compile (first : Bool) : ∀ (steps : List Step) {edits : List Edit},
    Step.compileAll steps = .ok edits → Edit.itemsAll first edits = Step.itemsAll first steps
  | [], edits, h => by cases h; rfl
  | step :: rest, edits, h => by
    obtain ⟨e, he, h⟩ := Except.ok_of_bind h
    obtain ⟨es, hes, h⟩ := Except.ok_of_bind h
    cases h
    rw [Edit.itemsAll, Step.itemsAll, Step.items_compile first step he,
      Step.itemsAll_compile _ rest hes]

end

end DocQuery
