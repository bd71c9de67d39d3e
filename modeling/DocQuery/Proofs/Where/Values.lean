import DocQuery.Proofs.Literal.Unquote
import DocQuery.Proofs.Scope.Interleaving
import DocQuery.Proofs.Scope.Refusals
import DocQuery.Proofs.Where.Readable
import Mathlib.Data.List.Basic
/-!
# Values keep to their place

The value of a comparison may be any text at all, and whatever it is, it
ends where it was put. A `Gap` is a list of steps with one such value left
open, at any depth of groups. Filling it changes nothing of the query but
the spelling of the value (`Gap.takeAll_fill`): whether a later predicate
is joined is read off the end of the clause, where behind a value there is
always a space (`Edit.apply_around`). Of the spelling itself a reader that
knows quotes and backslashes gets out where it went in, so it reads on
behind a value as if none had been there (`Collection.query_fill`).
-/

namespace DocQuery

open WhereClause

namespace Scope

variable {s t : Scope} {front back e : Text}

/-- A comparison is refused for its field only. -/
theorem take_filter (s : Scope) (c : Connective) (field : Operand) (operator : Text)
    (value : Operand) : s.take (.filter c field operator value) =
      if field.isComposite then .error (.argument .filter .fieldSelector) else .ok
        { s with filters := push c (field.resolved ++ operator ++ value.encode) s.filters } := by
  rw [take, Step.compile, Predicate.compile, Predicate.subject]
  split <;> rfl

/-! ## Clauses around a text -/

/-- A scope whose clause has a text somewhere, and behind it a space. -/
def around (t : Scope) (front back e : Text) : Scope :=
  { t with filters := front ++ (e ++ ' ' :: back) }

/-- What joins a predicate to a clause that ends in a text that is not
blank, a space, and what is behind that. -/
def jointBehind (c : Connective) (back : Text) : Text :=
  if (' ' :: back).getLast? == some '(' then [] else c.symbol

/-- The test for a first sibling does not see the text. -/
theorem joint_around (c : Connective) (h : e.isBlank = false) :
    joint c (t.around front back e).filters = jointBehind c back := by
  have hblank : (front ++ (e ++ ' ' :: back)).isBlank = false := by
    rw [Text.isBlank] at h
    simp only [Text.isBlank, List.all_append, h, Bool.false_and, Bool.and_false]
  have hlast : (front ++ (e ++ ' ' :: back)).getLast? = (' ' :: back).getLast? := by
    rw [← List.append_assoc]
    exact List.getLast?_append_of_ne_nil _ (List.cons_ne_nil _ _)
  rw [joint, around, atStart, hblank, hlast, Bool.false_or, jointBehind]

/-- A predicate comes behind the text. -/
theorem push_around (c : Connective) (body : Text) (h : e.isBlank = false) :
    push c body (t.around front back e).filters =
      (t.around front (back ++ fragment (jointBehind c back) body) e).filters := by
  rw [push, joint_around c h]
  simp only [around, List.append_assoc, List.cons_append]

theorem openGroup_around (c : Connective) (h : e.isBlank = false) :
    openGroup c (t.around front back e).filters =
      (t.around front (back ++ (jointBehind c back ++ [' ', '('])) e).filters := by
  rw [openGroup, joint_around c h]
  simp only [around, List.append_assoc, List.cons_append]

theorem closeGroup_around :
    closeGroup (t.around front back e).filters = (t.around front (back ++ [')']) e).filters := by
  simp only [closeGroup, around, List.append_assoc, List.cons_append]

end Scope

open Scope (around)

mutual

/-- **What an edit does behind a text does not depend on the text**, unless
that is blank. -/
theorem Edit.apply_around : ∀ (edit : Edit) (t : Scope) (front back : Text),
    ∃ (t' : Scope) (back' : Text), ∀ e : Text, e.isBlank = false →
      Edit.apply (t.around front back e) edit = t'.around front back' e
  | predicate c body, t, front, back => by
    refine ⟨t, back ++ fragment (Scope.jointBehind c back) body, fun e he => ?_⟩
    exact congrArg (fun clause => { t with filters := clause }) (Scope.push_around c body he)
  | group c inner, t, front, back => by
    obtain ⟨t', back', hinner⟩ :=
      Edit.applyAll_around inner t front (back ++ (Scope.jointBehind c back ++ [' ', '(']))
    refine ⟨t', back' ++ [')'], fun e he => ?_⟩
    have hopened : Edit.applyAll { t with filters := openGroup c (t.around front back e).filters }
        inner = t'.around front back' e := by
      rw [Scope.openGroup_around c he]
      exact hinner e he
    have hclosed : Edit.apply (t.around front back e) (group c inner) =
        { t'.around front back' e with
          filters := closeGroup (t'.around front back' e).filters } :=
      congrArg (fun s => { s with filters := closeGroup s.filters }) hopened
    rw [hclosed, Scope.closeGroup_around]
    rfl
  | select text, t, front, back => ⟨{ t with select := text }, back, fun _ _ => rfl⟩
  | limit n, t, front, back => ⟨{ t with limit := n }, back, fun _ _ => rfl⟩
  | offset n, t, front, back => ⟨{ t with offset := n }, back, fun _ _ => rfl⟩
  | order term, t, front, back => ⟨{ t with orders := t.orders ++ [term] }, back, fun _ _ => rfl⟩
  | groupTerm term, t, front, back =>
    ⟨{ t with groups := t.groups ++ [term] }, back, fun _ _ => rfl⟩
  | join text, t, front, back => ⟨{ t with join := some text }, back, fun _ _ => rfl⟩
  | prepend text, t, front, back => ⟨{ t with prepend := text }, back, fun _ _ => rfl⟩
  | listWords field, t, front, back => ⟨{ t with listWords := some field }, back, fun _ _ => rfl⟩
  | alternatives field, t, front, back =>
    ⟨{ t with alternatives := some field }, back, fun _ _ => rfl⟩

/-- And neither does what edits do. -/
theorem Edit.applyAll_around : ∀ (edits : List Edit) (t : Scope) (front back : Text),
    ∃ (t' : Scope) (back' : Text), ∀ e : Text, e.isBlank = false →
      Edit.applyAll (t.around front back e) edits = t'.around front back' e
  | [], t, front, back => ⟨t, back, fun _ _ => rfl⟩
  | edit :: rest, t, front, back => by
    obtain ⟨t₁, back₁, hedit⟩ := Edit.apply_around edit t front back
    obtain ⟨t₂, back₂, hrest⟩ := Edit.applyAll_around rest t₁ front back₁
    refine ⟨t₂, back₂, fun e he => ?_⟩
    rw [Edit.applyAll, hedit e he, hrest e he]

end

/-! ## Gaps -/

/-- Steps with a comparison whose value is left open. -/
inductive Gap
  /-- The comparison stands between steps. -/
  | here (before : List Step) (c : Connective) (field : Operand) (operator : Text)
      (after : List Step)
  /-- It stands in a group between steps. -/
  | inside (before : List Step) (c : Connective) (inner : Gap) (after : List Step)

namespace Gap

/-- The steps with a value in the gap. -/
def fill (v : Json) : Gap → List Step
  | here before c field operator after => before ++ .filter c field operator (.lit v) :: after
  | inside before c inner after => before ++ .filterGroup c (inner.fill v) :: after

/-- What a value is spelled as is not blank. -/
theorem isBlank_encode_lit (v : Json) : (Operand.lit v).encode.isBlank = false :=
  isBlank_of_closed (passesJson_stopsPredicate.closed_encode v) (Operand.encode_lit_ne_nil v)

/-- A step that is taken whatever its value is, and spells that out in one
place, does so among other steps. -/
theorem takeAll_between (step : Json → Step) {before after : List Step} {v : Json}
    {start s : Scope} (h : start.takeAll (before ++ step v :: after) = .ok s)
    (hstep : ∀ {s₁ s₂ : Scope}, s₁.take (step v) = .ok s₂ →
      ∃ (t : Scope) (front back : Text), ∀ w : Json,
        s₁.take (step w) = .ok (t.around front back (Operand.lit w).encode)) :
    ∃ (t : Scope) (front back : Text), ∀ w : Json,
      start.takeAll (before ++ step w :: after) =
        .ok (t.around front back (Operand.lit w).encode) := by
  rw [Scope.takeAll_append] at h
  obtain ⟨s₁, hbefore, h⟩ := Except.ok_of_bind h
  rw [Scope.takeAll_cons] at h
  obtain ⟨s₂, hvalue, h⟩ := Except.ok_of_bind h
  obtain ⟨edits, hafter, -⟩ := Except.ok_of_bind h
  obtain ⟨t₁, front, back₁, htake⟩ := hstep hvalue
  obtain ⟨t, back, hedits⟩ := Edit.applyAll_around edits t₁ front back₁
  refine ⟨t, front, back, fun w => ?_⟩
  calc start.takeAll (before ++ step w :: after)
      = s₁.takeAll (step w :: after) := by
        rw [Scope.takeAll_append, hbefore]
        rfl
    _ = (t₁.around front back₁ (Operand.lit w).encode).takeAll after := by
        rw [Scope.takeAll_cons, htake w]
        rfl
    _ = .ok (Edit.applyAll (t₁.around front back₁ (Operand.lit w).encode) edits) := by
        rw [Scope.takeAll, hafter]
        rfl
    _ = .ok (t.around front back (Operand.lit w).encode) := by
        rw [hedits _ (isBlank_encode_lit w)]

/-- **Steps with a gap are taken whatever its value is**, and in the clause
that they end in, the value is spelled out in one place. -/
theorem takeAll_fill {v : Json} (gap : Gap) : ∀ {start s : Scope},
    start.takeAll (gap.fill v) = .ok s → ∃ (t : Scope) (front back : Text), ∀ w : Json,
      start.takeAll (gap.fill w) = .ok (t.around front back (Operand.lit w).encode) := by
  induction gap with
  | here before c field operator after =>
    intro start s h
    refine takeAll_between (fun w => .filter c field operator (.lit w)) h ?_
    intro s₁ s₂ hstep
    have hfield : ¬ field.isComposite := by
      intro hcomposite
      rw [Scope.take_filter, if_pos hcomposite] at hstep
      cases hstep
    refine ⟨s₁, s₁.filters ++ (joint c s₁.filters ++ ' ' :: (field.resolved ++ operator)), [],
      fun w => ?_⟩
    rw [Scope.take_filter, if_neg hfield]
    simp only [around, push, fragment, List.append_assoc, List.cons_append]
  | inside before c inner after ih =>
    intro start s h
    refine takeAll_between (fun w => .filterGroup c (inner.fill w)) h ?_
    intro s₁ s₂ hstep
    rw [Scope.take_filterGroup] at hstep
    obtain ⟨s₃, hinner, -⟩ := Except.ok_of_bind hstep
    obtain ⟨t, front, back, hfill⟩ := ih hinner
    refine ⟨t, front, back ++ [')'], fun w => ?_⟩
    rw [Scope.take_filterGroup, hfill w]
    change Except.ok { t with filters := closeGroup _ } = _
    rw [Scope.closeGroup_around]
    rfl

end Gap

/-! ## Queries -/

/-- A reader that reads everything. -/
def stopsNowhere (_ : Char) : Bool := false

theorem passesJson_stopsNowhere : PassesJson stopsNowhere where
  numeral _ _ := rfl
  mark := by decide

namespace Collection

/-- A query has the text of a clause where the clause has it. -/
theorem query_around (c : Collection) (t : Scope) (front back : Text) : ∃ before after : Text,
    ∀ e : Text, c.query (t.around front back e) = before ++ (e ++ ' ' :: after) := by
  refine ⟨t.prepend ++ "SELECT ".toList ++ t.select ++ " FROM ".toList ++ c.viewed t ++ [' '] ++
      joinSection t.join ++ "WHERE".toList ++ front,
    back ++ termSection "GROUP BY".toList t.groups ++ termSection "ORDER BY".toList t.orders ++
      limitSection t.offset t.limit, fun e => ?_⟩
  have hwhere : whereSection (t.around front back e).filters =
      "WHERE".toList ++ (front ++ (e ++ ' ' :: back)) := by
    rw [whereSection, around, if_neg (by simp)]
  rw [query, hwhere]
  simp only [List.append_assoc, List.cons_append]
  rfl

/-- **A compared value keeps to its place.** A text reads back from its
literal, with any text behind. The spelling of a value of any kind takes a
reader of quotes and backslashes from outside literals to outside. And in
a query whose steps compare a field with a value, before, after or inside
other steps, a change of the value changes its spelling and nothing else,
so that a reader who is outside literals where it begins reads on behind
it as if it were not there. -/
theorem query_fill (c : Collection) :
    (∀ s rest : Text, Literal.unquote? ((Operand.lit (.str s)).encode ++ rest) = some (s, rest)) ∧
    (∀ v : Json, Reader.read? stopsNowhere .code (Operand.lit v).encode = some .code) ∧
    ∀ (gap : Gap) (start s : Scope) (v : Json), start.takeAll (gap.fill v) = .ok s →
      ∃ before after, ∀ w : Json, ∃ s', start.takeAll (gap.fill w) = .ok s' ∧
        c.query s' = before ++ ((Operand.lit w).encode ++ ' ' :: after) ∧
        ∀ r : Reader, r.read? stopsNowhere before = some .code →
          r.read? stopsNowhere (c.query s') = Reader.code.read? stopsNowhere (' ' :: after) := by
  refine ⟨Literal.unquote?_quote, passesJson_stopsNowhere.closed_encode, ?_⟩
  intro gap start s v h
  obtain ⟨t, front, back, hfill⟩ := gap.takeAll_fill h
  obtain ⟨before, after, hquery⟩ := c.query_around t front back
  refine ⟨before, after, fun w => ⟨_, hfill w, hquery _, fun r hbefore => ?_⟩⟩
  have hvalue : Reader.read? stopsNowhere .code (Operand.lit w).encode = some .code :=
    passesJson_stopsNowhere.closed_encode w
  rw [hquery, Reader.read?_append, hbefore, Option.bind_some, Reader.read?_append, hvalue,
    Option.bind_some]

/-- A comparison in a group, with predicates around it on every side. -/
def groupedGap : Gap :=
  .inside [.filterRaw .and "x".toList] .or
    (.here [] .and (.field "name".toList) Predicate.equality [.filterRaw .or "y".toList])
    [.filterRaw .and "z".toList]

/-- A value that would close its literal and its group, and hide what is
behind it in a literal of its own. -/
def closingValue : Json := .str "\") || (\"\\".toList

/-- It stands where `null` would stand, between the same texts. -/
theorem query_fill_closing : ∃ s s₀ : Scope,
    ({} : Scope).takeAll (groupedGap.fill closingValue) = .ok s ∧
    ({} : Scope).takeAll (groupedGap.fill .null) = .ok s₀ ∧
    (Collection.mk "100.books".toList).query s = ("SELECT * FROM books WHERE x " ++
      "|| ( this[\"name\"]==\"\\\") || (\\\"\\\\\" || y )&& z LIMIT 0, 20").toList ∧
    ∃ before after,
      (Collection.mk "100.books".toList).query s =
        before ++ ((Operand.lit closingValue).encode ++ ' ' :: after) ∧
      (Collection.mk "100.books".toList).query s₀ =
        before ++ ((Operand.lit .null).encode ++ ' ' :: after) := by
  obtain ⟨s, hs⟩ : ∃ s, ({} : Scope).takeAll (groupedGap.fill closingValue) = .ok s := ⟨_, rfl⟩
  obtain ⟨-, -, hfill⟩ := query_fill (Collection.mk "100.books".toList)
  obtain ⟨before, after, hvalue⟩ := hfill groupedGap {} s closingValue hs
  obtain ⟨s', hs', hquery, -⟩ := hvalue closingValue
  obtain ⟨s₀, hs₀, hquery₀, -⟩ := hvalue .null
  cases hs.symm.trans hs'
  refine ⟨s, s₀, hs, hs₀, ?_, before, after, hquery, hquery₀⟩
  cases hs
  decide

end Collection

end DocQuery
