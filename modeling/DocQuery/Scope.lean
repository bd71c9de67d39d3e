import DocQuery.Clause
/-!
# Scopes

A scope holds the compiled clauses of one pending query. An edit is one
validated change to a scope: it replaces a clause, adds a term or adds a
predicate, and it cannot fail. A group holds edits of its own and hands
the whole scope through them, so that an edit other than a predicate acts
inside a group as it would outside.

A step is what a caller asks of a scope, with its arguments unchecked.
Compiling a step checks them and gives the edit, or the refusal of the
first argument that is not valid; no scope is looked at. A group is
refused for the first of its inner steps that is refused. Taking a step
applies the edit, so a refused step leaves no trace.
-/

namespace DocQuery

/-- The row count of a scope that is given none. -/
abbrev defaultLimit : UInt64 := 20

/-- The compiled clauses of a query. -/
@[ext] structure Scope where
  /-- The projection. -/
  select : Text := ['*']
  /-- The predicates, each behind its connective. -/
  filters : Text := []
  /-- The grouping terms, in call order. -/
  groups : List Text := []
  /-- The ordering terms, in call order. -/
  orders : List Text := []
  /-- The greatest number of records. -/
  limit : UInt64 := defaultLimit
  /-- The number of records to skip. -/
  offset : UInt64 := 0
  /-- What is joined to the source. -/
  join : Option Text := none
  /-- What precedes the whole query. -/
  prepend : Text := []
  /-- The field whose words are listed; of the empty name, all fields. -/
  listWords : Option Text := none
  /-- The field whose alternatives are listed; of the empty name, all
  fields. -/
  alternatives : Option Text := none
deriving DecidableEq

/-- A validated change to a scope. -/
inductive Edit
  | select (text : Text)
  | predicate (connective : Connective) (body : Text)
  | group (connective : Connective) (inner : List Edit)
  | limit (count : UInt64)
  | offset (count : UInt64)
  | order (term : Text)
  | groupTerm (term : Text)
  | join (text : Text)
  | prepend (text : Text)
  | listWords (field : Text)
  | alternatives (field : Text)

mutual

/-- **The scope after an edit.** -/
def Edit.apply (s : Scope) : Edit → Scope
  | select text => { s with select := text }
  | predicate c body => { s with filters := WhereClause.push c body s.filters }
  | group c inner =>
    let s := Edit.applyAll { s with filters := WhereClause.openGroup c s.filters } inner
    { s with filters := WhereClause.closeGroup s.filters }
  | limit n => { s with limit := n }
  | offset n => { s with offset := n }
  | order term => { s with orders := s.orders ++ [term] }
  | groupTerm term => { s with groups := s.groups ++ [term] }
  | join text => { s with join := some text }
  | prepend text => { s with prepend := text }
  | listWords field => { s with listWords := some field }
  | alternatives field => { s with alternatives := some field }

/-- The scope after edits, the first first. -/
def Edit.applyAll (s : Scope) : List Edit → Scope
  | [] => s
  | e :: rest => Edit.applyAll (Edit.apply s e) rest

end

/-! ## Steps -/

/-- A change to a scope, as asked for. -/
inductive Step
  | select (selection : Selection)
  | filter (connective : Connective) (field : Operand) (operator : Text) (value : Operand)
  | filterRaw (connective : Connective) (fragment : Text)
  | filterGroup (connective : Connective) (inner : List Step)
  | limit (count : Json)
  | offset (count : Json)
  | orderBy (field : Operand) (direction : Text)
  | groupBy (field : Operand)
  | join (text : Text)
  | prepend (text : Text)
  | listWords (field : Text)
  | alternatives (field : Text)

/-- A comparison for equality. -/
def Step.filterEq (c : Connective) (field value : Operand) : Step :=
  .filter c field Predicate.equality value

mutual

/-- **The edit that a step asks for**, or why it is refused. -/
def Step.compile : Step → Except Error Edit
  | select selection => return .select (← selection.compile)
  | filter c field operator value =>
    return .predicate c (← (Predicate.compare field operator value).compile)
  | filterRaw c fragment => return .predicate c (← (Predicate.fragment (.raw fragment)).compile)
  | filterGroup c inner => return .group c (← Step.compileAll inner)
  | limit v => return .limit (← Count.compile .limit v)
  | offset v => return .offset (← Count.compile .offset v)
  | orderBy field direction => return .order (← orderTerm field direction)
  | groupBy field => return .groupTerm (← DocQuery.groupTerm field)
  | join text => return .join text
  | prepend text => return .prepend text
  | listWords field => return .listWords field
  | alternatives field => return .alternatives field

/-- The edits that steps ask for, or why the first refused one is. -/
def Step.compileAll : List Step → Except Error (List Edit)
  | [] => return []
  | step :: rest => return (← Step.compile step) :: (← Step.compileAll rest)

end

namespace Scope

/-- The scope after a step. -/
def take (s : Scope) (step : Step) : Except Error Scope := return Edit.apply s (← step.compile)

/-- The scope after steps that must all be valid. -/
def takeAll (s : Scope) (steps : List Step) : Except Error Scope :=
  return Edit.applyAll s (← Step.compileAll steps)

/-- **The scope after steps of which the refused ones are passed over.** -/
def run (s : Scope) : List Step → Scope
  | [] => s
  | step :: rest =>
    match s.take step with
    | .ok s => run s rest
    | .error _ => run s rest

end Scope

end DocQuery
