import DocQuery.Collection
import DocQuery.Proofs.Where.Tree
/-!
# Steps of different kinds commute

Every step is about one part of a scope. `Step.onlyAll` takes from a list
of steps those about one part, in call order, the steps inside groups at
the place of their group; of the predicates it keeps the groups around
them. `Step.decided_onlyAll` says that these alone decide what the part is in
the end: an edit leaves every other part alone, and a group hands the
whole scope through. Of most parts only the last step counts, so scopes
are equal when their steps agree on the last ones of these and on the
sequences of the others (`eq_of_agree`), however the steps are mixed.
-/

namespace DocQuery

namespace Scope

/-! ## Parts of a scope -/

/-- What a step is about. -/
inductive Part
  | select | predicate | limit | offset | order | group
  | join | prepend | listWords | alternatives
deriving DecidableEq

namespace Part

/-- Whether a step about the part replaces it. Predicates and the terms of
orderings and groupings are added to the ones before. -/
def isReplaced : Part → Bool
  | predicate | order | group => false
  | _ => true

/-- What a part holds. -/
def Value : Part → Type
  | select | predicate | prepend => Text
  | limit | offset => UInt64
  | order | group => List Text
  | join | listWords | alternatives => Option Text

end Part

/-- A part of a scope. -/
def get (s : Scope) : (p : Part) → p.Value
  | .select => s.select
  | .predicate => s.filters
  | .limit => s.limit
  | .offset => s.offset
  | .order => s.orders
  | .group => s.groups
  | .join => s.join
  | .prepend => s.prepend
  | .listWords => s.listWords
  | .alternatives => s.alternatives

/-- A scope is its parts. -/
theorem eq_of_get_eq {s₁ s₂ : Scope} (h : ∀ p, s₁.get p = s₂.get p) : s₁ = s₂ :=
  Scope.ext (h .select) (h .predicate) (h .group) (h .order) (h .limit) (h .offset) (h .join)
    (h .prepend) (h .listWords) (h .alternatives)

/-- The where clause is no other part. -/
theorem get_filters {p : Part} (h : p ≠ .predicate) (s : Scope) (clause : Text) :
    ({ s with filters := clause } : Scope).get p = s.get p := by
  cases p with
  | predicate => exact absurd rfl h
  | _ => rfl

end Scope

open Scope (Part)

/-! ## Edits -/

namespace Edit

/-- The part that an edit is about. -/
def part : Edit → Part
  | select _ => .select
  | predicate _ _ => .predicate
  | group _ _ => .predicate
  | limit _ => .limit
  | offset _ => .offset
  | order _ => .order
  | groupTerm _ => .group
  | join _ => .join
  | prepend _ => .prepend
  | listWords _ => .listWords
  | alternatives _ => .alternatives

/-- Whether an edit holds no others. -/
def isPlain : Edit → Bool
  | group _ _ => false
  | _ => true

variable {e : Edit} {p : Part}

/-- **A plain edit leaves every other part alone.** -/
theorem get_apply_of_ne (hplain : e.isPlain) (h : e.part ≠ p) (s : Scope) :
    (apply s e).get p = s.get p := by
  cases e with
  | group c inner => cases hplain
  | _ =>
    cases p <;> first
      | rfl
      | exact absurd rfl h

/-- What a plain edit makes of a part depends on that part only. -/
theorem get_apply_congr (hplain : e.isPlain) {s s' : Scope} (h : s.get p = s'.get p) :
    (apply s e).get p = (apply s' e).get p := by
  by_cases hpart : e.part = p
  · subst hpart
    cases e with
    | group c inner => cases hplain
    | predicate c body => exact congrArg (WhereClause.push c body) h
    | order term => exact congrArg (· ++ [term]) h
    | groupTerm term => exact congrArg (· ++ [term]) h
    | _ => rfl
  · rw [get_apply_of_ne hplain hpart, get_apply_of_ne hplain hpart, h]

/-- A part that is replaced does not depend on what it was. -/
theorem get_apply_of_isReplaced (h : e.part.isReplaced) (s s' : Scope) :
    (apply s e).get e.part = (apply s' e).get e.part := by
  cases e with
  | group _ _ | predicate _ _ | order _ | groupTerm _ => cases h
  | _ => rfl

theorem applyAll_append (s : Scope) (es es' : List Edit) :
    applyAll s (es ++ es') = applyAll (applyAll s es) es' := by
  induction es generalizing s with
  | nil => rfl
  | cons e rest ih =>
    rw [List.cons_append, applyAll, applyAll]
    exact ih _

end Edit

/-! ## The steps about one part -/

namespace Step

/-- The part that a step is about. -/
def part : Step → Part
  | select _ => .select
  | filter _ _ _ _ => .predicate
  | filterRaw _ _ => .predicate
  | filterGroup _ _ => .predicate
  | limit _ => .limit
  | offset _ => .offset
  | orderBy _ _ => .order
  | groupBy _ => .group
  | join _ => .join
  | prepend _ => .prepend
  | listWords _ => .listWords
  | alternatives _ => .alternatives

/-- Whether a step holds no others. -/
def isPlain : Step → Bool
  | filterGroup _ _ => false
  | _ => true

mutual

/-- What of a step is about a part: the step or nothing; of a group the
predicates in it, in a group, or the steps in it that are about the
part. -/
def only (p : Part) : Step → List Step
  | filterGroup c inner =>
    if p = .predicate then [filterGroup c (onlyAll p inner)] else onlyAll p inner
  | step => if step.part = p then [step] else []

/-- **The steps about a part**, in call order. -/
def onlyAll (p : Part) : List Step → List Step
  | [] => []
  | step :: rest => only p step ++ onlyAll p rest

end

variable {p : Part}

theorem only_of_isPlain {step : Step} (h : step.isPlain) :
    only p step = if step.part = p then [step] else [] := by
  cases step with
  | filterGroup c inner => cases h
  | _ => rfl

mutual

/-- The steps about a part are about that part. -/
theorem part_of_mem_only : ∀ {step t : Step}, t ∈ only p step → t.part = p
  | filterGroup c inner, t, h => by
    rw [only] at h
    split at h
    · rename_i hp
      cases List.mem_singleton.1 h
      exact hp.symm
    · exact part_of_mem_onlyAll h
  | select _, t, h | filter _ _ _ _, t, h | filterRaw _ _, t, h | limit _, t, h | offset _, t, h
  | orderBy _ _, t, h | groupBy _, t, h | join _, t, h | prepend _, t, h | listWords _, t, h
  | alternatives _, t, h => by
    rw [only_of_isPlain rfl] at h
    split at h
    · rename_i hpart
      cases List.mem_singleton.1 h
      exact hpart
    · cases h

theorem part_of_mem_onlyAll : ∀ {steps : List Step} {t : Step}, t ∈ onlyAll p steps → t.part = p
  | step :: rest, t, h => by
    rw [onlyAll] at h
    rcases List.mem_append.1 h with h | h
    · exact part_of_mem_only h
    · exact part_of_mem_onlyAll h

end

/-! ## What steps compile to -/

/-- A step and the edit that it compiles to are about one part, and both
are plain or neither is. -/
theorem part_compile : ∀ {step : Step} {e : Edit}, step.compile = .ok e →
    e.part = step.part ∧ e.isPlain = step.isPlain
  | filter _ _ _ _, e, h | filterRaw _ _, e, h | filterGroup _ _, e, h | select _, e, h
  | limit _, e, h | offset _, e, h | orderBy _ _, e, h | groupBy _, e, h => by
    obtain ⟨_, -, h⟩ := Except.ok_of_bind h
    cases h
    exact ⟨rfl, rfl⟩
  | join _, e, h | prepend _, e, h | listWords _, e, h | alternatives _, e, h => by
    cases h
    exact ⟨rfl, rfl⟩

theorem compileAll_cons {step : Step} {rest : List Step} {e : Edit} {es : List Edit}
    (he : step.compile = .ok e) (hes : compileAll rest = .ok es) :
    compileAll (step :: rest) = .ok (e :: es) := by
  rw [compileAll, he, hes]
  rfl

/-- Steps compile one after the other. -/
theorem compileAll_append {steps rest : List Step} {es es' : List Edit}
    (h : compileAll steps = .ok es) (h' : compileAll rest = .ok es') :
    compileAll (steps ++ rest) = .ok (es ++ es') := by
  induction steps generalizing es with
  | nil =>
    cases h
    exact h'
  | cons step steps ih =>
    obtain ⟨e, he, h⟩ := Except.ok_of_bind h
    obtain ⟨es, hes, h⟩ := Except.ok_of_bind h
    cases h
    exact compileAll_cons he (ih hes)

/-- The last edit is that of the last step. -/
theorem compileAll_concat {steps : List Step} {step : Step} {es : List Edit}
    (h : compileAll (steps ++ [step]) = .ok es) :
    ∃ front e, es = front ++ [e] ∧ step.compile = .ok e := by
  induction steps generalizing es with
  | nil =>
    obtain ⟨e, he, h⟩ := Except.ok_of_bind h
    cases h
    exact ⟨[], e, rfl, he⟩
  | cons first steps ih =>
    obtain ⟨e, -, h⟩ := Except.ok_of_bind h
    obtain ⟨es, hes, h⟩ := Except.ok_of_bind h
    cases h
    obtain ⟨front, last, rfl, hlast⟩ := ih hes
    exact ⟨e :: front, last, rfl, hlast⟩

/-! ## One part at a time -/

/-- Whether edits that steps compile to make of a part what the steps about
that part make of it. -/
def Decided (p : Part) (run : Scope → Scope) (steps : List Step) : Prop :=
  ∃ es, compileAll steps = .ok es ∧
    ∀ s s' : Scope, s.get p = s'.get p → (run s).get p = (Edit.applyAll s' es).get p

/-- A plain step decides its own part and no other. -/
theorem decided_of_isPlain {step : Step} {e : Edit} (hplain : step.isPlain)
    (h : step.compile = .ok e) : Decided p (Edit.apply · e) (only p step) := by
  obtain ⟨hpart, hkind⟩ := part_compile h
  have heplain : e.isPlain := hkind.trans hplain
  rw [only_of_isPlain hplain]
  split
  · exact ⟨[e], compileAll_cons h rfl, fun s s' hget => Edit.get_apply_congr heplain hget⟩
  · rename_i hne
    refine ⟨[], rfl, fun s s' hget => ?_⟩
    rw [Edit.get_apply_of_ne heplain (by rwa [hpart]), hget]
    rfl

mutual

/-- **What is about a part decides it**, for one step. -/
theorem decided_only (p : Part) : ∀ (step : Step) {e : Edit}, step.compile = .ok e →
    Decided p (Edit.apply · e) (only p step)
  | filterGroup c inner, e, h => by
    obtain ⟨edits, hedits, h⟩ := Except.ok_of_bind h
    cases h
    obtain ⟨es, hes, hinner⟩ := decided_onlyAll p inner hedits
    rw [only]
    split
    · rename_i hp
      subst hp
      refine ⟨[.group c es], compileAll_cons (by rw [compile, hes]; rfl) rfl, fun s s' hget => ?_⟩
      -- inside, both scopes have the group opened behind one clause
      have hopened : (Edit.applyAll
            { s with filters := WhereClause.openGroup c s.filters } edits).filters =
          (Edit.applyAll { s' with filters := WhereClause.openGroup c s'.filters } es).filters :=
        hinner _ _ (congrArg (WhereClause.openGroup c) hget)
      exact congrArg WhereClause.closeGroup hopened
    · rename_i hp
      refine ⟨es, hes, fun s s' hget => ?_⟩
      have hinside := hinner { s with filters := WhereClause.openGroup c s.filters } s'
        ((Scope.get_filters hp s _).trans hget)
      exact (Scope.get_filters hp _ _).trans hinside
  | select _, e, h | filter _ _ _ _, e, h | filterRaw _ _, e, h | limit _, e, h | offset _, e, h
  | orderBy _ _, e, h | groupBy _, e, h | join _, e, h | prepend _, e, h | listWords _, e, h
  | alternatives _, e, h => decided_of_isPlain rfl h

/-- And for steps that follow each other. -/
theorem decided_onlyAll (p : Part) : ∀ (steps : List Step) {edits : List Edit},
    compileAll steps = .ok edits → Decided p (Edit.applyAll · edits) (onlyAll p steps)
  | [], edits, h => by
    cases h
    exact ⟨[], rfl, fun s s' hget => hget⟩
  | step :: rest, edits, h => by
    obtain ⟨e, he, h⟩ := Except.ok_of_bind h
    obtain ⟨es, hes, h⟩ := Except.ok_of_bind h
    cases h
    obtain ⟨first, hfirst, hstep⟩ := decided_only p step he
    obtain ⟨others, hothers, hrest⟩ := decided_onlyAll p rest hes
    refine ⟨first ++ others, compileAll_append hfirst hothers, fun s s' hget => ?_⟩
    rw [Edit.applyAll_append]
    exact hrest _ _ (hstep s s' hget)

end

/-! ## Steps that agree -/

/-- **Steps that agree part by part**: on the last step where that replaces
what was before, and on all of them, in their order, where they add to
it. -/
structure Agree (steps₁ steps₂ : List Step) : Prop where
  /-- One step is the last about a part that is replaced, or there is none. -/
  replaced : ∀ p : Part, p.isReplaced →
    (onlyAll p steps₁).getLast? = (onlyAll p steps₂).getLast?
  /-- The predicates with their groups, the orderings and the groupings are
  the same. -/
  added : ∀ p : Part, ¬ p.isReplaced → onlyAll p steps₁ = onlyAll p steps₂

/-- Edits of steps about one part, which they replace, come to the same if
the last step is the same. -/
theorem get_applyAll_of_getLast? {steps₁ steps₂ : List Step} {es₁ es₂ : List Edit}
    (hp : p.isReplaced) (h₁ : ∀ t ∈ steps₁, t.part = p)
    (hlast : steps₁.getLast? = steps₂.getLast?) (hes₁ : compileAll steps₁ = .ok es₁)
    (hes₂ : compileAll steps₂ = .ok es₂) (s : Scope) :
    (Edit.applyAll s es₁).get p = (Edit.applyAll s es₂).get p := by
  rcases hend : steps₁.getLast? with _ | last
  · obtain rfl := List.getLast?_eq_none_iff.1 hend
    obtain rfl := List.getLast?_eq_none_iff.1 (hlast.symm.trans hend)
    cases hes₁
    cases hes₂
    rfl
  · obtain ⟨front₁, rfl⟩ := List.getLast?_eq_some_iff.1 hend
    obtain ⟨front₂, rfl⟩ := List.getLast?_eq_some_iff.1 (hlast.symm.trans hend)
    obtain ⟨es₁, e, rfl, he⟩ := compileAll_concat hes₁
    obtain ⟨es₂, e', rfl, he'⟩ := compileAll_concat hes₂
    cases he.symm.trans he'
    obtain rfl : e.part = p := (part_compile he).1.trans (h₁ last (by simp))
    rw [Edit.applyAll_append, Edit.applyAll_append]
    exact Edit.get_apply_of_isReplaced hp _ _

end Step

namespace Scope

/-- **Steps that agree part by part end in one scope**, and so in one query
on every collection: from the same scope, and however the steps about
different parts are mixed, inside of groups and outside. -/
theorem eq_of_agree {start s₁ s₂ : Scope} {steps₁ steps₂ : List Step}
    (h₁ : start.takeAll steps₁ = .ok s₁) (h₂ : start.takeAll steps₂ = .ok s₂)
    (h : Step.Agree steps₁ steps₂) : s₁ = s₂ ∧ ∀ c : Collection, c.query s₁ = c.query s₂ := by
  obtain ⟨edits₁, hedits₁, h₁⟩ := Except.ok_of_bind h₁
  obtain ⟨edits₂, hedits₂, h₂⟩ := Except.ok_of_bind h₂
  cases h₁
  cases h₂
  have hget : ∀ p, (Edit.applyAll start edits₁).get p = (Edit.applyAll start edits₂).get p := by
    intro p
    obtain ⟨es₁, hes₁, hdecided₁⟩ := Step.decided_onlyAll p steps₁ hedits₁
    obtain ⟨es₂, hes₂, hdecided₂⟩ := Step.decided_onlyAll p steps₂ hedits₂
    rw [hdecided₁ start start rfl, hdecided₂ start start rfl]
    by_cases hp : p.isReplaced
    · exact Step.get_applyAll_of_getLast? hp (fun t => Step.part_of_mem_onlyAll)
        (h.replaced p hp) hes₁ hes₂ start
    · rw [h.added p hp] at hes₁
      cases hes₁.symm.trans hes₂
      rfl
  have heq : Edit.applyAll start edits₁ = Edit.applyAll start edits₂ := eq_of_get_eq hget
  exact ⟨heq, fun c => congrArg c.query heq⟩

/-- Steps with a limit, an ordering and a grouping inside a group. -/
def mixedSteps : List Step :=
  [.limit (.num (.ofWord 5)), .filterEq .and (.lit (.str "a".toList)) (.field "b".toList),
    .filterGroup .or [.orderBy (.raw "x".toList) [], .filterRaw .or "d(".toList,
      .filterGroup .and [.limit (.num (.ofWord 7)), .groupBy (.raw "g".toList)], .join [],
      .filterRaw .and "e".toList],
    .orderBy (.raw "y".toList) "asc".toList]

/-- The same steps with every kind together, and without the limit that is
replaced. -/
def sortedSteps : List Step :=
  [.groupBy (.raw "g".toList), .orderBy (.raw "x".toList) [],
    .orderBy (.raw "y".toList) "asc".toList, .join "j".toList, .join [], .limit (.num (.ofWord 7)),
    .filterEq .and (.lit (.str "a".toList)) (.field "b".toList),
    .filterGroup .or [.filterRaw .or "d(".toList, .filterGroup .and [],
      .filterRaw .and "e".toList]]

/-- Both end in one scope. -/
theorem eq_of_agree_mixed : Step.Agree mixedSteps sortedSteps ∧ ∃ s : Scope,
    ({ limit := 3, offset := 4 } : Scope).takeAll mixedSteps = .ok s ∧
    ({ limit := 3, offset := 4 } : Scope).takeAll sortedSteps = .ok s ∧
    s.limit = 7 ∧ s.filters = " a==this[\"b\"] || ( d( && ()&& e )".toList := by
  have hagree : Step.Agree mixedSteps sortedSteps := by
    refine ⟨fun p hp => ?_, fun p hp => ?_⟩
    · cases p <;> rfl
    · cases p <;> first
        | rfl
        | exact absurd rfl hp
  obtain ⟨s₁, h₁⟩ : ∃ s, ({ limit := 3, offset := 4 } : Scope).takeAll mixedSteps = .ok s :=
    ⟨_, rfl⟩
  obtain ⟨s₂, h₂⟩ : ∃ s, ({ limit := 3, offset := 4 } : Scope).takeAll sortedSteps = .ok s :=
    ⟨_, rfl⟩
  obtain ⟨rfl, -⟩ := eq_of_agree h₁ h₂ hagree
  refine ⟨hagree, s₁, h₁, h₂, ?_⟩
  cases h₂
  decide

end Scope

end DocQuery
