import DocQuery.Scope
import Mathlib.Tactic.FinCases
/-!
# Refused steps leave no trace

A step is refused for its arguments, so on every scope or on none, and for
the same reason (`take_on_both`). A group opens its parenthesis and takes
its steps one by one on the scope at hand; it comes to a scope if none of
them is refused, and otherwise to the refusal of the first one
(`take_filterGroup_eq`). What was done before that inside of the group,
the parenthesis included, is done to a scope that is thrown away. So
refused steps can be left out of a run, all of them or some, and every
other step still comes to what it came to (`run_kept`).
-/

namespace DocQuery

open WhereClause

/-- Why a result is none. -/
def Error.ofResult? {α : Type} : Except Error α → Option Error
  | .ok _ => none
  | .error e => some e

namespace Scope

/-! ## Steps one by one -/

/-- Steps are taken one by one. -/
theorem takeAll_cons (s : Scope) (step : Step) (rest : List Step) :
    s.takeAll (step :: rest) = s.take step >>= (·.takeAll rest) := by
  rw [takeAll, take, Step.compileAll]
  cases step.compile with
  | error e => rfl
  | ok edit =>
    change _ = Scope.takeAll _ rest
    rw [takeAll]
    cases Step.compileAll rest <;> rfl

theorem takeAll_append (s : Scope) (steps rest : List Step) :
    s.takeAll (steps ++ rest) = s.takeAll steps >>= (·.takeAll rest) := by
  induction steps generalizing s with
  | nil => rfl
  | cons step steps ih =>
    rw [List.cons_append, takeAll_cons, takeAll_cons, bind_assoc]
    exact bind_congr fun s => ih s

/-- A group takes its steps between its parentheses. -/
theorem take_filterGroup (s : Scope) (c : Connective) (inner : List Step) :
    s.take (.filterGroup c inner) =
      ({ s with filters := openGroup c s.filters } : Scope).takeAll inner >>= fun s =>
        .ok { s with filters := closeGroup s.filters } := by
  rw [take, takeAll, Step.compile]
  cases Step.compileAll inner <;> rfl

/-! ## Runs, step by step -/

/-- **What the steps of a run come to**, one after the other: the scope
after a step, or why the step was refused. A refused step leaves its scope
to the next one. -/
def outcomes (s : Scope) : List Step → List (Except Error Scope)
  | [] => []
  | step :: rest => s.take step :: outcomes (s.run [step]) rest

variable {s t : Scope} {step : Step} {e : Error}

/-- A run goes on from where its first step left it. -/
theorem run_cons (s : Scope) (step : Step) (rest : List Step) :
    s.run (step :: rest) = (s.run [step]).run rest := by
  rw [run, run]
  cases s.take step <;> rfl

theorem run_of_ok (h : s.take step = .ok t) : s.run [step] = t := by
  rw [run, h]
  rfl

/-- **A refused step leaves the scope as it was.** -/
theorem run_of_error (h : s.take step = .error e) : s.run [step] = s := by
  rw [run, h]
  rfl

/-- **Whether a step is refused, and why, does not depend on the scope.** -/
theorem take_on_both (step : Step) (s t : Scope) :
    (∃ s' t', s.take step = .ok s' ∧ t.take step = .ok t') ∨
      ∃ e, s.take step = .error e ∧ t.take step = .error e := by
  rw [take, take]
  cases step.compile with
  | ok edit => exact .inl ⟨_, _, rfl, rfl⟩
  | error e => exact .inr ⟨e, rfl, rfl⟩

/-- Steps that must all be valid come to the first refusal of their run, or
to the scope where it ends. -/
theorem takeAll_eq (s : Scope) (steps : List Step) :
    s.takeAll steps = match (s.outcomes steps).findSome? Error.ofResult? with
      | some e => .error e
      | none => .ok (s.run steps) := by
  induction steps generalizing s with
  | nil => rfl
  | cons step rest ih =>
    rw [takeAll_cons, outcomes, List.findSome?_cons, run_cons s step rest]
    cases h : s.take step with
    | error e => rfl
    | ok t =>
      rw [run_of_ok h]
      exact ih t

/-- **A group comes to the first refusal among its steps**, which run on the
scope with the group opened, or if there is none to the scope that they
leave with the group closed. -/
theorem take_filterGroup_eq (s : Scope) (c : Connective) (inner : List Step) :
    s.take (.filterGroup c inner) =
      let opened : Scope := { s with filters := openGroup c s.filters }
      match (opened.outcomes inner).findSome? Error.ofResult? with
      | some e => .error e
      | none => .ok { opened.run inner with filters := closeGroup (opened.run inner).filters } := by
  rw [take_filterGroup, takeAll_eq]
  dsimp only
  split <;> rfl

/-! ## Leaving steps out -/

/-- What remains of a list when only the marked elements are kept. -/
def kept {α : Type} (marked : List (α × Bool)) : List α := (marked.filter (·.2)).map (·.1)

@[simp] theorem kept_true {α : Type} (x : α) (rest : List (α × Bool)) :
    kept ((x, true) :: rest) = x :: kept rest := rfl

@[simp] theorem kept_false {α : Type} (x : α) (rest : List (α × Bool)) :
    kept ((x, false) :: rest) = kept rest := rfl

/-- **Refused steps can be left out**, wherever they stand: the run ends in
the same scope, and each step that is kept comes to what it came to. -/
theorem run_kept {marked : List (Step × Bool)} (s : Scope)
    (h : ∀ p ∈ marked.zip (s.outcomes (marked.map (·.1))), p.1.2 = false →
      ∃ e, p.2 = .error e) :
    s.run (kept marked) = s.run (marked.map (·.1)) ∧
    s.outcomes (kept marked) = kept ((s.outcomes (marked.map (·.1))).zip (marked.map (·.2))) := by
  induction marked generalizing s with
  | nil => exact ⟨rfl, rfl⟩
  | cons m rest ih =>
    obtain ⟨step, keep⟩ := m
    rw [List.map_cons, outcomes, List.zip_cons_cons] at h
    obtain ⟨hhead, htail⟩ := List.forall_mem_cons.1 h
    obtain ⟨hrun, houtcomes⟩ := ih (s.run [step]) htail
    rw [List.map_cons, List.map_cons, run_cons s step (rest.map (·.1)), outcomes,
      List.zip_cons_cons]
    cases keep with
    | true =>
      rw [kept_true, kept_true, run_cons s step (kept rest), outcomes, houtcomes]
      exact ⟨hrun, rfl⟩
    | false =>
      -- the step that is left out is refused, so the others meet the same scope
      obtain ⟨e, hstep⟩ := hhead rfl
      rw [run_of_error hstep] at hrun houtcomes ⊢
      rw [kept_false, kept_false]
      exact ⟨hrun, houtcomes⟩

/-- **Refusals depend on no scope and leave no trace.** On any two scopes a
step is taken, or it is refused for the same reason. A group is refused
exactly if one of the steps in it is, for the reason of the first that is,
and otherwise closes what its steps leave. And let the steps that are not
kept of a run be refused where they stand: the others left to themselves
end in the same scope, and each of them comes to the same scope or
refusal as before. -/
theorem refusals_leave_no_trace :
    (∀ (step : Step) (s t : Scope),
      (∃ s' t', s.take step = .ok s' ∧ t.take step = .ok t') ∨
        ∃ e, s.take step = .error e ∧ t.take step = .error e) ∧
    (∀ (s : Scope) (c : Connective) (inner : List Step),
      s.take (.filterGroup c inner) =
        let opened : Scope := { s with filters := openGroup c s.filters }
        match (opened.outcomes inner).findSome? Error.ofResult? with
        | some e => .error e
        | none =>
          .ok { opened.run inner with filters := closeGroup (opened.run inner).filters }) ∧
    ∀ (s : Scope) (marked : List (Step × Bool)),
      (∀ p ∈ marked.zip (s.outcomes (marked.map (·.1))), p.1.2 = false →
        ∃ e, p.2 = .error e) →
      s.run (kept marked) = s.run (marked.map (·.1)) ∧
      s.outcomes (kept marked) =
        kept ((s.outcomes (marked.map (·.1))).zip (marked.map (·.2))) := by
  exact ⟨take_on_both, take_filterGroup_eq, fun s marked h => run_kept s h⟩

/-- Steps of which a group and a limit are left out. The group is refused for
an ordering in it, behind a limit and a predicate; another refused
ordering is kept. -/
def markedSteps : List (Step × Bool) :=
  [(.filterRaw .and "a".toList, true),
    (.filterGroup .or [.limit (.num (.ofWord 7)), .filterRaw .and "b".toList,
      .filterGroup .and [.join "j".toList, .orderBy (.raw "x".toList) "up".toList],
      .groupBy (.lit .null)], false),
    (.orderBy (.raw "y".toList) "?".toList, true), (.filterRaw .or "c".toList, true),
    (.limit .null, false)]

/-- The group leaves neither its parenthesis behind, nor its limit, nor the
predicate in it. -/
theorem refusals_leave_no_trace_group :
    (∀ p ∈ markedSteps.zip (({ limit := 3 } : Scope).outcomes (markedSteps.map (·.1))),
      p.1.2 = false → ∃ e, p.2 = .error e) ∧
    ({ limit := 3 } : Scope).run (markedSteps.map (·.1)) =
      { limit := 3, filters := " a || c ".toList } ∧
    ({ limit := 3 } : Scope).outcomes (kept markedSteps) =
      [.ok { limit := 3, filters := " a ".toList }, .error (.argument .order .direction),
        .ok { limit := 3, filters := " a || c ".toList }] := by
  have hrefused : ∀ p ∈ markedSteps.zip
      (({ limit := 3 } : Scope).outcomes (markedSteps.map (·.1))),
      p.1.2 = false → ∃ e, p.2 = .error e := by
    intro p hp hleft
    fin_cases hp
    · cases hleft
    · exact ⟨_, rfl⟩
    · cases hleft
    · cases hleft
    · exact ⟨_, rfl⟩
  obtain ⟨hrun, houtcomes⟩ := refusals_leave_no_trace.2.2 { limit := 3 } markedSteps hrefused
  exact ⟨hrefused, hrun.symm.trans rfl, houtcomes.trans rfl⟩

end Scope

end DocQuery
