import DocQuery.Proofs.Collection.Validity
/-!
# The operation that an error names

An argument is refused in the name of an operation, by which a caller knows
the call to correct. Steps are refused in their own name, whatever is wrong
with them (`Step.names_of_error`), and a group in that of the first refused
step in it. Calls are refused in their own name too, but for one argument
of one call: a document that is to replace a record is encoded by what
encodes documents for insertion, which knows no other operation than that
(`Collection.operation_of_refused`). The names are written out here as
callers know them, so what is compared with them is the name that stands in
the message of an error.
-/

namespace DocQuery

/-- **An error that names an operation**: one of its arguments was
refused, and the operation goes by the name. -/
def Error.Names (e : Error) (name : Text) : Prop :=
  ∃ operation fault, e = .argument operation fault ∧ operation.name = name

/-- Such an error has the code of argument errors. -/
theorem Error.Names.code? {e : Error} {name : Text} (h : e.Names name) :
    e.code? = some 9002 := by
  obtain ⟨operation, fault, rfl, -⟩ := h
  rfl

variable {e : Error}

/-- What refuses an argument of an operation names the operation. -/
theorem Error.names_of_refused {α : Type} {operation : Operation} {fault : Fault}
    (h : (.error (.argument operation fault) : Except Error α) = .error e) :
    e.Names operation.name := by
  cases h
  exact ⟨_, _, rfl, rfl⟩

/-! ## Steps -/

theorem Selection.names_of_error {s : Selection} (h : s.compile = .error e) :
    e.Names "->select()".toList := by
  cases s with
  | expr text => cases h
  | terms ts =>
    rw [compile, map_eq_pure_bind] at h
    obtain ⟨o, -, ho⟩ := Except.error_of_mapM (Except.error_of_bind_pure h)
    unfold term at ho
    split at ho
    · cases ho
    · split at ho
      · exact Error.names_of_refused ho
      · cases ho

theorem Predicate.names_of_error {p : Predicate} (h : p.compile = .error e) :
    e.Names "->where()".toList := by
  unfold Predicate.compile at h
  split at h
  · exact Error.names_of_refused h
  · split at h <;> cases h

theorem Count.names_of_error {operation : Operation} {v : Json}
    (h : Count.compile operation v = .error e) : e.Names operation.name := by
  unfold Count.compile at h
  split at h
  · cases h
  · exact Error.names_of_refused h

theorem names_of_groupTerm {field : Operand} (h : groupTerm field = .error e) :
    e.Names "->group()".toList := by
  unfold groupTerm at h
  split at h
  · cases h
  · exact Error.names_of_refused h

/-- An ordering is refused as such for its direction and for its field. -/
theorem names_of_orderTerm {field : Operand} {direction : Text}
    (h : orderTerm field direction = .error e) : e.Names "->order()".toList := by
  rcases Except.error_of_bind h with h | ⟨d, -, h⟩
  · unfold Direction.parse at h
    split at h
    · cases h
    · exact Error.names_of_refused h
  · split at h
    · cases h
    · exact Error.names_of_refused h

namespace Step

/-- The name by which a caller knows a step. Steps that take any argument
have none, and a group is refused only in the name of the steps in it. -/
def name? : Step → Option Text
  | select _ => some "->select()".toList
  | filter _ _ _ _ => some "->where()".toList
  | filterRaw _ _ => some "->where()".toList
  | limit _ => some "->limit()".toList
  | offset _ => some "->offset()".toList
  | orderBy _ _ => some "->order()".toList
  | groupBy _ => some "->group()".toList
  | filterGroup _ _ => none
  | join _ => none
  | prepend _ => none
  | listWords _ => none
  | alternatives _ => none

mutual

/-- The step that was refused when a step was: the step itself, or of a
group the first one in it. -/
def refused? : Step → Option Step
  | filterGroup _ inner => refusedAll? inner
  | step => if step.isValid then none else some step

/-- The first step that was refused. -/
def refusedAll? : List Step → Option Step
  | [] => none
  | step :: rest => (refused? step).or (refusedAll? rest)

end

/-- A step with a name of its own is refused itself. -/
theorem refused?_of_error {step : Step} {name : Text} (hname : step.name? = some name)
    (h : step.compile = .error e) :
    step.refused? = some step := by
  have hvalid : step.isValid = false := by
    rw [← isOk_compile, h]
    rfl
  cases step with
  | filterGroup c inner => cases hname
  | _ => simp [refused?, hvalid]

mutual

/-- A step was refused exactly if not all are valid. -/
theorem isNone_refused? : ∀ step : Step, step.refused?.isNone = step.isValid
  | filterGroup c inner => isNone_refusedAll? inner
  | select _ | filter _ _ _ _ | filterRaw _ _ | limit _ | offset _ | orderBy _ _ | groupBy _
  | join _ | prepend _ | listWords _ | alternatives _ => by
    rw [refused?]
    · split <;> simp [*]
    · rintro _ _ ⟨⟩

theorem isNone_refusedAll? : ∀ steps : List Step, (refusedAll? steps).isNone = areValid steps
  | [] => rfl
  | step :: rest => by
    rw [refusedAll?, areValid, ← isNone_refused? step, ← isNone_refusedAll? rest, Option.isNone_or]

end

/-- **Whether an error names the step that was refused.** -/
def Blames (refused : Option Step) (e : Error) : Prop :=
  ∃ called name, refused = some called ∧ called.name? = some name ∧ e.Names name

mutual

/-- **The error of a step names the step that was refused.** -/
theorem names_of_error : ∀ {step : Step}, step.compile = .error e → Blames step.refused? e
  | filterGroup c inner, h => names_of_errorAll (Except.error_of_bind_pure h)
  | select selection, h => by
    have hnames := Selection.names_of_error (Except.error_of_bind_pure h)
    exact ⟨_, _, refused?_of_error rfl h, rfl, hnames⟩
  | filter c field operator value, h | filterRaw c fragment, h => by
    have hnames := Predicate.names_of_error (Except.error_of_bind_pure h)
    exact ⟨_, _, refused?_of_error rfl h, rfl, hnames⟩
  | limit v, h | offset v, h => by
    have hnames := Count.names_of_error (Except.error_of_bind_pure h)
    exact ⟨_, _, refused?_of_error rfl h, rfl, hnames⟩
  | orderBy field direction, h => by
    have hnames := names_of_orderTerm (Except.error_of_bind_pure h)
    exact ⟨_, _, refused?_of_error rfl h, rfl, hnames⟩
  | groupBy field, h => by
    have hnames := names_of_groupTerm (Except.error_of_bind_pure h)
    exact ⟨_, _, refused?_of_error rfl h, rfl, hnames⟩

/-- And the error of several steps that of the first refused one. -/
theorem names_of_errorAll : ∀ {steps : List Step}, compileAll steps = .error e →
    Blames (refusedAll? steps) e
  | step :: rest, h => by
    rcases Except.error_of_bind h with hstep | ⟨edit, hedit, h⟩
    · obtain ⟨called, name, hcalled, hnames⟩ := names_of_error hstep
      exact ⟨called, name, by rw [refusedAll?, hcalled, Option.some_or], hnames⟩
    · have hnone : step.refused? = none := by
        rw [← Option.isNone_iff_eq_none, isNone_refused?, ← isOk_compile, hedit]
        rfl
      have hrest := names_of_errorAll (Except.error_of_bind_pure h)
      rwa [refusedAll?, hnone, Option.none_or]

end

end Step

/-! ## Calls -/

namespace Call

/-- The name by which a caller knows a call. A read is known by that of the
step that was refused; calls that take any argument have none. -/
def name? : Call → Option Text
  | select steps _ => (Step.refusedAll? steps).bind Step.name?
  | first steps => (Step.refusedAll? steps).bind Step.name?
  | find _ => some "->find()".toList
  | delete _ => some "->delete()".toList
  | deleteMany _ => some "->deleteMany()".toList
  | insertOne _ => some "->insert()".toList
  | insertMany _ => some "->insert()".toList
  | update _ _ => some "->update()".toList
  | replace _ _ => some "->replace()".toList
  | raw _ => none
  | beginTransaction => none
  | rollbackTransaction => none
  | commitTransaction => none
  | status => none

theorem names_of_idText {operation : Operation} {id : Json}
    (h : idText operation id = .error e) : e.Names operation.name := by
  unfold idText at h
  split at h
  · cases h
  · cases h
  · exact Error.names_of_refused h

theorem names_of_idCasts {ids : Json} (h : idCasts ids = .error e) :
    e.Names "->deleteMany()".toList := by
  unfold idCasts at h
  split at h
  · cases h
  · exact Error.names_of_refused h

theorem names_of_documents {v : Json} (h : documents v = .error e) :
    e.Names "->insert()".toList := by
  unfold documents at h
  split at h
  · exact Error.names_of_refused h
  · split at h
    · exact Error.names_of_refused h
    · cases h

end Call

/-- A value that is no document is refused in the name of insertion. -/
theorem Document.names_of_encode {v : Json} (h : Document.encode v = .error e) :
    e.Names "->insert()".toList := by
  unfold Document.encode at h
  split at h
  · cases h
  · exact Error.names_of_refused h

namespace Collection

open Call

/-- **The error of a refused call names the call**, with one exception. -/
theorem names_of_request {c : Collection} {start : Scope} {call : Call}
    (h : c.request start call = .error e) : ∃ called name,
      call.name? = some called ∧ e.Names name ∧
      (name = called ↔ ∀ id document, call = .replace id document → id.isId = false) ∧
      (name = called ∨ name = "->insert()".toList) := by
  -- where the name is that of the call, and the call replaces no record
  have hcalled : ∀ {name : Text}, call.name? = some name → e.Names name →
      (∀ id document, call ≠ .replace id document) → ∃ called name,
        call.name? = some called ∧ e.Names name ∧
        (name = called ↔ ∀ id document, call = .replace id document → id.isId = false) ∧
        (name = called ∨ name = "->insert()".toList) := by
    intro name hname hnames hother
    refine ⟨name, name, hname, hnames, iff_of_true rfl ?_, .inl rfl⟩
    exact fun id document hcall => absurd hcall (hother id document)
  cases call with
  | select steps _ | first steps =>
    rcases Except.error_of_bind h with h | ⟨s, -, h⟩
    · obtain ⟨refused, name, hrefused, hname, hnames⟩ :=
        Step.names_of_errorAll (Except.error_of_bind_pure h)
      refine hcalled ?_ hnames nofun
      rw [Call.name?, hrefused]
      exact hname
    · cases h
  | find id => exact hcalled rfl (names_of_idText (Except.error_of_bind_pure h)) nofun
  | delete id => exact hcalled rfl (names_of_idText (Except.error_of_bind_pure h)) nofun
  | deleteMany ids => exact hcalled rfl (names_of_idCasts (Except.error_of_bind_pure h)) nofun
  | insertOne document =>
    exact hcalled rfl (Document.names_of_encode (Except.error_of_bind_pure h)) nofun
  | insertMany vs => exact hcalled rfl (names_of_documents (Except.error_of_bind_pure h)) nofun
  | update id change =>
    rcases Except.error_of_bind h with h | ⟨text, -, h⟩
    · exact hcalled rfl (names_of_idText h) nofun
    · refine hcalled rfl ?_ nofun
      cases change with
      | str _ | obj _ => cases h
      | _ =>
        exact Error.names_of_refused h
  | replace id document =>
    have hvalid := isOk_idText .replace id
    rcases Except.error_of_bind h with h | ⟨text, hid, h⟩
    · rw [h] at hvalid
      refine ⟨_, _, rfl, names_of_idText h, iff_of_true rfl ?_, .inl rfl⟩
      rintro id document ⟨⟩
      exact hvalid.symm
    · rw [hid] at hvalid
      have hnames := Document.names_of_encode (Except.error_of_bind_pure h)
      have hother : "->insert()".toList ≠ "->replace()".toList := by decide
      refine ⟨_, _, rfl, hnames, iff_of_false hother fun hall => ?_, .inr rfl⟩
      exact Bool.false_ne_true ((hall id document rfl).symm.trans hvalid.symm)
  | raw _ | beginTransaction | rollbackTransaction | commitTransaction | status => cases h

/-- **What is refused is refused by name**, with the code of argument
errors. A step is refused on any scope in the name of the step itself, or of
the first refused step in it if it is a group. A call is refused in its own
name, a read in that of the first refused step, unless it replaces a record
whose id is valid: the document is at fault then, and what is named is
insertion. -/
theorem operation_of_refused (c : Collection) (s : Scope) (step : Step) (call : Call) (e : Error) :
    (s.take step = .error e → Step.Blames step.refused? e ∧ e.code? = some 9002) ∧
    (c.request s call = .error e → ∃ called name,
      call.name? = some called ∧ e.Names name ∧ e.code? = some 9002 ∧
      (name = called ↔ ∀ id document, call = .replace id document → id.isId = false) ∧
      (name = called ∨ name = "->insert()".toList)) := by
  constructor
  · intro h
    have hblames := Step.names_of_error (Except.error_of_bind_pure h)
    obtain ⟨called, name, -, -, hnames⟩ := id hblames
    exact ⟨hblames, hnames.code?⟩
  · intro h
    obtain ⟨called, name, hcalled, hnames, hexcept⟩ := names_of_request h
    exact ⟨called, name, hcalled, hnames, hnames.code?, hexcept⟩

/-- A group in a group is refused for its ordering, not for the grouping
behind it; an update with an id and a change that are both at fault, for
one of them. -/
theorem operation_of_refused_nested :
    (∃ e, ({} : Scope).take (.filterGroup .or [.limit (.str "5".toList), .filterGroup .and
        [.orderBy (.lit (.arr [])) "asc".toList], .groupBy (.lit .null)]) = .error e ∧
      e.Names "->order()".toList ∧ e.code? = some 9002) ∧
    ∃ e, (Collection.mk "100.books".toList).request {} (.update .null (.arr [])) = .error e ∧
      e.Names "->update()".toList ∧ e.code? = some 9002 := by
  have hrefused := operation_of_refused ⟨"100.books".toList⟩ {} (.filterGroup .or
    [.limit (.str "5".toList), .filterGroup .and [.orderBy (.lit (.arr [])) "asc".toList],
      .groupBy (.lit .null)]) (.update .null (.arr []))
  constructor
  · obtain ⟨⟨called, name, hrefused, hname, hnames⟩, hcode⟩ := (hrefused _).1 rfl
    cases hrefused
    cases hname
    exact ⟨_, rfl, hnames, hcode⟩
  · obtain ⟨called, name, hcalled, hnames, hcode, hexcept, -⟩ := (hrefused _).2 rfl
    cases hcalled
    rw [hexcept.2 nofun] at hnames
    exact ⟨_, rfl, hnames, hcode⟩

/-- **A replacement is not refused in its own name** for a document that is
none. -/
theorem replacement_names_insert :
    (Collection.mk "100.books".toList).request {} (.replace (.str ['7']) (.bool true)) =
      .error (.argument .insert (.document (.bool true))) ∧
    Error.Names (.argument .insert (.document (.bool true))) "->insert()".toList ∧
    (Call.replace (.str ['7']) (.bool true)).name? = some "->replace()".toList ∧
    ¬ Error.Names (.argument .insert (.document (.bool true))) "->replace()".toList := by
  refine ⟨rfl, ⟨_, _, rfl, rfl⟩, rfl, ?_⟩
  rintro ⟨operation, fault, heq, hname⟩
  cases heq
  exact absurd hname (by decide)

end Collection

end DocQuery
