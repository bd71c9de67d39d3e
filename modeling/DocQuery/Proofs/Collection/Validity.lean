import DocQuery.Proofs.Collection.Ids
import DocQuery.Proofs.Sequence
/-!
# Which arguments are valid

Validity of calls and steps, said of their arguments and without compiling
anything: which ids, documents, lists and counts are taken, field by
field. `Step.compile` and `Collection.request` refuse exactly what is not
valid (`Step.isOk_compile`, `Collection.isOk_request`), so whether a call
is refused depends neither on the collection nor on the scope that its
steps begin with.
-/

namespace DocQuery

/-! ## Steps -/

/-- Whether a selection has no array or object among its terms. -/
def Selection.isValid : Selection → Bool
  | expr _ => true
  | terms ts => ts.all (!·.isComposite)

theorem Selection.isOk_compile (s : Selection) : s.compile.isOk = s.isValid := by
  cases s with
  | expr text => rfl
  | terms ts =>
    have hterm : ∀ o : Operand, (term o).isOk = !o.isComposite := by
      intro o
      cases o with
      | lit v => cases v <;> rfl
      | field name => rfl
      | raw text => rfl
    have hterms : (ts.mapM term).isOk = ts.all (!·.isComposite) := by
      rw [Except.isOk_mapM]
      simp only [hterm]
    rw [isValid, ← hterms, compile]
    cases ts.mapM term <;> rfl

mutual

/-- Whether the arguments of a step are valid: no array or object is
selected or compared, counts are counts, directions are directions, and
terms are made of names or fragments. -/
def Step.isValid : Step → Bool
  | select selection => selection.isValid
  | filter _ field _ _ => !field.isComposite
  | filterGroup _ inner => Step.areValid inner
  | limit v => (Count.ofJson? v).isSome
  | offset v => (Count.ofJson? v).isSome
  | orderBy field direction => (Direction.parse? direction).isSome && field.selector?.isSome
  | groupBy field => field.selector?.isSome
  | filterRaw _ _ => true
  | join _ => true
  | prepend _ => true
  | listWords _ => true
  | alternatives _ => true

/-- Whether all steps are valid. -/
def Step.areValid : List Step → Bool
  | [] => true
  | step :: rest => step.isValid && Step.areValid rest

end

theorem Count.isOk_compile (operation : Operation) (v : Json) :
    (Count.compile operation v).isOk = (Count.ofJson? v).isSome := by
  rw [Count.compile]
  cases Count.ofJson? v <;> rfl

theorem Predicate.isOk_compile (p : Predicate) : p.compile.isOk = !p.subject.isComposite := by
  unfold Predicate.compile
  split
  · rename_i hcomposite
    rw [hcomposite]
    rfl
  · rename_i hplain
    rw [(Bool.not_eq_true _).mp hplain]
    cases p <;> rfl

theorem isOk_groupTerm (field : Operand) : (groupTerm field).isOk = field.selector?.isSome := by
  rw [groupTerm]
  cases field.selector? <;> rfl

theorem isOk_orderTerm (field : Operand) (direction : Text) :
    (orderTerm field direction).isOk =
      ((Direction.parse? direction).isSome && field.selector?.isSome) := by
  have hparse : (Direction.parse direction).isOk = (Direction.parse? direction).isSome := by
    rw [Direction.parse]
    cases Direction.parse? direction <;> rfl
  rw [orderTerm, ← hparse]
  refine Except.isOk_bind fun d _ => ?_
  cases field.selector? <;> rfl

mutual

/-- **A step is refused exactly if it is not valid.** -/
theorem Step.isOk_compile : ∀ step : Step, step.compile.isOk = step.isValid
  | select selection => by
    rw [Step.compile, Except.isOk_bind_pure, Selection.isOk_compile, Step.isValid]
  | filter c field operator value => by
    rw [Step.compile, Except.isOk_bind_pure, Predicate.isOk_compile, Step.isValid,
      Predicate.subject]
  | filterRaw c fragment => rfl
  | filterGroup c inner => by
    rw [Step.compile, Except.isOk_bind_pure, Step.isOk_compileAll inner, Step.isValid]
  | limit v => by rw [Step.compile, Except.isOk_bind_pure, Count.isOk_compile, Step.isValid]
  | offset v => by rw [Step.compile, Except.isOk_bind_pure, Count.isOk_compile, Step.isValid]
  | orderBy field direction => by
    rw [Step.compile, Except.isOk_bind_pure, isOk_orderTerm, Step.isValid]
  | groupBy field => by rw [Step.compile, Except.isOk_bind_pure, isOk_groupTerm, Step.isValid]
  | join _ => rfl
  | prepend _ => rfl
  | listWords _ => rfl
  | alternatives _ => rfl

/-- And steps are refused exactly if one of them is not valid. -/
theorem Step.isOk_compileAll : ∀ steps : List Step,
    (Step.compileAll steps).isOk = Step.areValid steps
  | [] => rfl
  | step :: rest => by
    rw [Step.compileAll, Step.areValid, ← Step.isOk_compile step]
    refine Except.isOk_bind fun e _ => ?_
    rw [Except.isOk_bind_pure, Step.isOk_compileAll rest]

end

/-- Whether a scope can be made of steps does not depend on the scope that
they begin with. -/
theorem Scope.isOk_takeAll (start : Scope) (steps : List Step) :
    (start.takeAll steps).isOk = Step.areValid steps := by
  rw [Scope.takeAll, Except.isOk_bind_pure, Step.isOk_compileAll]

/-! ## Calls -/

namespace Json

/-- Whether a value is a list of ids to delete: an array without array or
object in it. -/
def isIdList : Json → Bool
  | arr items => items.all (!·.isComposite)
  | _ => false

/-- Whether a value is a list of documents to store: an array of objects,
or an object that has them as values. -/
def isDocumentList : Json → Bool
  | arr items => items.all isObject
  | obj members => members.all (·.2.isObject)
  | _ => false

/-- Whether a value is a change to a record: a text or an object. -/
def isChange : Json → Bool
  | str _ => true
  | obj _ => true
  | _ => false

end Json

/-- **Whether the arguments of a call are valid**, one by one. -/
def Call.isValid : Call → Bool
  | select steps _ => Step.areValid steps
  | first steps => Step.areValid steps
  | find id => id.isId
  | delete id => id.isId
  | deleteMany ids => ids.isIdList
  | insertOne document => document.isComposite
  | insertMany documents => documents.isDocumentList
  | update id change => id.isId && change.isChange
  | replace id document => id.isId && document.isComposite
  | raw _ => true
  | beginTransaction => true
  | rollbackTransaction => true
  | commitTransaction => true
  | status => true

namespace Call

theorem isOk_idText (operation : Operation) (id : Json) :
    (idText operation id).isOk = id.isId := by
  cases id <;> rfl

theorem isSome_cast? (v : Json) : v.cast?.isSome = !v.isComposite := by
  cases v with
  | bool b => cases b <;> rfl
  | _ => rfl

theorem isOk_idCasts (ids : Json) : (idCasts ids).isOk = ids.isIdList := by
  have hcasts : (idCasts? ids).isSome = ids.isIdList := by
    cases ids with
    | arr items =>
      rw [idCasts?, Json.isIdList]
      induction items with
      | nil => rfl
      | cons v rest ih =>
        rw [List.all_cons, ← ih, ← isSome_cast?, List.mapM_cons]
        cases v.cast? with
        | none => rfl
        | some text => cases rest.mapM Json.cast? <;> rfl
    | _ => rfl
  rw [idCasts, ← hcasts]
  cases idCasts? ids <;> rfl

theorem isOk_documents (vs : Json) : (documents vs).isOk = vs.isDocumentList := by
  -- an array and an object differ in where their elements come from only
  have helements : ∀ items : List Json, elements? vs = some items →
      (documents vs).isOk = items.all Json.isObject := by
    intro items hitems
    have hnone : (items.find? (!·.isObject)).isNone = items.all Json.isObject := by
      rw [Bool.eq_iff_iff, Option.isNone_iff_eq_none, List.find?_eq_none, List.all_eq_true]
      simp
    rw [documents, hitems, ← hnone]
    dsimp only
    cases items.find? (!·.isObject) <;> rfl
  cases vs with
  | arr items => exact helements items rfl
  | obj members => exact (helements (members.map (·.2)) rfl).trans List.all_map
  | _ => rfl

end Call

theorem Document.isOk_encode (v : Json) : (Document.encode v).isOk = v.isComposite := by
  cases v <;> rfl

open Call in
/-- **A call is refused exactly if it is not valid**, on any collection and
with scopes that begin in any way. -/
theorem Collection.isOk_request (c : Collection) (start : Scope) (call : Call) :
    (c.request start call).isOk = call.isValid := by
  cases call with
  | select steps multiple =>
    rw [request, Except.isOk_bind_pure, Scope.isOk_takeAll, isValid]
  | first steps =>
    rw [request, Except.isOk_bind_pure, Scope.isOk_takeAll, isValid]
  | find id => rw [request, Except.isOk_bind_pure, isOk_idText, isValid]
  | delete id => rw [request, Except.isOk_bind_pure, isOk_idText, isValid]
  | deleteMany ids => rw [request, Except.isOk_bind_pure, isOk_idCasts, isValid]
  | insertOne document => rw [request, Except.isOk_bind_pure, Document.isOk_encode, isValid]
  | insertMany documents => rw [request, Except.isOk_bind_pure, isOk_documents, isValid]
  | update id change =>
    rw [request, isValid, ← isOk_idText .update]
    refine Except.isOk_bind fun text _ => ?_
    cases change <;> rfl
  | replace id document =>
    rw [request, isValid, ← isOk_idText .replace]
    refine Except.isOk_bind fun text _ => ?_
    rw [Except.isOk_bind_pure, Document.isOk_encode]
  | raw _ | beginTransaction | rollbackTransaction | commitTransaction | status => rfl

end DocQuery
