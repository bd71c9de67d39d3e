import DocQuery.Collection
import DocQuery.Proofs.Json.ReadsBack
import DocQuery.Proofs.Text.FormCode
import DocQuery.Proofs.Where.Tree
/-!
# The shape of a request

A transport takes a descriptor apart by its method and its action, so not
every descriptor makes sense: a request that reads has no body, one that
changes a record selects it, and one that deletes several records names
them in its body. `Request.HasShape` says which descriptors do. Six kinds
of request have the shape, whatever their texts are, and every call on a
collection that is not refused is of one of these kinds
(`hasShape_of_request`).
-/

namespace DocQuery

namespace Request

/-! ## Shapes -/

/-- An action that selects a record: form code between brackets. -/
def IsSelector (action : Text) : Prop :=
  ∃ code, FormCode.isCode code ∧ action = '[' :: (code ++ [']'])

/-- A body that is a JSON array of texts. -/
def IsTextArray (body : Text) : Prop :=
  ∃ texts : List Text, Json.readRounded? body = some (.arr (texts.map .str))

/-- **What a descriptor must look like.** -/
structure HasShape (r : Request) : Prop where
  /-- There are four kinds of action. -/
  action : r.action = [] ∨ r.action = queryAction ∨ r.action = statusAction ∨ IsSelector r.action
  /-- What is read is one record or the status, and there is no body. -/
  get : r.method = .get → r.query = [] ∧
    (IsSelector r.action ∧ r.multiple = false ∨ r.action = statusAction ∧ r.multiple = true)
  /-- What is changed or replaced is one record. -/
  change : r.method = .put ∨ r.method = .patch → IsSelector r.action ∧ r.multiple = false
  /-- What is deleted is the record of the action or those in the body. -/
  delete : r.method = .delete → r.multiple = false ∧
    (IsSelector r.action ∧ r.query = [] ∨ r.action = [] ∧ IsTextArray r.query)
  /-- No deletion is without both. -/
  names : r.method = .delete → ¬ (r.action = [] ∧ r.query = [])
  /-- What is posted goes to the collection or to the query endpoint. -/
  post : r.method = .post → r.action = [] ∨ r.action = queryAction
  /-- A list of records answers a post or is the status. -/
  multiple : r.multiple = true → r.method = .post ∨ r.action = statusAction

variable {id body : Text} {multiple : Bool}

theorem isSelector_selector (id : Text) : IsSelector (selector id) :=
  ⟨FormCode.encode id, FormCode.isCode_encode id, rfl⟩

/-- The compact text of an array of texts is one. -/
theorem isTextArray_compact (texts : List Text) :
    IsTextArray (Json.arr (texts.map .str)).compact :=
  ⟨texts, Json.readRounded?_compact (Json.keysDistinct_texts texts)⟩

/-! ## Kinds of request -/

/-- A query. -/
theorem hasShape_ofQuery : (ofQuery body multiple).HasShape where
  action := .inr (.inl rfl)
  get := nofun
  change := nofun
  delete := nofun
  names := nofun
  post _ := .inr rfl
  multiple _ := .inl rfl

/-- What is stored in the collection. -/
theorem hasShape_insert : (Request.mk .post [] body multiple).HasShape where
  action := .inl rfl
  get := nofun
  change := nofun
  delete := nofun
  names := nofun
  post _ := .inl rfl
  multiple _ := .inl rfl

/-- One record that is read. -/
theorem hasShape_find : (Request.mk .get (selector id) [] false).HasShape where
  action := .inr (.inr (.inr (isSelector_selector id)))
  get _ := ⟨rfl, .inl ⟨isSelector_selector id, rfl⟩⟩
  change := nofun
  delete := nofun
  names := nofun
  post := nofun
  multiple := nofun

/-- The status. -/
theorem hasShape_status : (Request.mk .get statusAction [] true).HasShape where
  action := .inr (.inr (.inl rfl))
  get _ := ⟨rfl, .inr ⟨rfl, rfl⟩⟩
  change := nofun
  delete := nofun
  names := nofun
  post := nofun
  multiple _ := .inr rfl

/-- One record that is changed or replaced. -/
theorem hasShape_change {method : Method} (h : method = .put ∨ method = .patch) :
    (Request.mk method (selector id) body false).HasShape := by
  have hother : method ≠ .get ∧ method ≠ .delete ∧ method ≠ .post := by
    rcases h with rfl | rfl <;> decide
  exact {
    action := .inr (.inr (.inr (isSelector_selector id)))
    get := fun hget => absurd hget hother.1
    change := fun _ => ⟨isSelector_selector id, rfl⟩
    delete := fun hdelete => absurd hdelete hother.2.1
    names := fun hdelete => absurd hdelete hother.2.1
    post := fun hpost => absurd hpost hother.2.2
    multiple := nofun }

/-- One record that is deleted. -/
theorem hasShape_delete : (Request.mk .delete (selector id) [] false).HasShape where
  action := .inr (.inr (.inr (isSelector_selector id)))
  get := nofun
  change := nofun
  delete _ := ⟨rfl, .inl ⟨isSelector_selector id, rfl⟩⟩
  names _ h := absurd h.1 (List.cons_ne_nil _ _)
  post := nofun
  multiple := nofun

/-- Several records that are deleted. -/
theorem hasShape_deleteMany (texts : List Text) :
    (Request.mk .delete [] (Json.arr (texts.map .str)).compact false).HasShape where
  action := .inl rfl
  get := nofun
  change := nofun
  delete _ := ⟨rfl, .inr ⟨rfl, isTextArray_compact texts⟩⟩
  names _ h := absurd h.2 (List.cons_ne_nil _ _)
  post := nofun
  multiple := nofun

end Request

/-! ## Calls -/

namespace Collection

open Request

/-- **Every request of a call has the shape**, whatever the collection,
the scope and the arguments are. -/
theorem hasShape_of_request (c : Collection) (start : Scope) {call : Call} {r : Request}
    (h : c.request start call = .ok r) : r.HasShape := by
  cases call with
  | select _ _ | first _ =>
    obtain ⟨s, -, h⟩ := Except.ok_of_bind h
    cases h
    exact hasShape_ofQuery
  | find id =>
    obtain ⟨text, -, h⟩ := Except.ok_of_bind h
    cases h
    exact hasShape_find
  | delete id =>
    obtain ⟨text, -, h⟩ := Except.ok_of_bind h
    cases h
    exact hasShape_delete
  | deleteMany ids =>
    obtain ⟨casts, -, h⟩ := Except.ok_of_bind h
    cases h
    exact hasShape_deleteMany casts
  | insertOne _ | insertMany _ =>
    obtain ⟨body, -, h⟩ := Except.ok_of_bind h
    cases h
    exact hasShape_insert
  | update id change =>
    obtain ⟨text, -, h⟩ := Except.ok_of_bind h
    -- a text is sent as it is, and members are compiled to a query
    cases change with
    | str body =>
      cases h
      exact hasShape_change (.inr rfl)
    | obj members =>
      cases h
      exact hasShape_ofQuery
    | _ => cases h
  | replace id document =>
    obtain ⟨text, -, h⟩ := Except.ok_of_bind h
    obtain ⟨body, -, h⟩ := Except.ok_of_bind h
    cases h
    exact hasShape_change (.inl rfl)
  | raw _ | beginTransaction | rollbackTransaction | commitTransaction =>
    cases h
    exact hasShape_ofQuery
  | status =>
    cases h
    exact hasShape_status

/-- An empty list of ids still gives a body, and an empty id a selector. -/
theorem hasShape_of_request_empty :
    (Collection.mk "100.books".toList).request {} (.deleteMany (.arr [])) =
      .ok ⟨.delete, [], "[]".toList, false⟩ ∧
    (Request.mk .delete [] "[]".toList false).HasShape ∧
    (Collection.mk "100.books".toList).request {} (.find (.str [])) =
      .ok ⟨.get, "[]".toList, [], false⟩ ∧
    (Request.mk .get "[]".toList [] false).HasShape := by
  have hids : (Collection.mk "100.books".toList).request {} (.deleteMany (.arr [])) =
      .ok ⟨.delete, [], "[]".toList, false⟩ := rfl
  have hid : (Collection.mk "100.books".toList).request {} (.find (.str [])) =
      .ok ⟨.get, "[]".toList, [], false⟩ := rfl
  exact ⟨hids, hasShape_of_request _ {} hids, hid, hasShape_of_request _ {} hid⟩

end Collection

end DocQuery
