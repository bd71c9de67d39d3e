import DocQuery.Proofs.Collection.Validity
import DocQuery.Proofs.Json.ReadsBack
import DocQuery.Proofs.Literal.Cast
/-!
# Bulk requests

Two operations take many things at once: documents to insert, from an array
or from an object, and ids to delete, from an array. Either request has one
JSON array for its body. Of documents the body means what the value holds,
as it stands there (`insertMany_reads_back`); of ids it means their text
casts, one for each id and in the order of the ids
(`deleteMany_reads_back`). An element that does not fit refuses the whole
request, whatever stands around it.
-/

namespace DocQuery

namespace Json

/-! ## What values hold -/

/-- **The elements that a value holds**: those of an array, or the values of
an object in the order of its keys. -/
inductive Holds : Json → List Json → Prop
  | items (vs : List Json) : Holds (arr vs) vs
  | values (members : List (Text × Json)) : Holds (obj members) (members.map (·.2))

variable {v : Json} {vs : List Json}

theorem holds_iff : v.Holds vs ↔ Call.elements? v = some vs := by
  constructor
  · rintro (_ | _) <;> rfl
  · intro h
    cases v with
    | arr items =>
      rw [← Option.some.inj h]
      exact .items items
    | obj members =>
      rw [← Option.some.inj h]
      exact .values members
    | _ => cases h

theorem isObject_iff : v.isObject ↔ ∃ members, v = obj members := by
  cases v with
  | obj members => exact iff_of_true rfl ⟨members, rfl⟩
  | _ => exact iff_of_false nofun nofun

theorem isComposite_eq_false_iff : v.isComposite = false ↔
    (∀ items, v ≠ arr items) ∧ ∀ members, v ≠ obj members := by
  cases v with
  | arr items => exact iff_of_false nofun fun h => h.1 items rfl
  | obj members => exact iff_of_false nofun fun h => h.2 members rfl
  | _ => exact iff_of_true rfl ⟨nofun, nofun⟩

/-- Elements have distinct keys in them if what holds them has. -/
theorem Holds.itemsDistinct (hold : v.Holds vs) (h : v.KeysDistinct) : ItemsDistinct vs := by
  cases hold with
  | items => exact h
  | values => exact itemsDistinct_map h.2

end Json

open Json

variable {v d : Json} {ds : List Json}

/-! ## Documents -/

/-- **A value that is refused in place of a document**: the request fails, and
the message quotes a JSON text that means the value. -/
def RefusesDocument (result : Except Error Request) (d : Json) : Prop :=
  ∃ e, result = .error e ∧ Means d.compact d ∧
    e.message = "\"->insert()\" function: parameter passed ".toList ++ d.compact ++
      " is not in valid document format.".toList

theorem message_refusal (d : Json) : (Document.refusal d).message =
    "\"->insert()\" function: parameter passed ".toList ++ d.compact ++
      " is not in valid document format.".toList := by
  have happend : ∀ s t u rest : Text, s ++ (t ++ u ++ rest) = s ++ t ++ u ++ rest := by
    intro s t u rest
    rw [← List.append_assoc, ← List.append_assoc]
  exact happend ('"' :: Operation.insert.name ++ "\" function: ".toList)
    "parameter passed ".toList d.compact _

namespace Call

/-- Documents are taken if a value holds them and they are objects. -/
theorem documents_eq_ok_iff : documents v = .ok ds ↔
    v.Holds ds ∧ ∀ d ∈ ds, ∃ members, d = obj members := by
  rw [holds_iff]
  simp only [← isObject_iff]
  constructor
  · intro h
    unfold documents at h
    split at h
    · cases h
    · rename_i helements
      split at h
      · cases h
      · rename_i hnone
        cases h
        exact ⟨helements, by simpa using List.find?_eq_none.1 hnone⟩
  · rintro ⟨helements, hobjects⟩
    have hnone : ds.find? (!·.isObject) = none :=
      List.find?_eq_none.2 (by simpa using hobjects)
    rw [documents, helements]
    simp only [hnone]

/-- Of the elements of a value the first that is no object is refused. -/
theorem documents_of_first {before after : List Json} (h : v.Holds (before ++ d :: after))
    (hbefore : ∀ b ∈ before, ∃ members, b = obj members) (hd : ∀ members, d ≠ obj members) :
    documents v = .error (Document.refusal d) := by
  -- the search passes over what stands in front and sees nothing behind
  have hfirst : (before ++ d :: after).find? (!·.isObject) = some d := by
    refine List.find?_eq_some_iff_append.2 ⟨?_, before, after, rfl, fun b hb => ?_⟩
    · rw [Bool.not_eq_true', ← Bool.not_eq_true, isObject_iff]
      exact fun ⟨members, heq⟩ => hd members heq
    · rw [Bool.not_not]
      exact isObject_iff.2 (hbefore b hb)
  rw [documents, holds_iff.1 h]
  simp only [hfirst]

/-- A value without elements is refused as a whole. -/
theorem documents_of_not_holds (h : ∀ ds, ¬ v.Holds ds) :
    documents v = .error (Document.refusal v) := by
  have hnone : elements? v = none :=
    Option.eq_none_iff_forall_ne_some.2 fun ds hds => h ds (holds_iff.2 hds)
  rw [documents, hnone]

end Call

open Call

namespace Collection

variable {c : Collection} {start : Scope}

theorem request_insertMany_of_ok (h : documents v = .ok ds) :
    c.request start (.insertMany v) = .ok ⟨.post, [], (Json.arr ds).compact, true⟩ := by
  rw [request, h]
  rfl

theorem refusesDocument_of_error (hd : d.KeysDistinct)
    (h : documents v = .error (Document.refusal d)) :
    RefusesDocument (c.request start (.insertMany v)) d := by
  have hrequest : c.request start (.insertMany v) = .error (Document.refusal d) := by
    rw [request, h]
    rfl
  exact ⟨_, hrequest, means_compact hd, message_refusal d⟩

/-- **Many documents are inserted as they are, or none of them.** The
request is built exactly if the value is an array or object and all that it
holds are objects. Its body then is a JSON text that means the array of
what the value holds: each document once, in their order, with its keys in
their order and its numbers in their classes. Otherwise nothing is built:
the first element that is no object is refused, wherever it stands, and so
is a value that is neither array nor object. -/
theorem insertMany_reads_back (c : Collection) (start : Scope) {v : Json} (h : v.KeysDistinct) :
    ((∃ r, c.request start (.insertMany v) = .ok r) ↔
      ∃ ds, v.Holds ds ∧ ∀ d ∈ ds, ∃ members, d = .obj members) ∧
    (∀ r, c.request start (.insertMany v) = .ok r → ∃ ds, v.Holds ds ∧
      r.method = .post ∧ r.action = [] ∧ r.multiple = true ∧ Means r.query (.arr ds)) ∧
    (∀ before d after, v.Holds (before ++ d :: after) →
      (∀ b ∈ before, ∃ members, b = .obj members) → (∀ members, d ≠ .obj members) →
        RefusesDocument (c.request start (.insertMany v)) d) ∧
    ((∀ ds, ¬ v.Holds ds) → RefusesDocument (c.request start (.insertMany v)) v) := by
  have hbuilt : ∀ r, c.request start (.insertMany v) = .ok r → ∃ ds, documents v = .ok ds ∧
      r = ⟨.post, [], (Json.arr ds).compact, true⟩ := by
    intro r hr
    obtain ⟨ds, hds, hr⟩ := Except.ok_of_bind hr
    exact ⟨ds, hds, (Except.ok.inj hr).symm⟩
  refine ⟨⟨?_, ?_⟩, ?_, ?_, ?_⟩
  · rintro ⟨r, hr⟩
    obtain ⟨ds, hds, -⟩ := hbuilt r hr
    exact ⟨ds, documents_eq_ok_iff.1 hds⟩
  · rintro ⟨ds, hds⟩
    exact ⟨_, request_insertMany_of_ok (documents_eq_ok_iff.2 hds)⟩
  · intro r hr
    obtain ⟨ds, hds, rfl⟩ := hbuilt r hr
    have hold := (documents_eq_ok_iff.1 hds).1
    exact ⟨ds, hold, rfl, rfl, rfl, means_compact (v := .arr ds) (hold.itemsDistinct h)⟩
  · intro before d after hold hbefore hd
    have hmem : d ∈ before ++ d :: after := List.mem_append_right _ List.mem_cons_self
    exact refusesDocument_of_error (itemsDistinct_iff.1 (hold.itemsDistinct h) d hmem)
      (documents_of_first hold hbefore hd)
  · intro hnone
    exact refusesDocument_of_error h (documents_of_not_holds hnone)

/-- A collection of documents. -/
def shelf : Collection := ⟨"shop.shelf".toList⟩

/-- An object that holds two documents under keys that are not in order, the
first with a double that is an integer and with a list. -/
def heldDocuments : List (Text × Json) :=
  [("b".toList, .obj [("y".toList, .num (.float (.zero true))), ("x".toList, .arr [.obj []])]),
    ("a".toList, .obj [])]

/-- Two values that are no objects, behind one that is. -/
def lateScalars : List Json := [.obj [("a\n".toList, .null)], .str ['"'], .arr []]

/-- The first are inserted without their keys. Of the others the text is
refused, and not the array behind it; a text alone is refused itself. -/
theorem insertMany_reads_back_held :
    (Json.obj heldDocuments).KeysDistinct ∧ (Json.arr lateScalars).KeysDistinct ∧
    (∃ r, shelf.request {} (.insertMany (.obj heldDocuments)) = .ok r ∧
      Means r.query (.arr (heldDocuments.map (·.2)))) ∧
    RefusesDocument (shelf.request {} (.insertMany (.arr lateScalars))) (.str ['"']) ∧
    RefusesDocument (shelf.request {} (.insertMany (.str ['7']))) (.str ['7']) := by
  have hheld : (Json.obj heldDocuments).KeysDistinct := by decide
  have hlate : (Json.arr lateScalars).KeysDistinct := by decide
  obtain ⟨hbuilt, hreads, -, -⟩ := insertMany_reads_back shelf {} hheld
  obtain ⟨-, -, hfirst, -⟩ := insertMany_reads_back shelf {} hlate
  obtain ⟨-, -, -, hscalar⟩ := insertMany_reads_back shelf {} (v := .str ['7']) trivial
  have hobjects : ∀ d ∈ heldDocuments.map (·.2), ∃ members, d = .obj members :=
    List.forall_mem_cons.2 ⟨⟨_, rfl⟩, List.forall_mem_singleton.2 ⟨_, rfl⟩⟩
  obtain ⟨r, hr⟩ := hbuilt.2 ⟨_, .values heldDocuments, hobjects⟩
  obtain ⟨ds, hold, -, -, -, hmeans⟩ := hreads r hr
  cases hold
  refine ⟨hheld, hlate, ⟨r, hr, hmeans⟩, ?_, hscalar nofun⟩
  exact hfirst [_] _ [.arr []] (.items lateScalars) (List.forall_mem_singleton.2 ⟨_, rfl⟩) nofun

end Collection

/-! ## Ids -/

theorem Json.isIdList_iff : v.isIdList ↔ ∃ ids, v = arr ids ∧
    ∀ id ∈ ids, (∀ items, id ≠ arr items) ∧ ∀ members, id ≠ obj members := by
  simp only [← isComposite_eq_false_iff]
  cases v <;> simp [isIdList]

/-- **Ids are cast one by one**, each to the text that it has. -/
theorem Call.idCasts_eq_ok_iff {texts : List Text} : idCasts v = .ok texts ↔
    ∃ ids, v = arr ids ∧ List.Forall₂ HasCast ids texts := by
  have hcasts : idCasts? v = some texts ↔ ∃ ids, v = arr ids ∧ List.Forall₂ HasCast ids texts := by
    cases v with
    | arr ids =>
      have hmapM : idCasts? (arr ids) = some texts ↔ List.Forall₂ HasCast ids texts := by
        simp only [idCasts?, Option.mapM_eq_some_iff, ← hasCast_iff]
      rw [hmapM]
      simp
    | _ => simp [idCasts?]
  rw [← hcasts, idCasts]
  cases idCasts? v <;> simp

namespace Collection

/-- **Many ids are deleted by their text casts, each in its place, or none of
them.** The request is built exactly if the value is an array that has no
array and no object among its elements. Its body then is a JSON text that
means an array of texts, as many as there are ids: a text is what the id in
its place is cast to, whatever characters JSON has to escape in it. -/
theorem deleteMany_reads_back (c : Collection) (start : Scope) (v : Json) :
    ((∃ r, c.request start (.deleteMany v) = .ok r) ↔ ∃ ids, v = .arr ids ∧
      ∀ id ∈ ids, (∀ items, id ≠ .arr items) ∧ ∀ members, id ≠ .obj members) ∧
    ∀ r, c.request start (.deleteMany v) = .ok r → ∃ ids texts, v = .arr ids ∧
      List.Forall₂ HasCast ids texts ∧
      r.method = .delete ∧ r.action = [] ∧ r.multiple = false ∧
      Means r.query (.arr (texts.map .str)) := by
  constructor
  · rw [← Except.isOk_iff, isOk_request, Call.isValid]
    exact isIdList_iff
  · intro r hr
    obtain ⟨texts, htexts, hr⟩ := Except.ok_of_bind hr
    obtain ⟨ids, hids, hcasts⟩ := idCasts_eq_ok_iff.1 htexts
    cases hr
    exact ⟨ids, texts, hids, hcasts, rfl, rfl, rfl, means_compact (keysDistinct_texts texts)⟩

/-- Ids of every kind. -/
def mixedIds : List Json :=
  [.str "a\"\\\n".toList, .num (.int (-7) (by decide)), .num (.float (.zero true)), .bool true,
    .bool false, .null]

/-- Their casts. Minus zero is an integer, and loses its sign. -/
def mixedCasts : List Text := ["a\"\\\n".toList, ['-', '7'], ['0'], ['1'], [], []]

/-- Each is cast in its place, and an array among the ids refuses them all. -/
theorem deleteMany_reads_back_mixed :
    (∃ r, shelf.request {} (.deleteMany (.arr mixedIds)) = .ok r ∧
      Means r.query (.arr (mixedCasts.map .str))) ∧
    ¬ ∃ r, shelf.request {} (.deleteMany (.arr (mixedIds ++ [.arr []]))) = .ok r := by
  obtain ⟨hbuilt, hreads⟩ := deleteMany_reads_back shelf {} (.arr mixedIds)
  obtain ⟨hnested, -⟩ := deleteMany_reads_back shelf {} (.arr (mixedIds ++ [.arr []]))
  have hscalars : mixedIds.all (!·.isComposite) := rfl
  have hmixed : List.Forall₂ HasCast mixedIds mixedCasts :=
    .cons (.str _) <| .cons (.int (-7) _) <|
      .cons (.whole (Binary64.isInteger_zero true) (by decide)) <|
        .cons .yes <| .cons .no <| .cons .null .nil
  obtain ⟨r, hr⟩ := hbuilt.2 (isIdList_iff.1 hscalars)
  obtain ⟨ids, texts, hids, hcasts, -, -, -, hmeans⟩ := hreads r hr
  -- the casts of the ids are the only texts that they have
  cases (Call.idCasts_eq_ok_iff.2 ⟨ids, hids, hcasts⟩).symm.trans
    (Call.idCasts_eq_ok_iff.2 ⟨mixedIds, rfl, hmixed⟩)
  refine ⟨⟨r, hr, hmeans⟩, fun hrefused => ?_⟩
  obtain ⟨nested, hnested, hplain⟩ := hnested.1 hrefused
  cases hnested
  exact (hplain (.arr []) (List.mem_append_right _ List.mem_cons_self)).1 [] rfl

end Collection

end DocQuery
