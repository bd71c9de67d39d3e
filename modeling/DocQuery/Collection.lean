import DocQuery.Document
import DocQuery.Request
import DocQuery.Scope
/-!
# Collections

A collection is addressed by a path of segments between dots; the last
segment is the name under which queries know the collection.

A scope becomes a query by writing its clauses in a fixed order around the
name of the collection. A clause that a scope does not have is left out
with its keyword. The where clause brings its own spaces, each other
section ends with one, and the pagination ends the text.

A call is one operation on a collection with its arguments unchecked.
`Collection.request` checks them and builds the request descriptor, or says
which argument of which operation is at fault; the id is looked at before
the document. Reads, changes by document and transactions are queries;
everything else addresses the collection or one record by its action.
-/

namespace DocQuery

/-- A collection, by its path. -/
structure Collection where
  /-- The path, as given. -/
  path : Text
deriving DecidableEq

namespace Collection

/-- The segments of a path. There is one at least. -/
def segments : Text → List Text
  | [] => [[]]
  | c :: rest =>
    if c = '.' then [] :: segments rest
    else match segments rest with
      | [] => [[c]]
      | first :: others => (c :: first) :: others

/-- **The name of a collection in queries**: the last segment of its
path. -/
def source (c : Collection) : Text := (segments c.path).getLastD []

/-- Whether a segment of the path is empty. -/
def hasEmptySegment (c : Collection) : Bool := (segments c.path).any List.isEmpty

/-! ## Query texts -/

/-- A source inside a view of one of its fields, or of all of them where
the field has no name. -/
def view (name source field : Text) : Text :=
  name ++ '(' :: (source ++ ((if field.isEmpty then [] else '.' :: field) ++ [')']))

/-- What a query reads from: the collection, or one view of it. The view
of words goes before the view of alternatives. -/
def viewed (c : Collection) (s : Scope) : Text :=
  match s.listWords, s.alternatives with
  | some field, _ => view "LIST_WORDS".toList c.source field
  | none, some field => view "ALTERNATIVES".toList c.source field
  | none, none => c.source

/-- The join, if there is one. -/
def joinSection : Option Text → Text
  | none => []
  | some text => text ++ [' ']

/-- The predicates, if there are any. -/
def whereSection (filters : Text) : Text :=
  if filters.isEmpty then [] else "WHERE".toList ++ filters

/-- Terms behind a keyword, if there are any. -/
def termSection (keyword : Text) (terms : List Text) : Text :=
  if terms.isEmpty then [] else
    keyword ++ ' ' :: (List.intercalate ", ".toList terms ++ [' '])

/-- The pagination. -/
def limitSection (offset limit : UInt64) : Text :=
  "LIMIT ".toList ++ Text.ofNat offset.toNat ++ ", ".toList ++ Text.ofNat limit.toNat

/-- **The query text of a scope** on a collection. -/
def query (c : Collection) (s : Scope) : Text :=
  s.prepend ++ "SELECT ".toList ++ s.select ++ " FROM ".toList ++ c.viewed s ++ [' '] ++
    joinSection s.join ++ whereSection s.filters ++ termSection "GROUP BY".toList s.groups ++
    termSection "ORDER BY".toList s.orders ++ limitSection s.offset s.limit

end Collection

/-! ## Calls -/

/-- An operation on a collection, as asked for. -/
inductive Call
  /-- The records that a scope describes; whether the answer is a list is
  up to the caller. -/
  | select (steps : List Step) (multiple : Bool)
  /-- The first of them. -/
  | first (steps : List Step)
  | find (id : Json)
  | delete (id : Json)
  | deleteMany (ids : Json)
  | insertOne (document : Json)
  | insertMany (documents : Json)
  | update (id : Json) (change : Json)
  | replace (id : Json) (document : Json)
  /-- A query as it stands. -/
  | raw (query : Text)
  | beginTransaction
  | rollbackTransaction
  | commitTransaction
  | status

namespace Call

/-- The call by which a caller reads all records that a scope describes. Its
answer is a list. -/
def get (steps : List Step) : Call := .select steps true

/-- The text of a record's id, which is a text or a number. -/
def idText (operation : Operation) : Json → Except Error Text
  | .str s => .ok s
  | .num n => .ok n.spelling
  | _ => .error (.argument operation .id)

/-- The text casts of a list of ids. -/
def idCasts? : Json → Option (List Text)
  | .arr items => items.mapM Json.cast?
  | _ => none

/-- The text casts of a list of ids, or their refusal. -/
def idCasts (ids : Json) : Except Error (List Text) :=
  match idCasts? ids with
  | some casts => .ok casts
  | none => .error (.argument .deleteMany .id)

/-- The elements of an array, or the values of an object, whose keys do
not matter. -/
def elements? : Json → Option (List Json)
  | .arr items => some items
  | .obj members => some (members.map (·.2))
  | _ => none

/-- The documents that a value holds. The first element that is no
document is refused, and so is a value without elements. -/
def documents (v : Json) : Except Error (List Json) :=
  match elements? v with
  | none => .error (Document.refusal v)
  | some vs =>
    match vs.find? (!·.isObject) with
    | some v => .error (Document.refusal v)
    | none => .ok vs

/-- The query that changes the record of an id by the leaves of a
document. -/
def updateQuery (source id : Text) (members : List (Text × Json)) : Text :=
  "UPDATE ".toList ++ source ++ "[\"".toList ++ id ++ "\"] SET ".toList ++ Script.clause members

end Call

open Call

namespace Collection

/-- **The request of a call** on a collection, with scopes that begin as
`start`. -/
def request (c : Collection) (start : Scope) : Call → Except Error Request
  | .select steps multiple => return .ofQuery (c.query (← start.takeAll steps)) multiple
  | .first steps => do
    let s ← start.takeAll steps
    return .ofQuery (c.query { s with limit := 1 }) false
  | .find id => return ⟨.get, Request.selector (← idText .find id), [], false⟩
  | .delete id => return ⟨.delete, Request.selector (← idText .delete id), [], false⟩
  | .deleteMany ids =>
    return ⟨.delete, [], (Json.arr ((← idCasts ids).map .str)).compact, false⟩
  | .insertOne document => return ⟨.post, [], ← Document.encode document, false⟩
  | .insertMany vs => return ⟨.post, [], (Json.arr (← documents vs)).compact, true⟩
  | .update id change => do
    let id ← idText .update id
    match change with
    | .str body => return ⟨.patch, Request.selector id, body, false⟩
    | .obj members => return .ofQuery (updateQuery c.source id members) false
    | v => throw (.argument .update (.change v))
  | .replace id document => do
    let id ← idText .replace id
    return ⟨.put, Request.selector id, ← Document.encode document, false⟩
  | .raw query => return .ofQuery query true
  | .beginTransaction => return .ofQuery "BEGIN_TRANSACTION".toList false
  | .rollbackTransaction => return .ofQuery "ROLLBACK".toList false
  | .commitTransaction => return .ofQuery "COMMIT".toList false
  | .status => return ⟨.get, Request.statusAction, [], true⟩

end Collection

end DocQuery
