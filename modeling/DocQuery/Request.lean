import DocQuery.Error
import DocQuery.Json.Read
/-!
# Request descriptors

A request descriptor is everything a transport needs: a method, the action
that is appended to the collection's address, a body, and whether the
answer is a list of records. Four kinds of action exist: none, the query
and status endpoints, and the selector of one record, which is its id in
form code between brackets.

A descriptor is read from a record of exactly its four fields; members of
other names are skipped. The method is the name of one, or an object with
that name as its only member and nothing in it.
-/

namespace DocQuery

/-! ## Form code

The code in which a record's id stands in a request path: of each byte of
the id's UTF-8 form, letters, digits, hyphen, underscore and point stand
for themselves, a plus sign stands for a space, and any other byte is a
percent sign and two upper-case hexadecimal digits. -/

namespace FormCode

/-- Whether a character stands for itself. -/
def isPlain (c : Char) : Bool := c.isAlphanum || c = '-' || c = '_' || c = '.'

/-- An upper-case hexadecimal digit. -/
def hexDigit (n : Nat) : Char := (Nat.digitChar n).toUpper

/-- The form code of a byte. -/
def encodeByte (b : UInt8) : Text :=
  let c := Char.ofNat b.toNat
  if isPlain c then [c]
  else if c = ' ' then ['+']
  else ['%', hexDigit (b.toNat / 16), hexDigit (b.toNat % 16)]

/-- The bytes of a text in UTF-8. -/
def bytes (t : Text) : List UInt8 := t.flatMap String.utf8EncodeChar

/-- **The form code of a text.** -/
def encode (t : Text) : Text := (bytes t).flatMap encodeByte

end FormCode

/-! ## Descriptors -/

/-- The method of a request. -/
inductive Method
  | get | post | put | patch | delete
deriving DecidableEq

/-- All methods. -/
def Method.all : List Method := [get, post, put, patch, delete]

/-- The name of a method. -/
def Method.name : Method → Text
  | get => "GET".toList
  | post => "POST".toList
  | put => "PUT".toList
  | patch => "PATCH".toList
  | delete => "DELETE".toList

/-- The method of a name. -/
def Method.ofName? (name : Text) : Option Method := Method.all.find? (·.name = name)

/-- A request descriptor. -/
structure Request where
  /-- The method. -/
  method : Method
  /-- What is appended to the collection's address. -/
  action : Text
  /-- The body. -/
  query : Text
  /-- Whether the answer is a list of records. -/
  multiple : Bool := false
deriving DecidableEq

namespace Request

/-- The action of the query endpoint. -/
def queryAction : Text := "/_query".toList

/-- The action of the status endpoint. -/
def statusAction : Text := "/_status".toList

/-- The action that selects the record of an id. -/
def selector (id : Text) : Text := '[' :: (FormCode.encode id ++ [']'])

/-- The request that runs a query. -/
def ofQuery (query : Text) (multiple : Bool) : Request := ⟨.post, queryAction, query, multiple⟩

/-- The names of the fields of a descriptor. -/
def fieldNames : List Text :=
  ["method".toList, "action".toList, "query".toList, "multiple".toList]

/-- A descriptor as a value. -/
def toJson (r : Request) : Json :=
  .obj (fieldNames.zip [.str r.method.name, .str r.action, .str r.query, .bool r.multiple])

end Request

/-! ## Reading -/

/-- The method that a tree names. -/
def Method.ofTree? : Tree → Option Method
  | .str ps => do ofName? (← Piece.text? ps)
  | .obj [(name, .null)] => do ofName? (← Piece.text? name)
  | _ => none

namespace Request

/-- The descriptor of a tree. -/
def ofTree? (t : Tree) : Option Request := do
  match ← t.fields? fieldNames with
  | [some method, some action, some query, some multiple] =>
    return {
      method := ← Method.ofTree? method
      action := ← action.text?
      query := ← query.text?
      multiple := ← multiple.flag? }
  | _ => none

/-- **The descriptor that a text gives.** -/
def read? (t : Text) : Option Request := do ofTree? (← Tree.read? t)

/-- The descriptor that a text gives, or its refusal. -/
def read (t : Text) : Except Error Request :=
  match read? t with
  | some r => .ok r
  | none => .error .descriptor

end Request

end DocQuery
