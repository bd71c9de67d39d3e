import DocQuery.Error
import DocQuery.Operand
/-!
# Documents

A document is stored as an object literal of its entries. Keys are escaped
and quoted as literals of the query language and values are compact JSON;
a reader of object literals takes both. An array is stored under the
indices of its elements.

A change to a record is written as a document that holds the new leaves at
their key paths. `Script.ofDocument` lays it out as a list of instructions
on paths: an assignment for every leaf, in order, and before the
assignments below a path a guard, which makes sure that there is an object
to assign into. Leaves are scalars, arrays and empty objects; a non-empty
object is merged key by key. The texts of paths and instructions are
rendered from this list afterwards. A top-level key is guarded whatever
its value; a path is guarded again where an object below it is entered,
except for the empty top-level key, whose path has no text to guard.
-/

namespace DocQuery

/-! ## Documents to store -/

namespace Document

/-- The entries of a value that can be stored. -/
def entries? : Json → Option (List (Text × Json))
  | .obj members => some members
  | .arr items => some (items.mapIdx fun i v => (Text.ofNat i, v))
  | _ => none

/-- An entry of an object literal. -/
def entryText (key : Text) (v : Json) : Text := Literal.quote key ++ " : ".toList ++ v.compact

/-- Entries as an object literal. -/
def literal (entries : List (Text × Json)) : Text :=
  '\x7b' :: (List.intercalate [','] (entries.map fun (k, v) => entryText k v) ++ ['\x7d'])

/-- The refusal of a value that is no document. -/
def refusal (v : Json) : Error := .argument .insert (.document v)

/-- **The object literal of a document**, or its refusal. -/
def encode (v : Json) : Except Error Text :=
  match entries? v with
  | some es => .ok (literal es)
  | none => .error (refusal v)

end Document

/-! ## Key paths

A path leads from the top of a record to a value by one key after the
other. Its text is an expression of the query language: the first key
stands bare, and every further one stands in brackets and quotes, as it
is. -/

/-- A path of keys from the top of a record. -/
structure KeyPath where
  /-- The key at the top. -/
  top : Text
  /-- The keys below, outermost first. -/
  below : List Text := []
deriving DecidableEq

namespace KeyPath

/-- The path one key further. -/
def child (p : KeyPath) (key : Text) : KeyPath := { p with below := p.below ++ [key] }

/-- A key in brackets, as it stands. -/
def bracketed (key : Text) : Text := '[' :: '"' :: (key ++ ['"', ']'])

/-- **The text of a path**: the first key bare, each further one in
brackets. -/
def text (p : KeyPath) : Text := p.top ++ p.below.flatMap bracketed

end KeyPath

/-! ## Instructions -/

/-- One instruction of an update script. -/
inductive Instruction
  /-- Makes the value at a path an empty object unless it is an object. -/
  | guard (path : KeyPath)
  /-- Sets the value at a path. -/
  | assign (path : KeyPath) (leaf : Json)

/-- The statement that makes a path an empty object unless it is one. -/
def guardStatement (path : Text) : Text :=
  "if (typeof ".toList ++ path ++ " === 'undefined' || !(".toList ++ path ++
    " instanceof Object)) \x7b".toList ++ path ++ " = \x7b\x7d\x7d;".toList

/-- The right-hand side that sets a leaf: a text is quoted, another scalar
is cast, and an array or object is compact JSON. -/
def leafText : Json → Text
  | .str s => Literal.quote s
  | .arr items => (Json.arr items).compact
  | .obj members => (Json.obj members).compact
  | v => v.escapedCast

/-- The statement of an instruction. -/
def Instruction.text : Instruction → Text
  | guard path => guardStatement path.text
  | assign path leaf => path.text ++ " = ".toList ++ leafText leaf ++ [';']

/-! ## Scripts -/

namespace Script

/-- The guard before an object at a path is entered. -/
def entry (path : KeyPath) : List Instruction :=
  if path.text.isEmpty then [] else [.guard path]

mutual

/-- The instructions for a value at a path. -/
def ofValue (path : KeyPath) : Json → List Instruction
  | .obj (m :: ms) => entry path ++ ofMembers path (m :: ms)
  | leaf => [.assign path leaf]

/-- The instructions for the members of the object at a path. -/
def ofMembers (path : KeyPath) : List (Text × Json) → List Instruction
  | [] => []
  | (key, v) :: rest => ofValue (path.child key) v ++ ofMembers path rest

end

/-- The instructions for a member at the top. -/
def ofMember (key : Text) (v : Json) : List Instruction :=
  .guard ⟨key, []⟩ :: ofValue ⟨key, []⟩ v

/-- **The instructions for a document.** -/
def ofDocument (members : List (Text × Json)) : List Instruction :=
  members.flatMap fun (key, v) => ofMember key v

/-- The statements for a document. -/
def statements (members : List (Text × Json)) : List Text :=
  (ofDocument members).map Instruction.text

/-- The statements for a document as one text. -/
def clause (members : List (Text × Json)) : Text := List.intercalate [' '] (statements members)

end Script

end DocQuery
