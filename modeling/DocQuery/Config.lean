import DocQuery.Collection
/-!
# Configurations

A configuration names the default collection and the pagination that fresh
scopes begin with. It is valid when its path is not blank and has no empty
segment, whether it was put together field by field, by a builder, or read
from a text; the text is a record in which every field may be missing.
-/

namespace DocQuery

/-- Settings of a client. -/
structure Config where
  /-- The path of the default collection. -/
  database : Text := []
  /-- The row count of fresh scopes. -/
  limit : UInt64 := defaultLimit
  /-- The offset of fresh scopes. -/
  offset : UInt64 := 0
deriving DecidableEq

namespace Config

/-- The default collection. -/
def collection (c : Config) : Collection := ⟨c.database⟩

/-- **A configuration that has been found valid**, or what is wrong with
it. -/
def validate (c : Config) : Except Error Config :=
  if c.database.isBlank then .error (.configuration .blankPath)
  else if c.collection.hasEmptySegment then
    .error (.configuration (.emptySegment c.database))
  else .ok c

/-- A fresh scope. -/
def scope (c : Config) : Scope := { limit := c.limit, offset := c.offset }

/-! ## Building -/

/-- A configuration that is being put together. -/
structure Builder where
  /-- What it is so far, not yet validated. -/
  config : Config

namespace Builder

/-- A builder for a path, with all else by default. -/
def new (database : Text) : Builder := ⟨{ database }⟩

/-- With another row count for fresh scopes. -/
def withLimit (b : Builder) (limit : UInt64) : Builder := ⟨{ b.config with limit }⟩

/-- With another offset for fresh scopes. -/
def withOffset (b : Builder) (offset : UInt64) : Builder := ⟨{ b.config with offset }⟩

/-- **The valid configuration that was put together**, or what is wrong
with it. -/
def build (b : Builder) : Except Error Config := b.config.validate

/-- A builder that is told the values that are given and no others. -/
def ofGiven (database : Option Text) (limit offset : Option UInt64) : Builder :=
  let b := new (database.getD [])
  let b := limit.elim b b.withLimit
  offset.elim b b.withOffset

end Builder

/-! ## Reading -/

/-- The names of the fields of a configuration. -/
def fieldNames : List Text :=
  ["database".toList, "default_limit".toList, "default_offset".toList]

/-- A field of a record: as read where it is given, else by default. -/
def fieldOr {α : Type} (read? : Tree → Option α) (default : α) : Option Tree → Option α
  | some t => read? t
  | none => some default

/-- The configuration of a tree, not yet validated. -/
def ofTree? (t : Tree) : Option Config := do
  match ← t.fields? fieldNames with
  | [database, limit, offset] =>
    let default : Config := {}
    return {
      database := ← fieldOr Tree.text? default.database database
      limit := ← fieldOr Tree.word? default.limit limit
      offset := ← fieldOr Tree.word? default.offset offset }
  | _ => none

/-- **The valid configuration that a text gives**, or what is wrong with
it. -/
def read (t : Text) : Except Error Config :=
  match (Tree.read? t).bind ofTree? with
  | some c => c.validate
  | none => .error (.configuration .unreadable)

/-- A configuration as a value. -/
def toJson (c : Config) : Json :=
  .obj (fieldNames.zip
    [.str c.database, .num (.ofWord c.limit), .num (.ofWord c.offset)])

end Config

end DocQuery
