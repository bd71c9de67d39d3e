import DocQuery.Json.Basic
import DocQuery.Text.Quoted
/-!
# Errors

An error is its cause: the operation that was called and the fault in
what it was given, a fault in a configuration, a failure that the
transport reports, or a request descriptor that cannot be read. The
wording belongs to the cause and stands in this file only.
-/

namespace DocQuery

/-- The operations that can refuse what they are given, as a caller knows
them. -/
inductive Operation
  | select | filter | limit | offset | order | group
  | find | delete | deleteMany | insert | update | replace
deriving DecidableEq

/-- The name of an operation in messages. -/
def Operation.name : Operation → Text
  | select => "->select()".toList
  | filter => "->where()".toList
  | limit => "->limit()".toList
  | offset => "->offset()".toList
  | order => "->order()".toList
  | group => "->group()".toList
  | find => "->find()".toList
  | delete => "->delete()".toList
  | deleteMany => "->deleteMany()".toList
  | insert => "->insert()".toList
  | update => "->update()".toList
  | replace => "->replace()".toList

/-- What is wrong with an argument. -/
inductive Fault
  /-- A term or count of a kind that has no meaning there. -/
  | parameter
  /-- A field selector that is no name. -/
  | fieldSelector
  /-- A sort direction that is none. -/
  | direction
  /-- A record id that is neither text nor number, or cannot be cast. -/
  | id
  /-- A value in place of a document to store. -/
  | document (value : Json)
  /-- A value in place of a change to a document. -/
  | change (value : Json)

/-- The wording of a fault. -/
def Fault.message : Fault → Text
  | parameter => "passed parameter is not in valid format.".toList
  | fieldSelector => "passed field selector is not in valid format.".toList
  | direction => "ordering should be DESC or ASC.".toList
  | id => "\"_id\" is not in valid format.".toList
  | document v =>
    "parameter passed ".toList ++ v.compact ++ " is not in valid document format.".toList
  | change v => "parameter passed ".toList ++ v.compact ++ " is not in valid format.".toList

/-- What is wrong with a configuration. -/
inductive ConfigFault
  /-- Its text is no configuration record. Why it is none is for a reader of
  JSON to say, in words of its own. -/
  | unreadable
  /-- The collection path is blank. -/
  | blankPath
  /-- Two dots of the path meet, or one stands at an end. -/
  | emptySegment (path : Text)

/-- The wording of a fault in a configuration, as far as it is worded
here. -/
def ConfigFault.message : ConfigFault → Text
  | unreadable => []
  | blankPath => "database must not be empty".toList
  | emptySegment path =>
    "database path ".toList ++ path.quoted ++ " has an empty segment".toList

/-- Why a call did not succeed. -/
inductive Error
  /-- An operation refused an argument. -/
  | argument (operation : Operation) (fault : Fault)
  /-- The configuration is not valid. -/
  | configuration (fault : ConfigFault)
  /-- The transport failed, in its own words. -/
  | transport (reason : Text)
  /-- A text is no request descriptor, for a reason that the reader words. -/
  | descriptor

namespace Error

/-- The diagnostic code of argument errors. -/
def argumentCode : Nat := 9002

/-- The diagnostic code of an error, which argument errors alone have. -/
def code? : Error → Option Nat
  | argument _ _ => some argumentCode
  | _ => none

/-- **The message of an error.** It ends where a reader of JSON would go on
with its reason. -/
def message : Error → Text
  | argument operation fault =>
    '"' :: operation.name ++ "\" function: ".toList ++ fault.message
  | configuration fault => "Configuration error: ".toList ++ fault.message
  | transport reason => "Transport error: ".toList ++ reason
  | descriptor => "Serialization error: ".toList

end Error

end DocQuery
