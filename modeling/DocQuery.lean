import DocQuery.Binary64
import DocQuery.Clause
import DocQuery.Client.Run
import DocQuery.Collection
import DocQuery.Config
import DocQuery.Document
import DocQuery.Error
import DocQuery.Json.Basic
import DocQuery.Json.Read
import DocQuery.Json.Tree
import DocQuery.Numeral
import DocQuery.Operand
import DocQuery.Request
import DocQuery.Scope
import DocQuery.Text.Basic
import DocQuery.Text.Quoted
import DocQuery.Text.Uppercase
import DocQuery.Proofs.Binary64.ReadsBack
import DocQuery.Proofs.Client.History
import DocQuery.Proofs.Client.Idle
import DocQuery.Proofs.Collection.Bulk
import DocQuery.Proofs.Collection.Ids
import DocQuery.Proofs.Collection.Keywords
import DocQuery.Proofs.Collection.Operations
import DocQuery.Proofs.Collection.Pagination
import DocQuery.Proofs.Collection.Readable
import DocQuery.Proofs.Collection.Selectors
import DocQuery.Proofs.Collection.Spacing
import DocQuery.Proofs.Collection.Validity
import DocQuery.Proofs.Config.Record
import DocQuery.Proofs.Config.Source
import DocQuery.Proofs.Count.Coercion
import DocQuery.Proofs.Count.Grammar
import DocQuery.Proofs.Count.Spelling
import DocQuery.Proofs.Document.ReadsBack
import DocQuery.Proofs.Document.Valid
import DocQuery.Proofs.Json.Closed
import DocQuery.Proofs.Json.Exact
import DocQuery.Proofs.Json.Grammar
import DocQuery.Proofs.Json.Keys
import DocQuery.Proofs.Json.ReadsBack
import DocQuery.Proofs.Json.Record
import DocQuery.Proofs.Json.Strings
import DocQuery.Proofs.Literal.Cast
import DocQuery.Proofs.Literal.Reader
import DocQuery.Proofs.Literal.Sequential
import DocQuery.Proofs.Literal.Unquote
import DocQuery.Proofs.Numeral.Grammar
import DocQuery.Proofs.Numeral.Spelling
import DocQuery.Proofs.Numeral.Text
import DocQuery.Proofs.Request.Record
import DocQuery.Proofs.Request.Shape
import DocQuery.Proofs.Scope.Directions
import DocQuery.Proofs.Scope.Interleaving
import DocQuery.Proofs.Scope.Refusals
import DocQuery.Proofs.Sequence
import DocQuery.Proofs.Text.FormCode
import DocQuery.Proofs.Text.Trim
import DocQuery.Proofs.Text.Uppercase
import DocQuery.Proofs.Update.Guards
import DocQuery.Proofs.Update.Kernel
import DocQuery.Proofs.Update.Leaves
import DocQuery.Proofs.Update.Merge
import DocQuery.Proofs.Update.Outline
import DocQuery.Proofs.Update.Pass
import DocQuery.Proofs.Update.Run
import DocQuery.Proofs.Update.Stored
import DocQuery.Proofs.Update.Targets
import DocQuery.Proofs.Where.Clause
import DocQuery.Proofs.Where.Readable
import DocQuery.Proofs.Where.Tree
import DocQuery.Proofs.Where.Values
