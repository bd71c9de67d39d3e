import DocQuery.Collection
import DocQuery.Proofs.Json.Closed
import DocQuery.Proofs.Literal.Unquote
import DocQuery.Proofs.Text.FormCode
/-!
# The two ways of an id into a request

The text of an id reaches a request in form code, where it is the selector
of one record, or as it stands between quotes, where it selects the record
that an update changes. Form code is safe for every id
(`action_reads_back`): it reads back, it tells ids apart, and it can be no
other action. Between quotes only those ids read back that have neither
quote nor backslash (`update_reads_back_iff`); any other id ends the
literal early or changes what it names.
-/

namespace DocQuery

namespace Call

/-- Which operation asks for the text of an id matters to its refusal
only. -/
theorem idText_of_ok {operation : Operation} {id : Json} {text : Text}
    (h : idText operation id = .ok text) (other : Operation) : idText other id = .ok text := by
  cases id with
  | str s => exact h
  | num n => exact h
  | _ => cases h

end Call

namespace Request

/-- Selectors of different ids are different. -/
theorem selector_inj {s t : Text} : selector s = selector t ↔ s = t := by
  refine ⟨fun h => ?_, congrArg selector⟩
  have hcodes := (List.cons_eq_cons.1 h).2
  exact FormCode.encode_injective (List.append_cancel_right hcodes)

/-- A selector begins with a bracket, so it is none of the other
actions. -/
theorem selector_notMem (t : Text) : selector t ∉ [[], queryAction, statusAction] := by
  simp only [List.mem_cons, List.not_mem_nil, or_false, not_or]
  exact ⟨List.cons_ne_nil _ _, fun h => absurd (List.cons_eq_cons.1 h).1 (by decide),
    fun h => absurd (List.cons_eq_cons.1 h).1 (by decide)⟩

end Request

namespace Collection

open Call

/-! ## In form code -/

/-- **An id in an action.** The requests that find, delete, replace and
patch the record of an id have one action, which is form code between
brackets. The code decodes to the UTF-8 form of the id's text, it closes
no bracket and begins no path segment, and the action is neither empty nor
an endpoint. The action of another text is the same only if the text is. -/
theorem action_reads_back (c : Collection) (start : Scope) {id : Json} {text : Text}
    (h : idText .find id = .ok text) : ∃ code : Text,
    let action := Request.selector text
    action = '[' :: (code ++ [']']) ∧
    (c.request start (.find id) = .ok ⟨.get, action, [], false⟩ ∧
      c.request start (.delete id) = .ok ⟨.delete, action, [], false⟩ ∧
      (∀ document body, Document.encode document = .ok body →
        c.request start (.replace id document) = .ok ⟨.put, action, body, false⟩) ∧
      (∀ body, c.request start (.update id (.str body)) = .ok ⟨.patch, action, body, false⟩)) ∧
    (FormCode.isCode code ∧
      (FormCode.decode? code).map List.toByteArray = some (String.ofList text).toUTF8) ∧
    (']' ∉ code ∧ '/' ∉ code ∧ action ∉ [[], Request.queryAction, Request.statusAction]) ∧
    ∀ other, Request.selector other = action ↔ other = text := by
  refine ⟨FormCode.encode text, rfl, ⟨?_, ?_, fun document body hbody => ?_, fun body => ?_⟩,
    ⟨FormCode.isCode_encode text, FormCode.decode?_encode text⟩, ⟨fun hmem => ?_, fun hmem => ?_,
    Request.selector_notMem text⟩, fun other => Request.selector_inj⟩
  · rw [request, h]
    rfl
  · rw [request, idText_of_ok h .delete]
    rfl
  · rw [request, idText_of_ok h .replace]
    change (do
      return Request.mk .put _ (← Document.encode document) false : Except Error Request) = _
    rw [hbody]
    rfl
  · rw [request, idText_of_ok h .update]
    rfl
  · exact absurd (FormCode.of_mem_of_isCode (FormCode.isCode_encode text) hmem) (by decide)
  · exact absurd (FormCode.of_mem_of_isCode (FormCode.isCode_encode text) hmem) (by decide)

/-- An id with a bracket, a slash, a plus sign, a space and a letter of two
bytes. -/
def awkwardId : Text := "a]/+ ā".toList

/-- Its action. -/
theorem action_reads_back_awkward :
    idText .find (.str awkwardId) = .ok awkwardId ∧
    Request.selector awkwardId = "[a%5D%2F%2B+%C4%81]".toList ∧
    (Collection.mk "100.books".toList).request {} (.find (.str awkwardId)) =
      .ok ⟨.get, "[a%5D%2F%2B+%C4%81]".toList, [], false⟩ ∧
    ∀ other, Request.selector other = "[a%5D%2F%2B+%C4%81]".toList ↔ other = awkwardId := by
  have hid : idText .find (.str awkwardId) = .ok awkwardId := rfl
  have haction : Request.selector awkwardId = "[a%5D%2F%2B+%C4%81]".toList := by decide +kernel
  obtain ⟨-, -, ⟨hfind, -⟩, -, -, hother⟩ :=
    action_reads_back (Collection.mk "100.books".toList) {} hid
  rw [haction] at hfind hother
  exact ⟨hid, haction, hfind, hother⟩

/-! ## Between quotes -/

/-- A spelled number has neither quote nor backslash. -/
theorem notMem_spelling (n : Number) : '"' ∉ n.spelling ∧ '\\' ∉ n.spelling :=
  ⟨fun h => absurd (Number.isNumeral_of_mem_spelling h) (by decide),
    fun h => absurd (Number.isNumeral_of_mem_spelling h) (by decide)⟩

/-- The query that changes a record, from its opening quote on. -/
theorem updateQuery_eq (source id : Text) (members : List (Text × Json)) :
    updateQuery source id members = "UPDATE ".toList ++ source ++ "[\"".toList ++
      (id ++ '"' :: ("] SET ".toList ++ Script.clause members)) := by
  have hclose : "\"] SET ".toList = '"' :: "] SET ".toList := rfl
  change "UPDATE ".toList ++ source ++ "[\"".toList ++ id ++ "\"] SET ".toList ++
    Script.clause members = _
  rw [hclose]
  simp only [List.append_assoc, List.cons_append]

/-- **When the literal in an update names the id.** A text or a number is
accepted with every change by members, and the query is a literal behind
`UPDATE`, the source and a bracket. What that literal holds is the id's
text, with the rest of the query behind it, if and only if the text has
neither quote nor backslash. Every number is such an id. Of any other text
without backslash the literal holds what is before its first quote, and
the rest of the id is query text. -/
theorem update_reads_back_iff (c : Collection) (start : Scope) {id : Json} {text : Text}
    (h : idText .update id = .ok text) (members : List (Text × Json)) : ∃ behind : Text,
    c.request start (.update id (.obj members)) =
      .ok (.ofQuery ("UPDATE ".toList ++ c.source ++ "[\"".toList ++ behind) false) ∧
    (Literal.inside? behind = some (text, "] SET ".toList ++ Script.clause members) ↔
      '"' ∉ text ∧ '\\' ∉ text) ∧
    (∀ n, id = .num n → '"' ∉ text ∧ '\\' ∉ text) ∧
    ∀ front back, text = front ++ '"' :: back → '"' ∉ front → '\\' ∉ front →
      Literal.inside? behind =
        some (front, back ++ '"' :: ("] SET ".toList ++ Script.clause members)) := by
  refine ⟨text ++ '"' :: ("] SET ".toList ++ Script.clause members), ?_, Literal.inside?_bare_iff,
    fun n hn => ?_, fun front back hsplit hquote hslash => ?_⟩
  · rw [request, h, ← updateQuery_eq]
    rfl
  · subst hn
    cases h
    exact notMem_spelling n
  · rw [hsplit, List.append_assoc, List.cons_append]
    exact Literal.inside?_bare hquote hslash

/-- An id that ends the literal and goes on with a statement of its own. -/
def breakingId : Text := "7\"] SET price = 0; books[\"8".toList

/-- A change of one leaf. -/
def priceChange : List (Text × Json) := [("price".toList, .bool true)]

/-- The source of the books, in front of an id. -/
theorem update_books : "UPDATE ".toList ++ (Collection.mk "100.books".toList).source ++
    "[\"".toList = "UPDATE books[\"".toList := by
  decide +kernel

/-- The literal in the update of an id without quote holds the id, and in
the update of the breaking id it holds the front of it. -/
theorem update_reads_back_iff_plain :
    idText .update (.str "it's".toList) = .ok "it's".toList ∧
    idText .update (.str breakingId) = .ok breakingId ∧
    (∃ behind, (Collection.mk "100.books".toList).request {}
        (.update (.str "it's".toList) (.obj priceChange)) =
          .ok (.ofQuery ("UPDATE books[\"".toList ++ behind) false) ∧
      Literal.inside? behind =
        some ("it's".toList, "] SET ".toList ++ Script.clause priceChange)) ∧
    ∃ behind, (Collection.mk "100.books".toList).request {}
        (.update (.str breakingId) (.obj priceChange)) =
          .ok (.ofQuery ("UPDATE books[\"".toList ++ behind) false) ∧
      Literal.inside? behind = some (['7'], "] SET price = 0; books[\"8".toList ++
        '"' :: ("] SET ".toList ++ Script.clause priceChange)) := by
  have hplain : idText .update (.str "it's".toList) = .ok "it's".toList := rfl
  have hbreaking : idText .update (.str breakingId) = .ok breakingId := rfl
  have hsplit : breakingId = ['7'] ++ '"' :: "] SET price = 0; books[\"8".toList := by decide
  obtain ⟨behind, hrequest, hiff, -, -⟩ :=
    update_reads_back_iff (Collection.mk "100.books".toList) {} hplain priceChange
  obtain ⟨behind', hrequest', -, -, hfront⟩ :=
    update_reads_back_iff (Collection.mk "100.books".toList) {} hbreaking priceChange
  rw [update_books] at hrequest hrequest'
  exact ⟨hplain, hbreaking, ⟨behind, hrequest, hiff.2 (by decide)⟩, behind', hrequest',
    hfront _ _ hsplit (by decide) (by decide)⟩

/-- The literal in the update of the breaking id does not hold that id. -/
theorem update_misreads_breakingId : ¬ ∃ behind,
    (Collection.mk "100.books".toList).request {} (.update (.str breakingId) (.obj priceChange)) =
      .ok (.ofQuery ("UPDATE books[\"".toList ++ behind) false) ∧
    Literal.inside? behind =
      some (breakingId, "] SET ".toList ++ Script.clause priceChange) := by
  rintro ⟨behind, hrequest, hread⟩
  have hquery : updateQuery (Collection.mk "100.books".toList).source breakingId priceChange =
      "UPDATE books[\"".toList ++ behind := congrArg Request.query (Except.ok.inj hrequest)
  rw [updateQuery_eq, update_books] at hquery
  rw [← List.append_cancel_left hquery] at hread
  exact absurd (Literal.inside?_bare_iff.1 hread).1 (by decide)

end Collection

end DocQuery
