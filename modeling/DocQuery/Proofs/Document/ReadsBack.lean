import DocQuery.Document
import DocQuery.Proofs.Json.ReadsBack
import DocQuery.Proofs.Literal.Unquote
/-!
# Documents read back

An object literal has keys that are literals of the query language and
values that are JSON, side by side. A reader that takes each in its own
way stays in step with the writer: behind a key that was escaped stands
the colon, and behind a value the comma or the brace, whatever quotes,
commas and braces the two have inside. So the literal of a document
decodes to the entries that were stored (`encode_reads_back`), in their
order, and two documents with one literal are equal.
-/

namespace DocQuery

namespace Document

open Json

/-! ## The reader of object literals -/

/-- The entry that a text begins with, and the text behind it. -/
def keyedValue? (t : Text) : Option ((Text × Json) × Text) := do
  let (key, t) ← Literal.unquote? t
  let t ← Tree.after? " : ".toList t
  let (v, rest) ← Json.beginning? t
  return ((key, v), rest)

/-- Entries in a number of steps, one at least, up to the closing brace
that ends the text. -/
def entriesIn? (steps : Nat) (t : Text) : Option (List (Text × Json)) :=
  match steps with
  | 0 => none
  | steps + 1 => do
    let (e, rest) ← keyedValue? t
    match rest with
    | ',' :: rest => return e :: (← entriesIn? steps rest)
    | ['\x7d'] => return [e]
    | _ => none

/-- **The entries of an object literal**, in their order. -/
def decode? : Text → Option (List (Text × Json))
  | '\x7b' :: t => if t = ['\x7d'] then some [] else entriesIn? t.length t
  | _ => none

/-! ## Entries -/

variable {key : Text} {v : Json} {rest : Text} {steps : Nat}

/-- **An entry reads back**, with any text behind it that does not go on
with a number. -/
theorem keyedValue?_entryText (hv : v.KeysDistinct) (hrest : Numeral.Ends rest) :
    keyedValue? (entryText key v ++ rest) = some ((key, v), rest) := by
  have hcolon : ∀ t, Tree.after? " : ".toList (" : ".toList ++ t) = some t := fun t => rfl
  rw [keyedValue?, entryText, List.append_assoc, List.append_assoc, Literal.unquote?_quote]
  simp only [Option.bind_eq_bind, Option.bind_some, hcolon, Json.beginning?_compact hv hrest]
  rfl

/-- The texts of entries between their separators. -/
abbrev entriesText (es : List (Text × Json)) : Text :=
  List.intercalate [','] (es.map fun (k, v) => entryText k v)

theorem entriesText_cons (e e' : Text × Json) (es : List (Text × Json)) (rest : Text) :
    entriesText (e :: e' :: es) ++ rest =
      entryText e.1 e.2 ++ ',' :: (entriesText (e' :: es) ++ rest) := by
  rw [entriesText, List.map_cons, List.map_cons, Text.intercalate_cons_append]
  rfl

/-- Entries begin with the quote of a key. -/
theorem exists_head_entriesText (e : Text × Json) (es : List (Text × Json)) (rest : Text) :
    ∃ t, entriesText (e :: es) ++ rest = '"' :: t := by
  cases es with
  | nil => exact ⟨_, congrArg (· ++ rest) List.intercalate_singleton⟩
  | cons e' es => exact ⟨_, entriesText_cons e e' es rest⟩

/-- **Entries read back** up to the closing brace, in as many steps as
they have characters. -/
theorem entriesIn?_entriesText : ∀ es : List (Text × Json), es ≠ [] → MembersDistinct es →
    ∀ {steps : Nat}, (entriesText es).length < steps →
      entriesIn? steps (entriesText es ++ ['\x7d']) = some es
  | [], hne, _, _, _ => absurd rfl hne
  | [(k, v)], _, h, steps, hsteps => by
    obtain ⟨inner, rfl⟩ := Nat.exists_eq_add_of_le' (show 1 ≤ steps by omega)
    have hone : entriesText [(k, v)] = entryText k v := List.intercalate_singleton
    rw [hone, entriesIn?, keyedValue?_entryText h.1 (Numeral.ends_cons rfl)]
    rfl
  | (k, v) :: e :: es, _, h, steps, hsteps => by
    obtain ⟨inner, rfl⟩ := Nat.exists_eq_add_of_le' (show 1 ≤ steps by omega)
    have hlength := congrArg List.length (entriesText_cons (k, v) e es [])
    simp only [List.append_nil, List.length_append, List.length_cons] at hlength
    have hread := entriesIn?_entriesText (e :: es) (List.cons_ne_nil e es) h.2
      (show _ < inner by omega)
    rw [entriesText_cons, entriesIn?, keyedValue?_entryText h.1 (Numeral.ends_cons rfl)]
    change (do return (k, v) :: (← entriesIn? inner _) : Option (List (Text × Json))) = _
    rw [hread]
    rfl

/-- So does an object literal. -/
theorem decode?_literal {es : List (Text × Json)} (h : MembersDistinct es) :
    decode? (literal es) = some es := by
  cases es with
  | nil => rfl
  | cons e es =>
    obtain ⟨t, hhead⟩ := exists_head_entriesText e es ['\x7d']
    have hopen : entriesText (e :: es) ++ ['\x7d'] ≠ ['\x7d'] := by
      rw [hhead]
      exact fun h => absurd (List.cons_eq_cons.1 h).1 (by decide)
    rw [literal, decode?, if_neg hopen]
    refine entriesIn?_entriesText (e :: es) (List.cons_ne_nil e es) h ?_
    rw [List.length_append]
    exact Nat.lt_succ_self _

/-! ## Documents -/

/-- The elements of an array are stored under any keys as they are. -/
theorem membersDistinct_mapIdx : ∀ {items : List Json} (name : Nat → Text), ItemsDistinct items →
    MembersDistinct (items.mapIdx fun i v => (name i, v))
  | [], _, _ => trivial
  | v :: vs, name, h => by
    rw [List.mapIdx_cons]
    exact ⟨h.1, membersDistinct_mapIdx (fun i => name (i + 1)) h.2⟩

/-- **The entries of a document read back from its literal.** -/
theorem decode?_encode {text : Text} (hv : v.KeysDistinct) (h : encode v = .ok text) :
    decode? text = entries? v := by
  cases v with
  | obj members =>
    cases h
    exact decode?_literal hv.2
  | arr items =>
    cases h
    exact decode?_literal (membersDistinct_mapIdx Text.ofNat hv)
  | _ => cases h

/-- **A document that is stored reads back.** The literal of an object
decodes to its members in their order, the literal of an array to its
elements under their indices, and no other value is accepted. An object
with the same literal has the same members in the same order. -/
theorem encode_reads_back {text : Text} (hv : v.KeysDistinct) (h : encode v = .ok text) :
    (∀ members, v = .obj members → decode? text = some members ∧
      ∀ others, (Json.obj others).KeysDistinct → encode (.obj others) = .ok text →
        others = members) ∧
    (∀ items, v = .arr items →
      decode? text = some (items.mapIdx fun i item => (Text.ofNat i, item))) ∧
    ((∃ members, v = .obj members) ∨ ∃ items, v = .arr items) := by
  have hread := decode?_encode hv h
  refine ⟨?_, ?_, ?_⟩
  · rintro members rfl
    refine ⟨hread, fun others hothers hsame => ?_⟩
    have hother := decode?_encode hothers hsame
    exact Option.some.inj (hother.symm.trans hread)
  · rintro items rfl
    exact hread
  · cases v with
    | obj members => exact .inl ⟨members, rfl⟩
    | arr items => exact .inr ⟨items, rfl⟩
    | _ => cases h

/-- Members with a quote, a comma and braces in a key, and with all of them
and a backslash in a value. -/
def trickyMembers : List (Text × Json) :=
  [("a\"\x7d,\x7b".toList, .obj [("x\\".toList, .arr [.bool true, .str "y : \"\x7d,".toList])]),
    ([], .null)]

/-- Their literal. -/
def trickyLiteral : Text :=
  "\x7b\"a\\\"\x7d,\x7b\" : \x7b\"x\\\\\":[true,\"y : \\\"\x7d,\"]\x7d,\"\" : null\x7d".toList

/-- They are stored and read back, and so are two values without keys. -/
theorem encode_reads_back_tricky :
    (Json.obj trickyMembers).KeysDistinct ∧
    encode (.obj trickyMembers) = .ok trickyLiteral ∧
    decode? trickyLiteral = some trickyMembers ∧
    encode (.arr [.null, .bool true]) = .ok "\x7b\"0\" : null,\"1\" : true\x7d".toList ∧
    decode? "\x7b\"0\" : null,\"1\" : true\x7d".toList =
      some [(['0'], .null), (['1'], .bool true)] := by
  have hkeys : (Json.obj trickyMembers).KeysDistinct := by decide
  have hobject : encode (.obj trickyMembers) = .ok trickyLiteral := rfl
  have harray : encode (.arr [.null, .bool true]) =
      .ok "\x7b\"0\" : null,\"1\" : true\x7d".toList := rfl
  obtain ⟨hmembers, -, -⟩ := encode_reads_back hkeys hobject
  obtain ⟨-, hitems, -⟩ := encode_reads_back (v := .arr [.null, .bool true]) (by decide) harray
  exact ⟨hkeys, hobject, (hmembers _ rfl).1, harray, hitems _ rfl⟩

end Document

end DocQuery
