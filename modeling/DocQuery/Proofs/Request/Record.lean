import Mathlib
import DocQuery.Proofs.Json.Record
import DocQuery.Request
/-!
# Descriptors in JSON text

The objects that give a descriptor are those with its four fields, each
once: in any order, in any spelling, and with any members of other names
between them. From such an object the descriptor is read, from an array of
the four values, and from nothing else (`reads_back`). So a transport that
reads what was written has what was sent, and a text that lacks a field,
or gives one twice, is no descriptor whatever else stands in it.
-/

namespace DocQuery

open DocQuery.Tree
open Piece (Denotes)

/-! ## Methods -/

namespace Method

/-- **The values that name a method**: its name, or an object with that
name alone and nothing in it. -/
def IsNamedBy (method : Method) (v : Tree) : Prop :=
  IsText method.name v ∨ ∃ k, v = .obj [(k, .null)] ∧ Denotes k method.name

theorem ofName?_eq_some_iff {method : Method} {s : Text} :
    ofName? s = some method ↔ s = method.name := by
  constructor
  · intro h
    have hname := List.find?_some h
    exact (of_decide_eq_true hname).symm
  · rintro rfl
    cases method <;> rfl

theorem ofTree?_eq_some_iff {method : Method} {v : Tree} {t : Text} (h : SpelledText v t) :
    ofTree? v = some method ↔ method.IsNamedBy v := by
  rw [ofTree?.eq_def]
  split
  · rename_i ps
    constructor
    · intro hread
      obtain ⟨s, hs, hname⟩ := Option.bind_eq_some_iff.1 hread
      rw [ofName?_eq_some_iff.1 hname] at hs
      exact .inl ((text?_eq_some_iff h).1 hs)
    · rintro (htext | ⟨k, ⟨⟩, -⟩)
      exact Option.bind_eq_some_iff.2
        ⟨_, (text?_eq_some_iff h).2 htext, ofName?_eq_some_iff.2 rfl⟩
  · rename_i k
    have hkey : ∀ {s}, Piece.text? k = some s ↔ Denotes k s :=
      h.areSpelled.text?_iff List.mem_cons_self
    constructor
    · intro hread
      obtain ⟨s, hs, hname⟩ := Option.bind_eq_some_iff.1 hread
      rw [ofName?_eq_some_iff.1 hname] at hs
      exact .inr ⟨k, rfl, hkey.1 hs⟩
    · rintro (⟨_, ⟨⟩, -⟩ | ⟨_, ⟨⟩, hdenotes⟩)
      exact Option.bind_eq_some_iff.2 ⟨_, hkey.2 hdenotes, ofName?_eq_some_iff.2 rfl⟩
  · rename_i hstr hobj
    refine iff_of_false nofun ?_
    rintro (⟨ps, rfl, -⟩ | ⟨k, rfl, -⟩)
    · exact hstr ps rfl
    · exact hobj k rfl

end Method

namespace Request

/-! ## What gives a descriptor -/

/-- **The members that give a descriptor**: each field once. -/
structure IsGivenBy (r : Request) (ms : List (List Piece × Tree)) : Prop where
  method : ∃ v, Gives "method".toList ms [v] ∧ r.method.IsNamedBy v
  action : ∃ v, Gives "action".toList ms [v] ∧ IsText r.action v
  query : ∃ v, Gives "query".toList ms [v] ∧ IsText r.query v
  multiple : Gives "multiple".toList ms [.bool r.multiple]

/-- The elements that list a descriptor: its four values in their order. -/
def IsListedBy (r : Request) (items : List Tree) : Prop :=
  ∃ method action query, items = [method, action, query, .bool r.multiple] ∧
    r.method.IsNamedBy method ∧ IsText r.action action ∧ IsText r.query query

/-- **Members that give no descriptor.** -/
inductive IsRefused (ms : List (List Piece × Tree)) : Prop
  /-- There is a field that no member gives. -/
  | missing {name : Text} (isField : name ∈ fieldNames) (isMissing : ∀ m ∈ ms, ¬ Denotes m.1 name)
  /-- There is a field that two members give. -/
  | repeated {name : Text} (isField : name ∈ fieldNames) (repeats : Repeats name ms)
  /-- The action or the query is no string. -/
  | noText {name : Text} {m : List Piece × Tree}
      (isField : name ∈ ["action".toList, "query".toList]) (isMember : m ∈ ms)
      (isName : Denotes m.1 name) (noString : ∀ ps, m.2 ≠ .str ps)
  /-- The flag is no boolean. -/
  | noFlag {m : List Piece × Tree} (isMember : m ∈ ms) (isName : Denotes m.1 "multiple".toList)
      (noBool : ∀ b, m.2 ≠ .bool b)

variable {r : Request} {ms : List (List Piece × Tree)} {items : List Tree} {t : Text} {v : Tree}

/-- A descriptor gives every field one value. -/
theorem IsGivenBy.exists_gives (h : r.IsGivenBy ms) {name : Text} (hname : name ∈ fieldNames) :
    ∃ v, Gives name ms [v] := by
  obtain ⟨method, hmethod, -⟩ := h.method
  obtain ⟨action, haction, -⟩ := h.action
  obtain ⟨query, hquery, -⟩ := h.query
  simp only [fieldNames, List.mem_cons, List.not_mem_nil, or_false] at hname
  rcases hname with rfl | rfl | rfl | rfl
  · exact ⟨method, hmethod⟩
  · exact ⟨action, haction⟩
  · exact ⟨query, hquery⟩
  · exact ⟨_, h.multiple⟩

/-- **Members that are refused give no descriptor.** -/
theorem IsRefused.not_isGivenBy (hrefused : IsRefused ms) (r : Request) : ¬ r.IsGivenBy ms := by
  intro h
  cases hrefused with
  | missing hfield hmissing =>
    obtain ⟨v, hgives⟩ := h.exists_gives hfield
    obtain ⟨k, hk, hname⟩ := hgives.exists_mem List.mem_cons_self
    exact hmissing _ hk hname
  | repeated hfield hrepeats =>
    obtain ⟨v, hgives⟩ := h.exists_gives hfield
    exact absurd (hrepeats.two_le_length hgives) (Nat.not_succ_le_self 1)
  | @noText name _ hfield hmember hname hnone =>
    have htext : ∃ v s, Gives name ms [v] ∧ IsText s v := by
      rcases List.mem_pair.1 hfield with rfl | rfl
      · obtain ⟨v, hgives, hv⟩ := h.action
        exact ⟨v, _, hgives, hv⟩
      · obtain ⟨v, hgives, hv⟩ := h.query
        exact ⟨v, _, hgives, hv⟩
    obtain ⟨v, s, hgives, ps, hv, -⟩ := htext
    exact hnone ps ((hgives.eq_of_mem hmember hname).trans hv)
  | noFlag hmember hname hnone => exact hnone _ (h.multiple.eq_of_mem hmember hname)

/-! ## What is read -/

/-- A tree is read field by field. -/
theorem ofTree?_eq_some_iff : ofTree? v = some r ↔ ∃ method action query multiple,
    v.fields? fieldNames = some [some method, some action, some query, some multiple] ∧
    Method.ofTree? method = some r.method ∧ action.text? = some r.action ∧
    query.text? = some r.query ∧ multiple.flag? = some r.multiple := by
  constructor
  · intro h
    obtain ⟨values, hvalues, h⟩ := Option.bind_eq_some_iff.1 h
    split at h
    · rename_i method action query multiple
      obtain ⟨m, hmethod, h⟩ := Option.bind_eq_some_iff.1 h
      obtain ⟨a, haction, h⟩ := Option.bind_eq_some_iff.1 h
      obtain ⟨q, hquery, h⟩ := Option.bind_eq_some_iff.1 h
      obtain ⟨f, hmultiple, h⟩ := Option.bind_eq_some_iff.1 h
      cases h
      exact ⟨method, action, query, multiple, hvalues, hmethod, haction, hquery, hmultiple⟩
    · cases h
  · rintro ⟨method, action, query, multiple, hfields, hmethod, haction, hquery, hmultiple⟩
    refine Option.bind_eq_some_iff.2 ⟨_, hfields, ?_⟩
    refine Option.bind_eq_some_iff.2 ⟨_, hmethod, ?_⟩
    refine Option.bind_eq_some_iff.2 ⟨_, haction, ?_⟩
    refine Option.bind_eq_some_iff.2 ⟨_, hquery, ?_⟩
    exact Option.bind_eq_some_iff.2 ⟨_, hmultiple, rfl⟩

/-- The tree of a text is what is read. -/
theorem read_eq_ok_iff (h : SpelledText v t) : read t = .ok r ↔ ofTree? v = some r := by
  have hread : read? t = ofTree? v := by
    rw [read?, read?_eq_some_iff.2 h]
    rfl
  rw [read, hread]
  cases ofTree? v with
  | none => exact iff_of_false nofun nofun
  | some r' => simp

/-- What is no descriptor is refused as that. -/
theorem read_eq_error (h : ∀ r, read t ≠ .ok r) : read t = .error .descriptor := by
  rw [read] at h ⊢
  cases hread : read? t with
  | none => rfl
  | some r => exact absurd (by rw [hread]) (h r)

/-- What each of the four values is read as. -/
theorem isListedBy_iff {method action query multiple : Tree}
    (h : ∀ i, some i ∈ [some method, some action, some query, some multiple] →
      ∃ s, SpelledText i s) :
    r.IsListedBy [method, action, query, multiple] ↔
      Method.ofTree? method = some r.method ∧ action.text? = some r.action ∧
        query.text? = some r.query ∧ multiple.flag? = some r.multiple := by
  obtain ⟨_, hm⟩ := h method (by simp)
  obtain ⟨_, ha⟩ := h action (by simp)
  obtain ⟨_, hq⟩ := h query (by simp)
  rw [Method.ofTree?_eq_some_iff hm, text?_eq_some_iff ha, text?_eq_some_iff hq,
    flag?_eq_some_iff]
  constructor
  · rintro ⟨_, _, _, ⟨⟩, hm, ha, hq⟩
    exact ⟨hm, ha, hq, rfl⟩
  · rintro ⟨hm, ha, hq, rfl⟩
    exact ⟨method, action, query, rfl, hm, ha, hq⟩

/-- **A descriptor is read where the four fields list it.** -/
theorem read_iff (h : SpelledText v t) : read t = .ok r ↔
    ∃ items, v.fields? fieldNames = some (items.map some) ∧ r.IsListedBy items := by
  rw [read_eq_ok_iff h, ofTree?_eq_some_iff]
  constructor
  · rintro ⟨method, action, query, multiple, hfields, hread⟩
    exact ⟨[method, action, query, multiple], hfields,
      (isListedBy_iff (spelled_of_fields? h hfields)).2 hread⟩
  · rintro ⟨_, hfields, hlists⟩
    obtain ⟨method, action, query, rfl, -⟩ := id hlists
    exact ⟨method, action, query, _, hfields,
      (isListedBy_iff (spelled_of_fields? h hfields)).1 hlists⟩

/-- The values that are given are listed by the fields. -/
theorem isGivenBy_iff (h : AreSpelled ms) : r.IsGivenBy ms ↔
    ∃ items, (obj ms).fields? fieldNames = some (items.map some) ∧ r.IsListedBy items := by
  have hfields := fields?_obj_iff h (List.cons_ne_nil _ _ : fieldNames ≠ [])
  constructor
  · rintro ⟨⟨method, hmethod, hm⟩, ⟨action, haction, ha⟩, ⟨query, hquery, hq⟩, hmultiple⟩
    have hread := (hfields [some method, some action, some query, some (.bool r.multiple)]).2
      (.cons hmethod (.cons haction (.cons hquery (.cons hmultiple .nil))))
    exact ⟨[method, action, query, .bool r.multiple], hread, method, action, query, rfl, hm, ha,
      hq⟩
  · rintro ⟨_, hread, method, action, query, rfl, hm, ha, hq⟩
    obtain ⟨hmethod, hrest⟩ := List.forall₂_cons.1 ((hfields _).1 hread)
    obtain ⟨haction, hrest⟩ := List.forall₂_cons.1 hrest
    obtain ⟨hquery, hrest⟩ := List.forall₂_cons.1 hrest
    obtain ⟨hmultiple, -⟩ := List.forall₂_cons.1 hrest
    exact ⟨⟨method, hmethod, hm⟩, ⟨action, haction, ha⟩, ⟨query, hquery, hq⟩, hmultiple⟩

/-- **The compact text of a descriptor** gives the descriptor. -/
theorem exists_isGivenBy_compact (r : Request) :
    ∃ ms, SpelledText (.obj ms) r.toJson.compact ∧ r.IsGivenBy ms := by
  have hdistinct : Json.MembersDistinct (fieldNames.zip
      [.str r.method.name, .str r.action, .str r.query, .bool r.multiple]) :=
    ⟨trivial, trivial, trivial, trivial, trivial⟩
  obtain ⟨ms, hspelled, hgives⟩ := exists_compact (List.cons_ne_nil _ _) hdistinct
  obtain ⟨method, _, hmethod, hm, hmv⟩ := hgives "method".toList _ rfl
  obtain ⟨action, _, haction, ha, hav⟩ := hgives "action".toList _ rfl
  obtain ⟨query, _, hquery, hq, hqv⟩ := hgives "query".toList _ rfl
  obtain ⟨multiple, _, hmultiple, -, hfv⟩ := hgives "multiple".toList _ rfl
  refine ⟨ms, hspelled, ⟨method, hmethod, .inl ?_⟩, ⟨action, haction, ?_⟩, ⟨query, hquery, ?_⟩, ?_⟩
  · exact (text?_eq_some_iff hm).1 (text?_of_toJson? hmv)
  · exact (text?_eq_some_iff ha).1 (text?_of_toJson? hav)
  · exact (text?_eq_some_iff hq).1 (text?_of_toJson? hqv)
  · rw [← eq_bool_of_toJson? hfv]
    exact hmultiple

/-- **Descriptors read back**, and nothing else is read. An object gives the
descriptor that its members give, whatever their order, the spelling of
names and values, and the members of other names between them; an object
that lacks a field or repeats one, or has another kind of value in a field,
gives none. An array gives the descriptor that its four elements list. In
particular a descriptor is read from its own compact text. -/
theorem reads_back (r : Request) (t : Text) :
    (∀ ms, SpelledText (.obj ms) t →
      (read t = .ok r ↔ r.IsGivenBy ms) ∧ (IsRefused ms → read t = .error .descriptor)) ∧
    (∀ items, SpelledText (.arr items) t → (read t = .ok r ↔ r.IsListedBy items)) ∧
    read r.toJson.compact = .ok r := by
  have hobject : ∀ {r t ms}, SpelledText (.obj ms) t → (read t = .ok r ↔ r.IsGivenBy ms) :=
    fun h => (read_iff h).trans (isGivenBy_iff h.areSpelled).symm
  refine ⟨fun ms h => ⟨hobject h, fun hrefused => ?_⟩, fun items h => ?_, ?_⟩
  · exact read_eq_error fun r hread => hrefused.not_isGivenBy r ((hobject h).1 hread)
  · rw [read_iff h]
    constructor
    · rintro ⟨_, hfields, hlists⟩
      obtain ⟨method, action, query, rfl, -⟩ := id hlists
      rwa [(fields?_arr_iff rfl).1 hfields]
    · intro hlists
      obtain ⟨method, action, query, rfl, -⟩ := id hlists
      exact ⟨_, rfl, hlists⟩
  · obtain ⟨ms, hspelled, hgiven⟩ := exists_isGivenBy_compact r
    exact (hobject hspelled).2 hgiven

/-- A text with its members out of order, with escapes in names and values,
and with a value between them that denotes nothing. -/
def scatteredText : Text :=
  "\x7b \"\":[],\"query\" :\"\\u0000😀\",\"x\":\x7b\"query\":1E999\x7d,".toList ++
    "\"multiple\":true,\"m\\u0065thod\":\x7b\"GET\":null\x7d,\n\"action\":\"\\/\"\x7d".toList

/-- The members of this text. -/
def scattered : List (List Piece × Tree) :=
  [([], .arr []), ("query".toList.map .char, .str [.unit 0, .char '😀']),
    (['x'].map .char, .obj [("query".toList.map .char, .num ⟨false, ['1'], [], some 999⟩)]),
    ("multiple".toList.map .char, .bool true),
    ([.char 'm', .unit 0x65] ++ "thod".toList.map .char, .obj [("GET".toList.map .char, .null)]),
    ("action".toList.map .char, .str [.char '/'])]

/-- All four fields, and one of them again with an escape in its name. -/
def doubledText : Text :=
  "\x7b\"method\":\"PUT\",\"action\":\"\",\"query\":\"\",".toList ++
    "\"multiple\":false,\"\\u0061ction\":\"\"\x7d".toList

/-- The members of this one. -/
def doubled : List (List Piece × Tree) :=
  [("method".toList.map .char, .str ("PUT".toList.map .char)),
    ("action".toList.map .char, .str []), ("query".toList.map .char, .str []),
    ("multiple".toList.map .char, .bool false), (.unit 0x61 :: "ction".toList.map .char, .str [])]

/-- A list of the four values. -/
def listed : List Tree := [.str ("PUT".toList.map .char), .str [], .str [], .bool false]

/-- A descriptor is read from scattered members and from a list, and none
from members with a field that is doubled. -/
theorem reads_back_scattered :
    (SpelledText (.obj scattered) scatteredText ∧
      IsGivenBy ⟨.get, ['/'], ['\x00', '😀'], true⟩ scattered ∧
      read scatteredText = .ok ⟨.get, ['/'], ['\x00', '😀'], true⟩) ∧
    (SpelledText (.obj doubled) doubledText ∧ IsRefused doubled ∧
      read doubledText = .error .descriptor) ∧
    SpelledText (.arr listed) "[\"PUT\" ,\"\",\"\",false]".toList ∧
      IsListedBy ⟨.put, [], [], false⟩ listed ∧
      read "[\"PUT\" ,\"\",\"\",false]".toList = .ok ⟨.put, [], [], false⟩ := by
  refine ⟨?_, ?_, ?_⟩
  · have hspelled : SpelledText (.obj scattered) scatteredText := read?_eq_some_iff.1 (by cbv)
    have hgives := gives_of_named hspelled.areSpelled rfl
    have hgiven : IsGivenBy ⟨.get, ['/'], ['\x00', '😀'], true⟩ scattered := {
      method := ⟨_, hgives _, .inr ⟨_, rfl, Piece.denotes_chars "GET".toList⟩⟩
      action := ⟨_, hgives _, _, rfl, Piece.denotes_chars ['/']⟩
      query := ⟨_, hgives _, _, rfl, .unit (c := '\x00') (by decide) (.char .nil)⟩
      multiple := hgives _ }
    exact ⟨hspelled, hgiven, ((reads_back _ _).1 _ hspelled).1.2 hgiven⟩
  · have hspelled : SpelledText (.obj doubled) doubledText := read?_eq_some_iff.1 (by cbv)
    have hrepeats : Repeats "action".toList doubled :=
      ⟨_, _, .cons _ (.cons_cons _ (.cons _ (.cons _ (.cons_cons _ .slnil)))),
        Piece.denotes_chars "action".toList,
        .unit (c := 'a') (by decide) (Piece.denotes_chars "ction".toList)⟩
    have hrefused : IsRefused doubled := .repeated (by decide) hrepeats
    exact ⟨hspelled, hrefused, ((reads_back ⟨.put, [], [], false⟩ _).1 _ hspelled).2 hrefused⟩
  · have hspelled : SpelledText (.arr listed) "[\"PUT\" ,\"\",\"\",false]".toList :=
      read?_eq_some_iff.1 (by cbv)
    have hlisted : IsListedBy ⟨.put, [], [], false⟩ listed :=
      ⟨_, _, _, rfl, .inl ⟨_, rfl, Piece.denotes_chars "PUT".toList⟩, ⟨_, rfl, .nil⟩, _, rfl, .nil⟩
    exact ⟨hspelled, hlisted, ((reads_back _ _).2.1 _ hspelled).2 hlisted⟩

end Request

end DocQuery
