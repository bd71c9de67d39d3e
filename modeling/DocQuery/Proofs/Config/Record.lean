import Mathlib
import DocQuery.Config
import DocQuery.Proofs.Json.Record
/-!
# Configurations in JSON text

A configuration comes about in two ways: from values that a builder puts
together, and from a text that is read. They meet in `reads_as_built`. An
object that gives some of the fields, each of them once, in any order and
with members of other names between them, is read as what is built from the
same values, with the same defaults for the rest, and it is refused for the
same reason. A configuration that was found valid is read from its own
compact text.
-/

namespace DocQuery

open DocQuery.Tree

namespace Config

/-! ## What gives a configuration -/

/-- A field that members give once or leave out. -/
def GivesField {α : Type} (Is : α → Tree → Prop) (name : Text) (ms : List (List Piece × Tree))
    (given : Option α) : Prop :=
  ∃ value : Option Tree, Gives name ms value.toList ∧ Option.Rel Is given value

/-- **The members that give a configuration**, or a part of it. -/
structure IsGivenBy (database : Option Text) (limit offset : Option UInt64)
    (ms : List (List Piece × Tree)) : Prop where
  database : GivesField IsText "database".toList ms database
  limit : GivesField IsWord "default_limit".toList ms limit
  offset : GivesField IsWord "default_offset".toList ms offset

variable {database : Option Text} {limit offset : Option UInt64} {ms : List (List Piece × Tree)}
  {t : Text} {v : Tree} {c : Config}

/-- A field that is there twice is given by no members. -/
theorem not_givesField_of_repeats {α : Type} {Is : α → Tree → Prop} {name : Text}
    {given : Option α} (h : Repeats name ms) : ¬ GivesField Is name ms given := by
  rintro ⟨value, hgives, -⟩
  have htwo := h.two_le_length hgives
  have hone := Option.length_toList_le (o := value)
  omega

/-- So no field of what is given is there twice. -/
theorem not_isGivenBy_of_repeats {name : Text} (hname : name ∈ fieldNames)
    (h : Repeats name ms) : ¬ IsGivenBy database limit offset ms := by
  intro hgiven
  simp only [fieldNames, List.mem_cons, List.not_mem_nil, or_false] at hname
  rcases hname with rfl | rfl | rfl
  · exact not_givesField_of_repeats h hgiven.database
  · exact not_givesField_of_repeats h hgiven.limit
  · exact not_givesField_of_repeats h hgiven.offset

/-! ## What is read -/

/-- A field is read as the value that is given, or as the default. -/
theorem fieldOr_eq_some_iff {α : Type} {Is : α → Tree → Prop} {read? : Tree → Option α}
    {default a : α} {value : Option Tree} (h : ∀ v ∈ value, ∀ a, read? v = some a ↔ Is a v) :
    fieldOr read? default value = some a ↔
      ∃ given, Option.Rel Is given value ∧ given.getD default = a := by
  cases value with
  | none =>
    constructor
    · intro hread
      exact ⟨none, .none, Option.some.inj hread⟩
    · rintro ⟨_, ⟨⟩, rfl⟩
      rfl
  | some v =>
    refine (h v rfl a).trans ⟨fun ha => ⟨some a, .some ha, rfl⟩, ?_⟩
    rintro ⟨_, ⟨ha⟩, rfl⟩
    exact ha

/-- A tree is read field by field. -/
theorem ofTree?_eq_some_iff : ofTree? v = some c ↔ ∃ database limit offset,
    v.fields? fieldNames = some [database, limit, offset] ∧
    fieldOr text? [] database = some c.database ∧ fieldOr word? 20 limit = some c.limit ∧
    fieldOr word? 0 offset = some c.offset := by
  constructor
  · intro h
    obtain ⟨values, hvalues, h⟩ := Option.bind_eq_some_iff.1 h
    split at h
    · rename_i database limit offset
      obtain ⟨d, hdatabase, h⟩ := Option.bind_eq_some_iff.1 h
      obtain ⟨l, hlimit, h⟩ := Option.bind_eq_some_iff.1 h
      obtain ⟨o, hoffset, h⟩ := Option.bind_eq_some_iff.1 h
      cases h
      exact ⟨database, limit, offset, hvalues, hdatabase, hlimit, hoffset⟩
    · cases h
  · rintro ⟨database, limit, offset, hfields, hdatabase, hlimit, hoffset⟩
    refine Option.bind_eq_some_iff.2 ⟨_, hfields, ?_⟩
    refine Option.bind_eq_some_iff.2 ⟨_, hdatabase, ?_⟩
    refine Option.bind_eq_some_iff.2 ⟨_, hlimit, ?_⟩
    exact Option.bind_eq_some_iff.2 ⟨_, hoffset, rfl⟩

/-- **An object is read as the values that its members give**, with the
defaults for the rest. -/
theorem ofTree?_obj_iff (h : SpelledText (.obj ms) t) : ofTree? (.obj ms) = some c ↔
    ∃ database limit offset, IsGivenBy database limit offset ms ∧
      (⟨database.getD [], limit.getD 20, offset.getD 0⟩ : Config) = c := by
  have hfields := fields?_obj_iff h.areSpelled (List.cons_ne_nil _ _ : fieldNames ≠ [])
  have htext : ∀ {name} {value : Option Tree}, Gives name ms value.toList → ∀ v ∈ value,
      ∀ s : Text, v.text? = some s ↔ IsText s v := by
    intro name value hgives v hv s
    obtain ⟨_, hspelled⟩ := h.areSpelled.value hgives (Option.mem_toList.2 hv)
    exact text?_eq_some_iff hspelled
  have hword : ∀ value : Option Tree, ∀ v ∈ value, ∀ w : UInt64,
      v.word? = some w ↔ IsWord w v := fun _ _ _ _ => word?_eq_some_iff
  rw [ofTree?_eq_some_iff]
  constructor
  · rintro ⟨d, l, o, hvalues, hd, hl, ho⟩
    obtain ⟨hdatabase, hrest⟩ := List.forall₂_cons.1 ((hfields _).1 hvalues)
    obtain ⟨hlimit, hrest⟩ := List.forall₂_cons.1 hrest
    obtain ⟨hoffset, -⟩ := List.forall₂_cons.1 hrest
    obtain ⟨database, hisd, hd⟩ := (fieldOr_eq_some_iff (htext hdatabase)).1 hd
    obtain ⟨limit, hisl, hl⟩ := (fieldOr_eq_some_iff (hword l)).1 hl
    obtain ⟨offset, hiso, ho⟩ := (fieldOr_eq_some_iff (hword o)).1 ho
    refine ⟨database, limit, offset, ⟨⟨d, hdatabase, hisd⟩, ⟨l, hlimit, hisl⟩,
      ⟨o, hoffset, hiso⟩⟩, ?_⟩
    rw [hd, hl, ho]
  · rintro ⟨database, limit, offset, ⟨⟨d, hdatabase, hisd⟩, ⟨l, hlimit, hisl⟩,
      ⟨o, hoffset, hiso⟩⟩, rfl⟩
    exact ⟨d, l, o, (hfields [d, l, o]).2 (.cons hdatabase (.cons hlimit (.cons hoffset .nil))),
      (fieldOr_eq_some_iff (htext hdatabase)).2 ⟨database, hisd, rfl⟩,
      (fieldOr_eq_some_iff (hword l)).2 ⟨limit, hisl, rfl⟩,
      (fieldOr_eq_some_iff (hword o)).2 ⟨offset, hiso, rfl⟩⟩

/-- The tree of a text is what is read. -/
theorem read_eq (h : SpelledText v t) : read t =
    match ofTree? v with
    | some c => c.validate
    | none => .error (.configuration .unreadable) := by
  rw [read, read?_eq_some_iff.2 h]
  rfl

theorem read_of_isGivenBy (h : SpelledText (.obj ms) t)
    (hgiven : IsGivenBy database limit offset ms) :
    read t = validate ⟨database.getD [], limit.getD 20, offset.getD 0⟩ := by
  rw [read_eq h, (ofTree?_obj_iff h).2 ⟨database, limit, offset, hgiven, rfl⟩]

/-- An object that gives no configuration is none. -/
theorem read_of_not_isGivenBy (h : SpelledText (.obj ms) t)
    (hnone : ∀ database limit offset, ¬ IsGivenBy database limit offset ms) :
    read t = .error (.configuration .unreadable) := by
  rw [read_eq h]
  cases hread : ofTree? (.obj ms) with
  | none => rfl
  | some c =>
    obtain ⟨database, limit, offset, hgiven, -⟩ := (ofTree?_obj_iff h).1 hread
    exact absurd hgiven (hnone database limit offset)

/-- **The compact text of a configuration** gives all its fields. -/
theorem exists_isGivenBy_compact (c : Config) : ∃ ms, SpelledText (.obj ms) c.toJson.compact ∧
    IsGivenBy (some c.database) (some c.limit) (some c.offset) ms := by
  have hdistinct : Json.MembersDistinct (fieldNames.zip
      [.str c.database, .num (.ofWord c.limit), .num (.ofWord c.offset)]) :=
    ⟨trivial, trivial, trivial, trivial⟩
  obtain ⟨ms, hspelled, hgives⟩ := exists_compact (List.cons_ne_nil _ _) hdistinct
  obtain ⟨d, _, hdatabase, hd, hdv⟩ := hgives "database".toList _ rfl
  obtain ⟨l, _, hlimit, -, hlv⟩ := hgives "default_limit".toList _ rfl
  obtain ⟨o, _, hoffset, -, hov⟩ := hgives "default_offset".toList _ rfl
  refine ⟨ms, hspelled, ⟨some d, hdatabase, .some ?_⟩, ⟨some l, hlimit, .some ?_⟩,
    ⟨some o, hoffset, .some ?_⟩⟩
  · exact (text?_eq_some_iff hd).1 (text?_of_toJson? hdv)
  · exact isWord_of_toJson? hlv
  · exact isWord_of_toJson? hov

/-- What a builder makes of the values that it is told: those that it is not
told it has by default. -/
theorem build_ofGiven (database : Option Text) (limit offset : Option UInt64) :
    (Builder.ofGiven database limit offset).build =
      validate ⟨database.getD [], limit.getD 20, offset.getD 0⟩ := by
  cases limit with
  | none => cases offset <;> rfl
  | some limit => cases offset <;> rfl

/-- What is found valid is left as it is. -/
theorem eq_of_validate {c' : Config} (h : c.validate = .ok c') : c' = c := by
  rw [validate] at h
  split at h
  · cases h
  split at h
  · cases h
  · exact (Except.ok.inj h).symm

/-- **Configurations are read as they are built.** An object that gives some
of the fields comes to what a builder comes to that is told the same values,
be it that the rest is left to the builder or told to it as an empty path, a
limit of 20 and no offset: to the same configuration, or to the same fault
in it. Any other object is unreadable, and so is one with a field that is
there twice. A valid configuration is read from its own compact text. -/
theorem reads_as_built (t : Text) :
    (∀ ms, SpelledText (.obj ms) t →
      (∀ database limit offset, IsGivenBy database limit offset ms →
        read t = (Builder.ofGiven database limit offset).build ∧
        read t = (((Builder.new (database.getD [])).withLimit (limit.getD 20)).withOffset
          (offset.getD 0)).build ∧
        read t = validate ⟨database.getD [], limit.getD 20, offset.getD 0⟩) ∧
      ((∀ database limit offset, ¬ IsGivenBy database limit offset ms) →
        read t = .error (.configuration .unreadable)) ∧
      ∀ name ∈ fieldNames, Repeats name ms → read t = .error (.configuration .unreadable)) ∧
    ∀ c c' : Config, c.validate = .ok c' → read c'.toJson.compact = .ok c' := by
  refine ⟨fun ms h => ⟨?_, read_of_not_isGivenBy h, ?_⟩, ?_⟩
  · intro database limit offset hgiven
    have hread := read_of_isGivenBy h hgiven
    exact ⟨hread.trans (build_ofGiven database limit offset).symm, hread, hread⟩
  · intro name hname hrepeats
    exact read_of_not_isGivenBy h fun _ _ _ => not_isGivenBy_of_repeats hname hrepeats
  · intro c c' hvalid
    obtain rfl := eq_of_validate hvalid
    obtain ⟨ms, hspelled, hgiven⟩ := exists_isGivenBy_compact c'
    exact (read_of_isGivenBy hspelled hgiven).trans hvalid

/-- A text that gives a path with escapes and the greatest offset, and no
limit. -/
def partialText : Text :=
  "\x7b \"x\":\x7b\"database\":1E999\x7d,\"default_offset\":18446744073709551615,".toList ++
    "\"d\\u0061tabase\":\"10\\u0030.\\\"b\" \x7d".toList

/-- The members of this text. -/
def partialMembers : List (List Piece × Tree) :=
  [(['x'].map .char, .obj [("database".toList.map .char, .num ⟨false, ['1'], [], some 999⟩)]),
    ("default_offset".toList.map .char,
      .num ⟨false, "18446744073709551615".toList, [], none⟩),
    (.char 'd' :: .unit 0x61 :: "tabase".toList.map .char,
      .str [.char '1', .char '0', .unit 0x30, .char '.', .char '"', .char 'b'])]

/-- A text with an empty path and a limit that is there twice. -/
def repeatedText : Text :=
  "\x7b\"default_limit\":1,\"database\":\"\",\"\\u0064efault_limit\":1\x7d".toList

/-- The members of this one. -/
def repeatedMembers : List (List Piece × Tree) :=
  [("default_limit".toList.map .char, .num ⟨false, ['1'], [], none⟩),
    ("database".toList.map .char, .str []),
    (.unit 0x64 :: "efault_limit".toList.map .char, .num ⟨false, ['1'], [], none⟩)]

/-- A text with a path in which two dots meet. -/
def dottedText : Text := "\x7b\"default_limit\":5,\"database\":\"a..b\"\x7d".toList

/-- And its members. -/
def dottedMembers : List (List Piece × Tree) :=
  [("default_limit".toList.map .char, .num ⟨false, ['5'], [], none⟩),
    ("database".toList.map .char, .str ("a..b".toList.map .char))]

/-- The first text is read with the limit by default; the second is
unreadable, and not refused for its path, as the third is, in the same words
in which it is not built. -/
theorem reads_as_built_partial :
    (SpelledText (.obj partialMembers) partialText ∧
      IsGivenBy (some "100.\"b".toList) none (some 18446744073709551615) partialMembers ∧
      (Builder.ofGiven (some "100.\"b".toList) none (some 18446744073709551615)).build =
        .ok ⟨"100.\"b".toList, 20, 18446744073709551615⟩ ∧
      read partialText = .ok ⟨"100.\"b".toList, 20, 18446744073709551615⟩) ∧
    (SpelledText (.obj repeatedMembers) repeatedText ∧
      Repeats "default_limit".toList repeatedMembers ∧
      read repeatedText = .error (.configuration .unreadable)) ∧
    (SpelledText (.obj dottedMembers) dottedText ∧
      IsGivenBy (some "a..b".toList) (some 5) none dottedMembers ∧
      (Builder.ofGiven (some "a..b".toList) (some 5) none).build =
        .error (.configuration (.emptySegment "a..b".toList)) ∧
      read dottedText = .error (.configuration (.emptySegment "a..b".toList))) ∧
    validate ⟨['b'], 1, 0⟩ = .ok ⟨['b'], 1, 0⟩ ∧
      read (Config.mk ['b'] 1 0).toJson.compact = .ok ⟨['b'], 1, 0⟩ := by
  refine ⟨?_, ?_, ?_, rfl, (reads_as_built []).2 ⟨['b'], 1, 0⟩ _ rfl⟩
  · have hspelled : SpelledText (.obj partialMembers) partialText :=
      read?_eq_some_iff.1 (by cbv)
    have hgives := gives_of_named hspelled.areSpelled rfl
    have hpath : IsText "100.\"b".toList _ := ⟨_, rfl, .char (.char
      (.unit (c := '0') (by decide) (Piece.denotes_chars ".\"b".toList)))⟩
    have hgiven : IsGivenBy (some "100.\"b".toList) none (some 18446744073709551615)
        partialMembers := {
      database := ⟨some _, hgives _, .some hpath⟩
      limit := ⟨none, hgives _, .none⟩
      offset := ⟨some _, hgives _, .some ⟨_, rfl, rfl⟩⟩ }
    obtain ⟨hbuilt, -⟩ := ((reads_as_built _).1 _ hspelled).1 _ _ _ hgiven
    exact ⟨hspelled, hgiven, rfl, hbuilt.trans rfl⟩
  · have hspelled : SpelledText (.obj repeatedMembers) repeatedText :=
      read?_eq_some_iff.1 (by cbv)
    have hrepeats : Repeats "default_limit".toList repeatedMembers :=
      ⟨_, _, .cons_cons _ (.cons _ (.cons_cons _ .slnil)),
        Piece.denotes_chars "default_limit".toList,
        .unit (c := 'd') (by decide) (Piece.denotes_chars "efault_limit".toList)⟩
    exact ⟨hspelled, hrepeats, ((reads_as_built _).1 _ hspelled).2.2 _ (by decide) hrepeats⟩
  · have hspelled : SpelledText (.obj dottedMembers) dottedText := read?_eq_some_iff.1 (by cbv)
    have hgives := gives_of_named hspelled.areSpelled rfl
    have hgiven : IsGivenBy (some "a..b".toList) (some 5) none dottedMembers := {
      database := ⟨some _, hgives _, .some ⟨_, rfl, Piece.denotes_chars "a..b".toList⟩⟩
      limit := ⟨some _, hgives _, .some ⟨_, rfl, rfl⟩⟩
      offset := ⟨none, hgives _, .none⟩ }
    obtain ⟨hbuilt, -⟩ := ((reads_as_built _).1 _ hspelled).1 _ _ _ hgiven
    exact ⟨hspelled, hgiven, rfl, hbuilt.trans rfl⟩

end Config

end DocQuery
