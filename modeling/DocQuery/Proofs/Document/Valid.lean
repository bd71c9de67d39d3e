import DocQuery.Proofs.Document.ReadsBack
/-!
# When a stored document is JSON

The keys of an object literal are escaped for the query language, and JSON
shares only part of its escapes: it has no letter for a single quote, for
the null character and for the end of file, and a tab or another control
character must not stand for itself. Everything else is the same in both,
and the values are JSON with keys of their own, which are escaped as JSON
wants it. So the literal of an object is JSON exactly when its top-level
keys have none of these characters, and then it denotes the object
(`encode_valid_iff`).
-/

namespace DocQuery

namespace Document

open Json DocQuery.Tree Numeral

variable {c : Char} {key rest : Text} {v : Json} {steps : Nat} {es members : List (Text × Json)}

/-! ## Characters -/

/-- A character whose escape in the query language is JSON too. -/
abbrev FitsJson (c : Char) : Prop := c ≠ '\'' ∧ (0x20 ≤ c.toNat ∨ c = '\n' ∨ c = '\r')

/-- Keys of such characters. -/
def KeysFit (es : List (Text × Json)) : Prop := ∀ key ∈ keys es, ∀ c ∈ key, FitsJson c

/-- **A character that fits is a piece of a JSON string**, and the piece
stands for it. -/
theorem spelledPiece_escapeChar (h : FitsJson c) :
    SpelledPiece (.char c) (Literal.escapeChar c) := by
  rcases Literal.escapeChar_cases c with ⟨letter, hmem, hescape⟩ | ⟨hplain, hescape⟩
  · have hletters : ∀ e ∈ Literal.escapes, FitsJson e.1 → (e.2, e.1) ∈ letters := by decide
    rw [hescape]
    exact .letter (hletters (c, letter) hmem h)
  · -- the line breaks are escaped, so of the controls none is left
    have hcontrol : 0x20 ≤ c.toNat := by
      rcases h.2 with hcontrol | hline | hreturn
      · exact hcontrol
      · exact absurd hline (hplain ('\n', 'n') (by decide))
      · exact absurd hreturn (hplain ('\r', 'r') (by decide))
    rw [hescape]
    exact .plain (hplain ('"', '"') (by decide)) (hplain ('\\', '\\') (by decide)) hcontrol

/-- **No JSON string goes on with any other character.** -/
theorem pieces?_escapeChar_eq_none (h : ¬ FitsJson c) (rest : Text) :
    pieces? (Literal.escapeChar c ++ rest) = none := by
  rcases Literal.escapeChar_cases c with ⟨letter, hmem, hescape⟩ | ⟨hplain, hescape⟩
  · have hletters : ∀ e ∈ Literal.escapes, ¬ FitsJson e.1 → unescape? e.2 = none ∧ e.2 ≠ 'u' := by
      decide
    obtain ⟨hnone, hunit⟩ := hletters (c, letter) hmem h
    rw [hescape, List.cons_append, List.singleton_append, pieces?.eq_def]
    simp only [if_neg hunit, hnone]
    rfl
  · have hquote : c ≠ '"' := hplain ('"', '"') (by decide)
    have hslash : c ≠ '\\' := hplain ('\\', '\\') (by decide)
    have hapostrophe : c ≠ '\'' := hplain ('\'', '\'') (by decide)
    have hcontrol : c.toNat < 0x20 := Nat.lt_of_not_le fun hlow => h ⟨hapostrophe, .inl hlow⟩
    rw [hescape, List.singleton_append, pieces?.eq_def]
    simp only [if_neg hquote, if_neg hslash, if_pos hcontrol]

/-! ## Keys -/

/-- The pieces of a key, one for each character. -/
def keyPieces (key : Text) : List Piece := key.map .char

theorem text?_keyPieces (key : Text) : Piece.text? (keyPieces key) = some key :=
  (Piece.denotes_chars key).text?

/-- A key that fits is a JSON string. -/
theorem spelledPieces_escape (h : ∀ c ∈ key, FitsJson c) :
    SpelledPieces (keyPieces key) (Literal.escape key) := by
  induction key with
  | nil => exact .nil
  | cons c key ih =>
    obtain ⟨hc, hkey⟩ := List.forall_mem_cons.1 h
    rw [Literal.escape, List.flatMap_cons]
    exact .cons (spelledPiece_escapeChar hc) (ih hkey)

/-- And no other is. -/
theorem pieces?_escape_eq_none (h : ¬ ∀ c ∈ key, FitsJson c) (rest : Text) :
    pieces? (Literal.escape key ++ rest) = none := by
  induction key with
  | nil => exact absurd (List.forall_mem_nil _) h
  | cons c key ih =>
    rw [Literal.escape, List.flatMap_cons, List.append_assoc]
    by_cases hc : FitsJson c
    · have hkey : ¬ ∀ c ∈ key, FitsJson c := fun hkey => h (List.forall_mem_cons.2 ⟨hc, hkey⟩)
      rw [pieces?_piece (spelledPiece_escapeChar hc), ← Literal.escape, ih hkey]
      rfl
    · exact pieces?_escapeChar_eq_none hc _

/-! ## Entries -/

/-- An entry from its key on, with the text behind it. -/
theorem entryText_append (key : Text) (v : Json) (rest : Text) :
    entryText key v ++ rest =
      '"' :: (Literal.escape key ++ '"' :: ([' '] ++ ':' :: ([' '] ++ v.compact ++ rest))) := by
  simp [entryText, Literal.quote]

theorem length_value_le (key : Text) (v : Json) :
    ([' '] ++ v.compact).length ≤ (entryText key v).length := by
  have hlength := congrArg List.length (entryText_append key v [])
  simp only [List.append_nil, List.length_append, List.length_cons] at hlength ⊢
  omega

/-- The value of an entry is JSON between gaps. -/
theorem spelledText_value {t : Tree} (h : t.Spelled v.compact) :
    SpelledText t ([' '] ++ v.compact) := h.text.gaps_append rfl

/-- **An entry whose key fits is a member of a JSON object.** -/
theorem spelledMember_entryText {t : Tree} (hkey : ∀ c ∈ key, FitsJson c)
    (hv : t.Spelled v.compact) : SpelledMember (keyPieces key, t) (entryText key v) := by
  have hnone : IsGaps [] := rfl
  have hgap : IsGaps [' '] := rfl
  have hmember := SpelledMember.mk hnone (spelledPieces_escape hkey) hgap (spelledText_value hv)
  have hsplit := entryText_append key v []
  rw [List.append_nil, List.append_nil] at hsplit
  rwa [hsplit]

theorem keysFit_cons {e : Text × Json} :
    KeysFit (e :: es) ↔ (∀ c ∈ e.1, FitsJson c) ∧ KeysFit es :=
  List.forall_mem_cons

/-- **Entries whose keys fit are the members of a JSON object**, one at
least, and denote themselves. -/
theorem spelledMembers_entriesText : ∀ es : List (Text × Json), es ≠ [] → MembersDistinct es →
    KeysFit es → ∃ ts : List (List Piece × Tree), toMembers? rounded? ts = some es ∧
      SpelledMembers ts (entriesText es)
  | [], hne, _, _ => absurd rfl hne
  | [(k, v)], _, h, hfit => by
    obtain ⟨t, hvalue, hv⟩ := spells_compact v h.1
    have hmember := spelledMember_entryText (keysFit_cons.1 hfit).1 hv
    refine ⟨[(keyPieces k, t)], toMembers?_cons (text?_keyPieces k) hvalue rfl, ?_⟩
    rw [entriesText, List.map_singleton, List.intercalate_singleton]
    exact .last hmember
  | (k, v) :: e :: es, _, h, hfit => by
    obtain ⟨t, hvalue, hv⟩ := spells_compact v h.1
    obtain ⟨hkey, hkeys⟩ := keysFit_cons.1 hfit
    obtain ⟨ts, hvalues, hmembers⟩ :=
      spelledMembers_entriesText (e :: es) (List.cons_ne_nil e es) h.2 hkeys
    have hsplit := entriesText_cons (k, v) e es []
    rw [List.append_nil, List.append_nil] at hsplit
    refine ⟨(keyPieces k, t) :: ts, toMembers?_cons (text?_keyPieces k) hvalue hvalues, ?_⟩
    rw [hsplit]
    exact .cons (spelledMember_entryText hkey hv) hmembers

/-- A reader of members gets no further than a key that does not fit. -/
theorem members?_entry_eq_none (hkey : ¬ ∀ c ∈ key, FitsJson c) (rest : Text) :
    members? steps (entryText key v ++ rest) = none := by
  cases steps with
  | zero => rfl
  | succ steps =>
    rw [entryText_append, members?, skipGaps_cons rfl]
    simp only [pieces?_escape_eq_none hkey]
    rfl

/-- **So it gets through no entries of which a key does not fit.** -/
theorem members?_entriesText_eq_none : ∀ es : List (Text × Json), MembersDistinct es →
    ¬ KeysFit es → ∀ {steps : Nat}, (entriesText es).length < steps → ∀ rest : Text,
      members? steps (entriesText es ++ rest) = none
  | [], _, hunfit, _, _, _ => absurd (List.forall_mem_nil _) hunfit
  | [(k, v)], _, hunfit, steps, _, rest => by
    have hkey : ¬ ∀ c ∈ k, FitsJson c := fun hkey =>
      hunfit (keysFit_cons.2 ⟨hkey, List.forall_mem_nil _⟩)
    rw [entriesText, List.map_singleton, List.intercalate_singleton]
    exact members?_entry_eq_none hkey rest
  | (k, v) :: e :: es, h, hunfit, steps + 1, hsteps, rest => by
    have hlength := congrArg List.length (entriesText_cons (k, v) e es [])
    simp only [List.append_nil, List.length_append, List.length_cons] at hlength
    rw [entriesText_cons]
    by_cases hkey : ∀ c ∈ k, FitsJson c
    · -- this entry is read, so the reader comes to the others
      have hkeys : ¬ KeysFit (e :: es) := fun hkeys => hunfit (keysFit_cons.2 ⟨hkey, hkeys⟩)
      have htail := members?_entriesText_eq_none (e :: es) h.2 hkeys (show _ < steps by omega) rest
      obtain ⟨t, -, hv⟩ := spells_compact v h.1
      have hgap : IsGaps [' '] := rfl
      have hvalue := length_value_le k v
      obtain ⟨u, hread, hu⟩ := value?_spelledText (spelledText_value hv)
        (ends_cons (show goesOn ',' = false from rfl))
        (show ([' '] ++ v.compact).length ≤ steps by omega)
      rw [entryText_append, members?_cons (skipGaps_cons rfl)
        (pieces?_spelled (spelledPieces_escape hkey) _) (skipGaps_append hgap) hread hu, htail]
      rfl
    · exact members?_entry_eq_none hkey _

/-! ## Documents -/

/-- **The literal of entries whose keys fit is JSON**, and denotes the
entries. -/
theorem spells_literal (h : (Json.obj es).KeysDistinct) (hfit : KeysFit es) :
    Spells (.obj es) (literal es) := by
  cases es with
  | nil => exact ⟨.obj [], rfl, .emptyObject rfl⟩
  | cons e es =>
    obtain ⟨ts, hvalues, hmembers⟩ :=
      spelledMembers_entriesText (e :: es) (List.cons_ne_nil e es) h.2 hfit
    exact ⟨.obj ts, toJson?_obj hvalues h.1, .object hmembers⟩

/-- **And that of any others is not.** -/
theorem read?_literal_eq_none (h : MembersDistinct es) (hunfit : ¬ KeysFit es) :
    Tree.read? (literal es) = none := by
  cases es with
  | nil => exact absurd (List.forall_mem_nil _) hunfit
  | cons e es =>
    obtain ⟨t, hhead⟩ := exists_head_entriesText e es ['\x7d']
    have hliteral : literal (e :: es) = '\x7b' :: (entriesText (e :: es) ++ ['\x7d']) := rfl
    have hlength : (entriesText (e :: es)).length < 2 * (literal (e :: es)).length + 1 := by
      rw [hliteral, List.length_cons, List.length_append]
      omega
    have hnone := members?_entriesText_eq_none (e :: es) h hunfit hlength ['\x7d']
    have hskip : skipGaps (entriesText (e :: es) ++ ['\x7d']) = '"' :: t := by
      rw [hhead, skipGaps_cons rfl]
    have hvalue : value? (2 * (literal (e :: es)).length + 2) (literal (e :: es)) = none :=
      (value?_object hskip).trans (congrArg (Option.map _) hnone)
    rw [Tree.read?, hvalue]
    rfl

/-- **When a stored object is JSON, and what JSON it is.** The literal of
an object has a spelling in the grammar of JSON exactly when no character
of its top-level keys is a single quote or a control character other than
line feed and carriage return; and every tree that the literal spells
denotes the object when numerals are rounded once: with its keys in their
order, its values, and its numbers in their classes. -/
theorem encode_valid_iff (h : (Json.obj members).KeysDistinct) :
    ∃ text, encode (.obj members) = .ok text ∧
      ((∃ t, SpelledText t text) ↔ ∀ key ∈ keys members, ∀ c ∈ key,
        c ≠ '\'' ∧ (0x20 ≤ c.toNat ∨ c = '\n' ∨ c = '\r')) ∧
      ∀ t, SpelledText t text → t.toJson? rounded? = some (.obj members) := by
  have hfits : ∀ t, SpelledText t (literal members) → KeysFit members := by
    intro t ht
    have hread := read?_eq_some_iff.2 ht
    refine Classical.byContradiction fun hunfit => ?_
    rw [read?_literal_eq_none h.2 hunfit] at hread
    cases hread
  refine ⟨literal members, rfl, ⟨?_, ?_⟩, ?_⟩
  · rintro ⟨t, ht⟩
    exact hfits t ht
  · intro hfit
    obtain ⟨t, -, hspelled⟩ := spells_literal h hfit
    exact ⟨t, hspelled.text⟩
  · intro t ht
    exact (spells_literal h (hfits t ht)).means.2 t ht

/-- An apostrophe and a tab in a key of a value, behind a key with a line
break and a quote. -/
def insideApostrophe : List (Text × Json) :=
  [("a\n\"b".toList, .obj [("it's\t".toList, .bool true)]), ([], .null)]

/-- An apostrophe in a key of the document. -/
def topApostrophe : List (Text × Json) := [("it's".toList, .null)]

/-- The first is stored as JSON and reads back, and the second is not. -/
theorem encode_valid_iff_apostrophe :
    (Json.obj insideApostrophe).KeysDistinct ∧ (Json.obj topApostrophe).KeysDistinct ∧
    (∃ text, encode (.obj insideApostrophe) = .ok text ∧
      ∃ t, SpelledText t text ∧ t.toJson? rounded? = some (.obj insideApostrophe)) ∧
    ∃ text, encode (.obj topApostrophe) = .ok text ∧ ¬ ∃ t, SpelledText t text := by
  have hinside : (Json.obj insideApostrophe).KeysDistinct := by decide
  have htop : (Json.obj topApostrophe).KeysDistinct := by decide
  obtain ⟨text, hencode, hvalid, hreads⟩ := encode_valid_iff hinside
  obtain ⟨text', hencode', hvalid', -⟩ := encode_valid_iff htop
  have hfit : (keys insideApostrophe).all (·.all (FitsJson ·)) := by decide
  obtain ⟨t, ht⟩ := hvalid.2 (by simpa only [List.all_eq_true, decide_eq_true_eq] using hfit)
  refine ⟨hinside, htop, ⟨text, hencode, t, ht, hreads t ht⟩, text', hencode', fun h => ?_⟩
  obtain ⟨hnone, -⟩ := hvalid'.1 h "it's".toList List.mem_cons_self '\'' (by decide)
  exact hnone rfl

end Document

end DocQuery
