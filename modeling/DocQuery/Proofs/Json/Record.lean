import Mathlib.Data.List.Forall2
import DocQuery.Json.Read
import DocQuery.Proofs.Json.ReadsBack
import DocQuery.Proofs.Sequence
/-!
# Records of named fields

What an object gives to a record is said member by member (`Gives`): a
member of the name gives its value, whatever the spelling of the name, and
any other is passed over whatever its value, so neither the order of the
members nor what stands between them matters. The reader of fields finds
exactly that, with a field that is there twice refused
(`fields?_obj_iff`). Behind it stand the values that single fields can
have, and the fields of a record in the compact text of its value.
-/

namespace DocQuery

namespace Tree

open Piece (Denotes)

/-! ## Members by name -/

/-- **The values that members give to a name**, in their order. All other
names are texts, and not the name. -/
inductive Gives (name : Text) : List (List Piece × Tree) → List Tree → Prop
  | nil : Gives name [] []
  /-- A member of the name, in any spelling. -/
  | here {k : List Piece} {v : Tree} {ms : List (List Piece × Tree)} {vs : List Tree}
      (isName : Denotes k name) (rest : Gives name ms vs) : Gives name ((k, v) :: ms) (v :: vs)
  /-- A member of another name, with any value. -/
  | other {k : List Piece} {s : Text} {v : Tree} {ms : List (List Piece × Tree)}
      {vs : List Tree} (isText : Denotes k s) (isOther : s ≠ name) (rest : Gives name ms vs) :
      Gives name ((k, v) :: ms) vs

/-- A name that two members have. -/
def Repeats (name : Text) (ms : List (List Piece × Tree)) : Prop :=
  ∃ m m', [m, m'].Sublist ms ∧ Denotes m.1 name ∧ Denotes m'.1 name

variable {name : Text} {ms : List (List Piece × Tree)} {v : Tree} {vs : List Tree} {t : Text}

/-- **Whatever members have the name**, their values are given. -/
theorem Gives.sublist (h : Gives name ms vs) {l : List (List Piece × Tree)} (hl : l.Sublist ms)
    (hname : ∀ m ∈ l, Denotes m.1 name) : (l.map (·.2)).Sublist vs := by
  induction h generalizing l with
  | nil =>
    cases hl
    exact .slnil
  | here _ _ ih =>
    cases hl with
    | cons _ hl => exact (ih hl hname).cons _
    | cons_cons _ hl => exact (ih hl (List.forall_mem_cons.1 hname).2).cons_cons _
  | other hs hother _ ih =>
    cases hl with
    | cons _ hl => exact ih hl hname
    | cons_cons _ hl => exact absurd (hs.unique (List.forall_mem_cons.1 hname).1) hother

/-- So of a name that is given once any member has the value. -/
theorem Gives.eq_of_mem (h : Gives name ms [v]) {m : List Piece × Tree} (hm : m ∈ ms)
    (hname : Denotes m.1 name) : m.2 = v := by
  have hsublist := h.sublist (List.singleton_sublist.2 hm) (List.forall_mem_singleton.2 hname)
  exact List.mem_singleton.1 (List.singleton_sublist.1 hsublist)

/-- And a name that is there twice has two values at least. -/
theorem Repeats.two_le_length (h : Repeats name ms) (hgives : Gives name ms vs) :
    2 ≤ vs.length := by
  obtain ⟨m, m', hsublist, hm, hm'⟩ := h
  have hvalues := hgives.sublist hsublist
    (List.forall_mem_cons.2 ⟨hm, List.forall_mem_singleton.2 hm'⟩)
  exact hvalues.length_le

/-- What is given is the value of a member. -/
theorem Gives.exists_mem (h : Gives name ms vs) (hv : v ∈ vs) :
    ∃ k, (k, v) ∈ ms ∧ Denotes k name := by
  induction h with
  | nil => cases hv
  | here hname _ ih =>
    rcases List.mem_cons.1 hv with rfl | hv
    · exact ⟨_, List.mem_cons_self, hname⟩
    · obtain ⟨k, hk, hname⟩ := ih hv
      exact ⟨k, List.mem_cons_of_mem _ hk, hname⟩
  | other _ _ _ ih =>
    obtain ⟨k, hk, hname⟩ := ih hv
    exact ⟨k, List.mem_cons_of_mem _ hk, hname⟩

/-! ## Members of a text -/

/-- Members as a text can have them. -/
def AreSpelled (ms : List (List Piece × Tree)) : Prop := ∀ m ∈ ms, ∃ s, SpelledMember m s

theorem areSpelled_of_members {s : Text} (h : SpelledMembers ms s) : AreSpelled ms := by
  induction ms generalizing s with
  | nil => cases h
  | cons m rest ih =>
    cases h with
    | last hmember => exact List.forall_mem_singleton.2 ⟨_, hmember⟩
    | cons hmember hrest => exact List.forall_mem_cons.2 ⟨⟨_, hmember⟩, ih hrest⟩

/-- The members of the object of a text. -/
theorem SpelledText.areSpelled (h : SpelledText (.obj ms) t) : AreSpelled ms := by
  obtain ⟨-, hvalue, -⟩ := h
  cases hvalue with
  | emptyObject => exact List.forall_mem_nil _
  | object hmembers => exact areSpelled_of_members hmembers

/-- The name of such a member is read as the text that it denotes. -/
theorem AreSpelled.text?_iff {k : List Piece} {s : Text} (h : AreSpelled ms) (hm : (k, v) ∈ ms) :
    Piece.text? k = some s ↔ Denotes k s := by
  obtain ⟨_, hkey⟩ := h _ hm
  cases hkey with
  | mk _ hkey _ _ => exact Piece.text?_eq_some_iff hkey

/-- And its value is spelled too. -/
theorem AreSpelled.value (h : AreSpelled ms) (hgives : Gives name ms vs) (hv : v ∈ vs) :
    ∃ s, SpelledText v s := by
  obtain ⟨k, hk, -⟩ := hgives.exists_mem hv
  obtain ⟨_, hmember⟩ := h _ hk
  cases hmember with
  | mk _ _ _ hvalue => exact ⟨_, hvalue⟩

theorem named?_cons (k : List Piece) (v : Tree) (ms : List (List Piece × Tree)) :
    named? ((k, v) :: ms) =
      (Piece.text? k).bind fun s => (named? ms).bind fun l => some ((s, v) :: l) := by
  rw [named?, List.mapM_cons]
  dsimp only
  cases Piece.text? k <;> rfl

/-- **What is given to a name** is what remains of the named members when
all others are dropped. -/
theorem gives_iff (h : AreSpelled ms) :
    Gives name ms vs ↔ ∃ l, named? ms = some l ∧ (l.filter (·.1 = name)).map (·.2) = vs := by
  constructor
  · intro hgives
    clear h
    induction hgives with
    | nil => exact ⟨[], rfl, rfl⟩
    | here hname _ ih =>
      obtain ⟨l, hl, hvs⟩ := ih
      refine ⟨_, by rw [named?_cons, hname.text?, hl]; rfl, ?_⟩
      rw [List.filter_cons_of_pos (by simp), List.map_cons, hvs]
    | other hs hother _ ih =>
      obtain ⟨l, hl, hvs⟩ := ih
      refine ⟨_, by rw [named?_cons, hs.text?, hl]; rfl, ?_⟩
      rw [List.filter_cons_of_neg (by simpa using hother), hvs]
  · rintro ⟨l, hl, rfl⟩
    induction ms generalizing l with
    | nil =>
      cases hl
      exact .nil
    | cons m ms ih =>
      obtain ⟨k, v⟩ := m
      rw [named?_cons] at hl
      obtain ⟨s, hs, hrest⟩ := Option.bind_eq_some_iff.1 hl
      obtain ⟨rest, hms, heq⟩ := Option.bind_eq_some_iff.1 hrest
      cases heq
      have hdenotes := (h.text?_iff List.mem_cons_self).1 hs
      have hgives := ih (List.forall_mem_cons.1 h).2 rest hms
      by_cases hname : s = name
      · subst hname
        rw [List.filter_cons_of_pos (by simp)]
        exact .here hdenotes hgives
      · rw [List.filter_cons_of_neg (by simpa using hname)]
        exact .other hdenotes hname hgives

/-- So it can be computed. -/
theorem gives_of_named (h : AreSpelled ms) {l : List (Text × Tree)} (hl : named? ms = some l)
    (name : Text) : Gives name ms ((l.filter (·.1 = name)).map (·.2)) :=
  (gives_iff h).2 ⟨l, hl, rfl⟩

/-! ## Fields -/

/-- The one value of a name, or none. -/
theorem unique?_eq_some_iff {l : List (Text × Tree)} {value : Option Tree} :
    unique? l name = some value ↔ (l.filter (·.1 = name)).map (·.2) = value.toList := by
  rw [unique?]
  generalize l.filter (·.1 = name) = found
  match found, value with
  | [], none => exact iff_of_true rfl rfl
  | [], some _ => exact iff_of_false nofun nofun
  | [_], none => exact iff_of_false nofun nofun
  | [(_, v)], some w => simp
  | _ :: _ :: _, none => exact iff_of_false nofun nofun
  | _ :: _ :: _, some _ => exact iff_of_false nofun (by simp)

/-- What every pair of two lists gives the second of the two. -/
theorem forall_mem_of_forall₂ {α β : Type} {R : α → β → Prop} {P : β → Prop} {xs : List α}
    {ys : List β} (h : List.Forall₂ R xs ys) (hP : ∀ x y, R x y → P y) : ∀ y ∈ ys, P y := by
  induction h with
  | nil => exact List.forall_mem_nil P
  | cons hxy _ ih => exact List.forall_mem_cons.2 ⟨hP _ _ hxy, ih⟩

/-- **The fields that are read are those that are given**, each once or not
at all. -/
theorem fields?_obj_iff (h : AreSpelled ms) {names : List Text} (hnames : names ≠ [])
    (values : List (Option Tree)) : (obj ms).fields? names = some values ↔
      List.Forall₂ (fun name value => Gives name ms value.toList) names values := by
  constructor
  · intro hread
    obtain ⟨l, hl, hread⟩ := Option.bind_eq_some_iff.1 hread
    refine (Option.mapM_eq_some_iff.1 hread).imp fun name value hvalue => ?_
    exact (gives_iff h).2 ⟨l, hl, unique?_eq_some_iff.1 hvalue⟩
  · intro hgiven
    -- the first field tells how the members are named
    obtain ⟨l, hl⟩ : ∃ l, named? ms = some l := by
      cases hgiven with
      | nil => exact absurd rfl hnames
      | cons hgives _ =>
        obtain ⟨l, hl, -⟩ := (gives_iff h).1 hgives
        exact ⟨l, hl⟩
    refine Option.bind_eq_some_iff.2 ⟨l, hl, Option.mapM_eq_some_iff.2 (hgiven.imp ?_)⟩
    intro name value hgives
    obtain ⟨l', hl', hvalue⟩ := (gives_iff h).1 hgives
    cases hl.symm.trans hl'
    exact unique?_eq_some_iff.2 hvalue

/-- The elements of the array of a text. -/
theorem SpelledText.items (h : SpelledText (.arr vs) t) : ∀ v ∈ vs, ∃ s, SpelledText v s := by
  have hitems : ∀ {vs : List Tree} {s : Text}, SpelledItems vs s →
      ∀ v ∈ vs, ∃ s, SpelledText v s := by
    intro vs s h
    induction vs generalizing s with
    | nil => cases h
    | cons v rest ih =>
      cases h with
      | last hvalue => exact List.forall_mem_singleton.2 ⟨_, hvalue⟩
      | cons hvalue hrest => exact List.forall_mem_cons.2 ⟨⟨_, hvalue⟩, ih hrest⟩
  obtain ⟨-, hvalue, -⟩ := h
  cases hvalue with
  | emptyArray => exact List.forall_mem_nil _
  | array h => exact hitems h

/-- An array gives all fields if it has as many elements, and then it gives
these. -/
theorem fields?_arr_iff {names : List Text} {items values : List Tree}
    (h : values.length = names.length) :
    (arr items).fields? names = some (values.map some) ↔ items = values := by
  constructor
  · intro hread
    obtain ⟨hle, hread⟩ := Option.ite_none_right_eq_some.1 hread
    have hvalues := Option.some.inj hread
    have hnone : (none : Option Tree) ∉ values.map some := by simp
    have hfull : names.length - items.length = 0 := by
      by_contra hne
      refine hnone ?_
      rw [← hvalues]
      exact List.mem_append_right _ (List.mem_replicate.2 ⟨hne, rfl⟩)
    rw [hfull, List.replicate_zero, List.append_nil] at hvalues
    exact List.map_injective_iff.2 (fun _ _ => Option.some.inj) hvalues
  · rintro rfl
    rw [fields?, if_pos (Nat.le_of_eq h), h, Nat.sub_self, List.replicate_zero, List.append_nil]

/-- The fields of a text are spelled in it. -/
theorem spelled_of_fields? {names : List Text} {values : List (Option Tree)}
    (h : SpelledText v t) (hread : v.fields? names = some values) :
    ∀ i, some i ∈ values → ∃ s, SpelledText i s := by
  intro i hi
  cases v with
  | obj ms =>
    obtain ⟨l, hl, hread⟩ := Option.bind_eq_some_iff.1 hread
    have hspelled : ∀ value ∈ values, ∀ i ∈ value, ∃ s, SpelledText i s := by
      refine forall_mem_of_forall₂ (Option.mapM_eq_some_iff.1 hread) fun name value hvalue i hi => ?_
      have hgives := (gives_iff h.areSpelled).2 ⟨l, hl, unique?_eq_some_iff.1 hvalue⟩
      exact h.areSpelled.value hgives (Option.mem_toList.2 hi)
    exact hspelled _ hi i rfl
  | arr items =>
    obtain ⟨-, hread⟩ := Option.ite_none_right_eq_some.1 hread
    rw [← Option.some.inj hread] at hi
    rcases List.mem_append.1 hi with hi | hi
    · obtain ⟨j, hj, heq⟩ := List.mem_map.1 hi
      cases heq
      exact h.items i hj
    · cases List.eq_of_mem_replicate hi
  | _ => cases hread

/-! ## The values of fields -/

/-- A string that denotes a text. -/
def IsText (s : Text) (v : Tree) : Prop := ∃ ps, v = .str ps ∧ Denotes ps s

/-- The digits of a 64-bit count, with no sign, point or exponent. -/
def IsWord (w : UInt64) (v : Tree) : Prop :=
  ∃ digits, v = .num ⟨false, digits, [], none⟩ ∧ Text.toNat digits = w.toNat

theorem text?_eq_some_iff {s : Text} (h : SpelledText v t) : v.text? = some s ↔ IsText s v := by
  obtain ⟨-, hvalue, -⟩ := h
  cases hvalue with
  | str hpieces =>
    constructor
    · exact fun hs => ⟨_, rfl, (Piece.text?_eq_some_iff hpieces).1 hs⟩
    · rintro ⟨_, ⟨⟩, hs⟩
      exact hs.text?
  | _ => exact iff_of_false nofun (by rintro ⟨_, ⟨⟩, _⟩)

/-- A numeral is an integer that is not negative exactly if it is a run of
digits. -/
theorem integer?_eq_ofNat_iff {n : Numeral} {k : Nat} :
    n.integer? = some (k : Int) ↔
      ∃ digits, n = ⟨false, digits, [], none⟩ ∧ Text.toNat digits = k := by
  constructor
  · intro h
    obtain ⟨negative, whole, fraction, exponent⟩ := n
    rw [Numeral.integer?] at h
    obtain ⟨hplain, h⟩ := Option.ite_none_right_eq_some.1 h
    simp only [Bool.and_eq_true, List.isEmpty_iff, Option.isNone_iff_eq_none] at hplain
    obtain ⟨rfl, rfl⟩ := hplain
    cases negative with
    | false =>
      cases Option.some.inj h
      exact ⟨whole, rfl, rfl⟩
    | true =>
      obtain ⟨hzero, h⟩ := Option.ite_none_left_eq_some.1 h
      have := Option.some.inj h
      dsimp only at this hzero
      omega
  · rintro ⟨digits, rfl, rfl⟩
    rfl

/-- A number fits a word if it is the count of one. -/
theorem ofNat_eq_iff {k : Nat} {w : UInt64} (hk : k < UInt64.size) :
    UInt64.ofNat k = w ↔ k = w.toNat := by
  rw [← UInt64.toNat_inj, UInt64.toNat_ofNat_of_lt' hk]

theorem word?_eq_some_iff {w : UInt64} : v.word? = some w ↔ IsWord w v := by
  cases v with
  | num n =>
    have hword : (num n).word? = some w ↔ n.integer? = some (w.toNat : Int) := by
      rw [word?]
      constructor
      · intro h
        obtain ⟨i, hi, h⟩ := Option.bind_eq_some_iff.1 h
        obtain ⟨⟨hnonneg, hlt⟩, h⟩ := Option.ite_none_right_eq_some.1 h
        have hi' := (ofNat_eq_iff (by omega)).1 (Option.some.inj h)
        rw [hi, ← hi', Int.toNat_of_nonneg hnonneg]
      · intro h
        have hfits : 0 ≤ (w.toNat : Int) ∧ (w.toNat : Int) < UInt64.size :=
          ⟨Int.natCast_nonneg _, Int.ofNat_lt.2 w.toNat_lt_size⟩
        have hback : UInt64.ofNat w.toNat = w := (ofNat_eq_iff w.toNat_lt_size).2 rfl
        exact Option.bind_eq_some_iff.2
          ⟨_, h, Option.ite_none_right_eq_some.2 ⟨hfits, congrArg some hback⟩⟩
    rw [hword, integer?_eq_ofNat_iff]
    constructor
    · rintro ⟨digits, rfl, hvalue⟩
      exact ⟨digits, rfl, hvalue⟩
    · rintro ⟨digits, ⟨⟩, hvalue⟩
      exact ⟨digits, rfl, hvalue⟩
  | _ => exact iff_of_false nofun (by rintro ⟨_, ⟨⟩, _⟩)

theorem flag?_eq_some_iff {b : Bool} : v.flag? = some b ↔ v = .bool b := by
  cases v with
  | bool c =>
    constructor
    · exact fun h => congrArg bool (Option.some.inj h)
    · exact fun h => congrArg some (bool.inj h)
  | _ => exact iff_of_false nofun nofun

/-! ## Written records -/

section

variable {number? : Numeral → Option Number} {members : List (Text × Json)}

/-- **Members that denote those of a value** give, for every name, the
trees of its values. -/
theorem exists_gives (hspelled : AreSpelled ms) (h : toMembers? number? ms = some members)
    (name : Text) : ∃ vs, Gives name ms vs ∧
      List.Forall₂ (fun v m => v.toJson? number? = some m.2) vs (members.filter (·.1 = name)) := by
  induction ms generalizing members with
  | nil =>
    cases h
    exact ⟨[], .nil, .nil⟩
  | cons m ms ih =>
    obtain ⟨k, v⟩ := m
    obtain ⟨s, hs, hrest⟩ := Option.bind_eq_some_iff.1 h
    obtain ⟨value, hvalue, hrest⟩ := Option.bind_eq_some_iff.1 hrest
    obtain ⟨rest, hms, heq⟩ := Option.bind_eq_some_iff.1 hrest
    cases heq
    obtain ⟨vs, hgives, hvs⟩ := ih (List.forall_mem_cons.1 hspelled).2 hms
    have hdenotes := (hspelled.text?_iff List.mem_cons_self).1 hs
    by_cases hname : s = name
    · subst hname
      rw [List.filter_cons_of_pos (by simp)]
      exact ⟨v :: vs, .here hdenotes hgives, .cons hvalue hvs⟩
    · rw [List.filter_cons_of_neg (by simpa using hname)]
      exact ⟨vs, .other hdenotes hname hgives, hvs⟩

/-- A string of a value is a text. -/
theorem text?_of_toJson? {s : Text} (h : v.toJson? number? = some (.str s)) : v.text? = some s := by
  cases v with
  | null | bool => cases h
  | str ps =>
    obtain ⟨s, hs, heq⟩ := Option.bind_eq_some_iff.1 h
    cases heq
    exact hs
  | _ =>
    obtain ⟨x, -, heq⟩ := Option.bind_eq_some_iff.1 h
    cases heq

theorem eq_bool_of_toJson? {b : Bool} (h : v.toJson? number? = some (.bool b)) : v = .bool b := by
  cases v with
  | null => cases h
  | bool =>
    cases h
    rfl
  | _ =>
    obtain ⟨x, -, heq⟩ := Option.bind_eq_some_iff.1 h
    cases heq

/-- A count is spelled by its digits. -/
theorem isWord_of_toJson? {w : UInt64}
    (h : v.toJson? Numeral.rounded? = some (.num (.ofWord w))) : IsWord w v := by
  cases v with
  | null | bool => cases h
  | num n =>
    obtain ⟨number, hnumber, heq⟩ := Option.bind_eq_some_iff.1 h
    cases heq
    obtain ⟨digits, rfl, hvalue⟩ := integer?_eq_ofNat_iff.1 (Numeral.integer?_of_rounded? hnumber)
    exact ⟨digits, rfl, hvalue⟩
  | _ =>
    obtain ⟨x, -, heq⟩ := Option.bind_eq_some_iff.1 h
    cases heq

end

/-- **The compact text of a record** gives every name that the record has
once the value that it has there. -/
theorem exists_compact {members : List (Text × Json)} (hne : members ≠ [])
    (h : Json.MembersDistinct members) : ∃ ms, SpelledText (.obj ms) (Json.obj members).compact ∧
      ∀ name value, members.filter (·.1 = name) = [(name, value)] →
        ∃ v s, Gives name ms [v] ∧ SpelledText v s ∧ v.toJson? Numeral.rounded? = some value := by
  obtain ⟨ms, hvalues, hspelled⟩ := Json.spelled_members members hne h
  have hmembers := areSpelled_of_members hspelled
  refine ⟨ms, (Spelled.object hspelled).text, fun name value hone => ?_⟩
  obtain ⟨vs, hgives, hvs⟩ := exists_gives hmembers hvalues name
  rw [hone] at hvs
  obtain ⟨v, _, hv, hnil, rfl⟩ := List.forall₂_cons_right_iff.1 hvs
  cases hnil
  obtain ⟨s, hs⟩ := hmembers.value hgives List.mem_cons_self
  exact ⟨v, s, hgives, hs, hv⟩

end Tree

end DocQuery
