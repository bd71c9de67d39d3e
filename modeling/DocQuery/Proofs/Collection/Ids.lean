import DocQuery.Collection
/-!
# Two texts of one id

The id of a record is a text or a number, and it reaches a request in two
ways: spelled as in JSON where one record is addressed, and cast to text
where several are. A spelled double always holds a point or an exponent
(`mark_mem_spelling`), so the two texts agree exactly where the cast keeps
the spelling. `idText_eq_cast_iff` says when deleting one record and deleting the
list of it address the same: for every text, every integer, and every
double but those below `10 ^ 15` that have no fraction.
-/

namespace DocQuery

/-! ## Spelled doubles are no integers -/

theorem Text.isDigit_of_mem_ofInt {i : Int} {c : Char} (h : c ∈ Text.ofInt i) :
    c.isDigit ∨ c = '-' := by
  cases i with
  | ofNat n => exact .inl (isDigit_of_mem_ofNat h)
  | negSucc n =>
    rcases List.mem_cons.1 h with rfl | h
    · exact .inr rfl
    · exact .inl (isDigit_of_mem_ofNat h)

namespace Binary64

theorem point_mem_positional (digits : Text) (k : Int) : '.' ∈ positional digits k := by
  unfold positional
  split
  · simp
  split
  · simp
  · simp

theorem e_mem_exponential (digits : Text) (k : Int) : 'e' ∈ exponential digits k := by
  unfold exponential
  exact List.mem_append_right _ List.mem_cons_self

/-- **A spelled double holds a point or an exponent.** -/
theorem mark_mem_spelling (x : Binary64) : '.' ∈ x.spelling ∨ 'e' ∈ x.spelling := by
  have hlayout : ∀ d : Decimal, '.' ∈ layout d ∨ 'e' ∈ layout d := by
    intro d
    rw [layout]
    split
    · exact .inl (point_mem_positional _ _)
    · exact .inr (e_mem_exponential _ _)
  have hmagnitude : '.' ∈ (if x.isZero then ['0', '.', '0'] else layout x.shortest) ∨
      'e' ∈ (if x.isZero then ['0', '.', '0'] else layout x.shortest) := by
    split
    · exact .inl (by decide)
    · exact hlayout x.shortest
  rw [spelling]
  split
  · exact hmagnitude.imp (List.mem_cons_of_mem _) (List.mem_cons_of_mem _)
  · exact hmagnitude

/-- So it is never the spelling of an integer. -/
theorem spelling_ne_ofInt (x : Binary64) (i : Int) : x.spelling ≠ Text.ofInt i := by
  intro h
  rcases mark_mem_spelling x with hmark | hmark
  · rw [h] at hmark
    exact absurd (Text.isDigit_of_mem_ofInt hmark) (by decide)
  · rw [h] at hmark
    exact absurd (Text.isDigit_of_mem_ofInt hmark) (by decide)

end Binary64

/-! ## Casts that drop the fraction -/

/-- Whether the cast of a number drops a fraction that its spelling has:
the number is a double without a fraction and below the bound. -/
def Number.dropsFraction : Number → Bool
  | .int _ _ => false
  | .float x => x.isIntegral && x.trunc < integerCastBound

/-- **Spelling and cast of a number agree unless the cast drops the
fraction.** -/
theorem Number.spelling_eq_cast_iff (n : Number) :
    n.spelling = n.cast ↔ n.dropsFraction = false := by
  cases n with
  | int i _ => exact ⟨fun _ => rfl, fun _ => rfl⟩
  | float x =>
    rw [cast, dropsFraction]
    split
    · rename_i hdrops
      rw [hdrops]
      exact ⟨fun h => absurd h (x.spelling_ne_ofInt _), fun h => by cases h⟩
    · rename_i hkeeps
      exact ⟨fun _ => by simpa using hkeeps, fun _ => rfl⟩

namespace Json

/-- Whether a value can be the id of a record: a text or a number. -/
def isId : Json → Bool
  | str _ => true
  | num _ => true
  | _ => false

/-- Whether the cast of a value drops a fraction. -/
def dropsFraction : Json → Bool
  | num n => n.dropsFraction
  | _ => false

end Json

namespace Collection

open Call

/-- **When one record and the list of it are addressed alike.** Every text
and number is accepted as the id of a record to delete or to update and in
the list of records to delete. The first two write one text of it, the
list another, and the two are equal unless the id is a double below
`10 ^ 15` without a fraction. -/
theorem idText_eq_cast_iff (c : Collection) (start : Scope) {id : Json} (h : id.isId) :
    ∃ text cast : Text,
      c.request start (.delete id) = .ok ⟨.delete, Request.selector text, [], false⟩ ∧
      (∀ members, c.request start (.update id (.obj members)) =
        .ok (.ofQuery (updateQuery c.source text members) false)) ∧
      c.request start (.deleteMany (.arr [id])) =
        .ok ⟨.delete, [], (Json.arr [.str cast]).compact, false⟩ ∧
      (text = cast ↔ id.dropsFraction = false) := by
  cases id with
  | str s => exact ⟨s, s, rfl, fun _ => rfl, rfl, fun _ => rfl, fun _ => rfl⟩
  | num n => exact ⟨n.spelling, n.cast, rfl, fun _ => rfl, rfl, n.spelling_eq_cast_iff⟩
  | _ => cases h

/-- The double `10 ^ 15`, the least without a fraction that keeps its
spelling. -/
def bound : Binary64 := ⟨false, 4831355200913801216, by decide⟩

/-- At that bound the texts are equal. -/
theorem idText_eq_cast_iff_bound : bound.trunc = tenTo 15 ∧ (Json.num (.float bound)).isId ∧
    ∃ text : Text,
      (Collection.mk "100.books".toList).request {} (.delete (.num (.float bound))) =
        .ok ⟨.delete, Request.selector text, [], false⟩ ∧
      (Collection.mk "100.books".toList).request {} (.deleteMany (.arr [.num (.float bound)])) =
        .ok ⟨.delete, [], (Json.arr [.str text]).compact, false⟩ := by
  have hid : (Json.num (.float bound)).isId := rfl
  have hkeeps : (Json.num (.float bound)).dropsFraction = false := by decide +kernel
  obtain ⟨text, cast, hdelete, -, hmany, hiff⟩ :=
    idText_eq_cast_iff (Collection.mk "100.books".toList) {} hid
  obtain rfl : text = cast := hiff.2 hkeeps
  exact ⟨by decide +kernel, hid, text, hdelete, hmany⟩

/-- The double 2. -/
def two : Binary64 := ⟨false, 1024 * twoTo 52, by decide⟩

/-- The id 2.0 is one record for a deletion and another for a deletion of
the list of it. -/
theorem idText_ne_cast_two :
    (Collection.mk "100.books".toList).request {} (.delete (.num (.float two))) =
      .ok ⟨.delete, "[2.0]".toList, [], false⟩ ∧
    (Collection.mk "100.books".toList).request {} (.deleteMany (.arr [.num (.float two)])) =
      .ok ⟨.delete, [], "[\"2\"]".toList, false⟩ ∧
    Request.selector "2".toList = "[2]".toList := by
  have hspelling : two.spelling = "2.0".toList := by decide +kernel
  have hcast : (Number.float two).cast = "2".toList := by decide +kernel
  refine ⟨?_, ?_, by decide⟩
  · change Except.ok (Request.mk .delete (Request.selector two.spelling) [] false) = _
    rw [hspelling]
    rfl
  · change Except.ok (Request.mk .delete [] (Json.arr [.str (Number.float two).cast]).compact
      false) = _
    rw [hcast]
    rfl

end Collection

end DocQuery
