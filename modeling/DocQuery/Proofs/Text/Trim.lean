import DocQuery.Text.Basic
/-!
# What trimming leaves

Trimming takes the white space away from both ends of a text. What is left
is the text between white space that has none at its own ends
(`trimsTo_iff`), and there is only one.
-/

namespace DocQuery

namespace Text

variable {t s front back : Text}

/-- A text does not begin with white space. -/
def BeginsSolid (t : Text) : Prop := t.head?.all (!isSpace ·)

/-- A text does not end with white space. -/
def EndsSolid (t : Text) : Prop := t.getLast?.all (!isSpace ·)

/-- **A text is another one but for white space around it**, and has none
at its own ends. -/
structure TrimsTo (t s : Text) : Prop where
  /-- The other text has white space around this one. -/
  split : ∃ front back : Text, front.isBlank ∧ back.isBlank ∧ t = front ++ s ++ back
  /-- This one does not begin with white space. -/
  begins : BeginsSolid s
  /-- And it does not end with it. -/
  ends : EndsSolid s

theorem endsSolid_iff_reverse : EndsSolid t ↔ BeginsSolid t.reverse := by
  rw [BeginsSolid, List.head?_reverse, EndsSolid]

theorem isBlank_reverse : isBlank t.reverse = isBlank t := List.all_reverse

/-- What is left of a text without the white space in front begins with
none. -/
theorem beginsSolid_dropWhile (t : Text) : BeginsSolid (t.dropWhile isSpace) := by
  have hhead := List.head?_dropWhile_not isSpace t
  rw [BeginsSolid]
  cases hsplit : (t.dropWhile isSpace).head? with
  | none => rfl
  | some c =>
    rw [hsplit] at hhead
    simpa using hhead

/-- White space in front is dropped up to the first other character. -/
theorem dropWhile_append (hfront : front.isBlank) (ht : BeginsSolid t) :
    (front ++ t).dropWhile isSpace = t := by
  have hspaces : ∀ c ∈ front, isSpace c := List.all_eq_true.1 hfront
  rw [List.dropWhile_append_of_pos hspaces]
  cases t with
  | nil => rfl
  | cons c t =>
    have hc : ¬ isSpace c := by simpa [BeginsSolid] using ht
    exact List.dropWhile_cons_of_neg hc

/-- And white space behind is dropped likewise. -/
theorem trimEnd_append (hback : back.isBlank) (ht : EndsSolid t) : trimEnd (t ++ back) = t := by
  have hdrop := dropWhile_append (isBlank_reverse.trans hback) (endsSolid_iff_reverse.1 ht)
  rw [trimEnd, List.reverse_append, hdrop, List.reverse_reverse]

/-- What is left of a text without the white space behind ends with none,
and together with that white space it is the text. -/
theorem exists_trimEnd_append (t : Text) : EndsSolid t.trimEnd ∧
    ∃ back : Text, back.isBlank ∧ t = t.trimEnd ++ back := by
  have hsolid := beginsSolid_dropWhile t.reverse
  have hsplit : t.reverse.takeWhile isSpace ++ t.reverse.dropWhile isSpace = t.reverse :=
    List.takeWhile_append_dropWhile
  have hblank : isBlank (t.reverse.takeWhile isSpace) := List.all_takeWhile
  refine ⟨endsSolid_iff_reverse.2 ?_, (t.reverse.takeWhile isSpace).reverse,
    isBlank_reverse.trans hblank, ?_⟩
  · rw [trimEnd, List.reverse_reverse]
    exact hsolid
  · rw [trimEnd, ← List.reverse_append, hsplit, List.reverse_reverse]

/-- **Trimming a text leaves the one text that it is but for white space
around it.** -/
theorem trimsTo_iff : TrimsTo t s ↔ s = t.trim := by
  constructor
  · rintro ⟨⟨front, back, hfront, hback, rfl⟩, hbegins, hends⟩
    cases s with
    | nil =>
      have hblank : isBlank (front ++ back) := by
        rw [isBlank, List.all_append, Bool.and_eq_true]
        exact ⟨hfront, hback⟩
      have hdrop := dropWhile_append hblank (t := []) rfl
      rw [List.append_nil] at hdrop
      rw [trim, List.append_nil, hdrop]
      rfl
    | cons c s =>
      have hdrop := dropWhile_append hfront (t := c :: s ++ back) hbegins
      rw [trim, List.append_assoc, hdrop, trimEnd_append hback hends]
  · rintro rfl
    obtain ⟨hends, back, hback, hsplit⟩ := exists_trimEnd_append (t.dropWhile isSpace)
    have hfront : isBlank (t.takeWhile isSpace) := List.all_takeWhile
    have hwhole : t.takeWhile isSpace ++ t.dropWhile isSpace = t := List.takeWhile_append_dropWhile
    refine ⟨⟨_, back, hfront, hback, ?_⟩, ?_, hends⟩
    · rw [trim, List.append_assoc, ← hsplit, hwhole]
    · have hbegins := beginsSolid_dropWhile t
      rw [hsplit] at hbegins
      rw [trim]
      cases hleft : trimEnd (t.dropWhile isSpace) with
      | nil => rfl
      | cons c u =>
        rw [hleft] at hbegins
        exact hbegins

end Text

end DocQuery
