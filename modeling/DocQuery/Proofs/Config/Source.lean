import DocQuery.Collection
import DocQuery.Proofs.Collection.Readable
import DocQuery.Proofs.Config.Record
import DocQuery.Proofs.Sequence
/-!
# The source of a valid configuration

A configuration is validated by the segments of its path, from the front,
and queries are written with the last of them, from the back. What joins
the two is that a path is its segments with a dot between neighbours
(`intercalate_segments`). So an empty segment shows in the path itself, as
a dot at an end or as two that meet (`nil_mem_segments_iff`), and the last
segment is what the path ends in, alone or behind a dot
(`path_eq_source_or`). Validity is said of the path by characters alone
in `source_of_validate`, and every query on the default collection of a
valid configuration names a source that is not empty.
-/

namespace DocQuery

namespace Collection

variable {t s : Text} {c : Collection}

/-! ## Segments -/

/-- The segments are what is left when a path is split at its dots. -/
theorem segments_eq_splitOn (t : Text) : segments t = t.splitOn '.' := by
  induction t with
  | nil => rfl
  | cons x t ih =>
    rw [segments, ih, List.splitOn_cons_eq_if_modifyHead]
    by_cases hx : x = '.'
    · rw [if_pos hx, if_pos (beq_iff_eq.2 hx)]
    · rw [if_neg hx, if_neg (mt beq_iff_eq.1 hx)]
      cases hsplit : t.splitOn '.' with
      | nil => exact absurd hsplit (List.splitOn_ne_nil _ _)
      | cons first others => rfl

theorem segments_ne_nil (t : Text) : segments t ≠ [] := by
  rw [segments_eq_splitOn]
  exact List.splitOn_ne_nil _ _

/-- **A path is its segments with a dot between neighbours.** -/
theorem intercalate_segments (t : Text) : List.intercalate ['.'] (segments t) = t := by
  rw [segments_eq_splitOn]
  exact List.intercalate_splitOn '.'

/-- A dot parts the segments in front of it from those behind it. -/
theorem segments_append_dot (s t : Text) : segments (s ++ '.' :: t) = segments s ++ segments t := by
  simp only [segments_eq_splitOn]
  exact List.splitOn_append_cons_self s t

/-- No segment has a dot in it. -/
theorem dot_notMem_of_mem_segments (h : s ∈ segments t) : '.' ∉ s := by
  induction t generalizing s with
  | nil =>
    rw [List.mem_singleton.1 h]
    exact List.not_mem_nil
  | cons x t ih =>
    rw [segments] at h
    split at h
    · rcases List.mem_cons.1 h with rfl | h
      · exact List.not_mem_nil
      · exact ih h
    · rename_i hx
      cases hsplit : segments t with
      | nil => exact absurd hsplit (segments_ne_nil t)
      | cons first others =>
        rw [hsplit] at h ih
        rcases List.mem_cons.1 h with rfl | h
        · exact List.not_mem_cons_of_ne_of_not_mem (Ne.symm hx) (ih List.mem_cons_self)
        · exact ih (List.mem_cons_of_mem first h)

/-- **A path has an empty segment** if it is empty, if a dot stands at
either end, and if two dots meet; and otherwise it has none. -/
theorem nil_mem_segments_iff : [] ∈ segments t ↔
    t = [] ∨ t.head? = some '.' ∨ t.getLast? = some '.' ∨ ['.', '.'] <:+: t := by
  constructor
  · intro h
    obtain ⟨before, after, hsplit⟩ := List.append_of_mem h
    have ht := intercalate_segments t
    rw [hsplit] at ht
    subst ht
    -- the empty segment stands between two bounds, each of them a dot or an end of the path
    cases after with
    | nil =>
      by_cases hbefore : before = []
      · subst hbefore
        exact .inl rfl
      · rw [Text.intercalate_append hbefore (List.cons_ne_nil _ _)]
        exact .inr (.inr (.inl List.getLast?_concat))
    | cons a after =>
      by_cases hbefore : before = []
      · subst hbefore
        exact .inr (.inl rfl)
      · rw [Text.intercalate_append hbefore (List.cons_ne_nil _ _), Text.intercalate_cons]
        exact .inr (.inr (.inr ⟨_, _, List.append_assoc _ _ _⟩))
  · rintro (rfl | h | h | ⟨front, back, rfl⟩)
    · exact List.mem_singleton_self []
    · obtain ⟨rest, rfl⟩ := List.head?_eq_some_iff.1 h
      exact List.mem_cons_self
    · obtain ⟨rest, rfl⟩ := List.getLast?_eq_some_iff.1 h
      rw [segments_append_dot]
      exact List.mem_append_right _ (List.mem_singleton_self [])
    · rw [List.append_assoc]
      change [] ∈ segments (front ++ '.' :: ('.' :: back))
      rw [segments_append_dot]
      exact List.mem_append_right _ List.mem_cons_self

/-! ## Sources -/

/-- The source is the last of the segments. -/
theorem segments_eq_concat (c : Collection) :
    segments c.path = (segments c.path).dropLast ++ [c.source] := by
  have hne := segments_ne_nil c.path
  rw [source, List.getLastD_eq_getLast?, List.getLast?_eq_some_getLast hne]
  exact (List.dropLast_concat_getLast hne).symm

theorem source_mem_segments (c : Collection) : c.source ∈ segments c.path := by
  rw [segments_eq_concat c]
  exact List.mem_append_right _ (List.mem_singleton_self _)

/-- **A path ends in its source**, alone or behind a dot. -/
theorem path_eq_source_or (c : Collection) :
    c.path = c.source ∨ ∃ front, c.path = front ++ '.' :: c.source := by
  have hjoin := intercalate_segments c.path
  by_cases hfront : (segments c.path).dropLast = []
  · rw [segments_eq_concat, hfront, List.nil_append, List.intercalate_singleton] at hjoin
    exact .inl hjoin.symm
  · rw [segments_eq_concat, Text.intercalate_append hfront (List.cons_ne_nil _ _),
      List.intercalate_singleton] at hjoin
    exact .inr ⟨_, hjoin.symm⟩

/-- **Where no segment is empty the source is not**, and neither is what
stands in front of its dot. -/
theorem source_of_nil_notMem (h : [] ∉ segments c.path) :
    c.source ≠ [] ∧ '.' ∉ c.source ∧
      (c.path = c.source ∨ ∃ front, front ≠ [] ∧ c.path = front ++ '.' :: c.source) := by
  have hmem := source_mem_segments c
  refine ⟨fun hnil => h (hnil ▸ hmem), dot_notMem_of_mem_segments hmem, ?_⟩
  rcases path_eq_source_or c with hpath | ⟨front, hpath⟩
  · exact .inl hpath
  · refine .inr ⟨front, fun hnil => h (nil_mem_segments_iff.2 (.inr (.inl ?_))), hpath⟩
    rw [hpath, hnil]
    rfl

/-! ## Queries that name their source -/

/-- **What names a source behind `FROM`**: the source alone, a view of all
its fields, or a view of one of them. -/
inductive Names (source : Text) : Text → Prop
  | alone : Names source source
  /-- A view of all fields. -/
  | view {name : Text} (isView : name ∈ ["LIST_WORDS".toList, "ALTERNATIVES".toList]) :
      Names source (name ++ '(' :: (source ++ [')']))
  /-- A view of one field. -/
  | viewField {name field : Text} (isView : name ∈ ["LIST_WORDS".toList, "ALTERNATIVES".toList]) :
      Names source (name ++ '(' :: (source ++ '.' :: (field ++ [')'])))

/-- What a query reads from names the source of the collection. -/
theorem names_viewed (c : Collection) (s : Scope) : Names c.source (c.viewed s) := by
  have hview : ∀ name field : Text, name ∈ ["LIST_WORDS".toList, "ALTERNATIVES".toList] →
      Names c.source (view name c.source field) := by
    intro name field hname
    cases field with
    | nil => exact .view hname
    | cons x field => exact .viewField hname
  rw [viewed]
  split
  · exact hview _ _ (by decide)
  · exact hview _ _ (by decide)
  · exact .alone

/-- **A query that selects from a source**, up to what it reads from. -/
def SelectsFrom (source : Text) (s : Scope) (query : Text) : Prop :=
  ∃ origin rest : Text, Names source origin ∧
    query = s.prepend ++ "SELECT ".toList ++ s.select ++ " FROM ".toList ++ origin ++ ' ' :: rest

theorem selectsFrom_query (c : Collection) (s : Scope) : SelectsFrom c.source s (c.query s) := by
  refine ⟨c.viewed s, joinSection s.join ++ sections s, names_viewed c s, ?_⟩
  have hselect : "SELECT ".toList = "SELECT".toList ++ [' '] := rfl
  have hfrom : " FROM ".toList = [' '] ++ "FROM".toList ++ [' '] := rfl
  rw [query_eq, hselect, hfrom]
  simp only [List.append_assoc, List.cons_append, List.nil_append]

end Collection

namespace Config

open Collection

variable {c c' : Config} {t : Text}

/-! ## Valid configurations -/

/-- What a configuration is validated by. -/
theorem validate_eq_ok_iff : c.validate = .ok c' ↔
    c' = c ∧ c.database.isBlank = false ∧ [] ∉ segments c.database := by
  have hempty : c.collection.hasEmptySegment ↔ [] ∈ segments c.database := by
    rw [hasEmptySegment, List.any_eq_true]
    simp [Config.collection]
  rw [← hempty, Bool.not_eq_true]
  constructor
  · intro h
    unfold validate at h
    split at h
    · cases h
    split at h
    · cases h
    · rename_i hblank hsegments
      cases h
      exact ⟨rfl, Bool.eq_false_of_not_eq_true hblank, Bool.eq_false_of_not_eq_true hsegments⟩
  · rintro ⟨rfl, hblank, hsegments⟩
    rw [validate, hblank, hsegments]
    rfl

/-- **Validity by characters**: the path has something but white space in
it, no dot at either end, and no two dots that meet. -/
theorem exists_validate_iff : (∃ c', c.validate = .ok c') ↔
    (∃ x ∈ c.database, Text.isSpace x = false) ∧ c.database.head? ≠ some '.' ∧
      c.database.getLast? ≠ some '.' ∧ ¬ ['.', '.'] <:+: c.database := by
  have hsolid : c.database.isBlank = false ↔ ∃ x ∈ c.database, Text.isSpace x = false := by
    rw [Text.isBlank, List.all_eq_false]
    simp only [Bool.not_eq_true]
  simp only [validate_eq_ok_iff, exists_eq_left, nil_mem_segments_iff, not_or, hsolid]
  refine and_congr_right fun ⟨x, hx, _⟩ => and_iff_right ?_
  exact List.ne_nil_of_mem hx

/-- A configuration that is read has been validated. -/
theorem validate_of_read (h : read t = .ok c) : c.validate = .ok c := by
  rw [read] at h
  split at h
  · obtain rfl := eq_of_validate h
    exact h
  · cases h

/-- **The default collection of a valid configuration has a source.** A
configuration is valid exactly if its path has something but white space in
it, no dot at either end, and no two dots that meet. One that was validated,
or read, has a default collection whose source is not empty and has no dot;
the path is the source, or some text, a dot and the source. The query of
every scope on that collection selects from the source, and every update
of a record by a document changes it. -/
theorem valid_iff_and_names_source (c : Config) :
    ((∃ c', c.validate = .ok c') ↔
      (∃ x ∈ c.database, Text.isSpace x = false) ∧ c.database.head? ≠ some '.' ∧
        c.database.getLast? ≠ some '.' ∧ ¬ ['.', '.'] <:+: c.database) ∧
    ∀ c' : Config, (c.validate = .ok c' ∨ ∃ t, read t = .ok c') →
      let source := c'.collection.source
      (source ≠ [] ∧ '.' ∉ source ∧
        (c'.database = source ∨ ∃ front, front ≠ [] ∧ c'.database = front ++ '.' :: source)) ∧
      (∀ s : Scope, SelectsFrom source s (c'.collection.query s)) ∧
      ∀ start id members r, c'.collection.request start (.update id (.obj members)) = .ok r →
        ∃ rest, r.query = "UPDATE ".toList ++ source ++ "[\"".toList ++ rest := by
  refine ⟨exists_validate_iff, fun c' h => ⟨?_, selectsFrom_query c'.collection, ?_⟩⟩
  · have hvalid : c'.validate = .ok c' := by
      rcases h with h | ⟨t, h⟩
      · obtain rfl := eq_of_validate h
        exact h
      · exact validate_of_read h
    exact source_of_nil_notMem (validate_eq_ok_iff.1 hvalid).2.2
  · intro start id members r hr
    obtain ⟨text, -, hr⟩ := Except.ok_of_bind hr
    cases hr
    exact ⟨_, (List.append_assoc _ _ _).trans (List.append_assoc _ _ _)⟩

/-- A configuration whose path is a space, a dot and a name with a space in
it. -/
def spacedPath : Config := { database := " .a b".toList }

/-- Its queries name all that is behind the dot; and a path in which two
dots meet is not valid. -/
theorem valid_iff_and_names_source_spaced :
    spacedPath.validate = .ok spacedPath ∧
    (spacedPath.collection.source = "a b".toList ∧ "a b".toList ≠ [] ∧ '.' ∉ "a b".toList) ∧
    SelectsFrom "a b".toList { listWords := some [] }
      (spacedPath.collection.query { listWords := some [] }) ∧
    (∃ r rest, spacedPath.collection.request {} (.update (.str ['7']) (.obj [])) = .ok r ∧
      r.query = "UPDATE ".toList ++ "a b".toList ++ "[\"".toList ++ rest) ∧
    ¬ ∃ c', ({ database := "a..b".toList } : Config).validate = .ok c' := by
  have hvalid : spacedPath.validate = .ok spacedPath := rfl
  have hsource : spacedPath.collection.source = "a b".toList := rfl
  obtain ⟨-, hnames⟩ := valid_iff_and_names_source spacedPath
  obtain ⟨⟨hne, hdot, -⟩, hselects, hupdates⟩ := hnames spacedPath (.inl hvalid)
  obtain ⟨rest, hrest⟩ := hupdates {} (.str ['7']) [] _ rfl
  refine ⟨hvalid, ⟨hsource, hne, hdot⟩, hselects _, ⟨_, rest, rfl, hrest⟩, fun hdots => ?_⟩
  obtain ⟨-, -, -, hmeet⟩ := (valid_iff_and_names_source { database := "a..b".toList }).1.1 hdots
  exact hmeet (by decide)

end Config

end DocQuery
