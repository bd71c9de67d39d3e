import DocQuery.Proofs.Collection.Keywords
import DocQuery.Scope
/-!
# A query text can be read back

`query_eq` writes a query as its sections in their order, each up to the
next keyword. Read from the front, a text without keywords ends where its
keyword stands, the source is known, a view ends at its parenthesis, and
the terms of a grouping or an ordering are parted by commas. So two scopes
with one query are one scope (`eq_of_query_eq`), except for a view of
alternatives that a view of words has displaced and that leaves no trace
in the text.
-/

namespace DocQuery

/-! ## Plain scopes -/

namespace Scope

/-- The texts of a scope that stand in its queries as they are. -/
def texts (s : Scope) : List Text :=
  s.prepend :: s.select :: s.filters ::
    (s.join.toList ++ s.groups ++ s.orders ++ s.listWords.toList ++ s.alternatives.toList)

/-- A scope without keywords in its texts, without commas in its terms,
and without a closing parenthesis in the fields of its views. -/
structure IsPlain (s : Scope) : Prop where
  /-- No text holds a keyword. -/
  keywordFree : ∀ t ∈ s.texts, Collection.KeywordFree t
  /-- No term holds a comma. -/
  comma : ∀ t ∈ s.groups ++ s.orders, ',' ∉ t
  /-- No field of a view holds a closing parenthesis. -/
  parenthesis : ∀ f ∈ s.listWords.toList ++ s.alternatives.toList, ')' ∉ f

namespace IsPlain

variable {s : Scope} (h : s.IsPlain)

include h

theorem keywordFree_groups : ∀ t ∈ s.groups, Collection.KeywordFree t := by
  intro t ht
  exact h.keywordFree t (by simp [texts, ht])

theorem keywordFree_orders : ∀ t ∈ s.orders, Collection.KeywordFree t := by
  intro t ht
  exact h.keywordFree t (by simp [texts, ht])

/-- What is written for the join holds no keyword either. -/
theorem keywordFree_joinSection : Collection.KeywordFree (Collection.joinSection s.join) := by
  rcases hjoin : s.join with _ | text
  · exact Collection.KeywordFree.nil
  · exact (h.keywordFree text (by simp [texts, hjoin])).concat_space

end IsPlain

end Scope

namespace Collection

/-! ## The first stop -/

/-- Two texts without stop characters, each with one behind it, are told
apart by the first stop character. -/
theorem first_stop_cancel {p : Char → Bool} {t₁ t₂ r₁ r₂ : Text} {c₁ c₂ : Char}
    (h₁ : ∀ c ∈ t₁, p c = false) (h₂ : ∀ c ∈ t₂, p c = false) (hc₁ : p c₁)
    (hc₂ : p c₂) (h : t₁ ++ c₁ :: r₁ = t₂ ++ c₂ :: r₂) : t₁ = t₂ ∧ c₁ = c₂ ∧ r₁ = r₂ := by
  have hspan : ∀ (t r : Text) (c : Char), (∀ x ∈ t, p x = false) → p c →
      (t ++ c :: r).takeWhile (!p ·) = t := by
    intro t r c ht hc
    rw [List.takeWhile_append_of_pos (by simpa using ht), List.takeWhile_cons_of_neg (by simp [hc]),
      List.append_nil]
  obtain rfl : t₁ = t₂ := by rw [← hspan t₁ r₁ c₁ h₁ hc₁, h, hspan t₂ r₂ c₂ h₂ hc₂]
  exact ⟨rfl, List.cons_eq_cons.1 (List.append_cancel_left h)⟩

/-! ## Views -/

/-- The view that a query reads through, if it reads through one: its name
and its field. -/
def window? (s : Scope) : Option (Text × Text) :=
  match s.listWords, s.alternatives with
  | some field, _ => some ("LIST_WORDS".toList, field)
  | none, some field => some ("ALTERNATIVES".toList, field)
  | none, none => none

/-- The name of a view has neither space nor parenthesis. -/
theorem name_of_window? {s : Scope} {name field : Text} (h : window? s = some (name, field)) :
    ∀ c ∈ name, (c == ' ' || c == '(') = false := by
  unfold window? at h
  split at h
  · cases h
    simp
  · cases h
    simp
  · cases h

/-- The field of a view is one of the fields of the scope. -/
theorem field_of_window? {s : Scope} {name field : Text} (h : window? s = some (name, field)) :
    field ∈ s.listWords.toList ++ s.alternatives.toList := by
  unfold window? at h
  split at h <;> simp_all

/-- The view of words is in the text whenever there is one, and the view of
alternatives where there is no view of words. -/
theorem views_of_window? {s₁ s₂ : Scope} (h : window? s₁ = window? s₂) :
    s₁.listWords = s₂.listWords ∧ (s₁.listWords = none → s₁.alternatives = s₂.alternatives) := by
  unfold window? at h
  split at h <;> split at h <;> simp_all

variable {c : Collection}

theorem viewed_of_none {s : Scope} (h : window? s = none) : c.viewed s = c.source := by
  unfold window? at h
  unfold viewed
  split at h <;> simp_all

theorem viewed_of_some {s : Scope} {name field : Text} (h : window? s = some (name, field)) :
    c.viewed s = view name c.source field := by
  unfold window? at h
  unfold viewed
  split at h <;> simp_all

/-- **A view is known from the text**, and so is where it ends. -/
theorem view_cancel {source name₁ name₂ field₁ field₂ t₁ t₂ : Text}
    (hname₁ : ∀ c ∈ name₁, (c == ' ' || c == '(') = false)
    (hname₂ : ∀ c ∈ name₂, (c == ' ' || c == '(') = false) (hfield₁ : ')' ∉ field₁)
    (hfield₂ : ')' ∉ field₂)
    (h : view name₁ source field₁ ++ t₁ = view name₂ source field₂ ++ t₂) :
    name₁ = name₂ ∧ field₁ = field₂ ∧ t₁ = t₂ := by
  simp only [view, List.append_assoc, List.cons_append, List.nil_append] at h
  obtain ⟨rfl, -, h⟩ := first_stop_cancel hname₁ hname₂ rfl rfl h
  have hfield := List.append_cancel_left h
  -- the point tells a field from none, and the parenthesis ends it
  have hdotted : ∀ field : Text, ')' ∉ field →
      ∀ x ∈ (if field.isEmpty then [] else '.' :: field), (x == ')') = false := by
    intro field hfield x hx
    split at hx
    · cases hx
    · rcases List.mem_cons.1 hx with rfl | hx
      · rfl
      · have hne : x ≠ ')' := fun heq => hfield (heq ▸ hx)
        simpa using hne
  obtain ⟨hdot, -, htail⟩ := first_stop_cancel (p := (· == ')')) (hdotted field₁ hfield₁)
    (hdotted field₂ hfield₂) rfl rfl hfield
  refine ⟨rfl, ?_, htail⟩
  cases field₁ <;> cases field₂ <;> simp_all

/-- A source without a view is not mistaken for a view: the first stop
behind it is a space, and behind the name of a view a parenthesis. -/
theorem source_ne_view {source name field t u : Text}
    (hsource : ∀ c ∈ source, (c == ' ' || c == '(') = false)
    (hname : ∀ c ∈ name, (c == ' ' || c == '(') = false) :
    source ++ ' ' :: t ≠ view name source field ++ u := by
  intro h
  rw [view, List.append_assoc, List.cons_append] at h
  obtain ⟨-, hstop, -⟩ := first_stop_cancel hsource hname rfl rfl h
  cases hstop

/-- **What a query reads from is known from the text**, and so is where it
ends. -/
theorem viewed_cancel (hsource : ∀ x ∈ c.source, x ≠ ' ' ∧ x ≠ '(') {s₁ s₂ : Scope}
    (h₁ : s₁.IsPlain) (h₂ : s₂.IsPlain) {t₁ t₂ : Text}
    (h : c.viewed s₁ ++ ' ' :: t₁ = c.viewed s₂ ++ ' ' :: t₂) :
    window? s₁ = window? s₂ ∧ t₁ = t₂ := by
  have hplain : ∀ x ∈ c.source, (x == ' ' || x == '(') = false := by
    intro x hx
    simp [hsource x hx]
  rcases hw₁ : window? s₁ with _ | ⟨name₁, field₁⟩ <;>
    rcases hw₂ : window? s₂ with _ | ⟨name₂, field₂⟩
  · rw [viewed_of_none hw₁, viewed_of_none hw₂] at h
    exact ⟨rfl, List.cons_injective (List.append_cancel_left h)⟩
  · rw [viewed_of_none hw₁, viewed_of_some hw₂] at h
    exact absurd h (source_ne_view hplain (name_of_window? hw₂))
  · rw [viewed_of_some hw₁, viewed_of_none hw₂] at h
    exact absurd h.symm (source_ne_view hplain (name_of_window? hw₁))
  · rw [viewed_of_some hw₁, viewed_of_some hw₂] at h
    obtain ⟨rfl, rfl, htail⟩ := view_cancel (name_of_window? hw₁) (name_of_window? hw₂)
      (h₁.parenthesis _ (field_of_window? hw₁)) (h₂.parenthesis _ (field_of_window? hw₂)) h
    exact ⟨rfl, List.cons_injective htail⟩

/-! ## The sections of a query -/

/-- The sections of a query that begin with a keyword of their own. -/
def sections (s : Scope) : Text :=
  headed "WHERE".toList s.filters ++ (headed "GROUP BY".toList (joined s.groups) ++
    (headed "ORDER BY".toList (joined s.orders) ++ limitSection s.offset s.limit))

theorem termSection_eq (keyword : Text) (terms : List Text) :
    termSection keyword terms = headed keyword (joined terms) := by
  unfold termSection joined headed
  split <;> rfl

/-- **A query section by section.** -/
theorem query_eq (s : Scope) : c.query s =
    s.prepend ++ ("SELECT".toList ++ (' ' :: (s.select ++ [' ']) ++ ("FROM".toList ++
      ' ' :: (c.viewed s ++ ' ' :: (joinSection s.join ++ sections s))))) := by
  have hselect : "SELECT ".toList = "SELECT".toList ++ [' '] := rfl
  have hfrom : " FROM ".toList = [' '] ++ "FROM".toList ++ [' '] := rfl
  have hwhere : whereSection s.filters = headed "WHERE".toList s.filters := rfl
  rw [query, sections, ← hwhere, ← termSection_eq, ← termSection_eq, hselect, hfrom]
  simp only [List.append_assoc, List.cons_append, List.nil_append]

/-- The pagination is its keyword and two numbers around a comma. -/
theorem limitSection_eq (offset limit : UInt64) : limitSection offset limit =
    "LIMIT".toList ++ ' ' :: (Text.ofNat offset.toNat ++ ',' :: ' ' :: Text.ofNat limit.toNat) := by
  have hlimit : "LIMIT ".toList = "LIMIT".toList ++ [' '] := rfl
  have hcomma : ", ".toList = [',', ' '] := rfl
  -- the equation of the definition is slow to come by, its body is not
  change "LIMIT ".toList ++ Text.ofNat offset.toNat ++ ", ".toList ++ Text.ofNat limit.toNat = _
  simp only [hlimit, hcomma, List.append_assoc, List.cons_append, List.nil_append]

/-- The pagination is known from the text. -/
theorem limitSection_injective {offset₁ limit₁ offset₂ limit₂ : UInt64}
    (h : limitSection offset₁ limit₁ = limitSection offset₂ limit₂) :
    offset₁ = offset₂ ∧ limit₁ = limit₂ := by
  have hdigits : ∀ n : Nat, ∀ x ∈ Text.ofNat n, (x == ',') = false := by
    intro n x hx
    have hdigit := Text.isDigit_of_mem_ofNat hx
    have hne : x ≠ ',' := by
      rintro rfl
      exact absurd hdigit (by decide)
    simpa using hne
  rw [limitSection_eq, limitSection_eq] at h
  have hnumbers := List.cons_injective (List.append_cancel_left h)
  obtain ⟨hoffset, -, hlimit⟩ := first_stop_cancel (p := (· == ',')) (hdigits _) (hdigits _)
    rfl rfl hnumbers
  have hlimit' := List.cons_injective hlimit
  exact ⟨UInt64.toNat_inj.1 (Text.ofNat_injective hoffset),
    UInt64.toNat_inj.1 (Text.ofNat_injective hlimit')⟩

theorem opens_limitSection (s : Scope) :
    Opens ["LIMIT".toList] (limitSection s.offset s.limit) := by
  refine ⟨_, List.mem_singleton_self _, ?_⟩
  rw [limitSection_eq]
  exact List.prefix_append _ _

theorem opens_orderSection (s : Scope) : Opens ["ORDER BY".toList, "LIMIT".toList]
    (headed "ORDER BY".toList (joined s.orders) ++ limitSection s.offset s.limit) :=
  (opens_limitSection s).headed

theorem opens_groupSection (s : Scope) :
    Opens ["GROUP BY".toList, "ORDER BY".toList, "LIMIT".toList]
      (headed "GROUP BY".toList (joined s.groups) ++
        (headed "ORDER BY".toList (joined s.orders) ++ limitSection s.offset s.limit)) :=
  (opens_orderSection s).headed

/-- Behind the join a keyword begins. -/
theorem opens_sections (s : Scope) : Opens keywords (sections s) :=
  Opens.mono (opens_groupSection s).headed (by decide)

/-- **The sections with keywords are known from their text.** -/
theorem sections_injective {s₁ s₂ : Scope} (h₁ : s₁.IsPlain) (h₂ : s₂.IsPlain)
    (h : sections s₁ = sections s₂) : s₁.filters = s₂.filters ∧ s₁.groups = s₂.groups ∧
      s₁.orders = s₂.orders ∧ s₁.offset = s₂.offset ∧ s₁.limit = s₂.limit := by
  have hfilters : ∀ {s : Scope}, s.IsPlain → KeywordFree s.filters := fun h =>
    h.keywordFree _ (by simp [Scope.texts])
  obtain ⟨hfilter, h⟩ := headed_cancel (by decide) (by decide) (by decide) (hfilters h₁)
    (hfilters h₂) (opens_groupSection s₁) (opens_groupSection s₂) h
  obtain ⟨hgroup, h⟩ := headed_cancel (by decide) (by decide) (by decide)
    (keywordFree_joined h₁.keywordFree_groups) (keywordFree_joined h₂.keywordFree_groups)
    (opens_orderSection s₁) (opens_orderSection s₂) h
  obtain ⟨horder, h⟩ := headed_cancel (by decide) (by decide) (by decide)
    (keywordFree_joined h₁.keywordFree_orders) (keywordFree_joined h₂.keywordFree_orders)
    (opens_limitSection s₁) (opens_limitSection s₂) h
  obtain ⟨hoffset, hlimit⟩ := limitSection_injective h
  refine ⟨hfilter, joined_injective ?_ ?_ hgroup, joined_injective ?_ ?_ horder, hoffset, hlimit⟩
  · exact fun t ht => h₁.comma t (List.mem_append_left _ ht)
  · exact fun t ht => h₂.comma t (List.mem_append_left _ ht)
  · exact fun t ht => h₁.comma t (List.mem_append_right _ ht)
  · exact fun t ht => h₂.comma t (List.mem_append_right _ ht)

/-- No join is told from an empty one by the space behind it. -/
theorem joinSection_injective {j₁ j₂ : Option Text} (h : joinSection j₁ = joinSection j₂) :
    j₁ = j₂ := by
  cases j₁ <;> cases j₂ <;> simp_all [joinSection]

/-- **A query says which scope it was made of.** Two plain scopes, reached
by steps or in any other way, that come to one query on a collection whose
name has neither space nor parenthesis are equal in every field, except
that the view of alternatives does not matter behind a view of words. -/
theorem eq_of_query_eq (hsource : ∀ x ∈ c.source, x ≠ ' ' ∧ x ≠ '(') {s₁ s₂ : Scope}
    (h₁ : s₁.IsPlain) (h₂ : s₂.IsPlain) (h : c.query s₁ = c.query s₂) :
    s₁ = { s₂ with alternatives := s₁.alternatives } ∧ (s₁.listWords = none → s₁ = s₂) := by
  have hopens : ∀ k ∈ keywords, ∀ t, Opens keywords (k ++ t) := fun k hk t =>
    ⟨k, hk, List.prefix_append k t⟩
  rw [query_eq, query_eq] at h
  obtain ⟨hprepend, h⟩ := keyword_cancel (h₁.keywordFree _ (by simp [Scope.texts]))
    (h₂.keywordFree _ (by simp [Scope.texts])) (hopens _ (by decide) _) (hopens _ (by decide) _) h
  obtain ⟨hselect, h⟩ := keyword_cancel
    (h₁.keywordFree s₁.select (by simp [Scope.texts])).concat_space.space_cons
    (h₂.keywordFree s₂.select (by simp [Scope.texts])).concat_space.space_cons
    (hopens _ (by decide) _) (hopens _ (by decide) _) (List.append_cancel_left h)
  obtain ⟨hwindow, h⟩ := viewed_cancel hsource h₁ h₂
    (List.cons_injective (List.append_cancel_left h))
  obtain ⟨hjoin, h⟩ := keyword_cancel h₁.keywordFree_joinSection h₂.keywordFree_joinSection
    (opens_sections s₁) (opens_sections s₂) h
  obtain ⟨hfilters, hgroups, horders, hoffset, hlimit⟩ := sections_injective h₁ h₂ h
  obtain ⟨hwords, halternatives⟩ := views_of_window? hwindow
  have hselect' : s₁.select = s₂.select := List.append_cancel_right (List.cons_injective hselect)
  have hjoin' : s₁.join = s₂.join := joinSection_injective hjoin
  exact ⟨Scope.ext hselect' hfilters hgroups horders hlimit hoffset hjoin' hprepend hwords rfl,
    fun hnone => Scope.ext hselect' hfilters hgroups horders hlimit hoffset hjoin' hprepend hwords
      (halternatives hnone)⟩

/-- The scope of steps whose texts end in pieces of keywords, with both
views. -/
def displacing : Scope := ({} : Scope).run
  [.prepend "/* */ SELEC".toList, .join "GROUP".toList, .filterRaw .and "BY)".toList,
    .groupBy (.raw "ORDER".toList), .groupBy (.raw []), .orderBy (.field "LIMI".toList) [],
    .alternatives "title".toList, .listWords "a b".toList]

/-- The scope of such steps in another order, with another view of
alternatives. -/
def displaced : Scope := ({} : Scope).run
  [.alternatives [], .listWords "a b".toList, .groupBy (.raw "ORDER".toList),
    .filterRaw .or "BY)".toList, .groupBy (.raw []),
    .orderBy (.field "LIMI".toList) "desc".toList, .join "GROUP".toList,
    .prepend "/* */ SELEC".toList]

/-- Those scopes differ and have one query. -/
theorem eq_of_query_eq_displaced : displacing.IsPlain ∧ displaced.IsPlain ∧
    (Collection.mk "100.books".toList).query displacing =
      (Collection.mk "100.books".toList).query displaced ∧
    displacing = { displaced with alternatives := displacing.alternatives } ∧
    displacing ≠ displaced := by
  have h₁ : displacing.IsPlain := ⟨by decide, by decide, by decide⟩
  have h₂ : displaced.IsPlain := ⟨by decide, by decide, by decide⟩
  have hsource : ∀ x ∈ (Collection.mk "100.books".toList).source, x ≠ ' ' ∧ x ≠ '(' :=
    List.forall_mem_iff_get.2 (by decide)
  have hquery : (Collection.mk "100.books".toList).query displacing =
      (Collection.mk "100.books".toList).query displaced := by decide
  obtain ⟨hfields, -⟩ := eq_of_query_eq hsource h₁ h₂ hquery
  exact ⟨h₁, h₂, hquery, hfields, by decide⟩

end Collection

end DocQuery
