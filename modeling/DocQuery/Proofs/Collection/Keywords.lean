import DocQuery.Collection
import Mathlib.Data.List.Infix
/-!
# Keywords in a query text

The sections of a query are told apart by six keywords and by nothing
else: texts stand between them as they are, and a section that has
nothing to say is missing with its keyword. What makes that readable is
that no keyword begins inside a keyword (`not_clash_of_mem_tails`), so a text
without keywords ends at the first keyword behind it, even where the two
meet without a space (`keyword_cancel`). `headed_cancel` says the same of
a section that may be missing, and `joined_injective` of terms between
commas.
-/

namespace DocQuery

namespace Collection

/-! ## The keywords -/

/-- The keywords of a query, in the order of their sections. -/
def keywords : List Text :=
  ["SELECT".toList, "FROM".toList, "WHERE".toList, "GROUP BY".toList, "ORDER BY".toList,
    "LIMIT".toList]

/-- Whether one of two texts begins with the other. -/
abbrev Clash (s t : Text) : Prop := s <+: t ∨ t <+: s

/-- Texts that begin one text clash. -/
theorem Clash.of_prefix {s t u : Text} (hs : s <+: u) (ht : t <+: u) : Clash s t :=
  List.prefix_or_prefix_of_prefix hs ht

/-- **No keyword begins inside a keyword**: what is left of one behind its
first character clashes with none before it is used up. -/
theorem not_clash_of_mem_tails : ∀ k ∈ keywords, ∀ q ∈ k.tail.tails, q ≠ [] →
    ∀ k' ∈ keywords, ¬ Clash q k' := by
  decide

/-- Two keywords that begin one text are the same. -/
theorem eq_of_clash : ∀ k ∈ keywords, ∀ k' ∈ keywords, Clash k k' → k = k' := by
  decide

/-- A keyword holds no comma, and has no space at either end. -/
theorem keyword_ends : ∀ k ∈ keywords, ',' ∉ k ∧ k.head? ≠ some ' ' ∧ k.getLast? ≠ some ' ' := by
  decide

/-! ## Texts without keywords -/

/-- A text that no keyword is part of. -/
def KeywordFree (t : Text) : Prop := ∀ k ∈ keywords, ¬ k <:+: t

instance (t : Text) : Decidable (KeywordFree t) :=
  inferInstanceAs (Decidable (∀ k ∈ keywords, ¬ k <:+: t))

namespace KeywordFree

variable {s t : Text}

theorem nil : KeywordFree [] := by decide

/-- A space in front makes no keyword. -/
theorem space_cons (h : KeywordFree t) : KeywordFree (' ' :: t) := by
  intro k hk hin
  rcases List.infix_cons_iff.1 hin with hfront | hin
  · obtain ⟨-, hhead, -⟩ := keyword_ends k hk
    cases k with
    | nil => exact h [] hk t.nil_infix
    | cons c k => exact hhead (congrArg some (List.cons_prefix_cons.1 hfront).1)
  · exact h k hk hin

/-- Nor does a space at the end. -/
theorem concat_space (h : KeywordFree t) : KeywordFree (t ++ [' ']) := by
  intro k hk hin
  rcases List.infix_concat_iff.1 hin with hend | hin
  · obtain ⟨-, -, hlast⟩ := keyword_ends k hk
    rcases List.suffix_concat_iff.1 hend with rfl | ⟨u, rfl, -⟩
    · exact h [] hk t.nil_infix
    · exact hlast List.getLast?_concat
  · exact h k hk hin

/-- Nor does a comma with a space behind it, between two texts. -/
theorem append_comma (hs : KeywordFree s) (ht : KeywordFree t) :
    KeywordFree (s ++ ',' :: ' ' :: t) := by
  intro k hk hin
  have hcomma : ',' ∉ k := (keyword_ends k hk).1
  rcases List.infix_append_iff.1 hin with hin | hin | ⟨l, r, rfl, hl, hr⟩
  · exact hs k hk hin
  · rcases List.infix_cons_iff.1 hin with hfront | hin
    · cases k with
      | nil => exact hs [] hk s.nil_infix
      | cons c k => exact hcomma (by simp [(List.cons_prefix_cons.1 hfront).1])
    · exact ht.space_cons k hk hin
  · -- the part behind the first text would begin with the comma
    cases r with
    | nil => exact hs _ hk (by simpa using hl.isInfix)
    | cons c r => exact hcomma (by simp [(List.cons_prefix_cons.1 hr).1])

/-- So texts without keywords can be listed. -/
theorem intercalate : ∀ {ts : List Text}, (∀ t ∈ ts, KeywordFree t) →
    KeywordFree (List.intercalate ", ".toList ts)
  | [], _ => nil
  | [t], h => by simpa using h t
  | t :: u :: ts, h => by
    have hfirst : KeywordFree t := h t List.mem_cons_self
    have hrest : KeywordFree (List.intercalate ", ".toList (u :: ts)) :=
      intercalate fun v hv => h v (List.mem_cons_of_mem t hv)
    rw [List.intercalate_cons_cons]
    simpa using hfirst.append_comma hrest

end KeywordFree

/-! ## Where a section ends -/

/-- Whether a text begins with one of some keywords. -/
def Opens (later : List Text) (t : Text) : Prop := ∃ k ∈ later, k <+: t

/-- A keyword does not begin earlier in one of two readings of a text: what
the longer of two texts without keywords has more is nothing. -/
theorem eq_nil_of_opens {a d t t' : Text} (hfree : KeywordFree (a ++ d))
    (ht : Opens keywords t) (ht' : Opens keywords t') (h : t = d ++ t') : d = [] := by
  obtain ⟨k, hk, r, rfl⟩ := ht
  have hd : ¬ k <:+: d := fun hin => hfree k hk (hin.trans (List.suffix_append a d).isInfix)
  rcases List.append_eq_append_iff.1 h with ⟨e, rfl, -⟩ | ⟨q, hq, hrest⟩
  · exact absurd (List.prefix_append k e).isInfix hd
  · -- the keyword would reach over the end of `d`, into another keyword
    cases d with
    | nil => rfl
    | cons c d =>
      have htail : q ∈ k.tail.tails := by
        rw [hq, List.mem_tails]
        exact List.suffix_append d q
      have hne : q ≠ [] := by
        rintro rfl
        exact hd (by simp [hq])
      obtain ⟨k', hk', hopen⟩ := ht'
      have hclash : Clash q k' := Clash.of_prefix (hrest ▸ List.prefix_append q r) hopen
      exact absurd hclash (not_clash_of_mem_tails k hk q htail hne k' hk')

/-- **A text without keywords ends at the next keyword.** -/
theorem keyword_cancel {a₁ a₂ t₁ t₂ : Text} (ha₁ : KeywordFree a₁) (ha₂ : KeywordFree a₂)
    (ht₁ : Opens keywords t₁) (ht₂ : Opens keywords t₂) (h : a₁ ++ t₁ = a₂ ++ t₂) :
    a₁ = a₂ ∧ t₁ = t₂ := by
  rcases List.append_eq_append_iff.1 h with ⟨d, rfl, hrest⟩ | ⟨d, rfl, hrest⟩
  · obtain rfl := eq_nil_of_opens ha₂ ht₁ ht₂ hrest
    exact ⟨by simp, hrest⟩
  · obtain rfl := eq_nil_of_opens ha₁ ht₂ ht₁ hrest
    exact ⟨by simp, hrest.symm⟩

/-! ## Sections that may be missing -/

/-- A text behind its keyword, and nothing where there is no text. -/
def headed (k t : Text) : Text := if t.isEmpty then [] else k ++ t

variable {k : Text} {later : List Text}

/-- Behind a section that may be missing, its keyword or a later one
begins. -/
theorem Opens.headed {t a : Text} (h : Opens later t) : Opens (k :: later) (headed k a ++ t) := by
  unfold Collection.headed
  split
  · obtain ⟨k', hk', hopen⟩ := h
    exact ⟨k', List.mem_cons_of_mem k hk', hopen⟩
  · exact ⟨k, List.mem_cons_self, by simp⟩

theorem Opens.mono {more : List Text} {t : Text} (h : Opens later t) (hsub : later ⊆ more) :
    Opens more t := by
  obtain ⟨k, hk, hopen⟩ := h
  exact ⟨k, hsub hk, hopen⟩

/-- A section that is there is not mistaken for a later one. -/
theorem ne_of_opens {t r : Text} (hk : k ∈ keywords) (hlater : later ⊆ keywords)
    (hnew : k ∉ later) (h : Opens later t) : k ++ r ≠ t := by
  rintro rfl
  obtain ⟨k', hk', hopen⟩ := h
  have heq : k = k' :=
    eq_of_clash k hk k' (hlater hk') (Clash.of_prefix (List.prefix_append k r) hopen)
  exact hnew (heq ▸ hk')

/-- **A section that may be missing is there in both of two readings or in
neither**, and ends at the next keyword. -/
theorem headed_cancel {a₁ a₂ t₁ t₂ : Text} (hk : k ∈ keywords) (hlater : later ⊆ keywords)
    (hnew : k ∉ later) (ha₁ : KeywordFree a₁) (ha₂ : KeywordFree a₂) (ht₁ : Opens later t₁)
    (ht₂ : Opens later t₂) (h : headed k a₁ ++ t₁ = headed k a₂ ++ t₂) : a₁ = a₂ ∧ t₁ = t₂ := by
  rw [headed, headed] at h
  split at h <;> rename_i h₁ <;> split at h <;> rename_i h₂
  · obtain rfl := List.isEmpty_iff.1 h₁
    obtain rfl := List.isEmpty_iff.1 h₂
    exact ⟨rfl, h⟩
  · rw [List.append_assoc] at h
    exact absurd h.symm (ne_of_opens hk hlater hnew ht₁)
  · rw [List.append_assoc] at h
    exact absurd h (ne_of_opens hk hlater hnew ht₂)
  · rw [List.append_assoc, List.append_assoc] at h
    exact keyword_cancel ha₁ ha₂ (ht₁.mono hlater) (ht₂.mono hlater)
      (List.append_cancel_left h)

/-! ## Terms between commas -/

/-- Terms between spaces, with commas between them; nothing where there is
no term. -/
def joined (terms : List Text) : Text :=
  if terms.isEmpty then [] else ' ' :: (List.intercalate ", ".toList terms ++ [' '])

theorem keywordFree_joined {terms : List Text} (h : ∀ t ∈ terms, KeywordFree t) :
    KeywordFree (joined terms) := by
  unfold joined
  split
  · exact KeywordFree.nil
  · exact (KeywordFree.intercalate h).concat_space.space_cons

/-- The space behind a comma may be counted to the term that follows. -/
theorem intercalate_comma_space (t : Text) (ts : List Text) :
    List.intercalate ", ".toList (t :: ts) =
      List.intercalate [','] (t :: ts.map (' ' :: ·)) := by
  induction ts generalizing t with
  | nil => rfl
  | cons u ts ih =>
    have hspaced : List.intercalate [','] ((' ' :: u) :: ts.map (' ' :: ·)) =
        ' ' :: List.intercalate [','] (u :: ts.map (' ' :: ·)) := by
      cases ts <;> rfl
    rw [List.intercalate_cons_cons, ih, List.map_cons, List.intercalate_cons_cons, hspaced]
    simp

/-- **Terms without commas can be told apart.** -/
theorem joined_injective {xs ys : List Text} (hx : ∀ t ∈ xs, ',' ∉ t) (hy : ∀ t ∈ ys, ',' ∉ t)
    (h : joined xs = joined ys) : xs = ys := by
  cases xs with
  | nil =>
    cases ys with
    | nil => rfl
    | cons y ys => cases h
  | cons x xs =>
    cases ys with
    | nil => cases h
    | cons y ys =>
      have hsplit : ∀ (t : Text) (ts : List Text), (∀ u ∈ t :: ts, ',' ∉ u) →
          List.splitOn ',' (List.intercalate ", ".toList (t :: ts)) =
            t :: ts.map (' ' :: ·) := by
        intro t ts hts
        rw [intercalate_comma_space]
        refine List.splitOn_intercalate ',' (fun u hu => ?_) (List.cons_ne_nil _ _)
        rcases List.mem_cons.1 hu with rfl | hu
        · exact hts _ List.mem_cons_self
        · obtain ⟨v, hv, rfl⟩ := List.mem_map.1 hu
          simpa using hts v (List.mem_cons_of_mem t hv)
      have hinside : List.intercalate ", ".toList (x :: xs) =
          List.intercalate ", ".toList (y :: ys) := by
        simpa [joined] using h
      have hsplits := hsplit y ys hy
      rw [← hinside, hsplit x xs hx] at hsplits
      obtain ⟨rfl, hrest⟩ := List.cons_eq_cons.1 hsplits
      have hspace : Function.Injective (List.cons ' ') := List.cons_injective
      rw [hspace.list_map hrest]

end Collection

end DocQuery
