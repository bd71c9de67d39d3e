import DocQuery.Operand
/-!
# Reading past literals

What a reader of query text has to know of literals to find the end of
anything: a double quote enters and leaves one, and inside one the
character behind a backslash is skipped. `read?` runs such a reader, which
gives up at a stop character outside literals. A text is `Closed` when the
reader gets through it from outside to outside; closed texts can be put
together (`Closed.append`), and two that are followed by stop characters
cannot be mistaken for each other (`closed_cancel`).
-/

namespace DocQuery

/-- Where a reader is: outside literals, inside one, or inside one behind
a backslash. -/
inductive Reader
  | code | literal | escape
deriving DecidableEq

namespace Reader

/-- Where a reader is after a character. -/
def next : Reader → Char → Reader
  | code, c => if c = '"' then literal else code
  | literal, c => if c = '"' then code else if c = '\\' then escape else literal
  | escape, _ => literal

variable (stop : Char → Bool)

/-- **Where a reader is after a text**, unless it has met a stop character
outside literals. -/
def read? : Reader → Text → Option Reader
  | r, [] => some r
  | r, c :: t => if r = code ∧ stop c then none else read? (r.next c) t

variable {stop} {r : Reader} {s t : Text}

/-- Reading goes on where it has stopped. -/
theorem read?_append : read? stop r (s ++ t) = (read? stop r s).bind (read? stop · t) := by
  induction s generalizing r with
  | nil => rfl
  | cons c s ih =>
    rw [List.cons_append, read?, read?]
    split
    · rfl
    · exact ih

/-- A text whose characters are each read in place is read in place. -/
theorem read?_of_forall (h : ∀ c ∈ t, read? stop r [c] = some r) : read? stop r t = some r := by
  induction t with
  | nil => rfl
  | cons c t ih =>
    rw [← List.singleton_append, read?_append, h c List.mem_cons_self, Option.bind_some]
    exact ih fun c hc => h c (List.mem_cons_of_mem _ hc)

/-- And so is one that is spelled character by character in such pieces. -/
theorem read?_flatMap {spell : Char → Text} (h : ∀ c, read? stop r (spell c) = some r) :
    read? stop r (t.flatMap spell) = some r := by
  induction t with
  | nil => rfl
  | cons c t ih => rw [List.flatMap_cons, read?_append, h c, Option.bind_some, ih]

/-- Inside a literal everything is read but quote and backslash. -/
theorem read?_literal_singleton {c : Char} (hquote : c ≠ '"') (hslash : c ≠ '\\') :
    read? stop literal [c] = some literal := by
  simp [read?, next, hquote, hslash]

/-- Inside a literal a backslash and any character are read. -/
theorem read?_literal_escape (c : Char) : read? stop literal ['\\', c] = some literal := rfl

end Reader

open Reader

/-! ## Closed texts -/

variable {stop : Char → Bool} {s t : Text}

/-- A text that is read from outside literals to outside literals, without
a stop character outside. -/
def Closed (stop : Char → Bool) (t : Text) : Prop := read? stop code t = some code

namespace Closed

theorem nil : Closed stop [] := rfl

/-- Closed texts can be put together. -/
theorem append (hs : Closed stop s) (ht : Closed stop t) : Closed stop (s ++ t) := by
  unfold Closed at *
  rw [read?_append, hs, Option.bind_some, ht]

/-- A text without quotes and stop characters is closed. -/
theorem of_forall (h : ∀ c ∈ t, c ≠ '"' ∧ stop c = false) : Closed stop t := by
  refine read?_of_forall fun c hc => ?_
  obtain ⟨hquote, hstop⟩ := h c hc
  simp [read?, next, hquote, hstop]

/-- And so is one whose characters are checked by a test that no stop
character passes. -/
theorem of_all {test : Char → Bool} (hpass : ∀ c, test c → stop c = false)
    (h : t.all fun c => c ≠ '"' && test c) : Closed stop t := by
  refine of_forall fun c hc => ?_
  have htest := List.all_eq_true.1 h c hc
  simp only [Bool.and_eq_true, decide_eq_true_eq] at htest
  exact ⟨htest.1, hpass c htest.2⟩

/-- A text between quotes is closed if it is read inside a literal. -/
theorem quoted (hstop : stop '"' = false) (h : read? stop literal t = some literal) :
    Closed stop ('"' :: (t ++ ['"'])) := by
  unfold Closed
  rw [read?, if_neg (by simp [hstop])]
  change read? stop literal (t ++ ['"']) = some code
  rw [read?_append, h]
  rfl

/-- Closed texts between separators are closed. -/
theorem intercalate {sep : Text} (hsep : Closed stop sep) :
    ∀ {ts : List Text}, (∀ t ∈ ts, Closed stop t) → Closed stop (List.intercalate sep ts)
  | [], _ => nil
  | [t], h => by simpa [List.intercalate] using h t
  | t :: t' :: ts, h => by
    have htail := intercalate hsep fun u hu => h u (List.mem_cons_of_mem t hu)
    have hsplit : List.intercalate sep (t :: t' :: ts) =
        t ++ (sep ++ List.intercalate sep (t' :: ts)) := by
      simp [List.intercalate]
    rw [hsplit]
    exact (h t List.mem_cons_self).append (hsep.append htail)

/-- The first character of a closed text is no stop character. -/
theorem head {c : Char} (h : Closed stop (c :: t)) : stop c = false := by
  cases hc : stop c with
  | false => rfl
  | true =>
    rw [Closed, read?, if_pos ⟨rfl, hc⟩] at h
    cases h

end Closed

/-- A reader that ends outside literals can go no further over a stop
character, so where it ends is determined. -/
theorem closed_cancel {r : Reader} {t₁ t₂ r₁ r₂ : Text} {c₁ c₂ : Char} (hc₁ : stop c₁)
    (hc₂ : stop c₂) (h₁ : read? stop r t₁ = some code) (h₂ : read? stop r t₂ = some code)
    (h : t₁ ++ c₁ :: r₁ = t₂ ++ c₂ :: r₂) : t₁ = t₂ ∧ c₁ = c₂ ∧ r₁ = r₂ := by
  induction t₁ generalizing r t₂ with
  | nil =>
    cases t₂ with
    | nil => exact ⟨rfl, List.cons_eq_cons.1 h⟩
    | cons c t₂ =>
      -- the second text would go on over the stop character of the first
      cases h₁
      obtain ⟨rfl, -⟩ := List.cons_eq_cons.1 h
      rw [read?, if_pos ⟨rfl, hc₁⟩] at h₂
      cases h₂
  | cons c t₁ ih =>
    cases t₂ with
    | nil =>
      cases h₂
      obtain ⟨rfl, -⟩ := List.cons_eq_cons.1 h
      rw [read?, if_pos ⟨rfl, hc₂⟩] at h₁
      cases h₁
    | cons c' t₂ =>
      obtain ⟨rfl, htail⟩ := List.cons_eq_cons.1 h
      rw [read?] at h₁ h₂
      split at h₁
      · cases h₁
      · rename_i hgo
        rw [if_neg hgo] at h₂
        obtain ⟨rfl, hrest⟩ := ih h₁ h₂ htail
        exact ⟨rfl, hrest⟩

/-! ## Literals and fields -/

/-- The escaped form of a character is read inside a literal. -/
theorem read?_escapeChar (c : Char) :
    read? stop literal (Literal.escapeChar c) = some literal := by
  unfold Literal.escapeChar
  split
  · rfl
  · rename_i h
    refine read?_literal_singleton ?_ ?_
    · rintro rfl
      cases h
    · rintro rfl
      cases h

/-- **A literal is closed**, whatever its text. -/
theorem closed_literal (hstop : stop '"' = false) (t : Text) : Closed stop (Literal.quote t) :=
  Closed.quoted hstop (read?_flatMap read?_escapeChar)

/-- Around the name of a field there is one literal. -/
theorem accessor_eq (name : Text) :
    accessor name = "this[".toList ++ ('"' :: (name ++ ['"']) ++ [']']) := by
  have hleft : "this[\"".toList = "this[".toList ++ ['"'] := rfl
  have hright : "\"]".toList = ['"', ']'] := rfl
  -- the equation of the definition is slow to come by, its body is not
  change "this[\"".toList ++ name ++ "\"]".toList = _
  simp only [hleft, hright, List.append_assoc, List.cons_append, List.nil_append]

/-- A field whose name has neither quote nor backslash is closed for a
reader that stops at nothing that is around the name. -/
theorem closed_accessor (hstop : (accessor []).all (!stop ·)) {name : Text}
    (hquote : '"' ∉ name) (hslash : '\\' ∉ name) : Closed stop (accessor name) := by
  have hpass : ∀ c, (accessor []).contains c → stop c = false := by simpa using hstop
  have hname : read? stop literal name = some literal :=
    read?_of_forall fun c hc =>
      read?_literal_singleton (fun h => hquote (h ▸ hc)) (fun h => hslash (h ▸ hc))
  rw [accessor_eq]
  exact (Closed.of_all hpass (by decide)).append
    ((Closed.quoted (hpass '"' (by decide)) hname).append (Closed.of_all hpass (by decide)))

end DocQuery
