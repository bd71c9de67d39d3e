import DocQuery.Collection
import DocQuery.Proofs.Collection.Readable
import DocQuery.Proofs.Collection.Spacing
import DocQuery.Proofs.Count.Grammar
import DocQuery.Proofs.Numeral.Text
/-!
# Pagination reads back

The pagination is the last thing that a query says, so it is what stands
behind the last `LIMIT`, whatever the texts in front of it are: they may
hold paginations of their own. `pagination?` reads it there, and gets the
offset and the limit of the scope (`pagination?_query`). What a query says
before the limit does not depend on the limit, so the query for the first
record differs from the query for all of them in the count alone.
-/

namespace DocQuery

/-! ## The last occurrence of a marker -/

namespace Text

variable {marker front rest t : Text}

/-- **The text behind the last occurrence of a marker**, if there is
one. -/
def behindLast? (marker : Text) : Text → Option Text
  | [] => marker.isPrefixOf? []
  | c :: t => (behindLast? marker t).or (marker.isPrefixOf? (c :: t))

/-- Nothing stands behind a marker that does not occur. -/
theorem behindLast?_eq_none (h : ¬ marker <:+: t) : behindLast? marker t = none := by
  have hprefix : ∀ {u : Text}, ¬ marker <:+: u → marker.isPrefixOf? u = none := by
    intro u hu
    rw [Option.eq_none_iff_forall_ne_some]
    intro rest hrest
    rw [List.isPrefixOf?_eq_some_iff_append_eq] at hrest
    exact hu (hrest ▸ (List.prefix_append marker rest).isInfix)
  induction t with
  | nil => exact hprefix h
  | cons c t ih =>
    rw [behindLast?, ih fun hin => h (List.infix_cons hin), hprefix h]
    rfl

/-- **An occurrence behind which no other begins is the last one**, in
whatever text it stands. -/
theorem behindLast?_append (h : ¬ marker <:+: marker.tail ++ rest) :
    behindLast? marker (front ++ (marker ++ rest)) = some rest := by
  induction front with
  | nil =>
    cases marker with
    | nil => exact absurd List.nil_infix h
    | cons c marker =>
      have hlater : behindLast? (c :: marker) (marker ++ rest) = none := behindLast?_eq_none h
      have hhere : (c :: marker).isPrefixOf? (c :: (marker ++ rest)) = some rest :=
        List.isPrefixOf?_eq_some_iff_append_eq.2 rfl
      rw [List.nil_append, List.cons_append, behindLast?, hlater, hhere]
      rfl
  | cons c front ih =>
    rw [List.cons_append, behindLast?, ih]
    rfl

end Text

namespace Collection

/-! ## Reading the pagination -/

/-- **The offset and the limit that a query text ends in**, read from
behind its last `LIMIT`. -/
def pagination? (t : Text) : Option (UInt64 × UInt64) := do
  let t ← Text.behindLast? "LIMIT ".toList t
  let (offset, t) := Numeral.spanDigits t
  match t with
  | ',' :: ' ' :: limit => return (← Count.word? offset, ← Count.word? limit)
  | _ => none

/-- A word in decimal digits is read as that word. -/
theorem word?_ofNat_toNat (w : UInt64) : Count.word? (Text.ofNat w.toNat) = some w :=
  (Count.word?_of_isRun ⟨Text.all_isDigit_ofNat _, Text.ofNat_ne_nil _⟩ (Text.toNat_ofNat _)).1

/-- Behind its own keyword a pagination has no other. -/
theorem not_isInfix_limit (offset limit : UInt64) : ¬ "LIMIT ".toList <:+:
    "LIMIT ".toList.tail ++
      (Text.ofNat offset.toNat ++ ',' :: ' ' :: Text.ofNat limit.toNat) := by
  have hdigits : ∀ n : Nat, 'L' ∉ Text.ofNat n := fun n hmem =>
    absurd (Text.isDigit_of_mem_ofNat hmem) (by decide)
  intro hin
  have hmem := hin.subset (show 'L' ∈ "LIMIT ".toList from List.mem_cons_self)
  simp only [List.mem_append, List.mem_cons] at hmem
  rcases hmem with hkeyword | hoffset | hcomma | hspace | hlimit
  · exact absurd hkeyword (by decide)
  · exact hdigits _ hoffset
  · exact absurd hcomma (by decide)
  · exact absurd hspace (by decide)
  · exact hdigits _ hlimit

/-- **A pagination is read behind any text.** -/
theorem pagination?_append (body : Text) (offset limit : UInt64) :
    pagination? (body ++ limitSection offset limit) = some (offset, limit) := by
  have hsection : limitSection offset limit = "LIMIT ".toList ++
      (Text.ofNat offset.toNat ++ ',' :: ' ' :: Text.ofNat limit.toNat) := by
    rw [limitSection_eq]
    rfl
  have hspan : Numeral.spanDigits
      (Text.ofNat offset.toNat ++ ',' :: ' ' :: Text.ofNat limit.toNat) =
        (Text.ofNat offset.toNat, ',' :: ' ' :: Text.ofNat limit.toNat) :=
    Numeral.spanDigits_append (Text.all_isDigit_ofNat _) rfl
  rw [pagination?, hsection, Text.behindLast?_append (not_isInfix_limit offset limit),
    Option.bind_eq_bind, Option.bind_some, hspan]
  simp only [word?_ofNat_toNat, Option.bind_eq_bind, Option.bind_some, Option.pure_def]

/-! ## Queries and their pagination -/

variable (c : Collection) (s : Scope)

/-- What a query says in front of its pagination. -/
def body : Text := opening c s ++ (keyed s).dropLast.flatMap (·.2)

/-- That does not depend on the limit. -/
theorem query_of_limit (limit : UInt64) :
    c.query { s with limit } = body c s ++ limitSection s.offset limit := by
  have hsections : (keyed { s with limit }).flatMap (·.2) =
      (keyed s).dropLast.flatMap (·.2) ++ limitSection s.offset limit := by
    simp only [keyed, List.dropLast_cons_cons, List.dropLast_singleton, List.flatMap_cons,
      List.flatMap_nil, List.append_nil, List.append_assoc]
  rw [query_eq_keyed, hsections, body, List.append_assoc]
  rfl

/-- **A query says how it is paginated**, whatever the texts of its scope
hold. -/
theorem pagination?_query : pagination? (c.query s) = some (s.offset, s.limit) :=
  (congrArg pagination? (query_of_limit c s s.limit)).trans (pagination?_append _ _ _)

/-- A query ends in its limit. -/
theorem query_ends (limit : UInt64) : c.query { s with limit } =
    body c s ++ ("LIMIT ".toList ++ Text.ofNat s.offset.toNat ++ ", ".toList) ++
      Text.ofNat limit.toNat := by
  have hsection : limitSection s.offset limit = "LIMIT ".toList ++ Text.ofNat s.offset.toNat ++
      ", ".toList ++ Text.ofNat limit.toNat := rfl
  rw [query_of_limit, hsection]
  simp only [List.append_assoc]

/-- **The pagination of a query reads back**, from behind the last `LIMIT`
in it. So two queries that are the same, on whatever collections, have one
limit and one offset. And the requests for the records of a scope and for
the first of them are the same up to the comma behind the offset, where
one goes on with the limit of the scope and the other with the digit
one. -/
theorem pagination_reads_back :
    (∀ (c : Collection) (s : Scope), pagination? (c.query s) = some (s.offset, s.limit)) ∧
    (∀ (c₁ c₂ : Collection) (s₁ s₂ : Scope), c₁.query s₁ = c₂.query s₂ →
      s₁.limit = s₂.limit ∧ s₁.offset = s₂.offset) ∧
    ∀ (c : Collection) (start s : Scope) (steps : List Step) (multiple : Bool),
      start.takeAll steps = .ok s → ∃ before : Text,
        let front := before ++ ("LIMIT ".toList ++ Text.ofNat s.offset.toNat ++ ", ".toList)
        c.request start (.select steps multiple) =
          .ok (.ofQuery (front ++ Text.ofNat s.limit.toNat) multiple) ∧
        c.request start (.first steps) = .ok (.ofQuery (front ++ ['1']) false) := by
  refine ⟨pagination?_query, fun c₁ c₂ s₁ s₂ h => ?_, fun c start s steps multiple h => ?_⟩
  · have hboth : some (s₁.offset, s₁.limit) = some (s₂.offset, s₂.limit) := by
      rw [← pagination?_query c₁ s₁, h, pagination?_query]
    obtain ⟨hoffset, hlimit⟩ := Prod.mk.inj (Option.some.inj hboth)
    exact ⟨hlimit, hoffset⟩
  · refine ⟨body c s, ?_, ?_⟩
    · rw [request, h, ← query_ends]
      rfl
    · have hone : Text.ofNat (1 : UInt64).toNat = ['1'] := rfl
      rw [request, h, ← hone, ← query_ends]
      rfl

/-- A selection with a source and a pagination of its own. -/
def shelved : Scope := { select := "* FROM shelves LIMIT 1, 2".toList, limit := 5, offset := 3 }

/-- On the books it has the query of a plain selection from a collection
with an odd name, and a join may bring one more pagination. -/
theorem pagination_reads_back_shelved :
    (Collection.mk "100.books".toList).query shelved =
      (Collection.mk "shelves LIMIT 1, 2 FROM books".toList).query { limit := 5, offset := 3 } ∧
    (shelved.limit = 5 ∧ shelved.offset = 3) ∧
    shelved.takeAll [.join "LIMIT 7, 7".toList] =
      .ok { shelved with join := some "LIMIT 7, 7".toList } ∧
    ∃ before : Text,
      (Collection.mk "100.books".toList).request shelved (.get [.join "LIMIT 7, 7".toList]) =
        .ok (.ofQuery (before ++ "LIMIT 3, ".toList ++ ['5']) true) ∧
      (Collection.mk "100.books".toList).request shelved (.first [.join "LIMIT 7, 7".toList]) =
        .ok (.ofQuery (before ++ "LIMIT 3, ".toList ++ ['1']) false) := by
  have hquery : (Collection.mk "100.books".toList).query shelved =
      (Collection.mk "shelves LIMIT 1, 2 FROM books".toList).query { limit := 5, offset := 3 } := by
    decide
  have htake : shelved.takeAll [.join "LIMIT 7, 7".toList] =
      .ok { shelved with join := some "LIMIT 7, 7".toList } := rfl
  obtain ⟨-, hsame, hfirst⟩ := pagination_reads_back
  exact ⟨hquery, hsame _ _ _ _ hquery, htake, hfirst _ _ _ _ true htake⟩

end Collection

end DocQuery
