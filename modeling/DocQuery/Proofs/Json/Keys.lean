import DocQuery.Json.Read
/-!
# Distinct keys

The members of an object are a list, and nothing in the type keeps a key
from standing there twice. `KeysDistinct` says that none does, at any
depth. Every value that is read from a text has the property, since the
reader sets a repeated key in place (`keysDistinct_of_read?`).
-/

namespace DocQuery

namespace Json

/-- The keys of members, in order. -/
def keys (members : List (Text × Json)) : List Text := members.map Prod.fst

mutual

/-- No object in a value has a key twice. -/
def KeysDistinct : Json → Prop
  | arr items => ItemsDistinct items
  | obj members => (keys members).Nodup ∧ MembersDistinct members
  | _ => True

/-- No object in the elements of an array has a key twice. -/
def ItemsDistinct : List Json → Prop
  | [] => True
  | v :: rest => KeysDistinct v ∧ ItemsDistinct rest

/-- No object in the values of members has a key twice. -/
def MembersDistinct : List (Text × Json) → Prop
  | [] => True
  | (_, v) :: rest => KeysDistinct v ∧ MembersDistinct rest

end

mutual

/-- Whether a value has distinct keys can be computed. -/
instance decidableKeysDistinct : ∀ v, Decidable (KeysDistinct v)
  | arr items => decidableItemsDistinct items
  | obj members => @instDecidableAnd _ _ inferInstance (decidableMembersDistinct members)
  | null => .isTrue trivial
  | bool _ => .isTrue trivial
  | num _ => .isTrue trivial
  | str _ => .isTrue trivial

instance decidableItemsDistinct : ∀ items, Decidable (ItemsDistinct items)
  | [] => .isTrue trivial
  | v :: rest => @instDecidableAnd _ _ (decidableKeysDistinct v) (decidableItemsDistinct rest)

instance decidableMembersDistinct : ∀ members, Decidable (MembersDistinct members)
  | [] => .isTrue trivial
  | (_, v) :: rest =>
    @instDecidableAnd _ _ (decidableKeysDistinct v) (decidableMembersDistinct rest)

end

/-! ## Elements -/

theorem itemsDistinct_iff {vs : List Json} : ItemsDistinct vs ↔ ∀ v ∈ vs, v.KeysDistinct := by
  induction vs with
  | nil => exact iff_of_true trivial (List.forall_mem_nil _)
  | cons v rest ih => rw [ItemsDistinct, ih, List.forall_mem_cons]

/-- The values of members have distinct keys in them if the members have. -/
theorem itemsDistinct_map {members : List (Text × Json)} (h : MembersDistinct members) :
    ItemsDistinct (members.map (·.2)) := by
  induction members with
  | nil => trivial
  | cons m rest ih => exact ⟨h.1, ih h.2⟩

/-- An array of texts has no keys at all. -/
theorem keysDistinct_texts (texts : List Text) : (arr (texts.map str)).KeysDistinct := by
  refine itemsDistinct_iff.2 fun v hv => ?_
  obtain ⟨text, -, rfl⟩ := List.mem_map.1 hv
  trivial

/-! ## Setting a key -/

variable {ms : List (Text × Json)} {k : Text} {v : Json}

/-- A key that is set is there, and every key that was there stays. -/
theorem mem_keys_setMember {key : Text} :
    key ∈ keys (setMember ms k v) ↔ key = k ∨ key ∈ keys ms := by
  induction ms with
  | nil => simp [setMember, keys]
  | cons m rest ih =>
    obtain ⟨k', v'⟩ := m
    by_cases h : k' = k
    · subst h
      simp [setMember, keys]
    · simp only [setMember, if_neg h]
      simp only [keys, List.map_cons, List.mem_cons] at ih ⊢
      rw [ih]
      exact or_left_comm

/-- Setting a key keeps keys distinct. -/
theorem nodup_keys_setMember (h : (keys ms).Nodup) : (keys (setMember ms k v)).Nodup := by
  induction ms with
  | nil => simp [setMember, keys]
  | cons m rest ih =>
    obtain ⟨k', v'⟩ := m
    obtain ⟨hnot, hrest⟩ := List.nodup_cons.1 h
    by_cases hk : k' = k
    · simpa [setMember, hk, keys] using h
    · rw [setMember, if_neg hk]
      refine List.nodup_cons.2 ⟨fun hmem => ?_, ih hrest⟩
      rcases mem_keys_setMember.1 hmem with heq | hmem
      · exact hk heq
      · exact hnot hmem

/-- Setting a key keeps the values without repeated keys. -/
theorem membersDistinct_setMember (hms : MembersDistinct ms) (hv : KeysDistinct v) :
    MembersDistinct (setMember ms k v) := by
  induction ms with
  | nil => exact ⟨hv, trivial⟩
  | cons m rest ih =>
    obtain ⟨k', v'⟩ := m
    obtain ⟨hhead, hrest⟩ := hms
    rw [setMember]
    split
    · exact ⟨hv, hrest⟩
    · exact ⟨hhead, ih hrest⟩

/-- A key that is not there is set at the end. -/
theorem setMember_of_notMem (h : k ∉ keys ms) : setMember ms k v = ms ++ [(k, v)] := by
  induction ms with
  | nil => rfl
  | cons m rest ih =>
    obtain ⟨hne, hrest⟩ := not_or.1 (mt List.mem_cons.2 h)
    rw [setMember, if_neg (Ne.symm hne), ih hrest, List.cons_append]

/-- **Members with distinct keys stay as they are written.** -/
theorem distinctMembers_of_nodup (h : (keys ms).Nodup) : distinctMembers ms = ms := by
  have hfold : ∀ rest before : List (Text × Json), (keys (before ++ rest)).Nodup →
      rest.foldl (fun ms m => setMember ms m.1 m.2) before = before ++ rest := by
    intro rest
    induction rest with
    | nil => exact fun before _ => (List.append_nil before).symm
    | cons m rest ih =>
      intro before hnodup
      obtain ⟨k, v⟩ := m
      have hsplit : before ++ (k, v) :: rest = before ++ [(k, v)] ++ rest :=
        (List.append_assoc before [(k, v)] rest).symm
      have hk : k ∉ keys before := by
        rw [keys, List.map_append, List.nodup_append] at hnodup
        exact fun hmem => hnodup.2.2 k hmem k List.mem_cons_self rfl
      rw [List.foldl_cons, setMember_of_notMem hk, hsplit]
      exact ih _ (hsplit ▸ hnodup)
  exact hfold ms [] h

/-! ## Values that are read -/

/-- Members set one after the other have distinct keys. -/
theorem keysDistinct_foldl_setMember {written : List (Text × Json)}
    (hw : MembersDistinct written) (hnodup : (keys ms).Nodup) (hms : MembersDistinct ms) :
    KeysDistinct (obj (written.foldl (fun ms (k, v) => setMember ms k v) ms)) := by
  induction written generalizing ms with
  | nil => exact ⟨hnodup, hms⟩
  | cons m rest ih =>
    obtain ⟨k, v⟩ := m
    obtain ⟨hv, hrest⟩ := hw
    exact ih hrest (nodup_keys_setMember hnodup) (membersDistinct_setMember hms hv)

end Json

open Json

variable {number? : Numeral → Option Number}

namespace Tree

mutual

/-- A tree gives a value with distinct keys. -/
theorem keysDistinct_toJson? {v : Json} :
    ∀ t : Tree, t.toJson? number? = some v → KeysDistinct v
  | null, h => by cases h; trivial
  | bool _, h => by cases h; trivial
  | num _, h => by
    obtain ⟨n, -, hn⟩ := Option.bind_eq_some_iff.1 h
    cases hn
    trivial
  | str _, h => by
    obtain ⟨s, -, hs⟩ := Option.bind_eq_some_iff.1 h
    cases hs
    trivial
  | arr items, h => by
    obtain ⟨vs, hvs, harr⟩ := Option.bind_eq_some_iff.1 h
    cases harr
    exact itemsDistinct_toItems? items hvs
  | obj members, h => by
    obtain ⟨ms, hms, hobj⟩ := Option.bind_eq_some_iff.1 h
    cases hobj
    exact keysDistinct_foldl_setMember (membersDistinct_toMembers? members hms)
      List.nodup_nil trivial

theorem itemsDistinct_toItems? {vs : List Json} :
    ∀ ts : List Tree, toItems? number? ts = some vs → ItemsDistinct vs
  | [], h => by cases h; trivial
  | t :: rest, h => by
    obtain ⟨v, hv, h⟩ := Option.bind_eq_some_iff.1 h
    obtain ⟨vs, hvs, h⟩ := Option.bind_eq_some_iff.1 h
    cases h
    exact ⟨keysDistinct_toJson? t hv, itemsDistinct_toItems? rest hvs⟩

theorem membersDistinct_toMembers? {ms : List (Text × Json)} :
    ∀ ts : List (List Piece × Tree), toMembers? number? ts = some ms → MembersDistinct ms
  | [], h => by cases h; trivial
  | (_, t) :: rest, h => by
    obtain ⟨k, -, h⟩ := Option.bind_eq_some_iff.1 h
    obtain ⟨v, hv, h⟩ := Option.bind_eq_some_iff.1 h
    obtain ⟨ms, hms, h⟩ := Option.bind_eq_some_iff.1 h
    cases h
    exact ⟨keysDistinct_toJson? t hv, membersDistinct_toMembers? rest hms⟩

end

end Tree

/-- **A value that is read has distinct keys**, whatever the text
repeats. -/
theorem Json.keysDistinct_of_read? {t : Text} {v : Json} (h : Json.read? t = some v) :
    v.KeysDistinct := by
  obtain ⟨tree, -, htree⟩ := Option.bind_eq_some_iff.1 h
  exact Tree.keysDistinct_toJson? tree htree

end DocQuery
