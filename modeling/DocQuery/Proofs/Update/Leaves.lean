import DocQuery.Proofs.Json.Keys
import DocQuery.Document
/-!
# Leaves of a change

A change is a document whose non-empty objects are branches and whose
other values, the empty object among them, are leaves. The file holds the
induction that goes with this reading (`members_induction`), the leaves of
a document with their paths in depth-first order, and the lookup of a path
in a document.
-/

namespace DocQuery

namespace Json

/-- Whether a value is a leaf of a change: anything but an object with
members. -/
def isLeaf : Json → Bool
  | obj (_ :: _) => false
  | _ => true

/-- What is no leaf is an object with members. -/
theorem exists_members_of_not_isLeaf {v : Json} (h : ¬ v.isLeaf) : ∃ m ms, v = obj (m :: ms) := by
  cases v with
  | obj members =>
    cases members with
    | nil => exact absurd rfl h
    | cons m ms => exact ⟨m, ms, rfl⟩
  | _ => exact absurd rfl h

/-! ## Induction -/

section Induction

variable {P : Json → Prop} {Q : List (Text × Json) → Prop}

mutual

/-- **Induction on a change**, for a value: leaves, and objects by their
members. -/
theorem value_induction (leaf : ∀ v, v.isLeaf → P v)
    (object : ∀ m ms, Q (m :: ms) → P (obj (m :: ms))) (nil : Q [])
    (cons : ∀ k v rest, P v → Q rest → Q ((k, v) :: rest)) : ∀ v, P v
  | obj (m :: ms) => object m ms (members_induction leaf object nil cons (m :: ms))
  | obj [] => leaf _ rfl
  | arr _ => leaf _ rfl
  | str _ => leaf _ rfl
  | num _ => leaf _ rfl
  | bool _ => leaf _ rfl
  | null => leaf _ rfl

/-- And for members. -/
theorem members_induction (leaf : ∀ v, v.isLeaf → P v)
    (object : ∀ m ms, Q (m :: ms) → P (obj (m :: ms))) (nil : Q [])
    (cons : ∀ k v rest, P v → Q rest → Q ((k, v) :: rest)) : ∀ ms, Q ms
  | [] => nil
  | (k, v) :: rest =>
    cons k v rest (value_induction leaf object nil cons v)
      (members_induction leaf object nil cons rest)

end

end Induction

/-! ## Leaves and paths -/

mutual

/-- The leaves of a value, each with the keys that lead to it. -/
def leaves : Json → List (List Text × Json)
  | obj (m :: ms) => memberLeaves (m :: ms)
  | leaf => [([], leaf)]

/-- **The leaves of members**, depth first and in the order of the keys. -/
def memberLeaves : List (Text × Json) → List (List Text × Json)
  | [] => []
  | (k, v) :: rest => (leaves v).map (fun (keys, leaf) => (k :: keys, leaf)) ++ memberLeaves rest

end

/-- The value at a path of keys in a value. -/
def find? : Json → List Text → Option Json
  | v, [] => some v
  | obj members, key :: keys => (members.lookup key).bind fun v => find? v keys
  | _, _ :: _ => none

/-- A leaf is its own and only leaf. -/
theorem leaves_of_isLeaf {v : Json} (h : v.isLeaf) : leaves v = [([], v)] := by
  cases v with
  | obj members =>
    cases members with
    | nil => rfl
    | cons m ms => cases h
  | _ => rfl

/-- A member whose key does not come before is found first. -/
theorem find?_cons_of_ne {k k' : Text} {v : Json} {rest : List (Text × Json)} {path : List Text}
    (h : k' ≠ k) : find? (obj ((k, v) :: rest)) (k' :: path) = find? (obj rest) (k' :: path) := by
  rw [find?, List.lookup_cons, beq_false_of_ne h]
  rfl

/-- **Every leaf is found at its path**, where keys are distinct. -/
theorem find?_of_mem_memberLeaves (ms : List (Text × Json)) : (keys ms).Nodup →
    MembersDistinct ms → ∀ path leaf, (path, leaf) ∈ memberLeaves ms →
      ∃ k below, path = k :: below ∧ k ∈ keys ms ∧ find? (obj ms) path = some leaf ∧
        leaf.isLeaf := by
  induction ms using members_induction (P := fun v => v.KeysDistinct → ∀ path leaf,
    (path, leaf) ∈ leaves v → find? v path = some leaf ∧ leaf.isLeaf) with
  | leaf v h _ path leaf hmem =>
    rw [leaves_of_isLeaf h, List.mem_singleton] at hmem
    cases hmem
    exact ⟨rfl, h⟩
  | object m ms ih hdistinct path leaf hmem =>
    obtain ⟨k, below, -, -, hfind⟩ := ih hdistinct.1 hdistinct.2 path leaf hmem
    exact hfind
  | nil =>
    intro _ _ path leaf hmem
    cases hmem
  | cons k v rest ihv ihrest =>
    intro hnodup hdistinct path leaf hmem
    obtain ⟨hk, hrest⟩ := List.nodup_cons.1 hnodup
    rw [memberLeaves, List.mem_append] at hmem
    rcases hmem with hmem | hmem
    · obtain ⟨⟨below, leaf'⟩, hleaf, heq⟩ := List.mem_map.1 hmem
      cases heq
      obtain ⟨hfind, hisLeaf⟩ := ihv hdistinct.1 below leaf hleaf
      refine ⟨k, below, rfl, List.mem_cons_self, ?_, hisLeaf⟩
      rw [find?, List.lookup_cons_self]
      exact hfind
    · obtain ⟨k', below, rfl, hmem', hfind, hisLeaf⟩ :=
        ihrest hrest hdistinct.2 path leaf hmem
      have hne : k' ≠ k := by
        rintro rfl
        exact hk hmem'
      exact ⟨k', below, rfl, List.mem_cons_of_mem _ hmem', (find?_cons_of_ne hne).trans hfind,
        hisLeaf⟩

end Json

end DocQuery
