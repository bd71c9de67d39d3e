import DocQuery.Proofs.Update.Leaves
import DocQuery.Proofs.Update.Stored
/-!
# The deep merge of a document

What a change means for a stored record, said without a script. Under a
reading of right-hand sides as values, a leaf replaces what is there and
an object is merged key by key; a key that the object does not mention
keeps what it has (`mergeMembers_of_notMem`). `find_mergeMembers` says the
same of whole paths.
-/

namespace DocQuery

open Stored (Entries entries find set)

variable (value : Text → Stored)

namespace Script

mutual

/-- **A value merged into what is there.** A leaf replaces it; an object
is merged into the map that is there, or into an empty one. -/
def merge (prior : Option Stored) : Json → Stored
  | .obj (m :: ms) => .map (mergeMembers (entries prior) (m :: ms))
  | leaf => value (leafText leaf)

/-- Members merged into entries: the value of a key that is mentioned is
merged into what the key has, and every other key keeps what it has. -/
def mergeMembers (prior : Entries) : List (Text × Json) → Entries
  | [] => prior
  | (k, v) :: rest => fun key =>
    if key = k then some (merge (prior k) v) else mergeMembers prior rest key

end

variable {value}

/-- The merge at a key, member by member. -/
theorem mergeMembers_cons {k key : Text} {v : Json} {rest : List (Text × Json)} {prior : Entries} :
    mergeMembers value prior ((k, v) :: rest) key =
      if key = k then some (merge value (prior k) v) else mergeMembers value prior rest key := rfl

/-- A merged leaf is the value of its right-hand side. -/
theorem merge_of_isLeaf {v : Json} (h : v.isLeaf) (prior : Option Stored) :
    merge value prior v = value (leafText v) := by
  cases v with
  | obj members =>
    cases members with
    | nil => rfl
    | cons m ms => cases h
  | _ => rfl

/-- **A key that is mentioned has its value merged.** -/
theorem mergeMembers_of_lookup {ms : List (Text × Json)} {k : Text} {v : Json}
    (h : ms.lookup k = some v) (prior : Entries) :
    mergeMembers value prior ms k = some (merge value (prior k) v) := by
  induction ms with
  | nil => cases h
  | cons m rest ih =>
    obtain ⟨k', v'⟩ := m
    by_cases hk : k = k'
    · subst hk
      simp only [List.lookup_cons_self, Option.some.injEq] at h
      rw [mergeMembers_cons, if_pos rfl, h]
    · rw [List.lookup_cons, beq_false_of_ne hk] at h
      rw [mergeMembers_cons, if_neg hk]
      exact ih h

/-- **A key that is not mentioned keeps its value.** -/
theorem mergeMembers_of_notMem {ms : List (Text × Json)} {key : Text} (h : key ∉ Json.keys ms)
    (prior : Entries) : mergeMembers value prior ms key = prior key := by
  induction ms with
  | nil => rfl
  | cons m rest ih =>
    obtain ⟨k, v⟩ := m
    simp only [Json.keys, List.map_cons, List.mem_cons, not_or] at h
    rw [mergeMembers_cons, if_neg h.1]
    exact ih h.2

/-- The merge at a key looks at that key only. -/
theorem mergeMembers_congr {e e' : Entries} {key : Text} (h : e key = e' key)
    (ms : List (Text × Json)) : mergeMembers value e ms key = mergeMembers value e' ms key := by
  induction ms with
  | nil => exact h
  | cons m rest ih =>
    obtain ⟨k, v⟩ := m
    rw [mergeMembers_cons, mergeMembers_cons]
    split
    · rename_i hk
      rw [← hk, h]
    · exact ih

/-- Where the keys are distinct, members may be merged one by one. -/
theorem mergeMembers_set {k : Text} {v : Json} {rest : List (Text × Json)}
    (h : k ∉ Json.keys rest) (e : Entries) :
    mergeMembers value (set (fun w => merge value w v) k e) rest =
      mergeMembers value e ((k, v) :: rest) := by
  funext key
  rw [mergeMembers_cons]
  split
  · rename_i hk
    rw [hk, mergeMembers_of_notMem h, Stored.set_self]
  · rename_i hk
    exact mergeMembers_congr (Stored.set_of_ne hk) rest

/-- **Merging reaches every path of the document.** What the merged record
has at a path is the value there merged into what was at that path. -/
theorem find_mergeMembers {keys : List Text} : ∀ {ms : List (Text × Json)} {key : Text} {w : Json}
    (prior : Entries), Json.find? (.obj ms) (key :: keys) = some w →
      find (some (.map (mergeMembers value prior ms))) (key :: keys) =
        some (merge value (find (some (.map prior)) (key :: keys)) w) := by
  induction keys with
  | nil =>
    intro ms key w prior h
    obtain ⟨v, hv, hw⟩ := Option.bind_eq_some_iff.1 h
    cases hw
    exact mergeMembers_of_lookup hv prior
  | cons next below ih =>
    intro ms key w prior h
    obtain ⟨v, hv, hw⟩ := Option.bind_eq_some_iff.1 h
    simp only [find, Stored.entries_map] at ih ⊢
    rw [mergeMembers_of_lookup hv]
    cases v with
    | obj members =>
      cases members with
      | nil => cases hw
      | cons m ms => exact ih (entries (prior key)) hw
    | _ => cases hw

end Script

end DocQuery
