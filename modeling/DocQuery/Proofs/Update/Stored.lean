import DocQuery.Document
import Mathlib.Logic.Function.Basic
/-!
# Stored records

The record that an update script runs against: a tree of maps, in which
keys may be missing, with leaves that nothing looks into. `change` is the
one way in which an instruction touches a record. It replaces the value at
a key path, and it is stuck where a value on the way is no map. `within`
runs a whole piece of a script in the map at a path; the two meet in
`change_child`, and `within_bind` lets instructions be collected under
the path that they share.
-/

namespace DocQuery

/-- A stored value. -/
inductive Stored
  /-- A value that nothing looks into. -/
  | leaf (text : Text)
  /-- A map. A key without a value is missing. -/
  | map (entries : Text → Option Stored)

namespace Stored

/-- The keys and values of a map. A record is such. -/
abbrev Entries := Text → Option Stored

/-- The entries of a value, none where it is missing or no map. -/
def entries : Option Stored → Entries
  | some (map e) => e
  | _ => fun _ => none

/-- The value at a path of keys below a value. -/
def find : Option Stored → List Text → Option Stored
  | v, [] => v
  | v, key :: keys => find (entries v key) keys

/-- The entries with one value replaced. -/
def set (f : Option Stored → Stored) (key : Text) (e : Entries) : Entries :=
  Function.update e key (some (f (e key)))

/-- **A record with the value at a path replaced.** Whatever is at the
path, or nothing, becomes `f` of it; above the path there must be maps. -/
def change (f : Option Stored → Stored) : Text → List Text → Entries → Option Entries
  | key, [], e => some (set f key e)
  | key, next :: below, e =>
    match e key with
    | some (map inner) =>
      (change f next below inner).map fun inner => Function.update e key (some (map inner))
    | _ => none

/-- A record with the map at a path run through a function. -/
def within (f : Entries → Option Entries) : List Text → Entries → Option Entries
  | [], e => f e
  | key :: keys, e =>
    match e key with
    | some (map inner) =>
      (within f keys inner).map fun inner => Function.update e key (some (map inner))
    | _ => none

variable {f g : Option Stored → Stored} {key : Text} {keys : List Text} {e : Entries}

@[simp] theorem entries_map : entries (some (map e)) = e := rfl

/-- A set key has the new value. -/
@[simp] theorem set_self : set f key e key = some (f (e key)) := Function.update_self ..

/-- And every other key has its old one. -/
theorem set_of_ne {other : Text} (h : other ≠ key) : set f key e other = e other :=
  Function.update_of_ne h ..

/-- Setting a key twice is setting it once. -/
theorem set_set : set g key (set f key e) = set (fun v => g (some (f v))) key e := by
  rw [set, set_self, set, Function.update_idem, set]

/-- One key further is one lookup in the entries. -/
theorem find_concat {v : Option Stored} : find v (keys ++ [key]) = entries (find v keys) key := by
  induction keys generalizing v with
  | nil => rfl
  | cons next below ih => exact ih

/-! ## Changes that follow each other -/

/-- Two runs in the map at one path are one run. -/
theorem within_bind {p q : Entries → Option Entries} :
    (within p keys e).bind (within q keys) = within (fun e => (p e).bind q) keys e := by
  induction keys generalizing e with
  | nil => rfl
  | cons key below ih =>
    simp only [within]
    -- only a map on the way can be entered; both sides are stuck at anything else
    rcases hv : e key with _ | _ | inner
    · rfl
    · rfl
    · simp only
      rw [← ih]
      cases hc : within p below inner with
      | none => rfl
      | some inner' => simp [Function.update_idem]

/-- **A change one key further is a setting in the map before.** -/
theorem change_child {below : List Text} {last : Text} :
    change f key (below ++ [last]) e = within (fun e => some (set f last e)) (key :: below) e := by
  induction below generalizing key e with
  | nil => rfl
  | cons next below ih =>
    rw [List.cons_append, change, within]
    rcases hv : e key with _ | _ | inner
    · rfl
    · rfl
    · simp only [ih]

/-- **A path that has been made a map can be entered.** -/
theorem change_bind_within {h : Option Stored → Entries} {p : Entries → Entries} :
    (change (fun v => map (h v)) key keys e).bind (within (fun e => some (p e)) (key :: keys)) =
      change (fun v => map (p (h v))) key keys e := by
  induction keys generalizing key e with
  | nil => simp [change, set, within, Function.update_idem]
  | cons next below ih =>
    rw [change, change]
    rcases hv : e key with _ | _ | inner
    · rfl
    · rfl
    · simp only
      rw [← ih]
      cases hc : change (fun v => map (h v)) next below inner with
      | none => rfl
      | some inner' =>
        -- the change has put a map at the first key, so the run gets below it
        rw [Option.map_some, Option.bind_some, Option.bind_some, within, Function.update_self]
        simp only [Function.update_idem]

end Stored

end DocQuery
