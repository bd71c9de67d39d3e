import DocQuery.Proofs.Update.Merge
import DocQuery.Proofs.Update.Pass
/-!
# Running an update script

Running a script is running its instructions in order on a stored record,
under any reading of the right-hand sides as values. What is sent for a
document is what one pass over it writes, and that is the texts of its
script, one by one. A script ends in the deep merge of its document and is
never stuck (`ofDocument_merges`). The hard step is `mergesAt`: below a
path, the guard and the instructions behind it come to one change of that
path (`run_enter`), which leaves the neighbours alone, so the members of an
object can be collected one by one under the path of the object.
-/

namespace DocQuery

open Stored (Entries change entries find set within)

namespace KeyPath

variable {p : KeyPath} {key : Text}

/-- The keys of a path, from the top. -/
def keys (p : KeyPath) : List Text := p.top :: p.below

theorem keys_child : (p.child key).keys = p.keys ++ [key] := rfl

/-- A path below another always has a text. -/
theorem text_child_ne_nil : (p.child key).text ≠ [] := by
  simp [text, child, bracketed]

end KeyPath

variable (value : Text → Stored)

/-! ## Instructions on a record -/

namespace Instruction

/-- The path that an instruction works on. -/
def path : Instruction → KeyPath
  | guard p => p
  | assign p _ => p

/-- **What an instruction makes of the value at its path.** A guard leaves
a map as it is and puts the empty map in place of anything else, and an
assignment puts the value of its right-hand side there. -/
def effect : Instruction → Option Stored → Stored
  | guard _, v => .map (entries v)
  | assign _ leaf, _ => value (leafText leaf)

/-- The record after an instruction, unless that is stuck. -/
def run (i : Instruction) (e : Entries) : Option Entries :=
  change (i.effect value) i.path.top i.path.below e

/-- What an assignment sets: the keys of its path, and its right-hand
side. -/
def assigned? : Instruction → Option (List Text × Text)
  | guard _ => none
  | assign p leaf => some (p.keys, leafText leaf)

end Instruction

namespace Script

/-- **The record after a script**, unless one of its instructions is
stuck. -/
def run : List Instruction → Entries → Option Entries
  | [], e => some e
  | i :: rest, e => (i.run value e).bind (run rest)

variable {value} {p : KeyPath} {e : Entries}

theorem run_append {is js : List Instruction} :
    run value (is ++ js) e = (run value is e).bind (run value js) := by
  induction is generalizing e with
  | nil => rfl
  | cons i rest ih =>
    rw [List.cons_append, run, run, Option.bind_assoc]
    exact Option.bind_congr fun e _ => ih

theorem run_singleton {i : Instruction} : run value [i] e = i.run value e := by
  simp [run]

/-! ## What a script is made of -/

theorem ofValue_of_isLeaf {v : Json} (h : v.isLeaf) : ofValue p v = [.assign p v] := by
  cases v with
  | obj members =>
    cases members with
    | nil => rfl
    | cons m ms => cases h
  | _ => rfl

/-- An object is guarded where its path has a text. -/
theorem ofValue_object (m : Text × Json) (ms : List (Text × Json)) (h : p.text ≠ []) :
    ofValue p (.obj (m :: ms)) = .guard p :: ofMembers p (m :: ms) := by
  rw [ofValue, entry, if_neg (by simpa using h)]
  rfl

theorem ofDocument_cons (k : Text) (v : Json) (rest : List (Text × Json)) :
    ofDocument ((k, v) :: rest) = ofMember k v ++ ofDocument rest := rfl

/-- **The assignments below a path are the leaves of the value there.** -/
theorem assigned_ofValue (v : Json) : ∀ p : KeyPath,
    (ofValue p v).filterMap Instruction.assigned? =
      v.leaves.map fun (keys, leaf) => (p.keys ++ keys, leafText leaf) := by
  induction v using Json.value_induction (Q := fun ms => ∀ p : KeyPath,
    (ofMembers p ms).filterMap Instruction.assigned? =
      (Json.memberLeaves ms).map fun (keys, leaf) => (p.keys ++ keys, leafText leaf)) with
  | leaf v h =>
    intro p
    simp [ofValue_of_isLeaf h, Json.leaves_of_isLeaf h, Instruction.assigned?]
  | object m ms ih =>
    intro p
    have hentry : (entry p).filterMap Instruction.assigned? = [] := by
      unfold entry
      split <;> rfl
    rw [ofValue, List.filterMap_append, hentry, Json.leaves]
    exact ih p
  | nil p => rfl
  | cons k v rest ihv ihrest p =>
    rw [ofMembers, List.filterMap_append, ihv, ihrest, Json.memberLeaves, List.map_append,
      List.map_map]
    congr 1
    refine List.map_congr_left fun l _ => ?_
    simp [KeyPath.keys_child]

/-- The assignments of a script are the leaves of its document. -/
theorem assigned_ofDocument (members : List (Text × Json)) :
    (ofDocument members).filterMap Instruction.assigned? =
      (Json.memberLeaves members).map fun (keys, leaf) => (keys, leafText leaf) := by
  induction members with
  | nil => rfl
  | cons m rest ih =>
    obtain ⟨k, v⟩ := m
    have hmember : (ofMember k v).filterMap Instruction.assigned? =
        v.leaves.map fun (keys, leaf) => (k :: keys, leafText leaf) := assigned_ofValue v ⟨k, []⟩
    rw [ofDocument_cons, List.filterMap_append, hmember, ih, Json.memberLeaves, List.map_append,
      List.map_map]
    rfl

/-! ## What a script does -/

variable (value) in
/-- What the instructions for members come to behind any function on the
map at their path: the members are merged there as well. -/
def MergesAt (p : KeyPath) (ms : List (Text × Json)) : Prop :=
  ∀ (f : Entries → Entries) (e : Entries),
    (within (fun e => some (f e)) p.keys e).bind (run value (ofMembers p ms)) =
      within (fun e => some (mergeMembers value (f e) ms)) p.keys e

/-- **An object is entered behind its guard.** Guard and members come to
one change of the path. -/
theorem run_enter {m : Text × Json} {ms : List (Text × Json)}
    (h : MergesAt value p (m :: ms)) :
    run value (.guard p :: ofMembers p (m :: ms)) e =
      change (fun w => merge value w (.obj (m :: ms))) p.top p.below e := by
  have hguard : change (fun w => .map (entries w)) p.top p.below e =
      (change (fun w => .map (entries w)) p.top p.below e).bind (within some p.keys) :=
    (Stored.change_bind_within (h := entries) (p := fun e => e)).symm
  calc run value (.guard p :: ofMembers p (m :: ms)) e
      = (change (fun w => .map (entries w)) p.top p.below e).bind
          (run value (ofMembers p (m :: ms))) := rfl
    _ = (change (fun w => .map (entries w)) p.top p.below e).bind
          (within (fun e => some (mergeMembers value e (m :: ms))) p.keys) := by
        rw [hguard, Option.bind_assoc, Option.bind_assoc]
        refine Option.bind_congr fun e' _ => ?_
        rw [h fun e => e, Stored.within_bind]
        rfl
    _ = change (fun w => merge value w (.obj (m :: ms))) p.top p.below e :=
        Stored.change_bind_within

/-- **The instructions for members merge the members.** The paths below
one that has been entered have texts, so each of their objects brings its
own guard. -/
theorem mergesAt (ms : List (Text × Json)) : (Json.keys ms).Nodup → Json.MembersDistinct ms →
    ∀ p : KeyPath, MergesAt value p ms := by
  induction ms using Json.members_induction (P := fun v => v.KeysDistinct → ∀ (p : KeyPath) e,
    p.text ≠ [] → run value (ofValue p v) e =
      change (fun w => merge value w v) p.top p.below e) with
  | leaf v h _ p e _ =>
    rw [ofValue_of_isLeaf h, run_singleton, Instruction.run]
    simp only [merge_of_isLeaf h]
    rfl
  | object m ms ih hdistinct p e htext =>
    rw [ofValue_object m ms htext]
    exact run_enter (ih hdistinct.1 hdistinct.2 p)
  | nil =>
    intro _ _ p f e
    exact Option.bind_fun_some _
  | cons k v rest ihv ihrest =>
    intro hnodup hdistinct p f e
    obtain ⟨hk, hrest⟩ := List.nodup_cons.1 hnodup
    have hvalue : ∀ e, run value (ofValue (p.child k) v) e =
        within (fun e => some (set (fun w => merge value w v) k e)) p.keys e := fun e => by
      rw [ihv hdistinct.1 _ _ KeyPath.text_child_ne_nil]
      exact Stored.change_child
    -- the first member is one more setting in the map at the path, and the
    -- others are merged behind it
    have hsplit : run value (ofMembers p ((k, v) :: rest)) = fun e =>
        (run value (ofValue (p.child k) v) e).bind (run value (ofMembers p rest)) :=
      funext fun e => run_append
    rw [hsplit, ← Option.bind_assoc, Option.bind_congr fun e _ => hvalue e, Stored.within_bind]
    rw [show (fun e => (some (f e)).bind fun e => some (set (fun w => merge value w v) k e)) =
      fun e => some (set (fun w => merge value w v) k (f e)) from rfl]
    rw [ihrest hrest hdistinct.2 p]
    simp only [mergeMembers_set hk]

/-- A guard at the top of a record is never stuck. -/
theorem run_guard_top {k : Text} {is : List Instruction} :
    run value (.guard ⟨k, []⟩ :: is) e = run value is (set (fun w => .map (entries w)) k e) := rfl

/-- A member at the top comes to one change of its key, whether or not its
path has a text: the guard of the top is there in any case. -/
theorem run_ofMember {k : Text} {v : Json} (h : v.KeysDistinct) :
    run value (ofMember k v) e = some (set (fun w => merge value w v) k e) := by
  have henter : ∀ m ms, v = .obj (m :: ms) → ∀ e,
      run value (.guard ⟨k, []⟩ :: ofMembers ⟨k, []⟩ (m :: ms)) e =
        some (set (fun w => merge value w v) k e) := by
    rintro m ms rfl e
    exact run_enter (mergesAt (m :: ms) h.1 h.2 ⟨k, []⟩)
  by_cases hleaf : v.isLeaf
  · rw [ofMember, run_guard_top, ofValue_of_isLeaf hleaf, run_singleton]
    simp only [merge_of_isLeaf hleaf]
    exact congrArg some Stored.set_set
  · obtain ⟨m, ms, rfl⟩ := Json.exists_members_of_not_isLeaf hleaf
    rw [ofMember, ofValue, entry]
    split
    · exact henter m ms rfl e
    · -- guarded twice: the second guard finds the map that the first has left
      rw [List.singleton_append, run_guard_top]
      exact (henter m ms rfl _).trans (congrArg some Stored.set_set)

/-- **A script ends in the merge of its document.** -/
theorem run_ofDocument (members : List (Text × Json)) : (Json.keys members).Nodup →
    Json.MembersDistinct members → ∀ e,
      run value (ofDocument members) e = some (mergeMembers value e members) := by
  induction members with
  | nil => intro _ _ e; rfl
  | cons m rest ih =>
    obtain ⟨k, v⟩ := m
    intro hnodup hdistinct e
    obtain ⟨hk, hrest⟩ := List.nodup_cons.1 hnodup
    rw [ofDocument_cons, run_append, run_ofMember hdistinct.1, Option.bind_some]
    exact (ih hrest hdistinct.2 _).trans (congrArg some (mergeMembers_set hk e))

/-- A merged record has at the path of each leaf the leaf's value. -/
theorem find_leaf {members : List (Text × Json)} (h : (Json.obj members).KeysDistinct)
    {path : List Text} {leaf : Json} (hmem : (path, leaf) ∈ Json.memberLeaves members)
    (record : Entries) :
    find (some (.map (mergeMembers value record members))) path = some (value (leafText leaf)) := by
  obtain ⟨k, below, rfl, -, hfind, hleaf⟩ :=
    Json.find?_of_mem_memberLeaves members h.1 h.2 path leaf hmem
  rw [find_mergeMembers record hfind, merge_of_isLeaf hleaf]

/-- And at every path where the document has an object, a key that the
object does not mention has what it had. -/
theorem find_notMem {members : List (Text × Json)} {path : List Text} {m : Text × Json}
    {ms : List (Text × Json)} (h : Json.find? (.obj members) path = some (.obj (m :: ms)))
    {key : Text} (hkey : key ∉ Json.keys (m :: ms)) (record : Entries) :
    find (some (.map (mergeMembers value record members))) (path ++ [key]) =
      find (some (.map record)) (path ++ [key]) := by
  rw [Stored.find_concat, Stored.find_concat]
  cases path with
  | nil =>
    cases h
    exact mergeMembers_of_notMem hkey record
  | cons k below =>
    rw [find_mergeMembers record h]
    exact mergeMembers_of_notMem hkey _

/-- **A script is the deep merge of its document.** What one pass over the
document writes are the texts of a list of guards and assignments, spelled
out here. The assignments are the leaves of the document, depth first and
in order; run on any record, under any reading of right-hand sides, the
list is not stuck and ends in the merge, in which each leaf is at its path
and every key that the document does not mention, at any depth, is as
before. -/
theorem ofDocument_merges (value : Text → Stored) {members : List (Text × Json)}
    (h : (Json.obj members).KeysDistinct) :
    (statements members = passMembers [] 1 [] members ∧
      passMembers [] 1 [] members = (ofDocument members).map fun
        | .guard p => "if (typeof ".toList ++ p.text ++ " === 'undefined' || !(".toList ++
          p.text ++ " instanceof Object)) \x7b".toList ++ p.text ++ " = \x7b\x7d\x7d;".toList
        | .assign p leaf => p.text ++ " = ".toList ++ leafText leaf ++ [';']) ∧
    (ofDocument members).filterMap Instruction.assigned? =
      (Json.memberLeaves members).map (fun (keys, leaf) => (keys, leafText leaf)) ∧
    ∀ record : Entries,
      run value (ofDocument members) record = some (mergeMembers value record members) ∧
      (∀ path leaf, (path, leaf) ∈ Json.memberLeaves members →
        find (some (.map (mergeMembers value record members))) path =
          some (value (leafText leaf))) ∧
      (∀ path m ms, Json.find? (.obj members) path = some (.obj (m :: ms)) →
        ∀ key, key ∉ Json.keys (m :: ms) →
          find (some (.map (mergeMembers value record members))) (path ++ [key]) =
            find (some (.map record)) (path ++ [key])) := by
  have hpass : passMembers [] 1 [] members = statements members := passMembers_top [] members []
  refine ⟨⟨hpass.symm, ?_⟩, assigned_ofDocument members, fun record => ⟨?_, ?_, ?_⟩⟩
  · rw [hpass, statements]
    refine List.map_congr_left fun i _ => ?_
    cases i with
    | guard p => rfl
    | assign p leaf => rfl
  · exact run_ofDocument members h.1 h.2 record
  · exact fun path leaf hmem => find_leaf h hmem record
  · exact fun path m ms hfind key hkey => find_notMem hfind hkey record

/-- A change with an object in an object, an empty object, and an object
under the empty key, which has no text to guard. -/
def nestedChange : List (Text × Json) :=
  [("a".toList, .obj [("b".toList, .obj [("c".toList, .str "d".toList)]), ("x".toList, .obj [])]),
    ([], .obj [("y".toList, .bool true)])]

/-- A record with a leaf where the change has an object, and with a key
that the change does not mention. -/
def storedRecord : Entries :=
  set (fun _ => .map (set (fun _ => .leaf ['1']) "b".toList
    (set (fun _ => .leaf ['2']) "z".toList fun _ => none))) "a".toList fun _ => none

/-- The statements of the nested change. The object under the empty key is
not guarded again before it is entered. -/
def nestedStatements : List Text :=
  ["if (typeof a === 'undefined' || !(a instanceof Object)) \x7ba = \x7b\x7d\x7d;".toList,
    "if (typeof a === 'undefined' || !(a instanceof Object)) \x7ba = \x7b\x7d\x7d;".toList,
    "if (typeof a[\"b\"] === 'undefined' || !(a[\"b\"] instanceof Object)) \x7ba[\"b\"] = ".toList ++
      "\x7b\x7d\x7d;".toList,
    "a[\"b\"][\"c\"] = \"d\";".toList, "a[\"x\"] = \x7b\x7d;".toList,
    "if (typeof  === 'undefined' || !( instanceof Object)) \x7b = \x7b\x7d\x7d;".toList,
    "[\"y\"] = 1;".toList]

/-- The nested change, written and run on that record. -/
theorem ofDocument_merges_nested : (Json.obj nestedChange).KeysDistinct ∧
    statements nestedChange = nestedStatements ∧
    ∃ after, run .leaf (ofDocument nestedChange) storedRecord = some after ∧
      find (some (.map after)) ["a".toList, "b".toList, "c".toList] =
        some (.leaf "\"d\"".toList) ∧
      find (some (.map after)) [[], "y".toList] = some (.leaf ['1']) ∧
      find (some (.map after)) ["a".toList, "z".toList] = some (.leaf ['2']) := by
  have hdistinct : (Json.obj nestedChange).KeysDistinct := by decide
  obtain ⟨⟨hpass, htexts⟩, -, hrun⟩ := ofDocument_merges .leaf hdistinct
  obtain ⟨hrun, hleaf, hkept⟩ := hrun storedRecord
  have hstatements : statements nestedChange = nestedStatements := by
    rw [hpass, htexts]
    decide +kernel
  refine ⟨hdistinct, hstatements, _, hrun, hleaf _ (.str "d".toList) ?_, hleaf _ (.bool true) ?_, ?_⟩
  · exact List.mem_cons_self
  · exact .tail _ (.tail _ (.head _))
  · exact (hkept ["a".toList] _ _ rfl "z".toList (by decide)).trans rfl

end Script

end DocQuery
