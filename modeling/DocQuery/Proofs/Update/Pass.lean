import DocQuery.Proofs.Sequence
import DocQuery.Proofs.Update.Leaves
/-!
# Update scripts in one pass

The statements of a change can be written without its instructions, in one
pass that goes down into objects and puts each statement at the end of
those so far. The pass carries a path as text and a depth, by which it
tells the keys at the top from those below: a path may be empty at either
place. What it writes for members depends on the path and on whether they
are at the top, and not on what is there already (`passMembers_eq`,
`passMembers_top`), so a pass over a document gives its statements, and a
document can be cut between any two of its members (`statements_append`).
-/

namespace DocQuery

namespace Script

/-! ## The pass -/

mutual

/-- The statements so far, and behind them those for a value at a path. -/
def passValue (path : Text) (depth : Nat) (out : List Text) : Json → List Text
  | .obj (m :: ms) =>
    let out := if path.isEmpty then out else out ++ [guardStatement path]
    passMembers path (depth + 1) out (m :: ms)
  | leaf => out ++ [path ++ " = ".toList ++ leafText leaf ++ [';']]

/-- **The statements so far, and behind them those for members** of the
object at a path. The path of members at the top, whose depth is 1, is
their key. -/
def passMembers (path : Text) (depth : Nat) (out : List Text) : List (Text × Json) → List Text
  | [] => out
  | (key, v) :: rest =>
    let out :=
      if 1 < depth then passValue (path ++ KeyPath.bracketed key) depth out v
      else passValue key depth (out ++ [guardStatement key]) v
    passMembers path depth out rest

end

variable {path : Text} {depth : Nat} {out : List Text} {p : KeyPath}

theorem passValue_of_isLeaf {v : Json} (h : v.isLeaf) :
    passValue p.text depth out v = out ++ [(Instruction.assign p v).text] := by
  cases v with
  | obj members =>
    cases members with
    | nil => rfl
    | cons m ms => cases h
  | _ => rfl

/-- The guard of an object goes behind the statements so far. -/
theorem passValue_object (m : Text × Json) (ms : List (Text × Json)) :
    passValue p.text depth out (.obj (m :: ms)) =
      passMembers p.text (depth + 1) (out ++ (entry p).map Instruction.text) (m :: ms) := by
  rw [passValue, entry]
  split
  · rw [List.map_nil, List.append_nil]
  · rfl

/-- A member below the top is at the path of its key. -/
theorem passMembers_cons (h : 1 < depth) (key : Text) (v : Json) (rest : List (Text × Json)) :
    passMembers p.text depth out ((key, v) :: rest) =
      passMembers p.text depth (passValue (p.child key).text depth out v) rest := by
  have hchild : (p.child key).text = p.text ++ KeyPath.bracketed key := by
    simp [KeyPath.text, KeyPath.child]
  rw [passMembers, if_pos h, hchild]

mutual

/-- **What the pass writes for the value at a path** are the statements of
its instructions, behind whatever is there. -/
theorem passValue_eq : ∀ (v : Json) (p : KeyPath) (depth : Nat) (out : List Text), 0 < depth →
    passValue p.text depth out v = out ++ (ofValue p v).map Instruction.text
  | .obj (m :: ms), p, depth, out, hdepth => by
    rw [passValue_object, passMembers_eq (m :: ms) p _ _ (Nat.succ_lt_succ hdepth), ofValue,
      List.map_append, List.append_assoc]
  | .obj [], _, _, _, _ => passValue_of_isLeaf rfl
  | .arr _, _, _, _, _ => passValue_of_isLeaf rfl
  | .str _, _, _, _, _ => passValue_of_isLeaf rfl
  | .num _, _, _, _, _ => passValue_of_isLeaf rfl
  | .bool _, _, _, _, _ => passValue_of_isLeaf rfl
  | .null, _, _, _, _ => passValue_of_isLeaf rfl

/-- And so for members below the top. -/
theorem passMembers_eq : ∀ (ms : List (Text × Json)) (p : KeyPath) (depth : Nat)
    (out : List Text), 1 < depth →
      passMembers p.text depth out ms = out ++ (ofMembers p ms).map Instruction.text
  | [], _, _, out, _ => (List.append_nil out).symm
  | (key, v) :: rest, p, depth, out, hdepth => by
    rw [passMembers_cons hdepth, passValue_eq v _ _ _ (Nat.zero_lt_of_lt hdepth),
      passMembers_eq rest p _ _ hdepth, ofMembers, List.map_append, List.append_assoc]

end

/-! ## Documents in parts -/

theorem statements_cons (key : Text) (v : Json) (rest : List (Text × Json)) :
    statements ((key, v) :: rest) = (ofMember key v).map Instruction.text ++ statements rest :=
  List.map_append

/-- A member brings one statement at least. -/
theorem statements_ne_nil {members : List (Text × Json)} (h : members ≠ []) :
    statements members ≠ [] := by
  cases members with
  | nil => exact absurd rfl h
  | cons m rest => exact List.cons_ne_nil _ _

/-- **What the pass writes for members at the top** are their statements,
whatever the path that it carries. -/
theorem passMembers_top (path : Text) (ms : List (Text × Json)) :
    ∀ out : List Text, passMembers path 1 out ms = out ++ statements ms := by
  induction ms with
  | nil =>
    intro out
    exact (List.append_nil out).symm
  | cons m rest ih =>
    intro out
    obtain ⟨key, v⟩ := m
    have htop : (KeyPath.mk key []).text = key := List.append_nil key
    have hvalue := passValue_eq v ⟨key, []⟩ 1 (out ++ [guardStatement key]) Nat.one_pos
    rw [htop] at hvalue
    rw [passMembers, if_neg (Nat.lt_irrefl 1), hvalue, ih, statements_cons, ofMember,
      List.map_cons, Instruction.text, htop]
    simp only [List.append_assoc, List.cons_append, List.nil_append]

/-- **So the pass writes for members the same behind any statements.** -/
theorem passMembers_eq_append (path : Text) (depth : Nat) (out : List Text)
    (ms : List (Text × Json)) :
    passMembers path (depth + 1) out ms = out ++ passMembers path (depth + 1) [] ms := by
  have htext : (KeyPath.mk path []).text = path := List.append_nil path
  cases depth with
  | zero => rw [passMembers_top, passMembers_top, List.nil_append]
  | succ depth =>
    have hmembers := fun out => passMembers_eq ms ⟨path, []⟩ (depth + 2) out (by omega)
    rw [htext] at hmembers
    rw [hmembers, hmembers, List.nil_append]

/-- The pass goes on behind the first part with what that part left. -/
theorem passMembers_append (path : Text) (depth : Nat) (front back : List (Text × Json)) :
    ∀ out : List Text, passMembers path depth out (front ++ back) =
      passMembers path depth (passMembers path depth out front) back := by
  induction front with
  | nil =>
    intro out
    rfl
  | cons m rest ih =>
    intro out
    rw [List.cons_append, passMembers, passMembers, ih]

/-- **A document can be cut between any two of its members.** The statements
of the whole are those of the front and then those of the back, and as one
text they have a space between them if there is a member on either side; so
a member has the statements that it has alone, whatever its neighbours. The
statements are what one pass over the document writes, and that pass writes
for either part, at any depth and behind any statements, what it writes for
that part alone. -/
theorem statements_append (front back : List (Text × Json)) :
    (statements (front ++ back) = statements front ++ statements back ∧
      (front ≠ [] → back ≠ [] → clause (front ++ back) = clause front ++ ' ' :: clause back) ∧
      ∀ m, statements (front ++ m :: back) =
        statements front ++ statements [m] ++ statements back) ∧
    passMembers [] 1 [] (front ++ back) = statements (front ++ back) ∧
    ∀ path depth out, passMembers path (depth + 1) out (front ++ back) =
      out ++ passMembers path (depth + 1) [] front ++ passMembers path (depth + 1) [] back := by
  have hcut : ∀ front back, statements (front ++ back) = statements front ++ statements back := by
    intro front back
    rw [statements, ofDocument, List.flatMap_append, List.map_append]
    rfl
  refine ⟨⟨hcut front back, fun hfront hback => ?_, fun m => ?_⟩, ?_, fun path depth out => ?_⟩
  · rw [clause, hcut]
    exact Text.intercalate_append (statements_ne_nil hfront) (statements_ne_nil hback)
  · rw [hcut, List.append_assoc, ← hcut [m] back]
    rfl
  · rw [passMembers_top, List.nil_append]
  · rw [passMembers_append, passMembers_eq_append, passMembers_eq_append path depth out]

/-- An object in an object at the empty key, and behind it a leaf at the
same key and an object at another. -/
def emptyKeyFront : List (Text × Json) :=
  [([], .obj [("a".toList, .obj [([], .bool true)])])]

/-- What stands behind it. -/
def emptyKeyBack : List (Text × Json) :=
  [("a".toList, .arr []), ("b".toList, .obj [("a".toList, .null)])]

/-- The object at the empty key, whose path has no text, leaves no trace in
what is written behind it. -/
theorem statements_append_emptyKey :
    emptyKeyFront ≠ [] ∧ emptyKeyBack ≠ [] ∧
    clause (emptyKeyFront ++ emptyKeyBack) = clause emptyKeyFront ++ ' ' :: clause emptyKeyBack ∧
    (statements (emptyKeyFront ++ emptyKeyBack)).length = 3 + 5 := by
  have hfront : emptyKeyFront ≠ [] := List.cons_ne_nil _ _
  have hback : emptyKeyBack ≠ [] := List.cons_ne_nil _ _
  obtain ⟨⟨hcut, hclause, -⟩, -⟩ := statements_append emptyKeyFront emptyKeyBack
  refine ⟨hfront, hback, hclause hfront hback, ?_⟩
  rw [hcut, List.length_append]
  rfl

end Script

end DocQuery
