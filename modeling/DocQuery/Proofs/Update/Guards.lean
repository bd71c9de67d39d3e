import DocQuery.Proofs.Update.Run
import Mathlib.Data.List.Basic
/-!
# Where a script has guards

A script follows its document in preorder: each leaf is an assignment, and
each object with members is a guard in front of the instructions for its
members (`ofMember_eq`, `exists_guard_append`). Every key at the top brings
one guard more, in front of all others of its member. The rule has one
exception. A path without a text is not guarded, and the path of an object
at the empty key is such, so there the guard of the object is missing and
the script is by one shorter (`ofDocument_preorder`).
-/

namespace DocQuery

/-! ## Preorder -/

namespace Json

mutual

/-- The leaves and the objects with members in a value, each with its
path, and each object before what is in it. -/
def nodes : Json → List (List Text × Json)
  | obj (m :: ms) => ([], obj (m :: ms)) :: memberNodes (m :: ms)
  | leaf => [([], leaf)]

/-- **The nodes of members in preorder.** -/
def memberNodes : List (Text × Json) → List (List Text × Json)
  | [] => []
  | (k, v) :: rest => (nodes v).map (fun (keys, w) => (k :: keys, w)) ++ memberNodes rest

end

/-- A leaf is its only node. -/
theorem nodes_of_isLeaf {v : Json} (h : v.isLeaf) : nodes v = [([], v)] := by
  cases v with
  | obj members =>
    cases members with
    | nil => rfl
    | cons m ms => cases h
  | _ => rfl

/-- The path of a node of members has a key. -/
theorem ne_nil_of_mem_memberNodes {ms : List (Text × Json)} {node : List Text × Json}
    (h : node ∈ memberNodes ms) : node.1 ≠ [] := by
  induction ms with
  | nil => cases h
  | cons m rest ih =>
    obtain ⟨k, v⟩ := m
    rcases List.mem_append.1 h with h | h
    · obtain ⟨inner, -, rfl⟩ := List.mem_map.1 h
      exact List.cons_ne_nil _ _
    · exact ih h

/-- The first node of a value is the value, and every other has a longer
path. -/
theorem exists_nodes_eq_cons (v : Json) :
    ∃ inner, nodes v = ([], v) :: inner ∧ ∀ node ∈ inner, node.1 ≠ [] := by
  by_cases hleaf : v.isLeaf
  · exact ⟨[], nodes_of_isLeaf hleaf, fun node h => absurd h List.not_mem_nil⟩
  · obtain ⟨m, ms, rfl⟩ := exists_members_of_not_isLeaf hleaf
    exact ⟨memberNodes (m :: ms), rfl, fun node => ne_nil_of_mem_memberNodes⟩

/-- The leaves among the nodes are the leaves. -/
theorem filter_isLeaf_memberNodes (ms : List (Text × Json)) :
    (memberNodes ms).filter (·.2.isLeaf) = memberLeaves ms := by
  induction ms using members_induction (P := fun v =>
    (nodes v).filter (·.2.isLeaf) = leaves v) with
  | leaf v h =>
    rw [nodes_of_isLeaf h, leaves_of_isLeaf h, List.filter_cons, if_pos h]
    rfl
  | object m ms ih => exact ih
  | nil => rfl
  | cons k v rest ihv ihrest =>
    rw [memberNodes, memberLeaves, List.filter_append, ihrest, List.filter_map, ← ihv]
    rfl

/-- The objects with members among the nodes. -/
def branches (ms : List (Text × Json)) : List (List Text × Json) :=
  (memberNodes ms).filter fun node => !node.2.isLeaf

/-- Every node is a leaf or a branch. -/
theorem length_memberNodes (ms : List (Text × Json)) :
    (memberNodes ms).length = (memberLeaves ms).length + (branches ms).length := by
  rw [← filter_isLeaf_memberNodes, branches]
  exact List.length_eq_length_filter_add _

end Json

/-! ## Instructions in preorder -/

namespace KeyPath

/-- The path some keys further. -/
def extend (p : KeyPath) (keys : List Text) : KeyPath := { p with below := p.below ++ keys }

theorem extend_nil (p : KeyPath) : p.extend [] = p := by
  rw [extend, List.append_nil]

theorem extend_child (p : KeyPath) (key : Text) (keys : List Text) :
    (p.child key).extend keys = p.extend (key :: keys) := by
  rw [extend, extend, child, List.append_assoc, List.singleton_append]

end KeyPath

/-- The instruction for a node at a path: a leaf is assigned, an object is
guarded. -/
def Instruction.ofNode (p : KeyPath) (v : Json) : Instruction :=
  if v.isLeaf then .assign p v else .guard p

namespace Script

variable {p : KeyPath}

/-- **The instructions for members are those for their nodes**, in
preorder, whether or not the path of the object has a text. -/
theorem ofMembers_eq_map_nodes (ms : List (Text × Json)) : ∀ p : KeyPath,
    ofMembers p ms =
      (Json.memberNodes ms).map fun node => .ofNode (p.extend node.1) node.2 := by
  induction ms using Json.members_induction (P := fun v => ∀ p : KeyPath, p.text ≠ [] →
    ofValue p v = v.nodes.map fun node => .ofNode (p.extend node.1) node.2) with
  | leaf v h p _ =>
    rw [ofValue_of_isLeaf h, Json.nodes_of_isLeaf h, List.map_singleton, KeyPath.extend_nil,
      Instruction.ofNode, if_pos h]
  | object m ms ih p htext =>
    rw [ofValue_object m ms htext, ih p, Json.nodes, List.map_cons, KeyPath.extend_nil]
    rfl
  | nil =>
    intro p
    rfl
  | cons k v rest ihv ihrest =>
    intro p
    rw [ofMembers, ihv _ KeyPath.text_child_ne_nil, ihrest, Json.memberNodes, List.map_append,
      List.map_map]
    congr 1
    refine List.map_congr_left fun node _ => ?_
    rw [KeyPath.extend_child]
    rfl

/-- **Every node has its instructions in one piece**: somewhere among the
instructions for a value are those for each value in it. -/
theorem exists_append_of_mem_nodes (v : Json) : ∀ (p : KeyPath) keys w, (keys, w) ∈ v.nodes →
    ∃ before after, ofValue p v = before ++ ofValue (p.extend keys) w ++ after := by
  induction v using Json.value_induction (Q := fun ms => ∀ (p : KeyPath) keys w,
    (keys, w) ∈ Json.memberNodes ms →
      ∃ before after, ofMembers p ms = before ++ ofValue (p.extend keys) w ++ after) with
  | leaf v h =>
    intro p keys w hmem
    rw [Json.nodes_of_isLeaf h, List.mem_singleton] at hmem
    cases hmem
    exact ⟨[], [], by rw [KeyPath.extend_nil, List.nil_append, List.append_nil]⟩
  | object m ms ih =>
    intro p keys w hmem
    rcases List.mem_cons.1 hmem with heq | hmem
    · cases heq
      exact ⟨[], [], by rw [KeyPath.extend_nil, List.nil_append, List.append_nil]⟩
    · obtain ⟨before, after, hinner⟩ := ih p keys w hmem
      refine ⟨entry p ++ before, after, ?_⟩
      rw [ofValue, hinner]
      simp only [List.append_assoc]
  | nil p keys w hmem => exact absurd hmem List.not_mem_nil
  | cons k v rest ihv ihrest p keys w hmem =>
    rcases List.mem_append.1 hmem with hmem | hmem
    · obtain ⟨⟨keys, w⟩, hnode, heq⟩ := List.mem_map.1 hmem
      cases heq
      obtain ⟨before, after, hvalue⟩ := ihv (p.child k) keys w hnode
      refine ⟨before, after ++ ofMembers p rest, ?_⟩
      rw [ofMembers, hvalue, KeyPath.extend_child]
      simp only [List.append_assoc]
    · obtain ⟨before, after, hrest⟩ := ihrest p keys w hmem
      refine ⟨ofValue (p.child k) v ++ before, after, ?_⟩
      rw [ofMembers, hrest]
      simp only [List.append_assoc]

/-! ## Members at the top -/

/-- Whether a node of the member of a key has an instruction: each has but
an object at the empty key. -/
def isMarked (k : Text) (node : List Text × Json) : Bool :=
  node.2.isLeaf || k ≠ [] || node.1 ≠ []

/-- The path of an object that is marked has a text. -/
theorem text_ne_nil_of_isMarked {k : Text} {keys : List Text} {m : Text × Json}
    {ms : List (Text × Json)} (h : isMarked k (keys, .obj (m :: ms))) :
    (KeyPath.mk k keys).text ≠ [] := by
  intro htext
  obtain ⟨hk, hbelow⟩ := List.append_eq_nil_iff.1 htext
  cases keys with
  | nil =>
    have hne : k ≠ [] := by simpa [isMarked, Json.isLeaf] using h
    exact hne hk
  | cons key rest => cases hbelow

/-- Only the value of the member itself can be without an instruction. -/
theorem filter_isMarked_nodes (k : Text) (v : Json) :
    v.nodes.filter (isMarked k) = if isMarked k ([], v) then v.nodes else v.nodes.tail := by
  obtain ⟨inner, hnodes, hinner⟩ := v.exists_nodes_eq_cons
  have hmarked : inner.filter (isMarked k) = inner := by
    refine List.filter_eq_self.2 fun node hnode => ?_
    simp [isMarked, hinner node hnode]
  rw [hnodes, List.filter_cons, hmarked]
  rfl

/-- **A member is its guard and the instructions for its nodes.** -/
theorem ofMember_eq (k : Text) (v : Json) : ofMember k v =
    .guard ⟨k, []⟩ :: (v.nodes.filter (isMarked k)).map fun node => .ofNode ⟨k, node.1⟩ node.2 := by
  rw [ofMember, filter_isMarked_nodes]
  congr 1
  by_cases hleaf : v.isLeaf
  · have hmarked : isMarked k ([], v) := by simp [isMarked, hleaf]
    rw [if_pos hmarked, ofValue_of_isLeaf hleaf, Json.nodes_of_isLeaf hleaf, List.map_singleton,
      Instruction.ofNode, if_pos hleaf]
  · obtain ⟨m, ms, rfl⟩ := Json.exists_members_of_not_isLeaf hleaf
    have hinner := ofMembers_eq_map_nodes (m :: ms) ⟨k, []⟩
    split
    · rename_i hmarked
      rw [ofValue_object m ms (text_ne_nil_of_isMarked hmarked), hinner]
      rfl
    · -- the empty key: the path has no text, and the object is entered without a guard
      rename_i hbare
      have hk : k = [] := by simpa [isMarked, Json.isLeaf] using hbare
      subst hk
      exact hinner

/-! ## Documents -/

/-- Whether a member is an object at the empty key. -/
def isBare (member : Text × Json) : Bool := !isMarked member.1 ([], member.2)

theorem isBare_iff {member : Text × Json} :
    isBare member ↔ ∃ m ms, member = ([], .obj (m :: ms)) := by
  obtain ⟨k, v⟩ := member
  refine ⟨fun h => ?_, ?_⟩
  · have hbare : ¬ v.isLeaf ∧ k = [] := by simpa [isBare, isMarked] using h
    obtain ⟨m, ms, rfl⟩ := Json.exists_members_of_not_isLeaf hbare.1
    exact ⟨m, ms, by rw [hbare.2]⟩
  · rintro ⟨m, ms, heq⟩
    cases heq
    rfl

theorem countP_isBare_eq_zero {members : List (Text × Json)} :
    members.countP isBare = 0 ↔ ∀ m ms, ([], .obj (m :: ms)) ∉ members := by
  rw [List.countP_eq_zero]
  refine ⟨fun h m ms hmem => ?_, fun h member hmem hbare => ?_⟩
  · exact h _ hmem (isBare_iff.2 ⟨m, ms, rfl⟩)
  · obtain ⟨m, ms, rfl⟩ := isBare_iff.1 hbare
    exact h m ms hmem

/-- **The guard of an object stands immediately before the instructions
for its members**, wherever in a document the object is. -/
theorem exists_guard_append {members : List (Text × Json)} {k : Text} {v : Json}
    {keys : List Text} {m : Text × Json} {ms : List (Text × Json)} (hmember : (k, v) ∈ members)
    (hnode : (keys, .obj (m :: ms)) ∈ v.nodes) (hmarked : isMarked k (keys, .obj (m :: ms))) :
    ∃ before after, ofDocument members =
      before ++ .guard ⟨k, keys⟩ :: ofMembers ⟨k, keys⟩ (m :: ms) ++ after := by
  obtain ⟨front, back, rfl⟩ := List.append_of_mem hmember
  obtain ⟨before, after, hvalue⟩ := exists_append_of_mem_nodes v ⟨k, []⟩ keys _ hnode
  have hobject : ofValue ⟨k, keys⟩ (.obj (m :: ms)) =
      .guard ⟨k, keys⟩ :: ofMembers ⟨k, keys⟩ (m :: ms) :=
    ofValue_object m ms (text_ne_nil_of_isMarked hmarked)
  have hpiece : ofMember k v =
      .guard ⟨k, []⟩ :: before ++ .guard ⟨k, keys⟩ :: ofMembers ⟨k, keys⟩ (m :: ms) ++ after := by
    rw [ofMember, hvalue, ← hobject]
    rfl
  have hdocument : ofDocument (front ++ (k, v) :: back) =
      ofDocument front ++ (ofMember k v ++ ofDocument back) := List.flatMap_append
  refine ⟨ofDocument front ++ .guard ⟨k, []⟩ :: before, after ++ ofDocument back, ?_⟩
  rw [hdocument, hpiece]
  simp only [List.append_assoc, List.cons_append]

/-- **How long a script is.** -/
theorem length_ofDocument (members : List (Text × Json)) :
    (ofDocument members).length + members.countP isBare =
      members.length + (Json.memberLeaves members).length + (Json.branches members).length := by
  rw [Nat.add_assoc members.length, ← Json.length_memberNodes]
  induction members with
  | nil => rfl
  | cons m rest ih =>
    obtain ⟨k, v⟩ := m
    have hmember : (ofMember k v).length + (if isBare (k, v) then 1 else 0) =
        1 + v.nodes.length := by
      obtain ⟨inner, hnodes, -⟩ := v.exists_nodes_eq_cons
      rw [ofMember_eq, filter_isMarked_nodes, isBare, hnodes, List.length_cons, List.length_map]
      cases isMarked k ([], v) <;> simp <;> omega
    rw [ofDocument_cons, List.length_append, List.countP_cons, Json.memberNodes,
      List.length_append, List.length_map, List.length_cons]
    omega

/-- **A script follows its document in preorder.** Each member at the top
brings its guard and then one instruction for each of its nodes in
preorder, an assignment for a leaf and a guard for an object with members,
but none for an object at the empty key. The guard of an object stands
immediately before the instructions for its members. So there are as many
statements as keys at the top, leaves and objects with members, less one
for an object at the empty key; and without that exception if and only if
no such object is there. -/
theorem ofDocument_preorder (members : List (Text × Json)) :
    ofDocument members = members.flatMap (fun (k, v) => .guard ⟨k, []⟩ ::
      (v.nodes.filter (isMarked k)).map fun node => .ofNode ⟨k, node.1⟩ node.2) ∧
    (∀ k v keys m ms, (k, v) ∈ members → (keys, .obj (m :: ms)) ∈ v.nodes →
      isMarked k (keys, .obj (m :: ms)) → ∃ before after, ofDocument members =
        before ++ .guard ⟨k, keys⟩ :: ofMembers ⟨k, keys⟩ (m :: ms) ++ after) ∧
    (statements members).length + members.countP isBare =
      members.length + (Json.memberLeaves members).length + (Json.branches members).length ∧
    ((statements members).length =
        members.length + (Json.memberLeaves members).length + (Json.branches members).length ↔
      ∀ m ms, ([], .obj (m :: ms)) ∉ members) := by
  have hlength : (statements members).length + members.countP isBare =
      members.length + (Json.memberLeaves members).length + (Json.branches members).length := by
    rw [statements, List.length_map]
    exact length_ofDocument members
  refine ⟨?_, ?_, hlength, ?_⟩
  · refine congrArg (members.flatMap ·) (funext fun member => ?_)
    exact ofMember_eq member.1 member.2
  · intro k v keys m ms hmember hnode hmarked
    exact exists_guard_append hmember hnode hmarked
  · rw [← countP_isBare_eq_zero]
    omega

/-- The guard of the object at `["b"]` in the nested change stands before
its only assignment, and the object at the empty key is without one. -/
theorem ofDocument_preorder_nested :
    (∃ before after, ofDocument nestedChange = before ++ .guard ⟨"a".toList, ["b".toList]⟩ ::
      ofMembers ⟨"a".toList, ["b".toList]⟩ [("c".toList, .str "d".toList)] ++ after) ∧
    (statements nestedChange).length + 1 = 2 + 3 + 3 := by
  obtain ⟨-, hguard, hlength, -⟩ := ofDocument_preorder nestedChange
  refine ⟨hguard "a".toList _ ["b".toList] _ _ List.mem_cons_self ?_ (by decide), hlength⟩
  exact .tail _ (.head _)

/-- A change with an object at the empty key and nothing else. -/
def emptyKeyChange : List (Text × Json) := [([], .obj [("y".toList, .bool true)])]

/-- Its script has the guard of the key at the top but no second one for
the object, so it is not as long as keys, leaves and objects ask for. -/
theorem statements_emptyKeyChange : (Json.obj emptyKeyChange).KeysDistinct ∧
    statements emptyKeyChange = [guardStatement [], "[\"y\"] = 1;".toList] ∧
    (statements emptyKeyChange).length ≠ emptyKeyChange.length +
      (Json.memberLeaves emptyKeyChange).length + (Json.branches emptyKeyChange).length := by
  decide

end Script

end DocQuery
