import DocQuery.Proofs.Update.Run
import Mathlib.Data.List.Infix
import Mathlib.Data.List.Nodup
/-!
# Targets of assignments

The text of a path stands in an assignment with nothing around its keys
but brackets and quotes: the key at the top is bare, and the keys below
are not escaped. So a path can be read off its text only if no key looks
like the end of one key and the beginning of the next. `KeyPath.IsPlain`
says which keys do not, and plain paths of one text are one path
(`eq_of_text_eq`). The leaves of a document have different paths
(`nodup_paths`), and those whose paths are plain have different targets
(`nodup_targets`).
-/

namespace DocQuery

namespace KeyPath

/-- What stands between the key at the top and the next one. -/
def opening : Text := "[\"".toList

/-- What stands between two keys below the top. -/
def joint : Text := "\"][\"".toList

/-- **Whether the keys of a path can be told apart in its text**: what
stands between keys is not in the key at the top, and not in another key
with its closing quote. -/
def IsPlain (p : KeyPath) : Prop :=
  ¬ opening <:+: p.top ∧ ∀ key ∈ p.below, ¬ joint <:+: key ++ ['"']

instance : DecidablePred IsPlain := fun p =>
  inferInstanceAs (Decidable (¬ opening <:+: p.top ∧ ∀ key ∈ p.below, ¬ joint <:+: key ++ ['"']))

variable {keys₁ keys₂ : List Text} {a d t₁ t₂ : Text}

/-! ## Where a key ends -/

/-- What follows a key is nothing or a further key. -/
theorem exists_rest (keys : List Text) :
    keys.flatMap bracketed = [] ∨ ∃ rest, keys.flatMap bracketed = opening ++ rest := by
  cases keys with
  | nil => exact .inl rfl
  | cons key rest => exact .inr ⟨_, rfl⟩

/-- The key at the top does not end later in one of two readings of a
text: what the longer of two has more is nothing. -/
theorem eq_nil_of_opens (hplain : ¬ opening <:+: a ++ d)
    (h : keys₁.flatMap bracketed = d ++ keys₂.flatMap bracketed) : d = [] := by
  rcases exists_rest keys₁ with hnone | ⟨rest, hrest⟩
  · rw [hnone] at h
    exact (List.append_eq_nil_iff.1 h.symm).1
  · have hfront : opening <+: d ++ keys₂.flatMap bracketed := ⟨rest, by rw [← h, hrest]⟩
    have hd : ¬ opening <+: d := by
      intro hin
      exact hplain (hin.isInfix.trans (List.suffix_append a d).isInfix)
    rcases List.prefix_or_prefix_of_prefix hfront (List.prefix_append d _) with hin | hin
    · exact absurd hin hd
    · -- of the bracket alone, what follows would begin with the quote
      have hinits : ∀ s ∈ opening.inits, s = [] ∨ s = ['['] ∨ s = opening := by decide
      rcases hinits d ((List.mem_inits _ _).2 hin) with rfl | rfl | rfl
      · rfl
      · rw [hrest] at h
        have hquote : '"' :: rest = keys₂.flatMap bracketed := (List.cons_eq_cons.1 h).2
        rcases exists_rest keys₂ with hnone | ⟨rest', hrest'⟩
        · rw [hnone] at hquote
          cases hquote
        · rw [hrest'] at hquote
          exact absurd (List.cons_eq_cons.1 hquote).1 (by decide)
      · exact absurd (List.prefix_refl opening) hd

/-- And neither does a key below it. -/
theorem eq_nil_of_closes (hplain : ¬ joint <:+: a ++ d ++ ['"'])
    (h : '"' :: ']' :: keys₁.flatMap bracketed = d ++ '"' :: ']' :: keys₂.flatMap bracketed) :
    d = [] := by
  rcases exists_rest keys₁ with hnone | ⟨rest, hrest⟩
  · -- behind the last key there is no room for more
    have hlength := congrArg List.length h
    rw [hnone] at hlength
    simp only [List.length_append, List.length_cons, List.length_nil] at hlength
    exact List.eq_nil_of_length_eq_zero (by omega)
  · have hfront : joint <+: d ++ '"' :: ']' :: keys₂.flatMap bracketed :=
      ⟨rest, by rw [← h, hrest]; rfl⟩
    have hclosed : d ++ ['"'] <+: d ++ '"' :: ']' :: keys₂.flatMap bracketed :=
      ⟨']' :: keys₂.flatMap bracketed, by simp⟩
    have hd : ¬ joint <+: d ++ ['"'] := by
      intro hin
      refine hplain (hin.isInfix.trans ?_)
      rw [List.append_assoc]
      exact (List.suffix_append a _).isInfix
    rcases List.prefix_or_prefix_of_prefix hfront hclosed with hin | hin
    · exact absurd hin hd
    · -- only the first character and the whole of the joint end in a quote
      have hinits : ∀ s ∈ joint.inits, s.getLast? = some '"' → s = ['"'] ∨ s = joint := by decide
      rcases hinits _ ((List.mem_inits _ _).2 hin) List.getLast?_concat with hone | hall
      · simpa using hone
      · exact absurd (hall ▸ List.prefix_refl joint) hd

/-- **Keys in brackets are known from their text** if each is plain. -/
theorem brackets_cancel : ∀ {keys₁ keys₂ : List Text},
    (∀ key ∈ keys₁, ¬ joint <:+: key ++ ['"']) → (∀ key ∈ keys₂, ¬ joint <:+: key ++ ['"']) →
    keys₁.flatMap bracketed = keys₂.flatMap bracketed → keys₁ = keys₂
  | [], [], _, _, _ => rfl
  | [], _ :: _, _, _, h => by cases h
  | _ :: _, [], _, _, h => by cases h
  | key₁ :: rest₁, key₂ :: rest₂, h₁, h₂, h => by
    have hinside : key₁ ++ '"' :: ']' :: rest₁.flatMap bracketed =
        key₂ ++ '"' :: ']' :: rest₂.flatMap bracketed := by
      simpa [bracketed] using h
    have hkey : key₁ = key₂ := by
      rcases List.append_eq_append_iff.1 hinside with ⟨d, rfl, hrest⟩ | ⟨d, rfl, hrest⟩
      · rw [eq_nil_of_closes (h₂ _ List.mem_cons_self) hrest, List.append_nil]
      · rw [eq_nil_of_closes (h₁ _ List.mem_cons_self) hrest, List.append_nil]
    subst hkey
    have hrests := List.append_cancel_left hinside
    have hrest : rest₁ = rest₂ :=
      brackets_cancel (fun key hkey => h₁ key (List.mem_cons_of_mem _ hkey))
        (fun key hkey => h₂ key (List.mem_cons_of_mem _ hkey))
        (List.cons_eq_cons.1 (List.cons_eq_cons.1 hrests).2).2
    rw [hrest]

/-- **Plain paths of one text are one path.** -/
theorem eq_of_text_eq {p q : KeyPath} (hp : p.IsPlain) (hq : q.IsPlain) (h : p.text = q.text) :
    p = q := by
  have htop : p.top = q.top := by
    rcases List.append_eq_append_iff.1 h with ⟨d, hd, hrest⟩ | ⟨d, hd, hrest⟩
    · have hplain := hq.1
      rw [hd] at hplain
      rw [hd, eq_nil_of_opens hplain hrest, List.append_nil]
    · have hplain := hp.1
      rw [hd] at hplain
      rw [hd, eq_nil_of_opens hplain hrest, List.append_nil]
  have hbelow : p.below = q.below := by
    rw [text, text, htop] at h
    exact brackets_cancel hp.2 hq.2 (List.append_cancel_left h)
  cases p
  cases q
  cases htop
  cases hbelow
  rfl

end KeyPath

/-! ## The leaves of a document -/

namespace Json

/-- **Different leaves of a document have different paths**, where keys are
distinct. -/
theorem nodup_paths (ms : List (Text × Json)) : (keys ms).Nodup → MembersDistinct ms →
    ((memberLeaves ms).map Prod.fst).Nodup := by
  induction ms using members_induction
    (P := fun v => v.KeysDistinct → ((leaves v).map Prod.fst).Nodup) with
  | leaf v h _ =>
    rw [leaves_of_isLeaf h]
    exact List.nodup_singleton _
  | object m ms ih hdistinct => exact ih hdistinct.1 hdistinct.2
  | nil =>
    intro _ _
    exact List.nodup_nil
  | cons k v rest ihv ihrest =>
    intro hnodup hdistinct
    obtain ⟨hk, hrest⟩ := List.nodup_cons.1 hnodup
    have hfirst : (leaves v).map (fun l => k :: l.1) = ((leaves v).map Prod.fst).map (k :: ·) := by
      rw [List.map_map]
      rfl
    rw [memberLeaves, List.map_append, List.map_map]
    refine List.nodup_append'.2 ⟨?_, ihrest hrest hdistinct.2, ?_⟩
    · change ((leaves v).map fun l => k :: l.1).Nodup
      rw [hfirst]
      exact (ihv hdistinct.1).map List.cons_injective
    · -- a path of the first member begins with its key, and one of another does not
      intro path hpath hother
      obtain ⟨l, -, rfl⟩ := List.mem_map.1 hpath
      obtain ⟨⟨path, leaf⟩, hmem, hsame⟩ := List.mem_map.1 hother
      obtain ⟨k', below, hpath, hk', -⟩ := find?_of_mem_memberLeaves rest hrest hdistinct.2 _ _ hmem
      rw [hpath] at hsame
      obtain ⟨rfl, -⟩ := List.cons_eq_cons.1 hsame
      exact hk hk'

end Json

/-- The path that an assignment sets. -/
def Instruction.target? : Instruction → Option KeyPath
  | guard _ => none
  | assign p _ => some p

namespace Script

/-- A script assigns to the paths of the leaves, in their order. -/
theorem targets_ofDocument (members : List (Text × Json)) :
    ((ofDocument members).filterMap Instruction.target?).map KeyPath.keys =
      (Json.memberLeaves members).map Prod.fst := by
  have hassigned := congrArg (List.map Prod.fst) (assigned_ofDocument members)
  rw [List.map_filterMap, List.map_map] at hassigned
  rw [List.map_filterMap]
  refine Eq.trans ?_ hassigned
  congr 1
  funext i
  cases i <;> rfl

/-- **Leaves with plain paths have targets of their own.** The paths that
the script of a document assigns to are those of its leaves, each once,
and no two plain ones among them have the same text. -/
theorem nodup_targets {members : List (Text × Json)} (h : (Json.obj members).KeysDistinct) :
    ((ofDocument members).filterMap Instruction.target?).map KeyPath.keys =
      (Json.memberLeaves members).map Prod.fst ∧
    ((ofDocument members).filterMap Instruction.target?).Nodup ∧
    ((((ofDocument members).filterMap Instruction.target?).filter (KeyPath.IsPlain ·)).map
      KeyPath.text).Nodup := by
  have hpaths := targets_ofDocument members
  have hnodup : ((ofDocument members).filterMap Instruction.target?).Nodup := by
    refine List.Nodup.of_map KeyPath.keys ?_
    rw [hpaths]
    exact Json.nodup_paths members h.1 h.2
  refine ⟨hpaths, hnodup, List.Nodup.map_on ?_ (hnodup.filter _)⟩
  intro p hp q hq htext
  have hp' : p.IsPlain := of_decide_eq_true (List.mem_filter.1 hp).2
  have hq' : q.IsPlain := of_decide_eq_true (List.mem_filter.1 hq).2
  exact KeyPath.eq_of_text_eq hp' hq' htext

/-- A change with quotes and brackets in its keys, of which those of the
last leaf are not plain. -/
def bracketedChange : List (Text × Json) :=
  [("a]".toList, .obj [("b\"".toList, .bool true), ("b".toList, .obj [("\"c\"]".toList, .null)])]),
    ([], .arr []), ("a[\"b".toList, .null)]

/-- The targets of its other leaves. -/
theorem nodup_targets_bracketed : (Json.obj bracketedChange).KeysDistinct ∧
    (((ofDocument bracketedChange).filterMap Instruction.target?).filter (KeyPath.IsPlain ·)).map
      KeyPath.text = ["a][\"b\"\"]".toList, "a][\"b\"][\"\"c\"]\"]".toList, []] ∧
    ["a][\"b\"\"]".toList, "a][\"b\"][\"\"c\"]\"]".toList, []].Nodup := by
  have hdistinct : (Json.obj bracketedChange).KeysDistinct := by decide
  have htexts : (((ofDocument bracketedChange).filterMap Instruction.target?).filter
      (KeyPath.IsPlain ·)).map KeyPath.text =
        ["a][\"b\"\"]".toList, "a][\"b\"][\"\"c\"]\"]".toList, []] := by decide
  obtain ⟨-, -, hnodup⟩ := nodup_targets hdistinct
  exact ⟨hdistinct, htexts, htexts ▸ hnodup⟩

/-- A key at the top that is the text of a path. -/
def pathLikeChange : List (Text × Json) :=
  [("a".toList, .obj [("b".toList, .bool true)]), ("a[\"b\"]".toList, .bool true)]

/-- A key below the top that is the text of two keys. -/
def jointLikeChange : List (Text × Json) :=
  [("a".toList, .obj [("b\"][\"c".toList, .null), ("b".toList, .obj [("c".toList, .null)])])]

/-- Where keys are not plain, two leaves with different paths can have one
target, be it for the key at the top or for one below. -/
theorem targets_collide :
    (Json.obj pathLikeChange).KeysDistinct ∧
    ((ofDocument pathLikeChange).filterMap Instruction.target?).Nodup ∧
    ((ofDocument pathLikeChange).filterMap Instruction.target?).map KeyPath.text =
      ["a[\"b\"]".toList, "a[\"b\"]".toList] ∧
    (Json.obj jointLikeChange).KeysDistinct ∧
    ((ofDocument jointLikeChange).filterMap Instruction.target?).Nodup ∧
    ((ofDocument jointLikeChange).filterMap Instruction.target?).map KeyPath.text =
      ["a[\"b\"][\"c\"]".toList, "a[\"b\"][\"c\"]".toList] := by
  decide

end Script

end DocQuery
