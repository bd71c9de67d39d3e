import DocQuery.Text.Basic
import Mathlib.Data.List.Forall2
/-!
# Sequences

Steps, calls and documents are compiled one part after the other, and the
first part that fails decides. The file says what that means for a
sequence as a whole: which parts it has when it succeeds, which part it
fails with, and whether it succeeds.

Terms, statements, members and the segments of a path stand in one text
with one character between them. Such a text comes apart behind its first
part (`intercalate_cons`), and anywhere between two parts as long as there
is a part on either side (`intercalate_append`).
-/

namespace DocQuery

namespace Except

variable {ε α β : Type} {e : ε} {x : Except ε α} {next : α → Except ε β}

/-! ## What comes of it -/

/-- A sequence that succeeds has a first part that succeeds. -/
theorem ok_of_bind {out : β} (h : x >>= next = .ok out) : ∃ a, x = .ok a ∧ next a = .ok out :=
  match x, h with
  | .ok a, h => ⟨a, rfl, h⟩

/-- A sequence fails in its first part or behind it. -/
theorem error_of_bind (h : x >>= next = .error e) :
    x = .error e ∨ ∃ a, x = .ok a ∧ next a = .error e :=
  match x, h with
  | .error _, h => .inl (congrArg Except.error (Except.error.inj h))
  | .ok a, h => .inr ⟨a, rfl, h⟩

/-- With nothing behind it that can fail it fails in its first part. -/
theorem error_of_bind_pure {f : α → β} (h : (x >>= fun a => pure (f a)) = .error e) :
    x = .error e := by
  rcases error_of_bind h with h | ⟨a, -, h⟩
  · exact h
  · cases h

/-- A list fails with one of its elements. -/
theorem error_of_mapM {f : α → Except ε β} {xs : List α} (h : xs.mapM f = .error e) :
    ∃ x ∈ xs, f x = .error e := by
  induction xs with
  | nil => cases h
  | cons x rest ih =>
    rw [List.mapM_cons] at h
    rcases error_of_bind h with h | ⟨y, -, h⟩
    · exact ⟨x, List.mem_cons_self, h⟩
    · obtain ⟨z, hz, h⟩ := ih (error_of_bind_pure h)
      exact ⟨z, List.mem_cons_of_mem x hz, h⟩

/-! ## Whether it succeeds -/

theorem isOk_iff : x.isOk ↔ ∃ a, x = .ok a := by
  cases x with
  | error e => exact iff_of_false nofun nofun
  | ok a => exact iff_of_true rfl ⟨a, rfl⟩

/-- What follows a first part matters only if that succeeds. -/
theorem isOk_bind {b : Bool} (h : ∀ a, x = .ok a → (next a).isOk = b) :
    (x >>= next).isOk = (x.isOk && b) := by
  cases x with
  | error e => rfl
  | ok a => exact (h a rfl).trans (Bool.true_and b).symm

/-- A first part with nothing behind it that can fail. -/
theorem isOk_bind_pure (f : α → β) : (x >>= fun a => pure (f a)).isOk = x.isOk := by
  cases x <;> rfl

/-- A list is taken if each of its elements is. -/
theorem isOk_mapM (f : α → Except ε β) (xs : List α) :
    (xs.mapM f).isOk = xs.all fun x => (f x).isOk := by
  induction xs with
  | nil => rfl
  | cons x rest ih =>
    rw [List.mapM_cons, List.all_cons]
    refine isOk_bind fun y _ => ?_
    rw [isOk_bind_pure, ih]

end Except

namespace Option

/-- A list is read element by element. -/
theorem mapM_eq_some_iff {α β : Type} {f : α → Option β} {xs : List α} {ys : List β} :
    xs.mapM f = some ys ↔ List.Forall₂ (fun x y => f x = some y) xs ys := by
  induction xs generalizing ys with
  | nil => exact Option.some_inj.trans (eq_comm.trans List.forall₂_nil_left_iff.symm)
  | cons x rest ih =>
    rw [List.mapM_cons, List.forall₂_cons_left_iff]
    constructor
    · intro h
      obtain ⟨y, hy, h⟩ := Option.bind_eq_some_iff.1 h
      obtain ⟨zs, hzs, heq⟩ := Option.bind_eq_some_iff.1 h
      cases heq
      exact ⟨y, zs, hy, ih.1 hzs, rfl⟩
    · rintro ⟨y, zs, hy, hzs, rfl⟩
      rw [hy, ih.2 hzs]
      rfl

end Option

/-! ## Texts between separators -/

namespace Text

variable {c : Char}

/-- A text in a list of texts is followed by the separator, or by what is
behind the list. -/
theorem intercalate_cons_append (s t : Text) (ts : List Text) (rest : Text) :
    List.intercalate [c] (s :: t :: ts) ++ rest =
      s ++ c :: (List.intercalate [c] (t :: ts) ++ rest) := by
  rw [List.intercalate_cons_cons, List.append_assoc, List.append_assoc]
  rfl

/-- And so it is in a list of texts alone. -/
theorem intercalate_cons (s t : Text) (ts : List Text) :
    List.intercalate [c] (s :: t :: ts) = s ++ c :: List.intercalate [c] (t :: ts) := by
  have hsplit := intercalate_cons_append (c := c) s t ts []
  rwa [List.append_nil, List.append_nil] at hsplit

/-- **Two lists of texts, neither of them empty,** have the separator
between them. -/
theorem intercalate_append {ss ts : List Text} (hs : ss ≠ []) (ht : ts ≠ []) :
    List.intercalate [c] (ss ++ ts) =
      List.intercalate [c] ss ++ c :: List.intercalate [c] ts := by
  induction ss with
  | nil => exact absurd rfl hs
  | cons s ss ih =>
    cases ss with
    | nil =>
      rw [List.singleton_append, List.intercalate_cons_of_ne_nil ht, List.intercalate_singleton,
        List.append_assoc, List.singleton_append]
    | cons s' ss =>
      have hrest := ih (List.cons_ne_nil s' ss)
      rw [List.cons_append] at hrest
      rw [List.cons_append, List.cons_append, intercalate_cons, hrest, intercalate_cons,
        List.append_assoc, List.cons_append]

end Text

end DocQuery
