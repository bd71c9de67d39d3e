import DocQuery.Operand
import Mathlib.Data.List.Basic
/-!
# Escaping one character after the other

Escaping goes over a text once. The same text comes of seven passes, each
of which replaces one of the special characters throughout
(`escape_eq_sequential`), although every pass meets what the passes before
it have written. What makes the two agree is that no pass writes a
character that a later one replaces (`IsUndisturbed`): every pass writes
backslashes, so backslashes have to be replaced first, and the letters and
quotes that are written have had their pass or never have one.
-/

namespace DocQuery

namespace Text

/-- A text with a character replaced by a text wherever it stands. -/
def replaceAll (c : Char) (new t : Text) : Text := t.flatMap fun d => if d = c then new else [d]

end Text

namespace Literal

variable {entries : List (Char × Char)} {e : Char × Char} {c : Char} {t : Text}

/-- A character escaped by the entries of a table, if one is for it. -/
def escapeBy (entries : List (Char × Char)) (c : Char) : Text :=
  match entries.lookup c with
  | some letter => ['\\', letter]
  | none => [c]

/-- **A text after one pass for each entry**, in the order of the table. -/
def sequential (entries : List (Char × Char)) (t : Text) : Text :=
  entries.foldl (fun t e => Text.replaceAll e.1 ['\\', e.2] t) t

/-- No pass writes a character that a later pass replaces. -/
abbrev IsUndisturbed (entries : List (Char × Char)) : Prop :=
  entries.Pairwise fun e later => later.1 ∉ ['\\', e.2]

/-! ## One entry more -/

/-- Entries that are not for a character leave it as it is. -/
theorem escapeBy_of_notMem (h : ∀ e ∈ entries, e.1 ≠ c) : escapeBy entries c = [c] := by
  have hlookup : entries.lookup c = none := by
    rw [List.lookup_eq_none_iff]
    intro e he
    simpa using (h e he).symm
  rw [escapeBy, hlookup]

/-- Entries that are for no character of a text leave it as it is. -/
theorem flatMap_escapeBy_of_notMem (h : ∀ e ∈ entries, e.1 ∉ t) :
    t.flatMap (escapeBy entries) = t := by
  have hplain : ∀ c ∈ t, escapeBy entries c = [c] := by
    intro c hc
    refine escapeBy_of_notMem fun e he heq => ?_
    exact h e he (heq ▸ hc)
  rw [List.flatMap_congr hplain, List.flatMap_singleton']

/-- **The first pass and the others on what it has written** do to a
character what the table does, if the others leave that alone. -/
theorem flatMap_escapeBy_replaced (h : ∀ later ∈ entries, later.1 ∉ ['\\', e.2]) :
    (if c = e.1 then ['\\', e.2] else [c]).flatMap (escapeBy entries) =
      escapeBy (e :: entries) c := by
  by_cases hc : c = e.1
  · have hlookup : (e :: entries).lookup c = some e.2 := by
      rw [List.lookup_cons, beq_iff_eq.2 hc]
    rw [if_pos hc, flatMap_escapeBy_of_notMem h, escapeBy, hlookup]
  · have hlookup : (e :: entries).lookup c = entries.lookup c := by
      rw [List.lookup_cons, beq_eq_false_iff_ne.2 hc]
    rw [if_neg hc, List.flatMap_singleton, escapeBy, escapeBy, hlookup]

/-! ## All entries -/

/-- **Passes that do not disturb each other are one pass.** -/
theorem sequential_eq_flatMap (h : IsUndisturbed entries) (t : Text) :
    sequential entries t = t.flatMap (escapeBy entries) := by
  induction entries generalizing t with
  | nil => exact (List.flatMap_singleton' t).symm
  | cons e rest ih =>
    obtain ⟨hfirst, hrest⟩ := List.pairwise_cons.1 h
    calc sequential (e :: rest) t
        = sequential rest (Text.replaceAll e.1 ['\\', e.2] t) := rfl
      _ = (Text.replaceAll e.1 ['\\', e.2] t).flatMap (escapeBy rest) := ih hrest _
      _ = t.flatMap fun c =>
            (if c = e.1 then ['\\', e.2] else [c]).flatMap (escapeBy rest) := List.flatMap_assoc
      _ = t.flatMap (escapeBy (e :: rest)) :=
        List.flatMap_congr fun c _ => flatMap_escapeBy_replaced hfirst

/-- No escape writes a character that comes after it in the table. -/
theorem isUndisturbed_escapes : IsUndisturbed escapes := by decide

/-- **Escaping is seven replacements in turn**, each over the whole text:
of the backslash, of the null character, of the two line ends, of the two
quotes, and of the substitute character. -/
theorem escape_eq_sequential (t : Text) : escape t =
    (t |> Text.replaceAll '\\' ['\\', '\\']
      |> Text.replaceAll '\x00' ['\\', '0']
      |> Text.replaceAll '\n' ['\\', 'n']
      |> Text.replaceAll '\r' ['\\', 'r']
      |> Text.replaceAll '\'' ['\\', '\'']
      |> Text.replaceAll '"' ['\\', '"']
      |> Text.replaceAll '\x1a' ['\\', 'Z']) := by
  have hpasses : sequential escapes t = escape t := sequential_eq_flatMap isUndisturbed_escapes t
  rw [← hpasses]
  simp only [sequential, escapes, List.foldl_cons, List.foldl_nil]

/-- With the backslash last, what the other passes write is escaped again. -/
example : sequential (escapes.tail ++ [('\\', '\\')]) "'\n".toList = "\\\\'\\\\n".toList ∧
    escape "'\n".toList = "\\'\\n".toList := by
  decide

end Literal

end DocQuery
