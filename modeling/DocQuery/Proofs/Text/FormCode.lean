import DocQuery.Json.Tree
import DocQuery.Request
/-!
# Form code reads back

A reader of form code takes a plus sign for a space, a percent sign with
two hexadecimal digits for the byte of that value, and a plain character
for its own byte. It inverts the encoder byte by byte
(`decode?_encodeByte`), so the code of a text decodes to exactly its UTF-8
form (`decode?_encode`), and two texts of one code are one text
(`encode_injective`). What a code consists of is told by `isCode`, and no
bracket and no slash is part of it.
-/

namespace DocQuery

namespace FormCode

/-! ## What form code consists of -/

/-- An upper-case hexadecimal digit. -/
def isUpperHex (c : Char) : Bool := c.isDigit || ('A' ≤ c && c ≤ 'F')

/-- **Whether a text is form code**: ASCII letters and digits, hyphens,
underscores, points, plus signs, and percent signs that are each followed
by two upper-case hexadecimal digits. -/
def isCode : Text → Bool
  | [] => true
  | c :: rest =>
    if c = '%' then
      match rest with
      | high :: low :: rest => isUpperHex high && isUpperHex low && isCode rest
      | _ => false
    else (isPlain c || c = '+') && isCode rest

/-- The bytes that form code stands for. What is no form code is refused,
but hexadecimal digits may be of either case. -/
def decode? : Text → Option (List UInt8)
  | [] => some []
  | c :: rest =>
    if c = '%' then
      match rest with
      | high :: low :: rest => do
        let value := (← Tree.hexValue? high) * 16 + (← Tree.hexValue? low)
        return UInt8.ofNat value :: (← decode? rest)
      | _ => none
    else if c = '+' then do return 0x20 :: (← decode? rest)
    else if isPlain c then do return UInt8.ofNat c.toNat :: (← decode? rest)
    else none

variable {c : Char} {rest t : Text}

/-- Any character but the percent sign stands alone. -/
theorem isCode_cons (h : c ≠ '%') :
    isCode (c :: rest) = ((isPlain c || c = '+') && isCode rest) := by
  rw [isCode.eq_def]
  exact if_neg h

theorem isCode_percent {high low : Char} :
    isCode ('%' :: high :: low :: rest) = (isUpperHex high && isUpperHex low && isCode rest) := by
  rw [isCode, if_pos rfl]

/-- A plain character is decoded to its own byte. -/
theorem decode?_plain (hpercent : c ≠ '%') (hplus : c ≠ '+') (hplain : isPlain c) :
    decode? (c :: rest) = (decode? rest).map (UInt8.ofNat c.toNat :: ·) := by
  rw [decode?.eq_def]
  simp only [if_neg hpercent, if_neg hplus, if_pos hplain]
  cases decode? rest <;> rfl

theorem decode?_plus : decode? ('+' :: rest) = (decode? rest).map (0x20 :: ·) := by
  rw [decode?.eq_def]
  change (do return 0x20 :: (← decode? rest) : Option (List UInt8)) = _
  cases decode? rest <;> rfl

/-- A percent sign and two digits are decoded to one byte. -/
theorem decode?_percent {high low : Char} {m n : Nat} (hhigh : Tree.hexValue? high = some m)
    (hlow : Tree.hexValue? low = some n) :
    decode? ('%' :: high :: low :: rest) =
      (decode? rest).map (UInt8.ofNat (m * 16 + n) :: ·) := by
  rw [decode?, if_pos rfl, hhigh, hlow]
  simp only [Option.bind_eq_bind, Option.bind_some]
  cases decode? rest <;> rfl

/-- What form code consists of, character by character. -/
theorem of_mem_of_isCode (h : isCode t) (hc : c ∈ t) :
    isPlain c ∨ c = '+' ∨ c = '%' ∨ isUpperHex c := by
  induction t using isCode.induct with
  | case1 => cases hc
  | case2 high low rest ih =>
    rw [isCode_percent] at h
    simp only [Bool.and_eq_true] at h
    obtain ⟨⟨hhigh, hlow⟩, hrest⟩ := h
    simp only [List.mem_cons] at hc
    rcases hc with rfl | rfl | rfl | hc
    · exact .inr (.inr (.inl rfl))
    · exact .inr (.inr (.inr hhigh))
    · exact .inr (.inr (.inr hlow))
    · exact ih hrest hc
  | case3 rest hshort =>
    -- a percent sign with less than two characters behind it
    rw [isCode.eq_def] at h
    cases rest with
    | nil => cases h
    | cons high rest =>
      cases rest with
      | nil => cases h
      | cons low rest => exact absurd rfl (hshort high low rest)
  | case4 d rest hpercent ih =>
    rw [isCode_cons hpercent] at h
    simp only [Bool.and_eq_true, Bool.or_eq_true, decide_eq_true_eq] at h
    rcases List.mem_cons.1 hc with rfl | hc
    · exact h.1.elim .inl fun hplus => .inr (.inl hplus)
    · exact ih h.2 hc

/-! ## One byte -/

/-- **The form code of a byte**: the byte itself as a plain character, a
plus sign for the space, or a percent sign and two digits. -/
theorem encodeByte_cases (b : UInt8) :
    (∃ c, isPlain c ∧ c.toNat = b.toNat ∧ encodeByte b = [c]) ∨
    (b = 0x20 ∧ encodeByte b = ['+']) ∨
    encodeByte b = ['%', hexDigit (b.toNat / 16), hexDigit (b.toNat % 16)] := by
  have hlt : b.toNat < 256 := b.toNat_lt
  have hvalid : b.toNat.isValidChar := .inl (by omega)
  have hchar : (Char.ofNat b.toNat).toNat = b.toNat := by
    rw [Char.ofNat, dif_pos hvalid]
    rfl
  unfold encodeByte
  dsimp only
  split
  · rename_i hplain
    exact .inl ⟨_, hplain, hchar, rfl⟩
  split
  · rename_i hspace
    refine .inr (.inl ⟨?_, rfl⟩)
    rw [hspace] at hchar
    exact UInt8.toNat_inj.1 hchar.symm
  · exact .inr (.inr rfl)

/-- A hexadecimal digit has the value that it was made from. -/
theorem hexValue?_hexDigit : ∀ n < 16, Tree.hexValue? (hexDigit n) = some n := by decide

theorem isUpperHex_hexDigit : ∀ n < 16, isUpperHex (hexDigit n) := by decide

/-- **The form code of a byte decodes to the byte**, with any code behind
it. -/
theorem decode?_encodeByte (b : UInt8) (rest : Text) :
    decode? (encodeByte b ++ rest) = (decode? rest).map (b :: ·) := by
  rcases encodeByte_cases b with ⟨c, hplain, hchar, h⟩ | ⟨rfl, h⟩ | h
  · have hpercent : c ≠ '%' := Text.ne_of_holds hplain rfl
    have hplus : c ≠ '+' := Text.ne_of_holds hplain rfl
    rw [h, List.singleton_append, decode?_plain hpercent hplus hplain, hchar, UInt8.ofNat_toNat]
  · rw [h, List.singleton_append, decode?_plus]
  · have hlt : b.toNat < 256 := b.toNat_lt
    have hhigh := hexValue?_hexDigit (b.toNat / 16) (by omega)
    have hlow := hexValue?_hexDigit (b.toNat % 16) (by omega)
    rw [h]
    change decode? ('%' :: hexDigit (b.toNat / 16) :: hexDigit (b.toNat % 16) :: rest) = _
    rw [decode?_percent hhigh hlow, Nat.div_add_mod', UInt8.ofNat_toNat]

/-- The form code of a byte is form code, with any code behind it. -/
theorem isCode_encodeByte (b : UInt8) (rest : Text) :
    isCode (encodeByte b ++ rest) = isCode rest := by
  rcases encodeByte_cases b with ⟨c, hplain, -, h⟩ | ⟨-, h⟩ | h
  · have hpercent : c ≠ '%' := Text.ne_of_holds hplain rfl
    rw [h, List.singleton_append, isCode_cons hpercent, hplain, Bool.true_or, Bool.true_and]
  · rw [h, List.singleton_append, isCode_cons (by decide)]
    rfl
  · have hlt : b.toNat < 256 := b.toNat_lt
    have hhigh := isUpperHex_hexDigit (b.toNat / 16) (by omega)
    have hlow := isUpperHex_hexDigit (b.toNat % 16) (by omega)
    rw [h]
    change isCode ('%' :: hexDigit (b.toNat / 16) :: hexDigit (b.toNat % 16) :: rest) = _
    rw [isCode_percent, hhigh, hlow, Bool.true_and, Bool.true_and]

/-! ## Texts -/

/-- The form code of bytes decodes to the bytes. -/
theorem decode?_flatMap_encodeByte (bs : List UInt8) :
    decode? (bs.flatMap encodeByte) = some bs := by
  induction bs with
  | nil => rfl
  | cons b bs ih => rw [List.flatMap_cons, decode?_encodeByte, ih, Option.map_some]

/-- **The form code of a text decodes to its UTF-8 form.** -/
theorem decode?_encode (t : Text) :
    (decode? (encode t)).map List.toByteArray = some (String.ofList t).toUTF8 := by
  rw [encode, decode?_flatMap_encodeByte, Option.map_some]
  exact congrArg some String.toByteArray_ofList.symm

/-- **The form code of a text is form code.** -/
theorem isCode_encode (t : Text) : isCode (encode t) := by
  have hbytes : ∀ bs : List UInt8, isCode (bs.flatMap encodeByte) := by
    intro bs
    induction bs with
    | nil => rfl
    | cons b bs ih => rw [List.flatMap_cons, isCode_encodeByte, ih]
  exact hbytes (bytes t)

/-- **Texts of one form code are one text.** -/
theorem encode_injective {s t : Text} (h : encode s = encode t) : s = t := by
  have hutf8 : some (String.ofList s).toUTF8 = some (String.ofList t).toUTF8 := by
    rw [← decode?_encode s, h, decode?_encode t]
  exact String.ofList_injective (String.toByteArray_inj.1 (Option.some.inj hutf8))

end FormCode

end DocQuery
