import LedMatrix.Lib.CText
import Mathlib.Data.List.DropRight

/-!
# What `sscanf` reads

The texts that the conversion `%d` reads, and how a format is matched piece by
piece: plain bytes, white space, a number.
-/

namespace CText

/-! ## Numbers -/

/-- `%d` reads the whole text as this number: white space, an optional sign, and
at least one digit. -/
inductive IsNumber : List UInt8 → ℤ → Prop
  | unsigned {space digits : List UInt8} (hspace : ∀ c ∈ space, isSpace c = true)
      (hne : digits ≠ []) (hdigits : ∀ c ∈ digits, isDigit c = true) :
      IsNumber (space ++ digits) (digitsValue digits)
  | plus {space digits : List UInt8} (hspace : ∀ c ∈ space, isSpace c = true)
      (hne : digits ≠ []) (hdigits : ∀ c ∈ digits, isDigit c = true) :
      IsNumber (space ++ 0x2b :: digits) (digitsValue digits)
  | minus {space digits : List UInt8} (hspace : ∀ c ∈ space, isSpace c = true)
      (hne : digits ≠ []) (hdigits : ∀ c ∈ digits, isDigit c = true) :
      IsNumber (space ++ 0x2d :: digits) (-digitsValue digits)

/-- No digit comes next. -/
def NoDigit (rest : List UInt8) : Prop := ∀ c ∈ rest.head?, isDigit c = false

/-- Nothing comes next. -/
theorem noDigit_nil : NoDigit [] := by simp [NoDigit]

/-- Something other than a digit comes next. -/
theorem noDigit_cons {c : UInt8} (hc : isDigit c = false) (rest : List UInt8) :
    NoDigit (c :: rest) := by
  intro c' hc'
  rwa [← Option.some.inj hc']

/-- White space in front of something else is skipped. -/
theorem dropWhile_isSpace_append {space s : List UInt8} (hspace : ∀ c ∈ space, isSpace c = true)
    (hs : ∀ c ∈ s.head?, isSpace c = false) : (space ++ s).dropWhile isSpace = s := by
  rw [List.dropWhile_append_of_pos hspace]
  cases s with
  | nil => rfl
  | cons c s => rw [List.dropWhile_cons_of_neg (by simp [hs c rfl])]

/-- Digits in front of something else are read up to there. -/
theorem takeWhile_isDigit_append {digits rest : List UInt8}
    (hdigits : ∀ c ∈ digits, isDigit c = true) (hrest : NoDigit rest) :
    (digits ++ rest).takeWhile isDigit = digits ∧ (digits ++ rest).dropWhile isDigit = rest := by
  rw [List.takeWhile_append_of_pos hdigits, List.dropWhile_append_of_pos hdigits]
  cases rest with
  | nil => simp
  | cons c rest =>
    have hc : ¬ isDigit c = true := by simp [hrest c rfl]
    rw [List.takeWhile_cons_of_neg hc, List.dropWhile_cons_of_neg hc, List.append_nil]
    exact ⟨rfl, rfl⟩

/-- Where two numbers are followed by something other than a digit, the texts are the same
only when the numbers are. -/
theorem lit_toString_append_inj {m n : ℕ} {s t : List UInt8} (hs : NoDigit s) (ht : NoDigit t)
    (h : lit (toString m) ++ s = lit (toString n) ++ t) : m = n ∧ s = t := by
  obtain ⟨htakeM, hdropM⟩ := takeWhile_isDigit_append (fun _ => isDigit_of_mem_lit_toString) hs
  obtain ⟨htakeN, hdropN⟩ := takeWhile_isDigit_append (fun _ => isDigit_of_mem_lit_toString) ht
  constructor
  · rw [← digitsValue_lit_toString m, ← htakeM, h, htakeN, digitsValue_lit_toString]
  · rw [← hdropM, h, hdropN]

/-- The first byte of digits is a digit. -/
theorem head?_isDigit {digits : List UInt8} (hne : digits ≠ [])
    (hdigits : ∀ c ∈ digits, isDigit c = true) (rest : List UInt8) :
    ∃ c cs, digits ++ rest = c :: cs ∧ isDigit c = true := by
  cases digits with
  | nil => exact absurd rfl hne
  | cons c digits => exact ⟨c, digits ++ rest, rfl, hdigits c (by simp)⟩

/-- After white space and a sign, the digits decide what is read. -/
theorem scanDecimal_of_digits (negative : Bool) {space signed rest digits : List UInt8}
    (hspace : ∀ c ∈ space, isSpace c = true) (hsigned : ∀ c ∈ signed.head?, isSpace c = false)
    (hsign : splitSign signed = (negative, digits ++ rest)) (hne : digits ≠ [])
    (hdigits : ∀ c ∈ digits, isDigit c = true) (hrest : NoDigit rest) :
    scanDecimal (space ++ signed) =
      some (Int32.ofInt (if negative then -digitsValue digits else digitsValue digits), rest) := by
  obtain ⟨htake, hdrop⟩ := takeWhile_isDigit_append hdigits hrest
  simp only [scanDecimal, dropWhile_isSpace_append hspace hsigned, hsign, htake, hdrop, if_neg hne]

/-- A number is read when no digit comes after it. -/
theorem IsNumber.scanDecimal {t rest : List UInt8} {n : ℤ} (h : IsNumber t n)
    (hrest : NoDigit rest) : scanDecimal (t ++ rest) = some (Int32.ofInt n, rest) := by
  cases h with
  | unsigned hspace hne hdigits =>
    rename_i space digits
    obtain ⟨c, cs, hcons, hc⟩ := head?_isDigit hne hdigits rest
    obtain ⟨hnotSpace, hnotMinus, hnotPlus⟩ := isSpace_of_isDigit hc
    rw [List.append_assoc]
    refine scanDecimal_of_digits false hspace ?_ ?_ hne hdigits hrest
    · rw [hcons]
      simp [hnotSpace]
    · rw [hcons, splitSign, if_neg hnotMinus, if_neg hnotPlus]
  | plus hspace hne hdigits =>
    rw [List.append_assoc]
    refine scanDecimal_of_digits false hspace ?_ rfl hne hdigits hrest
    simp [isSpace]
  | minus hspace hne hdigits =>
    rw [List.append_assoc]
    refine scanDecimal_of_digits true hspace ?_ rfl hne hdigits hrest
    simp [isSpace]

/-- Splitting off a sign takes one byte or none. -/
theorem splitSign_cases (s : List UInt8) :
    splitSign s = (false, s) ∨ (∃ cs, s = 0x2b :: cs ∧ splitSign s = (false, cs)) ∨
      ∃ cs, s = 0x2d :: cs ∧ splitSign s = (true, cs) := by
  cases s with
  | nil => exact .inl rfl
  | cons c cs =>
    by_cases hminus : c = 0x2d
    · exact .inr (.inr ⟨cs, by rw [hminus], if_pos hminus⟩)
    · by_cases hplus : c = 0x2b
      · exact .inr (.inl ⟨cs, by rw [hplus], by rw [splitSign, if_neg hminus, if_pos hplus]⟩)
      · exact .inl (by rw [splitSign, if_neg hminus, if_neg hplus])

/-- What is left after skipping does not begin with what was skipped. -/
theorem noDigit_dropWhile (s : List UInt8) : NoDigit (s.dropWhile isDigit) := by
  intro c hc
  have hnot := List.head?_dropWhile_not isDigit s
  rw [Option.mem_def.mp hc] at hnot
  simpa using hnot

/-- What is read is a number, up to where no digit comes next. -/
theorem isNumber_of_scanDecimal {input rest : List UInt8} {v : Int32}
    (h : scanDecimal input = some (v, rest)) :
    ∃ t n, input = t ++ rest ∧ IsNumber t n ∧ NoDigit rest ∧ v = Int32.ofInt n := by
  have hinput := List.takeWhile_append_dropWhile (p := isSpace) (l := input)
  have hspace : ∀ c ∈ input.takeWhile isSpace, isSpace c = true :=
    fun c hc => List.mem_takeWhile_imp hc
  simp only [scanDecimal] at h
  generalize hs : splitSign (input.dropWhile isSpace) = signed at h
  obtain ⟨negative, s⟩ := signed
  by_cases hne : s.takeWhile isDigit = []
  · simp [hne] at h
  simp only [if_neg hne, Option.some.injEq, Prod.mk.injEq] at h
  obtain ⟨rfl, rfl⟩ := h
  have hdigits : ∀ c ∈ s.takeWhile isDigit, isDigit c = true :=
    fun c hc => List.mem_takeWhile_imp hc
  have hs' := List.takeWhile_append_dropWhile (p := isDigit) (l := s)
  rcases splitSign_cases (input.dropWhile isSpace) with
    hcase | ⟨cs, hcons, hcase⟩ | ⟨cs, hcons, hcase⟩
  · obtain ⟨rfl, rfl⟩ := Prod.mk.inj (hs.symm.trans hcase)
    refine ⟨_, _, ?_, .unsigned hspace hne hdigits, noDigit_dropWhile _, rfl⟩
    rw [List.append_assoc, hs', hinput]
  · obtain ⟨rfl, rfl⟩ := Prod.mk.inj (hs.symm.trans hcase)
    refine ⟨_, _, ?_, .plus hspace hne hdigits, noDigit_dropWhile _, rfl⟩
    rw [List.append_assoc, List.cons_append, hs', ← hcons, hinput]
  · obtain ⟨rfl, rfl⟩ := Prod.mk.inj (hs.symm.trans hcase)
    refine ⟨_, _, ?_, .minus hspace hne hdigits, noDigit_dropWhile _, rfl⟩
    rw [List.append_assoc, List.cons_append, hs', ← hcons, hinput]

/-- `%d` skips white space itself. -/
theorem scanDecimal_dropWhile_isSpace (input : List UInt8) :
    scanDecimal (input.dropWhile isSpace) = scanDecimal input := by
  simp only [scanDecimal, List.dropWhile_idempotent]

/-! ## Formats -/

/-- A number in the format. -/
theorem sscanf_number (format input : List UInt8) :
    sscanf (0x25 :: 0x64 :: format) input =
      (scanDecimal input).elim [] fun p => p.1 :: sscanf format p.2 := by
  rw [sscanf.eq_2]
  cases scanDecimal input <;> rfl

/-- White space in the format. -/
theorem sscanf_space (format input : List UInt8) :
    sscanf (0x20 :: format) input = sscanf format (input.dropWhile isSpace) := by
  cases input with
  | nil => rw [sscanf.eq_3 _ _ (by simp), if_pos (by decide)]
  | cons x rest => rw [sscanf.eq_4 _ _ _ _ (by simp), if_pos (by decide)]

/-- A plain byte in the format. -/
theorem sscanf_byte {c : UInt8} (hpercent : c ≠ 0x25) (hspace : isSpace c = false)
    (format input : List UInt8) :
    sscanf (c :: format) input = if [c] <+: input then sscanf format (input.drop 1) else [] := by
  have hplain : isSpace c ≠ true := by simp [hspace]
  cases input with
  | nil => simp [sscanf.eq_3 _ _ fun _ h => absurd h hpercent, hplain]
  | cons x rest =>
    simp [sscanf.eq_4 _ _ _ _ fun _ h => absurd h hpercent, hplain, List.cons_prefix_cons, eq_comm]

/-- What comes after a text at the beginning of the input. -/
def afterText (text input : List UInt8) : Option (List UInt8) :=
  if text <+: input then some (input.drop text.length) else none

/-- The text is at the beginning exactly when there is something after it. -/
theorem afterText_eq_some_iff {text input rest : List UInt8} :
    afterText text input = some rest ↔ input = text ++ rest := by
  unfold afterText
  constructor
  · intro h
    split_ifs at h with hbegins
    obtain ⟨tail, rfl⟩ := hbegins
    rw [← Option.some.inj h, List.drop_left]
  · rintro rfl
    rw [if_pos (List.prefix_append _ _), List.drop_left]

/-- The text stands for itself in a format. -/
def IsLiteral (text : List UInt8) : Prop := ∀ c ∈ text, c ≠ 0x25 ∧ isSpace c = false

instance (text : List UInt8) : Decidable (IsLiteral text) := List.decidableBAll _ _

/-- A text of plain bytes in the format. -/
theorem sscanf_text {text : List UInt8} (htext : IsLiteral text) (format input : List UInt8) :
    sscanf (text ++ format) input = (afterText text input).elim [] (sscanf format) := by
  have hbegins : sscanf (text ++ format) input =
      if text <+: input then sscanf format (input.drop text.length) else [] := by
    induction text generalizing input with
    | nil => simp
    | cons c text ih =>
      obtain ⟨hpercent, hspace⟩ := htext c (by simp)
      rw [List.cons_append, sscanf_byte hpercent hspace, ih fun c' hc' => htext c' (by simp [hc'])]
      cases input with
      | nil => simp
      | cons x rest =>
        simp only [List.cons_prefix_cons, List.nil_prefix, and_true, List.drop_succ_cons,
          List.drop_zero, List.length_cons]
        split_ifs <;> simp_all
  rw [hbegins, afterText]
  split_ifs <;> rfl

end CText
