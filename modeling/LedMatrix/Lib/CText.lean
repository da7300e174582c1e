import Mathlib.Algebra.Group.Nat.Defs
import Mathlib.Data.Int.Notation
import Mathlib.Data.List.Basic
import Mathlib.Data.List.TakeWhile

/-!
# C strings and `sscanf`

A C string is the list of its bytes, without the terminating zero byte. The
functions are those of the C standard library, as far as a format of plain
bytes, white space and `%d` goes.
-/

namespace CText

/-- The bytes of an ASCII string literal. -/
def lit (s : String) : List UInt8 := s.toList.map fun c => UInt8.ofNat c.toNat

/-- `strchr`: the part of the string from the first occurrence of the byte. -/
def strchr : List UInt8 → UInt8 → Option (List UInt8)
  | [], _ => none
  | x :: xs, c => if x = c then some (x :: xs) else strchr xs c

/-- `strstr`: the part of the string from the first occurrence of the key. -/
def strstr : List UInt8 → List UInt8 → Option (List UInt8)
  | [], key => if key = [] then some [] else none
  | x :: xs, key => if key.isPrefixOf (x :: xs) then some (x :: xs) else strstr xs key

/-- `isspace` in the C locale: space, and the controls from tab to carriage return. -/
def isSpace (c : UInt8) : Bool := c == 0x20 || (0x09 ≤ c && c ≤ 0x0d)

/-- `isdigit`. -/
def isDigit (c : UInt8) : Bool := 0x30 ≤ c && c ≤ 0x39

/-- The value of a string of decimal digits. -/
def digitsValue (digits : List UInt8) : ℕ :=
  digits.foldl (fun v c => 10 * v + (c.toNat - 0x30)) 0

/-- Split an optional sign off a number; `true` for a minus sign. -/
def splitSign : List UInt8 → Bool × List UInt8
  | [] => (false, [])
  | c :: cs => if c = 0x2d then (true, cs) else if c = 0x2b then (false, cs) else (false, c :: cs)

/-- The conversion `%d`: white space is skipped, then an optional sign and at
least one digit are read. A number outside the range of `int` is undefined
behaviour in C; it wraps here. -/
def scanDecimal (input : List UInt8) : Option (Int32 × List UInt8) :=
  let (negative, rest) := splitSign (input.dropWhile isSpace)
  let digits := rest.takeWhile isDigit
  if digits = [] then none
  else
    let magnitude : ℤ := digitsValue digits
    some (Int32.ofInt (if negative then -magnitude else magnitude), rest.dropWhile isDigit)

/-- `sscanf` with a format of plain bytes, white space and `%d`: the numbers
converted before the first mismatch. The function of C stores them in this
order and returns how many there are. -/
def sscanf : List UInt8 → List UInt8 → List Int32
  | [], _ => []
  | 0x25 :: 0x64 :: format, input =>
    match scanDecimal input with
    | none => []
    | some (v, rest) => v :: sscanf format rest
  | c :: format, input =>
    if isSpace c then sscanf format (input.dropWhile isSpace)
    else
      match input with
      | [] => []
      | x :: rest => if x = c then sscanf format rest else []

example : sscanf (lit "rgb(%d, %d,%d)") (lit "rgb( 12,-3,+400") = [12, -3, 400] := by decide

/-! ## Occurrences -/

/-- The first occurrence comes after bytes that differ. -/
theorem strchr_append {pre : List UInt8} {c : UInt8} (h : c ∉ pre) (rest : List UInt8) :
    strchr (pre ++ c :: rest) c = some (c :: rest) := by
  induction pre with
  | nil => exact if_pos rfl
  | cons x pre ih =>
    simp only [List.mem_cons, not_or] at h
    rw [List.cons_append, strchr, if_neg (Ne.symm h.1), ih h.2]

/-- A digit is neither white space nor a sign. -/
theorem isSpace_of_isDigit {c : UInt8} (h : isDigit c = true) :
    isSpace c = false ∧ c ≠ 0x2d ∧ c ≠ 0x2b := by
  simp only [isDigit, Bool.and_eq_true, decide_eq_true_eq, UInt8.le_iff_toNat_le] at h
  simp only [isSpace, Bool.or_eq_false_iff, Bool.and_eq_false_iff, decide_eq_false_iff_not,
    UInt8.le_iff_toNat_le, beq_eq_false_iff_ne, ne_eq, ← UInt8.toNat_inj]
  simp only [UInt8.reduceToNat] at h ⊢
  omega

/-- The bytes of a concatenation. -/
theorem lit_append (s t : String) : lit (s ++ t) = lit s ++ lit t := by
  simp only [lit, String.toList_append, List.map_append]

/-- A natural number is written in decimal digits. -/
theorem isDigit_of_mem_lit_toString {n : ℕ} {c : UInt8} (hc : c ∈ lit (toString n)) :
    isDigit c = true := by
  simp only [lit, Nat.toString_eq_ofList_toDigits, String.toList_ofList, List.mem_map] at hc
  obtain ⟨d, hd, rfl⟩ := hc
  have hdigit := Nat.isDigit_of_mem_toDigits (by decide) (by decide) hd
  have htoNat : d.toNat = d.val.toNat := rfl
  have hzero : '0'.val.toNat = 48 := rfl
  have hnine : '9'.val.toNat = 57 := rfl
  simp only [Char.isDigit, ge_iff_le, UInt32.le_iff_toNat_le, Bool.and_eq_true,
    decide_eq_true_eq] at hdigit
  simp only [isDigit, UInt8.le_iff_toNat_le, UInt8.toNat_ofNat', Bool.and_eq_true,
    decide_eq_true_eq]
  simp only [UInt8.reduceToNat]
  omega

/-- The decimal digits of a number have its value. -/
theorem digitsValue_lit_toString (n : ℕ) : digitsValue (lit (toString n)) = n := by
  have hchars : digitsValue (lit (toString n)) = Nat.ofDigitChars 10 (Nat.toDigits 10 n) 0 := by
    rw [digitsValue, lit, Nat.toString_eq_ofList_toDigits, String.toList_ofList, List.foldl_map,
      Nat.ofDigitChars_eq_foldl]
    refine List.foldl_ext _ _ _ fun v c hc => ?_
    have hdigit := Nat.isDigit_of_mem_toDigits (by decide) (by decide) hc
    have hnine : '9'.val.toNat = 57 := rfl
    have hlt : c.toNat < 256 := by
      simp only [Char.isDigit, ge_iff_le, UInt32.le_iff_toNat_le, Bool.and_eq_true,
        decide_eq_true_eq] at hdigit
      have htoNat : c.toNat = c.val.toNat := rfl
      omega
    rw [UInt8.toNat_ofNat', Nat.mod_eq_of_lt hlt]
    rfl
  rw [hchars, Nat.ofDigitChars_ten_toDigits]

/-- A number in decimal has at least one digit. -/
theorem lit_toString_ne_nil (n : ℕ) : lit (toString n) ≠ [] := by
  rw [lit, Nat.toString_eq_ofList_toDigits, String.toList_ofList, ne_eq, List.map_eq_nil_iff]
  exact List.ne_nil_of_length_pos Nat.length_toDigits_pos

/-- A decimal number begins with a zero only if it is zero. -/
theorem head_toDigits {n : ℕ} (h : 0 < n) : (Nat.toDigits 10 n).head? ≠ some '0' := by
  induction n using Nat.strongRecOn with
  | ind n ih =>
    by_cases hn : n < 10
    · rw [Nat.toDigits_of_lt_base hn]
      have hall : ∀ d : Fin 10, 0 < d.val → [Nat.digitChar d].head? ≠ some '0' := by decide
      exact hall ⟨n, hn⟩ h
    · rw [Nat.toDigits_of_base_le (by decide) (by omega), List.head?_append]
      have hrest := ih (n / 10) (by omega) (by omega)
      cases hdigits : Nat.toDigits 10 (n / 10) with
      | nil => exact absurd hdigits Nat.toDigits_ne_nil
      | cons c cs =>
        rw [hdigits] at hrest
        exact hrest

/-- The first digit of a number in decimal is zero only if the number is. -/
theorem head_lit_toString {n : ℕ} (h : 0 < n) : (lit (toString n)).head? ≠ some 0x30 := by
  rw [lit, Nat.toString_eq_ofList_toDigits, String.toList_ofList, List.head?_map]
  intro hzero
  obtain ⟨c, hc, hbyte⟩ := Option.map_eq_some_iff.mp hzero
  have hdigit := Nat.isDigit_of_mem_toDigits (by decide) (by decide) (List.mem_of_head? hc)
  have hval : c.val.toNat = c.toNat := rfl
  have hrange : 48 ≤ c.toNat ∧ c.toNat ≤ 57 := by
    simpa [Char.isDigit, UInt32.le_iff_toNat_le, hval] using hdigit
  have hsame := congrArg UInt8.toNat hbyte
  rw [UInt8.toNat_ofNat'] at hsame
  simp only [UInt8.reduceToNat] at hsame
  have hcode : c.toNat = '0'.toNat := by
    have hcode : '0'.toNat = 48 := rfl
    omega
  exact head_toDigits h (hc.trans (congrArg some (Char.toNat_inj.mp hcode)))

/-- A number below a power of ten has at most as many digits. -/
theorem length_lit_toString_le {n k : ℕ} (hk : 0 < k) (hn : n < 10 ^ k) :
    (lit (toString n)).length ≤ k := by
  rw [lit, Nat.toString_eq_ofList_toDigits, String.toList_ofList, List.length_map]
  exact (Nat.length_toDigits_le_iff (by decide) hk).mpr hn

/-- A number in decimal is written without a zero byte. -/
theorem zero_notMem_lit_toString (n : ℕ) : 0 ∉ lit (toString n) := by
  intro h
  exact absurd (isDigit_of_mem_lit_toString h) (by decide)

/-- An integer in decimal is written without a zero byte. -/
theorem zero_notMem_lit_toString_int (i : ℤ) : 0 ∉ lit (toString i) := by
  cases i with
  | ofNat n => exact zero_notMem_lit_toString n
  | negSucc n =>
    have hsign : lit (toString (Int.negSucc n)) = lit "-" ++ lit (toString (n + 1)) :=
      lit_append _ _
    rw [hsign, List.mem_append]
    rintro (hminus | hdigits)
    · exact absurd hminus (by decide)
    · exact zero_notMem_lit_toString _ hdigits

/-- `strlen` of the C string in some memory: the bytes before the first zero byte. -/
def strlen (memory : List UInt8) : ℕ := (memory.takeWhile (· ≠ 0)).length

/-- All bytes of a string without a zero byte count. -/
theorem strlen_of_zero_notMem {s : List UInt8} (h : 0 ∉ s) : strlen s = s.length := by
  rw [strlen, List.takeWhile_eq_self_iff.mpr]
  intro c hc
  rw [decide_eq_true_eq]
  rintro rfl
  exact h hc

end CText
