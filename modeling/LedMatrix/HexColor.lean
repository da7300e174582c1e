import LedMatrix.WebUi

/-!
# Colour codes of the page

The page shows the selected colour as a code, and reads codes from its presets and its
colour picker. `hexToRgb` accepts a code in either case, with or without its number sign,
and nothing else; it reads every code that `rgbToHex` writes.
-/

namespace LedMatrix

/-- `componentToHex`. -/
def componentToHex (c : UInt8) : String :=
  let hex := String.ofList (Nat.toDigits 16 c.toNat)
  if hex.length = 1 then "0" ++ hex else hex

/-- `rgbToHex`. -/
def rgbToHex (c : LedRgb) : String :=
  "#" ++ componentToHex c.r ++ componentToHex c.g ++ componentToHex c.b

example : rgbToHex ⟨255, 0, 10⟩ = "#ff000a" := by decide

/-- The text of a colour, for CSS and to be shown. -/
def rgbText (c : LedRgb) : String := s!"rgb({c.r}, {c.g}, {c.b})"

/-! ## Digits -/

/-- The two digits of a channel. -/
def channelDigits (c : UInt8) : List Char :=
  [Nat.digitChar (c.toNat / 16), Nat.digitChar (c.toNat % 16)]

/-- A channel is written with its two digits. -/
theorem toList_componentToHex (c : UInt8) : (componentToHex c).toList = channelDigits c := by
  have hall : ∀ n : Fin 256, (componentToHex (.ofNat n)).toList = channelDigits (.ofNat n) := by
    decide +kernel
  have hc := hall ⟨c.toNat, c.toNat_lt⟩
  rwa [UInt8.ofNat_toNat] at hc

/-- A colour is written with its six digits. -/
theorem toList_rgbToHex (c : LedRgb) :
    (rgbToHex c).toList =
      '#' :: (channelDigits c.r ++ channelDigits c.g ++ channelDigits c.b) := by
  simp [rgbToHex, toList_componentToHex]

/-- Only ASCII characters are digits. -/
theorem toNat_lt_of_hexDigit {c : Char} {d : ℕ} (h : hexDigit c = some d) : c.toNat < 128 := by
  have hle : ∀ hi : Char, c ≤ hi → c.toNat ≤ hi.toNat := fun hi hc => hc
  unfold hexDigit at h
  split_ifs at h with hdecimal hlower hupper
  · exact Nat.lt_of_le_of_lt (hle '9' hdecimal.2) (by decide)
  · exact Nat.lt_of_le_of_lt (hle 'f' hlower.2) (by decide)
  · exact Nat.lt_of_le_of_lt (hle 'F' hupper.2) (by decide)

/-- Only ASCII characters have an ASCII character as their lower case. -/
theorem toNat_lt_of_toLower {c : Char} (h : c.toLower.toNat < 128) : c.toNat < 128 := by
  unfold Char.toLower at h
  split at h
  · rename_i hupper
    have hle : c.toNat ≤ 'Z'.toNat := hupper.2
    exact Nat.lt_of_le_of_lt hle (by decide)
  · exact h

/-- **Digits**: what is read is a digit in either case, and nothing else. -/
theorem hexDigit_eq_some_iff {c : Char} {d : ℕ} :
    hexDigit c = some d ↔ d < 16 ∧ c.toLower = Nat.digitChar d := by
  have hread : ∀ n : Fin 128, ∀ d : Fin 16,
      (Char.ofNat n).toLower = Nat.digitChar d → hexDigit (Char.ofNat n) = some d.val := by
    decide +kernel
  have hdigit : ∀ n : Fin 128, ∀ d ∈ hexDigit (Char.ofNat n),
      d < 16 ∧ (Char.ofNat n).toLower = Nat.digitChar d := by
    decide +kernel
  constructor
  · intro h
    have hc := hdigit ⟨c.toNat, toNat_lt_of_hexDigit h⟩ d
    rw [Char.ofNat_toNat] at hc
    exact hc h
  · rintro ⟨hd, hlower⟩
    have hascii : ∀ d : Fin 16, (Nat.digitChar d).toNat < 128 := by decide
    have hlt : c.toLower.toNat < 128 := hlower ▸ hascii ⟨d, hd⟩
    have hc := hread ⟨c.toNat, toNat_lt_of_toLower hlt⟩ ⟨d, hd⟩
    rw [Char.ofNat_toNat] at hc
    exact hc hlower

/-- The channel that two digits make has these digits. -/
theorem digits_ofNat {d₁ d₀ : ℕ} (h₁ : d₁ < 16) (h₀ : d₀ < 16) :
    (UInt8.ofNat (16 * d₁ + d₀)).toNat / 16 = d₁ ∧
      (UInt8.ofNat (16 * d₁ + d₀)).toNat % 16 = d₀ := by
  rw [UInt8.toNat_ofNat']
  omega

/-! ## Codes -/

/-- The digits of a code, after its number sign if it has one. -/
def codeDigits (hex : String) : List Char :=
  match hex.toList with
  | '#' :: cs => cs
  | cs => cs

/-- Digits that are read one by one. -/
theorem mapM_hexDigit_eq_some {cs : List Char} {ds : List ℕ} :
    cs.mapM hexDigit = some ds ↔
      (∀ d ∈ ds, d < 16) ∧ cs.map Char.toLower = ds.map Nat.digitChar := by
  induction cs generalizing ds with
  | nil =>
    cases ds with
    | nil => simp
    | cons d ds => simp
  | cons c cs ih =>
    rw [List.mapM_cons]
    constructor
    · intro h
      obtain ⟨d, hd, hrest⟩ := Option.bind_eq_some_iff.mp h
      obtain ⟨ds', hds', hcons⟩ := Option.bind_eq_some_iff.mp hrest
      obtain rfl := Option.some.inj hcons
      obtain ⟨hlt, hlower⟩ := hexDigit_eq_some_iff.mp hd
      obtain ⟨hall, hmap⟩ := ih.mp hds'
      exact ⟨List.forall_mem_cons.mpr ⟨hlt, hall⟩, List.cons_eq_cons.mpr ⟨hlower, hmap⟩⟩
    · rintro ⟨hall, hmap⟩
      cases ds with
      | nil => simp at hmap
      | cons d ds =>
        obtain ⟨hlower, hmap⟩ := List.cons_eq_cons.mp hmap
        obtain ⟨hlt, hall⟩ := List.forall_mem_cons.mp hall
        rw [hexDigit_eq_some_iff.mpr ⟨hlt, hlower⟩, ih.mpr ⟨hall, hmap⟩]
        rfl

/-- The digits of a colour, as numbers. -/
def LedRgb.digits (c : LedRgb) : List ℕ :=
  [c.r.toNat / 16, c.r.toNat % 16, c.g.toNat / 16, c.g.toNat % 16, c.b.toNat / 16,
    c.b.toNat % 16]

/-- The digits of a colour are digits. -/
theorem LedRgb.digits_lt (c : LedRgb) : ∀ d ∈ c.digits, d < 16 := by
  have hr := c.r.toNat_lt
  have hg := c.g.toNat_lt
  have hb := c.b.toNat_lt
  intro d hd
  simp only [digits, List.mem_cons, List.not_mem_nil, or_false] at hd
  omega

/-- A channel is made of its two digits. -/
theorem ofNat_digits (c : UInt8) : UInt8.ofNat (16 * (c.toNat / 16) + c.toNat % 16) = c := by
  rw [Nat.div_add_mod, UInt8.ofNat_toNat]

/-- A code is read by its digits. -/
theorem hexToRgb_eq_some_digits {hex : String} {c : LedRgb} :
    hexToRgb hex = some c ↔ (codeDigits hex).mapM hexDigit = some c.digits := by
  unfold hexToRgb codeDigits
  dsimp only
  generalize hread : List.mapM hexDigit _ = digits
  constructor
  · intro h
    split at h
    · rename_i r₁ r₀ g₁ g₀ b₁ b₀
      obtain ⟨hlt, -⟩ := mapM_hexDigit_eq_some.mp hread
      simp only [List.mem_cons, List.not_mem_nil, or_false, forall_eq_or_imp, forall_eq] at hlt
      obtain ⟨hr₁, hr₀, hg₁, hg₀, hb₁, hb₀⟩ := hlt
      obtain rfl := Option.some.inj h
      simp only [LedRgb.digits, digits_ofNat hr₁ hr₀, digits_ofNat hg₁ hg₀, digits_ofNat hb₁ hb₀]
    · cases h
  · rintro rfl
    simp only [LedRgb.digits, ofNat_digits]

/-- **The codes that are read**: six digits in either case, and the colour is the one that
is written with them. -/
theorem hexToRgb_eq_some_iff {hex : String} {c : LedRgb} :
    hexToRgb hex = some c ↔ '#' :: (codeDigits hex).map Char.toLower = (rgbToHex c).toList := by
  have hcode : (rgbToHex c).toList = '#' :: c.digits.map Nat.digitChar := toList_rgbToHex c
  rw [hexToRgb_eq_some_digits, mapM_hexDigit_eq_some, and_iff_right c.digits_lt, hcode,
    List.cons_eq_cons, and_iff_right rfl]

/-- **Colour codes.** A code is read as a colour exactly when, in lower case and behind a
number sign, it is what the page writes for the colour; so each code that the page writes,
or shows in upper case, is read as its colour. -/
theorem hexToRgb_codes (c : LedRgb) :
    (∀ hex, hexToRgb hex = some c ↔
      '#' :: (codeDigits hex).map Char.toLower = (rgbToHex c).toList) ∧
    hexToRgb (rgbToHex c) = some c ∧ hexToRgb (rgbToHex c).toUpper = some c := by
  have hcode : (rgbToHex c).toList = '#' :: c.digits.map Nat.digitChar := toList_rgbToHex c
  have hupper : (rgbToHex c).toUpper.toList =
      '#' :: (c.digits.map Nat.digitChar).map Char.toUpper := by
    rw [String.toUpper, String.toList_map, hcode]
    rfl
  have hlower : ∀ d : Fin 16, (Nat.digitChar d).toLower = Nat.digitChar d ∧
      (Nat.digitChar d).toUpper.toLower = Nat.digitChar d := by decide
  refine ⟨fun hex => hexToRgb_eq_some_iff, hexToRgb_eq_some_iff.mpr ?_,
    hexToRgb_eq_some_iff.mpr ?_⟩
  · simp only [codeDigits, hcode, List.map_map]
    refine congrArg _ (List.map_congr_left fun d hd => ?_)
    exact (hlower ⟨d, c.digits_lt d hd⟩).1
  · simp only [codeDigits, hupper, hcode, List.map_map]
    refine congrArg _ (List.map_congr_left fun d hd => ?_)
    exact (hlower ⟨d, c.digits_lt d hd⟩).2

end LedMatrix
