import LedMatrix.Lib.Scanf
import LedMatrix.McpCommands

/-!
# The colour strings

`parse_rgb_string` tries four patterns and counts the numbers that are converted.
White space in a pattern changes nothing, and what comes after the third number is
never looked at. So there are two forms of colour strings, and both are accepted
with anything after the third number.
-/

namespace LedMatrix

open MachineInt CText

/-! ## The patterns -/

/-- Three numbers with commas between them, and what comes after the third. -/
def commaTriple (input : List UInt8) : Option ((Int32 × Int32 × Int32) × List UInt8) := do
  let (r, rest) ← scanDecimal input
  let rest ← afterText [0x2c] rest
  let (g, rest) ← scanDecimal rest
  let rest ← afterText [0x2c] rest
  let (b, rest) ← scanDecimal rest
  return ((r, g, b), rest)

/-- The part of a pattern with the numbers, with white space before the second and
the third, and with a text after them. -/
def numbersPattern (space tail : List UInt8) : List UInt8 :=
  lit "%d," ++ (space ++ (lit "%d," ++ (space ++ (lit "%d" ++ tail))))

/-- White space before a number in the format changes nothing. -/
theorem sscanf_space_number {space : List UInt8} (hspace : space = [] ∨ space = [0x20])
    (format input : List UInt8) :
    sscanf (space ++ 0x25 :: 0x64 :: format) input =
      (scanDecimal input).elim [] fun p => p.1 :: sscanf format p.2 := by
  rcases hspace with rfl | rfl
  · exact sscanf_number format input
  · rw [List.singleton_append, sscanf_space, sscanf_number, scanDecimal_dropWhile_isSpace]

/-- A pattern counts exactly when it finds three numbers with commas between them. -/
theorem scanTriple_numbersPattern {space tail : List UInt8} (hspace : space = [] ∨ space = [0x20])
    (htail : ∀ input, sscanf tail input = []) (input : List UInt8) :
    scanTriple (numbersPattern space tail) input = (commaTriple input).map Prod.fst := by
  have hcomma : ∀ format input, sscanf (0x2c :: format) input =
      (afterText [0x2c] input).elim [] (sscanf format) :=
    fun format input => sscanf_text (by decide : IsLiteral [0x2c]) format input
  have hpattern : numbersPattern space tail = 0x25 :: 0x64 :: 0x2c :: (space ++ 0x25 :: 0x64 ::
      0x2c :: (space ++ 0x25 :: 0x64 :: tail)) := rfl
  have hnumber := sscanf_space_number hspace
  rw [hpattern, scanTriple, commaTriple, sscanf_number]
  cases scanDecimal input with
  | none => rfl
  | some r =>
    cases hfirst : afterText [0x2c] r.2 with
    | none => simp [hcomma, hfirst]
    | some afterFirst =>
      cases hsecond : scanDecimal afterFirst with
      | none => simp [hcomma, hnumber, hfirst, hsecond]
      | some g =>
        cases hthird : afterText [0x2c] g.2 with
        | none => simp [hcomma, hnumber, hfirst, hsecond, hthird]
        | some afterSecond =>
          cases hlast : scanDecimal afterSecond <;>
            simp [hcomma, hnumber, htail, hfirst, hsecond, hthird, hlast]

/-- The four patterns come down to two forms: three numbers after `rgb(`, or three
numbers alone. -/
theorem parseRgbString_eq (str : List UInt8) :
    parseRgbString (some str) =
      (((afterText (lit "rgb(") str).bind commaTriple).or (commaTriple str)).map fun p =>
        ⟨clampChannel p.1.1, clampChannel p.1.2.1, clampChannel p.1.2.2⟩ := by
  have hclose : ∀ input, sscanf [0x29] input = [] := by
    intro input
    rw [sscanf_byte (by decide) (by decide)]
    split_ifs <;> rfl
  have hplain : ∀ space, space = [] ∨ space = [0x20] → scanTriple (numbersPattern space []) str =
      (commaTriple str).map Prod.fst := by
    intro space hspace
    exact scanTriple_numbersPattern hspace (fun _ => rfl) str
  have hrgb : ∀ space, space = [] ∨ space = [0x20] →
      scanTriple (lit "rgb(" ++ numbersPattern space [0x29]) str =
        ((afterText (lit "rgb(") str).bind commaTriple).map Prod.fst := by
    intro space hspace
    have htext := sscanf_text (by decide : IsLiteral (lit "rgb("))
      (numbersPattern space [0x29]) str
    cases hafter : afterText (lit "rgb(") str with
    | none => simp [scanTriple, htext, hafter]
    | some rest =>
      have hrest := scanTriple_numbersPattern hspace hclose rest
      rw [scanTriple] at hrest ⊢
      rw [htext, hafter]
      exact hrest
  have hpatterns : lit "rgb(%d,%d,%d)" = lit "rgb(" ++ numbersPattern [] [0x29] ∧
      lit "rgb(%d, %d, %d)" = lit "rgb(" ++ numbersPattern [0x20] [0x29] ∧
      lit "%d,%d,%d" = numbersPattern [] [] ∧ lit "%d, %d, %d" = numbersPattern [0x20] [] := by
    decide
  obtain ⟨h₁, h₂, h₃, h₄⟩ := hpatterns
  simp only [parseRgbString, h₁, h₂, h₃, h₄, hrgb _ (.inl rfl), hrgb _ (.inr rfl),
    hplain _ (.inl rfl), hplain _ (.inr rfl)]
  cases (afterText (lit "rgb(") str).bind commaTriple with
  | some p => rfl
  | none => cases commaTriple str <;> rfl

/-! ## The grammar -/

/-- Three numbers with commas between them. -/
def IsTriple (t : List UInt8) (r g b : ℤ) : Prop :=
  ∃ tr tg tb, t = tr ++ 0x2c :: (tg ++ 0x2c :: tb) ∧ IsNumber tr r ∧ IsNumber tg g ∧ IsNumber tb b

/-- The colour strings: three numbers in `rgb(` and a closing parenthesis, or alone. -/
inductive ColorText : List UInt8 → ℤ → ℤ → ℤ → Prop
  | rgb {t : List UInt8} {r g b : ℤ} (h : IsTriple t r g b) :
      ColorText (lit "rgb(" ++ (t ++ lit ")")) r g b
  | plain {t : List UInt8} {r g b : ℤ} (h : IsTriple t r g b) : ColorText t r g b

/-- The patterns read three numbers, up to where no digit comes next. -/
theorem commaTriple_eq_some_iff {input rest : List UInt8} {r g b : Int32} :
    commaTriple input = some ((r, g, b), rest) ↔
      ∃ t r' g' b', input = t ++ rest ∧ IsTriple t r' g' b' ∧ NoDigit rest ∧
        r = Int32.ofInt r' ∧ g = Int32.ofInt g' ∧ b = Int32.ofInt b' := by
  constructor
  · intro h
    simp only [commaTriple, Option.bind_eq_bind, Option.bind_eq_some_iff, Prod.exists] at h
    obtain ⟨r₁, s₁, hr, s₂, hs₂, g₁, s₃, hg, s₄, hs₄, b₁, s₅, hb, hret⟩ := h
    obtain ⟨⟨rfl, rfl, rfl⟩, rfl⟩ : (r₁ = r ∧ g₁ = g ∧ b₁ = b) ∧ s₅ = rest := by simpa using hret
    obtain ⟨tr, r', rfl, htr, -, rfl⟩ := isNumber_of_scanDecimal hr
    rw [afterText_eq_some_iff] at hs₂ hs₄
    subst hs₂
    obtain ⟨tg, g', rfl, htg, -, rfl⟩ := isNumber_of_scanDecimal hg
    subst hs₄
    obtain ⟨tb, b', rfl, htb, hrest, rfl⟩ := isNumber_of_scanDecimal hb
    refine ⟨_, r', g', b', ?_, ⟨tr, tg, tb, rfl, htr, htg, htb⟩, hrest, rfl, rfl, rfl⟩
    simp
  · rintro ⟨t, r', g', b', rfl, ⟨tr, tg, tb, rfl, hr, hg, hb⟩, hrest, rfl, rfl, rfl⟩
    have hafter : ∀ s, afterText [0x2c] (0x2c :: s) = some s := fun s =>
      afterText_eq_some_iff.mpr rfl
    have hcomma : ∀ s, NoDigit (0x2c :: s) := fun s => noDigit_cons (by decide) s
    simp [commaTriple, hr.scanDecimal (hcomma _), hg.scanDecimal (hcomma _), hb.scanDecimal hrest,
      hafter]

/-- Three numbers do not begin with `rgb(`. -/
theorem commaTriple_rgb (s : List UInt8) : commaTriple (lit "rgb(" ++ s) = none := by
  have hletter : scanDecimal (lit "rgb(" ++ s) = none := by
    have hlit : lit "rgb(" ++ s = 0x72 :: (lit "gb(" ++ s) := rfl
    rw [hlit, scanDecimal, List.dropWhile_cons_of_neg (by decide)]
    rw [splitSign, if_neg (by decide), if_neg (by decide)]
    dsimp only
    rw [List.takeWhile_cons_of_neg (by decide)]
    rfl
  rw [commaTriple, hletter]
  rfl

/-- A colour string after `rgb(` is three numbers and a closing parenthesis. -/
theorem colorText_rgb_iff {body : List UInt8} {r g b : ℤ} :
    ColorText (lit "rgb(" ++ body) r g b ↔ ∃ t, body = t ++ lit ")" ∧ IsTriple t r g b := by
  constructor
  · intro h
    generalize hstr : lit "rgb(" ++ body = str at h
    cases h with
    | rgb h => exact ⟨_, List.append_cancel_left hstr, h⟩
    | plain h =>
      have hscan : commaTriple str = some ((_, _, _), []) :=
        commaTriple_eq_some_iff.mpr ⟨str, r, g, b, by simp, h, noDigit_nil, rfl, rfl, rfl⟩
      rw [← hstr, commaTriple_rgb] at hscan
      cases hscan
  · rintro ⟨t, rfl, h⟩
    exact .rgb h

/-- A colour string without `rgb(` is three numbers alone. -/
theorem colorText_plain_iff {str : List UInt8} (hplain : afterText (lit "rgb(") str = none)
    {r g b : ℤ} : ColorText str r g b ↔ ∃ t, str = t ++ [] ∧ IsTriple t r g b := by
  constructor
  · intro h
    cases h with
    | rgb h => simp [afterText] at hplain
    | plain h => exact ⟨str, by simp, h⟩
  · rintro ⟨t, rfl, h⟩
    rw [List.append_nil]
    exact .plain h

/-! ## What is accepted -/

/-- `parse_rgb_string` with its three outputs. -/
def parseRgbStringInto (str : Option (List UInt8)) (out : LedRgb) : Bool × LedRgb :=
  match parseRgbString str with
  | some c => (true, c)
  | none => (false, out)

/-- The integer is in the range of `int`. -/
def InInt (v : ℤ) : Prop := -2147483648 ≤ v ∧ v < 2147483648

/-- The string is accepted exactly when it is in the grammar. Then the outputs are the
saturated numbers, and otherwise they are left alone. -/
structure AcceptsGrammar (str : List UInt8) : Prop where
  accepts_iff : ∀ out, (parseRgbStringInto (some str) out).1 = true ↔ ∃ r g b, ColorText str r g b
  outputs : ∀ out r g b, ColorText str r g b → InInt r → InInt g → InInt b →
    ((parseRgbStringInto (some str) out).2.r.toNat : ℤ) = max 0 (min r 255) ∧
      ((parseRgbStringInto (some str) out).2.g.toNat : ℤ) = max 0 (min g 255) ∧
        ((parseRgbStringInto (some str) out).2.b.toNat : ℤ) = max 0 (min b 255)
  untouched : ∀ out, (parseRgbStringInto (some str) out).1 = false →
    (parseRgbStringInto (some str) out).2 = out

/-- When three numbers with all their digits begin the string, what follows them is
the closing parenthesis after `rgb(`, and nothing otherwise. -/
structure EndsRight (str : List UInt8) : Prop where
  rgb : ∀ t rest r g b, str = lit "rgb(" ++ (t ++ rest) → IsTriple t r g b → NoDigit rest →
    rest = lit ")"
  plain : ∀ t rest r g b, str = t ++ rest → IsTriple t r g b → NoDigit rest → rest = []

/-- An integer in range is what `%d` stores, and it is clamped to a byte. -/
theorem clampChannel_ofInt {v : ℤ} (h : InInt v) :
    ((clampChannel (Int32.ofInt v)).toNat : ℤ) = max 0 (min v 255) := by
  rw [clampChannel_toNat, Int32.toInt_ofInt_of_le h.1 h.2]

/-- The two forms alike: the numbers in `body` are all that is read, and `close` is
what the grammar has after them. -/
theorem acceptsGrammar_iff_of_form {str body close : List UInt8} (hclose : NoDigit close)
    (hparse : parseRgbString (some str) = (commaTriple body).map fun p =>
      ⟨clampChannel p.1.1, clampChannel p.1.2.1, clampChannel p.1.2.2⟩)
    (hform : ∀ {r g b}, ColorText str r g b ↔ ∃ t, body = t ++ close ∧ IsTriple t r g b) :
    AcceptsGrammar str ↔
      ∀ t rest r g b, body = t ++ rest → IsTriple t r g b → NoDigit rest → rest = close := by
  have hread : ∀ {r g b}, ColorText str r g b →
      commaTriple body = some ((Int32.ofInt r, Int32.ofInt g, Int32.ofInt b), close) := by
    intro r g b h
    obtain ⟨t, ht, htriple⟩ := hform.mp h
    exact commaTriple_eq_some_iff.mpr ⟨t, r, g, b, ht, htriple, hclose, rfl, rfl, rfl⟩
  constructor
  · intro haccepts t rest r g b hbody htriple hrest
    have hscan : commaTriple body =
        some ((Int32.ofInt r, Int32.ofInt g, Int32.ofInt b), rest) :=
      commaTriple_eq_some_iff.mpr ⟨t, r, g, b, hbody, htriple, hrest, rfl, rfl, rfl⟩
    have htrue : (parseRgbStringInto (some str) .black).1 = true := by
      rw [parseRgbStringInto, hparse, hscan]
      rfl
    obtain ⟨r', g', b', hcolor⟩ := (haccepts.accepts_iff .black).mp htrue
    have hsame := hscan.symm.trans (hread hcolor)
    exact (Prod.mk.inj (Option.some.inj hsame)).2
  · intro hends
    refine ⟨fun out => ⟨fun htrue => ?_, ?_⟩, ?_, ?_⟩
    · rw [parseRgbStringInto, hparse] at htrue
      cases hscan : commaTriple body with
      | none => simp [hscan] at htrue
      | some p =>
        obtain ⟨t, r, g, b, hbody, htriple, hrest, -⟩ := commaTriple_eq_some_iff.mp hscan
        have hrestClose := hends t p.2 r g b hbody htriple hrest
        exact ⟨r, g, b, hform.mpr ⟨t, by rw [hbody, hrestClose], htriple⟩⟩
    · rintro ⟨r, g, b, hcolor⟩
      rw [parseRgbStringInto, hparse, hread hcolor]
      rfl
    · intro out r g b hcolor hr hg hb
      rw [parseRgbStringInto, hparse, hread hcolor]
      exact ⟨clampChannel_ofInt hr, clampChannel_ofInt hg, clampChannel_ofInt hb⟩
    · intro out hfalse
      rw [parseRgbStringInto] at hfalse ⊢
      cases hres : parseRgbString (some str) with
      | none => rfl
      | some c => simp [hres] at hfalse

/-- **When exactly the grammar is accepted**: for every string, exactly when the right
text follows three numbers at its beginning. -/
theorem acceptsGrammar_iff (str : List UInt8) : AcceptsGrammar str ↔ EndsRight str := by
  have hparse := parseRgbString_eq str
  cases hrgb : afterText (lit "rgb(") str with
  | some body =>
    obtain rfl := afterText_eq_some_iff.mp hrgb
    rw [hrgb, commaTriple_rgb, Option.or_none, Option.bind_some] at hparse
    have hclose : NoDigit (lit ")") := noDigit_cons (by decide : isDigit 0x29 = false) []
    rw [acceptsGrammar_iff_of_form hclose hparse colorText_rgb_iff]
    constructor
    · intro hends
      refine ⟨fun t rest r g b hbody => hends t rest r g b (List.append_cancel_left hbody), ?_⟩
      intro t rest r g b hstr htriple hrest
      have hscan := commaTriple_eq_some_iff.mpr ⟨t, r, g, b, hstr, htriple, hrest, rfl, rfl, rfl⟩
      rw [commaTriple_rgb] at hscan
      cases hscan
    · intro hends t rest r g b hbody
      exact hends.rgb t rest r g b (by rw [hbody])
  | none =>
    rw [hrgb, Option.bind_none, Option.none_or] at hparse
    rw [acceptsGrammar_iff_of_form noDigit_nil hparse (colorText_plain_iff hrgb)]
    constructor
    · intro hends
      refine ⟨fun t rest r g b hstr => ?_, hends⟩
      rw [afterText_eq_some_iff.mpr hstr] at hrgb
      cases hrgb
    · exact fun hends => hends.plain

/-- A string with more text after the third number is accepted. -/
theorem acceptsGrammar_not_garbage : ¬ AcceptsGrammar (lit "1,2,3xyz") := by
  intro h
  have htrue : (parseRgbStringInto (some (lit "1,2,3xyz")) .black).1 = true := by decide
  obtain ⟨r, g, b, hcolor⟩ := (h.accepts_iff .black).mp htrue
  obtain ⟨t, ht, htriple⟩ := (colorText_plain_iff (by decide)).mp hcolor
  have hwhole : commaTriple (lit "1,2,3xyz") = some ((_, _, _), []) :=
    commaTriple_eq_some_iff.mpr ⟨t, r, g, b, ht, htriple, noDigit_nil, rfl, rfl, rfl⟩
  have hread : commaTriple (lit "1,2,3xyz") = some ((1, 2, 3), lit "xyz") := by decide
  exact absurd (Prod.mk.inj (Option.some.inj (hread.symm.trans hwhole))).2 (by decide)

end LedMatrix
