import LedMatrix.HexColor
import LedMatrix.RgbString

/-!
# A colour as text and as numbers

The MCP tool takes a colour as a text or as three numbers, and the page shows a colour as
a text of the first kind. A text in the grammar is as good as its numbers, whatever else
the call contains; and the text of the page is in the grammar.
-/

namespace LedMatrix

open MachineInt CText

/-! ## Texts in the grammar -/

/-- A colour text is read as its three numbers. -/
theorem parseRgbString_of_colorText {str : List UInt8} {r g b : ℤ} (h : ColorText str r g b) :
    parseRgbString (some str) = some ⟨clampChannel (.ofInt r), clampChannel (.ofInt g),
      clampChannel (.ofInt b)⟩ := by
  rw [parseRgbString_eq]
  cases h with
  | rgb h =>
    have hclose : NoDigit (lit ")") := noDigit_cons (by decide : isDigit 0x29 = false) []
    have hscan := commaTriple_eq_some_iff.mpr ⟨_, r, g, b, rfl, h, hclose, rfl, rfl, rfl⟩
    rw [afterText_eq_some_iff.mpr rfl, Option.bind_some, hscan]
    rfl
  | plain h =>
    have hscan := commaTriple_eq_some_iff.mpr
      ⟨str, r, g, b, (List.append_nil _).symm, h, noDigit_nil, rfl, rfl, rfl⟩
    cases hrgb : afterText (lit "rgb(") str with
    | none =>
      rw [Option.bind_none, Option.none_or, hscan]
      rfl
    | some body =>
      rw [afterText_eq_some_iff.mp hrgb, commaTriple_rgb] at hscan
      cases hscan

/-! ## Calls -/

/-- The call asks for a colour by a text, and not for the rainbow. Its other members may
be anything. -/
structure McpLedArgsParse.AsksByText (parsed : McpLedArgsParse) (r g b : ℤ) : Prop where
  no_rainbow : (hasBit parsed.ret 4 && parsed.args.rainbow) = false
  color_eq : ∃ str, parsed.args.color = some str ∧ ColorText str r g b
  /-- Beyond the range of `int`, what `%d` stores is undefined. -/
  in_int : InInt r ∧ InInt g ∧ InInt b

/-- The call asks for a colour by numbers, one of which at least is given, and neither by
a text nor for the rainbow. -/
structure McpLedArgsParse.AsksByNumbers (parsed : McpLedArgsParse) (r g b : ℤ) : Prop where
  no_rainbow : parsed.args.rainbow = false
  no_color : parsed.args.color = none
  channel : hasChannelBit parsed.ret = true
  r_eq : parsed.args.r = .ofInt r
  g_eq : parsed.args.g = .ofInt g
  b_eq : parsed.args.b = .ofInt b

/-- The message and the response of a call for a colour. -/
def colorDecoded (msg : LedMsg) (r g b : ℤ) : Decoded :=
  let c : LedRgb := ⟨clampChannel (.ofInt r), clampChannel (.ofInt g), clampChannel (.ofInt b)⟩
  .print true { msg with action := .custom, r := c.r, g := c.g, b := c.b, rainbow := false }
    s!"LED set to RGB({c.r}, {c.g}, {c.b}) via Zbus (index: {msg.index})"

/-- A call that asks for a colour by a text is decoded to the message of its numbers. -/
theorem McpLedArgsParse.AsksByText.decodeArguments_eq {parsed : McpLedArgsParse} {r g b : ℤ}
    (h : parsed.AsksByText r g b) (cfg : Config) (text : Option (List UInt8)) :
    decodeArguments cfg text parsed.ret parsed.args =
      colorDecoded (defaultMsg cfg parsed.ret parsed.args) r g b := by
  obtain ⟨str, hcolor, htext⟩ := h.color_eq
  rw [decodeArguments, h.no_rainbow, hcolor, parseRgbString_of_colorText htext]
  rfl

/-- A call that asks for a colour by numbers is decoded to the message of these. -/
theorem McpLedArgsParse.AsksByNumbers.decodeArguments_eq {parsed : McpLedArgsParse} {r g b : ℤ}
    (h : parsed.AsksByNumbers r g b) (cfg : Config) (text : Option (List UInt8)) :
    decodeArguments cfg text parsed.ret parsed.args =
      colorDecoded (defaultMsg cfg parsed.ret parsed.args) r g b := by
  simp only [decodeArguments, h.no_rainbow, h.no_color, parseRgbString, h.channel, h.r_eq, h.g_eq,
    h.b_eq, Bool.and_false, Bool.false_eq_true, if_false, if_true]
  rfl

/-- **A colour by text or by numbers.** Of two calls with the same index, or both without
one, let the first ask for a colour by any text of the grammar, and the second by its
three numbers: from every state of the front end and with every outcome of the publish,
the callback does the same. It publishes the same message, gives the same response and
leaves the same state. -/
theorem color_text_same_as_numbers (cfg : Config) (json : JsonObjParse)
    {text numbers : List UInt8} {r g b : ℤ} (htext : (json.mcpLedArgs text).AsksByText r g b)
    (hnumbers : (json.mcpLedArgs numbers).AsksByNumbers r g b)
    (hbit : hasBit (json.mcpLedArgs text).ret 3 = hasBit (json.mcpLedArgs numbers).ret 3)
    (hindex : (json.mcpLedArgs text).args.index = (json.mcpLedArgs numbers).args.index)
    (pub : LedMsg → Int) (ledInitialized : Bool) (ready : Option LedReadyMsg)
    (event : McpToolEvent) (token : List UInt8) :
    ledControlToolCallback cfg json pub ledInitialized ready event (some text) token =
      ledControlToolCallback cfg json pub ledInitialized ready event (some numbers) token := by
  have hdefault : defaultMsg cfg (json.mcpLedArgs text).ret (json.mcpLedArgs text).args =
      defaultMsg cfg (json.mcpLedArgs numbers).ret (json.mcpLedArgs numbers).args := by
    simp only [defaultMsg, hbit, hindex]
  have hsame : decodeCall cfg json (some text) = decodeCall cfg json (some numbers) := by
    simp only [decodeCall, parseArguments, htext.decodeArguments_eq, hnumbers.decodeArguments_eq,
      hdefault]
  cases event with
  | cancelRequest => rfl
  | callRequest => simp only [ledControlToolCallback, hsame]

/-- A call for a colour by a text, with an action that is not looked at. -/
def colorTextCall : List UInt8 := lit "\x7b\"color\":\"rgb(300, -1,7)\",\"action\":\"off\"\x7d"

/-- A call for the same colour by its numbers. -/
def colorNumbersCall : List UInt8 := lit "\x7b\"r\":300,\"g\":-1,\"b\":7\x7d"

/-- The decoder on the two calls. The parse in place ends the first text with the first
of its two strings. -/
def decodesColors : JsonObjParse :=
  .knowing [] [(colorTextCall, ⟨96, { McpLedArgs.zero with
      action := some (lit "off"), color := some (lit "rgb(300, -1,7)") },
      lit "\x7b\"color\":\"rgb(300, -1,7)"⟩),
    (colorNumbersCall, ⟨7, { McpLedArgs.zero with r := 300, g := -1, b := 7 }, colorNumbersCall⟩)]

/-- The two calls have the same effect. -/
theorem color_text_same_as_numbers_colorTextCall :
    ledControlToolCallback .default decodesColors (fun _ => 0) true none .callRequest
        (some colorTextCall) [] =
      ledControlToolCallback .default decodesColors (fun _ => 0) true none .callRequest
        (some colorNumbersCall) [] := by
  have htext : (decodesColors.mcpLedArgs colorTextCall).AsksByText 300 (-1) 7 := by
    refine ⟨by decide, ⟨lit "rgb(300, -1,7)", by decide, ?_⟩, ?_⟩
    · have hr : IsNumber ([] ++ lit "300") (digitsValue (lit "300")) :=
        .unsigned (by simp) (by decide) (List.all_eq_true.mp (by decide))
      have hg : IsNumber ([0x20] ++ 0x2d :: lit "1") (-digitsValue (lit "1")) :=
        .minus (List.all_eq_true.mp (by decide)) (by decide) (List.all_eq_true.mp (by decide))
      have hb : IsNumber ([] ++ lit "7") (digitsValue (lit "7")) :=
        .unsigned (by simp) (by decide) (List.all_eq_true.mp (by decide))
      exact .rgb ⟨_, _, _, rfl, hr, hg, hb⟩
    · unfold InInt
      decide
  have hnumbers : (decodesColors.mcpLedArgs colorNumbersCall).AsksByNumbers 300 (-1) 7 :=
    ⟨by decide, by decide, by decide, by decide, by decide, by decide⟩
  exact color_text_same_as_numbers .default decodesColors htext hnumbers (by decide) (by decide)
    (fun _ => 0) true none .callRequest []

/-! ## The text of the page -/

/-- A channel is written as the digits of a number. -/
theorem isNumber_toString (space : List UInt8) (hspace : ∀ c ∈ space, isSpace c = true)
    (c : UInt8) : IsNumber (space ++ lit (toString c)) c.toNat := by
  have hnumber := IsNumber.unsigned hspace (lit_toString_ne_nil c.toNat)
    fun _ => isDigit_of_mem_lit_toString
  rwa [digitsValue_lit_toString] at hnumber

/-- The text of a colour on the page is in the grammar. -/
theorem colorText_rgbText (c : LedRgb) :
    ColorText (lit (rgbText c)) c.r.toNat c.g.toNat c.b.toNat := by
  have hspace : ∀ d ∈ ([0x20] : List UInt8), isSpace d = true :=
    List.all_eq_true.mp (by decide)
  have htext : lit (rgbText c) = lit "rgb(" ++ ((lit (toString c.r) ++ 0x2c ::
      (([0x20] ++ lit (toString c.g)) ++ 0x2c :: ([0x20] ++ lit (toString c.b)))) ++ lit ")") := by
    have hcomma : lit (toString ", ") = [0x2c, 0x20] := by decide
    simp only [rgbText, lit_append, hcomma, List.append_assoc, List.cons_append, List.nil_append]
    rfl
  rw [htext]
  exact .rgb ⟨_, _, _, rfl, isNumber_toString [] (List.forall_mem_nil _) c.r,
    isNumber_toString _ hspace c.g, isNumber_toString _ hspace c.b⟩

/-- No number begins with a number sign, so three of them do not. -/
theorem commaTriple_numberSign (s : List UInt8) : commaTriple (0x23 :: s) = none := by
  have hsign : scanDecimal (0x23 :: s) = none := by
    rw [scanDecimal, List.dropWhile_cons_of_neg (by decide), splitSign, if_neg (by decide),
      if_neg (by decide)]
    dsimp only
    rw [List.takeWhile_cons_of_neg (by decide)]
    rfl
  rw [commaTriple, hsign]
  rfl

/-- A channel is not changed by its clamp. -/
theorem clampChannel_toNat_eq (c : UInt8) : clampChannel (.ofInt c.toNat) = c := by
  have hlt := c.toNat_lt
  have hclamp := clampChannel_ofInt (v := c.toNat) ⟨by omega, by omega⟩
  apply UInt8.toNat_inj.mp
  omega

/-- The code of a colour, as the page shows it in upper case, begins with a number sign. -/
theorem exists_lit_toUpper_rgbToHex (c : LedRgb) :
    ∃ digits, lit (rgbToHex c).toUpper = 0x23 :: digits := by
  have hsign : Char.toUpper '#' = '#' := by decide
  rw [lit, String.toUpper, String.toList_map, toList_rgbToHex, List.map_cons, List.map_cons, hsign]
  exact ⟨_, rfl⟩

/-- **The page and the MCP tool.** The text that the page shows for a colour is read by
the MCP tool as this colour, and the code that it shows beside it is not read. -/
theorem rgbText_read_by_mcp (c : LedRgb) :
    parseRgbString (some (lit (rgbText c))) = some c ∧
      parseRgbString (some (lit (rgbToHex c).toUpper)) = none := by
  constructor
  · rw [parseRgbString_of_colorText (colorText_rgbText c)]
    simp only [clampChannel_toNat_eq]
  · obtain ⟨digits, hcode⟩ := exists_lit_toUpper_rgbToHex c
    have hrgb : afterText (lit "rgb(") (0x23 :: digits) = none := by
      cases hafter : afterText (lit "rgb(") (0x23 :: digits) with
      | none => rfl
      | some rest =>
        have hletters : lit "rgb(" ++ rest = 0x72 :: (lit "gb(" ++ rest) := rfl
        have hsame := (afterText_eq_some_iff.mp hafter).trans hletters
        exact absurd (List.cons.inj hsame).1 (by decide)
    rw [parseRgbString_eq, hcode, hrgb, commaTriple_numberSign]
    rfl

end LedMatrix
