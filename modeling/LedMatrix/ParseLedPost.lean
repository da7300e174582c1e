import LedMatrix.Json
import LedMatrix.Lib.MachineInt

/-!
# The HTTP front end: decoding a POST body

`parse_led_post` of `main.c`. It publishes a message exactly when all five
members were decoded.
-/

namespace LedMatrix

open MachineInt

/-- `expected_return_code`, one bit for each of the five members. -/
def expectedReturnCode : Int32 := 31

/-- The limit on white light: when all three channels exceed
`CONFIG_WHITE_LED_BRIGHTNESS`, they are set to it. -/
def limitWhite (cfg : Config) (cmd : LedCommand) : LedCommand :=
  let brightness := UInt8.ofNat cfg.whiteLedBrightness
  if brightness.toNat < cmd.r.toNat ∧ brightness.toNat < cmd.g.toNat ∧
      brightness.toNat < cmd.b.toNat then
    { cmd with r := brightness.toUInt32, g := brightness.toUInt32, b := brightness.toUInt32 }
  else cmd

/-- `(uint8_t)CLAMP(c, 0, 255)` of an unsigned channel. -/
def clampChannelU (c : UInt32) : UInt8 := UInt8.ofInt (clamp c.toNat 0 255)

/-- `(uint16_t)CLAMP(cmd.index, 0, CONFIG_LED_MATRIX_PIXELS)`. -/
def clampIndexU (cfg : Config) (index : UInt32) : UInt16 :=
  UInt16.ofInt (clamp index.toNat 0 cfg.ledMatrixPixels)

/-- The message built from a complete command. -/
def ledCommandMsg (cfg : Config) (cmd : LedCommand) : LedMsg :=
  let cmd := limitWhite cfg cmd
  { action := .custom
    r := clampChannelU cmd.r
    g := clampChannelU cmd.g
    b := clampChannelU cmd.b
    index := clampIndexU cfg cmd.index
    rainbow := cmd.rainbow }

/-- `parse_led_post`: the message that it publishes on `led_chan`, if any. The
result of the publish is only logged. -/
def parseLedPost (cfg : Config) (json : JsonObjParse) (body : List UInt8) : Option LedMsg :=
  let parsed := json.ledCommand body
  if parsed.ret ≠ expectedReturnCode then none
  else some (ledCommandMsg cfg parsed.cmd)

/-- A body is published exactly when it decodes completely. -/
theorem parseLedPost_eq_some {cfg : Config} {json : JsonObjParse} {body : List UInt8}
    {msg : LedMsg} :
    parseLedPost cfg json body = some msg ↔
      (json.ledCommand body).ret = expectedReturnCode ∧
        ledCommandMsg cfg (json.ledCommand body).cmd = msg := by
  simp [parseLedPost]

/-! ## The fields of the message -/

/-- The brightness limit fits in a byte. -/
theorem whiteLedBrightness_toNat (cfg : Config) :
    (UInt8.ofNat cfg.whiteLedBrightness).toNat = cfg.whiteLedBrightness := by
  have hrange := cfg.whiteLedBrightness_range.2
  simp only [UInt8.toNat_ofNat']
  omega

/-- An unsigned channel saturates at 255. -/
theorem clampChannelU_toNat (c : UInt32) : (clampChannelU c).toNat = min c.toNat 255 := by
  have hcast := toNat_ofInt_uint8 (clamp c.toNat 0 255)
  have hclamp := clamp_eq (c.toNat : ℤ) (show (0 : ℤ) ≤ 255 by decide)
  simp only [clampChannelU]
  omega

/-- An unsigned index saturates at the number of pixels, and wraps to zero in
the one configuration whose number of pixels does not fit in 16 bits. -/
theorem clampIndexU_toNat (cfg : Config) (index : UInt32) :
    (clampIndexU cfg index).toNat = min index.toNat cfg.ledMatrixPixels % 65536 := by
  have hcast := toNat_ofInt_uint16 (clamp index.toNat 0 cfg.ledMatrixPixels)
  have hclamp := clamp_eq (index.toNat : ℤ) (show (0 : ℤ) ≤ cfg.ledMatrixPixels by omega)
  simp only [clampIndexU]
  omega

/-- The limit leaves the index and the rainbow flag alone. -/
theorem limitWhite_index (cfg : Config) (cmd : LedCommand) :
    (limitWhite cfg cmd).index = cmd.index ∧ (limitWhite cfg cmd).rainbow = cmd.rainbow := by
  unfold limitWhite
  dsimp only
  split <;> exact ⟨rfl, rfl⟩

/-- The colour of the message: each channel saturated, or all three at the
limit when the command asks for more white than that. -/
theorem ledCommandMsg_color (cfg : Config) (cmd : LedCommand) :
    (ledCommandMsg cfg cmd).color =
      if cfg.whiteLedBrightness < cmd.r.toNat ∧ cfg.whiteLedBrightness < cmd.g.toNat ∧
          cfg.whiteLedBrightness < cmd.b.toNat then
        ⟨UInt8.ofNat cfg.whiteLedBrightness, UInt8.ofNat cfg.whiteLedBrightness,
          UInt8.ofNat cfg.whiteLedBrightness⟩
      else ⟨clampChannelU cmd.r, clampChannelU cmd.g, clampChannelU cmd.b⟩ := by
  have hlimit : clampChannelU (UInt8.ofNat cfg.whiteLedBrightness).toUInt32 =
      UInt8.ofNat cfg.whiteLedBrightness := by
    apply UInt8.toNat_inj.mp
    have hlt := (UInt8.ofNat cfg.whiteLedBrightness).toNat_lt
    rw [clampChannelU_toNat, UInt8.toNat_toUInt32]
    omega
  by_cases hwhite : cfg.whiteLedBrightness < cmd.r.toNat ∧
      cfg.whiteLedBrightness < cmd.g.toNat ∧ cfg.whiteLedBrightness < cmd.b.toNat
  · simp only [ledCommandMsg, LedMsg.color, limitWhite, whiteLedBrightness_toNat, if_pos hwhite,
      hlimit]
  · simp only [ledCommandMsg, LedMsg.color, limitWhite, whiteLedBrightness_toNat, if_neg hwhite]

end LedMatrix
