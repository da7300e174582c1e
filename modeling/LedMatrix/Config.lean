import Mathlib.Data.Nat.Notation

/-!
# Build configuration, channels and messages

The Kconfig symbols with their ranges, the board choice that fixes the length
of the pixel buffer, and the messages of `led_zbus.h`.
-/

namespace LedMatrix

/-- The board a build is for, as far as the length of the pixel buffer depends
on it. -/
inductive Board
  /-- `CONFIG_BOARD_ESP32C5_DEVKITC`. -/
  | esp32c5Devkitc
  /-- Any other board. -/
  | other
  deriving DecidableEq, Repr

/-- A build configuration, with the ranges that `Kconfig` enforces. -/
structure Config where
  /-- `CONFIG_LED_MATRIX_PIXELS`. -/
  ledMatrixPixels : ℕ
  /-- `CONFIG_WHITE_LED_BRIGHTNESS`. -/
  whiteLedBrightness : ℕ
  /-- `CONFIG_DEFAULT_LED_BRIGHTNESS`. -/
  defaultLedBrightness : ℕ
  /-- The board. -/
  board : Board
  /-- The property `chain-length` of the devicetree node `led-strip`. -/
  chainLength : ℕ
  ledMatrixPixels_range : 1 ≤ ledMatrixPixels ∧ ledMatrixPixels ≤ 65536
  whiteLedBrightness_range : 1 ≤ whiteLedBrightness ∧ whiteLedBrightness ≤ 255
  defaultLedBrightness_range : 1 ≤ defaultLedBrightness ∧ defaultLedBrightness ≤ 255
  /-- The buffer is an array in C, so it has at least one element. -/
  chainLength_pos : 0 < chainLength

/-- `STRIP_NUM_PIXELS`, the length of the pixel buffer. -/
def Config.stripNumPixels (cfg : Config) : ℕ :=
  match cfg.board with
  | .esp32c5Devkitc => cfg.chainLength
  | .other => cfg.ledMatrixPixels

/-- The strip has at least one pixel. -/
theorem Config.stripNumPixels_pos (cfg : Config) : 0 < cfg.stripNumPixels := by
  unfold stripNumPixels
  cases cfg.board with
  | esp32c5Devkitc => exact cfg.chainLength_pos
  | other => exact cfg.ledMatrixPixels_range.1

/-- The defaults of `Kconfig`, built for a board whose overlay has 256 pixels. -/
def Config.default : Config where
  ledMatrixPixels := 256
  whiteLedBrightness := 15
  defaultLedBrightness := 15
  board := .other
  chainLength := 256
  ledMatrixPixels_range := by decide
  whiteLedBrightness_range := by decide
  defaultLedBrightness_range := by decide
  chainLength_pos := by decide

/-- The defaults of `Kconfig` on the ESP32-C5 DevKitC, with the single pixel of
`app.overlay`. -/
def Config.devkitc : Config :=
  { Config.default with board := .esp32c5Devkitc, chainLength := 1, chainLength_pos := by decide }

/-- `CONFIG_LED_MATRIX_PIXELS` as it is stored in a 16-bit field. -/
def Config.allIndex (cfg : Config) : UInt16 := UInt16.ofNat cfg.ledMatrixPixels

/-- Of the numbers of pixels in range only the largest wraps to zero. -/
theorem Config.allIndex_toNat (cfg : Config) :
    cfg.allIndex.toNat = cfg.ledMatrixPixels % 65536 := by
  simp only [allIndex, UInt16.toNat_ofNat']

/-- `struct led_rgb`, the colour of a pixel. -/
structure LedRgb where
  r : UInt8
  g : UInt8
  b : UInt8
  deriving DecidableEq, Repr

/-- A dark pixel. -/
def LedRgb.black : LedRgb := ⟨0, 0, 0⟩

/-- `enum led_action`. -/
inductive LedAction
  | off
  | on
  | toggle
  | red
  | green
  | blue
  | custom
  deriving DecidableEq, Repr

/-- `struct led_msg`, the message of `led_chan`. -/
structure LedMsg where
  action : LedAction
  r : UInt8
  g : UInt8
  b : UInt8
  index : UInt16
  rainbow : Bool
  deriving DecidableEq, Repr

/-- The colour fields of a message. -/
def LedMsg.color (msg : LedMsg) : LedRgb := ⟨msg.r, msg.g, msg.b⟩

/-- The initial message of `led_chan`. -/
def ledChanInit (cfg : Config) : LedMsg :=
  { action := .on, r := 0, g := 0, b := 0, index := cfg.allIndex, rainbow := true }

/-- The queue of the subscriber `led_sub` holds this many references. -/
def ledSubQueueSize : ℕ := 4

/-- `struct led_ready_msg`, the message of `led_ready_chan`. -/
structure LedReadyMsg where
  isReady : Bool
  status : Int
  deriving DecidableEq, Repr

/-- `-ENODEV`. -/
def negEnodev : Int := -19

/-- `-ENOMEM`. -/
def negEnomem : Int := -12

end LedMatrix
