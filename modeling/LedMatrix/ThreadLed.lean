import LedMatrix.Config
import LedMatrix.Lib.OneSlot
import Mathlib.Data.Vector.Basic

/-!
# The LED thread

The state and the loop body of `thread_led`, with the functions it calls:
`hsv_to_rgb` and `led_set`. An iteration either handles the message it has read
from `led_chan` or, after a timeout, refreshes the strip according to its mode.
Of the local `msg` only `msg.index` outlives an iteration; every other field is
overwritten by the next read before it is used.
-/

namespace LedMatrix

/-- `enum led_mode`. -/
inductive LedMode
  | off
  | rainbow
  | solid
  deriving DecidableEq, Repr

/-! ## The rainbow colours -/

/-- The `switch` of `hsv_to_rgb`: the sector of the hue decides which channel
is full, which is empty, and which rises or falls. -/
def hsvSector (i : ℕ) (p q t : Float32) : Float32 × Float32 × Float32 :=
  match i with
  | 0 => (1.0, t, p)
  | 1 => (q, 1.0, p)
  | 2 => (p, 1.0, t)
  | 3 => (p, q, 1.0)
  | 4 => (t, p, 1.0)
  | _ => (1.0, p, q)

/-- Scale a factor to `CONFIG_DEFAULT_LED_BRIGHTNESS`, truncated to a byte. -/
def scaleChannel (cfg : Config) (f : Float32) : UInt8 :=
  (f * Float32.ofNat cfg.defaultLedBrightness).toUInt8

/-- `hsv_to_rgb`: the colour of a hue at full saturation. The cast of `hh` to
`int` truncates; `hh` is never negative. -/
def hsvToRgb (cfg : Config) (h : UInt16) : LedRgb :=
  let hh := Float32.ofNat (h.toNat % 360) / 60.0
  let i := hh.toUInt32.toNat
  let ff := hh - Float32.ofNat i
  let f := hsvSector i 0.0 (1.0 - ff) ff
  ⟨scaleChannel cfg f.1, scaleChannel cfg f.2.1, scaleChannel cfg f.2.2⟩

/-- One of the three factors of every sector is the empty one. -/
theorem hsvSector_empty (i : ℕ) (p q t : Float32) :
    (hsvSector i p q t).1 = p ∨ (hsvSector i p q t).2.1 = p ∨ (hsvSector i p q t).2.2 = p := by
  unfold hsvSector
  split <;> simp

/-- Scaling the empty factor gives zero at every brightness in range. -/
theorem scaleChannel_zero (cfg : Config) : scaleChannel cfg 0.0 = 0 := by
  have hbyte : ∀ d : Fin 256, ((0.0 : Float32) * Float32.ofNat d).toUInt8 = 0 := by
    decide +kernel
  have hrange := cfg.defaultLedBrightness_range.2
  exact hbyte ⟨cfg.defaultLedBrightness, by omega⟩

/-- Every rainbow colour leaves one channel dark. -/
theorem hsvToRgb_dark (cfg : Config) (h : UInt16) :
    (hsvToRgb cfg h).r = 0 ∨ (hsvToRgb cfg h).g = 0 ∨ (hsvToRgb cfg h).b = 0 := by
  simp only [hsvToRgb]
  generalize (Float32.ofNat (h.toNat % 360) / 60.0).toUInt32.toNat = i
  generalize Float32.ofNat (h.toNat % 360) / 60.0 - Float32.ofNat i = ff
  rcases hsvSector_empty i 0.0 (1.0 - ff) ff with hempty | hempty | hempty
  · exact .inl (by rw [hempty, scaleChannel_zero])
  · exact .inr (.inl (by rw [hempty, scaleChannel_zero]))
  · exact .inr (.inr (by rw [hempty, scaleChannel_zero]))

/-! ## Writing the pixel buffer -/

/-- The pixel buffer, `pixels` of `thd_led.c`. -/
abbrev Pixels (cfg : Config) : Type := Vector LedRgb cfg.stripNumPixels

/-- The subscripts `i` at which `led_set` accesses `pixels[i]`, in order. -/
def ledSetAccesses (cfg : Config) (index : UInt16) : List ℕ :=
  if index.toNat = cfg.ledMatrixPixels then List.range cfg.stripNumPixels else [index.toNat]

/-- `led_set`: store the colour at each accessed subscript. A store past the
end of the buffer does not change the buffer; `ledSetAccesses` records it. -/
def ledSet (cfg : Config) (color : LedRgb) (index : UInt16) (pixels : Pixels cfg) : Pixels cfg :=
  (ledSetAccesses cfg index).foldl (fun px i => px.setIfInBounds i color) pixels

/-- The index addresses the pixel: it is the pixel's own number, or it stands
for the whole strip. -/
def Addresses (cfg : Config) (index : UInt16) (p : ℕ) : Prop :=
  index.toNat = cfg.ledMatrixPixels ∨ index.toNat = p

instance (cfg : Config) (index : UInt16) (p : ℕ) : Decidable (Addresses cfg index p) :=
  inferInstanceAs (Decidable (_ ∨ _))

/-- The pixels of the buffer that `led_set` accesses are those addressed. -/
theorem mem_ledSetAccesses {cfg : Config} {index : UInt16} {p : ℕ} (hp : p < cfg.stripNumPixels) :
    p ∈ ledSetAccesses cfg index ↔ Addresses cfg index p := by
  unfold ledSetAccesses Addresses
  by_cases hall : index.toNat = cfg.ledMatrixPixels
  · simp [hall, hp]
  · simp [hall, eq_comm]

/-- Storing one colour at a list of subscripts changes exactly the listed ones. -/
theorem getElem_foldl_setIfInBounds {α : Type*} {n : ℕ} (is : List ℕ) (x : α) (v : Vector α n)
    {p : ℕ} (hp : p < n) :
    (is.foldl (fun v i => v.setIfInBounds i x) v)[p] = if p ∈ is then x else v[p] := by
  induction is generalizing v with
  | nil => simp
  | cons i is ih =>
    rw [List.foldl_cons, ih, Vector.getElem_setIfInBounds hp]
    by_cases hmem : p ∈ is
    · simp [hmem]
    · by_cases hi : i = p
      · simp [hi]
      · simp [hmem, hi, Ne.symm hi]

/-- **What `led_set` writes**: the addressed pixels take the colour, and every
other pixel keeps its own. -/
theorem getElem_ledSet {cfg : Config} (color : LedRgb) (index : UInt16) (pixels : Pixels cfg)
    {p : ℕ} (hp : p < cfg.stripNumPixels) :
    (ledSet cfg color index pixels)[p] = if Addresses cfg index p then color else pixels[p] := by
  unfold ledSet
  rw [getElem_foldl_setIfInBounds]
  simp only [mem_ledSetAccesses hp]

/-! ## The loop body -/

/-- The variables of `thread_led` that outlive an iteration, and the buffer. -/
structure ThreadState (cfg : Config) where
  mode : LedMode
  /-- `solid_r`, `solid_g` and `solid_b`. -/
  solid : LedRgb
  hue : UInt16
  /-- `msg.index`. -/
  index : UInt16
  pixels : Pixels cfg

/-- The state in which `thread_led` enters its loop. -/
def ThreadState.initial (cfg : Config) : ThreadState cfg where
  mode := .rainbow
  solid := .black
  hue := 0
  index := cfg.allIndex
  pixels := Vector.replicate cfg.stripNumPixels .black

/-- One call of `led_set`: the subscripts it accesses, and the frame that it
passes to `led_strip_update_rgb`. -/
structure LedSetCall (cfg : Config) where
  accesses : List ℕ
  frame : Pixels cfg

/-- Call `led_set` with a colour and `msg.index`. Its result is not used. -/
def ThreadState.draw {cfg : Config} (s : ThreadState cfg) (color : LedRgb) :
    ThreadState cfg × List (LedSetCall cfg) :=
  let pixels := ledSet cfg color s.index s.pixels
  ({ s with pixels := pixels }, [⟨ledSetAccesses cfg s.index, pixels⟩])

/-- Store a solid colour, and draw it. -/
def ThreadState.drawSolid {cfg : Config} (s : ThreadState cfg) (color : LedRgb) :
    ThreadState cfg × List (LedSetCall cfg) :=
  ThreadState.draw { s with mode := .solid, solid := color } color

/-- `CONFIG_DEFAULT_LED_BRIGHTNESS` as a channel value. -/
def Config.brightness (cfg : Config) : UInt8 := UInt8.ofNat cfg.defaultLedBrightness

/-- The iteration of `thread_led` that has read `msg`: the `switch` on its action. -/
def ThreadState.onMessage {cfg : Config} (s : ThreadState cfg) (msg : LedMsg) :
    ThreadState cfg × List (LedSetCall cfg) :=
  let s := { s with index := msg.index }
  match msg.action with
  | .off => ThreadState.draw { s with mode := .off } .black
  | .on => ({ s with mode := .rainbow }, [])
  | .toggle =>
    if s.mode = .off then ({ s with mode := .rainbow }, [])
    else ThreadState.draw { s with mode := .off } .black
  | .red => s.drawSolid ⟨cfg.brightness, 0, 0⟩
  | .green => s.drawSolid ⟨0, cfg.brightness, 0⟩
  | .blue => s.drawSolid ⟨0, 0, cfg.brightness⟩
  | .custom =>
    if msg.rainbow then ({ s with mode := .rainbow }, [])
    else s.drawSolid msg.color

/-- The iteration of `thread_led` without a message, a refresh according to the mode. -/
def ThreadState.onTimeout {cfg : Config} (s : ThreadState cfg) :
    ThreadState cfg × List (LedSetCall cfg) :=
  match s.mode with
  | .rainbow => ThreadState.draw { s with hue := (s.hue + 1) % 360 } (hsvToRgb cfg s.hue)
  | .solid => s.draw s.solid
  | .off => s.draw .black

/-- `thread_led` as the consumer of `led_chan`. An iteration whose read of the
channel fails changes nothing. -/
def threadLed (cfg : Config) : OneSlot.Consumer LedMsg (ThreadState cfg) (LedSetCall cfg) where
  onMessage := ThreadState.onMessage
  onIdle := ThreadState.onTimeout

/-! ## What one iteration can do -/

/-- Drawing a colour at an index makes the addressed pixels hold it. -/
theorem ThreadState.draw_pixels {cfg : Config} (x : ThreadState cfg) (color : LedRgb) {p : ℕ}
    (hp : p < cfg.stripNumPixels) (haddressed : Addresses cfg x.index p) :
    (x.draw color).1.pixels[p] = color := by
  have h := getElem_ledSet color x.index x.pixels hp
  rwa [if_pos haddressed] at h

/-- The colour that a message asks to hold, if it asks for one. -/
def LedMsg.solidColor (cfg : Config) (msg : LedMsg) : Option LedRgb :=
  match msg.action with
  | .red => some ⟨cfg.brightness, 0, 0⟩
  | .green => some ⟨0, cfg.brightness, 0⟩
  | .blue => some ⟨0, 0, cfg.brightness⟩
  | .custom => if msg.rainbow then none else some msg.color
  | .off | .on | .toggle => none

/-- A message starts the rainbow without drawing, draws black, or draws the
colour that it asks to hold; in any case its index is latched first. -/
theorem ThreadState.onMessage_cases {cfg : Config} (s : ThreadState cfg) (msg : LedMsg) :
    (s.onMessage msg = ({ s with index := msg.index, mode := .rainbow }, []) ∧
        msg.solidColor cfg = none) ∨
      (s.onMessage msg = ThreadState.draw { s with index := msg.index, mode := .off } .black ∧
        msg.solidColor cfg = none) ∨
      ∃ color, msg.solidColor cfg = some color ∧
        s.onMessage msg = ThreadState.drawSolid { s with index := msg.index } color := by
  unfold onMessage LedMsg.solidColor
  cases msg.action with
  | off => exact .inr (.inl ⟨rfl, rfl⟩)
  | on => exact .inl ⟨rfl, rfl⟩
  | toggle =>
    by_cases hoff : s.mode = .off
    · exact .inl ⟨if_pos hoff, rfl⟩
    · exact .inr (.inl ⟨if_neg hoff, rfl⟩)
  | red => exact .inr (.inr ⟨_, rfl, rfl⟩)
  | green => exact .inr (.inr ⟨_, rfl, rfl⟩)
  | blue => exact .inr (.inr ⟨_, rfl, rfl⟩)
  | custom =>
    cases hrainbow : msg.rainbow with
    | true => exact .inl ⟨rfl, rfl⟩
    | false => exact .inr (.inr ⟨_, rfl, rfl⟩)

/-- A timeout draws one frame: the next rainbow colour, the held colour, or black. -/
theorem ThreadState.onTimeout_cases {cfg : Config} (s : ThreadState cfg) :
    (s.mode = .rainbow ∧
        s.onTimeout = ThreadState.draw { s with hue := (s.hue + 1) % 360 } (hsvToRgb cfg s.hue)) ∨
      (s.mode = .solid ∧ s.onTimeout = s.draw s.solid) ∨
      (s.mode = .off ∧ s.onTimeout = s.draw .black) := by
  unfold onTimeout
  cases s.mode with
  | off => exact .inr (.inr ⟨rfl, rfl⟩)
  | rainbow => exact .inl ⟨rfl, rfl⟩
  | solid => exact .inr (.inl ⟨rfl, rfl⟩)

/-- A timeout keeps the mode and the latched index. -/
theorem ThreadState.onTimeout_frame {cfg : Config} (s : ThreadState cfg) :
    s.onTimeout.1.mode = s.mode ∧ s.onTimeout.1.index = s.index := by
  rcases s.onTimeout_cases with ⟨-, h⟩ | ⟨-, h⟩ | ⟨-, h⟩
  · rw [h]
    exact ⟨rfl, rfl⟩
  · rw [h]
    exact ⟨rfl, rfl⟩
  · rw [h]
    exact ⟨rfl, rfl⟩

end LedMatrix
