import LedMatrix.HexColor
import LedMatrix.Lib.Throwing
import LedMatrix.WebUiSafety

/-!
# What the page shows

The script changes the elements of the page step by step, along with its state. Here the
handlers are those of `app.js` with the elements that show the state: the grid, the
preview, the values and the mode. The tooltip, the connection status and the console are
left out.
-/

namespace LedMatrix

open Throwing

/-! ## The elements -/

/-- What `updatePixelDOM` sets of a pixel's element. -/
structure PixelStyle where
  /-- `--pixel-bg`, if it is set. -/
  bg : Option String
  /-- `--pixel-color`. -/
  color : Option String
  /-- The class `pixel-on`. -/
  on : Bool
  deriving DecidableEq, Repr

/-- A pixel's element. -/
structure PixelView where
  style : PixelStyle
  /-- The class `selected`. -/
  selected : Bool
  deriving DecidableEq, Repr

/-- The lens of the preview, or its halo. -/
structure LensView where
  className : String
  /-- `--led-color`. -/
  ledColor : Option String
  deriving DecidableEq, Repr

/-- The elements that show the state. -/
structure View where
  grid : Fin totalPixels → PixelView
  selectedPixelLabel : String
  selectedLedTitle : String
  valR : String
  valG : String
  valB : String
  /-- The value of `colorPicker`. -/
  colorPicker : String
  rgbText : String
  hexText : String
  ledLens : LensView
  ledHalo : LensView
  /-- The class `active` of `rainbowToggle`. -/
  rainbowActive : Bool
  /-- The class `disabled` of `slidersPanel`. -/
  slidersDisabled : Bool
  modeBadge : String
  /-- The class `active` of `toolPaint`. -/
  paintActive : Bool

/-- The page of `index.html`, once `buildMatrixGrid` has filled the grid. -/
def View.html : View where
  grid _ := ⟨⟨none, none, false⟩, false⟩
  selectedPixelLabel := "LED #0 (R0, C0)"
  selectedLedTitle := "Active LED #0"
  valR := "0"
  valG := "0"
  valB := "0"
  colorPicker := "#000000"
  rgbText := "rgb(0, 0, 0)"
  hexText := "#000000"
  ledLens := ⟨"led-lens", none⟩
  ledHalo := ⟨"led-halo", none⟩
  rainbowActive := false
  slidersDisabled := false
  modeBadge := "Single LED"
  paintActive := false

/-- The page: the state of the script and the elements. -/
structure Page where
  ui : Ui
  view : View

/-- A part of a handler, on the whole page. -/
abbrev PageHandler : Type := Page → Except Page Page

/-! ## The functions of the script -/

/-- Read the members of `state.matrix[index]`. -/
def Page.readPixel (p : Page) (index : ℕ) : Except Page LedRgb :=
  match p.ui.matrix index with
  | some c => .ok c
  | none => .error p

/-- `state.matrix[index] = color`. -/
def Page.setPixel (p : Page) (index : ℕ) (color : LedRgb) : Page :=
  { p with ui := p.ui.setPixel index color }

/-- A part of a handler that only sends: no element changes. -/
def Page.lift (h : Handler) : PageHandler := fun p =>
  match h p.ui with
  | .ok u => .ok { p with ui := u }
  | .error u => .error { p with ui := u }

/-- The style of a pixel with this colour. -/
def pixelStyle (c : LedRgb) : PixelStyle :=
  if c = .black then ⟨none, none, false⟩ else ⟨some (rgbText c), some (rgbText c), true⟩

/-- Set the style of a pixel's element. -/
def View.restyle (v : View) (i : Fin totalPixels) (c : LedRgb) : View :=
  { v with grid := Function.update v.grid i { v.grid i with style := pixelStyle c } }

/-- `updatePixelDOM`. -/
def Page.updatePixelDOM (index : ℕ) : PageHandler := fun p => do
  if h : index < totalPixels then
    let c ← p.readPixel index
    return { p with view := p.view.restyle ⟨index, h⟩ c }
  return p

/-- A lens or halo whose class is `name`. -/
def LensView.preview (lens : LensView) (name : String) (rainbow : Bool) (c : LedRgb) : LensView :=
  if rainbow then { lens with className := name ++ " led-rainbow" }
  else if c = .black then { lens with className := name }
  else ⟨name ++ " led-active", some (LedMatrix.rgbText c)⟩

/-- `updatePreviewLens`. -/
def View.updatePreviewLens (v : View) (rainbow : Bool) (c : LedRgb) : View :=
  { v with
    ledLens := v.ledLens.preview "led-lens" rainbow c
    ledHalo := v.ledHalo.preview "led-halo" rainbow c }

/-- What `updateUI` and `updateUIValuesOnly` both do. -/
def View.showColor (v : View) (rainbow : Bool) (c : LedRgb) : View :=
  { v with
    valR := toString c.r
    valG := toString c.g
    valB := toString c.b
    colorPicker := rgbToHex c
    rgbText := LedMatrix.rgbText c
    hexText := (rgbToHex c).toUpper }.updatePreviewLens rainbow c

/-- `updateUI`. -/
def Page.updateUI : PageHandler := fun p => do
  let curColor ← p.readPixel p.ui.selectedIndex
  return { p with view := p.view.showColor p.ui.rainbow curColor }

/-- `updateUIValuesOnly`. -/
def Page.updateUIValuesOnly : PageHandler := fun p => do
  let curColor ← p.readPixel p.ui.selectedIndex
  return { p with view := p.view.showColor p.ui.rainbow curColor }

/-- `MATRIX_SIZE`. -/
def matrixSize : ℕ := 16

/-- The text of `selectedPixelLabel` for an index. -/
def pixelLabel (index : ℕ) : String :=
  s!"LED #{index} (R{index / matrixSize}, C{index % matrixSize})"

/-- The elements that mark the selected pixel, in `selectPixel`. -/
def View.markSelected (v : View) (index : ℕ) : View :=
  { v with
    grid := fun i => { v.grid i with selected := decide (i.val = index) }
    selectedPixelLabel := pixelLabel index
    selectedLedTitle := s!"Active LED #{index}" }

/-- `selectPixel`. -/
def Page.selectPixel (index : ℕ) : PageHandler := fun p => do
  let p : Page := ⟨{ p.ui with selectedIndex := index }, p.view.markSelected index⟩
  let curColor ← p.readPixel index
  updateUI { p with ui := { p.ui with sliders := curColor } }

/-- `paintPixel`. -/
def Page.paintPixel (index : ℕ) (color : LedRgb) (now : ℤ) : PageHandler := fun p => do
  let p ← updatePixelDOM index (p.setPixel index color)
  let p ← if index = p.ui.selectedIndex then updateUI p else .ok p
  lift (debouncedSendUpdate now) p

/-! ## The event handlers -/

/-- The loop of Fill All and Clear All. -/
def Page.fillMatrix (color : LedRgb) : PageHandler := fun p =>
  (List.range totalPixels).foldlM (fun p i => updatePixelDOM i (p.setPixel i color)) p

/-- The handlers of `toolFillAll` and `toolClearAll`, after the loop. -/
def Page.selectAll (color : LedRgb) (now : ℤ) : PageHandler := fun p =>
  lift (sendUpdateNow now)
    ⟨{ p.ui with selectedIndex := totalPixels }, p.view.updatePreviewLens p.ui.rainbow color⟩

/-- The handler of `toolFillAll`. -/
def Page.toolFillAll (now : ℤ) : PageHandler := fun p => do
  let color := getActiveColor p.ui
  let p ← fillMatrix color p
  selectAll color now p

/-- The handler of `toolClearAll`. -/
def Page.toolClearAll (now : ℤ) : PageHandler := fun p => do
  let p ← fillMatrix .black p
  selectAll .black now p

/-- The elements that show the mode, as `handleSliderInput` and the toggle set them. -/
def View.showMode (v : View) (rainbow : Bool) : View :=
  { v with rainbowActive := rainbow, modeBadge := if rainbow then "Rainbow" else "Single LED" }

/-- The first part of `handleSliderInput`, which leaves `slidersPanel` disabled. -/
def Page.leaveRainbow (p : Page) : Page :=
  if p.ui.rainbow then ⟨{ p.ui with rainbow := false }, p.view.showMode false⟩ else p

/-- `handleSliderInput`, once a slider has its new value. -/
def Page.handleSliderInput (now : ℤ) : PageHandler := fun p => do
  let p := p.leaveRainbow
  let p ← updatePixelDOM p.ui.selectedIndex (p.setPixel p.ui.selectedIndex p.ui.sliders)
  let p ← updateUIValuesOnly p
  lift (debouncedSendUpdate now) p

/-- The handler of `rainbowToggle`. -/
def Page.rainbowToggle (now : ℤ) : PageHandler := fun p => do
  let rainbow := !p.ui.rainbow
  let p : Page := ⟨{ p.ui with rainbow := rainbow },
    { p.view.showMode rainbow with slidersDisabled := rainbow }⟩
  let p ← updateUI p
  lift (sendUpdateNow now) p

/-- The state after a colour is chosen for the selected pixel. -/
def Ui.chosen (u : Ui) (rgb : LedRgb) : Ui :=
  { u.setPixel u.selectedIndex rgb with rainbow := false, sliders := rgb }

/-- The handler of the presets. -/
def Page.presetClick (hex : String) (now : ℤ) : PageHandler := fun p => do
  match hexToRgb hex with
  | none => return p
  | some rgb =>
    let p : Page := ⟨p.ui.chosen rgb, { p.view.showMode false with slidersDisabled := false }⟩
    let p ← updatePixelDOM p.ui.selectedIndex p
    let p ← updateUI p
    lift (sendUpdateNow now) p

/-- The handler of the event `input` of `colorPicker`, which then has the value `hex`. It
leaves the badge of the mode as it is. -/
def Page.colorPickerInput (hex : String) (now : ℤ) : PageHandler := fun p => do
  let p : Page := { p with view := { p.view with colorPicker := hex } }
  match hexToRgb hex with
  | none => return p
  | some rgb =>
    let p : Page :=
      ⟨p.ui.chosen rgb, { p.view with rainbowActive := false, slidersDisabled := false }⟩
    let p ← updatePixelDOM p.ui.selectedIndex p
    let p ← updateUIValuesOnly p
    lift (debouncedSendUpdate now) p

/-- The handler of `mouseover` on a pixel. -/
def Page.mouseover (idx : ℕ) (now : ℤ) : PageHandler := fun p =>
  if p.ui.isMouseDown && p.ui.paintMode then paintPixel idx (getActiveColor p.ui) now p else .ok p

/-- The handler of `toolPaint`. -/
def Page.toolPaint : PageHandler := fun p =>
  .ok ⟨{ p.ui with paintMode := !p.ui.paintMode },
    { p.view with paintActive := !p.ui.paintMode }⟩

/-- The handler of an event, on the whole page. -/
def UiEvent.handlePage (now : ℤ) : UiEvent → PageHandler
  | .mousedown => Page.lift fun u => .ok { u with isMouseDown := true }
  | .mouseup => Page.lift fun u => .ok { u with isMouseDown := false }
  | .click idx => Page.selectPixel idx
  | .mouseover idx => Page.mouseover idx now
  | .toolPaint => Page.toolPaint
  | .toolFillAll => Page.toolFillAll now
  | .toolClearAll => Page.toolClearAll now
  | .slider channel value => fun p =>
    Page.handleSliderInput now
      { p with ui := { p.ui with sliders := p.ui.sliders.setChannel channel value } }
  | .rainbowToggle => Page.rainbowToggle now
  | .preset hex => Page.presetClick hex now
  | .colorPickerInput hex => Page.colorPickerInput hex now
  | .colorPickerChange => Page.lift (sendUpdateNow now)
  | .timeout => Page.lift fun u => sendUpdateNow now { u with updatePending := false }

/-! ## The state alone -/

/-- A part of a handler does to the state what another one says, and throws when that
does. -/
def Tracks (h : PageHandler) (h' : Handler) : Prop := ∀ p, mapState Page.ui (h p) = h' p.ui

/-- What is read is read from the state. -/
theorem Page.mapState_readPixel_bind (p : Page) (index : ℕ) {k : LedRgb → Except Page Page}
    {k' : LedRgb → Except Ui Ui} (hk : ∀ c, mapState Page.ui (k c) = k' c) :
    mapState Page.ui (p.readPixel index >>= k) = LedMatrix.readPixel p.ui index >>= k' := by
  unfold readPixel LedMatrix.readPixel
  cases p.ui.matrix index with
  | none => rfl
  | some c => exact hk c

/-- Sending. -/
theorem Page.tracks_lift (h : Handler) : Tracks (lift h) h := by
  intro p
  unfold lift
  cases h p.ui with
  | ok u => rfl
  | error u => rfl

/-- The elements of the pixels. -/
theorem Page.tracks_updatePixelDOM (index : ℕ) :
    Tracks (updatePixelDOM index) (LedMatrix.updatePixelDOM index) := by
  intro p
  unfold updatePixelDOM LedMatrix.updatePixelDOM
  by_cases hindex : index < totalPixels
  · rw [dif_pos hindex, if_neg (Nat.not_le.mpr hindex)]
    exact p.mapState_readPixel_bind index fun c => rfl
  · rw [dif_neg hindex, if_pos (Nat.not_lt.mp hindex)]
    rfl

/-- The preview. -/
theorem Page.tracks_updateUI : Tracks updateUI LedMatrix.updateUI := fun p =>
  p.mapState_readPixel_bind p.ui.selectedIndex fun _ => rfl

/-- The preview, again. -/
theorem Page.tracks_updateUIValuesOnly : Tracks updateUIValuesOnly LedMatrix.updateUIValuesOnly :=
  fun p => p.mapState_readPixel_bind p.ui.selectedIndex fun _ => rfl

/-- The selection. -/
theorem Page.tracks_selectPixel (index : ℕ) :
    Tracks (selectPixel index) (LedMatrix.selectPixel index) := by
  intro p
  exact mapState_readPixel_bind ⟨{ p.ui with selectedIndex := index }, p.view.markSelected index⟩
    index fun c => tracks_updateUI _

/-- Painting. -/
theorem Page.tracks_paintPixel (index : ℕ) (color : LedRgb) (now : ℤ) :
    Tracks (paintPixel index color now) (LedMatrix.paintPixel index color now) := by
  intro p
  refine mapState_bind (tracks_updatePixelDOM index _) fun p => ?_
  by_cases hselected : index = p.ui.selectedIndex
  · simp only [if_pos hselected]
    exact mapState_bind (tracks_updateUI p) (tracks_lift _)
  · simp only [if_neg hselected]
    exact tracks_lift _ p

/-- The loop of Fill All and Clear All. -/
theorem Page.tracks_fillMatrix (color : LedRgb) :
    Tracks (fillMatrix color) (LedMatrix.fillMatrix color) := fun p =>
  mapState_foldlM (fun p i => tracks_updatePixelDOM i (p.setPixel i color)) _ p

/-- The mode of the sliders. -/
theorem Page.leaveRainbow_ui (p : Page) : p.leaveRainbow.ui = { p.ui with rainbow := false } := by
  unfold leaveRainbow
  split
  · rfl
  · rename_i hrainbow
    rw [← Bool.eq_false_iff.mpr hrainbow]

/-- The sliders. -/
theorem Page.tracks_handleSliderInput (now : ℤ) :
    Tracks (handleSliderInput now) (LedMatrix.handleSliderInput now) := by
  intro p
  unfold handleSliderInput LedMatrix.handleSliderInput
  rw [← leaveRainbow_ui]
  exact mapState_bind (tracks_updatePixelDOM _ (setPixel _ _ _)) fun p =>
    mapState_bind (tracks_updateUIValuesOnly p) (tracks_lift _)

/-- The toggle. -/
theorem Page.tracks_rainbowToggle (now : ℤ) :
    Tracks (rainbowToggle now) (LedMatrix.rainbowToggle now) := fun _ =>
  mapState_bind (tracks_updateUI ⟨_, _⟩) (tracks_lift _)

/-- The presets. -/
theorem Page.tracks_presetClick (hex : String) (now : ℤ) :
    Tracks (presetClick hex now) (LedMatrix.presetClick hex now) := by
  intro p
  unfold presetClick LedMatrix.presetClick
  cases hexToRgb hex with
  | none => rfl
  | some rgb =>
    exact mapState_bind (tracks_updatePixelDOM _ ⟨_, _⟩) fun p =>
      mapState_bind (tracks_updateUI p) (tracks_lift _)

/-- The colour picker. -/
theorem Page.tracks_colorPickerInput (hex : String) (now : ℤ) :
    Tracks (colorPickerInput hex now) (LedMatrix.colorPickerInput hex now) := by
  intro p
  unfold colorPickerInput LedMatrix.colorPickerInput
  cases hexToRgb hex with
  | none => rfl
  | some rgb =>
    exact mapState_bind (tracks_updatePixelDOM _ ⟨_, _⟩) fun p =>
      mapState_bind (tracks_updateUIValuesOnly p) (tracks_lift _)

/-- **Every handler** does to the state what the model of the state alone says. -/
theorem UiEvent.tracks_handlePage (now : ℤ) (e : UiEvent) :
    Tracks (e.handlePage now) (e.handle now) := by
  intro p
  cases e with
  | mousedown | mouseup | colorPickerChange | timeout =>
    rw [handlePage, handle]
    exact Page.tracks_lift _ p
  | click idx => exact Page.tracks_selectPixel idx p
  | mouseover idx =>
    rw [handlePage, handle, Page.mouseover, LedMatrix.mouseover]
    cases p.ui.isMouseDown && p.ui.paintMode with
    | false => rfl
    | true => exact Page.tracks_paintPixel idx _ now p
  | toolPaint => rfl
  | toolFillAll =>
    exact mapState_bind (Page.tracks_fillMatrix _ p) fun p => Page.tracks_lift _ ⟨_, _⟩
  | toolClearAll =>
    exact mapState_bind (Page.tracks_fillMatrix _ p) fun p => Page.tracks_lift _ ⟨_, _⟩
  | slider channel value => exact Page.tracks_handleSliderInput now ⟨_, p.view⟩
  | rainbowToggle => exact Page.tracks_rainbowToggle now p
  | preset hex => exact Page.tracks_presetClick hex now p
  | colorPickerInput hex => exact Page.tracks_colorPickerInput hex now p

end LedMatrix
