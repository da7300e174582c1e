import LedMatrix.Config
import LedMatrix.Lib.Runs
import Mathlib.Data.Int.Notation
import Mathlib.Logic.Function.Basic

/-!
# The web page

The script `app.js`: the state of the page, its event handlers and the debounce
timer. A handler that reads a missing entry of `state.matrix` ends there with a
`TypeError`, and what it has changed so far stays. What only styles the page or
writes to its console is left out.
-/

namespace LedMatrix

/-- `TOTAL_PIXELS`. -/
def totalPixels : ℕ := 256

/-- `CONFIG.debounceDelay`, in milliseconds. -/
def debounceDelay : ℤ := 100

/-- The JSON body of a POST to `/api/led`. -/
structure UiPost where
  /-- `r`, `g` and `b`. -/
  color : LedRgb
  index : ℕ
  rainbow : Bool
  deriving DecidableEq, Repr

/-- `state` of the script, with the values of the sliders and the requests sent. -/
structure Ui where
  /-- `matrix[i]`, or `none` for `undefined`. -/
  matrix : ℕ → Option LedRgb
  selectedIndex : ℕ
  paintMode : Bool
  isMouseDown : Bool
  rainbow : Bool
  isSimulating : Bool
  lastSentTimestamp : ℤ
  /-- `pendingUpdateTimeout` is the id of a timer that is still to fire. -/
  updatePending : Bool
  /-- The values of `sliderR`, `sliderG` and `sliderB`. -/
  sliders : LedRgb
  /-- The bodies passed to `fetch`, oldest first. -/
  posts : List UiPost

/-- The page once it is loaded, with the pixel 0 selected. -/
def Ui.initial (isSimulating : Bool) : Ui where
  matrix i := if i < totalPixels then some .black else none
  selectedIndex := 0
  paintMode := false
  isMouseDown := false
  rainbow := false
  isSimulating := isSimulating
  lastSentTimestamp := 0
  updatePending := false
  sliders := .black
  posts := []

/-- A part of a handler: the state that it leaves, as an error when it throws. -/
abbrev Handler : Type := Ui → Except Ui Ui

/-- Read the members of `state.matrix[index]`. -/
def readPixel (u : Ui) (index : ℕ) : Except Ui LedRgb :=
  match u.matrix index with
  | some c => .ok c
  | none => .error u

/-- `state.matrix[index] = color`. -/
def Ui.setPixel (u : Ui) (index : ℕ) (color : LedRgb) : Ui :=
  { u with matrix := Function.update u.matrix index (some color) }

/-! ## The functions of the script -/

/-- `updatePixelDOM`: there is an element for each of the 256 pixels only. -/
def updatePixelDOM (index : ℕ) : Handler := fun u => do
  if totalPixels ≤ index then return u
  let _ ← readPixel u index
  return u

/-- `updateUI`. -/
def updateUI : Handler := fun u => do
  let _ ← readPixel u u.selectedIndex
  return u

/-- `updateUIValuesOnly`. -/
def updateUIValuesOnly : Handler := fun u => do
  let _ ← readPixel u u.selectedIndex
  return u

/-- `getActiveColor`. -/
def getActiveColor (u : Ui) : LedRgb := u.sliders

/-- `sendUpdateNow`. -/
def sendUpdateNow (now : ℤ) : Handler := fun u => do
  let u := { u with lastSentTimestamp := now }
  let curColor ← readPixel u u.selectedIndex
  let bodyData : UiPost := ⟨curColor, u.selectedIndex, u.rainbow⟩
  if u.isSimulating then return u
  return { u with posts := u.posts ++ [bodyData] }

/-- `debouncedSendUpdate`. It cancels the timer in any case. -/
def debouncedSendUpdate (now : ℤ) : Handler := fun u =>
  let elapsed := now - u.lastSentTimestamp
  let u := { u with updatePending := false }
  if debounceDelay ≤ elapsed then sendUpdateNow now u
  else .ok { u with updatePending := true }

/-- `selectPixel`. -/
def selectPixel (index : ℕ) : Handler := fun u => do
  let u := { u with selectedIndex := index }
  let curColor ← readPixel u index
  updateUI { u with sliders := curColor }

/-- `paintPixel`. -/
def paintPixel (index : ℕ) (color : LedRgb) (now : ℤ) : Handler := fun u => do
  let u ← updatePixelDOM index (u.setPixel index color)
  let u ← if index = u.selectedIndex then updateUI u else .ok u
  debouncedSendUpdate now u

/-- A digit of a colour code. -/
def hexDigit (c : Char) : Option ℕ :=
  if '0' ≤ c ∧ c ≤ '9' then some (c.toNat - 48)
  else if 'a' ≤ c ∧ c ≤ 'f' then some (c.toNat - 87)
  else if 'A' ≤ c ∧ c ≤ 'F' then some (c.toNat - 55)
  else none

/-- `hexToRgb`: six digits after an optional number sign. -/
def hexToRgb (hex : String) : Option LedRgb :=
  let digits :=
    match hex.toList with
    | '#' :: cs => cs
    | cs => cs
  match digits.mapM hexDigit with
  | some [r₁, r₀, g₁, g₀, b₁, b₀] =>
    some ⟨UInt8.ofNat (16 * r₁ + r₀), UInt8.ofNat (16 * g₁ + g₀), UInt8.ofNat (16 * b₁ + b₀)⟩
  | _ => none

/-! ## The event handlers -/

/-- The loop of Fill All and Clear All: set each entry and refresh its pixel. -/
def fillMatrix (color : LedRgb) : Handler := fun u =>
  (List.range totalPixels).foldlM (fun u i => updatePixelDOM i (u.setPixel i color)) u

/-- The handler of `toolFillAll`. -/
def toolFillAll (now : ℤ) : Handler := fun u => do
  let u ← fillMatrix (getActiveColor u) u
  sendUpdateNow now { u with selectedIndex := totalPixels }

/-- The handler of `toolClearAll`. -/
def toolClearAll (now : ℤ) : Handler := fun u => do
  let u ← fillMatrix .black u
  sendUpdateNow now { u with selectedIndex := totalPixels }

/-- `handleSliderInput`, once a slider has its new value. -/
def handleSliderInput (now : ℤ) : Handler := fun u => do
  let u := { u with rainbow := false }
  let u ← updatePixelDOM u.selectedIndex (u.setPixel u.selectedIndex u.sliders)
  let u ← updateUIValuesOnly u
  debouncedSendUpdate now u

/-- The handler of `rainbowToggle`. -/
def rainbowToggle (now : ℤ) : Handler := fun u => do
  let u ← updateUI { u with rainbow := !u.rainbow }
  sendUpdateNow now u

/-- The handler of the presets. -/
def presetClick (hex : String) (now : ℤ) : Handler := fun u => do
  match hexToRgb hex with
  | none => return u
  | some rgb =>
    let u := { u.setPixel u.selectedIndex rgb with rainbow := false, sliders := rgb }
    let u ← updatePixelDOM u.selectedIndex u
    let u ← updateUI u
    sendUpdateNow now u

/-- The handler of the event `input` of `colorPicker`. -/
def colorPickerInput (hex : String) (now : ℤ) : Handler := fun u => do
  match hexToRgb hex with
  | none => return u
  | some rgb =>
    let u := { u.setPixel u.selectedIndex rgb with rainbow := false, sliders := rgb }
    let u ← updatePixelDOM u.selectedIndex u
    let u ← updateUIValuesOnly u
    debouncedSendUpdate now u

/-- The handler of `mouseover` on a pixel. -/
def mouseover (idx : ℕ) (now : ℤ) : Handler := fun u =>
  if u.isMouseDown && u.paintMode then paintPixel idx (getActiveColor u) now u else .ok u

/-- A channel, which has its own slider. -/
inductive Channel
  | r
  | g
  | b
  deriving DecidableEq, Repr

/-- A slider is moved to a value. -/
def LedRgb.setChannel (c : LedRgb) : Channel → UInt8 → LedRgb
  | .r, v => { c with r := v }
  | .g, v => { c with g := v }
  | .b, v => { c with b := v }

/-- What the user does, or the debounce timer. -/
inductive UiEvent
  | mousedown
  | mouseup
  | click (idx : Fin totalPixels)
  | mouseover (idx : Fin totalPixels)
  | toolPaint
  | toolFillAll
  | toolClearAll
  | slider (channel : Channel) (value : UInt8)
  | rainbowToggle
  | preset (hex : String)
  | colorPickerInput (hex : String)
  | colorPickerChange
  | timeout
  deriving DecidableEq

/-- The handler of an event that happens at the time `now`. -/
def UiEvent.handle (now : ℤ) : UiEvent → Handler
  | .mousedown => fun u => .ok { u with isMouseDown := true }
  | .mouseup => fun u => .ok { u with isMouseDown := false }
  | .click idx => selectPixel idx
  | .mouseover idx => LedMatrix.mouseover idx now
  | .toolPaint => fun u => .ok { u with paintMode := !u.paintMode }
  | .toolFillAll => LedMatrix.toolFillAll now
  | .toolClearAll => LedMatrix.toolClearAll now
  | .slider channel value => fun u =>
    handleSliderInput now { u with sliders := u.sliders.setChannel channel value }
  | .rainbowToggle => LedMatrix.rainbowToggle now
  | .preset hex => presetClick hex now
  | .colorPickerInput hex => LedMatrix.colorPickerInput hex now
  | .colorPickerChange => sendUpdateNow now
  | .timeout => fun u => sendUpdateNow now { u with updatePending := false }

/-! ## Sessions -/

/-- The page, with what has happened to it. -/
structure Session where
  ui : Ui
  /-- A handler has thrown. -/
  threw : Bool
  /-- The entries of `state.matrix` whose value has changed. -/
  changed : ℕ → Bool

/-- A page just loaded. -/
def Session.initial (isSimulating : Bool) : Session :=
  { ui := .initial isSimulating, threw := false, changed := fun _ => false }

/-- The session after a handler has left the page in a new state. -/
def Session.next (s : Session) (threw : Bool) (u : Ui) : Session where
  ui := u
  threw := s.threw || threw
  changed i := s.changed i || decide (u.matrix i ≠ s.ui.matrix i)

/-- One event at a time. The timer fires only if it is set. -/
def Session.step (s : Session) (e : UiEvent × ℤ) : Option Session :=
  if e.1 = .timeout ∧ s.ui.updatePending = false then none
  else
    match e.1.handle e.2 s.ui with
    | .ok u => some (s.next false u)
    | .error u => some (s.next true u)

end LedMatrix
