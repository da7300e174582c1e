import LedMatrix.WebUi

/-!
# Missing entries

The page never reads a missing entry as long as the selected index is that of a
pixel. Only Fill All and Clear All select another one. What every other handler
does on a page in this state is said once, by `Effect`; the rest of the
development on the page rests on it.
-/

namespace LedMatrix

/-- The page has an entry for every pixel and for nothing else, and a pixel is
selected. -/
structure Loaded (u : Ui) : Prop where
  /-- Every pixel has an entry. -/
  matrix_some : ∀ i < totalPixels, ∃ c, u.matrix i = some c
  /-- Nothing else has. -/
  matrix_none : ∀ i, totalPixels ≤ i → u.matrix i = none
  /-- The selected index is that of a pixel. -/
  selected_lt : u.selectedIndex < totalPixels

/-- The page is so when it is loaded. -/
theorem Loaded.initial (isSimulating : Bool) : Loaded (Ui.initial isSimulating) where
  matrix_some _ hi := ⟨.black, if_pos hi⟩
  matrix_none _ hi := if_neg (Nat.not_lt.mpr hi)
  selected_lt := Nat.zero_lt_succ 255

/-! ## The functions on entries that are there -/

/-- The state after a request with the colour of the selected entry is sent. -/
def Ui.sent (u : Ui) (now : ℤ) (c : LedRgb) : Ui :=
  { u with
    lastSentTimestamp := now
    posts := if u.isSimulating then u.posts else u.posts ++ [⟨c, u.selectedIndex, u.rainbow⟩] }

/-- The state after the request is sent, or the timer is set. -/
def Ui.debounced (u : Ui) (now : ℤ) (c : LedRgb) : Ui :=
  if debounceDelay ≤ now - u.lastSentTimestamp then { u with updatePending := false }.sent now c
  else { u with updatePending := true }

variable {u : Ui} {now : ℤ} {c : LedRgb}

/-- `updatePixelDOM` never throws on an entry that is there. -/
theorem updatePixelDOM_of_some {i : ℕ} (h : u.matrix i = some c) : updatePixelDOM i u = .ok u := by
  unfold updatePixelDOM
  split
  · rfl
  · simp only [readPixel, h]
    rfl

/-- `updateUI` does not throw when the selected entry is there. -/
theorem updateUI_of_some (h : u.matrix u.selectedIndex = some c) : updateUI u = .ok u := by
  simp only [updateUI, readPixel, h]
  rfl

/-- `updateUIValuesOnly` does not throw when the selected entry is there. -/
theorem updateUIValuesOnly_of_some (h : u.matrix u.selectedIndex = some c) :
    updateUIValuesOnly u = .ok u := by
  simp only [updateUIValuesOnly, readPixel, h]
  rfl

/-- `sendUpdateNow` sends the selected entry. -/
theorem sendUpdateNow_of_some (now : ℤ) (h : u.matrix u.selectedIndex = some c) :
    sendUpdateNow now u = .ok (u.sent now c) := by
  cases hsim : u.isSimulating with
  | false =>
    simp only [sendUpdateNow, readPixel, h, Ui.sent, hsim]
    rfl
  | true =>
    simp only [sendUpdateNow, readPixel, h, Ui.sent, hsim]
    rfl

/-- `sendUpdateNow` throws when the selected entry is missing. -/
theorem sendUpdateNow_of_none (h : u.matrix u.selectedIndex = none) :
    sendUpdateNow now u = .error { u with lastSentTimestamp := now } := by
  simp only [sendUpdateNow, readPixel, h]
  rfl

/-- `debouncedSendUpdate` sends the selected entry or sets the timer. -/
theorem debouncedSendUpdate_of_some (now : ℤ) (h : u.matrix u.selectedIndex = some c) :
    debouncedSendUpdate now u = .ok (u.debounced now c) := by
  by_cases hlong : debounceDelay ≤ now - u.lastSentTimestamp
  · simp only [debouncedSendUpdate, Ui.debounced, if_pos hlong]
    exact sendUpdateNow_of_some (u := { u with updatePending := false }) now h
  · simp only [debouncedSendUpdate, Ui.debounced, if_neg hlong]

/-! ## What a handler does -/

/-- The state `w` is `u` with nothing but an entry for the pixel `i` written, and
with other flags, sliders or timestamps. -/
structure Edited (u w : Ui) (i : ℕ) : Prop where
  /-- The entry is there. -/
  matrix_some : ∃ c, w.matrix i = some c
  /-- No other entry has changed. -/
  matrix_eq : ∀ j, j ≠ i → w.matrix j = u.matrix j
  selected_eq : w.selectedIndex = u.selectedIndex
  posts_eq : w.posts = u.posts
  simulating_eq : w.isSimulating = u.isSimulating

/-- Writing an entry is an edit of it. -/
theorem Edited.setPixel (u : Ui) (i : ℕ) (c : LedRgb) : Edited u (u.setPixel i c) i where
  matrix_some := ⟨c, by simp [Ui.setPixel]⟩
  matrix_eq j hj := by simp [Ui.setPixel, Function.update_of_ne hj]
  selected_eq := rfl
  posts_eq := rfl
  simulating_eq := rfl

/-- An edit of one pixel leaves an entry for every pixel. -/
theorem Edited.loaded {w : Ui} {i : ℕ} (h : Edited u w i) (hi : i < totalPixels) (hu : Loaded u) :
    Loaded w where
  matrix_some j hj := by
    by_cases hji : j = i
    · rw [hji]
      exact h.matrix_some
    · rw [h.matrix_eq j hji]
      exact hu.matrix_some j hj
  matrix_none j hj := by
    rw [h.matrix_eq j (by omega)]
    exact hu.matrix_none j hj
  selected_lt := by
    rw [h.selected_eq]
    exact hu.selected_lt

/-- What the handlers other than Fill All and Clear All do, as far as entries,
requests and the timer are concerned. -/
inductive Effect (u : Ui) (e : UiEvent) (now : ℤ) : Ui → Prop
  /-- Only flags change. -/
  | quiet {w : Ui} : w.matrix = u.matrix → w.selectedIndex = u.selectedIndex →
      w.posts = u.posts → w.isSimulating = u.isSimulating → w.updatePending = u.updatePending →
      Effect u e now w
  /-- Another pixel is selected. -/
  | select {w : Ui} (idx : Fin totalPixels) : e = .click idx → w.selectedIndex = idx →
      w.matrix = u.matrix → w.posts = u.posts → w.isSimulating = u.isSimulating →
      w.updatePending = u.updatePending → Effect u e now w
  /-- The selected entry may be written, and is sent. -/
  | send {w : Ui} {c : LedRgb} : Edited u w u.selectedIndex → w.matrix u.selectedIndex = some c →
      Effect u e now (w.sent now c)
  /-- The selected entry is written, and sent at once or later. -/
  | debounce {w : Ui} {c : LedRgb} : Edited u w u.selectedIndex →
      w.matrix u.selectedIndex = some c → Effect u e now (w.debounced now c)
  /-- A pixel is painted, and the selected entry is sent at once or later. -/
  | paint {w : Ui} {c : LedRgb} (idx : Fin totalPixels) : e = .mouseover idx →
      u.isMouseDown = true → u.paintMode = true → Edited u w idx →
      w.matrix idx = some u.sliders → w.matrix u.selectedIndex = some c →
      Effect u e now (w.debounced now c)

/-- A state that differs only in what an edit leaves open is an edit. -/
theorem Edited.refl_of_some {w : Ui} {i : ℕ} (hsome : ∃ c, u.matrix i = some c)
    (hmatrix : w.matrix = u.matrix) (hselected : w.selectedIndex = u.selectedIndex)
    (hposts : w.posts = u.posts) (hsim : w.isSimulating = u.isSimulating) : Edited u w i where
  matrix_some := by rw [hmatrix]; exact hsome
  matrix_eq j _ := by rw [hmatrix]
  selected_eq := hselected
  posts_eq := hposts
  simulating_eq := hsim

/-- Selecting a pixel loads its colour into the sliders. -/
theorem selectPixel_effect (hu : Loaded u) (idx : Fin totalPixels) :
    ∃ v, selectPixel idx u = .ok v ∧ Effect u (.click idx) now v := by
  obtain ⟨c, hc⟩ := hu.matrix_some idx idx.isLt
  refine ⟨{ u with selectedIndex := idx, sliders := c }, ?_, .select idx rfl rfl rfl rfl rfl rfl⟩
  simp only [selectPixel, readPixel, hc]
  exact updateUI_of_some (u := { u with selectedIndex := idx, sliders := c }) hc

/-- Painting writes the entry of the pixel and sends the selected one. -/
theorem mouseover_effect (hu : Loaded u) (idx : Fin totalPixels) :
    ∃ v, mouseover idx now u = .ok v ∧ Effect u (.mouseover idx) now v := by
  unfold mouseover
  by_cases hpaint : (u.isMouseDown && u.paintMode) = true
  · obtain ⟨hdown, hmode⟩ := Bool.and_eq_true_iff.mp hpaint
    have hedited := Edited.setPixel u idx u.sliders
    obtain ⟨c, hc⟩ := (hedited.loaded idx.isLt hu).matrix_some u.selectedIndex hu.selected_lt
    have hidx : (u.setPixel idx u.sliders).matrix idx = some u.sliders := by simp [Ui.setPixel]
    rw [if_pos hpaint]
    refine ⟨_, ?_, .paint idx rfl hdown hmode hedited hidx hc⟩
    have hdom := updatePixelDOM_of_some hidx
    have hui : updateUI (u.setPixel idx u.sliders) = .ok (u.setPixel idx u.sliders) :=
      updateUI_of_some hc
    have hsend : debouncedSendUpdate now (u.setPixel idx u.sliders) =
        .ok ((u.setPixel idx u.sliders).debounced now c) := debouncedSendUpdate_of_some now hc
    simp only [paintPixel, getActiveColor, hdom, bind, Except.bind, hui, ite_self, hsend]
  · rw [if_neg hpaint]
    exact ⟨u, rfl, .quiet rfl rfl rfl rfl rfl⟩

/-- A slider writes the selected entry. -/
theorem handleSliderInput_effect (e : UiEvent) (u : Ui) (sliders : LedRgb) :
    ∃ v, handleSliderInput now { u with sliders := sliders } = .ok v ∧ Effect u e now v := by
  have hc : ({ u with sliders := sliders, rainbow := false }.setPixel u.selectedIndex
      sliders).matrix u.selectedIndex = some sliders := by simp [Ui.setPixel]
  have hedited : Edited u ({ u with sliders := sliders, rainbow := false }.setPixel u.selectedIndex
      sliders) u.selectedIndex := by
    obtain ⟨hsome, hmatrix, -, -, -⟩ :=
      Edited.setPixel { u with sliders := sliders, rainbow := false } u.selectedIndex sliders
    exact ⟨hsome, hmatrix, rfl, rfl, rfl⟩
  refine ⟨_, ?_, .debounce hedited hc⟩
  have hdom := updatePixelDOM_of_some hc
  have hui := updateUIValuesOnly_of_some hc
  have hsend := debouncedSendUpdate_of_some now hc
  simp only [handleSliderInput, hdom, bind, Except.bind, hui, hsend]

/-- The rainbow toggle sends the selected entry. -/
theorem rainbowToggle_effect (e : UiEvent) (hu : Loaded u) :
    ∃ v, rainbowToggle now u = .ok v ∧ Effect u e now v := by
  obtain ⟨c, hc⟩ := hu.matrix_some u.selectedIndex hu.selected_lt
  have hedited : Edited u { u with rainbow := !u.rainbow } u.selectedIndex :=
    .refl_of_some ⟨c, hc⟩ rfl rfl rfl rfl
  refine ⟨_, ?_, .send hedited hc⟩
  have hui := updateUI_of_some (u := { u with rainbow := !u.rainbow }) hc
  have hsend := sendUpdateNow_of_some (u := { u with rainbow := !u.rainbow }) now hc
  simp only [rainbowToggle, hui, bind, Except.bind, hsend]

/-- The state in which a chosen colour is written and shown. -/
def Ui.choose (u : Ui) (rgb : LedRgb) : Ui :=
  { u.setPixel u.selectedIndex rgb with rainbow := false, sliders := rgb }

/-- Choosing a colour writes the selected entry. -/
theorem Edited.choose (u : Ui) (rgb : LedRgb) :
    Edited u (u.choose rgb) u.selectedIndex ∧
      (u.choose rgb).matrix u.selectedIndex = some rgb := by
  obtain ⟨hsome, hmatrix, -, -, -⟩ := Edited.setPixel u u.selectedIndex rgb
  exact ⟨⟨hsome, hmatrix, rfl, rfl, rfl⟩, by simp [Ui.choose, Ui.setPixel]⟩

/-- A handler that writes a chosen colour shows the page, which changes nothing, and
then sends the selected entry. -/
theorem Ui.choose_bind {u v : Ui} {rgb : LedRgb} {display send : Handler}
    (hdisplay : display (u.choose rgb) = .ok (u.choose rgb))
    (hsend : send (u.choose rgb) = .ok v) :
    ((updatePixelDOM u.selectedIndex (u.choose rgb)).bind fun w => (display w).bind send) =
      .ok v := by
  have hdom : updatePixelDOM u.selectedIndex (u.choose rgb) = .ok (u.choose rgb) :=
    updatePixelDOM_of_some (Edited.choose u rgb).2
  simp only [hdom, Except.bind, hdisplay, hsend]

/-- A preset writes the selected entry and sends it. -/
theorem presetClick_effect (e : UiEvent) (u : Ui) (hex : String) :
    ∃ v, presetClick hex now u = .ok v ∧ Effect u e now v := by
  unfold presetClick
  cases hexToRgb hex with
  | none => exact ⟨u, rfl, .quiet rfl rfl rfl rfl rfl⟩
  | some rgb =>
    obtain ⟨hedited, hc⟩ := Edited.choose u rgb
    refine ⟨(u.choose rgb).sent now rgb, ?_, .send hedited hc⟩
    exact Ui.choose_bind (updateUI_of_some hc) (sendUpdateNow_of_some now hc)

/-- The colour picker writes the selected entry and sends it at once or later. -/
theorem colorPickerInput_effect (e : UiEvent) (u : Ui) (hex : String) :
    ∃ v, colorPickerInput hex now u = .ok v ∧ Effect u e now v := by
  unfold colorPickerInput
  cases hexToRgb hex with
  | none => exact ⟨u, rfl, .quiet rfl rfl rfl rfl rfl⟩
  | some rgb =>
    obtain ⟨hedited, hc⟩ := Edited.choose u rgb
    refine ⟨(u.choose rgb).debounced now rgb, ?_, .debounce hedited hc⟩
    exact Ui.choose_bind (updateUIValuesOnly_of_some hc) (debouncedSendUpdate_of_some now hc)

/-- Sending the selected entry is an effect, whether or not the timer has fired. -/
theorem sendUpdateNow_effect (e : UiEvent) (hu : Loaded u) (pending : Bool) :
    ∃ v, sendUpdateNow now { u with updatePending := pending } = .ok v ∧ Effect u e now v := by
  obtain ⟨c, hc⟩ := hu.matrix_some u.selectedIndex hu.selected_lt
  have hedited : Edited u { u with updatePending := pending } u.selectedIndex :=
    .refl_of_some ⟨c, hc⟩ rfl rfl rfl rfl
  have hsend := sendUpdateNow_of_some (u := { u with updatePending := pending }) now hc
  exact ⟨_, hsend, .send hedited hc⟩

/-- Fill All and Clear All. -/
def UiEvent.IsFill (e : UiEvent) : Prop := e = .toolFillAll ∨ e = .toolClearAll

instance (e : UiEvent) : Decidable e.IsFill := inferInstanceAs (Decidable (_ ∨ _))

/-- **No other handler throws** on a loaded page, and each has its effect. -/
theorem UiEvent.handle_effect (now : ℤ) (hu : Loaded u) {e : UiEvent} (he : ¬ e.IsFill) :
    ∃ v, e.handle now u = .ok v ∧ Effect u e now v := by
  cases e with
  | mousedown => exact ⟨_, rfl, .quiet rfl rfl rfl rfl rfl⟩
  | mouseup => exact ⟨_, rfl, .quiet rfl rfl rfl rfl rfl⟩
  | click idx => exact selectPixel_effect hu idx
  | mouseover idx => exact mouseover_effect hu idx
  | toolPaint => exact ⟨_, rfl, .quiet rfl rfl rfl rfl rfl⟩
  | toolFillAll => exact absurd (.inl rfl) he
  | toolClearAll => exact absurd (.inr rfl) he
  | slider channel value => exact handleSliderInput_effect _ u _
  | rainbowToggle => exact rainbowToggle_effect _ hu
  | preset hex => exact presetClick_effect _ u hex
  | colorPickerInput hex => exact colorPickerInput_effect _ u hex
  | colorPickerChange => exact sendUpdateNow_effect _ hu u.updatePending
  | timeout => exact sendUpdateNow_effect _ hu false

/-- Sending changes neither the entries nor the selection. -/
theorem Loaded.sent (h : Loaded u) : Loaded (u.sent now c) :=
  ⟨h.matrix_some, h.matrix_none, h.selected_lt⟩

/-- Debouncing changes neither the entries nor the selection. -/
theorem Loaded.debounced (h : Loaded u) : Loaded (u.debounced now c) := by
  unfold Ui.debounced
  split
  · exact ⟨h.matrix_some, h.matrix_none, h.selected_lt⟩
  · exact ⟨h.matrix_some, h.matrix_none, h.selected_lt⟩

/-- An effect leaves the page loaded. -/
theorem Effect.loaded {e : UiEvent} {v : Ui} (hu : Loaded u) (h : Effect u e now v) : Loaded v := by
  cases h with
  | quiet hmatrix hselected =>
    refine ⟨?_, ?_, ?_⟩
    · rw [hmatrix]
      exact hu.matrix_some
    · rw [hmatrix]
      exact hu.matrix_none
    · rw [hselected]
      exact hu.selected_lt
  | select idx _ hselected hmatrix =>
    refine ⟨?_, ?_, ?_⟩
    · rw [hmatrix]
      exact hu.matrix_some
    · rw [hmatrix]
      exact hu.matrix_none
    · rw [hselected]
      exact idx.isLt
  | send hedited _ => exact (hedited.loaded hu.selected_lt hu).sent
  | debounce hedited _ => exact (hedited.loaded hu.selected_lt hu).debounced
  | paint idx _ _ _ hedited _ _ => exact (hedited.loaded idx.isLt hu).debounced

/-! ## Fill All and Clear All -/

/-- The loop writes the entries that it visits and nothing else. -/
theorem foldlM_setPixel (color : LedRgb) (is : List ℕ) (u : Ui) :
    is.foldlM (fun u i => updatePixelDOM i (u.setPixel i color)) u =
      .ok { u with matrix := fun i => if i ∈ is then some color else u.matrix i } := by
  induction is generalizing u with
  | nil => simp; rfl
  | cons i is ih =>
    have hi : (u.setPixel i color).matrix i = some color := by simp [Ui.setPixel]
    rw [List.foldlM_cons, updatePixelDOM_of_some hi]
    change List.foldlM _ (u.setPixel i color) is = _
    rw [ih]
    congr 2
    funext j
    by_cases hmem : j ∈ is
    · simp [hmem]
    · by_cases hj : j = i
      · simp [hj, Ui.setPixel]
      · simp [hmem, hj, Ui.setPixel]

/-- Fill All and Clear All write every pixel, and nothing else. -/
theorem fillMatrix_eq (color : LedRgb) (u : Ui) :
    fillMatrix color u =
      .ok { u with matrix := fun i => if i < totalPixels then some color else u.matrix i } := by
  rw [fillMatrix, foldlM_setPixel]
  simp only [List.mem_range]

/-- **Fill All and Clear All throw** on a loaded page: they select an entry that
is not there, and nothing is sent. -/
theorem UiEvent.handle_fill (now : ℤ) (hu : Loaded u) {e : UiEvent} (he : e.IsFill) :
    ∃ v, e.handle now u = .error v := by
  have hsend : ∀ color, ∃ v, (fillMatrix color u >>= fun w =>
      sendUpdateNow now { w with selectedIndex := totalPixels }) = .error v := by
    intro color
    let w : Ui :=
      { u with
        matrix := fun i => if i < totalPixels then some color else u.matrix i
        selectedIndex := totalPixels }
    refine ⟨{ w with lastSentTimestamp := now }, ?_⟩
    rw [fillMatrix_eq]
    have hnone : w.matrix w.selectedIndex = none := by
      simpa [w] using hu.matrix_none totalPixels (Nat.le_refl _)
    exact sendUpdateNow_of_none hnone
  rcases he with rfl | rfl
  · exact hsend (getActiveColor u)
  · exact hsend .black

/-! ## Sessions -/

/-- An event leaves a session whose handler has thrown or not, as the handler
says. -/
theorem Session.step_cases {s t : Session} {e : UiEvent × ℤ} (h : s.step e = some t) :
    (∃ u, e.1.handle e.2 s.ui = .ok u ∧ t = s.next false u) ∨
      ∃ u, e.1.handle e.2 s.ui = .error u ∧ t = s.next true u := by
  unfold step at h
  split at h
  · cases h
  · cases hhandle : e.1.handle e.2 s.ui with
    | ok u =>
      rw [hhandle] at h
      exact .inl ⟨u, rfl, (Option.some.inj h).symm⟩
    | error u =>
      rw [hhandle] at h
      exact .inr ⟨u, rfl, (Option.some.inj h).symm⟩

/-- An event other than Fill All and Clear All has its effect on a loaded page. -/
theorem Session.step_effect {s t : Session} {e : UiEvent × ℤ} (hs : Loaded s.ui)
    (he : ¬ e.1.IsFill) (h : s.step e = some t) :
    ∃ v, Effect s.ui e.1 e.2 v ∧ t = s.next false v := by
  obtain ⟨v, hv, heffect⟩ := UiEvent.handle_effect e.2 hs he
  rcases Session.step_cases h with ⟨u, hu, ht⟩ | ⟨u, hu, -⟩
  · obtain rfl := Except.ok.inj (hv.symm.trans hu)
    exact ⟨v, heffect, ht⟩
  · rw [hv] at hu
    cases hu

/-- Fill All and Clear All throw on a loaded page. -/
theorem Session.step_fill {s t : Session} {e : UiEvent × ℤ} (hs : Loaded s.ui)
    (he : e.1.IsFill) (h : s.step e = some t) : t.threw = true := by
  obtain ⟨v, hv⟩ := UiEvent.handle_fill e.2 hs he
  rcases Session.step_cases h with ⟨u, hu, -⟩ | ⟨u, -, rfl⟩
  · rw [hv] at hu
    cases hu
  · exact Bool.or_true _

/-- Once a handler has thrown, this is not forgotten. -/
theorem Session.step_threw {s t : Session} {e : UiEvent × ℤ} (hs : s.threw = true)
    (h : s.step e = some t) : t.threw = true := by
  rcases Session.step_cases h with ⟨u, -, rfl⟩ | ⟨u, -, rfl⟩
  · simp [Session.next, hs]
  · simp [Session.next]

/-- As long as no handler has thrown, the page is loaded, and the next one throws
exactly if it is that of Fill All or Clear All. -/
theorem Session.step_threw_iff {s t : Session} {e : UiEvent × ℤ}
    (hs : s.threw = false → Loaded s.ui) (h : s.step e = some t) :
    (t.threw = false → Loaded t.ui) ∧ (t.threw = false ↔ s.threw = false ∧ ¬ e.1.IsFill) := by
  cases hthrew : s.threw with
  | true =>
    have ht : t.threw = true := Session.step_threw hthrew h
    simp [ht]
  | false =>
    have hloaded := hs hthrew
    by_cases he : e.1.IsFill
    · have ht : t.threw = true := Session.step_fill hloaded he h
      simp [ht, he]
    · obtain ⟨v, heffect, rfl⟩ := Session.step_effect hloaded he h
      exact ⟨fun _ => heffect.loaded hloaded, by simp [Session.next, hthrew, he]⟩

/-- **When the page reads no missing entry.** In every run from the loaded page,
connected or simulating: no handler reads a missing entry, so that each one that
sends reaches its request, if and only if the run contains neither Fill All nor
Clear All. -/
theorem reads_defined_iff (isSimulating : Bool) (es : List (UiEvent × ℤ)) (s : Session)
    (hrun : Runs.exec Session.step (Session.initial isSimulating) es = some s) :
    s.threw = false ↔ ∀ e ∈ es, e.1 ≠ .toolFillAll ∧ e.1 ≠ .toolClearAll := by
  have hthrew : s.threw = false ↔ (Session.initial isSimulating).threw = false ∧
      Runs.Along Session.step (fun _ e => ¬ e.1.IsFill) (Session.initial isSimulating) es :=
    Runs.exec_along_iff (fun _ _ _ hs h => Session.step_threw_iff hs h)
      (fun _ => Loaded.initial isSimulating) hrun
  have hinitial : (Session.initial isSimulating).threw = false := rfl
  rw [hthrew, and_iff_right hinitial, Runs.along_labels_iff hrun]
  simp only [UiEvent.IsFill, not_or]

/-- A slider is moved twice, and the timer fires. -/
def sliderRun : List (UiEvent × ℤ) :=
  [(.slider .r 5, 1000), (.slider .r 9, 1040), (.timeout, 1100)]

/-- No handler throws in this run. -/
theorem reads_defined_sliderRun :
    ∃ s, Runs.exec Session.step (Session.initial false) sliderRun = some s ∧ s.threw = false := by
  have hsome : (Runs.exec Session.step (Session.initial false) sliderRun).isSome = true := by
    decide
  obtain ⟨s, hs⟩ := Option.isSome_iff_exists.mp hsome
  exact ⟨s, hs, (reads_defined_iff false sliderRun s hs).mpr (by decide)⟩

/-- Fill All on the page just loaded: its handler throws and nothing is sent. -/
theorem fillAll_throws :
    (Runs.exec Session.step (Session.initial false) [(.toolFillAll, 1000)]).map
      (fun s => (s.threw, s.ui.selectedIndex, s.ui.posts)) = some (true, 256, []) := by
  decide +kernel

end LedMatrix
