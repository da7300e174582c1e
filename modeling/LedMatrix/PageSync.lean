import LedMatrix.PageView

/-!
# The page shows its state

In every session, also after a handler has thrown, the grid and the mode shown are those
of the state, and the marked pixel is the one clicked last. The preview, the sliders and
the values show the marked pixel until Fill All or Clear All selects no pixel.
-/

namespace LedMatrix

open Throwing

/-! ## Sessions with elements -/

/-- The elements once the page is loaded. -/
def View.loaded : View := (View.html.markSelected 0).showColor false .black

/-- `selectPixel(0)` loads the page. -/
theorem Page.selectPixel_html (isSimulating : Bool) :
    Page.selectPixel 0 ⟨.initial isSimulating, .html⟩ =
      .ok ⟨.initial isSimulating, .loaded⟩ := rfl

/-- A session with the elements of its page. -/
structure PageSession where
  session : Session
  view : View

/-- The page as it is. -/
def PageSession.page (s : PageSession) : Page := ⟨s.session.ui, s.view⟩

/-- A page just loaded. -/
def PageSession.initial (isSimulating : Bool) : PageSession := ⟨.initial isSimulating, .loaded⟩

/-- One event at a time. The timer fires only if it is set. -/
def PageSession.step (s : PageSession) (e : UiEvent × ℤ) : Option PageSession :=
  if e.1 = .timeout ∧ s.session.ui.updatePending = false then none
  else
    match e.1.handlePage e.2 s.page with
    | .ok p => some ⟨s.session.next false p.ui, p.view⟩
    | .error p => some ⟨s.session.next true p.ui, p.view⟩

/-- A step without the elements. -/
theorem PageSession.step_session (s : PageSession) (e : UiEvent × ℤ) :
    (s.step e).map (fun t => t.session) = s.session.step e := by
  have htracks : mapState Page.ui (e.1.handlePage e.2 s.page) = e.1.handle e.2 s.session.ui :=
    e.1.tracks_handlePage e.2 s.page
  unfold step Session.step
  by_cases htimer : e.1 = .timeout ∧ s.session.ui.updatePending = false
  · rw [if_pos htimer, if_pos htimer]
    rfl
  · rw [if_neg htimer, if_neg htimer, ← htracks]
    cases e.1.handlePage e.2 s.page with
    | ok p => rfl
    | error p => rfl

/-- A step leaves what the handler leaves. -/
theorem PageSession.leaves_of_step {s t : PageSession} {e : UiEvent × ℤ} {I : Page → Prop}
    (h : s.step e = some t) (hleaves : Leaves I (e.1.handlePage e.2 s.page)) : I t.page := by
  unfold step at h
  split at h
  · cases h
  · split at h
    · rename_i p hp
      rw [hp] at hleaves
      obtain rfl := Option.some.inj h
      exact hleaves
    · rename_i p hp
      rw [hp] at hleaves
      obtain rfl := Option.some.inj h
      exact hleaves

/-- What a part that reads an entry leaves. -/
theorem Page.leaves_readPixel_bind {I : Page → Prop} {p : Page} {index : ℕ}
    {k : LedRgb → Except Page Page} (hnone : p.ui.matrix index = none → I p)
    (hsome : ∀ c, p.ui.matrix index = some c → Leaves I (k c)) :
    Leaves I (p.readPixel index >>= k) := by
  unfold readPixel
  cases hc : p.ui.matrix index with
  | none => exact hnone hc
  | some c => exact hsome c hc

/-! ## What sending leaves alone -/

/-- Nothing that is shown has changed. -/
structure SameShown (u v : Ui) : Prop where
  matrix_eq : v.matrix = u.matrix
  selected_eq : v.selectedIndex = u.selectedIndex
  paint_eq : v.paintMode = u.paintMode
  rainbow_eq : v.rainbow = u.rainbow
  sliders_eq : v.sliders = u.sliders

/-- A request, from a state in which nothing that is shown has changed. -/
theorem SameShown.sendUpdateNow {u v : Ui} (h : SameShown u v) (now : ℤ) :
    Leaves (SameShown u) (LedMatrix.sendUpdateNow now v) := by
  obtain ⟨hmatrix, hselected, hpaint, hrainbow, hsliders⟩ := h
  cases hc : v.matrix v.selectedIndex with
  | none =>
    rw [sendUpdateNow_of_none hc]
    exact ⟨hmatrix, hselected, hpaint, hrainbow, hsliders⟩
  | some c =>
    rw [sendUpdateNow_of_some now hc]
    exact ⟨hmatrix, hselected, hpaint, hrainbow, hsliders⟩

/-- A request sent at once or later. -/
theorem debouncedSendUpdate_sameShown (now : ℤ) (u : Ui) :
    Leaves (SameShown u) (debouncedSendUpdate now u) := by
  unfold debouncedSendUpdate
  dsimp only
  split
  · have hsame : SameShown u { u with updatePending := false } := ⟨rfl, rfl, rfl, rfl, rfl⟩
    exact hsame.sendUpdateNow now
  · exact ⟨rfl, rfl, rfl, rfl, rfl⟩

/-- A part of a handler that shows nothing leaves what depends on what is shown. -/
theorem Page.leaves_lift {I : Page → Prop} {p : Page} {h : Handler}
    (hsame : Leaves (SameShown p.ui) (h p.ui)) (hI : ∀ u, SameShown p.ui u → I ⟨u, p.view⟩) :
    Leaves I (lift h p) := by
  unfold lift
  cases hu : h p.ui with
  | ok u =>
    rw [hu] at hsame
    exact hI u hsame
  | error u =>
    rw [hu] at hsame
    exact hI u hsame

/-- The page after an entry is written and its pixel, if it has one, restyled. -/
def Page.written (p : Page) (i : ℕ) (c : LedRgb) : Page where
  ui := p.ui.setPixel i c
  view := if h : i < totalPixels then p.view.restyle ⟨i, h⟩ c else p.view

/-- To write an entry and restyle its pixel does not throw. -/
theorem Page.updatePixelDOM_setPixel (p : Page) (i : ℕ) (c : LedRgb) :
    updatePixelDOM i (p.setPixel i c) = .ok (p.written i c) := by
  have hentry : (p.setPixel i c).ui.matrix i = some c := Function.update_self ..
  unfold updatePixelDOM written readPixel
  by_cases hi : i < totalPixels
  · rw [dif_pos hi, dif_pos hi, hentry]
    rfl
  · rw [dif_neg hi, dif_neg hi]
    rfl

/-! ## The grid, the mode and the marked pixel -/

/-- A pixel that is restyled has its new style. -/
theorem View.style_restyle (v : View) (i : Fin totalPixels) (c : LedRgb) :
    ((v.restyle i c).grid i).style = pixelStyle c := by
  simp [restyle]

/-- Restyling a pixel leaves every other pixel as it was. -/
theorem View.grid_restyle_of_ne (v : View) {i j : Fin totalPixels} (c : LedRgb) (hj : j ≠ i) :
    (v.restyle i c).grid j = v.grid j := Function.update_of_ne hj ..

/-- Restyling a pixel leaves the marks as they are. -/
theorem View.selected_restyle (v : View) (i j : Fin totalPixels) (c : LedRgb) :
    ((v.restyle i c).grid j).selected = (v.grid j).selected := by
  by_cases hj : j = i
  · simp [restyle, hj]
  · rw [v.grid_restyle_of_ne c hj]

/-- The page shows its state: each pixel with the colour of its entry, the mode, and the
marked pixel `k`, which is selected until Fill All or Clear All selects none. -/
structure Page.ShowsState (k : Fin totalPixels) (p : Page) : Prop where
  grid_eq : ∀ i : Fin totalPixels,
    ∃ c, p.ui.matrix i = some c ∧ (p.view.grid i).style = pixelStyle c
  rainbow_eq : p.view.rainbowActive = p.ui.rainbow
  rainbow_shown : p.ui.rainbow = true →
    p.view.slidersDisabled = true ∧ p.view.modeBadge = "Rainbow"
  paint_eq : p.view.paintActive = p.ui.paintMode
  marked_eq : ∀ i, (p.view.grid i).selected = decide (i = k)
  label_eq : p.view.selectedPixelLabel = pixelLabel k
  title_eq : p.view.selectedLedTitle = s!"Active LED #{k.val}"
  selected_eq : p.ui.selectedIndex = k ∨ p.ui.selectedIndex = totalPixels

variable {p : Page} {k : Fin totalPixels}

/-- Nothing that is shown has changed. -/
theorem Page.ShowsState.same (h : p.ShowsState k) {u : Ui} (hu : SameShown p.ui u) :
    Page.ShowsState k ⟨u, p.view⟩ where
  grid_eq := hu.matrix_eq ▸ h.grid_eq
  rainbow_eq := hu.rainbow_eq ▸ h.rainbow_eq
  rainbow_shown := hu.rainbow_eq ▸ h.rainbow_shown
  paint_eq := hu.paint_eq ▸ h.paint_eq
  marked_eq := h.marked_eq
  label_eq := h.label_eq
  title_eq := h.title_eq
  selected_eq := hu.selected_eq ▸ h.selected_eq

/-- What the state decides of the page does not depend on the preview. -/
theorem Page.ShowsState.updateUI (h : p.ShowsState k) :
    Leaves (Page.ShowsState k) (Page.updateUI p) := by
  refine leaves_readPixel_bind (fun _ => h) fun c _ => ?_
  exact ⟨h.grid_eq, h.rainbow_eq, h.rainbow_shown, h.paint_eq, h.marked_eq, h.label_eq, h.title_eq,
    h.selected_eq⟩

/-- **One entry** is written, and its pixel restyled. -/
theorem Page.ShowsState.write (h : p.ShowsState k) (i : ℕ) (c : LedRgb) :
    Leaves (Page.ShowsState k) (updatePixelDOM i (p.setPixel i c)) := by
  have hentry : (p.ui.setPixel i c).matrix i = some c := Function.update_self ..
  have hother : ∀ j, j ≠ i → (p.ui.setPixel i c).matrix j = p.ui.matrix j := fun j hj =>
    Function.update_of_ne hj ..
  rw [updatePixelDOM_setPixel, written]
  split
  · rename_i hi
    refine ⟨fun j => ?_, h.rainbow_eq, h.rainbow_shown, h.paint_eq, fun j => ?_, h.label_eq,
      h.title_eq, h.selected_eq⟩
    · by_cases hj : j = ⟨i, hi⟩
      · subst hj
        exact ⟨c, hentry, p.view.style_restyle ⟨i, hi⟩ c⟩
      · obtain ⟨d, hd, hstyle⟩ := h.grid_eq j
        have hne : j.val ≠ i := fun heq => hj (Fin.ext heq)
        refine ⟨d, (hother j hne).trans hd, ?_⟩
        rw [← hstyle]
        exact congrArg PixelView.style (p.view.grid_restyle_of_ne c hj)
    · exact (p.view.selected_restyle ⟨i, hi⟩ j c).trans (h.marked_eq j)
  · refine ⟨fun j => ?_, h.rainbow_eq, h.rainbow_shown, h.paint_eq, h.marked_eq, h.label_eq,
      h.title_eq, h.selected_eq⟩
    obtain ⟨d, hd, hstyle⟩ := h.grid_eq j
    exact ⟨d, (hother j (by omega)).trans hd, hstyle⟩

/-- The pixel marked after an event. -/
def UiEvent.marked : UiEvent → Fin totalPixels → Fin totalPixels
  | .click idx, _ => idx
  | _, k => k

/-- A request shows nothing. -/
theorem Page.ShowsState.sendUpdateNow (h : p.ShowsState k) (now : ℤ) :
    Leaves (Page.ShowsState k) (lift (LedMatrix.sendUpdateNow now) p) :=
  leaves_lift (SameShown.sendUpdateNow ⟨rfl, rfl, rfl, rfl, rfl⟩ now) fun _ hu => h.same hu

/-- A request that may wait shows nothing. -/
theorem Page.ShowsState.debouncedSendUpdate (h : p.ShowsState k) (now : ℤ) :
    Leaves (Page.ShowsState k) (lift (LedMatrix.debouncedSendUpdate now) p) :=
  leaves_lift (debouncedSendUpdate_sameShown now p.ui) fun _ hu => h.same hu

/-- A selected pixel is marked. -/
theorem Page.ShowsState.selectPixel (h : p.ShowsState k) (idx : Fin totalPixels) :
    Leaves (Page.ShowsState idx) (Page.selectPixel idx p) := by
  have hmarked : ∀ sliders, Page.ShowsState idx
      ⟨{ p.ui with selectedIndex := idx, sliders := sliders }, p.view.markSelected idx⟩ := fun _ =>
    ⟨h.grid_eq, h.rainbow_eq, h.rainbow_shown, h.paint_eq,
      fun i => by simp [View.markSelected, Fin.ext_iff], rfl, rfl, .inl rfl⟩
  exact leaves_readPixel_bind (fun _ => hmarked p.ui.sliders) fun c _ => (hmarked c).updateUI

/-- Painting. -/
theorem Page.ShowsState.paintPixel (h : p.ShowsState k) (index : ℕ) (color : LedRgb) (now : ℤ) :
    Leaves (Page.ShowsState k) (Page.paintPixel index color now p) := by
  refine (h.write index color).bind fun q hq => ?_
  by_cases hselected : index = q.ui.selectedIndex
  · simp only [if_pos hselected]
    exact hq.updateUI.bind fun q hq => hq.debouncedSendUpdate now
  · simp only [if_neg hselected]
    exact hq.debouncedSendUpdate now

/-- The loop of Fill All and Clear All. -/
theorem Page.ShowsState.fillMatrix (h : p.ShowsState k) (color : LedRgb) :
    Leaves (Page.ShowsState k) (Page.fillMatrix color p) := by
  rw [Page.fillMatrix]
  exact Leaves.foldlM h fun q i _ hq => hq.write i color

/-- Fill All and Clear All select no pixel, and leave the mark where it is. -/
theorem Page.ShowsState.selectAll (h : p.ShowsState k) (color : LedRgb) (now : ℤ) :
    Leaves (Page.ShowsState k) (Page.selectAll color now p) := by
  have hnone : Page.ShowsState k ⟨{ p.ui with selectedIndex := totalPixels },
      p.view.updatePreviewLens p.ui.rainbow color⟩ :=
    ⟨h.grid_eq, h.rainbow_eq, h.rainbow_shown, h.paint_eq, h.marked_eq, h.label_eq, h.title_eq,
      .inr rfl⟩
  exact hnone.sendUpdateNow now

/-- The elements of the mode do not show the rest. -/
theorem Page.ShowsState.showMode (h : p.ShowsState k) (rainbow disabled : Bool) (sliders : LedRgb)
    (hdisabled : rainbow = true → disabled = true) :
    Page.ShowsState k ⟨{ p.ui with rainbow := rainbow, sliders := sliders },
      { p.view.showMode rainbow with slidersDisabled := disabled }⟩ where
  grid_eq := h.grid_eq
  rainbow_eq := rfl
  rainbow_shown hrainbow := ⟨hdisabled hrainbow, if_pos hrainbow⟩
  paint_eq := h.paint_eq
  marked_eq := h.marked_eq
  label_eq := h.label_eq
  title_eq := h.title_eq
  selected_eq := h.selected_eq

/-- The mode that the sliders set. -/
theorem Page.ShowsState.leaveRainbow (h : p.ShowsState k) : p.leaveRainbow.ShowsState k := by
  unfold Page.leaveRainbow
  split
  · exact h.showMode false p.view.slidersDisabled p.ui.sliders fun hrainbow =>
      absurd hrainbow Bool.false_ne_true
  · exact h

/-- **Every handler** leaves a page that shows its state, and marks the pixel that it
selects. -/
theorem UiEvent.leaves_showsState (h : p.ShowsState k) (now : ℤ) (e : UiEvent) :
    Leaves (Page.ShowsState (e.marked k)) (e.handlePage now p) := by
  cases e with
  | mousedown | mouseup => exact h.same ⟨rfl, rfl, rfl, rfl, rfl⟩
  | colorPickerChange => exact h.sendUpdateNow now
  | timeout =>
    have hsame : SameShown p.ui { p.ui with updatePending := false } :=
      ⟨rfl, rfl, rfl, rfl, rfl⟩
    rw [handlePage]
    exact Page.leaves_lift (hsame.sendUpdateNow now) fun _ hu => h.same hu
  | click idx => exact h.selectPixel idx
  | mouseover idx =>
    rw [handlePage, Page.mouseover]
    cases p.ui.isMouseDown && p.ui.paintMode with
    | false => exact h
    | true => exact h.paintPixel idx _ now
  | toolPaint => exact ⟨h.grid_eq, h.rainbow_eq, h.rainbow_shown, rfl, h.marked_eq, h.label_eq,
      h.title_eq, h.selected_eq⟩
  | toolFillAll =>
    rw [handlePage, Page.toolFillAll]
    exact (h.fillMatrix (getActiveColor p.ui)).bind fun q hq => hq.selectAll _ now
  | toolClearAll =>
    rw [handlePage, Page.toolClearAll]
    exact (h.fillMatrix .black).bind fun q hq => hq.selectAll _ now
  | slider channel value =>
    have hsliders : Page.ShowsState k
        ⟨{ p.ui with sliders := p.ui.sliders.setChannel channel value }, p.view⟩ :=
      ⟨h.grid_eq, h.rainbow_eq, h.rainbow_shown, h.paint_eq, h.marked_eq, h.label_eq, h.title_eq,
        h.selected_eq⟩
    refine (hsliders.leaveRainbow.write _ _).bind fun q hq => ?_
    exact hq.updateUI.bind fun q hq => hq.debouncedSendUpdate now
  | rainbowToggle =>
    refine (h.showMode (!p.ui.rainbow) (!p.ui.rainbow) p.ui.sliders id).updateUI.bind fun q hq => ?_
    exact hq.sendUpdateNow now
  | preset hex =>
    rw [handlePage, Page.presetClick]
    cases hexToRgb hex with
    | none => exact h
    | some rgb =>
      refine ((h.showMode false false rgb id).write p.ui.selectedIndex rgb).bind fun q hq => ?_
      exact hq.updateUI.bind fun q hq => hq.sendUpdateNow now
  | colorPickerInput hex =>
    rw [handlePage, Page.colorPickerInput]
    cases hexToRgb hex with
    | none => exact ⟨h.grid_eq, h.rainbow_eq, h.rainbow_shown, h.paint_eq, h.marked_eq, h.label_eq,
        h.title_eq, h.selected_eq⟩
    | some rgb =>
      have hmode : Page.ShowsState k ⟨{ p.ui with rainbow := false, sliders := rgb },
          { p.view with colorPicker := hex, rainbowActive := false, slidersDisabled := false }⟩ :=
        ⟨h.grid_eq, rfl, fun hrainbow => absurd hrainbow Bool.false_ne_true, h.paint_eq,
          h.marked_eq, h.label_eq, h.title_eq, h.selected_eq⟩
      refine (hmode.write p.ui.selectedIndex rgb).bind fun q hq => ?_
      exact hq.updateUI.bind fun q hq => hq.debouncedSendUpdate now

/-- The pixel clicked last, or the first one. -/
def lastClicked (es : List (UiEvent × ℤ)) : Fin totalPixels :=
  es.foldl (fun k e => e.1.marked k) ⟨0, Nat.zero_lt_succ 255⟩

/-- In every session the page shows its state. -/
theorem page_shows {isSimulating : Bool} {es : List (UiEvent × ℤ)} {s : PageSession}
    (hrun : Runs.exec PageSession.step (.initial isSimulating) es = some s) :
    s.page.ShowsState (lastClicked es) := by
  have hinitial : (PageSession.initial isSimulating).page.ShowsState (lastClicked []) :=
    ⟨fun i => ⟨.black, if_pos i.isLt, rfl⟩, rfl, fun hrainbow => absurd hrainbow Bool.false_ne_true,
      rfl, fun i => decide_eq_decide.mpr (Fin.ext_iff (b := lastClicked [])).symm, rfl, rfl,
      .inl rfl⟩
  refine Runs.exec_history (R := fun es s => s.page.ShowsState (lastClicked es)) ?_ hinitial hrun
  intro es s e t hs ht
  rw [lastClicked, List.foldl_append]
  exact PageSession.leaves_of_step ht (e.1.leaves_showsState hs e.2)

/-- **The page shows its state.** In every session, whatever handlers have thrown in it,
the state is the one that the same events lead to in the model of the state alone; each of
the 256 pixels is shown with the colour of its entry, and the toggles with the mode; and
the pixel clicked last is the one marked, also after Fill All or Clear All has selected
none. -/
theorem page_shows_state {isSimulating : Bool} {es : List (UiEvent × ℤ)} {s : PageSession}
    (hrun : Runs.exec PageSession.step (.initial isSimulating) es = some s) :
    Runs.exec Session.step (.initial isSimulating) es = some s.session ∧
      s.page.ShowsState (lastClicked es) := by
  have hsession := Runs.exec_map PageSession.step_session (.initial isSimulating) es
  rw [hrun] at hsession
  exact ⟨hsession.symm, page_shows hrun⟩

/-- A pixel is painted with the colour of a slider while the rainbow is on. -/
def clickedRun : List (UiEvent × ℤ) :=
  [(.click ⟨40, by decide⟩, 1000), (.slider .g 90, 1010), (.rainbowToggle, 1020),
    (.toolPaint, 1030), (.mousedown, 1040), (.mouseover ⟨41, by decide⟩, 1050)]

/-- When the matrix is cleared after that, the handler throws, and the pixel clicked is
still the one marked. -/
theorem page_shows_state_clickedRun :
    ∃ s, Runs.exec PageSession.step (.initial false) (clickedRun ++ [(.toolClearAll, 1060)]) =
        some s ∧ s.session.threw = true ∧ s.page.ShowsState ⟨40, by decide⟩ := by
  have hthrew : (Runs.exec PageSession.step (.initial false)
      (clickedRun ++ [(.toolClearAll, 1060)])).map (fun s => s.session.threw) = some true := by
    decide +kernel
  obtain ⟨s, hs, hthrew⟩ := Option.map_eq_some_iff.mp hthrew
  exact ⟨s, hs, hthrew, (page_shows_state hs).2⟩

/-! ## The preview -/

/-- Showing a colour twice is showing it once. -/
theorem View.showColor_showColor (v : View) (rainbow : Bool) (c : LedRgb) :
    (v.showColor rainbow c).showColor rainbow c = v.showColor rainbow c := by
  have hlens : ∀ (lens : LensView) (name : String),
      (lens.preview name rainbow c).preview name rainbow c = lens.preview name rainbow c := by
    intro lens name
    unfold LensView.preview
    split_ifs <;> rfl
  simp only [showColor, updatePreviewLens, hlens]

/-- The sliders have the values of the selected entry. -/
def Page.Loads (p : Page) : Prop :=
  p.ui.selectedIndex < totalPixels → p.ui.matrix p.ui.selectedIndex = some p.ui.sliders

/-- The sliders have the values of the selected entry, and the preview and the values shown
are theirs: to show them again changes nothing. -/
structure Page.Previews (p : Page) : Prop where
  loads : p.Loads
  shows : p.ui.selectedIndex < totalPixels → p.view.showColor p.ui.rainbow p.ui.sliders = p.view

/-- What the sliders hold is shown. -/
theorem Page.Loads.updateUI (h : p.Loads) : Leaves Page.Previews (Page.updateUI p) := by
  refine leaves_readPixel_bind (fun hnone => ?_) fun c hc => ?_
  · have hsome : ¬ p.ui.selectedIndex < totalPixels := fun hselected => by
      cases (h hselected).symm.trans hnone
    exact ⟨h, fun hselected => absurd hselected hsome⟩
  · refine ⟨h, fun hselected => ?_⟩
    obtain rfl : c = p.ui.sliders := Option.some.inj (hc.symm.trans (h hselected))
    exact p.view.showColor_showColor p.ui.rainbow p.ui.sliders

/-- Nothing that is shown has changed. -/
theorem Page.Previews.same (h : p.Previews) {u : Ui} (hu : SameShown p.ui u) :
    Page.Previews ⟨u, p.view⟩ := by
  obtain ⟨hmatrix, hselected, -, hrainbow, hsliders⟩ := hu
  constructor
  · unfold Loads
    rw [hmatrix, hselected, hsliders]
    exact h.loads
  · rw [hselected, hrainbow, hsliders]
    exact h.shows

/-- A request leaves the preview as it is. -/
theorem Page.Previews.sendUpdateNow (h : p.Previews) (now : ℤ) :
    Leaves Page.Previews (lift (LedMatrix.sendUpdateNow now) p) :=
  leaves_lift (SameShown.sendUpdateNow ⟨rfl, rfl, rfl, rfl, rfl⟩ now) fun _ hu => h.same hu

/-- A request that may wait leaves the preview as it is. -/
theorem Page.Previews.debouncedSendUpdate (h : p.Previews) (now : ℤ) :
    Leaves Page.Previews (lift (LedMatrix.debouncedSendUpdate now) p) :=
  leaves_lift (debouncedSendUpdate_sameShown now p.ui) fun _ hu => h.same hu

/-- **One entry** takes the colour of the sliders, the selected one or another. -/
theorem Page.loads_written (p : Page) (i : ℕ) (h : i = p.ui.selectedIndex ∨ p.Loads) :
    (p.written i p.ui.sliders).Loads := by
  intro hselected
  by_cases hi : p.ui.selectedIndex = i
  · rw [← hi]
    exact Function.update_self ..
  · exact (Function.update_of_ne hi ..).trans (h.resolve_left (Ne.symm hi) hselected)

/-- The selected entry takes the colour of the sliders, and is shown and sent. -/
theorem Page.leaves_chosen (p : Page) {send : PageHandler}
    (hsend : ∀ q : Page, q.Previews → Leaves Page.Previews (send q)) :
    Leaves Page.Previews
      (updatePixelDOM p.ui.selectedIndex (p.setPixel p.ui.selectedIndex p.ui.sliders) >>= fun q =>
        Page.updateUI q >>= send) := by
  have hloads := p.loads_written p.ui.selectedIndex (.inl rfl)
  rw [updatePixelDOM_setPixel]
  exact hloads.updateUI.bind hsend

/-- Painting with the colour of the sliders. -/
theorem Page.Previews.write (h : p.Previews) (i : ℕ) :
    Leaves Page.Previews (updatePixelDOM i (p.setPixel i p.ui.sliders)) := by
  rw [updatePixelDOM_setPixel]
  refine ⟨p.loads_written i (.inr h.loads), fun hselected => ?_⟩
  have hshown : p.view.showColor p.ui.rainbow p.ui.sliders = p.view := h.shows hselected
  unfold written
  split
  · rename_i hi
    exact congrArg (fun v : View => v.restyle ⟨i, hi⟩ p.ui.sliders) hshown
  · exact hshown

/-- A selected pixel is loaded and shown. -/
theorem Page.ShowsState.previews_selectPixel (h : p.ShowsState k) (idx : Fin totalPixels) :
    Leaves Page.Previews (Page.selectPixel idx p) := by
  obtain ⟨c, hc, -⟩ := h.grid_eq idx
  refine leaves_readPixel_bind (fun hnone => ?_) fun d hd => ?_
  · cases hc.symm.trans hnone
  · exact Page.Loads.updateUI (p := ⟨{ p.ui with selectedIndex := idx, sliders := d },
      p.view.markSelected idx⟩) fun _ => hd

/-- Fill All and Clear All select no pixel. -/
theorem Page.previews_fill (p : Page) (color : LedRgb) (now : ℤ) :
    Leaves Page.Previews (Page.fillMatrix color p >>= Page.selectAll color now) := by
  have htracks := tracks_fillMatrix color p
  rw [fillMatrix_eq] at htracks
  cases hq : Page.fillMatrix color p with
  | error q =>
    rw [hq] at htracks
    cases htracks
  | ok q =>
    have hnone : ¬ totalPixels < totalPixels := Nat.lt_irrefl _
    exact Page.Previews.sendUpdateNow (p := ⟨_, _⟩) ⟨fun h => absurd h hnone,
      fun h => absurd h hnone⟩ now

/-- A colour input has codes of colours as its values. -/
def UiEvent.PicksColor : UiEvent → Prop
  | .colorPickerInput hex => (hexToRgb hex).isSome
  | _ => True

/-- **Every handler** leaves the selected pixel in the preview. -/
theorem UiEvent.leaves_previews (hs : p.ShowsState k) (h : p.Previews) (now : ℤ) {e : UiEvent}
    (he : e.PicksColor) : Leaves Page.Previews (e.handlePage now p) := by
  cases e with
  | mousedown | mouseup => exact h.same ⟨rfl, rfl, rfl, rfl, rfl⟩
  | colorPickerChange => exact h.sendUpdateNow now
  | timeout =>
    have hsame : SameShown p.ui { p.ui with updatePending := false } :=
      ⟨rfl, rfl, rfl, rfl, rfl⟩
    rw [handlePage]
    exact Page.leaves_lift (hsame.sendUpdateNow now) fun _ hu => h.same hu
  | click idx => exact hs.previews_selectPixel idx
  | mouseover idx =>
    rw [handlePage, Page.mouseover]
    cases p.ui.isMouseDown && p.ui.paintMode with
    | false => exact h
    | true =>
      refine (h.write idx).bind fun q hq => ?_
      by_cases hselected : idx.val = q.ui.selectedIndex
      · simp only [if_pos hselected]
        exact hq.loads.updateUI.bind fun q hq => hq.debouncedSendUpdate now
      · simp only [if_neg hselected]
        exact hq.debouncedSendUpdate now
  | toolPaint =>
    refine ⟨h.loads, fun hselected => ?_⟩
    exact congrArg (fun v : View => { v with paintActive := !p.ui.paintMode }) (h.shows hselected)
  | toolFillAll => exact p.previews_fill (getActiveColor p.ui) now
  | toolClearAll => exact p.previews_fill .black now
  | slider channel value =>
    exact (Page.leaveRainbow ⟨_, p.view⟩).leaves_chosen fun q hq => hq.debouncedSendUpdate now
  | rainbowToggle =>
    have hloads : Page.Loads ⟨{ p.ui with rainbow := !p.ui.rainbow },
        { p.view.showMode (!p.ui.rainbow) with slidersDisabled := !p.ui.rainbow }⟩ := h.loads
    exact hloads.updateUI.bind fun q hq => hq.sendUpdateNow now
  | preset hex =>
    rw [handlePage, Page.presetClick]
    cases hexToRgb hex with
    | none => exact h
    | some rgb =>
      exact Page.leaves_chosen ⟨{ p.ui with rainbow := false, sliders := rgb },
        { p.view.showMode false with slidersDisabled := false }⟩ fun q hq => hq.sendUpdateNow now
  | colorPickerInput hex =>
    obtain ⟨rgb, hrgb⟩ := Option.isSome_iff_exists.mp he
    rw [handlePage, Page.colorPickerInput, hrgb]
    exact Page.leaves_chosen ⟨{ p.ui with rainbow := false, sliders := rgb },
      { p.view with colorPicker := hex, rainbowActive := false, slidersDisabled := false }⟩
        fun q hq => hq.debouncedSendUpdate now

/-- **The preview shows the selected pixel.** In every session, as long as a pixel is
selected, it is the one clicked last, the sliders have the values of its entry, it is the
one that is marked, and the lens, the values, the texts and the colour picker show it: to
call `updateUI` would change nothing. -/
theorem preview_shows_selected {isSimulating : Bool} {es : List (UiEvent × ℤ)} {s : PageSession}
    (hrun : Runs.exec PageSession.step (.initial isSimulating) es = some s)
    (hpicked : ∀ e ∈ es, e.1.PicksColor)
    (hselected : s.session.ui.selectedIndex < totalPixels) :
    s.session.ui.selectedIndex = lastClicked es ∧
      ∃ c, s.session.ui.matrix s.session.ui.selectedIndex = some c ∧ s.session.ui.sliders = c ∧
        s.view.grid (lastClicked es) = ⟨pixelStyle c, true⟩ ∧
        s.view.showColor s.session.ui.rainbow c = s.view := by
  have hinitial : (PageSession.initial isSimulating).page.Previews :=
    ⟨fun _ => rfl, fun _ => View.showColor_showColor _ _ _⟩
  have hloaded : (PageSession.initial isSimulating).page.ShowsState (lastClicked []) :=
    page_shows rfl
  have hboth : (∃ k, s.page.ShowsState k) ∧ s.page.Previews := by
    refine Runs.exec_invariant (I := fun s : PageSession =>
      (∃ k, s.page.ShowsState k) ∧ s.page.Previews) ?_ (Runs.along_of_labels hpicked)
      ⟨⟨_, hloaded⟩, hinitial⟩ hrun
    rintro s e t he ⟨⟨k, hk⟩, hpreviews⟩ ht
    exact ⟨⟨_, PageSession.leaves_of_step ht (e.1.leaves_showsState hk e.2)⟩,
      PageSession.leaves_of_step ht (UiEvent.leaves_previews hk hpreviews e.2 he)⟩
  have hshows := page_shows hrun
  have hlast : s.session.ui.selectedIndex = lastClicked es :=
    hshows.selected_eq.resolve_right (Nat.ne_of_lt hselected)
  have hentry := hboth.2.loads hselected
  obtain ⟨c, hc, hstyle⟩ := hshows.grid_eq (lastClicked es)
  rw [← hlast] at hc
  obtain rfl : c = s.session.ui.sliders := Option.some.inj (hc.symm.trans hentry)
  have hmarked : (s.view.grid (lastClicked es)).selected = true :=
    (hshows.marked_eq _).trans (decide_eq_true rfl)
  refine ⟨hlast, _, hc, rfl, ?_, hboth.2.shows hselected⟩
  rw [← hstyle, ← hmarked]
  rfl

/-- The painted pixel is another one, and the preview shows the one selected. -/
theorem preview_shows_selected_clickedRun :
    ∃ s, Runs.exec PageSession.step (.initial false) clickedRun = some s ∧
      s.view.showColor true ⟨0, 90, 0⟩ = s.view := by
  have hend : (Runs.exec PageSession.step (.initial false) clickedRun).map
      (fun s => (s.session.ui.selectedIndex, s.session.ui.sliders, s.session.ui.rainbow)) =
        some (40, ⟨0, 90, 0⟩, true) := by
    decide
  obtain ⟨s, hs, hstate⟩ := Option.map_eq_some_iff.mp hend
  obtain ⟨hselected, hsliders, hrainbow⟩ := by simpa only [Prod.mk.injEq] using hstate
  have hpicked : ∀ e ∈ clickedRun, e.1.PicksColor := by
    intro e he
    simp only [clickedRun, List.mem_cons, List.not_mem_nil, or_false] at he
    rcases he with rfl | rfl | rfl | rfl | rfl | rfl <;> trivial
  have hlt : s.session.ui.selectedIndex < totalPixels := by
    rw [hselected]
    decide
  obtain ⟨-, c, -, hc, -, hview⟩ := preview_shows_selected hs hpicked hlt
  rw [← hsliders, hc, ← hrainbow]
  exact ⟨s, hs, hview⟩

end LedMatrix
