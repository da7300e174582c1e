import LedMatrix.WebUiSafety

/-!
# The page and the strip

The page edits one of 256 entries but always sends the selected one. An edit
reaches the strip only if its pixel is still selected when the request is sent.
Here the page is compared with its requests: a pixel is in step when the last
request that addresses it carries the colour that the page shows.
-/

namespace LedMatrix

/-- The request addresses the pixel, alone or with all others. -/
def UiPost.addresses (post : UiPost) (i : ℕ) : Bool :=
  post.index == i || post.index == totalPixels

/-- The last request that addresses a pixel. -/
def lastPost (posts : List UiPost) (i : ℕ) : Option UiPost :=
  posts.reverse.find? fun post => post.addresses i

/-- The last request that addresses the pixel carries the colour of its entry. -/
def InStep (u : Ui) (i : ℕ) : Prop :=
  ∃ post, lastPost u.posts i = some post ∧ u.matrix i = some post.color

/-- While no timer is set and the rainbow is off, every pixel whose entry has
changed is in step. -/
def Session.PixelsInStep (s : Session) : Prop :=
  s.ui.updatePending = false → s.ui.rainbow = false →
    ∀ i < totalPixels, s.changed i = true → InStep s.ui i

/-- The entry has changed, and the strip does not know. -/
def Session.Unsent (s : Session) (i : ℕ) : Prop := s.changed i = true ∧ ¬ InStep s.ui i

/-- The event leaves no edit behind: it is not Fill All or Clear All; it selects
another pixel only if no timer is set or the selected entry has nothing to be
sent; and it paints a pixel that is not selected only in the colour that the
page shows already, or that the last request for the pixel carries. -/
def Session.LeavesNothing (s : Session) (e : UiEvent × ℤ) : Prop :=
  match e.1 with
  | .toolFillAll | .toolClearAll => False
  | .click idx =>
    s.ui.updatePending = true → (idx : ℕ) ≠ s.ui.selectedIndex → ¬ s.Unsent s.ui.selectedIndex
  | .mouseover idx =>
    s.ui.isMouseDown = true → s.ui.paintMode = true → (idx : ℕ) ≠ s.ui.selectedIndex →
      s.ui.matrix idx = some s.ui.sliders ∨
        (lastPost s.ui.posts idx).map UiPost.color = some s.ui.sliders
  | _ => True

/-! ## Requests -/

/-- A request is the last one for the pixels that it addresses, and changes
nothing for the others. -/
theorem lastPost_append (posts : List UiPost) (post : UiPost) (i : ℕ) :
    lastPost (posts ++ [post]) i =
      if post.addresses i = true then some post else lastPost posts i := by
  unfold lastPost
  rw [List.reverse_append, List.reverse_singleton, List.singleton_append, List.find?_cons]
  split <;> simp_all

/-- Only the entry and the requests decide whether a pixel is in step. -/
theorem InStep.congr {u w : Ui} {i : ℕ} (hmatrix : w.matrix i = u.matrix i)
    (hposts : w.posts = u.posts) : InStep w i ↔ InStep u i := by
  unfold InStep
  rw [hmatrix, hposts]

/-- Sending brings the selected pixel in step. -/
theorem InStep.sent_selected {w : Ui} {now : ℤ} {c : LedRgb} (hconnected : w.isSimulating = false)
    (hc : w.matrix w.selectedIndex = some c) : InStep (w.sent now c) w.selectedIndex := by
  refine ⟨⟨c, w.selectedIndex, w.rainbow⟩, ?_, hc⟩
  simp only [Ui.sent, hconnected, Bool.false_eq_true, if_false]
  rw [lastPost_append, if_pos]
  simp [UiPost.addresses]

/-- Sending leaves the other pixels as they are. -/
theorem InStep.sent_other {w : Ui} {now : ℤ} {c : LedRgb} {i : ℕ}
    (hselected : w.selectedIndex < totalPixels) (hi : i ≠ w.selectedIndex) :
    InStep (w.sent now c) i ↔ InStep w i := by
  have hlast : lastPost (w.sent now c).posts i = lastPost w.posts i := by
    cases hsim : w.isSimulating with
    | true => simp [Ui.sent, hsim]
    | false =>
      simp only [Ui.sent, hsim, Bool.false_eq_true, if_false]
      rw [lastPost_append, if_neg]
      simp only [UiPost.addresses, Bool.or_eq_true, beq_iff_eq, not_or]
      exact ⟨Ne.symm hi, by omega⟩
  unfold InStep
  rw [hlast]
  rfl

/-- Debouncing brings the selected pixel in step or sets the timer. -/
theorem InStep.debounced_selected {w : Ui} (now : ℤ) {c : LedRgb}
    (hconnected : w.isSimulating = false) (hc : w.matrix w.selectedIndex = some c) :
    InStep (w.debounced now c) w.selectedIndex ∨ (w.debounced now c).updatePending = true := by
  unfold Ui.debounced
  split
  · exact .inl (InStep.sent_selected (w := { w with updatePending := false }) hconnected hc)
  · exact .inr rfl

/-- Debouncing leaves the other pixels as they are. -/
theorem InStep.debounced_other {w : Ui} {now : ℤ} {c : LedRgb} {i : ℕ}
    (hselected : w.selectedIndex < totalPixels) (hi : i ≠ w.selectedIndex) :
    InStep (w.debounced now c) i ↔ InStep w i := by
  unfold Ui.debounced
  split
  · exact InStep.sent_other (w := { w with updatePending := false }) hselected hi
  · exact InStep.congr rfl rfl

/-- Debouncing selects nothing. -/
theorem Ui.debounced_frame (w : Ui) (now : ℤ) (c : LedRgb) :
    (w.debounced now c).selectedIndex = w.selectedIndex ∧
      (w.debounced now c).matrix = w.matrix ∧
      (w.debounced now c).isSimulating = w.isSimulating := by
  unfold Ui.debounced
  split
  · exact ⟨rfl, rfl, rfl⟩
  · exact ⟨rfl, rfl, rfl⟩

/-! ## The invariant -/

/-- The page is loaded and connected, and every pixel whose entry has changed is
in step, except perhaps the selected one while the timer is set. -/
structure Synced (s : Session) : Prop where
  loaded : Loaded s.ui
  connected : s.ui.isSimulating = false
  /-- At most the selected pixel waits for the timer. -/
  in_step : ∀ i < totalPixels, s.changed i = true →
    InStep s.ui i ∨ (i = s.ui.selectedIndex ∧ s.ui.updatePending = true)

/-- A page just loaded has nothing to send. -/
theorem Synced.initial : Synced (Session.initial false) where
  loaded := Loaded.initial false
  connected := rfl
  in_step _ _ h := by cases h

/-- An entry that a handler has not written has changed only if it had before. -/
theorem Session.changed_of_eq {s : Session} {u : Ui} {threw : Bool} {i : ℕ}
    (h : u.matrix i = s.ui.matrix i) : (s.next threw u).changed i = s.changed i := by
  simp [Session.next, h]

/-- A pixel that is not selected stays in step through an edit of another. -/
theorem Synced.edited {s : Session} (hs : Synced s) {w : Ui} {j : ℕ} (hedited : Edited s.ui w j)
    {i : ℕ} (hi : i < totalPixels) (hij : i ≠ j) (hselected : i ≠ s.ui.selectedIndex)
    (hchanged : s.changed i = true) : InStep w i := by
  rw [InStep.congr (hedited.matrix_eq i hij) hedited.posts_eq]
  rcases hs.in_step i hi hchanged with h | ⟨h, -⟩
  · exact h
  · exact absurd h hselected

/-- A handler that only sends what is selected keeps the page in step. -/
theorem Synced.send {s : Session} (hs : Synced s) {w : Ui} {now : ℤ} {c : LedRgb}
    (hedited : Edited s.ui w s.ui.selectedIndex) (hc : w.matrix s.ui.selectedIndex = some c) :
    Synced (s.next false (w.sent now c)) := by
  have hloaded := hedited.loaded hs.loaded.selected_lt hs.loaded
  have hconnected := hedited.simulating_eq.trans hs.connected
  rw [← hedited.selected_eq] at hc
  refine ⟨hloaded.sent, hconnected, ?_⟩
  intro i hi hchanged
  left
  by_cases hselected : i = w.selectedIndex
  · rw [hselected]
    exact InStep.sent_selected hconnected hc
  · have hother : i ≠ s.ui.selectedIndex := hedited.selected_eq ▸ hselected
    rw [Session.changed_of_eq (u := w.sent now c) (hedited.matrix_eq i hother)] at hchanged
    exact (InStep.sent_other hloaded.selected_lt hselected).mpr
      (hs.edited hedited hi hother hother hchanged)

/-- A handler keeps in step that sends the selected entry at once or later, after
writing an entry `j`, provided that `j` is selected or in step by then. -/
theorem Synced.debounce {s : Session} (hs : Synced s) {w : Ui} {now : ℤ} {c : LedRgb} {j : ℕ}
    (hj : j < totalPixels) (hedited : Edited s.ui w j) (hc : w.matrix s.ui.selectedIndex = some c)
    (hwritten : j ≠ s.ui.selectedIndex →
      (s.next false (w.debounced now c)).changed j = true → InStep w j) :
    Synced (s.next false (w.debounced now c)) := by
  have hloaded := hedited.loaded hj hs.loaded
  have hconnected := hedited.simulating_eq.trans hs.connected
  obtain ⟨hselected_eq, hmatrix, hsim⟩ := w.debounced_frame now c
  rw [← hedited.selected_eq] at hc
  refine ⟨hloaded.debounced, hsim.trans hconnected, ?_⟩
  intro i hi hchanged
  by_cases hselected : i = w.selectedIndex
  · rw [hselected]
    rcases InStep.debounced_selected now hconnected hc with h | h
    · exact .inl h
    · exact .inr ⟨hselected_eq.symm, h⟩
  · have hother : i ≠ s.ui.selectedIndex := hedited.selected_eq ▸ hselected
    left
    apply (InStep.debounced_other hloaded.selected_lt hselected).mpr
    by_cases hij : i = j
    · subst hij
      exact hwritten hother hchanged
    · have hsame : (w.debounced now c).matrix i = s.ui.matrix i := by
        rw [hmatrix]
        exact hedited.matrix_eq i hij
      rw [Session.changed_of_eq hsame] at hchanged
      exact hs.edited hedited hi hij hother hchanged

/-- **One event** that leaves nothing behind keeps the page in step. -/
theorem Synced.step {s t : Session} {e : UiEvent × ℤ} (hs : Synced s) (he : s.LeavesNothing e)
    (hstep : s.step e = some t) : Synced t := by
  have hfill : ¬ e.1.IsFill := by
    rintro (h | h)
    · simp [Session.LeavesNothing, h] at he
    · simp [Session.LeavesNothing, h] at he
  obtain ⟨v, heffect, rfl⟩ := Session.step_effect hs.loaded hfill hstep
  have hloaded := heffect.loaded hs.loaded
  cases heffect with
  | quiet hmatrix hselected hposts hsim hpending =>
    refine ⟨hloaded, hsim.trans hs.connected, fun i hi hchanged => ?_⟩
    rw [Session.changed_of_eq (congrFun hmatrix i)] at hchanged
    rcases hs.in_step i hi hchanged with h | ⟨h, h'⟩
    · exact .inl ((InStep.congr (congrFun hmatrix i) hposts).mpr h)
    · exact .inr ⟨h.trans hselected.symm, hpending.trans h'⟩
  | select idx hclick hselected hmatrix hposts hsim hpending =>
    refine ⟨hloaded, hsim.trans hs.connected, fun i hi hchanged => ?_⟩
    rw [Session.changed_of_eq (congrFun hmatrix i)] at hchanged
    simp only [Session.LeavesNothing, hclick] at he
    rcases hs.in_step i hi hchanged with h | ⟨h, h'⟩
    · exact .inl ((InStep.congr (congrFun hmatrix i) hposts).mpr h)
    · by_cases hsame : (idx : ℕ) = s.ui.selectedIndex
      · exact .inr ⟨h.trans (hsame.symm.trans hselected.symm), hpending.trans h'⟩
      · -- The timer is set and another pixel selected: the old one had nothing to send.
        have hsent : InStep s.ui i := by
          by_contra hunsent
          exact he h' hsame (h ▸ ⟨hchanged, hunsent⟩)
        exact .inl ((InStep.congr (congrFun hmatrix i) hposts).mpr hsent)
  | send hedited hc => exact hs.send hedited hc
  | debounce hedited hc =>
    exact hs.debounce hs.loaded.selected_lt hedited hc fun h => absurd rfl h
  | @paint w c idx hpaint hdown hmode hedited hidx hc =>
    refine hs.debounce idx.isLt hedited hc fun hother hchanged => ?_
    simp only [Session.LeavesNothing, hpaint] at he
    rcases he hdown hmode hother with hsame | hposted
    · -- The colour is the one shown already, so the entry has not changed now.
      have heq : w.matrix idx = s.ui.matrix idx := hidx.trans hsame.symm
      have hframe := (w.debounced_frame e.2 c).2.1
      rw [Session.changed_of_eq ((congrFun hframe idx).trans heq)] at hchanged
      rw [InStep.congr heq hedited.posts_eq]
      rcases hs.in_step idx idx.isLt hchanged with h | ⟨h, -⟩
      · exact h
      · exact absurd h hother
    · obtain ⟨post, hpost, hcolor⟩ := Option.map_eq_some_iff.mp hposted
      exact ⟨post, by rw [hedited.posts_eq, hpost], by rw [hidx, hcolor]⟩

/-- **When the page and the strip stay in step.** In every run from the loaded
page, connected to the server, whose events leave nothing behind: whenever no
timer is set and the rainbow is off, the last request for every pixel whose
entry has changed carries the colour of its entry. -/
theorem pixels_in_step (es : List (UiEvent × ℤ)) (s : Session)
    (hleaves : Runs.Along Session.step Session.LeavesNothing (Session.initial false) es)
    (hrun : Runs.exec Session.step (Session.initial false) es = some s) : s.PixelsInStep := by
  have hs : Synced s := Runs.exec_invariant
    (fun s e t he hs hstep => Synced.step hs he hstep) hleaves Synced.initial hrun
  intro hpending _ i hi hchanged
  rcases hs.in_step i hi hchanged with h | ⟨-, hset⟩
  · exact h
  · exact absurd (hpending.symm.trans hset) (by decide)

/-- A slider is moved at rest, and another pixel is selected and given a colour. -/
def calmRun : List (UiEvent × ℤ) :=
  [(.slider .r 9, 1000), (.click ⟨7, by decide⟩, 1010), (.preset "#0000ff", 1020)]

/-- The page and the strip are in step after the run without lost edits. -/
theorem pixels_in_step_calmRun :
    ∃ s, Runs.exec Session.step (Session.initial false) calmRun = some s ∧ s.PixelsInStep := by
  have hsome : (Runs.exec Session.step (Session.initial false) calmRun).isSome = true := by
    decide
  obtain ⟨s, hs⟩ := Option.isSome_iff_exists.mp hsome
  refine ⟨s, hs, pixels_in_step calmRun s ?_ hs⟩
  refine ⟨trivial, fun t ht => ⟨?_, fun t' ht' => ⟨trivial, fun _ _ => trivial⟩⟩⟩
  -- The slider is sent at once, so no timer is set when the other pixel is selected.
  obtain rfl := Option.some.inj ht
  intro hpending
  exact absurd hpending (by decide)

/-- A pixel is painted by dragging over it while another is selected. -/
def paintRun : List (UiEvent × ℤ) :=
  [(.slider .r 9, 1000), (.toolPaint, 1500), (.mousedown, 1500),
    (.mouseover ⟨5, by decide⟩, 2000)]

/-- Afterwards no timer is set and the rainbow is off, the entry of the painted
pixel has changed, and no request has ever addressed it. -/
theorem paintRun_unsent :
    ∃ s, Runs.exec Session.step (Session.initial false) paintRun = some s ∧
      (s.ui.updatePending = false ∧ s.ui.rainbow = false ∧ s.changed 5 = true ∧
        s.ui.matrix 5 = some ⟨9, 0, 0⟩ ∧ lastPost s.ui.posts 5 = none) ∧ ¬ s.PixelsInStep := by
  have hend : (Runs.exec Session.step (Session.initial false) paintRun).map (fun s =>
      (s.ui.updatePending, s.ui.rainbow, s.changed 5, s.ui.matrix 5, lastPost s.ui.posts 5)) =
        some (false, false, true, some ⟨9, 0, 0⟩, none) := by
    decide
  obtain ⟨s, hrun, hs⟩ := Option.map_eq_some_iff.mp hend
  simp only [Prod.mk.injEq] at hs
  obtain ⟨hpending, hrainbow, hchanged, hcolor, hlast⟩ := hs
  refine ⟨s, hrun, ⟨hpending, hrainbow, hchanged, hcolor, hlast⟩, fun hsynced => ?_⟩
  obtain ⟨post, hpost, -⟩ := hsynced hpending hrainbow 5 (by decide) hchanged
  exact absurd (hlast.symm.trans hpost) (by simp)

end LedMatrix
