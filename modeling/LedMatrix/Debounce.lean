import LedMatrix.WebUiSafety

/-!
# How often the page sends

`debouncedSendUpdate` sends at once when the last request is long enough ago, and
otherwise sets a timer for the rest of the delay. The other senders do not wait, and leave
the timer alone. So the number of requests in a stretch of time is bounded by its length
and by the events that send at once.
-/

namespace LedMatrix

/-! ## What an event does to the timer -/

/-- The state that a handler leaves, whether it throws or not. -/
def leftState : Except Ui Ui → Ui
  | .ok u => u
  | .error u => u

/-- Nothing is sent, and the timer is left alone. -/
structure NotSent (u w : Ui) : Prop where
  last_eq : w.lastSentTimestamp = u.lastSentTimestamp
  pending_eq : w.updatePending = u.updatePending
  posts_eq : w.posts = u.posts

/-- `sendUpdateNow` is called, and the timer is set afterwards or not. -/
structure SentAt (u : Ui) (now : ℤ) (pending : Bool) (w : Ui) : Prop where
  last_eq : w.lastSentTimestamp = now
  pending_eq : w.updatePending = pending
  /-- The request may not be sent after all: in simulation, or when the handler throws. -/
  posts_le : w.posts.length ≤ u.posts.length + 1

/-- `debouncedSendUpdate` is called. -/
inductive Debounced (u : Ui) (now : ℤ) (w : Ui) : Prop
  | sent (hlong : debounceDelay ≤ now - u.lastSentTimestamp) (h : SentAt u now false w)
  | delayed (hshort : now - u.lastSentTimestamp < debounceDelay)
      (hlast : w.lastSentTimestamp = u.lastSentTimestamp) (hpending : w.updatePending = true)
      (hposts : w.posts = u.posts)

/-- How an event comes to a request. -/
inductive SendKind
  /-- `debouncedSendUpdate` is called. -/
  | debounced
  /-- `sendUpdateNow` is called at once, unless the handler throws before. -/
  | atOnce
  /-- The timer fires. -/
  | timer
  | silent
  deriving DecidableEq

/-- How the event comes to a request, on the page in this state. -/
def UiEvent.kind (u : Ui) : UiEvent → SendKind
  | .slider _ _ => .debounced
  | .colorPickerInput hex => if (hexToRgb hex).isSome then .debounced else .silent
  | .mouseover _ => if u.isMouseDown && u.paintMode then .debounced else .silent
  | .preset hex => if (hexToRgb hex).isSome then .atOnce else .silent
  | .toolFillAll | .toolClearAll | .rainbowToggle | .colorPickerChange => .atOnce
  | .timeout => .timer
  | .mousedown | .mouseup | .click _ | .toolPaint => .silent

/-- What an event of this kind does to the requests and the timer. -/
def Traffic (u : Ui) (now : ℤ) (w : Ui) : SendKind → Prop
  | .debounced => Debounced u now w
  | .atOnce => NotSent u w ∨ SentAt u now u.updatePending w
  | .timer => SentAt u now false w
  | .silent => NotSent u w

/-- `sendUpdateNow` sends or throws. -/
theorem sendUpdateNow_sentAt (u : Ui) (now : ℤ) :
    SentAt u now u.updatePending (leftState (sendUpdateNow now u)) := by
  cases hc : u.matrix u.selectedIndex with
  | none =>
    rw [sendUpdateNow_of_none hc]
    exact ⟨rfl, rfl, Nat.le_succ _⟩
  | some c =>
    rw [sendUpdateNow_of_some now hc]
    refine ⟨rfl, rfl, ?_⟩
    simp only [leftState, Ui.sent]
    split
    · exact Nat.le_succ _
    · exact Nat.le_of_eq List.length_append

/-- What is sent from a state with the same requests is sent from this one. -/
theorem SentAt.of_posts_eq {u v w : Ui} {now : ℤ} {pending : Bool} (h : SentAt v now pending w)
    (hposts : v.posts = u.posts) : SentAt u now pending w :=
  ⟨h.last_eq, h.pending_eq, hposts ▸ h.posts_le⟩

/-- `debouncedSendUpdate`, in a state with the same requests and the same timestamp. -/
theorem debouncedSendUpdate_debounced {u v : Ui} (now : ℤ)
    (hlast : v.lastSentTimestamp = u.lastSentTimestamp) (hposts : v.posts = u.posts) :
    Debounced u now (leftState (debouncedSendUpdate now v)) := by
  by_cases hlong : debounceDelay ≤ now - v.lastSentTimestamp
  · simp only [debouncedSendUpdate, if_pos hlong]
    have hsent := sendUpdateNow_sentAt { v with updatePending := false } now
    exact .sent (hlast ▸ hlong) (hsent.of_posts_eq hposts)
  · simp only [debouncedSendUpdate, if_neg hlong]
    exact .delayed (by omega) hlast rfl hposts

/-- Reading an entry changes nothing. -/
theorem updateUI_notSent (u : Ui) : NotSent u (leftState (updateUI u)) := by
  unfold updateUI readPixel
  cases u.matrix u.selectedIndex <;> exact ⟨rfl, rfl, rfl⟩

/-- A slider debounces. -/
theorem handleSliderInput_debounced (u : Ui) (sliders : LedRgb) (now : ℤ) :
    Debounced u now (leftState (handleSliderInput now { u with sliders := sliders })) := by
  let v : Ui := { u with sliders := sliders, rainbow := false }.setPixel u.selectedIndex sliders
  have hc : v.matrix v.selectedIndex = some sliders := by simp [v, Ui.setPixel]
  have hdom : updatePixelDOM v.selectedIndex v = .ok v := updatePixelDOM_of_some hc
  have hui := updateUIValuesOnly_of_some hc
  have hhandle : handleSliderInput now { u with sliders := sliders } =
      debouncedSendUpdate now v := by
    change (updatePixelDOM v.selectedIndex v).bind _ = _
    simp only [hdom, Except.bind, bind, hui]
  rw [hhandle]
  exact debouncedSendUpdate_debounced now rfl rfl

/-- Painting debounces. -/
theorem paintPixel_debounced (u : Ui) (idx : ℕ) (color : LedRgb) (now : ℤ) :
    Debounced u now (leftState (paintPixel idx color now u)) := by
  have hc : (u.setPixel idx color).matrix idx = some color := by simp [Ui.setPixel]
  have hhandle : paintPixel idx color now u = debouncedSendUpdate now (u.setPixel idx color) := by
    simp only [paintPixel, updatePixelDOM_of_some hc, bind, Except.bind]
    split_ifs with hselected
    · rw [hselected] at hc
      rw [hselected, updateUI_of_some hc]
    · rfl
  rw [hhandle]
  exact debouncedSendUpdate_debounced now rfl rfl

/-- A preset sends at once. -/
theorem presetClick_sentAt (u : Ui) {hex : String} {rgb : LedRgb} (hhex : hexToRgb hex = some rgb)
    (now : ℤ) : SentAt u now u.updatePending (leftState (presetClick hex now u)) := by
  have hc := (Edited.choose u rgb).2
  have hsend := sendUpdateNow_of_some now hc
  have hhandle : presetClick hex now u = sendUpdateNow now (u.choose rgb) := by
    rw [hsend, presetClick, hhex]
    exact Ui.choose_bind (updateUI_of_some hc) hsend
  rw [hhandle]
  exact (sendUpdateNow_sentAt (u.choose rgb) now).of_posts_eq rfl

/-- The colour picker debounces. -/
theorem colorPickerInput_debounced (u : Ui) {hex : String} {rgb : LedRgb}
    (hhex : hexToRgb hex = some rgb) (now : ℤ) :
    Debounced u now (leftState (colorPickerInput hex now u)) := by
  have hc := (Edited.choose u rgb).2
  have hsend := debouncedSendUpdate_of_some now hc
  have hhandle : colorPickerInput hex now u = debouncedSendUpdate now (u.choose rgb) := by
    rw [hsend, colorPickerInput, hhex]
    exact Ui.choose_bind (updateUIValuesOnly_of_some hc) hsend
  rw [hhandle]
  exact debouncedSendUpdate_debounced now rfl rfl

/-- The rainbow toggle sends at once, or throws. -/
theorem rainbowToggle_traffic (u : Ui) (now : ℤ) :
    NotSent u (leftState (rainbowToggle now u)) ∨
      SentAt u now u.updatePending (leftState (rainbowToggle now u)) := by
  let v : Ui := { u with rainbow := !u.rainbow }
  have hhandle : rainbowToggle now u = (updateUI v).bind (sendUpdateNow now) := rfl
  rw [hhandle]
  cases hc : u.matrix u.selectedIndex with
  | none =>
    left
    have hthrows : updateUI v = .error v := by simp [updateUI, readPixel, v, hc]
    rw [hthrows]
    exact ⟨rfl, rfl, rfl⟩
  | some c =>
    right
    rw [updateUI_of_some (u := v) hc]
    exact (sendUpdateNow_sentAt v now).of_posts_eq rfl

/-- Fill All and Clear All send at once. -/
theorem fillMatrix_sentAt (u : Ui) (color : LedRgb) (now : ℤ) :
    SentAt u now u.updatePending (leftState (fillMatrix color u >>= fun w =>
      sendUpdateNow now { w with selectedIndex := totalPixels })) := by
  rw [fillMatrix_eq]
  let w : Ui :=
    { u with
      matrix := fun i => if i < totalPixels then some color else u.matrix i
      selectedIndex := totalPixels }
  exact (sendUpdateNow_sentAt w now).of_posts_eq rfl

/-- **What an event does to the requests and the timer**, whether or not its handler
throws. -/
theorem UiEvent.handle_traffic (u : Ui) (e : UiEvent) (now : ℤ) :
    Traffic u now (leftState (e.handle now u)) (e.kind u) := by
  cases e with
  | mousedown => exact ⟨rfl, rfl, rfl⟩
  | mouseup => exact ⟨rfl, rfl, rfl⟩
  | toolPaint => exact ⟨rfl, rfl, rfl⟩
  | click idx =>
    simp only [UiEvent.handle, selectPixel, kind, Traffic, readPixel]
    cases hc : u.matrix idx with
    | none => exact ⟨rfl, rfl, rfl⟩
    | some c =>
      obtain ⟨hlast, hpending, hposts⟩ :=
        updateUI_notSent { u with selectedIndex := idx, sliders := c }
      exact ⟨hlast, hpending, hposts⟩
  | mouseover idx =>
    simp only [UiEvent.handle, LedMatrix.mouseover, kind]
    split_ifs
    · exact paintPixel_debounced u idx _ now
    · exact ⟨rfl, rfl, rfl⟩
  | toolFillAll => exact .inr (fillMatrix_sentAt u _ now)
  | toolClearAll => exact .inr (fillMatrix_sentAt u _ now)
  | slider channel value => exact handleSliderInput_debounced u _ now
  | rainbowToggle => exact rainbowToggle_traffic u now
  | preset hex =>
    cases hhex : hexToRgb hex with
    | none =>
      simp only [UiEvent.handle, presetClick, kind, hhex]
      exact ⟨rfl, rfl, rfl⟩
    | some rgb =>
      simp only [kind, hhex]
      exact .inr (presetClick_sentAt u hhex now)
  | colorPickerInput hex =>
    cases hhex : hexToRgb hex with
    | none =>
      simp only [UiEvent.handle, LedMatrix.colorPickerInput, kind, hhex]
      exact ⟨rfl, rfl, rfl⟩
    | some rgb =>
      simp only [kind, hhex]
      exact colorPickerInput_debounced u hhex now
  | colorPickerChange => exact .inr (sendUpdateNow_sentAt u now)
  | timeout => exact (sendUpdateNow_sentAt { u with updatePending := false } now).of_posts_eq rfl

/-! ## The clock -/

/-- The page with its clock and the time for which its timer is set. -/
structure TimedSession where
  session : Session
  /-- The time of the last event. -/
  clock : ℤ
  /-- When the timer is due, if one is set. -/
  due : ℤ

/-- A page loaded at some time. -/
def TimedSession.initial (isSimulating : Bool) (clock : ℤ) : TimedSession :=
  ⟨.initial isSimulating, clock, 0⟩

/-- One event at a time, and no timer fires before it is due. An event that debounces
sets it, if at all, for the rest of the delay since the last request. -/
def TimedSession.step (s : TimedSession) (e : UiEvent × ℤ) : Option TimedSession :=
  if e.2 < s.clock ∨ e.1 = .timeout ∧ e.2 < s.due then none
  else (s.session.step e).map fun t =>
    { session := t
      clock := e.2
      due :=
        if e.1.kind s.session.ui = .debounced then
          e.2 + (debounceDelay - (e.2 - s.session.ui.lastSentTimestamp))
        else s.due }

/-- What a step says about time and traffic. -/
theorem TimedSession.step_traffic {s t : TimedSession} {e : UiEvent × ℤ} (h : s.step e = some t) :
    (s.clock ≤ e.2 ∧ t.clock = e.2) ∧ (e.1 = .timeout → s.due ≤ e.2) ∧
      t.due = (if e.1.kind s.session.ui = .debounced then
        e.2 + (debounceDelay - (e.2 - s.session.ui.lastSentTimestamp)) else s.due) ∧
      (e.1 = .timeout → s.session.ui.updatePending = true) ∧
      Traffic s.session.ui e.2 t.session.ui (e.1.kind s.session.ui) := by
  unfold step at h
  by_cases hguard : e.2 < s.clock ∨ e.1 = .timeout ∧ e.2 < s.due
  · rw [if_pos hguard] at h
    cases h
  rw [if_neg hguard] at h
  obtain ⟨u, hu, rfl⟩ := Option.map_eq_some_iff.mp h
  have htraffic := UiEvent.handle_traffic s.session.ui e.1 e.2
  have hleft : u.ui = leftState (e.1.handle e.2 s.session.ui) := by
    rcases Session.step_cases hu with ⟨v, hv, rfl⟩ | ⟨v, hv, rfl⟩
    · rw [hv]
      rfl
    · rw [hv]
      rfl
  rw [← hleft] at htraffic
  refine ⟨⟨by omega, rfl⟩, fun he => ?_, rfl, fun he => ?_, htraffic⟩
  · by_contra hearly
    exact hguard (.inr ⟨he, by omega⟩)
  · unfold Session.step at hu
    by_contra hpending
    rw [if_pos ⟨he, by simpa using hpending⟩] at hu
    cases hu

/-- The timer is set for less than the delay after the last request, which has been sent
since. -/
def TimedSession.SetEarly (s : TimedSession) : Prop :=
  s.session.ui.updatePending = true ∧ s.due < s.session.ui.lastSentTimestamp + debounceDelay

instance (s : TimedSession) : Decidable s.SetEarly := inferInstanceAs (Decidable (_ ∧ _))

/-- The time that the requests take: the delay for each of them, less the time passed
since `start` up to the last, and the delay once more while a timer is set early. -/
def TimedSession.owed (start : ℤ) (s : TimedSession) : ℤ :=
  debounceDelay * s.session.ui.posts.length -
    max s.session.ui.lastSentTimestamp (start - debounceDelay) +
    if s.SetEarly then debounceDelay else 0

/-- The event sends at once. -/
def UiEvent.sendsAtOnce : UiEvent → Bool
  | .toolFillAll | .toolClearAll | .rainbowToggle | .colorPickerChange => true
  | .preset hex => (hexToRgb hex).isSome
  | _ => false

/-- An event sends at once exactly when its kind says so. -/
theorem UiEvent.sendsAtOnce_iff (u : Ui) (e : UiEvent) :
    e.sendsAtOnce = true ↔ e.kind u = .atOnce := by
  cases e with
  | preset hex => cases hhex : (hexToRgb hex).isSome <;> simp [sendsAtOnce, kind, hhex]
  | colorPickerInput hex => cases hhex : (hexToRgb hex).isSome <;> simp [sendsAtOnce, kind, hhex]
  | mouseover idx =>
    cases hpaint : u.isMouseDown && u.paintMode <;> simp [sendsAtOnce, kind, hpaint]
  | _ => simp [sendsAtOnce, kind]

/-- The timer is the only event of the kind of timers. -/
theorem UiEvent.kind_timer {u : Ui} {e : UiEvent} (h : e.kind u = .timer) : e = .timeout := by
  cases e with
  | timeout => rfl
  | preset hex => cases hhex : (hexToRgb hex).isSome <;> simp [kind, hhex] at h
  | colorPickerInput hex => cases hhex : (hexToRgb hex).isSome <;> simp [kind, hhex] at h
  | mouseover idx => cases hpaint : u.isMouseDown && u.paintMode <;> simp [kind, hpaint] at h
  | _ => cases h

/-- An event that sends at once may take the delay twice: for its own request, and for
that of the timer that it leaves set early. -/
def sendCost (e : UiEvent × ℤ) : ℤ := if e.1.sendsAtOnce then 2 * debounceDelay else 0

/-- The costs of some events. -/
theorem sum_sendCost (es : List (UiEvent × ℤ)) :
    (es.map sendCost).sum = 200 * es.countP fun e => e.1.sendsAtOnce := by
  induction es with
  | nil => rfl
  | cons e es ih =>
    rw [List.map_cons, List.sum_cons, ih, List.countP_cons, sendCost]
    have hdelay : debounceDelay = 100 := rfl
    split_ifs <;> omega

/-- No request is later than the clock. -/
def TimedSession.Punctual (start : ℤ) (s : TimedSession) : Prop :=
  s.session.ui.lastSentTimestamp ≤ s.clock ∧ start ≤ s.clock

/-- **One event** owes no more than its cost. -/
theorem TimedSession.step_owed {start : ℤ} {s t : TimedSession} {e : UiEvent × ℤ}
    (hs : s.Punctual start) (h : s.step e = some t) :
    t.Punctual start ∧ t.owed start ≤ s.owed start + sendCost e := by
  obtain ⟨⟨hclock, hnow⟩, hdue, hset, hpending, htraffic⟩ := TimedSession.step_traffic h
  obtain ⟨hlast, hstart⟩ := hs
  have hcost := UiEvent.sendsAtOnce_iff s.session.ui e.1
  have hdelay : debounceDelay = 100 := rfl
  have hquiet : t.due = s.due → NotSent s.session.ui t.session.ui →
      t.Punctual start ∧ t.owed start = s.owed start := by
    rintro hdue ⟨hsameLast, hsamePending, hsamePosts⟩
    have hearly : t.SetEarly ↔ s.SetEarly := by
      rw [SetEarly, hsameLast, hsamePending, hdue, SetEarly]
    simp only [Punctual, owed, hearly, hsameLast, hsamePosts, and_true]
    omega
  have hfalse : t.session.ui.updatePending = false → ¬ t.SetEarly := by
    rintro hnone ⟨hearly, -⟩
    exact absurd (hnone.symm.trans hearly) (by decide)
  cases hkind : e.1.kind s.session.ui with
  | silent =>
    rw [hkind] at htraffic hset
    obtain ⟨hpunctual, howed⟩ := hquiet hset htraffic
    refine ⟨hpunctual, ?_⟩
    unfold sendCost
    split_ifs <;> omega
  | debounced =>
    rw [hkind, if_pos rfl] at hset
    rw [hkind] at htraffic
    have hfree : sendCost e = 0 := by
      refine if_neg fun hsends => ?_
      cases hkind.symm.trans (hcost.mp hsends)
    cases htraffic with
    | sent hlong hsent =>
      obtain ⟨hsentLast, hsentPending, hposts⟩ := hsent
      simp only [Punctual, owed, if_neg (hfalse hsentPending), hsentLast, hdelay]
      split_ifs <;> omega
    | delayed hshort hsameLast hsetPending hsamePosts =>
      have hearly : ¬ t.SetEarly := by
        rintro ⟨-, hearly⟩
        omega
      simp only [Punctual, owed, if_neg hearly, hsameLast, hsamePosts, hdelay]
      split_ifs <;> omega
  | timer =>
    have htimeout : e.1 = .timeout := UiEvent.kind_timer hkind
    have hdueNow := hdue htimeout
    rw [hkind] at htraffic
    obtain ⟨hsentLast, hsentPending, hposts⟩ := htraffic
    have hfree : sendCost e = 0 := by simp [sendCost, htimeout, UiEvent.sendsAtOnce]
    -- A timer that is not set early fires when the delay has passed.
    by_cases hearly : s.SetEarly
    · simp only [Punctual, owed, if_neg (hfalse hsentPending), if_pos hearly, hsentLast, hdelay]
      omega
    · have hwaited : s.session.ui.lastSentTimestamp + debounceDelay ≤ s.due := by
        by_contra hless
        exact hearly ⟨hpending htimeout, by omega⟩
      simp only [Punctual, owed, if_neg (hfalse hsentPending), if_neg hearly, hsentLast, hdelay]
      omega
  | atOnce =>
    rw [hkind] at htraffic hset
    have hpaid : sendCost e = 200 := if_pos (hcost.mpr hkind)
    rcases htraffic with hnot | ⟨hsentLast, -, hposts⟩
    · obtain ⟨hpunctual, howed⟩ := hquiet hset hnot
      exact ⟨hpunctual, by omega⟩
    · simp only [Punctual, owed, hsentLast, hdelay]
      split_ifs <;> omega

/-- **How often the page sends.** Take any run of the page, connected or simulating, from
a load at a time that is not negative, and any stretch of it that begins with no timer
set. The requests in this stretch, times the delay of 100 ms, are at most its length, the
delay once more, and twice the delay for each event in it that sends at once. -/
theorem requests_limited {isSimulating : Bool} {loaded : ℤ} (hloaded : 0 ≤ loaded)
    {es fs : List (UiEvent × ℤ)} {s t : TimedSession}
    (hs : Runs.exec TimedSession.step (.initial isSimulating loaded) es = some s)
    (hfree : s.session.ui.updatePending = false)
    (ht : Runs.exec TimedSession.step s fs = some t) :
    100 * ((t.session.ui.posts.length : ℤ) - s.session.ui.posts.length) ≤
      t.clock - s.clock + 100 + 200 * fs.countP fun e => e.1.sendsAtOnce := by
  have hinitial : (TimedSession.initial isSimulating loaded).Punctual loaded :=
    ⟨hloaded, Int.le_refl _⟩
  obtain ⟨hpunctual, -⟩ := Runs.exec_potential (TimedSession.owed loaded)
    (fun _ _ _ hu h => TimedSession.step_owed hu h) hinitial hs
  have hstart : s.Punctual s.clock := ⟨hpunctual.1, Int.le_refl _⟩
  obtain ⟨hend, howed⟩ := Runs.exec_potential (TimedSession.owed s.clock)
    (fun _ _ _ hu h => TimedSession.step_owed hu h) hstart ht
  have hdelay : debounceDelay = 100 := rfl
  have hclock := hend.1
  have hmonotone := hend.2
  have hearly : ¬ s.SetEarly := fun h => absurd (hfree.symm.trans h.1) (by decide)
  rw [sum_sendCost] at howed
  simp only [TimedSession.owed, if_neg hearly, hdelay] at howed
  split_ifs at howed <;> omega

/-- A slider is dragged for a quarter of a second: the first of its values is sent at
once, the next ones wait for the timer, and so does the last. -/
def dragRun : List (UiEvent × ℤ) :=
  [(.slider .r 1, 5000), (.slider .r 2, 5030), (.slider .r 3, 5080), (.timeout, 5100),
    (.slider .r 4, 5150), (.timeout, 5200), (.slider .r 5, 5250)]

/-- At most three requests are sent. -/
theorem requests_limited_dragRun :
    ∃ t, Runs.exec TimedSession.step (.initial false 5000) dragRun = some t ∧
      t.session.ui.posts.length ≤ 3 := by
  have hend : (Runs.exec TimedSession.step (.initial false 5000) dragRun).map
      (fun t => t.clock) = some 5250 := by decide
  obtain ⟨t, ht, hclock⟩ := Option.map_eq_some_iff.mp hend
  have hload : Runs.exec TimedSession.step (.initial false 5000) [] =
      some (.initial false 5000) := rfl
  have hlimit := requests_limited (by decide) hload rfl ht
  have hcount : dragRun.countP (fun e => e.1.sendsAtOnce) = 0 := by decide
  have hstart : (TimedSession.initial false 5000).clock = 5000 ∧
      (TimedSession.initial false 5000).session.ui.posts.length = 0 := by decide
  refine ⟨t, ht, ?_⟩
  rw [hcount, hclock, hstart.1, hstart.2] at hlimit
  omega

end LedMatrix
