import LedMatrix.System

/-!
# What reaches the LED thread

`led_sub` is a subscriber: its queue holds references to the channel, and the
thread reads what the channel holds after it has taken one. Messages published
faster than they are read are therefore overwritten and the last one is handled
repeatedly. A read is refused while a publish holds the channel; as long as none is
between the notification and the unlock, the thread ends up with the last message.
-/

namespace LedMatrix

variable {cfg : Config} {json : JsonObjParse} {es : List SysEvent} {s : Sys cfg}

/-! ## Publishes and the messages handled -/

/-- The logs of the channel agree with it in every reachable state. -/
theorem Sys.exec_accounted (hrun : Runs.exec (Sys.step cfg json) (Sys.initial cfg) es = some s) :
    OneSlot.Accounted s.bus := by
  obtain ⟨ls, hls⟩ := Sys.exec_channel hrun
  exact (OneSlot.Accounted.initial _ _).exec (c := threadLed cfg) hls

/-- The thread reads an unlocked channel: it handles the last message copied into it. -/
theorem Sys.read_handles (haccounted : OneSlot.Accounted s.bus) {t : Sys cfg}
    (hfree : s.bus.lock = .free) (hread : Sys.step cfg json s (.bus .read) = some t) :
    s.bus.copied.getLast? = some s.bus.current ∧
      t.bus.handled = s.bus.handled ++ [(s.bus.copied.length, s.bus.current)] := by
  obtain ⟨bus, hbus, rfl⟩ := Option.map_eq_some_iff.mp hread
  cases OneSlot.Step.of_step hbus with
  | refuse _ hlocked => exact absurd hfree hlocked
  | handle hreading _ =>
    exact ⟨haccounted.current_eq (haccounted.copied_ne_nil (.inr hreading)), rfl⟩

/-- A publish starts only when nothing is under way: nothing is queued, the channel is not
locked, and the thread waits. -/
def Sys.PacedAt (cfg : Config) (json : JsonObjParse) (s : Sys cfg) (e : SysEvent) : Prop :=
  ∀ l ∈ Sys.labels cfg json s e, OneSlot.PacedAt s.bus l

/-- The event is no read of `led_chan` between the notification of a publish and its
unlock. -/
def Sys.AtomicRead (cfg : Config) (json : JsonObjParse) (s : Sys cfg) (e : SysEvent) : Prop :=
  ∀ l ∈ Sys.labels cfg json s e, OneSlot.AtomicRead s.bus l

instance (s : Sys cfg) (e : SysEvent) : Decidable (Sys.PacedAt cfg json s e) :=
  inferInstanceAs (Decidable (∀ l ∈ _, _))

instance (s : Sys cfg) (e : SysEvent) : Decidable (Sys.AtomicRead cfg json s e) :=
  inferInstanceAs (Decidable (∀ l ∈ _, _))

/-- When every publish of a run starts while nothing is under way, none fails, and in the
end each message has been handled once, in order, or its read was refused, which only one
between its notification and its unlock is. -/
theorem Sys.exec_paced
    (hpaced : Runs.Along (Sys.step cfg json) (Sys.PacedAt cfg json) (Sys.initial cfg) es)
    (hrun : Runs.exec (Sys.step cfg json) (Sys.initial cfg) es = some s) :
    s.bus.rejected = [] ∧ s.bus.gaveUp = [] ∧ (s.bus.AtRest →
      s.bus.accepted.map Prod.snd = s.bus.copied ∧ s.bus.handled.Sublist s.bus.accepted ∧
        (∀ p ∈ s.bus.accepted, p ∈ s.bus.handled ∨ p ∈ s.bus.refused) ∧
        (Runs.Along (Sys.step cfg json) (Sys.AtomicRead cfg json) (Sys.initial cfg) es →
          s.bus.handled = s.bus.accepted)) := by
  obtain ⟨ls, hls, hguard⟩ := Sys.exec_bus (H := OneSlot.PacedAt) (fun _ _ h => h) hpaced hrun
  obtain ⟨hrejected, hgaveUp, hend⟩ :=
    OneSlot.exec_paced (c := threadLed cfg) (by decide) hguard hls
  refine ⟨hrejected, hgaveUp, fun hrest => ?_⟩
  obtain ⟨hcopied, hsublist, hmem⟩ := hend hrest
  refine ⟨hcopied, hsublist, hmem, fun hatomic => ?_⟩
  obtain ⟨ks, hks, hguards⟩ := Sys.exec_bus
    (H := fun u l => OneSlot.PacedAt u l ∧ OneSlot.AtomicRead u l)
    (fun _ _ h l hl => ⟨h.1 l hl, h.2 l hl⟩) (Runs.along_and hpaced hatomic) hrun
  exact OneSlot.exec_paced_handled (c := threadLed cfg) (by decide)
    (Runs.along_mono (fun _ _ h => h.1) hguards) (Runs.along_mono (fun _ _ h => h.2) hguards)
    hks hrest

/-- **What is delivered.** In every run: each publish that has copied its message
succeeds, fails or is still under way; each reference that a publish queued is handled,
refused by a locked channel, taken by the thread, or still queued; publishes succeed in the
order of their copies; what is handled is the last message copied by the time of its read,
in the order of the copies. When each publish starts while nothing is under way, none
fails, and once nothing is under way any more each message published has been handled
once, in order, or its read was refused; and if no read falls between a notification and
its unlock, each has been handled. -/
theorem messages_delivered (hrun : Runs.exec (Sys.step cfg json) (Sys.initial cfg) es = some s) :
    (s.bus.accepted.length + s.bus.rejected.length + s.bus.publishing = s.bus.copied.length ∧
      s.bus.handled.length + s.bus.refused.length + s.bus.taken + s.bus.refs =
        s.bus.accepted.length + s.bus.queuing) ∧
    ((s.bus.accepted.map Prod.fst).Pairwise (· < ·) ∧
      (∀ p ∈ s.bus.handled, 0 < p.1 ∧ s.bus.copied[p.1 - 1]? = some p.2) ∧
      (s.bus.handled.map Prod.fst).Pairwise (· ≤ ·)) ∧
    (∀ t, s.bus.lock = .free → Sys.step cfg json s (.bus .read) = some t →
      s.bus.copied.getLast? = some s.bus.current ∧
        t.bus.handled = s.bus.handled ++ [(s.bus.copied.length, s.bus.current)]) ∧
    (Runs.Along (Sys.step cfg json) (Sys.PacedAt cfg json) (Sys.initial cfg) es →
      s.bus.rejected = [] ∧ s.bus.gaveUp = [] ∧ (s.bus.AtRest →
        s.bus.accepted.map Prod.snd = s.bus.copied ∧ s.bus.handled.Sublist s.bus.accepted ∧
          (∀ p ∈ s.bus.accepted, p ∈ s.bus.handled ∨ p ∈ s.bus.refused) ∧
          (Runs.Along (Sys.step cfg json) (Sys.AtomicRead cfg json) (Sys.initial cfg) es →
            s.bus.handled = s.bus.accepted))) := by
  have haccounted := Sys.exec_accounted hrun
  refine ⟨⟨haccounted.copies_eq, haccounted.refs_eq⟩,
    ⟨haccounted.accepted_ordered, haccounted.handled_copied, haccounted.handled_ordered⟩, ?_, ?_⟩
  · intro t hfree hread
    exact Sys.read_handles haccounted hfree hread
  · intro hpaced
    exact Sys.exec_paced hpaced hrun

/-! ## The latest message wins -/

/-- The mode that a message dictates; TOGGLE dictates none. -/
def LedMsg.dictatedMode (msg : LedMsg) : Option LedMode :=
  match msg.action with
  | .off => some .off
  | .on => some .rainbow
  | .toggle => none
  | .red | .green | .blue => some .solid
  | .custom => if msg.rainbow then some .rainbow else some .solid

/-- The colour that the pixels addressed by a message hold in mode OFF or SOLID. -/
def LedMsg.heldColor (cfg : Config) (msg : LedMsg) : Option LedRgb :=
  if msg.action = .off then some .black else msg.solidColor cfg

/-- The thread obeys a message: it is in the mode that the message dictates, at
its index, and the pixels addressed hold its colour, which a refresh repeats. -/
structure Obeys (msg : LedMsg) (x : ThreadState cfg) : Prop where
  /-- The mode is the dictated one. -/
  mode_eq : msg.dictatedMode = some x.mode
  /-- The index of the message is latched. -/
  index_eq : x.index = msg.index
  /-- The colour is what a refresh draws. -/
  refresh_eq : ∀ color, msg.heldColor cfg = some color →
    (x.mode = .off ∧ color = .black) ∨ (x.mode = .solid ∧ x.solid = color)
  /-- The addressed pixels hold the colour. -/
  pixels_eq : ∀ color, msg.heldColor cfg = some color →
    ∀ p, (hp : p < cfg.stripNumPixels) → Addresses cfg msg.index p → x.pixels[p] = color

/-- A message without a colour is obeyed by mode and index alone. -/
theorem Obeys.of_no_color {msg : LedMsg} {x : ThreadState cfg}
    (hmode : msg.dictatedMode = some x.mode) (hindex : x.index = msg.index)
    (hnone : msg.heldColor cfg = none) : Obeys msg x where
  mode_eq := hmode
  index_eq := hindex
  refresh_eq color hcolor := absurd (hnone.symm.trans hcolor) (by simp)
  pixels_eq color hcolor := absurd (hnone.symm.trans hcolor) (by simp)

/-- A message with a colour is obeyed once this colour is drawn, provided that a
refresh draws it too. -/
theorem Obeys.of_draw {msg : LedMsg} {x : ThreadState cfg} {color : LedRgb}
    (hmode : msg.dictatedMode = some x.mode) (hindex : x.index = msg.index)
    (hheld : msg.heldColor cfg = some color)
    (hrefresh : (x.mode = .off ∧ color = .black) ∨ (x.mode = .solid ∧ x.solid = color)) :
    Obeys msg (x.draw color).1 := by
  refine ⟨hmode, hindex, ?_, ?_⟩
  · intro color' hcolor'
    obtain rfl := Option.some.inj (hheld.symm.trans hcolor')
    exact hrefresh
  · intro color' hcolor' p hp haddressed
    obtain rfl := Option.some.inj (hheld.symm.trans hcolor')
    rw [← hindex] at haddressed
    exact ThreadState.draw_pixels x color hp haddressed

/-- The initial state obeys the initial message of the channel. -/
theorem Obeys.initial (cfg : Config) : Obeys (ledChanInit cfg) (ThreadState.initial cfg) :=
  .of_no_color rfl rfl rfl

/-- The thread obeys a message that it has just handled, unless it is a TOGGLE. -/
theorem Obeys.onMessage (x : ThreadState cfg) {msg : LedMsg} (h : msg.action ≠ .toggle) :
    Obeys msg (x.onMessage msg).1 := by
  have hsolid : ∀ color, msg.dictatedMode = some .solid → msg.heldColor cfg = some color →
      Obeys msg (ThreadState.drawSolid { x with index := msg.index } color).1 := by
    intro color hmode hheld
    exact .of_draw hmode rfl hheld (.inr ⟨rfl, rfl⟩)
  obtain ⟨action, r, g, b, index, rainbow⟩ := msg
  cases action with
  | toggle => exact absurd rfl h
  | off => exact .of_draw rfl rfl rfl (.inl ⟨rfl, rfl⟩)
  | on => exact .of_no_color rfl rfl rfl
  | red => exact hsolid _ rfl rfl
  | green => exact hsolid _ rfl rfl
  | blue => exact hsolid _ rfl rfl
  | custom =>
    cases rainbow with
    | true => exact .of_no_color rfl rfl rfl
    | false => exact hsolid _ rfl rfl

/-- A timeout leaves the thread obeying: it changes neither mode nor index, and a
colour to be held is drawn again. -/
theorem Obeys.onTimeout {msg : LedMsg} {x : ThreadState cfg} (h : Obeys msg x) :
    Obeys msg x.onTimeout.1 := by
  cases hheld : msg.heldColor cfg with
  | none =>
    obtain ⟨hmode, hindex⟩ := x.onTimeout_frame
    apply Obeys.of_no_color _ _ hheld
    · rw [hmode]
      exact h.mode_eq
    · rw [hindex]
      exact h.index_eq
  | some color =>
    have hrefresh := h.refresh_eq color hheld
    have hdraw : x.onTimeout = x.draw color := by
      unfold ThreadState.onTimeout
      rcases hrefresh with ⟨hmode, hblack⟩ | ⟨hmode, hsolid⟩
      · rw [hmode, hblack]
      · rw [hmode, hsolid]
    rw [hdraw]
    exact .of_draw h.mode_eq h.index_eq hheld hrefresh

/-- Any number of timeouts leaves the thread obeying. -/
theorem Obeys.onTimeouts {msg : LedMsg} {x : ThreadState cfg} (h : Obeys msg x) (n : ℕ) :
    Obeys msg ((fun z : ThreadState cfg => z.onTimeout.1)^[n] x) := by
  induction n with
  | zero => exact h
  | succ n ih =>
    rw [Function.iterate_succ_apply']
    exact ih.onTimeout

/-- A message that dictates OFF or SOLID has a colour to hold. -/
theorem LedMsg.heldColor_of_mode (cfg : Config) {msg : LedMsg} {mode : LedMode}
    (hmode : msg.dictatedMode = some mode) (hholds : mode = .off ∨ mode = .solid) :
    ∃ color, msg.heldColor cfg = some color := by
  obtain ⟨action, r, g, b, index, rainbow⟩ := msg
  cases action with
  | off => exact ⟨_, rfl⟩
  | red => exact ⟨_, rfl⟩
  | green => exact ⟨_, rfl⟩
  | blue => exact ⟨_, rfl⟩
  | toggle => cases hmode
  | on =>
    obtain rfl := Option.some.inj hmode
    simp at hholds
  | custom =>
    cases rainbow with
    | false => exact ⟨_, rfl⟩
    | true =>
      obtain rfl := Option.some.inj hmode
      simp at hholds

/-- When nothing is under way after a run in which no read falls between a notification and
its unlock, the latest message has won. -/
theorem Sys.exec_latest
    (hatomic : Runs.Along (Sys.step cfg json) (Sys.AtomicRead cfg json) (Sys.initial cfg) es)
    (hrun : Runs.exec (Sys.step cfg json) (Sys.initial cfg) es = some s) :
    OneSlot.Latest (threadLed cfg) (.initial cfg) s.bus := by
  obtain ⟨ls, hls, hguard⟩ := Sys.exec_bus (H := OneSlot.AtomicRead) (fun _ _ h => h) hatomic hrun
  exact OneSlot.exec_latest (by decide) hguard hls

/-- **The latest command wins.** Let no read fall between the notification of a publish and
its unlock. In every reachable state with nothing queued, no publish under way and the
thread waiting, either no message was ever copied, and the thread is still in its initial
rainbow on all pixels; or the message handled last is the last one copied into the channel,
whether its publish succeeded or not. In the latter case, if it is not a TOGGLE, the mode
is the one it dictates, and in mode OFF or SOLID the pixels it addresses hold its colour
through any number of further timeouts. -/
theorem latest_command_wins
    (hatomic : Runs.Along (Sys.step cfg json) (Sys.AtomicRead cfg json) (Sys.initial cfg) es)
    (hrun : Runs.exec (Sys.step cfg json) (Sys.initial cfg) es = some s)
    (hrest : s.bus.AtRest) :
    (s.bus.copied = [] ∧ s.bus.handled = [] ∧ s.bus.consumer.mode = .rainbow ∧
        s.bus.consumer.index = cfg.allIndex) ∨
      (s.bus.copied.getLast? = some s.bus.current ∧
        s.bus.handled.getLast? = some (s.bus.copied.length, s.bus.current) ∧
        (s.bus.current.action ≠ .toggle →
          s.bus.current.dictatedMode = some s.bus.consumer.mode ∧
            (s.bus.consumer.mode = .off ∨ s.bus.consumer.mode = .solid →
              ∃ color, s.bus.current.heldColor cfg = some color ∧
                ∀ p, (hp : p < cfg.stripNumPixels) → Addresses cfg s.bus.current.index p →
                  ∀ n, ((fun z : ThreadState cfg => z.onTimeout.1)^[n] s.bus.consumer).pixels[p] =
                    color))) := by
  rcases Sys.exec_latest hatomic hrun hrest with
    ⟨hcopied, hhandled, n, hn⟩ | ⟨hlast, hhandled, y, n, hn⟩
  · left
    have hobeys : Obeys (ledChanInit cfg) s.bus.consumer := by
      rw [hn]
      exact (Obeys.initial cfg).onTimeouts n
    exact ⟨hcopied, hhandled, (Option.some.inj hobeys.mode_eq).symm, hobeys.index_eq⟩
  · right
    refine ⟨hlast, hhandled, fun htoggle => ?_⟩
    have hobeys : Obeys s.bus.current s.bus.consumer := by
      rw [hn]
      exact (Obeys.onMessage y htoggle).onTimeouts n
    refine ⟨hobeys.mode_eq, fun hholds => ?_⟩
    obtain ⟨color, hcolor⟩ := LedMsg.heldColor_of_mode cfg hobeys.mode_eq hholds
    refine ⟨color, hcolor, fun p hp haddressed n => ?_⟩
    exact (hobeys.onTimeouts n).pixels_eq color hcolor p hp haddressed

/-! ## Two requests -/

/-- The body of a POST that sets one pixel. -/
def pixelBody : List UInt8 :=
  CText.lit "\x7b\"r\":10,\"g\":0,\"b\":0,\"index\":3,\"rainbow\":false\x7d"

/-- The message of the POST that sets one pixel. -/
def pixelMsg : LedMsg := ⟨.custom, 10, 0, 0, 3, false⟩

/-- The arguments of an MCP call for the action TOGGLE. -/
def toggleCall : List UInt8 := CText.lit "\x7b\"action\":\"toggle\"\x7d"

/-- The message of the MCP call for the action TOGGLE. -/
def toggleMsg : LedMsg := ⟨.toggle, 0, 0, 0, 256, false⟩

/-- The decoder on the texts of the two requests. -/
def decodesTwo : JsonObjParse :=
  .knowing [(pixelBody, ⟨31, ⟨10, 0, 0, 3, false⟩⟩)]
    [(toggleCall, ⟨32, { McpLedArgs.zero with action := some (CText.lit "toggle") },
      CText.lit "\x7b\"action\":\"toggle"⟩)]

/-- A POST that sets a pixel. -/
def pixelPost : Request := .post pixelBody

/-- An MCP call that toggles the strip. -/
def toggleRequest : Request := .call .callRequest (some toggleCall) []

/-- A toggle published before the thread has read the pixel: the pixel's message
is never handled and the toggle is handled twice, although both publishes
succeeded. Five toggles at once: the publish of the fifth fails, and it is
nevertheless handled. -/
theorem messages_overwritten :
    (Runs.exec (Sys.step .default decodesTwo) (Sys.initial .default)
        [.request pixelPost none, .bus .put, .bus .unlock,
          .request toggleRequest (some ⟨true, 0⟩), .bus .put, .bus .unlock,
          .bus .wait, .bus .read, .bus .wait, .bus .read]).map
        (fun s => (s.bus.accepted, s.bus.handled)) =
      some ([(1, pixelMsg), (2, toggleMsg)], [(2, toggleMsg), (2, toggleMsg)]) ∧
    (Runs.exec (Sys.step .default decodesTwo) (Sys.initial .default)
        ((List.replicate 5
            [.request toggleRequest (some ⟨true, 0⟩), .bus .put, .bus .unlock]).flatten ++
          [.bus .wait, .bus .read])).map (fun s => (s.bus.rejected, s.bus.handled)) =
      some ([(5, toggleMsg)], [(5, toggleMsg)]) := by
  constructor <;> rfl

/-- A pixel and then a toggle, each handled before the next comes. -/
def pacedRun : List SysEvent :=
  .request pixelPost none :: handledEvents ++
    .request toggleRequest (some ⟨true, 0⟩) :: handledEvents

/-- The pixel and the toggle are handled, once and in order. -/
theorem messages_delivered_pacedRun :
    ∃ s, Runs.exec (Sys.step .default decodesTwo) (Sys.initial .default) pacedRun = some s ∧
      s.bus.rejected = [] ∧ s.bus.handled = s.bus.accepted ∧
        s.bus.copied = [pixelMsg, toggleMsg] := by
  obtain ⟨s, hs⟩ : ∃ s, Runs.exec (Sys.step .default decodesTwo) (Sys.initial .default)
      pacedRun = some s := ⟨_, rfl⟩
  have hpaced : Runs.Along (Sys.step .default decodesTwo) (Sys.PacedAt .default decodesTwo)
      (Sys.initial .default) pacedRun := by decide +kernel
  have hatomic : Runs.Along (Sys.step .default decodesTwo) (Sys.AtomicRead .default decodesTwo)
      (Sys.initial .default) pacedRun := by decide +kernel
  have hend : s.bus.AtRest ∧ s.bus.copied = [pixelMsg, toggleMsg] := by
    obtain rfl := Option.some.inj hs
    exact ⟨⟨rfl, rfl, rfl⟩, rfl⟩
  obtain ⟨hrejected, -, hdelivered⟩ := (messages_delivered hs).2.2.2 hpaced
  exact ⟨s, hs, hrejected, (hdelivered hend.1).2.2.2 hatomic, hend.2⟩

/-- A toggle, overwritten by a pixel before the thread has read it. -/
def overwrittenRun : List SysEvent :=
  [.request toggleRequest (some ⟨true, 0⟩), .bus .put, .bus .unlock, .request pixelPost none,
    .bus .put, .bus .unlock, .bus .wait, .bus .read, .bus .wait, .bus .read]

/-- The pixel is the message handled last, and the thread is in mode SOLID. -/
theorem latest_command_wins_overwrittenRun :
    ∃ s, Runs.exec (Sys.step .default decodesTwo) (Sys.initial .default) overwrittenRun = some s ∧
      s.bus.handled.getLast? = some (2, pixelMsg) ∧ s.bus.consumer.mode = .solid := by
  obtain ⟨s, hs⟩ : ∃ s, Runs.exec (Sys.step .default decodesTwo) (Sys.initial .default)
      overwrittenRun = some s := ⟨_, rfl⟩
  have hatomic : Runs.Along (Sys.step .default decodesTwo) (Sys.AtomicRead .default decodesTwo)
      (Sys.initial .default) overwrittenRun := by decide +kernel
  have hend : s.bus.AtRest ∧ s.bus.copied = [toggleMsg, pixelMsg] := by
    obtain rfl := Option.some.inj hs
    exact ⟨⟨rfl, rfl, rfl⟩, rfl⟩
  rcases latest_command_wins hatomic hs hend.1 with ⟨hnone, -⟩ | ⟨hlast, hhandled, hmode⟩
  · exact absurd (hend.2.symm.trans hnone) (by simp)
  · rw [hend.2] at hlast hhandled
    obtain hcurrent : pixelMsg = s.bus.current := Option.some.inj hlast
    rw [← hcurrent] at hhandled hmode
    obtain ⟨hdictated, -⟩ := hmode (by decide)
    exact ⟨s, hs, hhandled, (Option.some.inj hdictated).symm⟩

end LedMatrix
