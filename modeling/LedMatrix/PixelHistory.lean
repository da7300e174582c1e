import LedMatrix.BufferBounds
import LedMatrix.Lib.Mealy

/-!
# What the pixels show

`thread_led` draws a colour at the index of a message and repeats it at every
timeout, with the latched index and the latched colour. As long as no message
starts the rainbow, a timeout therefore draws what is there already, and every
pixel shows the last message that addressed it. Mode OFF is a mode of the whole
strip, but only the addressed pixels are made dark.
-/

namespace LedMatrix

open Mealy

variable {cfg : Config}

/-- One iteration of the loop of `thread_led`, with what `led_strip_update_rgb`
returns in it. `led_set` logs and returns this result, and nothing uses it. -/
inductive Iteration
  | message (msg : LedMsg) (updateRc : Int)
  | timeout (updateRc : Int)

/-- The loop body. -/
def ThreadState.iterate (s : ThreadState cfg) : Iteration → ThreadState cfg × List (LedSetCall cfg)
  | .message msg _ => s.onMessage msg
  | .timeout _ => s.onTimeout

/-- Every frame passed to the driver is the whole buffer as it is afterwards. -/
theorem ThreadState.iterate_frame (s : ThreadState cfg) (e : Iteration) :
    ∀ call ∈ (s.iterate e).2, call.frame = (s.iterate e).1.pixels := by
  have hdraw : ∀ (x : ThreadState cfg) (color : LedRgb),
      ∀ call ∈ (x.draw color).2, call.frame = (x.draw color).1.pixels := by
    intro x color call hcall
    obtain rfl := List.mem_singleton.mp hcall
    rfl
  cases e with
  | message msg updateRc =>
    simp only [iterate]
    rcases s.onMessage_cases msg with ⟨h, -⟩ | ⟨h, -⟩ | ⟨color, -, h⟩
    · rw [h]
      simp
    · rw [h]
      exact hdraw _ _
    · rw [h]
      exact hdraw _ _
  | timeout updateRc =>
    simp only [iterate]
    rcases s.onTimeout_cases with ⟨-, h⟩ | ⟨-, h⟩ | ⟨-, h⟩
    · rw [h]
      exact hdraw _ _
    · rw [h]
      exact hdraw _ _
    · rw [h]
      exact hdraw _ _

/-! ## The last writer of a pixel -/

/-- The colour that a message draws: OFF and TOGGLE draw black. -/
def LedMsg.drawnColor (cfg : Config) (msg : LedMsg) : LedRgb := (msg.solidColor cfg).getD .black

/-- The message draws in this state, rather than starting the rainbow, and its
index is in the strip. A TOGGLE draws when the mode is not OFF. -/
def ThreadState.Draws (x : ThreadState cfg) : Iteration → Prop
  | .message msg _ => cfg.InStrip msg.index ∧
      match msg.action with
      | .off | .red | .green | .blue => True
      | .custom => msg.rainbow = false
      | .toggle => x.mode ≠ .off
      | .on => False
  | .timeout _ => True

/-- The colour of the last message that addresses the pixel. -/
def lastDrawn (cfg : Config) (p : ℕ) : List Iteration → Option LedRgb
  | [] => none
  | .message msg _ :: es =>
    (lastDrawn cfg p es).or
      (if Addresses cfg msg.index p then some (msg.drawnColor cfg) else none)
  | .timeout _ :: es => lastDrawn cfg p es

/-- The colour that a timeout would draw is at the latched index already. -/
structure Settled (x : ThreadState cfg) (color : LedRgb) : Prop where
  /-- The mode holds the colour. -/
  held : (x.mode = .off ∧ color = .black) ∨ (x.mode = .solid ∧ x.solid = color)
  /-- The addressed pixels hold it. -/
  pixels_eq : ∀ p, (hp : p < cfg.stripNumPixels) → Addresses cfg x.index p → x.pixels[p] = color

/-- After drawing the colour that its mode holds, the thread is settled. -/
theorem Settled.of_draw (x : ThreadState cfg) {color : LedRgb}
    (h : (x.mode = .off ∧ color = .black) ∨ (x.mode = .solid ∧ x.solid = color)) :
    Settled (x.draw color).1 color :=
  ⟨h, fun _ hp haddressed => ThreadState.draw_pixels x color hp haddressed⟩

/-- A timeout on a settled thread draws the colour again. -/
theorem Settled.onTimeout_eq {x : ThreadState cfg} {color : LedRgb} (h : Settled x color) :
    x.onTimeout = x.draw color := by
  unfold ThreadState.onTimeout
  rcases h.held with ⟨hmode, hblack⟩ | ⟨hmode, hsolid⟩
  · rw [hmode, hblack]
  · rw [hmode, hsolid]

/-- A message that draws writes its colour at its index, and settles the thread. -/
theorem ThreadState.Draws.onMessage {x : ThreadState cfg} {msg : LedMsg} {updateRc : Int}
    (h : x.Draws (.message msg updateRc)) :
    (x.onMessage msg).1.pixels = ledSet cfg (msg.drawnColor cfg) msg.index x.pixels ∧
      Settled (x.onMessage msg).1 (msg.drawnColor cfg) := by
  obtain ⟨-, hdraws⟩ := h
  have hoff : ∀ color, color = LedRgb.black →
      Settled (ThreadState.draw { x with index := msg.index, mode := .off } color).1 color := by
    intro color hcolor
    exact .of_draw _ (.inl ⟨rfl, hcolor⟩)
  have hsolid : ∀ color,
      Settled (ThreadState.drawSolid { x with index := msg.index } color).1 color := by
    intro color
    exact .of_draw _ (.inr ⟨rfl, rfl⟩)
  obtain ⟨action, r, g, b, index, rainbow⟩ := msg
  cases action with
  | off => exact ⟨rfl, hoff _ rfl⟩
  | on => exact hdraws.elim
  | toggle =>
    have hon : x.mode ≠ .off := hdraws
    simp only [ThreadState.onMessage, if_neg hon]
    exact ⟨rfl, hoff _ rfl⟩
  | red => exact ⟨rfl, hsolid _⟩
  | green => exact ⟨rfl, hsolid _⟩
  | blue => exact ⟨rfl, hsolid _⟩
  | custom =>
    obtain rfl : rainbow = false := hdraws
    exact ⟨rfl, hsolid _⟩

/-- What a message has drawn is seen by those who look for the last writer. -/
theorem ThreadState.Draws.getD_lastDrawn {x : ThreadState cfg} {msg : LedMsg} {updateRc : Int}
    (h : x.Draws (.message msg updateRc)) (es : List Iteration) {p : ℕ}
    (hp : p < cfg.stripNumPixels) :
    (lastDrawn cfg p es).getD (x.onMessage msg).1.pixels[p] =
      (lastDrawn cfg p (.message msg updateRc :: es)).getD x.pixels[p] := by
  have hpixel := getElem_ledSet (msg.drawnColor cfg) msg.index x.pixels hp
  simp only [lastDrawn, h.onMessage.1, hpixel]
  cases lastDrawn cfg p es with
  | some c => rfl
  | none => split_ifs <;> rfl

/-- A timeout on a settled thread changes no pixel, and leaves it settled. -/
theorem Settled.onTimeout {x : ThreadState cfg} {color : LedRgb} (h : Settled x color) :
    (∀ p, (hp : p < cfg.stripNumPixels) → x.onTimeout.1.pixels[p] = x.pixels[p]) ∧
      Settled x.onTimeout.1 color := by
  rw [h.onTimeout_eq]
  refine ⟨fun p hp => ?_, .of_draw x h.held⟩
  have hwrite : (x.draw color).1.pixels[p] =
      if Addresses cfg x.index p then color else x.pixels[p] := getElem_ledSet _ _ _ hp
  rw [hwrite]
  split_ifs with haddressed
  · exact (h.pixels_eq p hp haddressed).symm
  · rfl

/-- From a settled thread: every pixel ends up with the colour of the last message
that addresses it. The induction is on the run; `color` is what is held now. -/
theorem Settled.final_pixels {x : ThreadState cfg} {color : LedRgb} (h : Settled x color)
    {es : List Iteration} (hdraws : Guarded ThreadState.iterate ThreadState.Draws x es) {p : ℕ}
    (hp : p < cfg.stripNumPixels) :
    (final ThreadState.iterate x es).pixels[p] = (lastDrawn cfg p es).getD x.pixels[p] := by
  induction es generalizing x color with
  | nil => rfl
  | cons e es ih =>
    obtain ⟨he, hes⟩ := guarded_cons.mp hdraws
    rw [final_cons]
    cases e with
    | timeout updateRc =>
      obtain ⟨hsame, hsettled⟩ := h.onTimeout
      have hrest := ih hsettled hes
      rw [hsame p hp] at hrest
      exact hrest
    | message msg updateRc =>
      obtain ⟨-, hsettled⟩ := he.onMessage
      exact (ih hsettled hes).trans (he.getD_lastDrawn es hp)

/-- **Last writer wins.** For every start state and every run that begins with a
message and whose messages all draw, with any timeouts in between and whatever
the driver returns: each pixel ends up with the colour of the last message that
addresses it, or with its start colour if there is none, and each frame passed to
the driver is the whole buffer as it is then. -/
theorem last_writer_wins (x : ThreadState cfg) (msg : LedMsg) (updateRc : Int)
    (es : List Iteration)
    (hdraws : Guarded ThreadState.iterate ThreadState.Draws x (.message msg updateRc :: es)) :
    (∀ p, (hp : p < cfg.stripNumPixels) →
      (final ThreadState.iterate x (.message msg updateRc :: es)).pixels[p] =
        (lastDrawn cfg p (.message msg updateRc :: es)).getD x.pixels[p]) ∧
    ∀ o ∈ run ThreadState.iterate x (.message msg updateRc :: es),
      ∀ call ∈ o.2, call.frame = o.1.pixels := by
  obtain ⟨hmsg, hes⟩ := guarded_cons.mp hdraws
  obtain ⟨-, hsettled⟩ := hmsg.onMessage
  constructor
  · intro p hp
    rw [final_cons]
    exact (hsettled.final_pixels hes hp).trans (hmsg.getD_lastDrawn es hp)
  · refine run_invariant (R := fun _ => True) ?_ trivial _
    intro s e _
    exact ⟨trivial, s.iterate_frame e⟩

/-- A run of three messages: all pixels red, pixel 3 green, pixel 4 OFF. -/
def paintedRun : List Iteration :=
  [.timeout (-5), .message ⟨.custom, 0, 9, 0, 3, false⟩ (-5), .message ⟨.off, 0, 0, 0, 4, false⟩ 0,
    .timeout 0]

/-- After all pixels are made red, each one shows the last message for it. -/
theorem last_writer_wins_paintedRun :
    (final ThreadState.iterate (.initial .default)
        (.message ⟨.red, 0, 0, 0, 256, false⟩ 0 :: paintedRun)).pixels =
      Vector.ofFn fun p =>
        if p.val = 4 then .black else if p.val = 3 then ⟨0, 9, 0⟩ else ⟨15, 0, 0⟩ := by
  have hdraws : Guarded ThreadState.iterate ThreadState.Draws (.initial .default)
      (.message ⟨.red, 0, 0, 0, 256, false⟩ 0 :: paintedRun) := by
    simp only [paintedRun, guarded_cons, guarded_nil, ThreadState.Draws, Config.InStrip]
    decide
  apply Vector.ext
  intro p hp
  have hlast : lastDrawn .default p (.message ⟨.red, 0, 0, 0, 256, false⟩ 0 :: paintedRun) =
      some (if p = 4 then .black else if p = 3 then ⟨0, 9, 0⟩ else ⟨15, 0, 0⟩) := by
    have hred : Addresses .default 256 p := .inl rfl
    have hgreen : Addresses .default 3 p ↔ p = 3 := by simp [Addresses, Config.default, eq_comm]
    have hoff : Addresses .default 4 p ↔ p = 4 := by simp [Addresses, Config.default, eq_comm]
    simp only [lastDrawn, paintedRun, hred, hgreen, hoff]
    split_ifs <;> rfl
  rw [(last_writer_wins _ _ _ _ hdraws).1 p hp, hlast, Vector.getElem_ofFn]
  rfl

/-! ## Mode OFF -/

/-- The pixels that the index addresses are dark. -/
def DarkAt (x : ThreadState cfg) (index : UInt16) : Prop :=
  ∀ p, (hp : p < cfg.stripNumPixels) → Addresses cfg index p → x.pixels[p] = .black

/-- An iteration that ends in mode OFF draws black at the latched index. -/
theorem ThreadState.iterate_off {x : ThreadState cfg} {e : Iteration}
    (h : (x.iterate e).1.mode = .off) :
    (x.iterate e).1.pixels = ledSet cfg .black (x.iterate e).1.index x.pixels := by
  cases e with
  | message msg updateRc =>
    simp only [iterate] at h ⊢
    rcases x.onMessage_cases msg with ⟨hx, -⟩ | ⟨hx, -⟩ | ⟨color, -, hx⟩
    · rw [hx] at h
      cases h
    · rw [hx]
      rfl
    · rw [hx] at h
      cases h
  | timeout updateRc =>
    simp only [iterate] at h ⊢
    rw [x.onTimeout_frame.1] at h
    simp only [onTimeout, h]
    rfl

/-- An iteration that leaves the mode OFF darkens the latched index, and what was dark before
stays dark. -/
theorem DarkAt.of_off {x : ThreadState cfg} {e : Iteration} (h : (x.iterate e).1.mode = .off) :
    DarkAt (x.iterate e).1 (x.iterate e).1.index ∧
      ∀ index, DarkAt x index → DarkAt (x.iterate e).1 index := by
  have hpixels := ThreadState.iterate_off h
  have hpixel : ∀ p, (hp : p < cfg.stripNumPixels) → (x.iterate e).1.pixels[p] =
      if Addresses cfg (x.iterate e).1.index p then LedRgb.black else x.pixels[p] := by
    intro p hp
    simp only [hpixels]
    exact getElem_ledSet _ _ _ hp
  constructor
  · intro p hp haddressed
    rw [hpixel p hp, if_pos haddressed]
  · intro index hdark p hp haddressed
    rw [hpixel p hp]
    split_ifs
    · rfl
    · exact hdark p hp haddressed

/-- A message that ends in mode OFF darkens the pixels that it addresses. -/
theorem DarkAt.of_message {x : ThreadState cfg} {msg : LedMsg}
    (h : (x.onMessage msg).1.mode = .off) : DarkAt (x.onMessage msg).1 msg.index := by
  have hdark := (DarkAt.of_off (x := x) (e := .message msg 0) h).1
  have hindex : (x.iterate (.message msg 0)).1.index = msg.index := (x.onMessage_index msg).1
  rwa [hindex] at hdark

/-- What is dark stays dark as long as the mode stays OFF. -/
theorem DarkAt.of_stays_off {x : ThreadState cfg} {index : UInt16} (hdark : DarkAt x index)
    {es : List Iteration}
    (hoff : ∀ pre, pre ≠ [] → pre <+: es → (final ThreadState.iterate x pre).mode = .off) :
    DarkAt (final ThreadState.iterate x es) index := by
  induction es generalizing x with
  | nil => exact hdark
  | cons e es ih =>
    have hfirst : (x.iterate e).1.mode = .off := hoff [e] (by simp) (by simp)
    apply ih ((DarkAt.of_off hfirst).2 index hdark)
    intro pre _ hpre
    exact hoff (e :: pre) (by simp) (List.cons_prefix_cons.mpr ⟨rfl, hpre⟩)

/-- A TOGGLE switches the rainbow on exactly when the mode is OFF, and draws
nothing then; otherwise it switches to OFF and darkens the pixels that it addresses. -/
theorem ThreadState.onMessage_toggle (x : ThreadState cfg) {msg : LedMsg}
    (h : msg.action = .toggle) :
    (x.mode = .off → (x.onMessage msg).1.mode = .rainbow ∧ (x.onMessage msg).1.pixels = x.pixels) ∧
      (x.mode ≠ .off → (x.onMessage msg).1.mode = .off ∧ DarkAt (x.onMessage msg).1 msg.index) := by
  constructor
  · intro hoff
    simp only [onMessage, h, if_pos hoff, and_self]
  · intro hon
    have hstep : x.onMessage msg =
        ThreadState.draw { x with index := msg.index, mode := .off } .black := by
      simp only [onMessage, h, if_neg hon]
    have hmode : (x.onMessage msg).1.mode = .off := by rw [hstep]; rfl
    exact ⟨hmode, .of_message hmode⟩

/-- **What mode OFF means.** After every run from start-up that ends in mode OFF
the pixels of the latched index are dark, and so are those of every message since
which the mode has been OFF. A TOGGLE switches on exactly from mode OFF. -/
theorem off_mode_dark (cfg : Config) :
    (∀ es, (final ThreadState.iterate (.initial cfg) es).mode = .off →
      DarkAt (final ThreadState.iterate (.initial cfg) es)
        (final ThreadState.iterate (.initial cfg) es).index) ∧
    (∀ pre msg updateRc post,
      (∀ mid, mid <+: post → (final ThreadState.iterate (.initial cfg)
          (pre ++ .message msg updateRc :: mid)).mode = .off) →
        DarkAt (final ThreadState.iterate (.initial cfg) (pre ++ .message msg updateRc :: post))
          msg.index) ∧
    ∀ (x : ThreadState cfg) (msg : LedMsg), msg.action = .toggle →
      (x.mode = .off →
        (x.onMessage msg).1.mode = .rainbow ∧ (x.onMessage msg).1.pixels = x.pixels) ∧
      (x.mode ≠ .off → (x.onMessage msg).1.mode = .off ∧ DarkAt (x.onMessage msg).1 msg.index) := by
  refine ⟨?_, ?_, fun x msg h => x.onMessage_toggle h⟩
  · -- The thread starts with the rainbow, so a run that ends in OFF has a last step.
    intro es hoff
    rcases es.eq_nil_or_concat with rfl | ⟨es, e, rfl⟩
    · cases hoff
    · rw [List.concat_eq_append] at hoff ⊢
      rw [final_concat] at hoff ⊢
      exact (DarkAt.of_off hoff).1
  · intro pre msg updateRc post hoff
    rw [final_append, final_cons]
    generalize hx : final ThreadState.iterate (.initial cfg) pre = x
    have hstays : ∀ mid, mid <+: post →
        (final ThreadState.iterate (x.onMessage msg).1 mid).mode = .off := by
      intro mid hmid
      have hmode := hoff mid hmid
      rwa [final_append, final_cons, hx] at hmode
    have hdark : DarkAt (x.onMessage msg).1 msg.index := .of_message (hstays [] List.nil_prefix)
    exact hdark.of_stays_off fun mid _ hmid => hstays mid hmid

/-- All pixels are made red, and then pixel 0 is switched off: the mode is OFF,
and pixel 1 is still red. -/
theorem off_mode_lit :
    ¬ ∀ es : List Iteration,
      (∀ msg updateRc, .message msg updateRc ∈ es → Config.default.InStrip msg.index) →
      (final ThreadState.iterate (.initial .default) es).mode = .off →
        ∀ p, (hp : p < Config.default.stripNumPixels) →
          (final ThreadState.iterate (.initial .default) es).pixels[p] = .black := by
  intro hclaim
  let red : LedMsg := ⟨.red, 0, 0, 0, 256, false⟩
  let off : LedMsg := ⟨.off, 0, 0, 0, 0, false⟩
  have hone : 1 < Config.default.stripNumPixels := by decide
  have hblack := hclaim [.message red 0, .message off 0] (by
    intro msg updateRc hmem
    simp only [List.mem_cons, Iteration.message.injEq, List.not_mem_nil, or_false] at hmem
    rcases hmem with ⟨rfl, -⟩ | ⟨rfl, -⟩
    · exact .inl rfl
    · exact .inr (by decide)) rfl 1 hone
  have hpixels : (final ThreadState.iterate (.initial .default)
      [.message red 0, .message off 0]).pixels =
        ledSet .default .black 0 ((ThreadState.initial .default).onMessage red).1.pixels := rfl
  have hfirst : ((ThreadState.initial .default).onMessage red).1.pixels[1] =
      ⟨Config.default.brightness, 0, 0⟩ :=
    ThreadState.draw_pixels _ _ hone (.inl rfl)
  have hother : ¬ Addresses .default 0 1 := by decide
  rw [hpixels, getElem_ledSet, if_neg hother, hfirst] at hblack
  exact absurd hblack (by decide)

end LedMatrix
