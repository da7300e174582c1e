import LedMatrix.Delivery
import LedMatrix.Lib.OneSlotHistory
import LedMatrix.PixelHistory
import Mathlib.Data.List.DropRight

/-!
# The thread as a function of its history

The mode, the held colour, the hue and the latched index of `thread_led` are determined
by the messages it has handled and, for the hue, by the timeouts in between. A pixel
keeps the colour of the last message for it, whatever the others show. All this is said
of runs in which `led_set` stays in its buffer: what C does after a store past the end of
it is not defined, and such a store changes nothing here.
-/

namespace LedMatrix

open Mealy

variable {cfg : Config}

/-- The message that an iteration handles, if it handles one. -/
def Iteration.handled : Iteration → Option LedMsg
  | .message msg _ => some msg
  | .timeout _ => none

/-! ## The mode, the held colour and the latched index -/

/-- The mode after `k` TOGGLEs in a row: the first one switches off unless the mode is
OFF, and from then on OFF and RAINBOW alternate. -/
def LedMode.afterToggles (mode : LedMode) (k : ℕ) : LedMode :=
  if k = 0 then mode else if (k % 2 = 1 ↔ mode = .off) then .rainbow else .off

/-- What one more TOGGLE does. -/
theorem LedMode.afterToggles_succ (mode : LedMode) (k : ℕ) :
    mode.afterToggles (k + 1) = if mode.afterToggles k = .off then .rainbow else .off := by
  unfold afterToggles
  rcases Nat.eq_zero_or_pos k with rfl | hpos
  · cases mode <;> decide
  · have hk : k ≠ 0 := by omega
    rcases Nat.mod_two_eq_zero_or_one k with hparity | hparity
    · have hnext : (k + 1) % 2 = 1 := by omega
      cases mode <;> simp [hk, hparity, hnext]
    · have hnext : (k + 1) % 2 = 0 := by omega
      cases mode <;> simp [hk, hparity, hnext]

/-- The mode that the messages have dictated last. -/
def dictatedLast (msgs : List LedMsg) : LedMode :=
  (msgs.filterMap LedMsg.dictatedMode).getLast?.getD .rainbow

/-- The TOGGLEs that have come since. -/
def togglesSince (msgs : List LedMsg) : ℕ :=
  (msgs.rtakeWhile fun msg => msg.dictatedMode.isNone).length

/-- The colour that the messages have asked to hold last. -/
def solidLast (cfg : Config) (msgs : List LedMsg) : LedRgb :=
  (msgs.filterMap (LedMsg.solidColor cfg)).getLast?.getD .black

/-- The index of the last message. -/
def indexLast (cfg : Config) (msgs : List LedMsg) : UInt16 :=
  (msgs.getLast?.map LedMsg.index).getD cfg.allIndex

/-- The state is the one that the messages have left. -/
structure ThreadState.LeftBy (x : ThreadState cfg) (msgs : List LedMsg) : Prop where
  mode_eq : x.mode = (dictatedLast msgs).afterToggles (togglesSince msgs)
  solid_eq : x.solid = solidLast cfg msgs
  index_eq : x.index = indexLast cfg msgs

/-- The mode after a message: the one that it dictates, or the other one. -/
theorem ThreadState.onMessage_mode (x : ThreadState cfg) (msg : LedMsg) :
    (x.onMessage msg).1.mode =
      msg.dictatedMode.getD (if x.mode = .off then .rainbow else .off) := by
  unfold onMessage LedMsg.dictatedMode
  cases msg.action with
  | toggle => by_cases hoff : x.mode = .off <;> simp [hoff, draw]
  | custom => cases msg.rainbow <;> rfl
  | off => rfl
  | on => rfl
  | red => rfl
  | green => rfl
  | blue => rfl

/-- The held colour after a message: the one it asks for, or the one before. -/
theorem ThreadState.onMessage_solid (x : ThreadState cfg) (msg : LedMsg) :
    (x.onMessage msg).1.solid = (msg.solidColor cfg).getD x.solid := by
  rcases x.onMessage_cases msg with ⟨h, hnone⟩ | ⟨h, hnone⟩ | ⟨color, hsome, h⟩
  · rw [h, hnone]
    rfl
  · rw [h, hnone]
    rfl
  · rw [h, hsome]
    rfl

/-- A timeout changes neither the mode, nor the held colour, nor the latched index. -/
theorem ThreadState.LeftBy.onTimeout {x : ThreadState cfg} {msgs : List LedMsg}
    (h : x.LeftBy msgs) : x.onTimeout.1.LeftBy msgs := by
  obtain ⟨hmode, hindex⟩ := x.onTimeout_frame
  have hsolid : x.onTimeout.1.solid = x.solid := by
    rcases x.onTimeout_cases with ⟨-, hx⟩ | ⟨-, hx⟩ | ⟨-, hx⟩ <;> rw [hx] <;> rfl
  exact ⟨hmode.trans h.mode_eq, hsolid.trans h.solid_eq, hindex.trans h.index_eq⟩

/-- A message is the last one from then on. -/
theorem ThreadState.LeftBy.onMessage {x : ThreadState cfg} {msgs : List LedMsg}
    (h : x.LeftBy msgs) (msg : LedMsg) : (x.onMessage msg).1.LeftBy (msgs ++ [msg]) := by
  refine ⟨?_, ?_, ?_⟩
  · rw [x.onMessage_mode msg, h.mode_eq]
    unfold dictatedLast togglesSince
    rw [List.filterMap_append]
    cases hdictated : msg.dictatedMode with
    | none =>
      rw [List.rtakeWhile_concat_pos _ _ _ (by rw [hdictated]; rfl)]
      simp [hdictated, LedMode.afterToggles_succ]
    | some mode =>
      rw [List.rtakeWhile_concat_neg _ _ _ (by rw [hdictated]; simp)]
      simp [hdictated, LedMode.afterToggles]
  · rw [x.onMessage_solid msg, h.solid_eq]
    unfold solidLast
    rw [List.filterMap_append]
    cases hcolor : msg.solidColor cfg with
    | none => simp [hcolor]
    | some color => simp [hcolor]
  · rw [(x.onMessage_index msg).1]
    simp [indexLast]

/-- **The history of the thread.** After every run from start-up, the mode, the held
colour and the latched index are those that the messages have left. -/
theorem ThreadState.final_leftBy (cfg : Config) (es : List Iteration) :
    (final ThreadState.iterate (.initial cfg) es).LeftBy (es.filterMap Iteration.handled) := by
  induction es using List.reverseRecOn with
  | nil => exact ⟨rfl, rfl, rfl⟩
  | append_singleton es e ih =>
    rw [final_concat, List.filterMap_append]
    cases e with
    | message msg updateRc => exact ih.onMessage msg
    | timeout updateRc =>
      rw [show [Iteration.timeout updateRc].filterMap Iteration.handled = [] from rfl,
        List.append_nil]
      exact ih.onTimeout

/-! ## The hue -/

/-- The iteration draws a colour of the rainbow. -/
def ThreadState.Animates (x : ThreadState cfg) (e : Iteration) : Prop :=
  x.mode = .rainbow ∧ e.handled = none

instance (x : ThreadState cfg) (e : Iteration) : Decidable (x.Animates e) :=
  inferInstanceAs (Decidable (_ ∧ _))

/-- The iterations of a run that draw a colour of the rainbow. -/
def rainbowFrames (x : ThreadState cfg) : List Iteration → ℕ
  | [] => 0
  | e :: es => (if x.Animates e then 1 else 0) + rainbowFrames (x.iterate e).1 es

/-- The hue is advanced by the iterations that draw a colour of the rainbow. -/
theorem ThreadState.iterate_hue (x : ThreadState cfg) (e : Iteration) :
    (x.iterate e).1.hue = if x.Animates e then (x.hue + 1) % 360 else x.hue := by
  cases e with
  | message msg updateRc =>
    rw [if_neg fun h => by cases h.2]
    simp only [iterate]
    rcases x.onMessage_cases msg with ⟨h, -⟩ | ⟨h, -⟩ | ⟨color, -, h⟩
    · rw [h]
    · rw [h]
      rfl
    · rw [h]
      rfl
  | timeout updateRc =>
    simp only [iterate]
    rcases x.onTimeout_cases with ⟨hmode, h⟩ | ⟨hmode, h⟩ | ⟨hmode, h⟩
    · rw [h, if_pos ⟨hmode, rfl⟩]
      rfl
    · rw [h, if_neg fun h => by cases hmode.symm.trans h.1]
      rfl
    · rw [h, if_neg fun h => by cases hmode.symm.trans h.1]
      rfl

/-- The hue counts the frames of the rainbow, and starts again after 360. -/
theorem ThreadState.final_hue {x : ThreadState cfg} (hhue : x.hue.toNat < 360)
    (es : List Iteration) :
    (final ThreadState.iterate x es).hue.toNat = (x.hue.toNat + rainbowFrames x es) % 360 := by
  induction es generalizing x with
  | nil => exact (Nat.mod_eq_of_lt hhue).symm
  | cons e es ih =>
    have hfirst : (x.iterate e).1.hue.toNat =
        (x.hue.toNat + if x.Animates e then 1 else 0) % 360 := by
      rw [x.iterate_hue e]
      split_ifs
      · rw [UInt16.toNat_mod, UInt16.toNat_add]
        change (x.hue.toNat + 1) % 65536 % 360 = _
        omega
      · exact (Nat.mod_eq_of_lt hhue).symm
    have hnext : (x.iterate e).1.hue.toNat < 360 := by
      rw [hfirst]
      exact Nat.mod_lt _ (by decide)
    rw [final_cons, ih hnext, hfirst, rainbowFrames]
    omega

/-- One of the three factors of every sector is the full one. -/
theorem hsvSector_full (i : ℕ) (p q t : Float32) :
    (hsvSector i p q t).1 = 1.0 ∨ (hsvSector i p q t).2.1 = 1.0 ∨
      (hsvSector i p q t).2.2 = 1.0 := by
  unfold hsvSector
  split <;> simp

/-- Scaling the full factor gives the brightness, at every brightness in range. -/
theorem scaleChannel_one (cfg : Config) : scaleChannel cfg 1.0 = cfg.brightness := by
  have hbyte : ∀ d : Fin 256, ((1.0 : Float32) * Float32.ofNat d).toUInt8 = UInt8.ofNat d := by
    decide +kernel
  have hrange := cfg.defaultLedBrightness_range.2
  exact hbyte ⟨cfg.defaultLedBrightness, by omega⟩

/-- Every rainbow colour has one channel at `CONFIG_DEFAULT_LED_BRIGHTNESS`. -/
theorem hsvToRgb_full (cfg : Config) (h : UInt16) :
    (hsvToRgb cfg h).r = cfg.brightness ∨ (hsvToRgb cfg h).g = cfg.brightness ∨
      (hsvToRgb cfg h).b = cfg.brightness := by
  simp only [hsvToRgb]
  generalize (Float32.ofNat (h.toNat % 360) / 60.0).toUInt32.toNat = i
  generalize Float32.ofNat (h.toNat % 360) / 60.0 - Float32.ofNat i = ff
  rcases hsvSector_full i 0.0 (1.0 - ff) ff with hfull | hfull | hfull
  · exact .inl (by rw [hfull, scaleChannel_one])
  · exact .inr (.inl (by rw [hfull, scaleChannel_one]))
  · exact .inr (.inr (by rw [hfull, scaleChannel_one]))

/-- The brightness is not zero, so no rainbow colour is black. -/
theorem hsvToRgb_ne_black (cfg : Config) (h : UInt16) : hsvToRgb cfg h ≠ .black := by
  intro hblack
  have hrange := cfg.defaultLedBrightness_range
  have hbrightness : cfg.brightness ≠ 0 := by
    intro hzero
    have htoNat := congrArg UInt8.toNat hzero
    simp only [Config.brightness, UInt8.toNat_ofNat'] at htoNat
    change cfg.defaultLedBrightness % 256 = 0 at htoNat
    omega
  rcases hsvToRgb_full cfg h with hfull | hfull | hfull
  · rw [hblack] at hfull
    exact hbrightness hfull.symm
  · rw [hblack] at hfull
    exact hbrightness hfull.symm
  · rw [hblack] at hfull
    exact hbrightness hfull.symm

/-- While the mode is RAINBOW, timeouts keep the mode and the latched index, each of them
is counted, and they leave the other pixels alone. -/
theorem ThreadState.rainbow_timeouts {x : ThreadState cfg} (hmode : x.mode = .rainbow)
    (rcs : List ℤ) :
    (final iterate x (rcs.map .timeout)).mode = .rainbow ∧
      (final iterate x (rcs.map .timeout)).index = x.index ∧
      rainbowFrames x (rcs.map .timeout) = rcs.length ∧
      ∀ p, (hp : p < cfg.stripNumPixels) → ¬ Addresses cfg x.index p →
        (final iterate x (rcs.map .timeout)).pixels[p] = x.pixels[p] := by
  induction rcs generalizing x with
  | nil => exact ⟨hmode, rfl, rfl, fun _ _ _ => rfl⟩
  | cons rc rcs ih =>
    obtain ⟨hkeeps, hindex⟩ := x.onTimeout_frame
    obtain ⟨hfinal, hlatched, hcount, hothers⟩ := ih (hkeeps.trans hmode)
    have hanimates : x.Animates (.timeout rc) := ⟨hmode, rfl⟩
    refine ⟨hfinal, hlatched.trans hindex, ?_, fun p hp hmiss => ?_⟩
    · rw [List.map_cons, rainbowFrames, if_pos hanimates, List.length_cons, Nat.add_comm]
      exact congrArg (· + 1) hcount
    · have hfirst : x.onTimeout.1.pixels[p] = x.pixels[p] := by
        simp only [onTimeout, hmode]
        exact (getElem_ledSet _ _ _ hp).trans (if_neg hmiss)
      rw [← hindex] at hmiss
      exact (hothers p hp hmiss).trans hfirst

/-- Two runs count together. -/
theorem rainbowFrames_append (x : ThreadState cfg) (es fs : List Iteration) :
    rainbowFrames x (es ++ fs) =
      rainbowFrames x es + rainbowFrames (final ThreadState.iterate x es) fs := by
  induction es generalizing x with
  | nil => exact (Nat.zero_add _).symm
  | cons e es ih =>
    rw [List.cons_append, rainbowFrames, ih, final_cons, rainbowFrames, Nat.add_assoc]

/-- **The rainbow.** Take any run from start-up that ends in mode RAINBOW, and then any
number of timeouts. After the last of them the pixels at the index of the last message
show the colour of the hue that counts all rainbow frames before, modulo 360, which has
one channel at `CONFIG_DEFAULT_LED_BRIGHTNESS` and one dark; and the other pixels show
what they showed before the timeouts. This is said of runs that store in the buffer only. -/
theorem rainbow_shows (cfg : Config) (es : List Iteration)
    (hmode : (final ThreadState.iterate (.initial cfg) es).mode = .rainbow) (rcs : List ℤ)
    (rc : ℤ) :
    ∃ color, color = hsvToRgb cfg
        (.ofNat ((rainbowFrames (.initial cfg) es + rcs.length) % 360)) ∧
      ((color.r = cfg.brightness ∨ color.g = cfg.brightness ∨ color.b = cfg.brightness) ∧
        (color.r = 0 ∨ color.g = 0 ∨ color.b = 0) ∧ color ≠ .black) ∧
      ∀ p, (hp : p < cfg.stripNumPixels) →
        (final ThreadState.iterate (.initial cfg)
            (es ++ (rcs ++ [rc]).map .timeout)).pixels[p] =
          if Addresses cfg (indexLast cfg (es.filterMap Iteration.handled)) p then color
          else (final ThreadState.iterate (.initial cfg) es).pixels[p] := by
  refine ⟨_, rfl, ⟨hsvToRgb_full cfg _, hsvToRgb_dark cfg _, hsvToRgb_ne_black cfg _⟩,
    fun p hp => ?_⟩
  have hindex := (ThreadState.final_leftBy cfg es).index_eq
  have hstart : (ThreadState.initial cfg).hue.toNat < 360 := by simp [ThreadState.initial]
  have hcounted := ThreadState.final_hue hstart (es ++ rcs.map .timeout)
  rw [rainbowFrames_append, final_append] at hcounted
  rw [List.map_append, ← List.append_assoc, List.map_singleton, final_concat, final_append,
    ← hindex]
  generalize final ThreadState.iterate (.initial cfg) es = x at *
  obtain ⟨hstays, hlatched, hcount, hothers⟩ := x.rainbow_timeouts hmode rcs
  rw [hcount] at hcounted
  generalize final ThreadState.iterate x (rcs.map .timeout) = y at *
  have hhue : y.hue = .ofNat ((rainbowFrames (.initial cfg) es + rcs.length) % 360) := by
    apply UInt16.toNat_inj.mp
    rw [hcounted, UInt16.toNat_ofNat']
    change (0 + (rainbowFrames (.initial cfg) es + rcs.length)) % 360 =
      (rainbowFrames (.initial cfg) es + rcs.length) % 360 % 65536
    omega
  have hdraw : (y.iterate (.timeout rc)).1.pixels =
      ledSet cfg (hsvToRgb cfg y.hue) y.index y.pixels := by
    simp only [ThreadState.iterate, ThreadState.onTimeout, hstays]
    rfl
  simp only [hdraw, getElem_ledSet _ _ _ hp, hlatched, hhue]
  split_ifs with haddressed
  · rfl
  · exact hothers p hp haddressed

/-- A run that starts the rainbow at pixel 3 and draws one frame of it. -/
def rainbowRun : List Iteration := [.message ⟨.on, 0, 0, 0, 3, false⟩ 0, .timeout (-5)]

/-- Two timeouts later pixel 3 shows the colour of hue 2, which is not black. -/
theorem rainbow_shows_rainbowRun :
    ∃ hp : 3 < Config.default.stripNumPixels,
      (final ThreadState.iterate (.initial .default)
          (rainbowRun ++ [.timeout 0, .timeout 0])).pixels[3] = hsvToRgb .default 2 ∧
        hsvToRgb .default 2 ≠ .black := by
  obtain ⟨color, hcolor, ⟨-, -, hlit⟩, hpixels⟩ := rainbow_shows .default rainbowRun rfl [0] 0
  have hhue : color = hsvToRgb .default 2 := hcolor
  have hindex : Addresses .default
      (indexLast .default (rainbowRun.filterMap Iteration.handled)) 3 := .inr rfl
  have hpixel := hpixels 3 (by decide)
  rw [if_pos hindex, hhue] at hpixel
  exact ⟨by decide, hpixel, hhue ▸ hlit⟩

/-! ## A pixel keeps what was drawn for it -/

/-- The pixel holds the colour, and no refresh takes it away: either the latched index is
elsewhere, or a refresh draws the colour again. -/
structure ThreadState.Keeps (x : ThreadState cfg) (p : ℕ) (color : LedRgb) : Prop where
  /-- A refresh misses the pixel or draws the colour. -/
  refresh_eq : ¬ Addresses cfg x.index p ∨ (x.mode = .off ∧ color = .black) ∨
    (x.mode = .solid ∧ x.solid = color)
  /-- The pixel holds the colour. -/
  pixel_eq : ∀ hp : p < cfg.stripNumPixels, x.pixels[p] = color

/-- Drawing elsewhere, or the same colour, keeps a pixel as it is. -/
theorem ThreadState.Keeps.draw {x : ThreadState cfg} {p : ℕ} {color : LedRgb}
    (hpixel : ∀ hp : p < cfg.stripNumPixels, x.pixels[p] = color) (drawn : LedRgb)
    (h : ¬ Addresses cfg x.index p ∨ drawn = color) (hp : p < cfg.stripNumPixels) :
    (x.draw drawn).1.pixels[p] = color := by
  have hwrite : (x.draw drawn).1.pixels[p] =
      if Addresses cfg x.index p then drawn else x.pixels[p] := getElem_ledSet _ _ _ hp
  rw [hwrite, hpixel hp]
  split_ifs with haddressed
  · exact h.resolve_left fun hmiss => hmiss haddressed
  · rfl

/-- A message that addresses the pixel and holds a colour makes the pixel keep it. -/
theorem ThreadState.Keeps.of_message (x : ThreadState cfg) {msg : LedMsg} {p : ℕ}
    {color : LedRgb} (hcolor : msg.heldColor cfg = some color)
    (haddressed : Addresses cfg msg.index p) : (x.onMessage msg).1.Keeps p color := by
  have htoggle : msg.action ≠ .toggle := by
    intro haction
    simp [LedMsg.heldColor, LedMsg.solidColor, haction] at hcolor
  have hobeys := Obeys.onMessage x htoggle
  exact ⟨.inr (hobeys.refresh_eq color hcolor),
    fun hp => hobeys.pixels_eq color hcolor p hp haddressed⟩

/-- A message for other pixels lets the pixel keep its colour, even if it starts the
rainbow there. -/
theorem ThreadState.Keeps.onMessage {x : ThreadState cfg} {p : ℕ} {color : LedRgb}
    (h : x.Keeps p color) {msg : LedMsg} (hmiss : ¬ Addresses cfg msg.index p) :
    (x.onMessage msg).1.Keeps p color := by
  refine ⟨.inl ?_, fun hp => ?_⟩
  · rwa [(x.onMessage_index msg).1]
  · rcases x.onMessage_cases msg with ⟨hx, -⟩ | ⟨hx, -⟩ | ⟨drawn, -, hx⟩
    · rw [hx]
      exact h.pixel_eq hp
    · rw [hx]
      exact Keeps.draw (x := { x with index := msg.index, mode := .off }) h.pixel_eq _
        (.inl hmiss) hp
    · rw [hx]
      exact Keeps.draw (x := { x with index := msg.index, mode := .solid, solid := drawn })
        h.pixel_eq _ (.inl hmiss) hp

/-- A timeout lets the pixel keep its colour. -/
theorem ThreadState.Keeps.onTimeout {x : ThreadState cfg} {p : ℕ} {color : LedRgb}
    (h : x.Keeps p color) : x.onTimeout.1.Keeps p color := by
  rcases x.onTimeout_cases with ⟨hmode, hx⟩ | ⟨hmode, hx⟩ | ⟨hmode, hx⟩
  · have hmiss : ¬ Addresses cfg x.index p := by
      rcases h.refresh_eq with hmiss | ⟨hoff, -⟩ | ⟨hsolid, -⟩
      · exact hmiss
      · cases hmode.symm.trans hoff
      · cases hmode.symm.trans hsolid
    rw [hx]
    exact ⟨.inl hmiss, Keeps.draw h.pixel_eq _ (.inl hmiss)⟩
  · rw [hx]
    refine ⟨h.refresh_eq, Keeps.draw h.pixel_eq _ ?_⟩
    rcases h.refresh_eq with hmiss | ⟨hoff, -⟩ | ⟨-, hsolid⟩
    · exact .inl hmiss
    · cases hmode.symm.trans hoff
    · exact .inr hsolid
  · rw [hx]
    refine ⟨h.refresh_eq, Keeps.draw h.pixel_eq _ ?_⟩
    rcases h.refresh_eq with hmiss | ⟨-, hblack⟩ | ⟨hsolid, -⟩
    · exact .inl hmiss
    · exact .inr hblack.symm
    · cases hmode.symm.trans hsolid

/-- A run without a message for the pixel lets it keep its colour. -/
theorem ThreadState.Keeps.final {x : ThreadState cfg} {p : ℕ} {color : LedRgb}
    (h : x.Keeps p color) {es : List Iteration}
    (hmiss : ∀ msg ∈ es.filterMap Iteration.handled, ¬ Addresses cfg msg.index p) :
    (final ThreadState.iterate x es).Keeps p color := by
  induction es generalizing x with
  | nil => exact h
  | cons e es ih =>
    rw [final_cons]
    cases e with
    | message msg updateRc =>
      have hall : ∀ m ∈ msg :: es.filterMap Iteration.handled, ¬ Addresses cfg m.index p := hmiss
      obtain ⟨hfirst, hrest⟩ := List.forall_mem_cons.mp hall
      exact ih (h.onMessage hfirst) hrest
    | timeout updateRc => exact ih h.onTimeout hmiss

/-! ## In a run of the system -/

/-- What the thread goes through, as an iteration. -/
def Iteration.ofHandled : Option LedMsg → Iteration
  | some msg => .message msg 0
  | none => .timeout 0

/-- `thread_led` as a consumer does what its loop body does. -/
theorem threadLed_consume (cfg : Config) :
    (threadLed cfg).consume = fun x i => ThreadState.iterate x (.ofHandled i) := by
  funext x i
  cases i <;> rfl

/-- The messages of what the thread goes through. -/
theorem filterMap_ofHandled (is : List (Option LedMsg)) :
    (is.map Iteration.ofHandled).filterMap Iteration.handled = is.reduceOption := by
  induction is with
  | nil => rfl
  | cons i is ih =>
    cases i with
    | none => exact ih
    | some msg => exact congrArg (msg :: ·) ih

/-- In a run of the system, the thread goes through a run of its own, over the messages
that the channel has it handle. -/
theorem Sys.exec_iterations {json : JsonObjParse} {es : List SysEvent} {s : Sys cfg}
    (hrun : Runs.exec (Sys.step cfg json) (Sys.initial cfg) es = some s) :
    ∃ is, s.bus.consumer = final ThreadState.iterate (.initial cfg) is ∧
      s.bus.handled.map Prod.snd = is.filterMap Iteration.handled := by
  obtain ⟨ls, hls⟩ := Sys.exec_channel hrun
  obtain ⟨is, h⟩ := OneSlot.exec_consumed hls
  refine ⟨is.map Iteration.ofHandled, ?_, ?_⟩
  · rw [h.consumer_eq, final_map, threadLed_consume]
  · rw [h.handled_eq, filterMap_ofHandled]

/-- **The thread's state in a run of the system.** Whatever the requests and their
interleaving with the channel and the thread: the mode is the last one that a handled
message dictates, switched by the TOGGLEs handled since; the held colour is the last one
that a handled message asks for; and the latched index is that of the message handled
last. This is said of runs in which `led_set` stores in its buffer only. -/
theorem thread_left_by_handled {json : JsonObjParse} {es : List SysEvent} {s : Sys cfg}
    (hrun : Runs.exec (Sys.step cfg json) (Sys.initial cfg) es = some s) :
    s.bus.consumer.LeftBy (s.bus.handled.map Prod.snd) := by
  obtain ⟨is, hconsumer, hhandled⟩ := Sys.exec_iterations hrun
  rw [hconsumer, hhandled]
  exact ThreadState.final_leftBy cfg is

/-- When the last of the handled messages that address a pixel holds a colour, the pixel
keeps it. -/
theorem Sys.exec_keeps {json : JsonObjParse} {es : List SysEvent} {s : Sys cfg}
    (hrun : Runs.exec (Sys.step cfg json) (Sys.initial cfg) es = some s) {before : List LedMsg}
    {msg : LedMsg} {after : List LedMsg}
    (hhandled : s.bus.handled.map Prod.snd = before ++ msg :: after) {color : LedRgb}
    (hcolor : msg.heldColor cfg = some color) {p : ℕ} (haddressed : Addresses cfg msg.index p)
    (hmiss : ∀ m ∈ after, ¬ Addresses cfg m.index p) : s.bus.consumer.Keeps p color := by
  obtain ⟨is, hconsumer, hmessages⟩ := Sys.exec_iterations hrun
  rw [hhandled] at hmessages
  obtain ⟨is₁, is₂, rfl, -, hmessage⟩ := List.filterMap_eq_append_iff.mp hmessages.symm
  obtain ⟨is₃, e, is₄, rfl, -, he, rfl⟩ := List.filterMap_eq_cons_iff.mp hmessage
  cases e with
  | timeout updateRc => cases he
  | message m updateRc =>
    obtain rfl : m = msg := Option.some.inj he
    rw [hconsumer, final_append, final_append, final_cons]
    exact (ThreadState.Keeps.of_message _ hcolor haddressed).final hmiss

/-- Any number of timeouts lets the pixel keep its colour. -/
theorem ThreadState.Keeps.onTimeouts {x : ThreadState cfg} {p : ℕ} {color : LedRgb}
    (h : x.Keeps p color) (n : ℕ) :
    ((fun z : ThreadState cfg => z.onTimeout.1)^[n] x).Keeps p color := by
  induction n with
  | zero => exact h
  | succ n ih =>
    rw [Function.iterate_succ_apply']
    exact ih.onTimeout

/-- **A pixel keeps its last message.** In every run of the system: when the last of the
handled messages that address a pixel holds a colour, the pixel shows it, and goes on
showing it through any timeouts, whatever the later messages do to other pixels. This is
said of runs in which `led_set` stores in its buffer only. -/
theorem pixel_keeps_last_message {json : JsonObjParse} {es : List SysEvent} {s : Sys cfg}
    (hrun : Runs.exec (Sys.step cfg json) (Sys.initial cfg) es = some s) {before : List LedMsg}
    {msg : LedMsg} {after : List LedMsg}
    (hhandled : s.bus.handled.map Prod.snd = before ++ msg :: after) {color : LedRgb}
    (hcolor : msg.heldColor cfg = some color) {p : ℕ} (haddressed : Addresses cfg msg.index p)
    (hmiss : ∀ m ∈ after, ¬ Addresses cfg m.index p) (hp : p < cfg.stripNumPixels) (n : ℕ) :
    ((fun z : ThreadState cfg => z.onTimeout.1)^[n] s.bus.consumer).pixels[p] = color :=
  ((Sys.exec_keeps hrun hhandled hcolor haddressed hmiss).onTimeouts n).pixel_eq hp

/-- The body of a POST that starts the rainbow at pixel 4. -/
def rainbowBody : List UInt8 :=
  CText.lit "\x7b\"r\":0,\"g\":0,\"b\":0,\"index\":4,\"rainbow\":true\x7d"

/-- The decoder on the bodies for the rainbow and for pixel 3. -/
def decodesPixels : JsonObjParse :=
  .knowing [(pixelBody, ⟨31, ⟨10, 0, 0, 3, false⟩⟩), (rainbowBody, ⟨31, ⟨0, 0, 0, 4, true⟩⟩)] []

/-- Pixel 3 is posted, then the rainbow at pixel 4, and the thread handles both. -/
def pixelsRun : List SysEvent :=
  .request pixelPost none :: handledEvents ++
    .request (.post rainbowBody) none :: handledEvents ++ [.bus .idle]

/-- The thread is left in the rainbow at pixel 4. -/
theorem thread_left_by_handled_pixelsRun :
    ∃ s, Runs.exec (Sys.step .default decodesPixels) (Sys.initial .default) pixelsRun = some s ∧
      s.bus.consumer.mode = .rainbow ∧ s.bus.consumer.index = 4 := by
  obtain ⟨s, hs⟩ : ∃ s, Runs.exec (Sys.step .default decodesPixels) (Sys.initial .default)
      pixelsRun = some s := ⟨_, rfl⟩
  have hhandled : s.bus.handled.map Prod.snd = [pixelMsg, ⟨.custom, 0, 0, 0, 4, true⟩] := by
    obtain rfl := Option.some.inj hs
    rfl
  have hleft := thread_left_by_handled hs
  rw [hhandled] at hleft
  exact ⟨s, hs, hleft.mode_eq, hleft.index_eq⟩

/-- Pixel 3 shows its colour all the while. -/
theorem pixel_keeps_last_message_pixelsRun :
    ∃ s, Runs.exec (Sys.step .default decodesPixels) (Sys.initial .default) pixelsRun = some s ∧
      ∃ hp : 3 < Config.default.stripNumPixels, ∀ n,
        ((fun z : ThreadState .default => z.onTimeout.1)^[n] s.bus.consumer).pixels[3] =
          ⟨10, 0, 0⟩ := by
  obtain ⟨s, hs⟩ : ∃ s, Runs.exec (Sys.step .default decodesPixels) (Sys.initial .default)
      pixelsRun = some s := ⟨_, rfl⟩
  have hhandled : s.bus.handled.map Prod.snd =
      [] ++ pixelMsg :: [⟨.custom, 0, 0, 0, 4, true⟩] := by
    obtain rfl := Option.some.inj hs
    rfl
  exact ⟨s, hs, by decide, pixel_keeps_last_message hs hhandled rfl (.inr rfl) (by decide) _⟩

end LedMatrix
