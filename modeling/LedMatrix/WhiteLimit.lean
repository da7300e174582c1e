import LedMatrix.System

/-!
# The limit on white light

White light takes all three channels. The limit says that at least one channel
of every pixel stays at or below `CONFIG_WHITE_LED_BRIGHTNESS`. Colours reach the
buffer from the rainbow, from the fixed actions and from the two front ends, and
they are drawn again at every refresh.
-/

namespace LedMatrix

open MachineInt

variable {cfg : Config}

/-- At least one channel does not exceed `CONFIG_WHITE_LED_BRIGHTNESS`. -/
def Config.Limited (cfg : Config) (c : LedRgb) : Prop :=
  c.r.toNat ≤ cfg.whiteLedBrightness ∨ c.g.toNat ≤ cfg.whiteLedBrightness ∨
    c.b.toNat ≤ cfg.whiteLedBrightness

instance (c : LedRgb) : Decidable (cfg.Limited c) := inferInstanceAs (Decidable (_ ∨ _ ∨ _))

/-- A colour with a dark channel is limited. -/
theorem Config.limited_of_dark {c : LedRgb} (h : c.r = 0 ∨ c.g = 0 ∨ c.b = 0) : cfg.Limited c := by
  rcases h with h | h | h
  · exact .inl (by simp [h])
  · exact .inr (.inl (by simp [h]))
  · exact .inr (.inr (by simp [h]))

/-- A dark pixel is limited. -/
theorem Config.limited_black : cfg.Limited .black := Config.limited_of_dark (.inl rfl)

/-- The index addresses no pixel of the buffer. -/
def Misses (cfg : Config) (index : UInt16) : Prop :=
  cfg.stripNumPixels ≤ index.toNat ∧ index.toNat ≠ cfg.ledMatrixPixels

/-- An index that does not miss the buffer addresses one of its pixels. -/
theorem not_misses_iff {index : UInt16} :
    ¬ Misses cfg index ↔ ∃ p, p < cfg.stripNumPixels ∧ Addresses cfg index p := by
  unfold Misses Addresses
  constructor
  · intro h
    by_cases hall : index.toNat = cfg.ledMatrixPixels
    · exact ⟨0, cfg.stripNumPixels_pos, .inl hall⟩
    · exact ⟨index.toNat, by omega, .inr rfl⟩
  · rintro ⟨p, hp, hall | hone⟩
    · omega
    · omega

/-! ## The thread -/

/-- Every pixel of the buffer is limited. -/
def LimitedPixels (pixels : Pixels cfg) : Prop :=
  ∀ p, (hp : p < cfg.stripNumPixels) → cfg.Limited pixels[p]

/-- The pixels are limited, and so is the colour that a refresh in mode SOLID
would draw, unless it would miss the buffer. -/
structure LimitedState (x : ThreadState cfg) : Prop where
  /-- Every pixel is limited. -/
  pixels : LimitedPixels x.pixels
  /-- The held colour is limited where it matters. -/
  solid : x.mode = .solid → cfg.Limited x.solid ∨ Misses cfg x.index

/-- A message asks for no colour beyond the limit, unless it misses the buffer. -/
def LimitedMsg (cfg : Config) (msg : LedMsg) : Prop :=
  ∀ color, msg.solidColor cfg = some color → cfg.Limited color ∨ Misses cfg msg.index

/-- The dark buffer is limited. -/
theorem LimitedState.initial : LimitedState (ThreadState.initial cfg) where
  pixels p hp := by
    have hblack : (ThreadState.initial cfg).pixels[p] = .black := by simp [ThreadState.initial]
    rw [hblack]
    exact Config.limited_black
  solid h := by cases h

/-- Drawing a limited colour, or any colour at an index that misses the buffer,
keeps the pixels limited. -/
theorem LimitedPixels.draw (x : ThreadState cfg) (h : LimitedPixels x.pixels) {color : LedRgb}
    (hcolor : cfg.Limited color ∨ Misses cfg x.index) : LimitedPixels (x.draw color).1.pixels := by
  intro p hp
  have hpixel : (x.draw color).1.pixels[p] =
      if Addresses cfg x.index p then color else x.pixels[p] := getElem_ledSet _ _ _ hp
  rw [hpixel]
  split_ifs with haddressed
  · rcases hcolor with hlimited | hmisses
    · exact hlimited
    · exact absurd hmisses (not_misses_iff.mpr ⟨p, hp, haddressed⟩)
  · exact h p hp

/-- A message within the limit keeps the state within it. -/
theorem LimitedState.onMessage {x : ThreadState cfg} {msg : LedMsg} (hmsg : LimitedMsg cfg msg)
    (h : LimitedState x) : LimitedState (x.onMessage msg).1 := by
  rcases x.onMessage_cases msg with ⟨hx, -⟩ | ⟨hx, -⟩ | ⟨color, hcolor, hx⟩
  · rw [hx]
    exact ⟨h.pixels, fun hmode => by cases hmode⟩
  · rw [hx]
    refine ⟨?_, fun hmode => by cases hmode⟩
    exact LimitedPixels.draw { x with index := msg.index, mode := .off } h.pixels
      (.inl Config.limited_black)
  · rw [hx]
    have hlimited := hmsg color hcolor
    refine ⟨?_, fun _ => hlimited⟩
    exact LimitedPixels.draw { x with index := msg.index, mode := .solid, solid := color } h.pixels
      hlimited

/-- A timeout keeps the state within the limit. -/
theorem LimitedState.onTimeout {x : ThreadState cfg} (h : LimitedState x) :
    LimitedState x.onTimeout.1 := by
  rcases x.onTimeout_cases with ⟨hmode, hx⟩ | ⟨hmode, hx⟩ | ⟨hmode, hx⟩
  · rw [hx]
    refine ⟨LimitedPixels.draw { x with hue := (x.hue + 1) % 360 } h.pixels (.inl ?_), h.solid⟩
    exact Config.limited_of_dark (hsvToRgb_dark cfg x.hue)
  · rw [hx]
    exact ⟨LimitedPixels.draw x h.pixels (h.solid hmode), h.solid⟩
  · rw [hx]
    exact ⟨LimitedPixels.draw x h.pixels (.inl Config.limited_black), h.solid⟩

/-! ## The front ends -/

/-- The index of a call, as far as the bits of the parse say that it has one. -/
def callIndex (cfg : Config) (json : JsonObjParse) (arguments : Option (List UInt8)) : UInt16 :=
  (callDefaultMsg cfg json arguments).index

/-- A request asks for no colour beyond the limit. Only a call of the MCP tool
can: with a colour string, or with channels that all exceed the limit while
neither the rainbow is asked for nor the limit is the largest channel value; and
this only matters if its index addresses a pixel of the buffer. -/
def Request.WithinLimit (cfg : Config) (json : JsonObjParse) : Request → Prop
  | .post _ => True
  | .call event arguments _ =>
    let (_, args, _) := parseArguments json arguments
    event = .callRequest → Misses cfg (callIndex cfg json arguments) ∨
      match callBranch json arguments with
      | .color c => cfg.Limited c
      | .channels =>
        args.rainbow = true ∨ cfg.whiteLedBrightness = 255 ∨
          args.r.toInt ≤ cfg.whiteLedBrightness ∨ args.g.toInt ≤ cfg.whiteLedBrightness ∨
          args.b.toInt ≤ cfg.whiteLedBrightness
      | .rainbow | .action _ | .index | .extracted => True

/-- A saturated channel is within the limit exactly when its value is, or when
the limit is the largest channel value. -/
theorem clampChannel_le {c : Int32} :
    (clampChannel c).toNat ≤ cfg.whiteLedBrightness ↔
      cfg.whiteLedBrightness = 255 ∨ c.toInt ≤ cfg.whiteLedBrightness := by
  have hvalue := clampChannel_toNat c
  have hrange := cfg.whiteLedBrightness_range
  omega

/-- The message of a POST is within the limit. -/
theorem ledCommandMsg_limited (cmd : LedCommand) : cfg.Limited (ledCommandMsg cfg cmd).color := by
  rw [ledCommandMsg_color]
  unfold Config.Limited
  split_ifs with hwhite
  · left
    rw [whiteLedBrightness_toNat]
  · have hr := clampChannelU_toNat cmd.r
    have hg := clampChannelU_toNat cmd.g
    have hb := clampChannelU_toNat cmd.b
    dsimp only
    omega

/-- A message for a named action holds no colour beyond the limit. -/
theorem limited_of_named {msg : LedMsg} {a : LedAction} (ha : a ≠ .custom) {color : LedRgb}
    (h : LedMsg.solidColor cfg { msg with action := a } = some color) : cfg.Limited color := by
  cases a with
  | custom => exact absurd rfl ha
  | off => cases h
  | on => cases h
  | toggle => cases h
  | red =>
    obtain rfl := Option.some.inj h
    exact Config.limited_of_dark (.inr (.inl rfl))
  | green =>
    obtain rfl := Option.some.inj h
    exact Config.limited_of_dark (.inl rfl)
  | blue =>
    obtain rfl := Option.some.inj h
    exact Config.limited_of_dark (.inl rfl)

/-- A message of a branch that carries no colour of its own is within the limit. -/
theorem Branch.limited_of_plain {branch : Branch} {msg m : LedMsg} {args : McpLedArgs}
    {text : Option (List UInt8)} (hblack : msg.color = .black)
    (hcolor : ∀ c, branch ≠ .color c) (hchannels : branch ≠ .channels)
    (h : branch.command msg args text = some m) {color : LedRgb}
    (hsolid : m.solidColor cfg = some color) : cfg.Limited color := by
  cases branch with
  | color c => exact absurd rfl (hcolor c)
  | channels => exact absurd rfl hchannels
  | rainbow =>
    obtain rfl := Option.some.inj h
    cases hsolid
  | index =>
    obtain rfl := Option.some.inj h
    simp only [LedMsg.solidColor] at hsolid
    split_ifs at hsolid
    obtain rfl := Option.some.inj hsolid
    apply Config.limited_of_dark
    left
    exact congrArg LedRgb.r hblack
  | action name =>
    simp only [command] at h
    split_ifs at h
    · obtain rfl := Option.some.inj h
      cases hsolid
    · obtain ⟨a, ha, rfl⟩ := Option.map_eq_some_iff.mp h
      exact limited_of_named (namedAction_ne_custom ha) hsolid
  | extracted =>
    obtain ⟨name, -, h⟩ := Option.bind_eq_some_iff.mp h
    obtain ⟨a, ha, rfl⟩ := Option.map_eq_some_iff.mp h
    exact limited_of_named (namedAction_ne_custom ha) hsolid

/-- A message with a colour of its own is within the limit exactly when the
colour is, or when it misses the buffer. -/
theorem limitedMsg_iff_of_solid {msg : LedMsg} {color : LedRgb}
    (h : msg.solidColor cfg = some color) :
    LimitedMsg cfg msg ↔ cfg.Limited color ∨ Misses cfg msg.index := by
  constructor
  · intro hmsg
    exact hmsg color h
  · intro hcolor color' hcolor'
    obtain rfl := Option.some.inj (h.symm.trans hcolor')
    exact hcolor

/-- The message of a POST is within the limit. -/
theorem parseLedPost_limited {json : JsonObjParse} {body : List UInt8} {msg : LedMsg}
    (h : parseLedPost cfg json body = some msg) : LimitedMsg cfg msg := by
  obtain ⟨-, rfl⟩ := parseLedPost_eq_some.mp h
  intro color hcolor
  have hsolid : LedMsg.solidColor cfg (ledCommandMsg cfg (json.ledCommand body).cmd) =
      if (ledCommandMsg cfg (json.ledCommand body).cmd).rainbow = true then none
      else some (ledCommandMsg cfg (json.ledCommand body).cmd).color := rfl
  rw [hsolid] at hcolor
  split_ifs at hcolor
  obtain rfl := Option.some.inj hcolor
  exact .inl (ledCommandMsg_limited _)

/-- The message of the channels branch is within the limit exactly when it asks
for the rainbow, one of the channels is, or it misses the buffer. -/
theorem channels_limited_iff {msg : LedMsg} {args : McpLedArgs} {text : Option (List UInt8)} :
    (∀ m, Branch.command msg args text .channels = some m → LimitedMsg cfg m) ↔
      Misses cfg msg.index ∨ args.rainbow = true ∨ cfg.whiteLedBrightness = 255 ∨
        args.r.toInt ≤ cfg.whiteLedBrightness ∨ args.g.toInt ≤ cfg.whiteLedBrightness ∨
        args.b.toInt ≤ cfg.whiteLedBrightness := by
  simp only [Branch.command, Option.some.injEq, forall_eq']
  cases hrainbow : args.rainbow with
  | true =>
    simp only [true_or, or_true, iff_true]
    intro color hcolor
    cases hcolor
  | false =>
    have hmsg : LimitedMsg cfg { msg with
        action := .custom, r := clampChannel args.r, g := clampChannel args.g
        b := clampChannel args.b, rainbow := false } ↔
          cfg.Limited ⟨clampChannel args.r, clampChannel args.g, clampChannel args.b⟩ ∨
            Misses cfg msg.index :=
      limitedMsg_iff_of_solid rfl
    rw [hmsg, or_comm]
    simp only [Config.Limited, clampChannel_le, Bool.false_eq_true, false_or]
    tauto

/-- The message of a colour string is within the limit exactly when the colour is,
or when it misses the buffer. -/
theorem color_limited_iff {msg : LedMsg} {args : McpLedArgs} {text : Option (List UInt8)}
    {c : LedRgb} :
    (∀ m, Branch.command msg args text (.color c) = some m → LimitedMsg cfg m) ↔
      Misses cfg msg.index ∨ cfg.Limited c := by
  have hmsg : LimitedMsg cfg { msg with
      action := .custom, r := c.r, g := c.g, b := c.b, rainbow := false } ↔
        cfg.Limited c ∨ Misses cfg msg.index :=
    limitedMsg_iff_of_solid rfl
  simp only [Branch.command, Option.some.injEq, forall_eq', hmsg]
  exact or_comm

/-- A request asks for nothing beyond the limit exactly when the message that it
publishes does not. -/
theorem Request.withinLimit_iff {json : JsonObjParse} {q : Request} :
    q.WithinLimit cfg json ↔ ∀ msg, q.message cfg json = some msg → LimitedMsg cfg msg := by
  cases q with
  | post body => exact iff_of_true trivial fun msg hmsg => parseLedPost_limited hmsg
  | call event arguments token =>
    simp only [WithinLimit, message, callCommand, callIndex, callBranch, callDefaultMsg]
    obtain ⟨bits, args, text⟩ := parseArguments json arguments
    by_cases hcall : event = .callRequest
    · simp only [hcall, if_true, true_implies]
      have hplain : ∀ branch : Branch, (∀ c, branch ≠ .color c) → branch ≠ .channels →
          ∀ m, branch.command (defaultMsg cfg bits args) args text = some m →
            LimitedMsg cfg m := by
        intro branch hcolor hchannels m hm color hsolid
        exact .inl (Branch.limited_of_plain rfl hcolor hchannels hm hsolid)
      cases hbranch : chooseBranch bits args with
      | color c => exact color_limited_iff.symm
      | channels => exact channels_limited_iff.symm
      | rainbow => exact iff_of_true (.inr trivial) (hplain _ (by simp) (by simp))
      | action name => exact iff_of_true (.inr trivial) (hplain _ (by simp) (by simp))
      | index => exact iff_of_true (.inr trivial) (hplain _ (by simp) (by simp))
      | extracted => exact iff_of_true (.inr trivial) (hplain _ (by simp) (by simp))
    · simp [hcall]

/-! ## The system -/

/-- A request on its own makes the pixels that it addresses hold its colour. -/
theorem Sys.exec_alone_pixels {json : JsonObjParse} {q : Request} {msg : LedMsg}
    (h : q.message cfg json = some msg) {color : LedRgb}
    (hcolor : msg.solidColor cfg = some color) :
    ∃ s, Runs.exec (Sys.step cfg json) (Sys.initial cfg) q.alone = some s ∧
      ∀ p, (hp : p < cfg.stripNumPixels) → Addresses cfg msg.index p →
        s.bus.consumer.pixels[p] = color := by
  obtain ⟨s, hrun, -, hconsumer, -⟩ := Sys.exec_alone h
  refine ⟨s, hrun, fun p hp haddressed => ?_⟩
  rcases (ThreadState.initial cfg).onMessage_cases msg with ⟨-, hnone⟩ | ⟨-, hnone⟩ |
    ⟨color', hcolor', hx⟩
  · exact absurd (hcolor.symm.trans hnone) (by simp)
  · exact absurd (hcolor.symm.trans hnone) (by simp)
  · obtain rfl := Option.some.inj (hcolor.symm.trans hcolor')
    have hpixel := ThreadState.draw_pixels ((ThreadState.initial cfg).onMessage msg).1 color hp
      (by rw [hx]; exact haddressed)
    rw [hx] at hconsumer hpixel
    simp only [hconsumer]
    exact hpixel

/-- **When the white limit holds.** For every set of requests: in all runs over
these requests every pixel is within the limit if and only if none of the
requests asks for a colour beyond it at an index that addresses a pixel. -/
theorem pixels_limited_iff (cfg : Config) (json : JsonObjParse) (requests : Set Request) :
    (∀ q ∈ requests, q.WithinLimit cfg json) ↔
      ∀ es s, (∀ q ready, .request q ready ∈ es → q ∈ requests) →
        Runs.exec (Sys.step cfg json) (Sys.initial cfg) es = some s →
          LimitedPixels s.bus.consumer.pixels := by
  constructor
  · intro h es s hes hrun
    have hconfined := Sys.exec_confined (K := LimitedMsg cfg) (I := LimitedState)
      (J := fun _ => True) ?_ ?_ LimitedState.initial ?_ hrun
    · exact hconfined.consumer_mem.pixels
    · exact fun x msg hmsg hx => ⟨hx.onMessage hmsg, fun _ _ => trivial⟩
    · exact fun x hx => ⟨hx.onTimeout, fun _ _ => trivial⟩
    · intro q ready hq
      exact Request.withinLimit_iff.mp (h q (hes q ready hq))
  · intro h q hq
    rw [Request.withinLimit_iff]
    intro msg hmsg color hcolor
    by_contra hbeyond
    rw [not_or, not_misses_iff] at hbeyond
    obtain ⟨hunlimited, p, hp, haddressed⟩ := hbeyond
    obtain ⟨s, hrun, hpixels⟩ := Sys.exec_alone_pixels hmsg hcolor
    have hlimited := h _ s ?_ hrun p hp
    · rw [hpixels p hp haddressed] at hlimited
      exact hunlimited hlimited
    · intro q' ready hq'
      obtain rfl := Request.eq_of_mem_alone hq'
      exact hq

/-- The arguments of an MCP call for full white on one pixel. -/
def whiteCall : List UInt8 :=
  CText.lit "\x7b\"r\":255,\"g\":255,\"b\":255,\"index\":0\x7d"

/-- The decoder on the arguments of the call for white. -/
def decodesWhite : JsonObjParse :=
  .knowing [] [(whiteCall, ⟨15, { McpLedArgs.zero with r := 255, g := 255, b := 255 }, whiteCall⟩)]

/-- With a limit of 15 the call makes the pixel fully white. -/
theorem whiteCall_unlimited :
    ∃ es s, Runs.exec (Sys.step .default decodesWhite) (Sys.initial .default) es = some s ∧
      (∃ _ : 0 < Config.default.stripNumPixels, s.bus.consumer.pixels[0] = ⟨255, 255, 255⟩) ∧
      ¬ Config.default.Limited ⟨255, 255, 255⟩ := by
  have hmessage : (Request.call .callRequest (some whiteCall) []).message .default decodesWhite =
      some ⟨.custom, 255, 255, 255, 0, false⟩ := by
    decide
  have hsolid : LedMsg.solidColor .default ⟨.custom, 255, 255, 255, 0, false⟩ =
      some ⟨255, 255, 255⟩ := rfl
  obtain ⟨s, hrun, hpixels⟩ := Sys.exec_alone_pixels hmessage hsolid
  exact ⟨_, s, hrun, ⟨by decide, hpixels 0 (by decide) (by decide)⟩, by decide⟩

end LedMatrix
