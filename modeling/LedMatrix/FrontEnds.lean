import LedMatrix.McpCommands
import LedMatrix.ParseLedPost
import LedMatrix.ThreadLed

/-!
# The same command through both front ends

The five members of a command mean the same to a client whether it posts them or
passes them to the MCP tool. The front ends store them with different signs,
clamp the index to different bounds, and only the POST limits white light; this
file says for which commands they agree all the same.
-/

namespace LedMatrix

open MachineInt

/-- The five members of a command, as a client writes them. -/
structure Command where
  r : Int32
  g : Int32
  b : Int32
  index : Int32
  rainbow : Bool
  deriving DecidableEq, Repr

/-- The members as `struct led_command` holds them once all are decoded. -/
def Command.ledCommand (c : Command) : LedCommand :=
  ⟨c.r.toUInt32, c.g.toUInt32, c.b.toUInt32, c.index.toUInt32, c.rainbow⟩

/-- The members as `struct mcp_led_args` holds them once all are decoded. -/
def Command.mcpLedArgs (c : Command) : McpLedArgs :=
  { r := c.r, g := c.g, b := c.b, index := c.index, rainbow := c.rainbow, action := none
    color := none }

/-- Two messages ask for the same: equal actions, indices and rainbow flags, and
equal colours unless they ask for the rainbow. -/
structure Agree (m m' : LedMsg) : Prop where
  action_eq : m.action = m'.action
  index_eq : m.index = m'.index
  rainbow_eq : m.rainbow = m'.rainbow
  color_eq : m.rainbow = false → m.color = m'.color

/-- `thread_led` handles messages that agree identically from every state. -/
theorem Agree.onMessage_eq {cfg : Config} {m m' : LedMsg} (h : Agree m m') (x : ThreadState cfg) :
    x.onMessage m = x.onMessage m' := by
  obtain ⟨action, r, g, b, index, rainbow⟩ := m
  obtain ⟨action', r', g', b', index', rainbow'⟩ := m'
  obtain ⟨rfl, rfl, rfl, hcolor⟩ := h
  cases rainbow with
  | true => cases action <;> rfl
  | false =>
    obtain ⟨rfl, rfl, rfl⟩ : r = r' ∧ g = g' ∧ b = b' := by
      simpa [LedMsg.color] using hcolor rfl
    rfl

/-! ## The messages -/

/-- The MCP front end makes its message of the clamped members, in the branch of
the rainbow as well as in that of the channels. -/
theorem Command.mcp_message (cfg : Config) (c : Command) (text : Option (List UInt8)) :
    ∃ m, (chooseBranch 31 c.mcpLedArgs).command (defaultMsg cfg 31 c.mcpLedArgs) c.mcpLedArgs text =
        some m ∧
      m.action = .custom ∧ m.index = clampIndex c.index ∧ m.rainbow = c.rainbow ∧
        (c.rainbow = false → m.color = ⟨clampChannel c.r, clampChannel c.g, clampChannel c.b⟩) := by
  have hindex : (defaultMsg cfg 31 c.mcpLedArgs).index = clampIndex c.index := rfl
  cases hrainbow : c.rainbow with
  | true =>
    have hbranch : chooseBranch 31 c.mcpLedArgs = .rainbow := by
      simp only [chooseBranch, mcpLedArgs, hrainbow]
      rfl
    rw [hbranch]
    exact ⟨_, rfl, rfl, hindex, rfl, fun h => by cases h⟩
  | false =>
    have hbranch : chooseBranch 31 c.mcpLedArgs = .channels := by
      simp only [chooseBranch, mcpLedArgs, hrainbow]
      rfl
    rw [hbranch]
    exact ⟨_, rfl, rfl, hindex, hrainbow, fun _ => rfl⟩

/-- The HTTP front end makes its message of the members read as unsigned. -/
theorem Command.post_message (cfg : Config) (c : Command) :
    (ledCommandMsg cfg c.ledCommand).action = .custom ∧
      (ledCommandMsg cfg c.ledCommand).index = clampIndexU cfg c.index.toUInt32 ∧
        (ledCommandMsg cfg c.ledCommand).rainbow = c.rainbow := by
  refine ⟨rfl, ?_, ?_⟩
  · simp only [ledCommandMsg, limitWhite_index]
    rfl
  · simp only [ledCommandMsg, limitWhite_index]
    rfl

/-! ## When they agree -/

/-- The front ends agree on an index from zero to the number of pixels, and on a
larger one only if both clamp it to 65535. With 65536 pixels the index that
stands for all of them wraps to zero in the one and is cut in the other. -/
def IndexAgrees (cfg : Config) (index : Int32) : Prop :=
  if cfg.ledMatrixPixels = 65536 then index.toInt ≤ 65535
  else 0 ≤ index.toInt ∧ (index.toInt ≤ cfg.ledMatrixPixels ∨ cfg.ledMatrixPixels = 65535)

/-- The front ends agree on channels that are not negative and not limited. -/
def ChannelsAgree (cfg : Config) (c : Command) : Prop :=
  (0 ≤ c.r.toInt ∧ 0 ≤ c.g.toInt ∧ 0 ≤ c.b.toInt) ∧
    (cfg.whiteLedBrightness = 255 ∨ c.r.toInt ≤ cfg.whiteLedBrightness ∨
      c.g.toInt ≤ cfg.whiteLedBrightness ∨ c.b.toInt ≤ cfg.whiteLedBrightness)

/-- A signed word that is not negative is the same number read as unsigned, and a
negative one becomes larger than any channel or index. -/
theorem toNat_toUInt32_cases (v : Int32) :
    (0 ≤ v.toInt ∧ (v.toUInt32.toNat : ℤ) = v.toInt) ∨
      (v.toInt < 0 ∧ 2147483648 ≤ v.toUInt32.toNat) := by
  have hword := toNat_toUInt32 v
  have hlow := v.le_toInt
  have hhigh := v.toInt_lt
  omega

/-- A signed word that is not negative is the same number read as unsigned. -/
theorem toNat_toUInt32_of_nonneg {v : Int32} (h : 0 ≤ v.toInt) :
    (v.toUInt32.toNat : ℤ) = v.toInt := by
  have hcases := toNat_toUInt32_cases v
  omega

/-- The two clamped indices are equal exactly where `IndexAgrees` says so. -/
theorem clampIndex_eq_iff {cfg : Config} {index : Int32} :
    clampIndexU cfg index.toUInt32 = clampIndex index ↔ IndexAgrees cfg index := by
  have hpost := clampIndexU_toNat cfg index.toUInt32
  have hword := toNat_toUInt32_cases index
  have hmcp := clampIndex_toNat index
  rw [clamp_eq _ (by decide)] at hmcp
  have hrange := cfg.ledMatrixPixels_range
  rw [← UInt16.toNat_inj, IndexAgrees]
  split_ifs
  · omega
  · omega

/-- A channel that is not negative is the same to both front ends. -/
theorem clampChannel_eq_of_nonneg {v : Int32} (h : 0 ≤ v.toInt) :
    clampChannelU v.toUInt32 = clampChannel v := by
  have hword := toNat_toUInt32_cases v
  have hpost := clampChannelU_toNat v.toUInt32
  have hmcp := clampChannel_toNat v
  rw [← UInt8.toNat_inj]
  omega

/-- A negative channel is zero to the MCP front end only, and it exceeds the limit
in the POST. -/
theorem clampChannel_of_neg {v : Int32} (h : v.toInt < 0) :
    (clampChannel v).toNat = 0 ∧ (clampChannelU v.toUInt32).toNat = 255 := by
  have hword := toNat_toUInt32_cases v
  have hpost := clampChannelU_toNat v.toUInt32
  have hmcp := clampChannel_toNat v
  omega

/-- A negative channel makes the two colours differ: in the POST it is 255, or the
limit, and neither is zero. -/
theorem color_ne_of_neg {cfg : Config} {c : Command}
    (h : c.r.toInt < 0 ∨ c.g.toInt < 0 ∨ c.b.toInt < 0) :
    (ledCommandMsg cfg c.ledCommand).color ≠
      ⟨clampChannel c.r, clampChannel c.g, clampChannel c.b⟩ := by
  have hlimit := whiteLedBrightness_toNat cfg
  have hrange := cfg.whiteLedBrightness_range
  -- In both cases the POST makes a positive channel of a negative one.
  have hdiffer : ∀ post : UInt32 → UInt8,
      (∀ v : Int32, v.toInt < 0 → 0 < (post v.toUInt32).toNat) →
        (⟨post c.r.toUInt32, post c.g.toUInt32, post c.b.toUInt32⟩ : LedRgb) ≠
          ⟨clampChannel c.r, clampChannel c.g, clampChannel c.b⟩ := by
    intro post hpost heq
    have hne : ∀ v : Int32, v.toInt < 0 → post v.toUInt32 ≠ clampChannel v := by
      intro v hv hv'
      have hpos := hpost v hv
      have hzero := (clampChannel_of_neg hv).1
      rw [hv'] at hpos
      omega
    obtain ⟨hr, hg, hb⟩ := LedRgb.mk.inj heq
    rcases h with h | h | h
    · exact hne _ h hr
    · exact hne _ h hg
    · exact hne _ h hb
  rw [ledCommandMsg_color]
  split_ifs with hwhite
  · apply hdiffer fun _ => UInt8.ofNat cfg.whiteLedBrightness
    intro v _
    omega
  · apply hdiffer clampChannelU
    intro v hv
    have hfull := (clampChannel_of_neg hv).2
    omega

/-- The two colours are equal exactly where `ChannelsAgree` says so. -/
theorem color_eq_iff {cfg : Config} {c : Command} :
    (ledCommandMsg cfg c.ledCommand).color =
      ⟨clampChannel c.r, clampChannel c.g, clampChannel c.b⟩ ↔ ChannelsAgree cfg c := by
  by_cases hneg : c.r.toInt < 0 ∨ c.g.toInt < 0 ∨ c.b.toInt < 0
  · exact iff_of_false (color_ne_of_neg hneg) fun h => by
      obtain ⟨hnonneg, -⟩ := h
      omega
  obtain ⟨hr, hg, hb⟩ : 0 ≤ c.r.toInt ∧ 0 ≤ c.g.toInt ∧ 0 ≤ c.b.toInt := by omega
  have hrword : (c.ledCommand.r.toNat : ℤ) = c.r.toInt := toNat_toUInt32_of_nonneg hr
  have hgword : (c.ledCommand.g.toNat : ℤ) = c.g.toInt := toNat_toUInt32_of_nonneg hg
  have hbword : (c.ledCommand.b.toNat : ℤ) = c.b.toInt := toNat_toUInt32_of_nonneg hb
  have hchannels : ChannelsAgree cfg c ↔ cfg.whiteLedBrightness = 255 ∨
      c.r.toInt ≤ cfg.whiteLedBrightness ∨ c.g.toInt ≤ cfg.whiteLedBrightness ∨
        c.b.toInt ≤ cfg.whiteLedBrightness := and_iff_right ⟨hr, hg, hb⟩
  rw [ledCommandMsg_color, hchannels]
  split_ifs with hwhite
  · -- All three channels are limited: they agree only where the limit is 255.
    have hrS := clampChannel_toNat c.r
    have hgS := clampChannel_toNat c.g
    have hbS := clampChannel_toNat c.b
    have hrange := cfg.whiteLedBrightness_range
    rw [LedRgb.mk.injEq, ← UInt8.toNat_inj, ← UInt8.toNat_inj, ← UInt8.toNat_inj,
      whiteLedBrightness_toNat]
    omega
  · refine iff_of_true ?_ (by omega)
    simp only [Command.ledCommand, clampChannel_eq_of_nonneg hr, clampChannel_eq_of_nonneg hg,
      clampChannel_eq_of_nonneg hb]

/-- **When the front ends agree.** For every command, decoded completely by both
front ends and on a strip that is ready: the two messages published ask for the
same, and so are handled identically by `thread_led` from every state, if and
only if the front ends agree on the index and, unless the command asks for the
rainbow, on the channels. -/
theorem messages_agree_iff (cfg : Config) (json : JsonObjParse) (c : Command)
    (body arguments text token : List UInt8) (pub : LedMsg → Int) (ledInitialized : Bool)
    (ready : Option LedReadyMsg) (hbody : json.ledCommand body = ⟨31, c.ledCommand⟩)
    (harguments : json.mcpLedArgs arguments = ⟨31, c.mcpLedArgs, text⟩)
    (hready : refreshInitialized ledInitialized ready = true) :
    (∃ m m', parseLedPost cfg json body = some m ∧
        (ledControlToolCallback cfg json pub ledInitialized ready .callRequest (some arguments)
          token).published = some m' ∧
        Agree m m' ∧ ∀ x : ThreadState cfg, x.onMessage m = x.onMessage m') ↔
      IndexAgrees cfg c.index ∧ (c.rainbow = true ∨ ChannelsAgree cfg c) := by
  have hpost : parseLedPost cfg json body = some (ledCommandMsg cfg c.ledCommand) :=
    parseLedPost_eq_some.mpr ⟨by rw [hbody]; rfl, by rw [hbody]⟩
  obtain ⟨hactionU, hindexU, hrainbowU⟩ := c.post_message cfg
  obtain ⟨m', hm', hactionS, hindexS, hrainbowS, hcolorS⟩ := c.mcp_message cfg (some text)
  have hcall : (ledControlToolCallback cfg json pub ledInitialized ready .callRequest
      (some arguments) token).published = some m' := by
    rw [published_of_text, if_pos hready, harguments]
    exact hm'
  have hagree : Agree (ledCommandMsg cfg c.ledCommand) m' ↔
      IndexAgrees cfg c.index ∧ (c.rainbow = true ∨ ChannelsAgree cfg c) := by
    rw [← clampIndex_eq_iff, ← color_eq_iff, ← hindexU, ← hindexS]
    constructor
    · intro h
      refine ⟨h.index_eq, ?_⟩
      cases hrainbow : c.rainbow with
      | true => exact .inl rfl
      | false =>
        right
        rw [h.color_eq (hrainbowU.trans hrainbow), hcolorS hrainbow]
    · rintro ⟨hindex, hcolor⟩
      refine ⟨hactionU.trans hactionS.symm, hindex, hrainbowU.trans hrainbowS.symm, ?_⟩
      intro hoff
      have hrainbow : c.rainbow = false := hrainbowU.symm.trans hoff
      rw [hcolorS hrainbow]
      rcases hcolor with htrue | hcolor
      · exact absurd (hrainbow.symm.trans htrue) (by decide)
      · exact hcolor
  rw [← hagree]
  constructor
  · rintro ⟨m, m'', hm, hm'', h, -⟩
    obtain rfl := Option.some.inj (hpost.symm.trans hm)
    obtain rfl := Option.some.inj (hcall.symm.trans hm'')
    exact h
  · intro h
    exact ⟨_, m', hpost, hcall, h, h.onMessage_eq⟩

/-- The text of a command with its five members, as a client writes it. -/
def Command.text (c : Command) : List UInt8 :=
  CText.lit s!"\x7b\"r\":{c.r},\"g\":{c.g},\"b\":{c.b},\"index\":{c.index},\"rainbow\":{c.rainbow}\x7d"

/-- The decoder on the text of a command. All members are numbers and flags, and the
parse in place writes a NUL only after a string, so it leaves this text as it was. -/
def decodesCommand (c : Command) : JsonObjParse :=
  .knowing [(c.text, ⟨31, c.ledCommand⟩)] [(c.text, ⟨31, c.mcpLedArgs, c.text⟩)]

/-- A command for one dim red pixel. -/
def pixelCommand : Command := ⟨10, 0, 0, 3, false⟩

example : pixelCommand.text =
    CText.lit "\x7b\"r\":10,\"g\":0,\"b\":0,\"index\":3,\"rainbow\":false\x7d" := by decide

/-- The front ends agree on the dim red pixel. -/
theorem messages_agree_pixelCommand :
    ∃ m m', parseLedPost .default (decodesCommand pixelCommand) pixelCommand.text = some m ∧
      (ledControlToolCallback .default (decodesCommand pixelCommand) (fun _ => 0) true none
        .callRequest (some pixelCommand.text) []).published = some m' ∧
      Agree m m' ∧ ∀ x : ThreadState .default, x.onMessage m = x.onMessage m' :=
  (messages_agree_iff .default (decodesCommand pixelCommand) pixelCommand pixelCommand.text
    pixelCommand.text pixelCommand.text [] (fun _ => 0) true none
    (by simp [decodesCommand, JsonObjParse.knowing])
    (by simp [decodesCommand, JsonObjParse.knowing]) rfl).mpr
      ⟨by unfold IndexAgrees; decide, .inr (by unfold ChannelsAgree; decide)⟩

/-- A command for one fully white pixel. -/
def whiteCommand : Command := ⟨255, 255, 255, 0, false⟩

/-- With a limit of 15 a POST publishes a dim pixel and an MCP call a bright one. -/
theorem messages_disagree_whiteCommand :
    parseLedPost .default (decodesCommand whiteCommand)
        (CText.lit "\x7b\"r\":255,\"g\":255,\"b\":255,\"index\":0,\"rainbow\":false\x7d") =
        some ⟨.custom, 15, 15, 15, 0, false⟩ ∧
      (ledControlToolCallback .default (decodesCommand whiteCommand) (fun _ => 0) true none
        .callRequest (some (CText.lit
          "\x7b\"r\":255,\"g\":255,\"b\":255,\"index\":0,\"rainbow\":false\x7d"))
          []).published = some ⟨.custom, 255, 255, 255, 0, false⟩ ∧
      ¬ Agree ⟨.custom, 15, 15, 15, 0, false⟩ ⟨.custom, 255, 255, 255, 0, false⟩ := by
  refine ⟨by decide, by decide, fun h => ?_⟩
  exact absurd (h.color_eq rfl) (by decide)

end LedMatrix
