import LedMatrix.FrontEnds

/-!
# The numbers of a POST

The members of a POST are signed numbers that `struct led_command` holds in
unsigned fields. Read as signed numbers they should saturate at both ends of
their ranges. The clamps of `parse_led_post` see unsigned numbers instead, so a
negative member saturates at the wrong end.
-/

namespace LedMatrix

open MachineInt

/-- The members that were decoded into the fields, as signed numbers. -/
def LedCommand.members (cmd : LedCommand) : Command :=
  ⟨cmd.r.toInt32, cmd.g.toInt32, cmd.b.toInt32, cmd.index.toInt32, cmd.rainbow⟩

/-- The fields hold the members. -/
theorem LedCommand.ledCommand_members (cmd : LedCommand) : cmd.members.ledCommand = cmd := by
  simp [members, Command.ledCommand]

/-- The command asks for more white light than `CONFIG_WHITE_LED_BRIGHTNESS`. -/
def Command.ExceedsWhite (cfg : Config) (c : Command) : Prop :=
  cfg.whiteLedBrightness < c.r.toInt ∧ cfg.whiteLedBrightness < c.g.toInt ∧
    cfg.whiteLedBrightness < c.b.toInt

instance (cfg : Config) (c : Command) : Decidable (c.ExceedsWhite cfg) :=
  inferInstanceAs (Decidable (_ ∧ _))

/-- What a channel of the command should become: the limit on white light, or the
signed number saturated between 0 and 255. -/
def Command.saturatedChannel (cfg : Config) (c : Command) (channel : Int32) : ℤ :=
  if c.ExceedsWhite cfg then cfg.whiteLedBrightness else max 0 (min channel.toInt 255)

/-- The message carries the saturated members. -/
structure Command.Saturates (cfg : Config) (c : Command) (msg : LedMsg) : Prop where
  r_eq : (msg.r.toNat : ℤ) = c.saturatedChannel cfg c.r
  g_eq : (msg.g.toNat : ℤ) = c.saturatedChannel cfg c.g
  b_eq : (msg.b.toNat : ℤ) = c.saturatedChannel cfg c.b
  index_eq : (msg.index.toNat : ℤ) = max 0 (min c.index.toInt cfg.ledMatrixPixels)

/-- No member is negative. -/
def Command.Nonneg (c : Command) : Prop :=
  0 ≤ c.r.toInt ∧ 0 ≤ c.g.toInt ∧ 0 ≤ c.b.toInt ∧ 0 ≤ c.index.toInt

/-- The index saturates at both ends exactly when it is not negative: a negative
one becomes the number of pixels, which is not zero. -/
theorem clampIndexU_saturates_iff {cfg : Config} (hsize : cfg.ledMatrixPixels ≤ 65535)
    {index : Int32} :
    ((clampIndexU cfg index.toUInt32).toNat : ℤ) = max 0 (min index.toInt cfg.ledMatrixPixels) ↔
      0 ≤ index.toInt := by
  have hclamp := clampIndexU_toNat cfg index.toUInt32
  have hword := toNat_toUInt32_cases index
  have hrange := cfg.ledMatrixPixels_range
  omega

/-- Members that are not negative saturate as they should. -/
theorem Command.Nonneg.saturates {cfg : Config} (hsize : cfg.ledMatrixPixels ≤ 65535)
    {c : Command} (h : c.Nonneg) : c.Saturates cfg (ledCommandMsg cfg c.ledCommand) := by
  obtain ⟨hr, hg, hb, hindex⟩ := h
  have hlimit := whiteLedBrightness_toNat cfg
  have hword : ∀ v : Int32, 0 ≤ v.toInt →
      (cfg.whiteLedBrightness < v.toUInt32.toNat ↔ (cfg.whiteLedBrightness : ℤ) < v.toInt) := by
    intro v hv
    have hsame := toNat_toUInt32_of_nonneg hv
    omega
  have hchannel : ∀ v : Int32, 0 ≤ v.toInt →
      ((if c.ExceedsWhite cfg then UInt8.ofNat cfg.whiteLedBrightness
        else clampChannelU v.toUInt32).toNat : ℤ) = c.saturatedChannel cfg v := by
    intro v hv
    unfold saturatedChannel
    split_ifs
    · rw [hlimit]
    · rw [clampChannel_eq_of_nonneg hv, clampChannel_toNat]
  have hexceeds : c.ExceedsWhite cfg ↔ cfg.whiteLedBrightness < c.ledCommand.r.toNat ∧
      cfg.whiteLedBrightness < c.ledCommand.g.toNat ∧
        cfg.whiteLedBrightness < c.ledCommand.b.toNat := by
    simp only [ExceedsWhite, ledCommand, hword _ hr, hword _ hg, hword _ hb]
  have hcolor := ledCommandMsg_color cfg c.ledCommand
  rw [← if_congr hexceeds rfl rfl] at hcolor
  have hr' := (congrArg LedRgb.r hcolor).trans (apply_ite LedRgb.r _ _ _)
  have hg' := (congrArg LedRgb.g hcolor).trans (apply_ite LedRgb.g _ _ _)
  have hb' := (congrArg LedRgb.b hcolor).trans (apply_ite LedRgb.b _ _ _)
  refine ⟨?_, ?_, ?_, ?_⟩
  · rw [← hchannel _ hr]
    exact congrArg (fun x : UInt8 => (x.toNat : ℤ)) hr'
  · rw [← hchannel _ hg]
    exact congrArg (fun x : UInt8 => (x.toNat : ℤ)) hg'
  · rw [← hchannel _ hb]
    exact congrArg (fun x : UInt8 => (x.toNat : ℤ)) hb'
  · rw [(c.post_message cfg).2.1, (clampIndexU_saturates_iff hsize).mpr hindex]

/-- Only members that are not negative saturate as they should. A negative channel
should become zero, and it becomes 255 or the limit. -/
theorem Command.Saturates.nonneg {cfg : Config} (hsize : cfg.ledMatrixPixels ≤ 65535)
    {c : Command} (h : c.Saturates cfg (ledCommandMsg cfg c.ledCommand)) : c.Nonneg := by
  have hindex : 0 ≤ c.index.toInt := by
    rw [← clampIndexU_saturates_iff hsize, ← (c.post_message cfg).2.1]
    exact h.index_eq
  by_contra hneg
  have hchannels : c.r.toInt < 0 ∨ c.g.toInt < 0 ∨ c.b.toInt < 0 := by
    unfold Nonneg at hneg
    omega
  have hwhite : ¬ c.ExceedsWhite cfg := by
    unfold ExceedsWhite
    omega
  have hmcp : ∀ v : Int32, c.saturatedChannel cfg v = (clampChannel v).toNat := by
    intro v
    rw [saturatedChannel, if_neg hwhite, clampChannel_toNat]
  have hr := h.r_eq
  have hg := h.g_eq
  have hb := h.b_eq
  rw [hmcp, Int.natCast_inj, UInt8.toNat_inj] at hr hg hb
  apply color_ne_of_neg hchannels
  show (ledCommandMsg cfg c.ledCommand).color = _
  rw [LedMsg.color, hr, hg, hb]

/-- A body is published exactly when it decodes completely, and then as a message
that carries its saturated members. -/
def PostSaturates (cfg : Config) (json : JsonObjParse) (body : List UInt8) : Prop :=
  ((∃ msg, parseLedPost cfg json body = some msg) ↔
      (json.ledCommand body).ret = expectedReturnCode) ∧
    ∀ msg, parseLedPost cfg json body = some msg →
      (json.ledCommand body).cmd.members.Saturates cfg msg

/-- **When a POST saturates**: for every number of pixels that fits in 16 bits and
every body, exactly when no member of a body that decodes completely is negative. -/
theorem post_saturates_iff (cfg : Config) (hsize : cfg.ledMatrixPixels ≤ 65535)
    (json : JsonObjParse) (body : List UInt8) :
    PostSaturates cfg json body ↔
      ((json.ledCommand body).ret = expectedReturnCode →
        (json.ledCommand body).cmd.members.Nonneg) := by
  have hmsg : ledCommandMsg cfg (json.ledCommand body).cmd.members.ledCommand =
      ledCommandMsg cfg (json.ledCommand body).cmd := by rw [LedCommand.ledCommand_members]
  constructor
  · rintro ⟨-, hsaturates⟩ hret
    have h := hsaturates _ (parseLedPost_eq_some.mpr ⟨hret, rfl⟩)
    rw [← hmsg] at h
    exact h.nonneg hsize
  · intro hnonneg
    refine ⟨⟨?_, ?_⟩, ?_⟩
    · rintro ⟨msg, h⟩
      exact (parseLedPost_eq_some.mp h).1
    · intro hret
      exact ⟨_, parseLedPost_eq_some.mpr ⟨hret, rfl⟩⟩
    · intro msg h
      obtain ⟨hret, rfl⟩ := parseLedPost_eq_some.mp h
      rw [← hmsg]
      exact (hnonneg hret).saturates hsize

/-- The dim red pixel is published as it should be. -/
theorem post_saturates_pixelCommand :
    PostSaturates .default (decodesCommand pixelCommand) pixelCommand.text :=
  (post_saturates_iff .default (by decide) _ _).mpr fun _ => by unfold Command.Nonneg; decide

/-- A command with a negative red channel. -/
def negativeRed : Command := ⟨-1, 0, 0, 3, false⟩

/-- The text of the command with the negative red channel. -/
def negativeRedText : List UInt8 :=
  CText.lit "\x7b\"r\":-1,\"g\":0,\"b\":0,\"index\":3,\"rainbow\":false\x7d"

/-- The POST makes the negative channel full red, where it should be dark. -/
theorem post_saturates_not_negativeRed :
    negativeRed.text = negativeRedText ∧
      parseLedPost .default (decodesCommand negativeRed) negativeRedText =
        some ⟨.custom, 255, 0, 0, 3, false⟩ ∧
      ¬ PostSaturates .default (decodesCommand negativeRed) negativeRedText := by
  refine ⟨by decide, by decide, fun h => ?_⟩
  have hr := (h.2 ⟨.custom, 255, 0, 0, 3, false⟩ (by decide)).r_eq
  exact absurd hr (by decide)

end LedMatrix
