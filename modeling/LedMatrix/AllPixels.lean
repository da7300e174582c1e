import LedMatrix.McpProtocol
import LedMatrix.System

/-!
# The index for all pixels

One past the last pixel stands for all of them. On its way from a request to
`led_set` this number passes two clamps and a 16-bit field. It gets through as long
as it fits in 16 bits, which the largest number of pixels that Kconfig admits does
not.
-/

namespace LedMatrix

open MachineInt

/-! ## What a request asks for -/

/-- The index that a request gives. A call whose parse fails has decoded none. -/
def Request.index (json : JsonObjParse) : Request → Option ℤ
  | .post body => some (json.ledCommand body).cmd.index.toNat
  | .call _ arguments _ =>
    let (parsedBits, args, _) := parseArguments json arguments
    if 0 ≤ parsedBits.toInt ∧ hasBit parsedBits 3 = true then some args.index.toInt else none

/-- The index that a failed parse has left behind, if its negative result has bit 3
set and so passes for one with an index. -/
def Request.leftoverIndex (json : JsonObjParse) : Request → Option UInt16
  | .post _ => none
  | .call _ arguments _ =>
    let (parsedBits, args, _) := parseArguments json arguments
    if parsedBits.toInt < 0 ∧ hasBit parsedBits 3 = true then some (clampIndex args.index) else none

/-- The request publishes a message: it is a POST whose five members are all decoded, or a
call in whose arguments a command is recognised. -/
def Request.Publishes (json : JsonObjParse) : Request → Prop
  | .post body => (json.ledCommand body).ret = expectedReturnCode
  | .call event arguments _ => event = .callRequest ∧ CallRecognised json arguments

/-- The request is for all pixels: it gives no index, or `CONFIG_LED_MATRIX_PIXELS`. -/
def Request.AsksAll (cfg : Config) (json : JsonObjParse) (q : Request) : Prop :=
  q.index json = none ∨ q.index json = some (cfg.ledMatrixPixels : ℤ)

/-- With the message of the request `led_set` writes the pixels that the request asks
for: all of them, or the single one whose index it gives. -/
def Request.ReachesPixels (cfg : Config) (json : JsonObjParse) (q : Request) : Prop :=
  ∀ msg, q.message cfg json = some msg →
    (q.AsksAll cfg json → ledSetAccesses cfg msg.index = List.range cfg.stripNumPixels) ∧
      ∀ i : ℕ, q.index json = some (i : ℤ) → i < cfg.ledMatrixPixels →
        ledSetAccesses cfg msg.index = [i]

/-! ## What `led_set` makes of an index -/

/-- `led_set` writes all pixels exactly when the index addresses each of them. -/
theorem ledSetAccesses_eq_range_iff {cfg : Config} {index : UInt16} :
    ledSetAccesses cfg index = List.range cfg.stripNumPixels ↔
      ∀ p, p < cfg.stripNumPixels → Addresses cfg index p := by
  constructor
  · intro h p hp
    rw [← mem_ledSetAccesses hp, h, List.mem_range]
    exact hp
  · intro h
    unfold ledSetAccesses
    by_cases hall : index.toNat = cfg.ledMatrixPixels
    · rw [if_pos hall]
    · -- The index of one pixel addresses them all only if there is one pixel.
      have hpos := cfg.stripNumPixels_pos
      have hzero : index.toNat = 0 := (h 0 hpos).resolve_left hall
      have hsingle : cfg.stripNumPixels = 1 := by
        by_contra hmore
        have hone := (h 1 (by omega)).resolve_left hall
        omega
      rw [if_neg hall, hzero, hsingle]
      rfl

/-- No index addresses all of more than 65535 pixels. -/
theorem ledMatrixPixels_le_of_addresses {cfg : Config}
    (hstrip : cfg.stripNumPixels = cfg.ledMatrixPixels) {index : UInt16}
    (h : ∀ p, p < cfg.stripNumPixels → Addresses cfg index p) : cfg.ledMatrixPixels ≤ 65535 := by
  have hindex : index.toNat < 65536 := index.toNat_lt
  by_contra hlarge
  have hzero := h 0 (by omega)
  have hone := h 1 (by omega)
  unfold Addresses at hzero hone
  omega

/-! ## What a request makes of its index -/

/-- A request has a message exactly when it publishes one. -/
theorem Request.isSome_message_iff {cfg : Config} {json : JsonObjParse} {q : Request} :
    (q.message cfg json).isSome = true ↔ q.Publishes json := by
  rw [Option.isSome_iff_exists]
  cases q with
  | post body =>
    simp only [message, Publishes]
    constructor
    · rintro ⟨msg, hmsg⟩
      exact (parseLedPost_eq_some.mp hmsg).1
    · intro hret
      exact ⟨_, parseLedPost_eq_some.mpr ⟨hret, rfl⟩⟩
  | call event arguments token =>
    simp only [message, Publishes, Option.ite_none_right_eq_some, exists_and_left]
    refine and_congr_right fun _ => ?_
    rw [← Option.isSome_iff_exists]
    exact Branch.isSome_command_iff _

/-- The index of the message of a POST. -/
theorem parseLedPost_index {cfg : Config} {json : JsonObjParse} {body : List UInt8} {msg : LedMsg}
    (h : parseLedPost cfg json body = some msg) :
    msg.index.toNat = min (json.ledCommand body).cmd.index.toNat cfg.ledMatrixPixels % 65536 := by
  obtain ⟨-, rfl⟩ := parseLedPost_eq_some.mp h
  rw [← clampIndexU_toNat]
  simp only [ledCommandMsg, limitWhite_index]

/-- The index of the message of a call. -/
theorem callCommand_index {cfg : Config} {json : JsonObjParse} {arguments : Option (List UInt8)}
    {msg : LedMsg} (h : callCommand cfg json arguments = some msg) :
    msg.index = if hasBit (parseArguments json arguments).1 3 = true then
      clampIndex (parseArguments json arguments).2.1.index else cfg.allIndex := by
  simp only [callCommand, callDefaultMsg] at h
  rw [Branch.command_index h]
  rfl

/-- An index that the call gives is clamped to 16 bits. -/
theorem callCommand_index_toNat {cfg : Config} {json : JsonObjParse}
    {arguments : Option (List UInt8)} {msg : LedMsg}
    (h : callCommand cfg json arguments = some msg)
    (hbit : hasBit (parseArguments json arguments).1 3 = true) :
    (msg.index.toNat : ℤ) = max 0 (min (parseArguments json arguments).2.1.index.toInt 65535) := by
  rw [callCommand_index h, if_pos hbit, clampIndex_toNat, clamp_eq _ (by decide)]

/-- The message of a request that gives the index of a pixel has that index. -/
theorem Request.message_index_of_lt {cfg : Config} {json : JsonObjParse} {q : Request}
    {msg : LedMsg} (hmsg : q.message cfg json = some msg) {i : ℕ}
    (hindex : q.index json = some (i : ℤ)) (hi : i < cfg.ledMatrixPixels) :
    msg.index.toNat = i := by
  have hrange := cfg.ledMatrixPixels_range
  cases q with
  | post body =>
    have hvalue := parseLedPost_index hmsg
    have hasked : ((json.ledCommand body).cmd.index.toNat : ℤ) = i := Option.some.inj hindex
    omega
  | call event arguments token =>
    simp only [message, Option.ite_none_right_eq_some] at hmsg
    simp only [index] at hindex
    split_ifs at hindex with hdecoded
    have hasked := Option.some.inj hindex
    have hvalue := callCommand_index_toNat hmsg.2 hdecoded.2
    rw [hasked] at hvalue
    omega

/-- The message of a request for all pixels has the index that stands for them,
exactly when that fits in 16 bits; but a failed parse may pass for one with an index. -/
theorem Request.message_index_of_all {cfg : Config} {json : JsonObjParse} {q : Request}
    {msg : LedMsg} (hmsg : q.message cfg json = some msg) (hall : q.AsksAll cfg json) :
    q.leftoverIndex json = some msg.index ∨
      q.leftoverIndex json = none ∧
        (cfg.ledMatrixPixels ≤ 65535 → msg.index.toNat = cfg.ledMatrixPixels) := by
  have hrange := cfg.ledMatrixPixels_range
  cases q with
  | post body =>
    have hvalue := parseLedPost_index hmsg
    rcases hall with hall | hall
    · cases hall
    · have hasked : ((json.ledCommand body).cmd.index.toNat : ℤ) = cfg.ledMatrixPixels :=
        Option.some.inj hall
      exact .inr ⟨rfl, fun hfits => by omega⟩
  | call event arguments token =>
    simp only [message, Option.ite_none_right_eq_some] at hmsg
    have hvalue := callCommand_index hmsg.2
    simp only [AsksAll, index] at hall
    simp only [leftoverIndex]
    by_cases hbit : hasBit (parseArguments json arguments).1 3 = true
    · rw [if_pos hbit] at hvalue
      by_cases hfailed : (parseArguments json arguments).1.toInt < 0
      · exact .inl (by rw [if_pos ⟨hfailed, hbit⟩, hvalue])
      · rw [if_pos ⟨by omega, hbit⟩] at hall
        have hasked := Option.some.inj (hall.resolve_left (by simp))
        have hclamped := callCommand_index_toNat hmsg.2 hbit
        rw [hasked] at hclamped
        exact .inr ⟨if_neg fun h => hfailed h.1, fun hfits => by omega⟩
    · rw [if_neg hbit] at hvalue
      refine .inr ⟨if_neg fun h => hbit h.2, fun hfits => ?_⟩
      have hcast := cfg.allIndex_toNat
      rw [hvalue]
      omega

/-- **When the index for all pixels survives.** On a strip of
`CONFIG_LED_MATRIX_PIXELS` pixels a request reaches the pixels that it asks for, unless
it publishes, asks for all of them, and either their number does not fit in 16 bits or its
failed parse passes for one with an index that does not address them all. -/
theorem reachesPixels_iff {cfg : Config} (hstrip : cfg.stripNumPixels = cfg.ledMatrixPixels)
    (json : JsonObjParse) (q : Request) :
    q.ReachesPixels cfg json ↔
      (q.Publishes json → q.AsksAll cfg json → cfg.ledMatrixPixels ≤ 65535 ∧
        ∀ index ∈ q.leftoverIndex json, ∀ p, p < cfg.stripNumPixels → Addresses cfg index p) := by
  constructor
  · intro hreaches hpublishes hall
    have hsome : (q.message cfg json).isSome = true := Request.isSome_message_iff.mpr hpublishes
    obtain ⟨msg, hmsg⟩ := Option.isSome_iff_exists.mp hsome
    have haddresses := ledSetAccesses_eq_range_iff.mp ((hreaches msg hmsg).1 hall)
    refine ⟨ledMatrixPixels_le_of_addresses hstrip haddresses, fun index hindex => ?_⟩
    rcases Request.message_index_of_all hmsg hall with hleftover | ⟨hnone, -⟩
    · obtain rfl := Option.some.inj (hindex.symm.trans hleftover)
      exact haddresses
    · rw [hnone] at hindex
      cases hindex
  · intro hcondition msg hmsg
    refine ⟨fun hall => ?_, fun i hindex hi => ?_⟩
    · have hpublishes : q.Publishes json :=
        Request.isSome_message_iff.mp (Option.isSome_iff_exists.mpr ⟨msg, hmsg⟩)
      obtain ⟨hfits, hleftover⟩ := hcondition hpublishes hall
      rw [ledSetAccesses_eq_range_iff]
      rcases Request.message_index_of_all hmsg hall with hpasses | ⟨-, hvalue⟩
      · exact hleftover _ hpasses
      · exact fun p _ => .inl (hvalue hfits)
    · have hvalue := Request.message_index_of_lt hmsg hindex hi
      rw [ledSetAccesses, hvalue, if_neg (by omega)]

/-- A call that gives the action `on` and no index. -/
def onCall : Request := .call .callRequest (some (CText.lit "\x7b\"action\":\"on\"\x7d")) []

/-- The decoder on its arguments, which the parse in place ends with their string. -/
def decodesOn : JsonObjParse :=
  .knowing [] [(CText.lit "\x7b\"action\":\"on\"\x7d",
    ⟨32, { McpLedArgs.zero with action := some (CText.lit "on") },
      CText.lit "\x7b\"action\":\"on"⟩)]

/-- On the default strip the call reaches all pixels. -/
theorem reachesPixels_onCall :
    onCall.message .default decodesOn = some ⟨.on, 0, 0, 0, 256, false⟩ ∧
      onCall.ReachesPixels .default decodesOn := by
  refine ⟨by decide, (reachesPixels_iff rfl decodesOn onCall).mpr fun _ _ => ⟨by decide, ?_⟩⟩
  have hnone : onCall.leftoverIndex decodesOn = none := by decide
  rw [hnone]
  simp

/-- The largest strip that Kconfig admits. -/
def Config.largest : Config :=
  { Config.default with ledMatrixPixels := 65536, ledMatrixPixels_range := by decide }

/-- On the largest strip the call is for the pixel 0 alone. -/
theorem reachesPixels_not_largest :
    Config.largest.stripNumPixels = Config.largest.ledMatrixPixels ∧
      onCall.message .largest decodesOn = some ⟨.on, 0, 0, 0, 0, false⟩ ∧
      ledSetAccesses .largest 0 = [0] ∧ ¬ onCall.ReachesPixels .largest decodesOn := by
  have hmessage : onCall.message .largest decodesOn = some ⟨.on, 0, 0, 0, 0, false⟩ := by decide
  refine ⟨rfl, hmessage, by decide, fun h => ?_⟩
  have hrange := (h _ hmessage).1 (.inl (by decide))
  have haddresses := ledSetAccesses_eq_range_iff.mp hrange
  have hfits := ledMatrixPixels_le_of_addresses rfl haddresses
  exact absurd hfits (by decide)

end LedMatrix
