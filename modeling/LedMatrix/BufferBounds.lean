import LedMatrix.System

/-!
# Bounds of the pixel buffer

`led_set` does not check its index. It stays in the buffer when the index of
every message does, since the index that a refresh uses is the latched index of
a message. Whether the index of a message does depends on the front end, which
clamps it, and on the board, which fixes the length of the buffer.
-/

namespace LedMatrix

open MachineInt

/-- The index addresses the whole strip or one pixel of the buffer. -/
def Config.InStrip (cfg : Config) (index : UInt16) : Prop :=
  index.toNat = cfg.ledMatrixPixels ∨ index.toNat < cfg.stripNumPixels

/-- `led_set` stays in the buffer exactly when the index is in the strip. -/
theorem ledSetAccesses_inBounds {cfg : Config} {index : UInt16} :
    (∀ i ∈ ledSetAccesses cfg index, i < cfg.stripNumPixels) ↔ cfg.InStrip index := by
  unfold ledSetAccesses Config.InStrip
  by_cases hall : index.toNat = cfg.ledMatrixPixels
  · simp [hall]
  · simp [hall]

/-- The index that stands for all pixels is in the strip. It is so too where it
wraps to zero, since a strip has at least one pixel. -/
theorem Config.allIndex_inStrip (cfg : Config) : cfg.InStrip cfg.allIndex := by
  have hcast := cfg.allIndex_toNat
  have hrange := cfg.ledMatrixPixels_range
  have hpos := cfg.stripNumPixels_pos
  unfold InStrip
  omega

/-! ## The thread -/

/-- A message latches its own index, and `led_set` is called with that. -/
theorem ThreadState.onMessage_index {cfg : Config} (s : ThreadState cfg) (msg : LedMsg) :
    (s.onMessage msg).1.index = msg.index ∧
      ∀ call ∈ (s.onMessage msg).2, call.accesses = ledSetAccesses cfg msg.index := by
  rcases s.onMessage_cases msg with ⟨h, -⟩ | ⟨h, -⟩ | ⟨color, -, h⟩
  · rw [h]
    exact ⟨rfl, by simp⟩
  · rw [h]
    exact ⟨rfl, by simp [draw]⟩
  · rw [h]
    exact ⟨rfl, by simp [drawSolid, draw]⟩

/-- A timeout calls `led_set` once, with the latched index. -/
theorem ThreadState.onTimeout_calls {cfg : Config} (s : ThreadState cfg) :
    ∃ frame, s.onTimeout.2 = [⟨ledSetAccesses cfg s.index, frame⟩] := by
  rcases s.onTimeout_cases with ⟨-, h⟩ | ⟨-, h⟩ | ⟨-, h⟩
  · rw [h]
    exact ⟨_, rfl⟩
  · rw [h]
    exact ⟨_, rfl⟩
  · rw [h]
    exact ⟨_, rfl⟩

/-! ## The front ends -/

/-- A branch that knows no action of that name publishes nothing. -/
def Branch.Unknown : Branch → Prop
  | .action name => name ≠ CText.lit "rainbow" ∧ namedAction name = none
  | _ => False

/-- Every branch that does not search the text publishes something, unless it
does not know the action. -/
theorem Branch.command_isSome (msg : LedMsg) (args : McpLedArgs) (text : Option (List UInt8))
    {branch : Branch} (h : branch ≠ .extracted) :
    (branch.command msg args text).isSome = true ↔ ¬ branch.Unknown := by
  cases branch with
  | extracted => exact absurd rfl h
  | action name =>
    by_cases hrainbow : name = CText.lit "rainbow"
    · simp [command, Unknown, hrainbow]
    · cases hname : namedAction name <;> simp [command, Unknown, hrainbow, hname]
  | rainbow => simp [command, Unknown]
  | color c => simp [command, Unknown]
  | channels => simp [command, Unknown]
  | index => simp [command, Unknown]

/-- The index that a request asks for is in the strip after its front end has
clamped it: to `CONFIG_LED_MATRIX_PIXELS` for a POST, whose index must be below
the length of the buffer if it is not clamped; to 65535 for an MCP call. A
request without an index, or that publishes nothing, is fine. -/
def Request.AddressesStrip (cfg : Config) (json : JsonObjParse) : Request → Prop
  | .post body =>
    let parsed := json.ledCommand body
    parsed.ret = expectedReturnCode →
      cfg.ledMatrixPixels ≤ parsed.cmd.index.toNat ∨ parsed.cmd.index.toNat < cfg.stripNumPixels
  | .call event arguments _ =>
    let (parsedBits, args, _) := parseArguments json arguments
    let index := clamp args.index.toInt 0 65535
    event = .callRequest → hasBit parsedBits 3 = true → ¬ (chooseBranch parsedBits args).Unknown →
      index = cfg.ledMatrixPixels ∨ index < cfg.stripNumPixels

/-- The clamped index of a POST is in the strip exactly when the index is at
least the number of pixels, or below the length of the buffer. -/
theorem clampIndexU_inStrip {cfg : Config} {index : UInt32} :
    cfg.InStrip (clampIndexU cfg index) ↔
      cfg.ledMatrixPixels ≤ index.toNat ∨ index.toNat < cfg.stripNumPixels := by
  have hrange := cfg.ledMatrixPixels_range
  have hpos := cfg.stripNumPixels_pos
  rw [Config.InStrip, clampIndexU_toNat]
  omega

/-- With the single pixel of the DevKitC the clamp of a POST does not help. -/
example : ¬ Config.devkitc.InStrip (clampIndexU .devkitc 5) := by
  unfold Config.InStrip
  decide

/-- The clamped index of an MCP call is in the strip exactly when its value is. -/
theorem clampIndex_inStrip {cfg : Config} {index : Int32} :
    cfg.InStrip (clampIndex index) ↔
      clamp index.toInt 0 65535 = cfg.ledMatrixPixels ∨
        clamp index.toInt 0 65535 < cfg.stripNumPixels := by
  have hvalue := clampIndex_toNat index
  unfold Config.InStrip
  omega

/-- The message of a call addresses the strip exactly when no index is decoded,
the action is unknown, or the clamped index is in the strip. -/
theorem callCommand_inStrip {cfg : Config} {json : JsonObjParse} {arguments : Option (List UInt8)} :
    (∀ msg, callCommand cfg json arguments = some msg → cfg.InStrip msg.index) ↔
      let (parsedBits, args, _) := parseArguments json arguments
      hasBit parsedBits 3 = true → ¬ (chooseBranch parsedBits args).Unknown →
        cfg.InStrip (clampIndex args.index) := by
  simp only [callCommand, callBranch, callDefaultMsg]
  obtain ⟨bits, args, text⟩ := parseArguments json arguments
  dsimp only
  by_cases hbit : hasBit bits 3 = true
  · have hpublishes : ((chooseBranch bits args).command (defaultMsg cfg bits args) args
        text).isSome = true ↔ ¬ (chooseBranch bits args).Unknown :=
      Branch.command_isSome _ _ _ (chooseBranch_ne_extracted hbit)
    have hindex : (defaultMsg cfg bits args).index = clampIndex args.index := by
      simp only [defaultMsg, if_pos hbit]
    constructor
    · intro h _ hknown
      obtain ⟨msg, hmsg⟩ := Option.isSome_iff_exists.mp (hpublishes.mpr hknown)
      have hin := h msg hmsg
      rwa [Branch.command_index hmsg, hindex] at hin
    · intro h msg hmsg
      rw [Branch.command_index hmsg, hindex]
      exact h hbit (hpublishes.mp (Option.isSome_iff_exists.mpr ⟨msg, hmsg⟩))
  · refine iff_of_true ?_ fun h => absurd h hbit
    intro msg hmsg
    rw [Branch.command_index hmsg]
    simp only [defaultMsg, if_neg hbit]
    exact cfg.allIndex_inStrip

/-- The message of a POST addresses the strip exactly when the clamped index
does. -/
theorem parseLedPost_inStrip {cfg : Config} {json : JsonObjParse} {body : List UInt8} :
    (∀ msg, parseLedPost cfg json body = some msg → cfg.InStrip msg.index) ↔
      ((json.ledCommand body).ret = expectedReturnCode →
        cfg.InStrip (clampIndexU cfg (json.ledCommand body).cmd.index)) := by
  have hindex : (ledCommandMsg cfg (json.ledCommand body).cmd).index =
      clampIndexU cfg (json.ledCommand body).cmd.index := by
    simp only [ledCommandMsg, limitWhite_index]
  constructor
  · intro h hret
    have hin := h _ (parseLedPost_eq_some.mpr ⟨hret, rfl⟩)
    rwa [hindex] at hin
  · intro h msg hmsg
    obtain ⟨hret, rfl⟩ := parseLedPost_eq_some.mp hmsg
    rw [hindex]
    exact h hret

/-- A request addresses the strip exactly when the message it publishes does. -/
theorem Request.addressesStrip_iff {cfg : Config} {json : JsonObjParse} {q : Request} :
    q.AddressesStrip cfg json ↔ ∀ msg, q.message cfg json = some msg → cfg.InStrip msg.index := by
  cases q with
  | post body =>
    simp only [AddressesStrip, message, parseLedPost_inStrip, clampIndexU_inStrip]
  | call event arguments token =>
    by_cases hcall : event = .callRequest
    · simp only [AddressesStrip, message, hcall, if_true, true_implies, callCommand_inStrip,
        clampIndex_inStrip]
    · simp [AddressesStrip, message, hcall]

/-! ## The system -/

/-- A request on its own makes `led_set` access what its index addresses, at the
latest when the thread refreshes the strip. -/
theorem Sys.exec_alone_accesses {cfg : Config} {json : JsonObjParse} {q : Request} {msg : LedMsg}
    (h : q.message cfg json = some msg) :
    ∃ s, Runs.exec (Sys.step cfg json) (Sys.initial cfg) q.alone = some s ∧
      ∃ call ∈ s.bus.emitted, call.accesses = ledSetAccesses cfg msg.index := by
  obtain ⟨s, hrun, -, -, hemitted⟩ := Sys.exec_alone h
  obtain ⟨hindex, -⟩ := (ThreadState.initial cfg).onMessage_index msg
  obtain ⟨frame, hcalls⟩ := ((ThreadState.initial cfg).onMessage msg).1.onTimeout_calls
  rw [hindex] at hcalls
  refine ⟨s, hrun, ⟨_, frame⟩, ?_, rfl⟩
  rw [hemitted, hcalls]
  exact List.mem_append_right _ (List.mem_singleton.mpr rfl)

/-- **When the buffer is respected.** For every set of requests: all runs over
these requests keep `led_set` in the pixel buffer if and only if each of the
requests asks, after the clamp of its front end, for an index in the strip. -/
theorem accesses_inBounds_iff (cfg : Config) (json : JsonObjParse) (requests : Set Request) :
    (∀ q ∈ requests, q.AddressesStrip cfg json) ↔
      ∀ es s, (∀ q ready, .request q ready ∈ es → q ∈ requests) →
        Runs.exec (Sys.step cfg json) (Sys.initial cfg) es = some s →
          ∀ call ∈ s.bus.emitted, ∀ i ∈ call.accesses, i < cfg.stripNumPixels := by
  constructor
  · intro h es s hes hrun
    have hconfined := Sys.exec_confined
      (K := fun msg => cfg.InStrip msg.index) (I := fun x => cfg.InStrip x.index)
      (J := fun call => ∀ i ∈ call.accesses, i < cfg.stripNumPixels) ?_ ?_
      cfg.allIndex_inStrip ?_ hrun
    · exact hconfined.emitted_mem
    · intro x msg hmsg _
      obtain ⟨hindex, haccesses⟩ := x.onMessage_index msg
      refine ⟨by rw [hindex]; exact hmsg, fun call hcall => ?_⟩
      rw [haccesses call hcall]
      exact ledSetAccesses_inBounds.mpr hmsg
    · intro x hx
      obtain ⟨-, hindex⟩ := x.onTimeout_frame
      obtain ⟨frame, hcalls⟩ := x.onTimeout_calls
      refine ⟨by rw [hindex]; exact hx, fun call hcall => ?_⟩
      rw [hcalls] at hcall
      obtain rfl := List.mem_singleton.mp hcall
      exact ledSetAccesses_inBounds.mpr hx
    · intro q ready hq msg hmsg
      exact Request.addressesStrip_iff.mp (h q (hes q ready hq)) msg hmsg
  · intro h q hq
    rw [Request.addressesStrip_iff]
    intro msg hmsg
    obtain ⟨s, hrun, call, hcall, haccesses⟩ := Sys.exec_alone_accesses hmsg
    have hbounds := h _ s ?_ hrun call hcall
    · rw [haccesses] at hbounds
      exact ledSetAccesses_inBounds.mp hbounds
    · intro q' ready hq'
      obtain rfl := Request.eq_of_mem_alone hq'
      exact hq

/-- The arguments of an MCP call that asks for the index 300. -/
def index300 : List UInt8 := CText.lit "\x7b\"index\":300\x7d"

/-- The decoder on the arguments of the call for index 300. -/
def decodesIndex300 : JsonObjParse :=
  .knowing [] [(index300, ⟨8, { McpLedArgs.zero with index := 300 }, index300⟩)]

/-- On a strip of 256 pixels the call makes `led_set` write the pixel 300. -/
theorem index300_outOfBounds :
    ∃ es s, Runs.exec (Sys.step .default decodesIndex300) (Sys.initial .default) es = some s ∧
      ∃ call ∈ s.bus.emitted, 300 ∈ call.accesses ∧ Config.default.stripNumPixels ≤ 300 := by
  have hmessage : (Request.call .callRequest (some index300) []).message .default decodesIndex300 =
      some ⟨.custom, 0, 0, 0, 300, false⟩ := by
    decide
  obtain ⟨s, hrun, hcalls⟩ := Sys.exec_alone_accesses hmessage
  obtain ⟨call, hcall, haccesses⟩ := hcalls
  refine ⟨_, s, hrun, call, hcall, ?_, by decide⟩
  rw [haccesses]
  decide

end LedMatrix
