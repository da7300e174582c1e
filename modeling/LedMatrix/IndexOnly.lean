import LedMatrix.PixelHistory

/-!
# A call that gives only an index

The callback answers such a call with the index that it has set, and publishes a
message whose other fields have their defaults. `thread_led` takes these for a solid
colour, which is black: it leaves the mode that it was in and darkens the pixels at
the index.
-/

namespace LedMatrix

open Mealy MachineInt

variable {cfg : Config}

/-! ## The message -/

/-- The branch of such a call is chosen when there is an index and nothing else. -/
theorem chooseBranch_eq_index {parsedBits : Int32} {args : McpLedArgs}
    (h : chooseBranch parsedBits args = .index) :
    (hasBit parsedBits 4 && args.rainbow) = false ∧ parseRgbString args.color = none ∧
      hasChannelBit parsedBits = false ∧ args.action = none ∧ hasBit parsedBits 3 = true := by
  by_cases hrainbow : (hasBit parsedBits 4 && args.rainbow) = true
  · simp [chooseBranch, hrainbow] at h
  rw [chooseBranch, if_neg hrainbow] at h
  cases hcolor : parseRgbString args.color with
  | some c => simp [hcolor] at h
  | none =>
    by_cases hchannel : hasChannelBit parsedBits = true
    · simp [hcolor, hchannel] at h
    cases haction : args.action with
    | some name => simp [hcolor, hchannel, haction] at h
    | none =>
      by_cases hindex : hasBit parsedBits 3 = true
      · exact ⟨by simpa using hrainbow, rfl, by simpa using hchannel, rfl, hindex⟩
      · simp [hcolor, hchannel, haction, hindex] at h

/-- The callback answers that the index is set, and asks for black at this index. -/
theorem decodeArguments_of_index (cfg : Config) (text : Option (List UInt8)) {parsedBits : Int32}
    {args : McpLedArgs} (h : chooseBranch parsedBits args = .index) :
    decodeArguments cfg text parsedBits args =
      .print true ⟨.custom, 0, 0, 0, clampIndex args.index, false⟩
        s!"LED index set to {clampIndex args.index} via Zbus" := by
  obtain ⟨hrainbow, hcolor, hchannel, haction, hindex⟩ := chooseBranch_eq_index h
  simp only [decodeArguments, defaultMsg, hrainbow, hcolor, hchannel, haction, hindex,
    Bool.false_eq_true, if_false, if_true]

/-- The message is that of a call that gives only an index, in the strip. -/
def SelectsIndex (cfg : Config) (json : JsonObjParse) (msg : LedMsg) : Prop :=
  cfg.InStrip msg.index ∧ ∃ arguments, callBranch json arguments = .index ∧
    callCommand cfg json arguments = some msg

/-- The message of a call that gives only an index asks for black. -/
theorem SelectsIndex.msg_eq {json : JsonObjParse} {msg : LedMsg} (h : SelectsIndex cfg json msg) :
    msg = ⟨.custom, 0, 0, 0, msg.index, false⟩ := by
  obtain ⟨-, arguments, hbranch, hmsg⟩ := h
  have hchoose :
      chooseBranch (parseArguments json arguments).1 (parseArguments json arguments).2.1 = .index :=
    hbranch
  have hdecode := decodeArguments_of_index cfg (parseArguments json arguments).2.2 hchoose
  have hcommand := decodeArguments_command cfg (parseArguments json arguments).2.2
    (parseArguments json arguments).1 (parseArguments json arguments).2.1
  rw [hdecode] at hcommand
  obtain rfl := Option.some.inj (hcommand.trans hmsg)
  rfl

/-! ## What the thread makes of it -/

/-- Writing a colour changes nothing exactly where it is already. -/
theorem ledSet_eq_self_iff {color : LedRgb} {index : UInt16} {pixels : Pixels cfg} :
    ledSet cfg color index pixels = pixels ↔
      ∀ p, (hp : p < cfg.stripNumPixels) → Addresses cfg index p → pixels[p] = color := by
  constructor
  · intro h p hp haddressed
    have hpixel := getElem_ledSet color index pixels hp
    simp only [h, if_pos haddressed] at hpixel
    exact hpixel
  · intro h
    apply Vector.ext
    intro p hp
    rw [getElem_ledSet color index pixels hp]
    split_ifs with haddressed
    · exact (h p hp haddressed).symm
    · rfl

/-- The state holds black already: it is the solid colour, and that of the pixels at
the index. -/
structure HoldsBlack (x : ThreadState cfg) (index : UInt16) : Prop where
  mode_eq : x.mode = .solid
  solid_eq : x.solid = .black
  dark : DarkAt x index

/-- The message changes only the latched index, exactly when black is held already. -/
theorem SelectsIndex.onMessage_eq_iff {json : JsonObjParse} {msg : LedMsg}
    (h : SelectsIndex cfg json msg) (x : ThreadState cfg) :
    (x.onMessage msg).1 = { x with index := msg.index } ↔ HoldsBlack x msg.index := by
  have hstep : (x.onMessage msg).1 =
      { x with
        index := msg.index, mode := .solid, solid := .black
        pixels := ledSet cfg .black msg.index x.pixels } := by
    rw [h.msg_eq]
    rfl
  rw [hstep]
  constructor
  · intro heq
    obtain ⟨hmode, hsolid, -, -, hpixels⟩ := ThreadState.mk.inj heq
    exact ⟨hmode.symm, hsolid.symm, ledSet_eq_self_iff.mp hpixels⟩
  · rintro ⟨hmode, hsolid, hdark⟩
    rw [ledSet_eq_self_iff.mpr hdark, ← hmode, ← hsolid]

/-- If the input is the message of a call that gives only an index, it changes the
latched index and nothing else. -/
def ThreadState.OnlyRetargets (json : JsonObjParse) (x : ThreadState cfg) : Iteration → Prop
  | .message msg updateRc => SelectsIndex cfg json msg →
      (x.iterate (.message msg updateRc)).1 = { x with index := msg.index }
  | .timeout _ => True

/-- If the input is the message of a call that gives only an index, black is held
already. -/
def ThreadState.SelectsHeld (json : JsonObjParse) (x : ThreadState cfg) : Iteration → Prop
  | .message msg _ => SelectsIndex cfg json msg → HoldsBlack x msg.index
  | .timeout _ => True

/-- **When selecting an index changes nothing else.** In every run of `thread_led` from
start-up, the messages of calls that give only an index change the latched index and
nothing else, exactly when each of them comes while black is held already. -/
theorem onlyRetargets_iff (cfg : Config) (json : JsonObjParse) (es : List Iteration) :
    Guarded ThreadState.iterate (ThreadState.OnlyRetargets json) (.initial cfg) es ↔
      Guarded ThreadState.iterate (ThreadState.SelectsHeld json) (.initial cfg) es := by
  refine forall_congr' fun pre => forall_congr' fun e => forall_congr' fun post =>
    imp_congr_right fun _ => ?_
  cases e with
  | timeout updateRc => exact Iff.rfl
  | message msg updateRc => exact imp_congr_right fun h => h.onMessage_eq_iff _

/-- The arguments of a call that gives only the index 3. -/
def index3 : List UInt8 := CText.lit "\x7b\"index\":3\x7d"

/-- The decoder on the arguments of the call for index 3. -/
def decodesIndex3 : JsonObjParse :=
  .knowing [] [(index3, ⟨8, { McpLedArgs.zero with index := 3 }, index3⟩)]

/-- The message of the call. -/
def index3Msg : LedMsg := ⟨.custom, 0, 0, 0, 3, false⟩

/-- All pixels are made red. -/
def redRun : List Iteration := [.message ⟨.red, 0, 0, 0, 256, false⟩ 0]

/-- On a red strip the client is told that the index is set, and the thread goes over
to black. -/
theorem onlyRetargets_not_redRun :
    (decodeCall .default decodesIndex3 (some index3)).response =
        some (CText.lit "LED index set to 3 via Zbus") ∧
      (final ThreadState.iterate (.initial .default) redRun).solid = ⟨15, 0, 0⟩ ∧
      (final ThreadState.iterate (.initial .default) (redRun ++ [.message index3Msg 0])).solid =
        .black ∧
      ¬ Guarded ThreadState.iterate (ThreadState.OnlyRetargets decodesIndex3) (.initial .default)
        (redRun ++ [.message index3Msg 0]) := by
  have hselects : SelectsIndex .default decodesIndex3 index3Msg := by
    refine ⟨?_, some index3, by decide, by decide⟩
    unfold Config.InStrip
    decide
  refine ⟨by decide, rfl, rfl, fun h => ?_⟩
  have hstep := h redRun (.message index3Msg 0) [] rfl hselects
  have hsolid : (⟨0, 0, 0⟩ : LedRgb) = ⟨15, 0, 0⟩ := congrArg ThreadState.solid hstep
  exact absurd hsolid (by decide)

end LedMatrix
