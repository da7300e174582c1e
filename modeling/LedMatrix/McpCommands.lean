import LedMatrix.McpServer

/-!
# What the MCP callback publishes

The callback mixes the choice of a branch, the message and the response text.
Here the choice and the message are separated from the text: `chooseBranch`
is the order of the tests, `Branch.command` is the message of each branch, and
`decodeArguments_command` says that the callback computes exactly these.
-/

namespace LedMatrix

open MachineInt CText

/-- The actions that both `strcmp` chains know. -/
def namedAction (name : List UInt8) : Option LedAction :=
  if name = lit "on" then some .on
  else if name = lit "off" then some .off
  else if name = lit "toggle" then some .toggle
  else if name = lit "red" then some .red
  else if name = lit "green" then some .green
  else if name = lit "blue" then some .blue
  else none

/-- No name stands for the action that carries a colour. -/
theorem namedAction_ne_custom {name : List UInt8} {a : LedAction} (h : namedAction name = some a) :
    a ≠ .custom := by
  rintro rfl
  unfold namedAction at h
  split_ifs at h <;> simp at h

/-- The chain on the extracted string publishes the named actions. -/
theorem decodeExtractedAction_command (msg : LedMsg) (name : List UInt8) :
    (decodeExtractedAction msg name).command =
      (namedAction name).map fun a => { msg with action := a } := by
  unfold decodeExtractedAction namedAction
  split_ifs <;> rfl

/-- The chain on `args.action` publishes the named actions, and `rainbow`. -/
theorem decodeArgsAction_command (msg : LedMsg) (name : List UInt8) :
    (decodeArgsAction msg name).command =
      if name = lit "rainbow" then some { msg with action := .custom, rainbow := true }
      else (namedAction name).map fun a => { msg with action := a } := by
  by_cases hrainbow : name = lit "rainbow"
  · subst hrainbow
    rfl
  · rw [if_neg hrainbow]
    unfold decodeArgsAction namedAction
    split_ifs <;> rfl

/-! ## The clamped members -/

/-- A signed channel saturates between 0 and 255. -/
theorem clampChannel_toNat (c : Int32) :
    ((clampChannel c).toNat : ℤ) = max 0 (min c.toInt 255) := by
  have hcast := toNat_ofInt_uint8 (clamp c.toInt 0 255)
  have hclamp := clamp_eq c.toInt (show (0 : ℤ) ≤ 255 by decide)
  simp only [clampChannel]
  omega

/-- The clamped index of an MCP call keeps its value in 16 bits. -/
theorem clampIndex_toNat (index : Int32) :
    ((clampIndex index).toNat : ℤ) = clamp index.toInt 0 65535 := by
  have hbounds := clamp_mem index.toInt (show (0 : ℤ) ≤ 65535 by decide)
  rw [clampIndex, toNat_ofInt_uint16]
  omega

/-! ## The choice of a branch -/

/-- The branches of the callback, with what their tests have found. -/
inductive Branch
  | rainbow
  | color (c : LedRgb)
  | channels
  | action (name : List UInt8)
  | index
  | extracted
  deriving DecidableEq, Repr

/-- The order in which the callback tests the parsed bits and the arguments. -/
def chooseBranch (parsedBits : Int32) (args : McpLedArgs) : Branch :=
  if hasBit parsedBits 4 && args.rainbow then .rainbow
  else
    match parseRgbString args.color with
    | some c => .color c
    | none =>
      if hasChannelBit parsedBits then .channels
      else
        match args.action with
        | some name => .action name
        | none => if hasBit parsedBits 3 then .index else .extracted

/-- Once an index is decoded the text is not searched. -/
theorem chooseBranch_ne_extracted {parsedBits : Int32} {args : McpLedArgs}
    (h : hasBit parsedBits 3 = true) : chooseBranch parsedBits args ≠ .extracted := by
  simp only [chooseBranch, h, if_true]
  split
  · simp
  · split
    · simp
    · split
      · simp
      · split <;> simp

/-- The message of a branch, from the default message. -/
def Branch.command (msg : LedMsg) (args : McpLedArgs) (text : Option (List UInt8)) :
    Branch → Option LedMsg
  | .rainbow => some { msg with action := .custom, rainbow := true }
  | .color c => some { msg with action := .custom, r := c.r, g := c.g, b := c.b, rainbow := false }
  | .channels =>
    some { msg with
      action := .custom, r := clampChannel args.r, g := clampChannel args.g
      b := clampChannel args.b, rainbow := args.rainbow }
  | .action name =>
    if name = lit "rainbow" then some { msg with action := .custom, rainbow := true }
    else (namedAction name).map fun a => { msg with action := a }
  | .index => some { msg with action := .custom }
  | .extracted =>
    (extractJsonStringValue text (lit "\"action\"")).bind fun name =>
      (namedAction name).map fun a => { msg with action := a }

/-- **The callback publishes the message of the branch it chooses.** -/
theorem decodeArguments_command (cfg : Config) (text : Option (List UInt8)) (parsedBits : Int32)
    (args : McpLedArgs) :
    (decodeArguments cfg text parsedBits args).command =
      (chooseBranch parsedBits args).command (defaultMsg cfg parsedBits args) args text := by
  unfold decodeArguments chooseBranch
  by_cases hrainbow : (hasBit parsedBits 4 && args.rainbow) = true
  · simp only [if_pos hrainbow]
    rfl
  simp only [if_neg hrainbow]
  cases parseRgbString args.color with
  | some c => rfl
  | none =>
    by_cases hchannel : hasChannelBit parsedBits = true
    · simp only [if_pos hchannel]
      cases hr : args.rainbow <;> simp [Decoded.print, Decoded.command, Branch.command, hr]
    · simp only [if_neg hchannel]
      cases args.action with
      | some name => exact decodeArgsAction_command _ _
      | none =>
        by_cases hindex : hasBit parsedBits 3 = true
        · simp only [if_pos hindex]
          rfl
        · simp only [if_neg hindex, Branch.command]
          cases extractJsonStringValue text (lit "\"action\"") with
          | some name => exact decodeExtractedAction_command _ _
          | none => rfl

/-- Every published message has the index of the default message. -/
theorem Branch.command_index {msg m : LedMsg} {args : McpLedArgs} {text : Option (List UInt8)}
    {branch : Branch} (h : branch.command msg args text = some m) : m.index = msg.index := by
  cases branch with
  | rainbow => obtain rfl := Option.some.inj h; rfl
  | color c => obtain rfl := Option.some.inj h; rfl
  | channels => obtain rfl := Option.some.inj h; rfl
  | index => obtain rfl := Option.some.inj h; rfl
  | action name =>
    simp only [Branch.command] at h
    split_ifs at h
    · obtain rfl := Option.some.inj h
      rfl
    · obtain ⟨a, -, rfl⟩ := Option.map_eq_some_iff.mp h
      rfl
  | extracted =>
    obtain ⟨name, -, h⟩ := Option.bind_eq_some_iff.mp h
    obtain ⟨a, -, rfl⟩ := Option.map_eq_some_iff.mp h
    rfl

/-! ## The published message of a whole call -/

/-- The branch that a call chooses. -/
def callBranch (json : JsonObjParse) (arguments : Option (List UInt8)) : Branch :=
  let (parsedBits, args, _) := parseArguments json arguments
  chooseBranch parsedBits args

/-- The default message of a call. -/
def callDefaultMsg (cfg : Config) (json : JsonObjParse) (arguments : Option (List UInt8)) :
    LedMsg :=
  let (parsedBits, args, _) := parseArguments json arguments
  defaultMsg cfg parsedBits args

/-- The message that a call publishes once the strip is known to be ready. -/
def callCommand (cfg : Config) (json : JsonObjParse) (arguments : Option (List UInt8)) :
    Option LedMsg :=
  let (_, args, text) := parseArguments json arguments
  (callBranch json arguments).command (callDefaultMsg cfg json arguments) args text

/-- **What a call publishes**: nothing on a cancel event or before the strip is
ready, and otherwise the message of its branch. -/
theorem ledControlToolCallback_published (cfg : Config) (json : JsonObjParse) (pub : LedMsg → Int)
    (ledInitialized : Bool) (ready : Option LedReadyMsg) (event : McpToolEvent)
    (arguments : Option (List UInt8)) (token : List UInt8) :
    (ledControlToolCallback cfg json pub ledInitialized ready event arguments token).published =
      if event = .callRequest ∧ refreshInitialized ledInitialized ready = true then
        callCommand cfg json arguments
      else none := by
  cases event with
  | cancelRequest => rfl
  | callRequest =>
    cases hready : refreshInitialized ledInitialized ready with
    | false => simp [ledControlToolCallback, hready]
    | true =>
      simp only [ledControlToolCallback, hready, Bool.not_true, Bool.false_eq_true, if_false,
        and_self, if_true]
      exact decodeArguments_command _ _ _ _

/-- What a call with a text publishes, by the branch that it selects. -/
theorem published_of_text (cfg : Config) (json : JsonObjParse) (pub : LedMsg → Int)
    (ledInitialized : Bool) (ready : Option LedReadyMsg) (text token : List UInt8) :
    (ledControlToolCallback cfg json pub ledInitialized ready .callRequest (some text)
        token).published =
      if refreshInitialized ledInitialized ready = true then
        (chooseBranch (json.mcpLedArgs text).ret (json.mcpLedArgs text).args).command
          (defaultMsg cfg (json.mcpLedArgs text).ret (json.mcpLedArgs text).args)
          (json.mcpLedArgs text).args (some (json.mcpLedArgs text).text)
      else none := by
  rw [ledControlToolCallback_published]
  simp only [true_and]
  rfl

end LedMatrix
