import LedMatrix.Json
import LedMatrix.Lib.CText
import LedMatrix.Lib.MachineInt

/-!
# The MCP front end

The tool callback of `mcp_server.c`, with the two text parsers it calls. The
callback chooses its branch from the bits that `json_obj_parse` returned and
from the decoded arguments, in a fixed order; only the branch without any
decoded argument looks at the text itself.
-/

namespace LedMatrix

open MachineInt CText

/-! ## The text parsers -/

/-- Run one `sscanf` pattern; it counts when all three numbers are converted. -/
def scanTriple (format str : List UInt8) : Option (Int32 × Int32 × Int32) :=
  match sscanf format str with
  | [cr, cg, cb] => some (cr, cg, cb)
  | _ => none

/-- `(uint8_t)CLAMP(c, 0, 255)` of a signed channel. -/
def clampChannel (c : Int32) : UInt8 := UInt8.ofInt (clamp c.toInt 0 255)

/-- `parse_rgb_string`: the colour of the first pattern that matches. -/
def parseRgbString : Option (List UInt8) → Option LedRgb
  | none => none
  | some str =>
    let found := scanTriple (lit "rgb(%d,%d,%d)") str <|>
      scanTriple (lit "rgb(%d, %d, %d)") str <|>
      scanTriple (lit "%d,%d,%d") str <|>
      scanTriple (lit "%d, %d, %d") str
    found.map fun (cr, cg, cb) => ⟨clampChannel cr, clampChannel cg, clampChannel cb⟩

/-- `sizeof(value_buffer)` in `extract_json_string_value`. -/
def valueBufferSize : ℕ := 32

/-- `extract_json_string_value`: the quoted string after the first colon after
the first occurrence of the key, up to the next quotation mark. -/
def extractJsonStringValue (json : Option (List UInt8)) (key : List UInt8) :
    Option (List UInt8) := do
  let json ← json
  let keyPos ← strstr json key
  let valueStart ← strchr (keyPos.drop key.length) 0x3a
  let valueStart := (valueStart.drop 1).dropWhile fun c => c == 0x20 || c == 0x09 || c == 0x0a
  if valueStart.head? ≠ some 0x22 then none
  else
    let valueStart := valueStart.drop 1
    let valueEnd ← strchr valueStart 0x22
    let valueLen := valueStart.length - valueEnd.length
    if valueBufferSize ≤ valueLen then none
    else some (valueStart.take valueLen)

/-! ## From the arguments to a message -/

/-- `snprintk` of an ASCII text into a buffer of the given size. -/
def snprintk (size : ℕ) (text : String) : List UInt8 := (lit text).take (size - 1)

/-- `sizeof(response_buffer)`. -/
def responseBufferSize : ℕ := 96

/-- The locals of the callback after it has looked at the arguments. -/
structure Decoded where
  validAction : Bool
  msg : LedMsg
  /-- `response_buffer`; `none` until something is printed into it. -/
  response : Option (List UInt8)

/-- Print into the response buffer. -/
def Decoded.print (validAction : Bool) (msg : LedMsg) (text : String) : Decoded :=
  ⟨validAction, msg, some (snprintk responseBufferSize text)⟩

/-- The message is not published, and the response says how to write a command. -/
def invalidCommand (msg : LedMsg) : Decoded :=
  .print false msg "Invalid command. Use r, g, b numbers, index, 'rgb(r,g,b)', rainbow, or action"

/-- The `strcmp` chain on `args.action`. -/
def decodeArgsAction (msg : LedMsg) (action : List UInt8) : Decoded :=
  if action = lit "on" then
    .print true { msg with action := .on } s!"LED turned ON via Zbus (index: {msg.index})"
  else if action = lit "off" then
    .print true { msg with action := .off } s!"LED turned OFF via Zbus (index: {msg.index})"
  else if action = lit "toggle" then
    .print true { msg with action := .toggle } s!"LED toggled via Zbus (index: {msg.index})"
  else if action = lit "red" then
    .print true { msg with action := .red } s!"LED turned red via Zbus (index: {msg.index})"
  else if action = lit "green" then
    .print true { msg with action := .green } s!"LED turned green via Zbus (index: {msg.index})"
  else if action = lit "blue" then
    .print true { msg with action := .blue } s!"LED turned blue via Zbus (index: {msg.index})"
  else if action = lit "rainbow" then
    .print true { msg with action := .custom, rainbow := true }
      s!"LED set to rainbow mode via Zbus (index: {msg.index})"
  else invalidCommand msg

/-- The `strcmp` chain on the string extracted from the text. -/
def decodeExtractedAction (msg : LedMsg) (action : List UInt8) : Decoded :=
  if action = lit "on" then .print true { msg with action := .on } "LED turned ON via Zbus"
  else if action = lit "off" then .print true { msg with action := .off } "LED turned OFF via Zbus"
  else if action = lit "toggle" then
    .print true { msg with action := .toggle } "LED toggled via Zbus"
  else if action = lit "red" then .print true { msg with action := .red } "LED turned red via Zbus"
  else if action = lit "green" then
    .print true { msg with action := .green } "LED turned green via Zbus"
  else if action = lit "blue" then
    .print true { msg with action := .blue } "LED turned blue via Zbus"
  else invalidCommand msg

/-- `(uint16_t)CLAMP(args.index, 0, 65535)`. -/
def clampIndex (index : Int32) : UInt16 := UInt16.ofInt (clamp index.toInt 0 65535)

/-- The message before a branch is chosen: its defaults, and the index when
bit 3 says that one was decoded. -/
def defaultMsg (cfg : Config) (parsedBits : Int32) (args : McpLedArgs) : LedMsg :=
  { action := .custom, r := 0, g := 0, b := 0
    index := if hasBit parsedBits 3 then clampIndex args.index else cfg.allIndex
    rainbow := false }

/-- Bits 0 to 2, one for each channel. -/
def hasChannelBit (parsedBits : Int32) : Bool :=
  hasBit parsedBits 0 || hasBit parsedBits 1 || hasBit parsedBits 2

/-- The branches of the callback, from the result of the parse to the message
and the response. `arguments` is the text after the parse. -/
def decodeArguments (cfg : Config) (arguments : Option (List UInt8)) (parsedBits : Int32)
    (args : McpLedArgs) : Decoded :=
  let msg := defaultMsg cfg parsedBits args
  if hasBit parsedBits 4 && args.rainbow then
    .print true { msg with action := .custom, rainbow := true }
      s!"LED set to rainbow mode via Zbus (index: {msg.index})"
  else
    match parseRgbString args.color with
    | some c =>
      .print true { msg with action := .custom, r := c.r, g := c.g, b := c.b, rainbow := false }
        s!"LED set to RGB({c.r}, {c.g}, {c.b}) via Zbus (index: {msg.index})"
    | none =>
      if hasChannelBit parsedBits then
        let r := clampChannel args.r
        let g := clampChannel args.g
        let b := clampChannel args.b
        let msg := { msg with action := .custom, r := r, g := g, b := b, rainbow := args.rainbow }
        if args.rainbow then
          .print true msg s!"LED set to rainbow mode via Zbus (index: {msg.index})"
        else .print true msg s!"LED set to RGB({r}, {g}, {b}) via Zbus (index: {msg.index})"
      else
        match args.action with
        | some action => decodeArgsAction msg action
        | none =>
          if hasBit parsedBits 3 then
            .print true { msg with action := .custom } s!"LED index set to {msg.index} via Zbus"
          else
            match extractJsonStringValue arguments (lit "\"action\"") with
            | some action => decodeExtractedAction msg action
            | none => invalidCommand msg

/-- The message that the decoded arguments ask to publish. -/
def Decoded.command (d : Decoded) : Option LedMsg := if d.validAction then some d.msg else none

/-! ## The callback -/

/-- `enum mcp_tool_event_type`. -/
inductive McpToolEvent
  | callRequest
  | cancelRequest
  deriving DecidableEq, Repr

/-- The types of tool message that the callback submits. -/
inductive McpMessageType
  | toolResponse
  | toolCancelAck
  deriving DecidableEq, Repr

/-- `struct mcp_tool_message`, with the execution token it is submitted under. -/
structure McpToolMessage where
  token : List UInt8
  type : McpMessageType
  /-- The text at `data`; `none` for `NULL` and for a buffer never written. -/
  data : Option (List UInt8)
  length : ℕ
  deriving DecidableEq, Repr

/-- What one call of the callback does. -/
structure CallbackResult where
  ret : Int
  /-- The messages submitted to the MCP server, in order. -/
  submitted : List McpToolMessage
  /-- The message published on `led_chan`, if any. -/
  published : Option LedMsg
  /-- `led_initialized` afterwards. -/
  ledInitialized : Bool

/-- `led_initialized` after the read of `led_ready_chan`, which may fail. -/
def refreshInitialized (ledInitialized : Bool) : Option LedReadyMsg → Bool
  | some readyMsg => readyMsg.isReady
  | none => ledInitialized

/-- The result of `json_obj_parse` on the arguments, or the zeroed locals when
there are none. -/
def parseArguments (json : JsonObjParse) :
    Option (List UInt8) → Int32 × McpLedArgs × Option (List UInt8)
  | some text =>
    let parsed := json.mcpLedArgs text
    (parsed.ret, parsed.args, some parsed.text)
  | none => (0, .zero, none)

/-- The locals of the callback once it has decoded its arguments. -/
def decodeCall (cfg : Config) (json : JsonObjParse) (arguments : Option (List UInt8)) : Decoded :=
  let (parsedBits, args, text) := parseArguments json arguments
  decodeArguments cfg text parsedBits args

/-- `led_control_tool_callback`. `ready` is the result of reading
`led_ready_chan`, and `pub` is `zbus_chan_pub` on `led_chan`. -/
def ledControlToolCallback (cfg : Config) (json : JsonObjParse) (pub : LedMsg → Int)
    (ledInitialized : Bool) (ready : Option LedReadyMsg) (event : McpToolEvent)
    (arguments : Option (List UInt8)) (token : List UInt8) : CallbackResult :=
  match event with
  | .cancelRequest =>
    ⟨0, [⟨token, .toolCancelAck, none, 0⟩], none, ledInitialized⟩
  | .callRequest =>
    let ledInitialized := refreshInitialized ledInitialized ready
    if !ledInitialized then
      let text := lit "LED not initialized"
      ⟨negEnodev, [⟨token, .toolResponse, some text, text.length⟩], none, ledInitialized⟩
    else
      let d := decodeCall cfg json arguments
      let response :=
        match d.command with
        | some msg =>
          let pubRc := pub msg
          if pubRc ≠ 0 then some (snprintk responseBufferSize s!"Zbus publish failed: {pubRc}")
          else d.response
        | none => d.response
      ⟨0, [⟨token, .toolResponse, response, (response.getD []).length⟩], d.command, ledInitialized⟩

end LedMatrix
