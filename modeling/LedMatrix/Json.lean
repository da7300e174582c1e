import LedMatrix.Config

/-!
# The decoded requests

The structures that `json_obj_parse` fills, one for each front end, and what a
call of it leaves behind. The decoder itself belongs to Zephyr; the development
is parametric in it.
-/

namespace LedMatrix

/-- `struct led_command` of `main.c`. `JSON_TOK_NUMBER` stores a signed 32-bit
number, which these unsigned fields reinterpret. -/
structure LedCommand where
  r : UInt32
  g : UInt32
  b : UInt32
  index : UInt32
  rainbow : Bool
  deriving DecidableEq, Repr

/-- A call of `json_obj_parse` with `led_command_descr`: its return value and
the structure after it. -/
structure LedCommandParse where
  ret : Int32
  cmd : LedCommand

/-- `struct mcp_led_args` of `mcp_server.c`. -/
structure McpLedArgs where
  r : Int32
  g : Int32
  b : Int32
  index : Int32
  rainbow : Bool
  /-- The string `action`, or `NULL`. -/
  action : Option (List UInt8)
  /-- The string `color`, or `NULL`. -/
  color : Option (List UInt8)
  deriving DecidableEq, Repr

/-- `struct mcp_led_args args = {0}`. -/
def McpLedArgs.zero : McpLedArgs :=
  { r := 0, g := 0, b := 0, index := 0, rainbow := false, action := none, color := none }

/-- A call of `json_obj_parse` with `mcp_led_args_descr`: its return value, the
structure after it, which the call may have filled in part before it failed,
and the C string that it leaves in the text, which it parses in place. -/
structure McpLedArgsParse where
  ret : Int32
  args : McpLedArgs
  text : List UInt8

/-- `json_obj_parse` on the two descriptor tables, as functions of the text. -/
structure JsonObjParse where
  ledCommand : List UInt8 → LedCommandParse
  mcpLedArgs : List UInt8 → McpLedArgsParse

/-- A decoder that knows the texts of two tables and rejects all others with
`-EINVAL`. -/
def JsonObjParse.knowing (commands : List (List UInt8 × LedCommandParse))
    (calls : List (List UInt8 × McpLedArgsParse)) : JsonObjParse where
  ledCommand text := (commands.lookup text).getD ⟨-22, ⟨0, 0, 0, 0, false⟩⟩
  mcpLedArgs text := (calls.lookup text).getD ⟨-22, .zero, text⟩

end LedMatrix
