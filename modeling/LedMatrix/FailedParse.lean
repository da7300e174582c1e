import LedMatrix.McpCommands

/-!
# A parse that failed

`json_obj_parse` returns a bit for every decoded member, or a negative error
code. The callback tests the bits of the result without looking at its sign, so
an error code selects branches too. A parse that failed should leave only the
search for an action in the text.
-/

namespace LedMatrix

open MachineInt CText

/-- The action that the search in the text yields. -/
def fallbackAction (text : List UInt8) : Option LedAction :=
  (extractJsonStringValue (some text) (lit "\"action\"")).bind namedAction

/-- What should be published after a failed parse: nothing, unless the search in
the text yields an action; in this case a message with this action for all
pixels, once the strip is ready. -/
def FailsSafe (cfg : Config) (isReady : Bool) (text : List UInt8) (published : Option LedMsg) :
    Prop :=
  match fallbackAction text, isReady with
  | some a, true =>
    ∃ msg, published = some msg ∧ msg.action = a ∧ msg.index.toNat = cfg.ledMatrixPixels
  | _, _ => published = none

/-- The branch that a result selects comes to the same as the search in the
text: it is this search, or it is the `strcmp` chain on `args.action`, and this
yields the same action at an index that addresses all pixels. -/
def FallsBack (cfg : Config) (parsed : McpLedArgsParse) : Prop :=
  match chooseBranch parsed.ret parsed.args with
  | .extracted => fallbackAction parsed.text ≠ none → cfg.ledMatrixPixels ≤ 65535
  | .action name =>
    name ≠ lit "rainbow" ∧ namedAction name = fallbackAction parsed.text ∧
      (namedAction name ≠ none →
        (defaultMsg cfg parsed.ret parsed.args).index.toNat = cfg.ledMatrixPixels)
  | .rainbow | .color _ | .channels | .index => False

/-- The number of pixels stands for all of them in a message exactly when it fits
in 16 bits. -/
theorem allIndex_all_iff (cfg : Config) :
    cfg.allIndex.toNat = cfg.ledMatrixPixels ↔ cfg.ledMatrixPixels ≤ 65535 := by
  have hrange := cfg.ledMatrixPixels_range
  rw [Config.allIndex_toNat]
  omega

/-- The branch that searches the text is taken only when no index was decoded. -/
theorem hasBit_of_extracted {parsedBits : Int32} {args : McpLedArgs}
    (h : chooseBranch parsedBits args = .extracted) : hasBit parsedBits 3 = false := by
  by_contra hbit
  rw [Bool.not_eq_false] at hbit
  exact chooseBranch_ne_extracted hbit h

/-- A message with the action CUSTOM is never what the search yields. -/
theorem not_failsSafe_custom {cfg : Config} {text : List UInt8} {msg : LedMsg}
    (h : msg.action = .custom) : ¬ FailsSafe cfg true text (some msg) := by
  unfold FailsSafe
  cases hfallback : fallbackAction text with
  | none => simp
  | some a =>
    rintro ⟨msg', hmsg, haction, -⟩
    obtain rfl := Option.some.inj hmsg
    obtain ⟨name, -, hname⟩ := Option.bind_eq_some_iff.mp hfallback
    exact namedAction_ne_custom hname (haction.symm.trans h)

/-- A message for a named action, or none, is what the search yields exactly when
the actions are the same and the index stands for all pixels. -/
theorem failsSafe_map_iff {cfg : Config} {text : List UInt8} {action : Option LedAction}
    {msg : LedMsg} :
    FailsSafe cfg true text (action.map fun a => { msg with action := a }) ↔
      action = fallbackAction text ∧ (action ≠ none → msg.index.toNat = cfg.ledMatrixPixels) := by
  unfold FailsSafe
  cases hfallback : fallbackAction text with
  | none => cases action <;> simp
  | some a =>
    cases action with
    | none => simp
    | some a' =>
      constructor
      · rintro ⟨msg', hmsg, haction, hindex⟩
        obtain rfl := Option.some.inj hmsg
        exact ⟨congrArg some haction, fun _ => hindex⟩
      · rintro ⟨haction, hindex⟩
        exact ⟨_, rfl, Option.some.inj haction, hindex (by simp)⟩

/-- **When a failed parse is safe.** Whatever `json_obj_parse` has returned and
decoded, a negative error code included: the call publishes what it should after
a failed parse if and only if the strip is not ready, or the branch that the
result selects comes to the same as the search in the text. -/
theorem published_failsSafe_iff (cfg : Config) (json : JsonObjParse) (pub : LedMsg → Int)
    (ledInitialized : Bool) (ready : Option LedReadyMsg) (text token : List UInt8) :
    FailsSafe cfg (refreshInitialized ledInitialized ready) (json.mcpLedArgs text).text
        (ledControlToolCallback cfg json pub ledInitialized ready .callRequest (some text)
          token).published ↔
      (refreshInitialized ledInitialized ready = true → FallsBack cfg (json.mcpLedArgs text)) := by
  rw [published_of_text]
  obtain ⟨ret, args, text'⟩ := json.mcpLedArgs text
  cases refreshInitialized ledInitialized ready with
  | false =>
    unfold FailsSafe
    cases fallbackAction text' <;> simp
  | true =>
    simp only [if_true, true_implies, FallsBack]
    cases hbranch : chooseBranch ret args with
    | rainbow => simp only [Branch.command, iff_false]; exact not_failsSafe_custom rfl
    | color c => simp only [Branch.command, iff_false]; exact not_failsSafe_custom rfl
    | channels => simp only [Branch.command, iff_false]; exact not_failsSafe_custom rfl
    | index => simp only [Branch.command, iff_false]; exact not_failsSafe_custom rfl
    | action name =>
      by_cases hrainbow : name = lit "rainbow"
      · simp only [Branch.command, hrainbow, ne_eq, not_true_eq_false, false_and,
          iff_false]
        exact not_failsSafe_custom rfl
      · simp only [Branch.command, ne_eq, hrainbow, not_false_eq_true, true_and]
        exact failsSafe_map_iff
    | extracted =>
      have hindex : (defaultMsg cfg ret args).index = cfg.allIndex := by
        simp [defaultMsg, hasBit_of_extracted hbranch]
      have hcommand : Branch.command (defaultMsg cfg ret args) args (some text') .extracted =
          (fallbackAction text').map fun a => { defaultMsg cfg ret args with action := a } := by
        simp only [Branch.command, fallbackAction, Option.map_bind]
        rfl
      rw [hcommand, failsSafe_map_iff, hindex, allIndex_all_iff]
      exact and_iff_right rfl

/-- The arguments of an MCP call that are not a JSON text. -/
def brokenText : List UInt8 := lit "\x7b"

/-- The parse of these arguments fails with `-EINVAL` before anything is decoded,
and the text names no action. The call publishes black for pixel 0. -/
theorem brokenText_published :
    ((JsonObjParse.knowing [] []).mcpLedArgs brokenText).ret = -22 ∧
      fallbackAction ((JsonObjParse.knowing [] []).mcpLedArgs brokenText).text = none ∧
      (ledControlToolCallback .default (.knowing [] []) (fun _ => 0) true none .callRequest
        (some brokenText) []).published = some ⟨.custom, 0, 0, 0, 0, false⟩ ∧
      ¬ FailsSafe .default true brokenText (some ⟨.custom, 0, 0, 0, 0, false⟩) :=
  ⟨by decide, by decide, by decide, not_failsSafe_custom rfl⟩

end LedMatrix
