import LedMatrix.McpCommands

/-!
# The two chains of action names

The callback compares an action name with two lists of names: one when the parse
has decoded the member `action`, the other when the name was found by searching
the text. The lists were written separately and differ in one name.
-/

namespace LedMatrix

open MachineInt CText

/-- The two chains ask for the same exactly when the name is not `rainbow`, which
only the first one knows. -/
theorem chains_agree_iff {msg : LedMsg} {args args' : McpLedArgs} {text text' : Option (List UInt8)}
    {name : List UInt8} (hname : extractJsonStringValue text' (lit "\"action\"") = some name) :
    (Branch.action name).command msg args text = Branch.extracted.command msg args' text' ↔
      name ≠ lit "rainbow" := by
  simp only [Branch.command, hname, Option.bind_some]
  split_ifs with hrainbow
  · refine iff_of_false ?_ (not_not.mpr hrainbow)
    rw [hrainbow, show namedAction (lit "rainbow") = none from by decide]
    simp
  · exact iff_of_true rfl hrainbow

/-- Without an index the default message addresses all pixels. -/
theorem defaultMsg_of_no_index {cfg : Config} {parsedBits : Int32} (args : McpLedArgs)
    (h : hasBit parsedBits 3 = false) :
    defaultMsg cfg parsedBits args = ⟨.custom, 0, 0, 0, cfg.allIndex, false⟩ := by
  simp [defaultMsg, h]

/-- **When the two decoders agree.** A call whose parse decodes the action `name` and
no index, and a call that finds the same name by searching its text, publish the
same message, or both nothing, if and only if the name is not `rainbow`. -/
theorem decoders_agree_iff (cfg : Config) (json : JsonObjParse) (pub : LedMsg → Int)
    {ledInitialized : Bool} {ready : Option LedReadyMsg}
    (hready : refreshInitialized ledInitialized ready = true) (token : List UInt8)
    {name parsedText searchedText : List UInt8}
    (hparsed : callBranch json (some parsedText) = .action name)
    (hindex : hasBit (json.mcpLedArgs parsedText).ret 3 = false)
    (hsearched : callBranch json (some searchedText) = .extracted)
    (hname : extractJsonStringValue (some (json.mcpLedArgs searchedText).text) (lit "\"action\"") =
      some name) :
    (ledControlToolCallback cfg json pub ledInitialized ready .callRequest (some parsedText)
        token).published =
      (ledControlToolCallback cfg json pub ledInitialized ready .callRequest (some searchedText)
        token).published ↔ name ≠ lit "rainbow" := by
  have hsearchedIndex : hasBit (json.mcpLedArgs searchedText).ret 3 = false := by
    by_contra h
    exact chooseBranch_ne_extracted (Bool.of_not_eq_false h) hsearched
  have hparsed' : chooseBranch (json.mcpLedArgs parsedText).ret (json.mcpLedArgs parsedText).args =
      .action name := hparsed
  have hsearched' : chooseBranch (json.mcpLedArgs searchedText).ret
      (json.mcpLedArgs searchedText).args = .extracted := hsearched
  rw [published_of_text, published_of_text, if_pos hready, if_pos hready, hparsed', hsearched',
    defaultMsg_of_no_index _ hindex, defaultMsg_of_no_index _ hsearchedIndex]
  exact chains_agree_iff hname

/-- A text with the member `action` itself. -/
def actionText (name : String) : List UInt8 := lit s!"\x7b\"action\":\"{name}\"\x7d"

/-- A text whose member `action` is in a nested object, where the parse skips it. -/
def nestedText (name : String) : List UInt8 :=
  lit s!"\x7b\"led\":\x7b\"action\":\"{name}\"\x7d\x7d"

/-- A parse of both texts: the member is decoded, or no member is. -/
def decodesAction (name : String) : JsonObjParse :=
  .knowing [] [(actionText name, ⟨32, { McpLedArgs.zero with action := some (lit name) },
    (actionText name).take (11 + name.length)⟩), (nestedText name, ⟨0, .zero, nestedText name⟩)]

/-- The decoders agree on the name `on`. -/
theorem decoders_agree_on :
    (ledControlToolCallback .default (decodesAction "on") (fun _ => 0) true none .callRequest
        (some (actionText "on")) []).published =
      (ledControlToolCallback .default (decodesAction "on") (fun _ => 0) true none .callRequest
        (some (nestedText "on")) []).published :=
  (decoders_agree_iff .default (decodesAction "on") (fun _ => 0) rfl [] (by decide) (by decide)
    (by decide) (by decide)).mpr (by decide : lit "on" ≠ lit "rainbow")

/-- On the name `rainbow` one starts the rainbow, and the other does nothing. -/
theorem decoders_disagree_rainbow :
    (ledControlToolCallback .default (decodesAction "rainbow") (fun _ => 0) true none .callRequest
        (some (actionText "rainbow")) []).published = some ⟨.custom, 0, 0, 0, 256, true⟩ ∧
      (ledControlToolCallback .default (decodesAction "rainbow") (fun _ => 0) true none .callRequest
        (some (nestedText "rainbow")) []).published = none := by
  decide

end LedMatrix
