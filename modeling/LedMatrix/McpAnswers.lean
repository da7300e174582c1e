import LedMatrix.FrontEnds
import LedMatrix.Lib.Scanf
import LedMatrix.McpProtocol

/-!
# What the answers of the MCP tool say

The texts of the answers are printed in more than a dozen places. A text that reports a
command as carried out says which one it was: calls with the same answer have done the
same.
-/

namespace LedMatrix

open MachineInt CText

/-! ## Reports -/

/-- What an answer reports. -/
inductive Report
  /-- A named action. The fallback does not give the index. -/
  | named (action : LedAction) (index : Option UInt16)
  | rainbow (index : UInt16)
  | color (c : LedRgb) (index : UInt16)
  | selected (index : UInt16)
  deriving DecidableEq, Repr

/-- The decimal digits of a number. -/
def digits (n : ℕ) : List UInt8 := lit (toString n)

/-- The index in an answer. -/
def indexText (index : UInt16) : List UInt8 := lit " (index: " ++ (digits index.toNat ++ lit ")")

/-- The action that a report is about; `none` if only an index was selected. -/
def Report.action : Report → Option LedAction
  | .named action _ => some action
  | .rainbow _ | .color _ _ => some .custom
  | .selected _ => none

/-- The index in an answer, if it has one. -/
def suffix : Option UInt16 → List UInt8
  | some index => indexText index
  | none => []

/-- How the answers about an action begin. -/
def beginning : Option LedAction → List UInt8
  | some .on => lit "LED turned ON"
  | some .off => lit "LED turned OFF"
  | some .toggle => lit "LED toggled"
  | some .red => lit "LED turned red"
  | some .green => lit "LED turned green"
  | some .blue => lit "LED turned blue"
  | some .custom => lit "LED set to "
  | none => lit "LED index set to "

/-- How a report goes on after its beginning. -/
def Report.rest : Report → List UInt8
  | .named _ index => lit " via Zbus" ++ suffix index
  | .rainbow index => lit "rainbow mode via Zbus" ++ indexText index
  | .color c index => lit "RGB(" ++ (digits c.r.toNat ++ (lit ", " ++ (digits c.g.toNat ++
      (lit ", " ++ (digits c.b.toNat ++ (lit ") via Zbus" ++ indexText index))))))
  | .selected index => digits index.toNat ++ lit " via Zbus"

/-- The text of an answer. -/
def Report.text (r : Report) : List UInt8 := beginning r.action ++ r.rest

/-- The message that it describes. -/
def Report.msg (cfg : Config) : Report → LedMsg
  | .named action index => ⟨action, 0, 0, 0, index.getD cfg.allIndex, false⟩
  | .rainbow index => ⟨.custom, 0, 0, 0, index, true⟩
  | .color c index => ⟨.custom, c.r, c.g, c.b, index, false⟩
  | .selected index => ⟨.custom, 0, 0, 0, index, false⟩

/-! ## Texts that are printed -/

/-- The texts of answers fit into the response buffer. -/
theorem Report.length_text_le (r : Report) : r.text.length ≤ responseBufferSize - 1 := by
  have hindex : ∀ index : UInt16, (digits index.toNat).length ≤ 5 := fun index =>
    length_lit_toString_le (by decide) (Nat.lt_trans index.toNat_lt (by decide))
  have hchannel : ∀ c : UInt8, (digits c.toNat).length ≤ 3 := fun c =>
    length_lit_toString_le (by decide) (Nat.lt_trans c.toNat_lt (by decide))
  have htext : ∀ index : UInt16, (indexText index).length ≤ 15 := by
    intro index
    have hlength : (lit " (index: ").length = 9 ∧ (lit ")").length = 1 := by decide
    have := hindex index
    simp only [indexText, List.length_append, hlength]
    omega
  have hbeginning : (beginning r.action).length ≤ 17 := by
    cases r.action with
    | none => decide
    | some action => cases action <;> decide
  have hrest : r.rest.length ≤ 45 := by
    cases r with
    | named action index =>
      have hsuffix : (suffix index).length ≤ 15 := by
        cases index with
        | none => exact Nat.zero_le 15
        | some index => exact htext index
      have hlength : (lit " via Zbus").length = 9 := by decide
      simp only [rest, List.length_append, hlength]
      omega
    | rainbow index =>
      have := htext index
      have hlength : (lit "rainbow mode via Zbus").length = 21 := by decide
      simp only [rest, List.length_append, hlength]
      omega
    | color c index =>
      have := htext index
      have := hchannel c.r
      have := hchannel c.g
      have := hchannel c.b
      have hlength : (lit "RGB(").length = 4 ∧ (lit ", ").length = 2 ∧
          (lit ") via Zbus").length = 10 := by decide
      simp only [rest, List.length_append, hlength]
      omega
    | selected index =>
      have := hindex index
      have hlength : (lit " via Zbus").length = 9 := by decide
      simp only [rest, List.length_append, hlength]
      omega
  simp only [text, List.length_append, responseBufferSize]
  omega

/-- The text of a report is printed as a whole. -/
theorem Report.snprintk_text {t : String} {r : Report} (h : lit t = r.text) :
    snprintk responseBufferSize t = r.text := by
  rw [snprintk, h, List.take_of_length_le r.length_text_le]

/-! ## The texts differ -/

/-- No beginning goes on as another one. -/
theorem beginning_prefix_free {a b : Option LedAction} (h : beginning a <+: beginning b) :
    a = b := by
  cases a with
  | none =>
    cases b with
    | none => rfl
    | some b => cases b <;> exact absurd h (by decide)
  | some a =>
    cases b with
    | none => cases a <;> exact absurd h (by decide)
    | some b => cases a <;> cases b <;> first | rfl | exact absurd h (by decide)

/-- The beginning of a report can be read off its text. -/
theorem beginning_append_inj {a b : Option LedAction} {s t : List UInt8}
    (h : beginning a ++ s = beginning b ++ t) : a = b ∧ s = t := by
  have hsame : a = b := by
    rcases List.prefix_or_prefix_of_prefix (⟨s, h⟩ : beginning a <+: beginning b ++ t)
      ⟨t, rfl⟩ with hab | hba
    · exact beginning_prefix_free hab
    · exact (beginning_prefix_free hba).symm
  subst hsame
  exact ⟨rfl, List.append_cancel_left h⟩

/-- A number before some literal text can be read off. -/
theorem digits_append_inj {m n : ℕ} {c : UInt8} {s t : List UInt8} (hc : isDigit c = false)
    (h : digits m ++ c :: s = digits n ++ c :: t) : m = n ∧ s = t := by
  obtain ⟨hnumber, hrest⟩ := lit_toString_append_inj (noDigit_cons hc s) (noDigit_cons hc t) h
  exact ⟨hnumber, (List.cons.inj hrest).2⟩

/-- An index can be read off its text. -/
theorem indexText_inj {i j : UInt16} (h : indexText i = indexText j) : i = j := by
  have hdigits : digits i.toNat ++ lit ")" = digits j.toNat ++ lit ")" :=
    List.append_cancel_left h
  exact UInt16.toNat_inj.mp (digits_append_inj (by decide) hdigits).1

/-- An index can be read off the end of a report, and that there is none. -/
theorem suffix_inj {i j : Option UInt16} (h : suffix i = suffix j) : i = j := by
  cases i with
  | none =>
    cases j with
    | none => rfl
    | some j => cases h
  | some i =>
    cases j with
    | none => cases h
    | some j => rw [indexText_inj h]

/-- The answers about one action differ. -/
theorem Report.rest_inj {r r' : Report} (haction : r.action = r'.action)
    (hrest : r.rest = r'.rest) :
    r = r' := by
  have hnamed : ∀ a i, (named a i).rest.head? = some 0x20 := fun _ _ => rfl
  have hrainbow : ∀ i, (rainbow i).rest.head? = some 0x72 := fun _ => rfl
  have hcolor : ∀ c i, (color c i).rest.head? = some 0x52 := fun _ _ => rfl
  have hfirst := congrArg List.head? hrest
  cases r with
  | named action index =>
    cases r' with
    | named action' index' =>
      obtain rfl := Option.some.inj haction
      rw [suffix_inj (List.append_cancel_left hrest)]
    | rainbow index' =>
      rw [hnamed, hrainbow] at hfirst
      exact absurd hfirst (by decide)
    | color c' index' =>
      rw [hnamed, hcolor] at hfirst
      exact absurd hfirst (by decide)
    | selected index' => cases haction
  | rainbow index =>
    cases r' with
    | named action' index' =>
      rw [hnamed, hrainbow] at hfirst
      exact absurd hfirst (by decide)
    | rainbow index' => rw [indexText_inj (List.append_cancel_left hrest)]
    | color c' index' =>
      rw [hrainbow, hcolor] at hfirst
      exact absurd hfirst (by decide)
    | selected index' => cases haction
  | color c index =>
    cases r' with
    | named action' index' =>
      rw [hnamed, hcolor] at hfirst
      exact absurd hfirst (by decide)
    | rainbow index' =>
      rw [hrainbow, hcolor] at hfirst
      exact absurd hfirst (by decide)
    | color c' index' =>
      have hcomma : isDigit 0x2c = false := by decide
      obtain ⟨hr, hrest⟩ := digits_append_inj hcomma (List.append_cancel_left hrest)
      obtain ⟨hg, hrest⟩ := digits_append_inj hcomma (List.cons.inj hrest).2
      obtain ⟨hb, hrest⟩ := digits_append_inj (by decide) (List.cons.inj hrest).2
      have htail : lit " via Zbus" ++ indexText index = lit " via Zbus" ++ indexText index' := hrest
      have hindex := indexText_inj (List.append_cancel_left htail)
      obtain ⟨r, g, b⟩ := c
      obtain ⟨r', g', b'⟩ := c'
      obtain rfl : r = r' := UInt8.toNat_inj.mp hr
      obtain rfl : g = g' := UInt8.toNat_inj.mp hg
      obtain rfl : b = b' := UInt8.toNat_inj.mp hb
      rw [hindex]
    | selected index' => cases haction
  | selected index =>
    cases r' with
    | selected index' =>
      have hspace : isDigit 0x20 = false := by decide
      obtain ⟨hindex, -⟩ := digits_append_inj hspace hrest
      rw [UInt16.toNat_inj.mp hindex]
    | _ => cases haction

/-- **The texts of answers are unambiguous.** -/
theorem Report.text_inj {r r' : Report} (h : r.text = r'.text) : r = r' := by
  obtain ⟨haction, hrest⟩ := beginning_append_inj h
  exact rest_inj haction hrest

/-! ## The answers of a call -/

/-- A command has a report as its answer, which describes its message. -/
def Decoded.Reports (cfg : Config) (d : Decoded) : Prop :=
  d.validAction = true → ∃ r : Report, d.response = some r.text ∧ Agree d.msg (r.msg cfg)

/-- A printed report. -/
theorem Decoded.reports_print {cfg : Config} {msg : LedMsg} {t : String} (r : Report)
    (ht : lit t = r.text) (hmsg : Agree msg (r.msg cfg)) :
    (Decoded.print true msg t).Reports cfg :=
  fun _ => ⟨r, congrArg some (Report.snprintk_text ht), hmsg⟩

/-- What is not recognised is no command. -/
theorem reports_invalidCommand (cfg : Config) (msg : LedMsg) : (invalidCommand msg).Reports cfg :=
  fun h => absurd h Bool.false_ne_true

/-- A text with an index at its end. -/
theorem lit_append_index (front : List UInt8) {s : String}
    (hs : lit s = front ++ (lit " via Zbus" ++ lit " (index: ")) (index : UInt16) :
    lit (s ++ toString index ++ ")") = front ++ (lit " via Zbus" ++ indexText index) := by
  have hnumber : lit (toString index) = digits index.toNat := rfl
  simp only [lit_append, hs, hnumber, indexText, List.append_assoc]

/-- The text about the rainbow. -/
theorem lit_rainbow (index : UInt16) :
    lit s!"LED set to rainbow mode via Zbus (index: {index})" = (Report.rainbow index).text :=
  lit_append_index (lit "LED set to rainbow mode") rfl index

/-- The text about a colour. -/
theorem lit_color (c : LedRgb) (index : UInt16) :
    lit s!"LED set to RGB({c.r}, {c.g}, {c.b}) via Zbus (index: {index})" =
      (Report.color c index).text := by
  have hfront : lit (toString "LED set to RGB(") = lit "LED set to " ++ lit "RGB(" := by decide
  have hback : lit (toString ") via Zbus (index: ") = lit ") via Zbus" ++ lit " (index: " := by
    decide
  have hchannel : ∀ c : UInt8, lit (toString c) = digits c.toNat := fun _ => rfl
  have hindex : lit (toString index) = digits index.toNat := rfl
  simp only [lit_append, hfront, hback, hchannel, hindex, Report.text, Report.action, beginning,
    Report.rest, indexText, List.append_assoc]
  rfl

/-- The text about a selected index. -/
theorem lit_selected (index : UInt16) :
    lit s!"LED index set to {index} via Zbus" = (Report.selected index).text := by
  have hindex : lit (toString index) = digits index.toNat := rfl
  simp only [lit_append, hindex, Report.text, Report.action, beginning, Report.rest,
    List.append_assoc]
  rfl

/-- The message before a branch is chosen. -/
def blankMsg (index : UInt16) : LedMsg := ⟨.custom, 0, 0, 0, index, false⟩

/-- The chain on `args.action` reports what it finds. -/
theorem reports_decodeArgsAction (cfg : Config) (index : UInt16) (action : List UInt8) :
    (decodeArgsAction (blankMsg index) action).Reports cfg := by
  have hnamed : ∀ (a : LedAction) (s : String),
      lit s = beginning (some a) ++ (lit " via Zbus" ++ lit " (index: ") →
      (Decoded.print true { blankMsg index with action := a }
        (s ++ toString index ++ ")")).Reports cfg := fun a s hs =>
    Decoded.reports_print (.named a (some index)) (lit_append_index (beginning (some a)) hs index)
      ⟨rfl, rfl, rfl, fun _ => rfl⟩
  unfold decodeArgsAction
  split_ifs
  · exact hnamed .on _ (by decide)
  · exact hnamed .off _ (by decide)
  · exact hnamed .toggle _ (by decide)
  · exact hnamed .red _ (by decide)
  · exact hnamed .green _ (by decide)
  · exact hnamed .blue _ (by decide)
  · exact Decoded.reports_print (.rainbow index) (lit_rainbow index) ⟨rfl, rfl, rfl, fun _ => rfl⟩
  · exact reports_invalidCommand cfg _

/-- The chain on the extracted string reports what it does, without an index. -/
theorem reports_decodeExtractedAction (cfg : Config) (action : List UInt8) :
    (decodeExtractedAction (blankMsg cfg.allIndex) action).Reports cfg := by
  have hnamed : ∀ (a : LedAction) (s : String),
      lit s = beginning (some a) ++ (lit " via Zbus" ++ suffix none) →
      (Decoded.print true { blankMsg cfg.allIndex with action := a } s).Reports cfg :=
    fun a s hs => Decoded.reports_print (.named a none) hs ⟨rfl, rfl, rfl, fun _ => rfl⟩
  unfold decodeExtractedAction
  split_ifs
  · exact hnamed .on _ (by decide)
  · exact hnamed .off _ (by decide)
  · exact hnamed .toggle _ (by decide)
  · exact hnamed .red _ (by decide)
  · exact hnamed .green _ (by decide)
  · exact hnamed .blue _ (by decide)
  · exact reports_invalidCommand cfg _

/-- **Every branch** reports the command that it has found. -/
theorem reports_decodeArguments (cfg : Config) (text : Option (List UInt8)) (parsedBits : Int32)
    (args : McpLedArgs) : (decodeArguments cfg text parsedBits args).Reports cfg := by
  have hblank : defaultMsg cfg parsedBits args = blankMsg (defaultMsg cfg parsedBits args).index :=
    rfl
  unfold decodeArguments
  rw [hblank]
  generalize hindex : (defaultMsg cfg parsedBits args).index = index
  by_cases hrainbow : (hasBit parsedBits 4 && args.rainbow) = true
  · simp only [if_pos hrainbow]
    exact Decoded.reports_print (.rainbow index) (lit_rainbow index) ⟨rfl, rfl, rfl, fun _ => rfl⟩
  simp only [if_neg hrainbow]
  cases parseRgbString args.color with
  | some c =>
    exact Decoded.reports_print (.color c index) (lit_color c index) ⟨rfl, rfl, rfl, fun _ => rfl⟩
  | none =>
    by_cases hchannel : hasChannelBit parsedBits = true
    · simp only [if_pos hchannel]
      cases hflag : args.rainbow with
      | true =>
        refine Decoded.reports_print (.rainbow index) (lit_rainbow index) ⟨rfl, rfl, rfl, ?_⟩
        exact fun hfalse => absurd hfalse.symm Bool.false_ne_true
      | false =>
        exact Decoded.reports_print (.color ⟨_, _, _⟩ index) (lit_color ⟨_, _, _⟩ index)
          ⟨rfl, rfl, rfl, fun _ => rfl⟩
    · simp only [if_neg hchannel]
      cases args.action with
      | some name => exact reports_decodeArgsAction cfg index name
      | none =>
        by_cases hbit : hasBit parsedBits 3 = true
        · simp only [if_pos hbit]
          exact Decoded.reports_print (.selected index) (lit_selected index)
            ⟨rfl, rfl, rfl, fun _ => rfl⟩
        · simp only [if_neg hbit]
          cases extractJsonStringValue text (lit "\"action\"") with
          | some name =>
            obtain rfl : cfg.allIndex = index := (if_neg hbit).symm.trans hindex
            exact reports_decodeExtractedAction cfg name
          | none => exact reports_invalidCommand cfg _

/-- A call of the callback, with what it meets. -/
structure McpCall where
  /-- What `zbus_chan_pub` returns. -/
  pub : LedMsg → ℤ
  ledInitialized : Bool
  /-- What the read of `led_ready_chan` gives. -/
  ready : Option LedReadyMsg
  event : McpToolEvent
  arguments : Option (List UInt8)
  token : List UInt8

/-- What the call does. -/
def McpCall.result (cfg : Config) (json : JsonObjParse) (c : McpCall) : CallbackResult :=
  ledControlToolCallback cfg json c.pub c.ledInitialized c.ready c.event c.arguments c.token

/-- **A report is true**: a message of the kind that it describes was published with
success. -/
theorem McpCall.report_true {cfg : Config} {json : JsonObjParse} {c : McpCall}
    {m : McpToolMessage} (hm : m ∈ (c.result cfg json).submitted) (hdone : m.ReportsDone) :
    ∃ r msg, m.data = some (Report.text r) ∧ (c.result cfg json).published = some msg ∧
      c.pub msg = 0 ∧ Agree msg (r.msg cfg) := by
  obtain ⟨pub, ledInitialized, ready, event, arguments, token⟩ := c
  obtain ⟨text, htext, hreports⟩ := hdone
  cases event with
  | cancelRequest =>
    obtain rfl := List.mem_singleton.mp hm
    cases htext
  | callRequest =>
    cases hready : refreshInitialized ledInitialized ready with
    | false =>
      simp only [result, ledControlToolCallback, hready] at hm
      obtain rfl := List.mem_singleton.mp hm
      obtain rfl := Option.some.inj htext
      exact absurd hreports (by decide)
    | true =>
      obtain ⟨answer, hanswer, -, hvalid⟩ : (decodeCall cfg json arguments).Answered :=
        answered_decodeArguments _ _ _ _
      have hreported : (decodeCall cfg json arguments).Reports cfg :=
        reports_decodeArguments _ _ _ _
      simp only [result, ledControlToolCallback, hready, Bool.not_true, Bool.false_eq_true,
        if_false] at hm ⊢
      obtain rfl := List.mem_singleton.mp hm
      cases haction : (decodeCall cfg json arguments).validAction with
      | false =>
        have hcommand : (decodeCall cfg json arguments).command = none := by
          simp [Decoded.command, haction]
        simp only [hcommand, hanswer] at htext
        obtain rfl := Option.some.inj htext
        exact absurd (haction.symm.trans (hvalid.mp hreports)) Bool.false_ne_true
      | true =>
        have hcommand : (decodeCall cfg json arguments).command =
            some (decodeCall cfg json arguments).msg := by
          simp [Decoded.command, haction]
        obtain ⟨r, hr, hagree⟩ := hreported haction
        simp only [hcommand] at htext ⊢
        by_cases hpub : pub (decodeCall cfg json arguments).msg = 0
        · exact ⟨r, _, by simp [hpub, hr], rfl, hpub, hagree⟩
        · simp only [ne_eq, hpub, not_false_eq_true, if_true] at htext
          obtain rfl := Option.some.inj htext
          exact absurd hreports (publishFailed_text _).2

/-- **Answers tell what was done.** When two calls, with any arguments, submit the same
text, and it reports the command as carried out, then each has published a message with
success, and `thread_led` handles the two messages identically from every state. -/
theorem answers_tell_commands {cfg : Config} {json : JsonObjParse} {c d : McpCall}
    {m n : McpToolMessage} (hm : m ∈ (c.result cfg json).submitted)
    (hn : n ∈ (d.result cfg json).submitted) (hdone : m.ReportsDone) (hsame : m.data = n.data) :
    ∃ msg msg', (c.result cfg json).published = some msg ∧
      (d.result cfg json).published = some msg' ∧ c.pub msg = 0 ∧ d.pub msg' = 0 ∧
        ∀ x : ThreadState cfg, x.onMessage msg = x.onMessage msg' := by
  have hdone' : n.ReportsDone := by
    obtain ⟨text, htext, hreports⟩ := hdone
    exact ⟨text, hsame ▸ htext, hreports⟩
  obtain ⟨r, msg, hr, hmsg, hpub, hagree⟩ := McpCall.report_true hm hdone
  obtain ⟨r', msg', hr', hmsg', hpub', hagree'⟩ := McpCall.report_true hn hdone'
  obtain rfl : r = r' := Report.text_inj (Option.some.inj (hr.symm.trans (hsame.trans hr')))
  refine ⟨msg, msg', hmsg, hmsg', hpub, hpub', fun x => ?_⟩
  rw [hagree.onMessage_eq x, hagree'.onMessage_eq x]

/-- The rainbow is asked for by its name. -/
def rainbowAction : List UInt8 := lit "\x7b\"action\":\"rainbow\"\x7d"

/-- The rainbow is asked for by its flag, beside a colour. -/
def rainbowFlag : List UInt8 := lit "\x7b\"r\":9,\"rainbow\":true\x7d"

/-- The decoder on the two texts. The parse in place ends the first with its string. -/
def decodesRainbow : JsonObjParse :=
  .knowing [] [(rainbowAction, ⟨32, { McpLedArgs.zero with action := some (lit "rainbow") },
      lit "\x7b\"action\":\"rainbow"⟩),
    (rainbowFlag, ⟨17, { McpLedArgs.zero with r := 9, rainbow := true }, rainbowFlag⟩)]

/-- A call with some arguments on a strip that is ready. -/
def readyCall (arguments : List UInt8) : McpCall :=
  ⟨fun _ => 0, true, none, .callRequest, some arguments, []⟩

/-- The two calls for the rainbow have the same answer, and so the same effect. -/
theorem answers_tell_commands_rainbow :
    ∃ msg msg', ((readyCall rainbowAction).result .default decodesRainbow).published = some msg ∧
      ((readyCall rainbowFlag).result .default decodesRainbow).published = some msg' ∧
        ∀ x : ThreadState .default, x.onMessage msg = x.onMessage msg' := by
  let text := lit "LED set to rainbow mode via Zbus (index: 256)"
  let answer : McpToolMessage := ⟨[], .toolResponse, some text, text.length⟩
  have hname : ((readyCall rainbowAction).result .default decodesRainbow).submitted = [answer] := by
    decide
  have hflag : ((readyCall rainbowFlag).result .default decodesRainbow).submitted = [answer] := by
    decide
  obtain ⟨msg, msg', hmsg, hmsg', -, -, hsame⟩ := answers_tell_commands
    (hname ▸ List.mem_singleton_self answer) (hflag ▸ List.mem_singleton_self answer)
    ⟨text, rfl, by decide⟩ rfl
  exact ⟨msg, msg', hmsg, hmsg', hsame⟩

end LedMatrix
