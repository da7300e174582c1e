import LedMatrix.McpCommands

/-!
# The protocol of an MCP call

The callback has more than twenty exits, which print into one response buffer
and then submit it. Every one of them submits a single message under the token
of the call, with a text that was printed on the way, and the text reports the
command as carried out exactly when it was published with success.
-/

namespace LedMatrix

open MachineInt CText

/-- How the texts begin that report a command as carried out. -/
def doneBeginnings : List (List UInt8) :=
  [lit "LED turned ", lit "LED toggled ", lit "LED set to ", lit "LED index set to "]

/-- The text reports the command as carried out. -/
def ReportsDone (text : List UInt8) : Prop := ∃ p ∈ doneBeginnings, p <+: text

instance (text : List UInt8) : Decidable (ReportsDone text) :=
  inferInstanceAs (Decidable (∃ p ∈ doneBeginnings, p <+: text))

/-- A C string that fits in the response buffer. -/
structure FitsResponse (text : List UInt8) : Prop where
  zero_notMem : 0 ∉ text
  length_lt : text.length < responseBufferSize

/-! ## Printed texts -/

/-- What is printed into the response buffer fits in it. -/
theorem fitsResponse_snprintk {t : String} (h : 0 ∉ lit t) :
    FitsResponse (snprintk responseBufferSize t) := by
  refine ⟨fun hzero => h (List.mem_of_mem_take hzero), ?_⟩
  simp only [snprintk, List.length_take, responseBufferSize]
  omega

/-- The buffer has room for the beginning of every report. -/
theorem reportsDone_snprintk {t : String} (h : ReportsDone (lit t)) :
    ReportsDone (snprintk responseBufferSize t) := by
  obtain ⟨p, hp, hbegins⟩ := h
  have hroom : ∀ p ∈ doneBeginnings, p.length ≤ responseBufferSize - 1 := by decide
  exact ⟨p, hp, List.prefix_take_iff.mpr ⟨hbegins, hroom p hp⟩⟩

/-- A text without a zero byte that reports the command as carried out. -/
def IsReport (t : String) : Prop := 0 ∉ lit t ∧ ReportsDone (lit t)

instance (t : String) : Decidable (IsReport t) := inferInstanceAs (Decidable (_ ∧ _))

/-- A report goes on as a report. -/
theorem IsReport.append {s t : String} (hs : IsReport s) (ht : 0 ∉ lit t) : IsReport (s ++ t) := by
  obtain ⟨hzero, p, hp, hbegins⟩ := hs
  rw [IsReport, lit_append, List.mem_append]
  exact ⟨not_or.mpr ⟨hzero, ht⟩, p, hp, hbegins.trans (List.prefix_append _ _)⟩

/-- A report with a number in it. -/
theorem IsReport.number {s t : String} (hs : IsReport s) (n : ℕ) (ht : 0 ∉ lit t) :
    IsReport (s ++ toString n ++ t) :=
  (hs.append (zero_notMem_lit_toString n)).append ht

/-- The locals are those of a command that can be answered: a text was printed, and
it reports the command as carried out unless nothing is to be published. -/
def Decoded.Answered (d : Decoded) : Prop :=
  ∃ text, d.response = some text ∧ FitsResponse text ∧ (ReportsDone text ↔ d.validAction = true)

/-- Locals with a report are answered. -/
theorem Decoded.answered_report (msg : LedMsg) {t : String} (h : IsReport t) :
    (Decoded.print true msg t).Answered :=
  ⟨_, rfl, fitsResponse_snprintk h.1, iff_of_true (reportsDone_snprintk h.2) rfl⟩

/-- The locals of a command that is not recognised are answered. -/
theorem answered_invalidCommand (msg : LedMsg) : (invalidCommand msg).Answered := by
  refine ⟨_, rfl, fitsResponse_snprintk (by decide), iff_of_false ?_ Bool.false_ne_true⟩
  decide

/-- The report of the rainbow. -/
theorem isReport_rainbow (index : UInt16) :
    IsReport s!"LED set to rainbow mode via Zbus (index: {index})" :=
  IsReport.number (by decide) index.toNat (by decide)

/-- The report of a colour. -/
theorem isReport_color (r g b : UInt8) (index : UInt16) :
    IsReport s!"LED set to RGB({r}, {g}, {b}) via Zbus (index: {index})" := by
  have hred : IsReport ("LED set to RGB(" ++ toString r ++ ", ") :=
    IsReport.number (by decide) r.toNat (by decide)
  have hblue := (hred.number g.toNat (by decide : 0 ∉ lit ", ")).number b.toNat
    (by decide : 0 ∉ lit ") via Zbus (index: ")
  exact hblue.number index.toNat (by decide : 0 ∉ lit ")")

/-- Every end of the chain on `args.action` answers. -/
theorem answered_decodeArgsAction (msg : LedMsg) (action : List UInt8) :
    (decodeArgsAction msg action).Answered := by
  have hindexed : ∀ {s : String} (m : LedMsg), IsReport s →
      (Decoded.print true m (s ++ toString msg.index ++ ")")).Answered :=
    fun _ hs => Decoded.answered_report _ (hs.number msg.index.toNat (by decide))
  unfold decodeArgsAction
  split_ifs
  · exact hindexed _ (by decide)
  · exact hindexed _ (by decide)
  · exact hindexed _ (by decide)
  · exact hindexed _ (by decide)
  · exact hindexed _ (by decide)
  · exact hindexed _ (by decide)
  · exact Decoded.answered_report _ (isReport_rainbow _)
  · exact answered_invalidCommand msg

/-- Every end of the chain on the extracted string answers. -/
theorem answered_decodeExtractedAction (msg : LedMsg) (action : List UInt8) :
    (decodeExtractedAction msg action).Answered := by
  unfold decodeExtractedAction
  split_ifs
  · exact Decoded.answered_report _ (by decide)
  · exact Decoded.answered_report _ (by decide)
  · exact Decoded.answered_report _ (by decide)
  · exact Decoded.answered_report _ (by decide)
  · exact Decoded.answered_report _ (by decide)
  · exact Decoded.answered_report _ (by decide)
  · exact answered_invalidCommand msg

/-- **Every branch prints its answer.** -/
theorem answered_decodeArguments (cfg : Config) (text : Option (List UInt8)) (parsedBits : Int32)
    (args : McpLedArgs) : (decodeArguments cfg text parsedBits args).Answered := by
  unfold decodeArguments
  by_cases hrainbow : (hasBit parsedBits 4 && args.rainbow) = true
  · simp only [if_pos hrainbow]
    exact Decoded.answered_report _ (isReport_rainbow _)
  simp only [if_neg hrainbow]
  cases parseRgbString args.color with
  | some c => exact Decoded.answered_report _ (isReport_color _ _ _ _)
  | none =>
    by_cases hchannel : hasChannelBit parsedBits = true
    · simp only [if_pos hchannel]
      split_ifs
      · exact Decoded.answered_report _ (isReport_rainbow _)
      · exact Decoded.answered_report _ (isReport_color _ _ _ _)
    · simp only [if_neg hchannel]
      cases args.action with
      | some name => exact answered_decodeArgsAction _ name
      | none =>
        by_cases hindex : hasBit parsedBits 3 = true
        · simp only [if_pos hindex]
          exact Decoded.answered_report _
            (IsReport.number (by decide) (UInt16.toNat _) (by decide : 0 ∉ lit " via Zbus"))
        · simp only [if_neg hindex]
          cases extractJsonStringValue text (lit "\"action\"") with
          | some name => exact answered_decodeExtractedAction _ name
          | none => exact answered_invalidCommand _

/-! ## What is recognised -/

/-- The branch finds a command; `text` is the text after the parse. -/
def Branch.Recognised (text : Option (List UInt8)) : Branch → Prop
  | .action name => name = lit "rainbow" ∨ (namedAction name).isSome = true
  | .extracted => ∃ name, extractJsonStringValue text (lit "\"action\"") = some name ∧
      (namedAction name).isSome = true
  | .rainbow | .color _ | .channels | .index => True

/-- A branch has a message exactly when it finds a command. -/
theorem Branch.isSome_command_iff {msg : LedMsg} {args : McpLedArgs} {text : Option (List UInt8)}
    (branch : Branch) :
    (branch.command msg args text).isSome = true ↔ branch.Recognised text := by
  cases branch with
  | rainbow => exact iff_of_true rfl trivial
  | color c => exact iff_of_true rfl trivial
  | channels => exact iff_of_true rfl trivial
  | index => exact iff_of_true rfl trivial
  | action name =>
    simp only [command, Recognised]
    split_ifs with hrainbow
    · simp [hrainbow]
    · simp [hrainbow]
  | extracted =>
    simp only [command, Recognised, Option.isSome_bind]
    cases extractJsonStringValue text (lit "\"action\"") with
    | none => simp
    | some name => simp

/-- A command is recognised in the arguments of the call. -/
def CallRecognised (json : JsonObjParse) (arguments : Option (List UInt8)) : Prop :=
  (callBranch json arguments).Recognised (parseArguments json arguments).2.2

/-! ## The submitted message -/

/-- The message answers the event: a cancel event is acknowledged, and a call gets a
response whose text has the length that is given for it. -/
def McpToolMessage.Answers (m : McpToolMessage) (event : McpToolEvent) (token : List UInt8) :
    Prop :=
  m.token = token ∧
    match event with
    | .cancelRequest => m.type = .toolCancelAck ∧ m.data = none ∧ m.length = 0
    | .callRequest => m.type = .toolResponse ∧
        ∃ text, m.data = some text ∧ m.length = strlen text ∧ m.length < responseBufferSize

/-- The message has a text that reports the command as carried out. -/
def McpToolMessage.ReportsDone (m : McpToolMessage) : Prop :=
  ∃ text, m.data = some text ∧ LedMatrix.ReportsDone text

/-- A fitting text with its length answers a call. -/
theorem FitsResponse.answers {text : List UInt8} (h : FitsResponse text) (token : List UInt8) :
    (⟨token, .toolResponse, some text, text.length⟩ : McpToolMessage).Answers .callRequest token :=
  ⟨rfl, rfl, text, rfl, (strlen_of_zero_notMem h.zero_notMem).symm, h.length_lt⟩

/-- Every report begins with the same letter. -/
theorem ReportsDone.head? {text : List UInt8} (h : ReportsDone text) : text.head? = some 0x4c := by
  have hletter : ∀ p ∈ doneBeginnings, p.head? = some 0x4c := by decide
  obtain ⟨p, hp, rest, rfl⟩ := h
  rw [List.head?_append, hletter p hp]
  rfl

/-- The text about a failed publish fits, and does not report the command as carried
out. -/
theorem publishFailed_text (rc : ℤ) :
    FitsResponse (snprintk responseBufferSize s!"Zbus publish failed: {rc}") ∧
      ¬ ReportsDone (snprintk responseBufferSize s!"Zbus publish failed: {rc}") := by
  have hlit : lit s!"Zbus publish failed: {rc}" =
      lit "Zbus publish failed: " ++ lit (toString rc) := lit_append _ _
  constructor
  · apply fitsResponse_snprintk
    rw [hlit, List.mem_append]
    exact not_or.mpr ⟨by decide, zero_notMem_lit_toString_int rc⟩
  · intro hdone
    have hfirst : (snprintk responseBufferSize s!"Zbus publish failed: {rc}").head? =
        some 0x5a := by
      rw [snprintk, List.head?_take, hlit, List.head?_append]
      rfl
    rw [hdone.head?] at hfirst
    exact absurd hfirst (by decide)

/-- A message is published exactly when the event is a call, the strip is known to
be ready and a command is recognised. -/
theorem published_isSome (cfg : Config) (json : JsonObjParse) (pub : LedMsg → Int)
    (ledInitialized : Bool) (ready : Option LedReadyMsg) (event : McpToolEvent)
    (arguments : Option (List UInt8)) (token : List UInt8) :
    (ledControlToolCallback cfg json pub ledInitialized ready event arguments
        token).published.isSome = true ↔
      event = .callRequest ∧ refreshInitialized ledInitialized ready = true ∧
        CallRecognised json arguments := by
  rw [ledControlToolCallback_published]
  split_ifs with h
  · simp only [callCommand, Branch.isSome_command_iff, h, true_and]
    rfl
  · refine iff_of_false Bool.false_ne_true ?_
    rintro ⟨hevent, hready, -⟩
    exact h ⟨hevent, hready⟩

/-- The answer of a call on a strip that is ready. -/
theorem callback_answer (cfg : Config) (json : JsonObjParse) (pub : LedMsg → Int)
    {ledInitialized : Bool} {ready : Option LedReadyMsg}
    (hready : refreshInitialized ledInitialized ready = true)
    (arguments : Option (List UInt8)) (token : List UInt8) :
    let result := ledControlToolCallback cfg json pub ledInitialized ready .callRequest arguments
      token
    ∃ text, result.submitted = [⟨token, .toolResponse, some text, text.length⟩] ∧
      FitsResponse text ∧
      (ReportsDone text ↔ ∃ msg, result.published = some msg ∧ pub msg = 0) := by
  obtain ⟨text, htext, hfits, hreports⟩ : (decodeCall cfg json arguments).Answered :=
    answered_decodeArguments _ _ _ _
  simp only [ledControlToolCallback, hready, Bool.not_true, Bool.false_eq_true, if_false]
  cases hvalid : (decodeCall cfg json arguments).validAction with
  | false =>
    have hcommand : (decodeCall cfg json arguments).command = none := by
      simp [Decoded.command, hvalid]
    rw [hcommand, htext]
    refine ⟨text, rfl, hfits, ?_⟩
    simp [hreports, hvalid]
  | true =>
    have hcommand : (decodeCall cfg json arguments).command =
        some (decodeCall cfg json arguments).msg := by
      simp [Decoded.command, hvalid]
    rw [hcommand, htext]
    by_cases hpub : pub (decodeCall cfg json arguments).msg = 0
    · refine ⟨text, by simp [hpub], hfits, ?_⟩
      simp [hreports, hvalid, hpub]
    · obtain ⟨hfailedFits, hfailed⟩ := publishFailed_text (pub (decodeCall cfg json arguments).msg)
      refine ⟨_, by simp [hpub], hfailedFits, iff_of_false hfailed ?_⟩
      rintro ⟨msg, hmsg, hzero⟩
      obtain rfl := Option.some.inj hmsg
      exact hpub hzero

/-- **The protocol of a call.** For every event, arguments, readiness and outcome of
the parse, the read and the publish, one message is submitted, which answers the
event. A message is published exactly when the event is a call, the strip is known
to be ready and a command is recognised. The answer reports the command as carried
out exactly when it was published with success. -/
theorem callback_protocol (cfg : Config) (json : JsonObjParse) (pub : LedMsg → Int)
    (ledInitialized : Bool) (ready : Option LedReadyMsg) (event : McpToolEvent)
    (arguments : Option (List UInt8)) (token : List UInt8) :
    let result := ledControlToolCallback cfg json pub ledInitialized ready event arguments token
    ∃ m, result.submitted = [m] ∧ m.Answers event token ∧
      (result.published.isSome = true ↔
        event = .callRequest ∧ refreshInitialized ledInitialized ready = true ∧
          CallRecognised json arguments) ∧
      (m.ReportsDone ↔ ∃ msg, result.published = some msg ∧ pub msg = 0) := by
  have hpublished := published_isSome cfg json pub ledInitialized ready event arguments token
  cases event with
  | cancelRequest =>
    refine ⟨_, rfl, ⟨rfl, rfl, rfl, rfl⟩, hpublished, ?_⟩
    refine iff_of_false ?_ ?_
    · rintro ⟨text, htext, -⟩
      cases htext
    · rintro ⟨msg, hmsg, -⟩
      cases hmsg
  | callRequest =>
    cases hready : refreshInitialized ledInitialized ready with
    | false =>
      have hfits : FitsResponse (lit "LED not initialized") := ⟨by decide, by decide⟩
      rw [hready] at hpublished
      simp only [ledControlToolCallback, hready] at hpublished ⊢
      refine ⟨_, rfl, hfits.answers token, hpublished, ?_⟩
      refine iff_of_false ?_ ?_
      · rintro ⟨text, htext, hdone⟩
        obtain rfl := Option.some.inj htext
        exact absurd hdone (by decide)
      · rintro ⟨msg, hmsg, -⟩
        cases hmsg
    | true =>
      obtain ⟨text, hsubmitted, hfits, hreports⟩ := callback_answer cfg json pub hready arguments
        token
      rw [hready] at hpublished
      refine ⟨_, hsubmitted, hfits.answers token, hpublished, ?_⟩
      rw [← hreports, McpToolMessage.ReportsDone]
      simp

end LedMatrix
