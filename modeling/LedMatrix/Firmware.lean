import LedMatrix.System
import LedMatrix.Transactions

/-!
# The firmware, callback by callback

In the system a POST is one request with its body. Here the HTTP server calls
`led_handler` for every piece of data, and each call may come between any two steps of
the MCP server, the channel and the LED thread. The firmware refines the system: a
callback is a request exactly when the abstract handler hands over a body.
-/

namespace LedMatrix

open Mealy Reassembly

/-- The system with the static variables of `led_handler`, and a log of the bodies that it
has passed to `parse_led_post`. -/
structure Firmware (cfg : Config) where
  sys : Sys cfg
  handler : HandlerState
  parsed : List (List UInt8)

/-- The firmware at the entry of the loop of `thread_led`. -/
def Firmware.initial (cfg : Config) : Firmware cfg := ⟨.initial cfg, .initial, []⟩

/-- What can happen next. -/
inductive FirmwareEvent
  /-- The HTTP server calls `led_handler`. -/
  | http (c : Callback)
  /-- The MCP server calls `led_control_tool_callback`. -/
  | mcp (event : McpToolEvent) (arguments : Option (List UInt8)) (token : List UInt8)
      (ready : Option LedReadyMsg)
  /-- The publish under way or `thread_led` goes on. -/
  | bus (a : OneSlot.Action)

/-- A step of the system. -/
def Firmware.sysStep {cfg : Config} (json : JsonObjParse) (s : Firmware cfg) (e : SysEvent) :
    Option (Firmware cfg) :=
  (Sys.step cfg json s.sys e).map fun sys => { s with sys := sys }

/-- One step of the firmware. `led_handler` calls `parse_led_post` itself, when it has
the last data of a body. -/
def Firmware.step (cfg : Config) (json : JsonObjParse) (s : Firmware cfg) :
    FirmwareEvent → Option (Firmware cfg)
  | .http c =>
    let called := { s with handler := (ledHandler s.handler c).1 }
    match (ledHandler s.handler c).2.parsed with
    | some body =>
      Firmware.sysStep json { called with parsed := s.parsed ++ [body] }
        (.request (.post body) none)
    | none => some called
  | .mcp event arguments token ready =>
    s.sysStep json (.request (.call event arguments token) ready)
  | .bus a => s.sysStep json (.bus a)

/-! ## The firmware refines the system -/

/-- The bytes collected after an event. -/
def FirmwareEvent.collected (p : Body) : FirmwareEvent → Body
  | .http c => (p.step c).1
  | .mcp _ _ _ _ | .bus _ => p

/-- What the event is in the system, given the bytes collected before it. -/
def FirmwareEvent.sysEvents (p : Body) : FirmwareEvent → List SysEvent
  | .http c => (p.step c).2.parsed.toList.map fun body => .request (.post body) none
  | .mcp event arguments token ready => [.request (.call event arguments token) ready]
  | .bus a => [.bus a]

/-- What a run of the firmware is in the system. It depends on the bytes alone, not on
the buffer or the cursor. -/
def sysEvents : Body → List FirmwareEvent → List SysEvent :=
  Runs.translate FirmwareEvent.collected FirmwareEvent.sysEvents

/-- A step of the system alone. -/
theorem Firmware.map_sys_sysStep {cfg : Config} (json : JsonObjParse) (s : Firmware cfg)
    (e : SysEvent) :
    (s.sysStep json e).map Firmware.sys = Runs.exec (Sys.step cfg json) s.sys [e] := by
  simp only [sysStep, Option.map_map, Runs.exec]
  cases Sys.step cfg json s.sys e <;> rfl

/-- A step of the system leaves the handler and its log alone. -/
theorem Firmware.frame_sysStep {cfg : Config} {json : JsonObjParse} {s t : Firmware cfg}
    {e : SysEvent} (h : s.sysStep json e = some t) :
    t.handler = s.handler ∧ t.parsed = s.parsed := by
  obtain ⟨sys, -, rfl⟩ := Option.map_eq_some_iff.mp h
  exact ⟨rfl, rfl⟩

/-- **One step**: the system takes the events that the step stands for, and the static
variables go on representing the bytes collected. -/
theorem Firmware.step_sys {cfg : Config} {json : JsonObjParse} {s : Firmware cfg} {p : Body}
    (h : Represents s.handler p) (e : FirmwareEvent) :
    (Firmware.step cfg json s e).map Firmware.sys =
        Runs.exec (Sys.step cfg json) s.sys (e.sysEvents p) ∧
      ∀ t, Firmware.step cfg json s e = some t → Represents t.handler (e.collected p) := by
  have hsystem : ∀ e', (s.sysStep json e').map Firmware.sys =
        Runs.exec (Sys.step cfg json) s.sys [e'] ∧
      ∀ t, s.sysStep json e' = some t → Represents t.handler p := by
    intro e'
    refine ⟨s.map_sys_sysStep json e', fun t ht => ?_⟩
    rw [(frame_sysStep ht).1]
    exact h
  cases e with
  | http c =>
    obtain ⟨hnext, hresult⟩ := h.step c
    simp only [step, FirmwareEvent.sysEvents, FirmwareEvent.collected, hresult]
    cases (p.step c).2.parsed with
    | none =>
      refine ⟨rfl, fun t ht => ?_⟩
      obtain rfl := Option.some.inj ht
      exact hnext
    | some body =>
      refine ⟨map_sys_sysStep json _ _, fun t ht => ?_⟩
      rw [(frame_sysStep ht).1]
      exact hnext
  | mcp event arguments token ready => exact hsystem _
  | bus a => exact hsystem _

/-- **The firmware refines the system.** Whatever the order in which the callbacks of
the HTTP server, the calls of the MCP server and the steps of the channel and of the
thread come, and whatever transactions the callbacks belong to: the firmware can do
exactly what the system can do with the bodies that the abstract handler hands over,
and both end in the same state. -/
theorem firmware_refines_sys (cfg : Config) (json : JsonObjParse) (es : List FirmwareEvent) :
    (Runs.exec (Firmware.step cfg json) (.initial cfg) es).map Firmware.sys =
        Runs.exec (Sys.step cfg json) (.initial cfg) (sysEvents .empty es) ∧
      ∀ s, Runs.exec (Firmware.step cfg json) (.initial cfg) es = some s →
        Represents s.handler (es.foldl FirmwareEvent.collected .empty) :=
  Runs.exec_translate (R := fun (s : Firmware cfg) p => Represents s.handler p)
    (fun _ _ e h => Firmware.step_sys h e) Represents.initial es

/-! ## Transactions in a run of the firmware -/

/-- The callbacks for one transaction: its data, of which there is no more after a
failure, and the closing callback, which may stay out then. -/
def Transaction.callbacks (x : Transaction) : List Callback :=
  let data := dataCallbacks x.method x.chunks x.last
  let steps := runUntil Body.step HandlerResult.failed .empty data
  data.take steps.length ++
    if steps.any (fun o => o.2.failed) && !x.closesFailed then []
    else [⟨x.method, x.closing.status, []⟩]

/-- From an empty buffer these callbacks serve the transaction. -/
theorem Transaction.run_callbacks {s : HandlerState} (hs : Represents s .empty)
    (x : Transaction) : run ledHandler s x.callbacks = x.serve s := by
  have hsame : (x.serveData s).map Prod.snd =
      (runUntil Body.step HandlerResult.failed .empty
        (dataCallbacks x.method x.chunks x.last)).map Prod.snd :=
    runUntil_simulation (R := Represents) (fun _ _ c h => h.step c) _ hs _
  have hlength := congrArg List.length hsame
  have hfailed := congrArg (List.any · HandlerResult.failed) hsame
  simp only [List.length_map] at hlength
  simp only [List.any_map] at hfailed
  have hdata : run ledHandler s ((dataCallbacks x.method x.chunks x.last).take
      (x.serveData s).length) = x.serveData s := run_take_runUntil ..
  have hfinal := lastState_run ledHandler s ((dataCallbacks x.method x.chunks x.last).take
    (x.serveData s).length)
  rw [hdata] at hfinal
  simp only [callbacks, serve, ← hlength, run_append, hdata, ← hfinal]
  simp only [Function.comp_def] at hfailed
  rw [hfailed]
  split_ifs
  · exact List.append_nil _
  · rfl

/-- The callbacks of transactions one after another serve them one after another. -/
theorem run_callbacks_flatMap {s : HandlerState} (hs : s.cursor = 0) (xs : List Transaction) :
    run ledHandler s (xs.flatMap Transaction.callbacks) = (serveAll s xs).flatten := by
  induction xs generalizing s with
  | nil => rfl
  | cons x xs ih =>
    have hrep : Represents s .empty := by
      obtain ⟨buf, cursor⟩ := s
      obtain rfl : cursor = 0 := hs
      exact .reset buf
    have hend := lastState_run ledHandler s x.callbacks
    rw [x.run_callbacks hrep] at hend
    rw [List.flatMap_cons, run_append, x.run_callbacks hrep, ← hend, ih (x.served hs).2]
    rfl

/-- The callback that an event is, if it is one. -/
def FirmwareEvent.callback : FirmwareEvent → Option Callback
  | .http c => some c
  | .mcp _ _ _ _ | .bus _ => none

/-- The body of the POST that an event is, if it is one. -/
def SysEvent.postBody : SysEvent → Option (List UInt8)
  | .request (.post body) _ => some body
  | .request (.call _ _ _) _ | .bus _ => none

/-- The system sees a POST for each body that the abstract handler hands over. -/
theorem postBodies_sysEvents (p : Body) (es : List FirmwareEvent) :
    (sysEvents p es).filterMap SysEvent.postBody =
      (outputs Body.step p (es.filterMap FirmwareEvent.callback)).filterMap
        HandlerResult.parsed := by
  induction es generalizing p with
  | nil => rfl
  | cons e es ih =>
    have hrest : (sysEvents p (e :: es)).filterMap SysEvent.postBody =
        (e.sysEvents p).filterMap SysEvent.postBody ++
          (sysEvents (e.collected p) es).filterMap SysEvent.postBody := List.filterMap_append
    rw [hrest, ih]
    cases e with
    | http c =>
      have hcallbacks : (FirmwareEvent.http c :: es).filterMap FirmwareEvent.callback =
          c :: es.filterMap FirmwareEvent.callback := rfl
      rw [hcallbacks, outputs_cons, FirmwareEvent.sysEvents, FirmwareEvent.collected]
      cases hparsed : (p.step c).2.parsed with
      | none => simp [hparsed]
      | some body => simp [hparsed, SysEvent.postBody]
    | mcp event arguments token ready => rfl
    | bus a => rfl

/-- Transactions that are served have their expected bodies parsed. -/
theorem parsedBodies_flatten {xs : List Transaction}
    {steps : List (List (HandlerState × HandlerResult))} (h : List.Forall₂ Served xs steps) :
    parsedBodies steps.flatten = xs.flatMap Transaction.expectedBodies := by
  induction h with
  | nil => rfl
  | cons hx _ ih =>
    rw [List.flatten_cons, parsedBodies_append, hx.parsed_eq, ih, List.flatMap_cons]

/-- The bodies that the abstract handler hands over for transactions one after another. -/
theorem parsed_callbacks (xs : List Transaction) :
    (outputs Body.step .empty (xs.flatMap Transaction.callbacks)).filterMap
        HandlerResult.parsed = xs.flatMap Transaction.expectedBodies := by
  have hsame : outputs ledHandler .initial (xs.flatMap Transaction.callbacks) =
      outputs Body.step .empty (xs.flatMap Transaction.callbacks) :=
    outputs_simulation (R := Represents) (G := fun _ _ => True)
      (fun _ _ c h _ => h.step c) Represents.initial fun _ _ _ _ => trivial
  have hserved : outputs ledHandler .initial (xs.flatMap Transaction.callbacks) =
      (serveAll .initial xs).flatten.map Prod.snd := by
    rw [outputs, run_callbacks_flatMap rfl]
  have hbodies : ∀ steps : List (HandlerState × HandlerResult),
      (steps.map Prod.snd).filterMap HandlerResult.parsed = parsedBodies steps :=
    fun steps => List.filterMap_map
  rw [← hsame, hserved, hbodies]
  exact parsedBodies_flatten (serveAll_served xs)

/-- **One step** logs the bodies that it has parsed as POSTs of the system. -/
theorem Firmware.step_parsed {cfg : Config} {json : JsonObjParse} {s t : Firmware cfg} {p : Body}
    (h : Represents s.handler p) {e : FirmwareEvent} (ht : Firmware.step cfg json s e = some t) :
    t.parsed = s.parsed ++ (e.sysEvents p).filterMap SysEvent.postBody := by
  have hsystem : ∀ e', e'.postBody = none → s.sysStep json e' = some t →
      t.parsed = s.parsed ++ [e'].filterMap SysEvent.postBody := by
    intro e' hnone he'
    rw [(frame_sysStep he').2]
    simp [hnone]
  cases e with
  | http c =>
    obtain ⟨-, hresult⟩ := h.step c
    simp only [step, hresult] at ht
    simp only [FirmwareEvent.sysEvents]
    cases hparsed : (p.step c).2.parsed with
    | none =>
      rw [hparsed] at ht
      obtain rfl := Option.some.inj ht
      exact (List.append_nil _).symm
    | some body =>
      rw [hparsed] at ht
      exact (frame_sysStep ht).2
  | mcp event arguments token ready => exact hsystem _ rfl ht
  | bus a => exact hsystem _ rfl ht

/-- A run logs the bodies of all POSTs of the system. -/
theorem Firmware.exec_parsed {cfg : Config} {json : JsonObjParse} {s t : Firmware cfg} {p : Body}
    (h : Represents s.handler p) {es : List FirmwareEvent}
    (hrun : Runs.exec (Firmware.step cfg json) s es = some t) :
    t.parsed = s.parsed ++ (sysEvents p es).filterMap SysEvent.postBody := by
  induction es generalizing s p with
  | nil =>
    obtain rfl := Option.some.inj hrun
    exact (List.append_nil _).symm
  | cons e es ih =>
    obtain ⟨u, hu, hrun⟩ := Runs.exec_cons_eq_some.mp hrun
    have hrest : sysEvents p (e :: es) = e.sysEvents p ++ sysEvents (e.collected p) es := rfl
    rw [ih ((step_sys h e).2 u hu) hrun, step_parsed h hu, hrest, List.filterMap_append,
      List.append_assoc]

/-- **Bodies in a run of the firmware.** When the callbacks of the HTTP server belong to
transactions one after another, whatever comes between them: `led_handler` passes to
`parse_led_post` exactly one body for each transaction that delivers the last data of a
body that fits in the buffer, this body, in their order, and no other; and these are the
POSTs that the system sees. -/
theorem firmware_posts {cfg : Config} (json : JsonObjParse) (es : List FirmwareEvent)
    (xs : List Transaction)
    (hcallbacks : es.filterMap FirmwareEvent.callback = xs.flatMap Transaction.callbacks) :
    (sysEvents .empty es).filterMap SysEvent.postBody = xs.flatMap Transaction.expectedBodies ∧
      ∀ s, Runs.exec (Firmware.step cfg json) (.initial cfg) es = some s →
        s.parsed = xs.flatMap Transaction.expectedBodies := by
  have hposts : (sysEvents .empty es).filterMap SysEvent.postBody =
      xs.flatMap Transaction.expectedBodies := by
    rw [postBodies_sysEvents, hcallbacks, parsed_callbacks]
  refine ⟨hposts, fun s hrun => ?_⟩
  have hinitial : Represents (Firmware.initial cfg).handler .empty := Represents.initial
  rw [Firmware.exec_parsed hinitial hrun, hposts]
  rfl

/-- A POST in two chunks. -/
def splitPost : Transaction where
  method := .post
  chunks := [[0x7b]]
  last := some [0x7d]
  closing := .complete
  closesFailed := false
  last_of_complete := fun _ => rfl

/-- The callbacks of the split POST, with a cancel request and a timeout between them. -/
def splitPostRun : List FirmwareEvent :=
  [.http ⟨.post, .more, [0x7b]⟩, .mcp .cancelRequest none [] none, .http ⟨.post, .final, [0x7d]⟩,
    .bus .idle, .http ⟨.post, .complete, []⟩]

/-- The body of the split POST is passed on in one piece. -/
theorem firmware_posts_splitPost :
    ∃ s, Runs.exec (Firmware.step .default (.knowing [] [])) (.initial .default) splitPostRun =
        some s ∧ s.parsed = [[0x7b, 0x7d]] := by
  obtain ⟨s, hs⟩ : ∃ s, Runs.exec (Firmware.step .default (.knowing [] [])) (.initial .default)
      splitPostRun = some s := ⟨_, rfl⟩
  have hcallbacks : splitPostRun.filterMap FirmwareEvent.callback =
      [splitPost].flatMap Transaction.callbacks := by decide
  exact ⟨s, hs, ((firmware_posts _ _ _ hcallbacks).2 s hs).trans (by decide)⟩

end LedMatrix
