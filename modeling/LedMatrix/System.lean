import LedMatrix.Lib.OneSlotDelivery
import LedMatrix.McpCommands
import LedMatrix.ParseLedPost
import LedMatrix.ThreadLed

/-!
# The whole system

Both front ends publish on `led_chan`, whose one subscriber is `thread_led`.
The front ends run whenever a client wants them to, so every interleaving of
requests with the steps of the channel and of the thread is a run. A run of the
system is a run of the channel (`Sys.exec_bus`), whose messages are exactly
those that the requests publish.
-/

namespace LedMatrix

/-- A request to one of the front ends. -/
inductive Request
  /-- `POST /api/led`, once `led_handler` has collected this body and hands it over. -/
  | post (body : List UInt8)
  /-- A call of the MCP tool `led_control`. -/
  | call (event : McpToolEvent) (arguments : Option (List UInt8)) (token : List UInt8)

/-- The request's front end, up to its publish: `led_initialized` afterwards,
and the message to be published. The result of the publish reaches only the
response of the MCP callback, so any will do here. -/
def Request.submit (cfg : Config) (json : JsonObjParse) (ledInitialized : Bool)
    (ready : Option LedReadyMsg) : Request → Bool × Option LedMsg
  | .post body => (ledInitialized, parseLedPost cfg json body)
  | .call event arguments token =>
    let result :=
      ledControlToolCallback cfg json (fun _ => 0) ledInitialized ready event arguments token
    (result.ledInitialized, result.published)

/-- The state of the system. -/
structure Sys (cfg : Config) where
  /-- `led_initialized` of the MCP front end. -/
  ledInitialized : Bool
  /-- `led_chan`, the queue of `led_sub`, and `thread_led`. -/
  bus : OneSlot.State LedMsg (ThreadState cfg) (LedSetCall cfg)

/-- The system at the entry of the loop of `thread_led`. -/
def Sys.initial (cfg : Config) : Sys cfg where
  ledInitialized := false
  bus := .initial (ledChanInit cfg) (.initial cfg)

/-- What can happen next. A request comes with the result of the read of
`led_ready_chan`, if its front end makes one. -/
inductive SysEvent
  | request (q : Request) (ready : Option LedReadyMsg)
  /-- The publish under way goes on, or `thread_led` does: `zbus_sub_wait` returns a
  reference or times out, and `zbus_chan_read` is called. -/
  | bus (a : OneSlot.Action)

/-- A step of the channel and of `thread_led`. -/
def busStep (cfg : Config) :
    OneSlot.State LedMsg (ThreadState cfg) (LedSetCall cfg) → OneSlot.Event LedMsg →
      Option (OneSlot.State LedMsg (ThreadState cfg) (LedSetCall cfg)) :=
  OneSlot.step ledSubQueueSize (threadLed cfg)

/-- Publish a message. A publish that finds the channel locked gives up after its timeout
and returns an error; one that gets the lock in time happens later. -/
def Sys.publish {cfg : Config} (s : Sys cfg) : Option LedMsg → Sys cfg
  | none => s
  | some msg =>
    { s with bus := if s.bus.lock = .free then s.bus.copy msg else s.bus.giveUp msg }

/-- One step of the system. -/
def Sys.step (cfg : Config) (json : JsonObjParse) (s : Sys cfg) : SysEvent → Option (Sys cfg)
  | .request q ready =>
    let submitted := q.submit cfg json s.ledInitialized ready
    some (Sys.publish { s with ledInitialized := submitted.1 } submitted.2)
  | .bus a => (busStep cfg s.bus (.act a)).map fun bus => { s with bus := bus }

/-! ## Runs of the system are runs of the channel -/

/-- The steps of the channel that one step of the system consists of. -/
def Sys.labels (cfg : Config) (json : JsonObjParse) (s : Sys cfg) :
    SysEvent → List (OneSlot.Event LedMsg)
  | .request q ready => (q.submit cfg json s.ledInitialized ready).2.toList.map .publish
  | .bus a => [.act a]

/-- A publish is a run of the channel. -/
theorem Sys.publish_bus {cfg : Config} (s : Sys cfg) (b : Bool) (m : Option LedMsg) :
    Runs.exec (busStep cfg) s.bus (m.toList.map .publish) =
      some (Sys.publish { s with ledInitialized := b } m).bus := by
  cases m with
  | none => rfl
  | some msg =>
    simp only [Option.toList_some, List.map_cons, List.map_nil, Runs.exec, busStep, OneSlot.step,
      publish]
    split_ifs <;> rfl

/-- A step of the system is a run of the channel. -/
theorem Sys.step_bus {cfg : Config} {json : JsonObjParse} {s t : Sys cfg} {e : SysEvent}
    (h : Sys.step cfg json s e = some t) :
    Runs.exec (busStep cfg) s.bus (Sys.labels cfg json s e) = some t.bus := by
  cases e with
  | request q ready =>
    obtain rfl := Option.some.inj h
    exact Sys.publish_bus s _ _
  | bus a =>
    obtain ⟨bus, hbus, rfl⟩ := Option.map_eq_some_iff.mp h
    rw [labels, Runs.exec_cons_eq_some]
    exact ⟨bus, hbus, rfl⟩

/-- **Runs of the system are runs of the channel.** A condition on the steps of
the channel that every conforming step of the system meets holds along the
whole run. -/
theorem Sys.exec_bus {cfg : Config} {json : JsonObjParse} {G : Sys cfg → SysEvent → Prop}
    {H : OneSlot.State LedMsg (ThreadState cfg) (LedSetCall cfg) → OneSlot.Event LedMsg → Prop}
    (hguard : ∀ s e, G s e → ∀ l ∈ Sys.labels cfg json s e, H s.bus l)
    {es : List SysEvent} {s : Sys cfg}
    (halong : Runs.Along (Sys.step cfg json) G (Sys.initial cfg) es)
    (hrun : Runs.exec (Sys.step cfg json) (Sys.initial cfg) es = some s) :
    ∃ ls, Runs.exec (busStep cfg) (.initial (ledChanInit cfg) (.initial cfg)) ls = some s.bus ∧
      Runs.Along (busStep cfg) H (.initial (ledChanInit cfg) (.initial cfg)) ls := by
  suffices h : ∀ s e t, G s e → Sys.step cfg json s e = some t →
      Runs.exec (busStep cfg) s.bus (Sys.labels cfg json s e) = some t.bus ∧
        Runs.Along (busStep cfg) H s.bus (Sys.labels cfg json s e) from
    Runs.exec_refines h halong hrun
  intro s e t he ht
  refine ⟨Sys.step_bus ht, ?_⟩
  have hG := hguard s e he
  cases e with
  | request q ready =>
    rw [labels] at hG ⊢
    cases hm : (q.submit cfg json s.ledInitialized ready).2 with
    | none => trivial
    | some msg => exact ⟨hG _ (by simp [hm]), fun _ _ => trivial⟩
  | bus a => exact ⟨hG _ (List.mem_singleton_self _), fun _ _ => trivial⟩

/-- Every run of the system is a run of the channel. -/
theorem Sys.exec_channel {cfg : Config} {json : JsonObjParse} {es : List SysEvent} {s : Sys cfg}
    (hrun : Runs.exec (Sys.step cfg json) (Sys.initial cfg) es = some s) :
    ∃ ls, Runs.exec (busStep cfg) (.initial (ledChanInit cfg) (.initial cfg)) ls = some s.bus := by
  obtain ⟨ls, hls, -⟩ := Sys.exec_bus (G := fun _ _ => True) (H := fun _ _ => True)
    (fun _ _ _ _ _ => trivial) (Runs.along_of_labels fun _ _ => trivial) hrun
  exact ⟨ls, hls⟩

/-! ## What a request publishes -/

/-- The message that a request publishes, once the strip is known to be ready. -/
def Request.message (cfg : Config) (json : JsonObjParse) : Request → Option LedMsg
  | .post body => parseLedPost cfg json body
  | .call event arguments _ => if event = .callRequest then callCommand cfg json arguments else none

/-- A request publishes its message or nothing. -/
theorem Request.submit_message {cfg : Config} {json : JsonObjParse} {b : Bool}
    {ready : Option LedReadyMsg} {q : Request} {msg : LedMsg}
    (h : (q.submit cfg json b ready).2 = some msg) : q.message cfg json = some msg := by
  cases q with
  | post body => exact h
  | call event arguments token =>
    simp only [submit, ledControlToolCallback_published] at h
    split_ifs at h with hcall
    simp only [message, if_pos hcall.1]
    exact h

/-- When the strip is reported ready, a request publishes its message. -/
theorem Request.submit_ready (cfg : Config) (json : JsonObjParse) (b : Bool) (status : Int)
    (q : Request) :
    (q.submit cfg json b (some ⟨true, status⟩)).2 = q.message cfg json := by
  cases q with
  | post body => rfl
  | call event arguments token =>
    simp only [submit, ledControlToolCallback_published, message, refreshInitialized, and_true]

/-- A step of the system publishes only the message of its request. -/
theorem Sys.publish_mem_labels {cfg : Config} {json : JsonObjParse} {s : Sys cfg} {e : SysEvent}
    {msg : LedMsg} (h : .publish msg ∈ Sys.labels cfg json s e) :
    ∃ q ready, e = .request q ready ∧ q.message cfg json = some msg := by
  cases e with
  | request q ready =>
    obtain ⟨m, hm, hmsg⟩ := List.mem_map.mp h
    obtain rfl := OneSlot.Event.publish.inj hmsg
    exact ⟨q, ready, rfl, Request.submit_message (Option.mem_toList.mp hm)⟩
  | bus a => simp [labels] at h

/-- **Invariants of the thread lift to the system.** If the messages of all
requests satisfy `K`, an invariant of `thread_led` that such messages and
timeouts keep holds after every run. -/
theorem Sys.exec_confined {cfg : Config} {json : JsonObjParse} {K : LedMsg → Prop}
    {I : ThreadState cfg → Prop} {J : LedSetCall cfg → Prop}
    (hmessage : ∀ x m, K m → I x → I (x.onMessage m).1 ∧ ∀ o ∈ (x.onMessage m).2, J o)
    (hidle : ∀ x, I x → I x.onTimeout.1 ∧ ∀ o ∈ x.onTimeout.2, J o)
    (hstart : I (.initial cfg)) {es : List SysEvent} {s : Sys cfg}
    (hrequests : ∀ q ready, .request q ready ∈ es → ∀ m, q.message cfg json = some m → K m)
    (hrun : Runs.exec (Sys.step cfg json) (Sys.initial cfg) es = some s) :
    OneSlot.Confined K I J s.bus := by
  have halong : Runs.Along (Sys.step cfg json)
      (fun _ e => ∀ q ready, e = .request q ready → ∀ m, q.message cfg json = some m → K m)
      (Sys.initial cfg) es := by
    apply Runs.along_of_labels
    rintro e he q ready rfl
    exact hrequests q ready he
  obtain ⟨ls, hls, hpublished⟩ := Sys.exec_bus (H := fun _ e => ∀ m, e = .publish m → K m) (by
    rintro u e he l hl m rfl
    obtain ⟨q, ready, rfl, hm⟩ := Sys.publish_mem_labels hl
    exact he q ready rfl m hm) halong hrun
  exact OneSlot.exec_confined (c := threadLed cfg) hmessage hidle hstart hpublished hls

/-- A publish alone: it queues its reference and returns, and the thread takes the
reference and reads the channel. -/
def handledEvents : List SysEvent := [.bus .put, .bus .unlock, .bus .wait, .bus .read]

/-- One request is submitted on an idle system, published, handled, and
followed by a timeout. -/
def Request.alone (q : Request) : List SysEvent :=
  .request q (some ⟨true, 0⟩) :: handledEvents ++ [.bus .idle]

/-- No other request is made in the run of a request alone. -/
theorem Request.eq_of_mem_alone {q q' : Request} {ready : Option LedReadyMsg}
    (h : .request q' ready ∈ q.alone) : q' = q := by
  simp only [alone, handledEvents, List.cons_append, List.nil_append, List.mem_cons,
    SysEvent.request.injEq, reduceCtorEq, List.not_mem_nil, or_false] at h
  exact h.1

/-- A request that publishes a message can have the thread handle it right away. -/
theorem Sys.exec_alone {cfg : Config} {json : JsonObjParse} {q : Request} {msg : LedMsg}
    (h : q.message cfg json = some msg) :
    ∃ s, Runs.exec (Sys.step cfg json) (Sys.initial cfg) q.alone = some s ∧
      (s.bus.copied = [msg] ∧ s.bus.AtRest) ∧
      s.bus.consumer = ((ThreadState.initial cfg).onMessage msg).1.onTimeout.1 ∧
      s.bus.emitted = ((ThreadState.initial cfg).onMessage msg).2 ++
        ((ThreadState.initial cfg).onMessage msg).1.onTimeout.2 := by
  have hsubmit := Request.submit_ready cfg json false 0 q
  rw [h] at hsubmit
  generalize hb : (q.submit cfg json false (some ⟨true, 0⟩)).1 = b
  let s₁ : Sys cfg := ⟨b, (Sys.initial cfg).bus.copy msg⟩
  let s₂ : Sys cfg := ⟨b, s₁.bus.enqueue⟩
  let s₃ : Sys cfg := ⟨b, s₂.bus.accept⟩
  let s₄ : Sys cfg := ⟨b, s₃.bus.wake⟩
  let s₅ : Sys cfg := ⟨b, s₄.bus.handle (threadLed cfg)⟩
  let s₆ : Sys cfg := ⟨b, s₅.bus.rest (threadLed cfg)⟩
  have hcopy : Sys.step cfg json (Sys.initial cfg) (.request q (some ⟨true, 0⟩)) = some s₁ := by
    simp only [Sys.step, Sys.initial]
    rw [hsubmit, hb]
    rfl
  have hput : Sys.step cfg json s₁ (.bus .put) = some s₂ := rfl
  have hunlock : Sys.step cfg json s₂ (.bus .unlock) = some s₃ := rfl
  have hwait : Sys.step cfg json s₃ (.bus .wait) = some s₄ := rfl
  have hread : Sys.step cfg json s₄ (.bus .read) = some s₅ := rfl
  have hidle : Sys.step cfg json s₅ (.bus .idle) = some s₆ := rfl
  refine ⟨s₆, ?_, ⟨rfl, rfl, rfl, rfl⟩, rfl, rfl⟩
  simp only [Request.alone, handledEvents, List.cons_append, List.nil_append, Runs.exec, hcopy,
    hput, hunlock, hwait, hread, hidle, Option.bind_some]

end LedMatrix
