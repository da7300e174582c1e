import LedMatrix.Delivery

/-!
# From boot

`thread_led` announces on `led_ready_chan` whether the strip is ready, and returns
if it is not. The MCP front end caches what it reads there; the HTTP front end
never looks. Here the start of the thread, the start of the MCP server and the
requests to both front ends happen in any order.
-/

namespace LedMatrix

/-! ## The system with its start-up -/

/-- How far `thread_led` has come. -/
inductive ThreadPhase
  | unstarted
  /-- In its loop. -/
  | running
  /-- It has returned because the strip is not ready. -/
  | returned
  deriving DecidableEq, Repr

/-- The initial message of `led_ready_chan`. -/
def ledReadyChanInit : LedReadyMsg := ⟨false, negEnodev⟩

/-- The message that `led_is_ready` publishes, whose status it returns. -/
def ledIsReady (deviceReady : Bool) : LedReadyMsg :=
  if deviceReady then ⟨true, 0⟩ else ⟨false, negEnodev⟩

/-- The system with its start-up, and a log of what the front ends publish. -/
structure Boot (cfg : Config) where
  sys : Sys cfg
  /-- The message that `led_ready_chan` holds. -/
  readyChan : LedReadyMsg
  thread : ThreadPhase
  /-- Each message passed to `zbus_chan_pub`, with what `led_ready_chan` held then. -/
  published : List (LedMsg × LedReadyMsg)

/-- The system at boot. -/
def Boot.initial (cfg : Config) : Boot cfg where
  sys := .initial cfg
  readyChan := ledReadyChanInit
  thread := .unstarted
  published := []

/-- What can happen next. -/
inductive BootEvent
  /-- `thread_led` calls `led_is_ready`. The result of its publish is only logged;
  what counts is whether the message was stored. -/
  | threadLed (deviceReady stored : Bool)
  /-- `mcp_server` reads `led_ready_chan`, which may fail. -/
  | mcpServer (readOk : Bool)
  /-- A request, with the success of its read of `led_ready_chan` if it makes one. -/
  | request (q : Request) (readOk : Bool)
  /-- The publish under way or `thread_led` goes on. -/
  | bus (a : OneSlot.Action)

/-- The result of a read of `led_ready_chan`. -/
def Boot.read {cfg : Config} (s : Boot cfg) (readOk : Bool) : Option LedReadyMsg :=
  if readOk then some s.readyChan else none

/-- A step of the system after its start-up. -/
def Boot.sysStep {cfg : Config} (json : JsonObjParse) (s : Boot cfg) (e : SysEvent) :
    Option (Boot cfg) :=
  (Sys.step cfg json s.sys e).map fun sys => { s with sys := sys }

/-- One step. Only a running thread waits for references and reads the channel. -/
def Boot.step (cfg : Config) (json : JsonObjParse) (s : Boot cfg) : BootEvent → Option (Boot cfg)
  | .threadLed deviceReady stored =>
    if s.thread = .unstarted then
      some { s with
        readyChan := if stored then ledIsReady deviceReady else s.readyChan
        thread := if (ledIsReady deviceReady).status ≠ 0 then .returned else .running }
    else none
  | .mcpServer readOk =>
    some { s with sys := { s.sys with
      ledInitialized := ((s.read readOk).map LedReadyMsg.isReady).getD false } }
  | .request q readOk =>
    let msg := (q.submit cfg json s.sys.ledInitialized (s.read readOk)).2
    Boot.sysStep json { s with published := s.published ++ msg.toList.map (·, s.readyChan) }
      (.request q (s.read readOk))
  | .bus a => if a.ofConsumer ∧ s.thread ≠ .running then none else s.sysStep json (.bus a)

/-! ## What is known of the strip -/

/-- What the MCP front end has cached, what the channel holds and what the thread
does agree. -/
structure Boot.Consistent {cfg : Config} (s : Boot cfg) : Prop where
  /-- The cache holds only what the channel announces. -/
  cached : s.sys.ledInitialized = true → s.readyChan.isReady = true
  /-- The channel announces a ready strip only once the thread runs. -/
  announced : s.readyChan.isReady = true → s.thread = .running
  /-- The thread ran whenever a message was published on a ready strip. -/
  logged : ∀ p ∈ s.published, p.2.isReady = true → s.thread = .running

/-- At boot the thread and the channels are consistent. -/
theorem Boot.Consistent.initial (cfg : Config) : (Boot.initial cfg).Consistent where
  cached h := by cases h
  announced h := by cases h
  logged := by simp [Boot.initial]

/-- Every message was published after `led_ready_chan` had announced that the strip
is ready. -/
def Boot.PublishesReady {cfg : Config} (s : Boot cfg) : Prop :=
  ∀ p ∈ s.published, p.2.isReady = true

/-- If only ready messages were published, none was once `thread_led` has returned. -/
theorem Boot.Consistent.published_eq_nil {cfg : Config} {s : Boot cfg} (h : s.Consistent)
    (hready : s.PublishesReady) (hreturned : s.thread = .returned) : s.published = [] := by
  rw [List.eq_nil_iff_forall_not_mem]
  intro p hp
  have hrunning := h.logged p hp (hready p hp)
  rw [hreturned] at hrunning
  cases hrunning

/-- A POST that decodes completely comes only when the strip is announced ready. -/
def Boot.PostsReady {cfg : Config} (json : JsonObjParse) (s : Boot cfg) (e : BootEvent) : Prop :=
  ∀ body readOk, e = .request (.post body) readOk →
    (json.ledCommand body).ret = expectedReturnCode → s.readyChan.isReady = true

/-- A step of the system alone changes neither the channel, nor the thread, nor
the log. -/
theorem Boot.sysStep_frame {cfg : Config} {json : JsonObjParse} {s t : Boot cfg} {e : SysEvent}
    (h : s.sysStep json e = some t) :
    t.readyChan = s.readyChan ∧ t.thread = s.thread ∧ t.published = s.published ∧
      Sys.step cfg json s.sys e = some t.sys := by
  obtain ⟨sys, hsys, rfl⟩ := Option.map_eq_some_iff.mp h
  exact ⟨rfl, rfl, rfl, hsys⟩

/-- A request leaves the MCP front end with what the request has cached. -/
theorem Sys.step_request {cfg : Config} {json : JsonObjParse} {s t : Sys cfg} {q : Request}
    {ready : Option LedReadyMsg} (h : Sys.step cfg json s (.request q ready) = some t) :
    t.ledInitialized = (q.submit cfg json s.ledInitialized ready).1 := by
  obtain rfl := Option.some.inj h
  cases (q.submit cfg json s.ledInitialized ready).2 with
  | none => rfl
  | some msg => rfl

/-- No other step changes what the MCP front end has cached. -/
theorem Sys.step_quiet {cfg : Config} {json : JsonObjParse} {s t : Sys cfg} {e : SysEvent}
    (hquiet : ∀ q ready, e ≠ .request q ready) (h : Sys.step cfg json s e = some t) :
    t.ledInitialized = s.ledInitialized := by
  cases e with
  | request q ready => exact absurd rfl (hquiet q ready)
  | bus a =>
    obtain ⟨bus, -, rfl⟩ := Option.map_eq_some_iff.mp h
    rfl

/-- When the cache is set after a read, the channel announces a ready strip. -/
theorem Boot.Consistent.refresh {cfg : Config} {s : Boot cfg} (h : s.Consistent) {readOk : Bool}
    (hready : refreshInitialized s.sys.ledInitialized (s.read readOk) = true) :
    s.readyChan.isReady = true := by
  cases readOk with
  | true => exact hready
  | false => exact h.cached hready

/-- When the cache is set after a request, the channel announces a ready strip. -/
theorem Boot.Consistent.submit_cached {cfg : Config} {json : JsonObjParse} {s : Boot cfg}
    (h : s.Consistent) {q : Request} {readOk : Bool}
    (hcached : (q.submit cfg json s.sys.ledInitialized (s.read readOk)).1 = true) :
    s.readyChan.isReady = true := by
  cases q with
  | post body => exact h.cached hcached
  | call event arguments token =>
    cases event with
    | cancelRequest => exact h.cached hcached
    | callRequest =>
      refine h.refresh (?_ : refreshInitialized _ (s.read readOk) = true)
      simp only [Request.submit, ledControlToolCallback] at hcached
      split_ifs at hcached with hready <;> simpa using hcached

/-- A request publishes only on a strip announced ready, exactly when it is not a
POST that decodes completely before that. -/
theorem Boot.Consistent.submit_published {cfg : Config} {json : JsonObjParse} {s : Boot cfg}
    (h : s.Consistent) (q : Request) (readOk : Bool) :
    (∀ msg, (q.submit cfg json s.sys.ledInitialized (s.read readOk)).2 = some msg →
        s.readyChan.isReady = true) ↔ s.PostsReady json (.request q readOk) := by
  cases q with
  | post body =>
    simp only [Request.submit, PostsReady]
    constructor
    · rintro hready _ _ ⟨⟩ hret
      exact hready _ (parseLedPost_eq_some.mpr ⟨hret, rfl⟩)
    · intro hposts msg hmsg
      exact hposts body readOk rfl (parseLedPost_eq_some.mp hmsg).1
  | call event arguments token =>
    refine iff_of_true ?_ (by rintro _ _ ⟨⟩)
    intro msg hmsg
    simp only [Request.submit, ledControlToolCallback_published] at hmsg
    split_ifs at hmsg with hcall
    exact h.refresh hcall.2

/-! ## Steps and runs -/

/-- A step of the channel or of the thread keeps everything consistent. -/
theorem Boot.Consistent.sysStep {cfg : Config} {json : JsonObjParse} {s t : Boot cfg}
    (h : s.Consistent) {e : SysEvent} (hquiet : ∀ q ready, e ≠ .request q ready)
    (ht : s.sysStep json e = some t) :
    t.Consistent ∧ (t.PublishesReady ↔ s.PublishesReady) := by
  obtain ⟨hchan, hthread, hpublished, hsys⟩ := Boot.sysStep_frame ht
  refine ⟨⟨?_, ?_, ?_⟩, by rw [PublishesReady, hpublished, PublishesReady]⟩
  · rw [Sys.step_quiet hquiet hsys, hchan]
    exact h.cached
  · rw [hchan, hthread]
    exact h.announced
  · rw [hpublished, hthread]
    exact h.logged

/-- The start of the thread keeps everything consistent: before it the strip was not
announced ready. -/
theorem Boot.Consistent.threadLed {cfg : Config} {json : JsonObjParse} {s t : Boot cfg}
    (h : s.Consistent) {deviceReady stored : Bool}
    (ht : Boot.step cfg json s (.threadLed deviceReady stored) = some t) :
    t.Consistent := by
  simp only [Boot.step, Option.ite_none_right_eq_some, Option.some.injEq] at ht
  obtain ⟨hunstarted, rfl⟩ := ht
  have hnotRunning : s.thread ≠ .running := by simp [hunstarted]
  have hcached : s.sys.ledInitialized ≠ true := fun hc => hnotRunning (h.announced (h.cached hc))
  have hannounced : s.readyChan.isReady ≠ true := fun ha => hnotRunning (h.announced ha)
  refine ⟨fun hc => absurd hc hcached, ?_, fun p hp hp' => absurd (h.logged p hp hp') hnotRunning⟩
  cases deviceReady with
  | true => exact fun _ => rfl
  | false =>
    cases stored with
    | true => exact fun hready => by cases hready
    | false => exact fun hready => absurd hready hannounced

/-- The start of the thread publishes nothing on `led_chan`. -/
theorem Boot.threadLed_published {cfg : Config} {json : JsonObjParse} {s t : Boot cfg}
    {deviceReady stored : Bool}
    (ht : Boot.step cfg json s (.threadLed deviceReady stored) = some t) :
    t.PublishesReady ↔ s.PublishesReady := by
  simp only [Boot.step, Option.ite_none_right_eq_some, Option.some.injEq] at ht
  obtain ⟨-, rfl⟩ := ht
  rfl

/-- **One step** keeps everything consistent, and it publishes only on a strip
announced ready exactly if it meets the condition on POSTs. -/
theorem Boot.Consistent.step {cfg : Config} {json : JsonObjParse} {s t : Boot cfg}
    (h : s.Consistent) {e : BootEvent} (ht : Boot.step cfg json s e = some t) :
    t.Consistent ∧ (t.PublishesReady ↔ s.PublishesReady ∧ s.PostsReady json e) := by
  have hnoPost : (∀ q readOk, e ≠ .request q readOk) → s.PostsReady json e := by
    rintro hne body readOk rfl
    exact absurd rfl (hne _ _)
  cases e with
  | threadLed deviceReady stored =>
    exact ⟨h.threadLed ht, by rw [and_iff_left (hnoPost (by simp)), Boot.threadLed_published ht]⟩
  | mcpServer readOk =>
    obtain rfl := Option.some.inj ht
    refine ⟨⟨?_, h.announced, h.logged⟩, (and_iff_left (hnoPost (by simp))).symm⟩
    cases readOk with
    | true => exact id
    | false => exact fun hfalse => by cases hfalse
  | request q readOk =>
    obtain ⟨hchan, hthread, hpublished, hsys⟩ := Boot.sysStep_frame ht
    refine ⟨⟨?_, ?_, ?_⟩, ?_⟩
    · rw [Sys.step_request hsys, hchan]
      exact h.submit_cached
    · rw [hchan, hthread]
      exact h.announced
    · rw [hpublished, hthread]
      intro p hp hready
      rcases List.mem_append.mp hp with hp | hp
      · exact h.logged p hp hready
      · obtain ⟨msg, -, rfl⟩ := List.mem_map.mp hp
        exact h.announced hready
    · rw [← h.submit_published q readOk, PublishesReady, hpublished, PublishesReady]
      simp only [List.mem_append, or_imp, forall_and, List.mem_map, Option.mem_toList,
        forall_exists_index, and_imp, forall_apply_eq_imp_iff₂]
  | bus a =>
    simp only [Boot.step] at ht
    split_ifs at ht
    rw [and_iff_left (hnoPost (by simp))]
    exact h.sysStep (by simp) ht

/-- **When nothing is published too early.** In every run from boot, every message was
published after `led_ready_chan` had announced that the strip is ready, and none at
all if `thread_led` has returned, if and only if no POST that decodes completely
came before that announcement. -/
theorem published_ready_iff {cfg : Config} {json : JsonObjParse} {es : List BootEvent}
    {s : Boot cfg} (hrun : Runs.exec (Boot.step cfg json) (Boot.initial cfg) es = some s) :
    (s.PublishesReady ∧ (s.thread = .returned → s.published = [])) ↔
      Runs.Along (Boot.step cfg json) (Boot.PostsReady json) (Boot.initial cfg) es := by
  have hstep : ∀ (x : Boot cfg) e t, x.Consistent → Boot.step cfg json x e = some t →
      t.Consistent ∧ (t.PublishesReady ↔ x.PublishesReady ∧ x.PostsReady json e) :=
    fun _ _ _ h ht => h.step ht
  have hready := Runs.exec_along_iff hstep (Boot.Consistent.initial cfg) hrun
  have hconsistent : s.Consistent :=
    Runs.exec_preserves (fun x e t h ht => (hstep x e t h ht).1) (Boot.Consistent.initial cfg) hrun
  have hinitial : (Boot.initial cfg).PublishesReady := by simp [Boot.PublishesReady, Boot.initial]
  rw [and_iff_left_of_imp hconsistent.published_eq_nil, hready, and_iff_right hinitial]

/-- The strip is ready, both servers start, and one pixel is set by a POST. -/
def readyBoot : List BootEvent := [.threadLed true true, .mcpServer true, .request pixelPost true]

/-- The message of the POST is published after the strip was announced ready. -/
theorem published_ready_readyBoot :
    ∃ s, Runs.exec (Boot.step .default decodesTwo) (Boot.initial .default) readyBoot = some s ∧
      s.published = [(pixelMsg, ⟨true, 0⟩)] ∧ s.PublishesReady := by
  have hposts : Runs.Along (Boot.step .default decodesTwo) (Boot.PostsReady decodesTwo)
      (.initial .default) readyBoot := by
    refine (Runs.along_cons_iff rfl).mpr ⟨by rintro _ _ ⟨⟩, ?_⟩
    refine (Runs.along_cons_iff rfl).mpr ⟨by rintro _ _ ⟨⟩, ?_⟩
    exact (Runs.along_cons_iff rfl).mpr ⟨fun _ _ _ _ => rfl, trivial⟩
  exact ⟨_, rfl, rfl, ((published_ready_iff rfl).mpr hposts).1⟩

/-- The strip is not ready, and `thread_led` returns; a POST is published all the
same. -/
theorem published_deadBoot :
    (Runs.exec (Boot.step .default decodesTwo) (Boot.initial .default)
        [.threadLed false true, .mcpServer true, .request pixelPost true]).map
      (fun s => (s.thread, s.readyChan, s.published)) =
        some (.returned, ⟨false, negEnodev⟩, [(pixelMsg, ⟨false, negEnodev⟩)]) := rfl

end LedMatrix
