import LedMatrix.Firmware
import LedMatrix.Settling
import LedMatrix.ThreadHistory
import LedMatrix.UiBody
import LedMatrix.WebUiSync

/-!
# From the page to the strip

The page sends its updates as requests, the HTTP server delivers each of them in
callbacks, `led_handler` hands the bodies over, each becomes a message on `led_chan`, and
`thread_led` draws it. When the thread keeps up with the requests, and none of its reads
falls between a notification and its unlock, the strip shows what the page shows, with the
limit on white light.
-/

namespace LedMatrix

variable {cfg : Config} {json : JsonObjParse}

/-! ## Calm runs -/

/-- The event is no MCP request, a POST finds nothing under way, and no read falls between
the notification of a publish and its unlock. -/
def Sys.Calm (s : Sys cfg) : SysEvent → Prop
  | .request (.post _) _ => s.bus.AtRest
  | .request (.call _ _ _) _ => False
  | .bus a => OneSlot.AtomicRead s.bus (.act a)

/-- The event is no MCP request, a callback that hands a body over finds nothing under way,
and no read falls between the notification of a publish and its unlock. -/
def Firmware.Calm (s : Firmware cfg) : FirmwareEvent → Prop
  | .http c => (ledHandler s.handler c).2.parsed.isSome = true → s.sys.bus.AtRest
  | .mcp _ _ _ _ => False
  | .bus a => OneSlot.AtomicRead s.sys.bus (.act a)

instance (s : Firmware cfg) (e : FirmwareEvent) : Decidable (s.Calm e) :=
  match e with
  | .http _ => inferInstanceAs (Decidable (_ → _))
  | .mcp _ _ _ _ => isFalse id
  | .bus a => inferInstanceAs (Decidable (OneSlot.AtomicRead s.sys.bus (.act a)))

/-- What a calm event of the firmware stands for is calm. -/
theorem Firmware.Calm.sysEvents {s : Firmware cfg} {p : Body} (h : Represents s.handler p)
    {e : FirmwareEvent} (hcalm : s.Calm e) :
    Runs.Along (Sys.step cfg json) Sys.Calm s.sys (e.sysEvents p) := by
  cases e with
  | http c =>
    obtain ⟨-, hresult⟩ := h.step c
    simp only [Firmware.Calm, hresult] at hcalm
    simp only [FirmwareEvent.sysEvents]
    cases hparsed : (p.step c).2.parsed with
    | none => trivial
    | some body => exact ⟨hcalm (by rw [hparsed]; rfl), fun _ _ => trivial⟩
  | mcp event arguments token ready => exact hcalm.elim
  | bus a => exact ⟨hcalm, fun _ _ => trivial⟩

/-- A calm publish starts while nothing is under way. -/
theorem Sys.Calm.pacedAt {s : Sys cfg} {e : SysEvent} (h : s.Calm e) :
    Sys.PacedAt cfg json s e := by
  intro l hl
  cases e with
  | request q ready =>
    cases q with
    | post body =>
      obtain ⟨msg, -, rfl⟩ := List.mem_map.mp hl
      exact h
    | call event arguments token => exact h.elim
  | bus a =>
    obtain rfl := List.mem_singleton.mp hl
    trivial

/-- A calm read falls between no notification and its unlock. -/
theorem Sys.Calm.atomicRead {s : Sys cfg} {e : SysEvent} (h : s.Calm e) :
    Sys.AtomicRead cfg json s e := by
  intro l hl
  cases e with
  | request q ready =>
    obtain ⟨msg, -, rfl⟩ := List.mem_map.mp hl
    trivial
  | bus a =>
    obtain rfl := List.mem_singleton.mp hl
    exact h

/-- The message that a POST publishes. -/
def SysEvent.posted (cfg : Config) (json : JsonObjParse) (e : SysEvent) : List LedMsg :=
  e.postBody.toList.filterMap (parseLedPost cfg json)

/-- A calm event copies what it posts, and nothing else. -/
theorem Sys.Calm.copied_eq {s t : Sys cfg} {e : SysEvent} (h : s.Calm e)
    (ht : Sys.step cfg json s e = some t) :
    t.bus.copied = s.bus.copied ++ e.posted cfg json := by
  cases e with
  | request q ready =>
    cases q with
    | post body =>
      have hfree : s.bus.lock = .free := OneSlot.State.AtRest.lock_eq h
      obtain rfl := Option.some.inj ht
      simp only [Request.submit, SysEvent.posted, SysEvent.postBody, Option.toList_some,
        List.filterMap_cons, List.filterMap_nil]
      cases parseLedPost cfg json body with
      | none => exact (List.append_nil _).symm
      | some msg => simp [Sys.publish, hfree, OneSlot.State.copy]
    | call event arguments token => exact h.elim
  | bus a => exact (Sys.internal_pending (e := .bus a) trivial ht).2.trans (List.append_nil _).symm

/-- A calm run copies the messages of its POSTs, in their order. -/
theorem Sys.exec_calm_copied {s t : Sys cfg} {es : List SysEvent}
    (hcalm : Runs.Along (Sys.step cfg json) Sys.Calm s es)
    (hrun : Runs.exec (Sys.step cfg json) s es = some t) :
    t.bus.copied =
      s.bus.copied ++ (es.filterMap SysEvent.postBody).filterMap (parseLedPost cfg json) := by
  induction es generalizing s with
  | nil =>
    obtain rfl := Option.some.inj hrun
    exact (List.append_nil _).symm
  | cons e es ih =>
    obtain ⟨u, hu, hrun⟩ := Runs.exec_cons_eq_some.mp hrun
    rw [ih (hcalm.2 u hu) hrun, hcalm.1.copied_eq hu, List.append_assoc]
    cases hbody : e.postBody with
    | none => simp [SysEvent.posted, hbody]
    | some body => cases hmsg : parseLedPost cfg json body <;> simp [SysEvent.posted, hbody, hmsg]

/-- **Calm runs deliver.** When nothing is under way at the end of a calm run, the thread
has handled the messages of all POSTs, each once and in order. -/
theorem Sys.exec_calm_handled {s : Sys cfg} {es : List SysEvent}
    (hcalm : Runs.Along (Sys.step cfg json) Sys.Calm (Sys.initial cfg) es)
    (hrun : Runs.exec (Sys.step cfg json) (Sys.initial cfg) es = some s)
    (hrest : s.bus.AtRest) :
    s.bus.handled.map Prod.snd =
      (es.filterMap SysEvent.postBody).filterMap (parseLedPost cfg json) := by
  have hpaced : Runs.Along (Sys.step cfg json) (Sys.PacedAt cfg json) (Sys.initial cfg) es :=
    Runs.along_mono (fun _ _ h => h.pacedAt) hcalm
  have hatomic : Runs.Along (Sys.step cfg json) (Sys.AtomicRead cfg json) (Sys.initial cfg) es :=
    Runs.along_mono (fun _ _ h => h.atomicRead) hcalm
  obtain ⟨-, -, hend⟩ := Sys.exec_paced hpaced hrun
  obtain ⟨hcopied, -, -, hall⟩ := hend hrest
  rw [hall hatomic, hcopied]
  exact Sys.exec_calm_copied hcalm hrun

/-! ## Updates of the page -/

/-- The limit on white light: when all three channels exceed
`CONFIG_WHITE_LED_BRIGHTNESS`, they are set to it. -/
def Config.limitedColor (cfg : Config) (c : LedRgb) : LedRgb :=
  if cfg.whiteLedBrightness < c.r.toNat ∧ cfg.whiteLedBrightness < c.g.toNat ∧
      cfg.whiteLedBrightness < c.b.toNat then
    ⟨UInt8.ofNat cfg.whiteLedBrightness, UInt8.ofNat cfg.whiteLedBrightness,
      UInt8.ofNat cfg.whiteLedBrightness⟩
  else c

/-- The last request for a pixel addresses it, and none of those after it does. -/
theorem lastPost_eq_some {posts : List UiPost} {i : ℕ} {post : UiPost}
    (h : lastPost posts i = some post) :
    post.addresses i = true ∧ ∃ before after, posts = before ++ post :: after ∧
      ∀ q ∈ after, q.addresses i = false := by
  obtain ⟨haddresses, later, earlier, hreverse, hlater⟩ := List.find?_eq_some_iff_append.mp h
  refine ⟨haddresses, earlier.reverse, later.reverse, ?_, fun q hq => ?_⟩
  · rw [← List.reverse_reverse posts, hreverse]
    simp
  · simpa using hlater q (List.mem_reverse.mp hq)

/-- The message of an update addresses the pixels that the update addresses. -/
theorem UiPost.addresses_iff (hpixels : cfg.ledMatrixPixels = 256) {p : UiPost}
    (hindex : p.index ≤ 256) (i : ℕ) :
    Addresses cfg (ledCommandMsg cfg p.ledCommand).index i ↔ p.addresses i = true := by
  have hpublished := p.published_ledCommandMsg hpixels hindex
  rw [Addresses, hpublished.index_eq, hpixels, or_comm]
  simp [UiPost.addresses, totalPixels]

/-- Unless it is one for the rainbow, it holds the colour of the update, as limited. -/
theorem UiPost.heldColor_eq (hpixels : cfg.ledMatrixPixels = 256) {p : UiPost}
    (hindex : p.index ≤ 256) (hrainbow : p.rainbow = false) :
    (ledCommandMsg cfg p.ledCommand).heldColor cfg = some (cfg.limitedColor p.color) := by
  have hpublished := p.published_ledCommandMsg hpixels hindex
  have hflag := hpublished.rainbow_eq.trans hrainbow
  have hcolor := hpublished.color_eq
  simp only [LedMsg.heldColor, LedMsg.solidColor, hpublished.action_eq, hflag]
  simpa [Config.limitedColor] using hcolor

/-- The firmware has served these updates: it was calm, the callbacks of the HTTP server
belong to transactions one after another, whose complete bodies are the updates in their
order, and nothing is under way any more. -/
structure Firmware.HasServed (json : JsonObjParse) (posts : List UiPost) (xs : List Transaction)
    (es : List FirmwareEvent) (f : Firmware cfg) : Prop where
  exec_eq : Runs.exec (Firmware.step cfg json) (.initial cfg) es = some f
  calm : Runs.Along (Firmware.step cfg json) Firmware.Calm (.initial cfg) es
  callbacks_eq : es.filterMap FirmwareEvent.callback = xs.flatMap Transaction.callbacks
  bodies_eq : xs.flatMap Transaction.expectedBodies = posts.map UiPost.stringify
  at_rest : f.sys.bus.AtRest
  /-- `json_obj_parse` decodes each of the bodies. -/
  decodes : ∀ p ∈ posts, json.Decodes p

/-- The updates are the messages that the thread has handled. -/
theorem Firmware.HasServed.handled_eq {posts : List UiPost} {xs : List Transaction}
    {es : List FirmwareEvent} {f : Firmware cfg} (h : f.HasServed json posts xs es) :
    ∃ es', Runs.exec (Sys.step cfg json) (Sys.initial cfg) es' = some f.sys ∧
      f.sys.bus.handled.map Prod.snd = posts.map fun p => ledCommandMsg cfg p.ledCommand := by
  have hinitial : Represents (Firmware.initial cfg).handler .empty := Represents.initial
  have hsys : (some f).map Firmware.sys =
      Runs.exec (Sys.step cfg json) (Sys.initial cfg) (sysEvents .empty es) := by
    rw [← h.exec_eq]
    exact (Runs.exec_translate (R := fun (s : Firmware cfg) p => Represents s.handler p)
      (fun _ _ e hs => Firmware.step_sys hs e) hinitial es).1
  have hcalm : Runs.Along (Sys.step cfg json) Sys.Calm (Sys.initial cfg) (sysEvents .empty es) :=
    Runs.along_translate (R := fun (s : Firmware cfg) p => Represents s.handler p)
      (fun _ _ e hs => Firmware.step_sys hs e)
      (fun _ _ _ hs he => Firmware.Calm.sysEvents hs he) hinitial h.calm
  refine ⟨sysEvents .empty es, hsys.symm, ?_⟩
  have hposts : (sysEvents .empty es).filterMap SysEvent.postBody =
      posts.map UiPost.stringify := by
    rw [postBodies_sysEvents, h.callbacks_eq, parsed_callbacks, h.bodies_eq]
  have hdecoded : ∀ p ∈ posts, parseLedPost cfg json p.stringify =
      some (ledCommandMsg cfg p.ledCommand) := by
    intro p hp
    have hdecodes := (h.decodes p hp).stringify
    exact parseLedPost_eq_some.mpr ⟨by rw [hdecodes]; rfl, by rw [hdecodes]⟩
  rw [Sys.exec_calm_handled hcalm hsys.symm h.at_rest, hposts, List.filterMap_map]
  exact List.filterMap_eq_map_iff_forall_eq_some.mpr hdecoded

/-- **The strip shows the updates.** For each pixel, the strip shows the colour of the
last update that addresses it, as limited, unless that one is for the rainbow. -/
theorem Firmware.HasServed.keeps (hpixels : cfg.ledMatrixPixels = 256) {posts : List UiPost}
    {xs : List Transaction} {es : List FirmwareEvent} {f : Firmware cfg}
    (h : f.HasServed json posts xs es) (hindex : ∀ p ∈ posts, p.index ≤ 256) {i : ℕ}
    {post : UiPost} (hlast : lastPost posts i = some post) (hrainbow : post.rainbow = false) :
    f.sys.bus.consumer.Keeps i (cfg.limitedColor post.color) := by
  obtain ⟨haddresses, before, after, rfl, hafter⟩ := lastPost_eq_some hlast
  obtain ⟨es', hrun, hhandled⟩ := h.handled_eq
  rw [List.map_append, List.map_cons] at hhandled
  have hpost := hindex post (by simp)
  refine Sys.exec_keeps hrun hhandled (post.heldColor_eq hpixels hpost hrainbow)
    ((post.addresses_iff hpixels hpost i).mpr haddresses) ?_
  intro m hm
  obtain ⟨q, hq, rfl⟩ := List.mem_map.mp hm
  rw [q.addresses_iff hpixels (hindex q (by simp [hq])) i, hafter q hq]
  exact Bool.false_ne_true

/-! ## The session -/

/-- Every update sent is for a pixel. -/
def Ui.PostsPixels (u : Ui) : Prop := ∀ p ∈ u.posts, p.index < totalPixels

/-- Sending the selected pixel keeps it so that every update sent is for a pixel. -/
theorem Ui.PostsPixels.sent {u : Ui} (h : u.PostsPixels) (hselected : u.selectedIndex < totalPixels)
    (now : ℤ) (c : LedRgb) : (u.sent now c).PostsPixels := by
  intro p hp
  simp only [Ui.sent] at hp
  split at hp
  · exact h p hp
  · rcases List.mem_append.mp hp with hp | hp
    · exact h p hp
    · obtain rfl := List.mem_singleton.mp hp
      exact hselected

/-- Debouncing the selected pixel keeps it so that every update sent is for a pixel. -/
theorem Ui.PostsPixels.debounced {u : Ui} (h : u.PostsPixels)
    (hselected : u.selectedIndex < totalPixels) (now : ℤ) (c : LedRgb) :
    (u.debounced now c).PostsPixels := by
  unfold Ui.debounced
  split
  · exact Ui.PostsPixels.sent (u := { u with updatePending := false }) h hselected now c
  · exact h

/-- Every handler that has an effect keeps it so that every update sent is for a pixel. -/
theorem Effect.postsPixels {u v : Ui} {e : UiEvent} {now : ℤ} (hu : Loaded u)
    (hposts : u.PostsPixels) (h : Effect u e now v) : v.PostsPixels := by
  have hedited : ∀ {w : Ui} {i : ℕ}, Edited u w i →
      w.PostsPixels ∧ w.selectedIndex < totalPixels := by
    intro w i hw
    refine ⟨fun p hp => hposts p (hw.posts_eq ▸ hp), ?_⟩
    rw [hw.selected_eq]
    exact hu.selected_lt
  cases h with
  | quiet _ _ hsame => exact fun p hp => hposts p (hsame ▸ hp)
  | select _ _ _ _ hsame => exact fun p hp => hposts p (hsame ▸ hp)
  | send hw _ => exact (hedited hw).1.sent (hedited hw).2 _ _
  | debounce hw _ => exact (hedited hw).1.debounced (hedited hw).2 _ _
  | paint _ _ _ _ hw _ _ => exact (hedited hw).1.debounced (hedited hw).2 _ _

/-- In a session that leaves nothing behind, every update is for a pixel. -/
theorem Session.exec_synced {es : List (UiEvent × ℤ)} {s : Session}
    (hleaves : Runs.Along Session.step Session.LeavesNothing (Session.initial false) es)
    (hrun : Runs.exec Session.step (Session.initial false) es = some s) :
    Synced s ∧ s.ui.PostsPixels := by
  refine Runs.exec_invariant (I := fun s => Synced s ∧ s.ui.PostsPixels) ?_ hleaves
    ⟨Synced.initial, fun p hp => by cases hp⟩ hrun
  rintro s e t he ⟨hs, hposts⟩ ht
  refine ⟨hs.step he ht, ?_⟩
  have hfill : ¬ e.1.IsFill := by
    rintro (hfill | hfill)
    · simp [Session.LeavesNothing, hfill] at he
    · simp [Session.LeavesNothing, hfill] at he
  obtain ⟨v, heffect, rfl⟩ := Session.step_effect hs.loaded hfill ht
  exact heffect.postsPixels hs.loaded hposts

/-- **From the page to the strip.** Take a session on the connected page that leaves no
edit behind and ends with no timer set, and a run of the firmware that has served its
updates, cut into callbacks in any way: for every pixel whose entry on the page has
changed, unless the last update for it was one for the rainbow, the strip shows the colour
that the page shows, with the limit on white light, and goes on showing it. -/
theorem page_shown_on_strip (hpixels : cfg.ledMatrixPixels = 256) {ues : List (UiEvent × ℤ)}
    {s : Session}
    (hleaves : Runs.Along Session.step Session.LeavesNothing (Session.initial false) ues)
    (hsession : Runs.exec Session.step (Session.initial false) ues = some s)
    (hsent : s.ui.updatePending = false) {xs : List Transaction} {fes : List FirmwareEvent}
    {f : Firmware cfg} (hserved : f.HasServed json s.ui.posts xs fes) {i : ℕ}
    (hi : i < totalPixels) (hchanged : s.changed i = true)
    (hrainbow : ∀ post, lastPost s.ui.posts i = some post → post.rainbow = false) :
    ∃ c, s.ui.matrix i = some c ∧ ∀ n, ∀ hp : i < cfg.stripNumPixels,
      ((fun z : ThreadState cfg => z.onTimeout.1)^[n] f.sys.bus.consumer).pixels[i] =
        cfg.limitedColor c := by
  obtain ⟨hsynced, hposts⟩ := Session.exec_synced hleaves hsession
  rcases hsynced.in_step i hi hchanged with ⟨post, hlast, hmatrix⟩ | ⟨-, hset⟩
  · have hkeeps := hserved.keeps hpixels (fun p hp => (hposts p hp).le) hlast
      (hrainbow post hlast)
    exact ⟨post.color, hmatrix, fun n hp => (hkeeps.onTimeouts n).pixel_eq hp⟩
  · exact absurd (hsent.symm.trans hset) (by decide)

/-- The update of pixel 0 to a dim red. -/
def sliderUpdate : UiPost := ⟨⟨9, 0, 0⟩, 0, false⟩

/-- The update of pixel 0 is delivered in two pieces. -/
def sliderTransaction : Transaction where
  method := .post
  chunks := [sliderUpdate.stringify.take 20]
  last := some (sliderUpdate.stringify.drop 20)
  closing := .complete
  closesFailed := false
  last_of_complete := fun _ => rfl

/-- The callbacks for it, and what follows from the last of its data. -/
def servedRun : List FirmwareEvent :=
  [.http ⟨.post, .more, sliderUpdate.stringify.take 20⟩, .bus .idle,
    .http ⟨.post, .final, sliderUpdate.stringify.drop 20⟩, .bus .put, .bus .unlock,
    .http ⟨.post, .complete, []⟩, .bus .wait, .bus .read]

/-- The run serves the update. -/
theorem servedRun_hasServed :
    ∃ f : Firmware .default,
      f.HasServed (decodesUpdate sliderUpdate) [sliderUpdate] [sliderTransaction] servedRun := by
  have hend : (Runs.exec (Firmware.step .default (decodesUpdate sliderUpdate)) (.initial .default)
      servedRun).any (fun f => f.sys.bus.AtRest) = true := by decide +kernel
  obtain ⟨f, hf, hrest⟩ := (Option.any_eq_true ..).mp hend
  have hcalm : Runs.Along (Firmware.step .default (decodesUpdate sliderUpdate)) Firmware.Calm
      (.initial .default) servedRun := by decide +kernel
  exact ⟨f, hf, hcalm, by decide, by decide, of_decide_eq_true hrest,
    by simp [decodesUpdate_decodes]⟩

/-- A slider is moved on the page, and pixel 0 of the strip shows it. -/
theorem page_shown_on_strip_servedRun :
    ∃ s, Runs.exec Session.step (Session.initial false) [(.slider .r 9, 1000)] = some s ∧
      ∃ f : Firmware .default,
        f.HasServed (decodesUpdate sliderUpdate) s.ui.posts [sliderTransaction] servedRun ∧
        ∃ c, s.ui.matrix 0 = some c ∧ ∀ n, ∀ hp : 0 < Config.default.stripNumPixels,
          ((fun z : ThreadState .default => z.onTimeout.1)^[n] f.sys.bus.consumer).pixels[0] =
            Config.default.limitedColor c := by
  obtain ⟨f, hserved⟩ := servedRun_hasServed
  obtain ⟨s, hs⟩ : ∃ s, Runs.exec Session.step (Session.initial false) [(.slider .r 9, 1000)] =
      some s := ⟨_, rfl⟩
  have hposts : s.ui.posts = [sliderUpdate] ∧ s.ui.updatePending = false ∧ s.changed 0 = true := by
    obtain rfl := Option.some.inj hs
    decide
  obtain ⟨hposts, hsent, hchanged⟩ := hposts
  rw [← hposts] at hserved
  have hleaves : Runs.Along Session.step Session.LeavesNothing (Session.initial false)
      [(.slider .r 9, 1000)] := ⟨trivial, fun _ _ => trivial⟩
  refine ⟨s, hs, f, hserved, page_shown_on_strip rfl hleaves hs hsent hserved (by decide) hchanged
    fun post hpost => ?_⟩
  rw [hposts] at hpost
  obtain rfl : sliderUpdate = post := Option.some.inj hpost
  rfl

end LedMatrix
