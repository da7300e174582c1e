import LedMatrix.ThreadHistory

/-!
# What the strip shows

`led_set` hands the whole buffer to the driver, logs an error of the driver and goes on.
So the strip shows the last buffer that the driver has taken. An update that fails is made
good by the next one that does not, since every refresh hands over the whole buffer. As
before, this is said of runs in which `led_set` stays in its buffer.
-/

namespace LedMatrix

variable {cfg : Config}

/-- What the strip shows after some calls of `led_set`, of which `led_strip_update_rgb` has
returned `updateRc k` in the one with the number `k`. -/
def shownFrame (updateRc : ℕ → ℤ) (calls : List (LedSetCall cfg)) : Option (Pixels cfg) :=
  (calls.zipIdx.filter fun call => updateRc call.2 = 0).getLast?.map fun call => call.1.frame

/-- One more call of `led_set` changes what the strip shows if its update succeeds. -/
theorem shownFrame_concat (updateRc : ℕ → ℤ) (calls : List (LedSetCall cfg))
    (call : LedSetCall cfg) :
    shownFrame updateRc (calls ++ [call]) =
      if updateRc calls.length = 0 then some call.frame else shownFrame updateRc calls := by
  unfold shownFrame
  rw [List.zipIdx_append, List.filter_append]
  by_cases hupdated : updateRc calls.length = 0
  · simp [hupdated]
  · simp [hupdated]

/-- The last buffer handed to the driver is the one that the thread has. -/
theorem Sys.frame_eq_of_getLast {json : JsonObjParse} {es : List SysEvent} {s : Sys cfg}
    (hrun : Runs.exec (Sys.step cfg json) (Sys.initial cfg) es = some s) :
    ∀ call ∈ s.bus.emitted.getLast?, call.frame = s.bus.consumer.pixels := by
  have halong : Runs.Along (Sys.step cfg json) (fun _ _ => True) (Sys.initial cfg) es :=
    Runs.along_of_labels fun _ _ => trivial
  obtain ⟨ls, hls, -⟩ := Sys.exec_bus (H := fun _ _ => True) (fun _ _ _ _ _ => trivial) halong hrun
  refine OneSlot.exec_getLast_emitted (c := threadLed cfg)
    (R := fun x call => call.frame = x.pixels) ?_ hls
  intro x i calls hcalls
  have hdraw : ∀ (r : ThreadState cfg × List (LedSetCall cfg)) (y : ThreadState cfg)
      (color : LedRgb), r = y.draw color →
        ∀ call ∈ (calls ++ r.2).getLast?, call.frame = r.1.pixels := by
    rintro r y color rfl call hcall
    have hlast : (calls ++ (y.draw color).2).getLast? = (y.draw color).2.getLast? :=
      List.getLast?_append_of_ne_nil _ (List.cons_ne_nil _ _)
    rw [hlast] at hcall
    obtain rfl := Option.some.inj hcall
    rfl
  cases i with
  | none =>
    rcases x.onTimeout_cases with ⟨-, h⟩ | ⟨-, h⟩ | ⟨-, h⟩
    · exact hdraw _ _ _ h
    · exact hdraw _ _ _ h
    · exact hdraw _ _ _ h
  | some msg =>
    rcases x.onMessage_cases msg with ⟨h, -⟩ | ⟨h, -⟩ | ⟨color, -, h⟩
    · -- The rainbow starts, and nothing is drawn yet.
      have hsame : (threadLed cfg).consume x (some msg) =
          ({ x with index := msg.index, mode := .rainbow }, []) := h
      rw [hsame, List.append_nil]
      exact hcalls
    · exact hdraw _ _ _ h
    · exact hdraw _ _ _ h

/-- After an update that succeeds, the strip shows what the thread has, whatever has become
of the updates before. -/
theorem Sys.shownFrame_eq {json : JsonObjParse} {es : List SysEvent} {s : Sys cfg}
    (hrun : Runs.exec (Sys.step cfg json) (Sys.initial cfg) es = some s) {updateRc : ℕ → ℤ} {k : ℕ}
    (hlast : s.bus.emitted.length = k + 1) (hupdated : updateRc k = 0) :
    shownFrame updateRc s.bus.emitted = some s.bus.consumer.pixels := by
  have hframe := Sys.frame_eq_of_getLast hrun
  cases hcalls : s.bus.emitted using List.reverseRecOn with
  | nil =>
    rw [hcalls] at hlast
    cases hlast
  | append_singleton calls call =>
    rw [hcalls, List.length_append] at hlast
    obtain rfl : calls.length = k := Nat.succ.inj hlast
    rw [shownFrame_concat, if_pos hupdated, ← hframe call (by simp [hcalls])]

/-- **Failed updates are made good.** In every run of the system, with any results of the
driver, let the last of the handled messages that address a pixel hold a colour, and let
the last update of the strip succeed. Then the pixel has this colour on the strip. This is
said of runs in which `led_set` stores in its buffer only. -/
theorem strip_shows_last_message {json : JsonObjParse} {es : List SysEvent} {s : Sys cfg}
    (hrun : Runs.exec (Sys.step cfg json) (Sys.initial cfg) es = some s) {before : List LedMsg}
    {msg : LedMsg} {after : List LedMsg}
    (hhandled : s.bus.handled.map Prod.snd = before ++ msg :: after) {color : LedRgb}
    (hcolor : msg.heldColor cfg = some color) {p : ℕ} (haddressed : Addresses cfg msg.index p)
    (hmiss : ∀ m ∈ after, ¬ Addresses cfg m.index p) (hp : p < cfg.stripNumPixels)
    {updateRc : ℕ → ℤ} {k : ℕ} (hlast : s.bus.emitted.length = k + 1) (hupdated : updateRc k = 0) :
    (shownFrame updateRc s.bus.emitted).map (fun frame => frame[p]) = some color := by
  have hkeeps := Sys.exec_keeps hrun hhandled hcolor haddressed hmiss
  rw [Sys.shownFrame_eq hrun hlast hupdated, Option.map_some, hkeeps.pixel_eq hp]

/-- The update with the message for pixel 3 fails, and the refresh after the one for
pixel 4 succeeds: pixel 3 has its colour. -/
theorem strip_shows_last_message_pixelsRun :
    ∃ s, Runs.exec (Sys.step .default decodesPixels) (Sys.initial .default) pixelsRun = some s ∧
      ∃ hp : 3 < Config.default.stripNumPixels,
        (shownFrame (fun k => if k = 0 then -5 else 0) s.bus.emitted).map
          (fun frame => frame[3]) = some ⟨10, 0, 0⟩ := by
  obtain ⟨s, hs⟩ : ∃ s, Runs.exec (Sys.step .default decodesPixels) (Sys.initial .default)
      pixelsRun = some s := ⟨_, rfl⟩
  have hhandled : s.bus.handled.map Prod.snd =
      [] ++ pixelMsg :: [⟨.custom, 0, 0, 0, 4, true⟩] := by
    obtain rfl := Option.some.inj hs
    rfl
  have hlast : s.bus.emitted.length = 1 + 1 := by
    obtain rfl := Option.some.inj hs
    rfl
  exact ⟨s, hs, by decide, strip_shows_last_message hs hhandled rfl (.inr rfl) (by decide) _ hlast
    rfl⟩

end LedMatrix
