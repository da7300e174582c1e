import LedMatrix.ParseLedPost
import LedMatrix.Transactions

/-!
# What the client learns of its POST

`led_handler` calls `parse_led_post`, which has no result, and never touches
`response_ctx`. So once the data of a POST fits in the buffer the client is told
that all went well, whether or not a message was published.
-/

namespace LedMatrix

open Reassembly Mealy

/-- The effects of one call of `led_handler`, with those of `parse_led_post`. -/
structure HandlerEffect where
  ret : Int
  /-- The status that the call puts in `response_ctx`, if it does. -/
  status : Option ℕ
  /-- The messages published on `led_chan`, each with the result of the publish. -/
  published : List (LedMsg × Int)
  deriving DecidableEq, Repr

/-- The effects of a call; `pub` is `zbus_chan_pub` on `led_chan`. -/
def HandlerResult.effect (cfg : Config) (json : JsonObjParse) (pub : LedMsg → Int)
    (r : HandlerResult) : HandlerEffect where
  ret := r.ret
  status := none
  published :=
    match r.parsed.bind (parseLedPost cfg json) with
    | some msg => [(msg, pub msg)]
    | none => []

/-- The handler as it is left by the transactions served before. -/
def servedState (xs : List Transaction) : HandlerState :=
  xs.foldl (fun s x => lastState s (x.serve s)) .initial

/-- The handler is left with an empty buffer by the transactions served before. -/
theorem servedState_empty (xs : List Transaction) : Represents (servedState xs) .empty := by
  have hrun : ∀ s : HandlerState, s.cursor = 0 →
      (xs.foldl (fun s x => lastState s (x.serve s)) s).cursor = 0 := by
    induction xs with
    | nil => exact fun s hs => hs
    | cons x xs ih => exact fun s hs => ih _ (x.served hs).2
  have hcursor : (servedState xs).cursor = 0 := hrun _ rfl
  exact ⟨by rw [hcursor]; rfl, hcursor⟩

/-- The effects of the calls that deliver the data of a POST. -/
def postEffects (cfg : Config) (json : JsonObjParse) (pub : LedMsg → Int) (s : HandlerState)
    (chunks : List (List UInt8)) (last : List UInt8) : List HandlerEffect :=
  (runUntil ledHandler HandlerResult.failed s (dataCallbacks .post chunks (some last))).map
    fun o => o.2.effect cfg json pub

/-- The client is told that all went well: the last call has returned 0, and no
call has put a status in the response. -/
def Acknowledged (effects : List HandlerEffect) : Prop :=
  (effects.getLast?.map HandlerEffect.ret) = some 0 ∧ ∀ e ∈ effects, e.status = none

/-- Exactly one message is published, and the publish succeeds. -/
def TookEffect (effects : List HandlerEffect) : Prop :=
  ∃ msg, effects.flatMap HandlerEffect.published = [(msg, 0)]

/-- The messages published in the course of a POST are those of the parsed bodies. -/
theorem postEffects_published (cfg : Config) (json : JsonObjParse) (pub : LedMsg → Int)
    (s : HandlerState) (chunks : List (List UInt8)) (last : List UInt8) :
    (postEffects cfg json pub s chunks last).flatMap HandlerEffect.published =
      ((parsedBodies (runUntil ledHandler HandlerResult.failed s
          (dataCallbacks .post chunks (some last)))).filterMap (parseLedPost cfg json)).map
        fun msg => (msg, pub msg) := by
  unfold postEffects
  generalize runUntil ledHandler HandlerResult.failed s
    (dataCallbacks .post chunks (some last)) = steps
  induction steps with
  | nil => rfl
  | cons o steps ih =>
    rw [List.map_cons, List.flatMap_cons, ih, parsedBodies_cons]
    cases hparsed : o.2.parsed with
    | none => simp [HandlerResult.effect, hparsed]
    | some body =>
      cases hmsg : parseLedPost cfg json body <;> simp [HandlerResult.effect, hparsed, hmsg]

/-- No call puts a status in the response, so the last result alone decides what
the client is told. -/
theorem acknowledged_postEffects {cfg : Config} {json : JsonObjParse} {pub : LedMsg → Int}
    {s : HandlerState} {chunks : List (List UInt8)} {last : List UInt8} :
    Acknowledged (postEffects cfg json pub s chunks last) ↔
      ∃ o, (runUntil ledHandler HandlerResult.failed s
          (dataCallbacks .post chunks (some last))).getLast? = some o ∧ o.2.ret = 0 := by
  have hstatus : ∀ e ∈ postEffects cfg json pub s chunks last, e.status = none := by
    intro e he
    obtain ⟨o, -, rfl⟩ := List.mem_map.mp he
    rfl
  rw [Acknowledged, and_iff_left hstatus, postEffects, List.getLast?_map, Option.map_map,
    Option.map_eq_some_iff]
  rfl

/-- A POST that fits is accepted and acknowledged, and its body is parsed. -/
theorem postEffects_fits (cfg : Config) (json : JsonObjParse) (pub : LedMsg → Int)
    {s : HandlerState} (hs : Represents s .empty) {chunks : List (List UInt8)} {last : List UInt8}
    (hfits : (chunks.flatten ++ last).length ≤ postPayloadBufSize) :
    (∀ e ∈ postEffects cfg json pub s chunks last, e.ret = 0) ∧
      Acknowledged (postEffects cfg json pub s chunks last) ∧
      (postEffects cfg json pub s chunks last).flatMap HandlerEffect.published =
        ((parseLedPost cfg json (chunks.flatten ++ last)).toList).map fun msg => (msg, pub msg) := by
  obtain ⟨hrets, hparsed⟩ := post_data_fits hs chunks (some last) (by simpa using hfits)
  refine ⟨?_, ?_, ?_⟩
  · intro e he
    obtain ⟨o, ho, rfl⟩ := List.mem_map.mp he
    exact hrets o ho
  · rw [acknowledged_postEffects]
    rcases List.eq_nil_or_concat (runUntil ledHandler HandlerResult.failed s
      (dataCallbacks .post chunks (some last))) with hnil | ⟨steps, o, hsteps⟩
    · rw [hnil] at hparsed
      simp [parsedBodies] at hparsed
    · exact ⟨o, by simp [hsteps], hrets o (by simp [hsteps])⟩
  · rw [postEffects_published, hparsed]
    cases hmsg : parseLedPost cfg json (chunks.flatten ++ last) <;> simp [hmsg]

/-- A POST that does not fit is refused, and publishes nothing. -/
theorem postEffects_exceeds (cfg : Config) (json : JsonObjParse) (pub : LedMsg → Int)
    {s : HandlerState} (hs : Represents s .empty) {chunks : List (List UInt8)} {last : List UInt8}
    (hexceeds : postPayloadBufSize < (chunks.flatten ++ last).length) :
    ¬ Acknowledged (postEffects cfg json pub s chunks last) ∧
      (postEffects cfg json pub s chunks last).flatMap HandlerEffect.published = [] := by
  obtain ⟨hparsed, ⟨o, ho, hret⟩, -, -⟩ :=
    post_data_exceeds hs chunks (some last) (by simpa using hexceeds)
  constructor
  · rw [acknowledged_postEffects]
    rintro ⟨o', ho', hzero⟩
    have hlast := runUntil_getLast? ho (by rw [HandlerResult.failed, hret]; decide)
    obtain rfl := Option.some.inj (hlast.symm.trans ho')
    rw [hret] at hzero
    exact absurd hzero (by decide)
  · rw [postEffects_published, hparsed]
    rfl

/-- **When the acknowledgement is right.** For every POST and every way of cutting
its body into chunks, after any transactions before it: the client is told that
all went well if and only if the POST took effect, exactly when its body is too
large, or it decodes completely and its message is published with success. -/
theorem acknowledged_iff (cfg : Config) (json : JsonObjParse) (pub : LedMsg → Int)
    (xs : List Transaction) (chunks : List (List UInt8)) (last : List UInt8) :
    (Acknowledged (postEffects cfg json pub (servedState xs) chunks last) ↔
        TookEffect (postEffects cfg json pub (servedState xs) chunks last)) ↔
      postPayloadBufSize < (chunks.flatten ++ last).length ∨
        (json.ledCommand (chunks.flatten ++ last)).ret = expectedReturnCode ∧
          pub (ledCommandMsg cfg (json.ledCommand (chunks.flatten ++ last)).cmd) = 0 := by
  have hempty := servedState_empty xs
  by_cases hfits : (chunks.flatten ++ last).length ≤ postPayloadBufSize
  · obtain ⟨-, hack, hpublished⟩ := postEffects_fits cfg json pub hempty hfits
    have hsize : ¬ postPayloadBufSize < (chunks.flatten ++ last).length := by omega
    rw [iff_true_left hack, TookEffect, hpublished, or_iff_right hsize]
    by_cases hret : (json.ledCommand (chunks.flatten ++ last)).ret = expectedReturnCode
    · simp [parseLedPost, hret]
    · simp [parseLedPost, hret]
  · have hsize : postPayloadBufSize < (chunks.flatten ++ last).length := by omega
    obtain ⟨hack, hpublished⟩ := postEffects_exceeds cfg json pub hempty hsize
    rw [iff_false_left hack, TookEffect, hpublished]
    refine iff_of_true ?_ (.inl hsize)
    rintro ⟨msg, h⟩
    cases h

/-- A body that does not decode is acknowledged, and nothing is published. -/
theorem acknowledged_brokenBody :
    Acknowledged (postEffects .default (.knowing [] []) (fun _ => 0) (servedState []) [] [0x7b]) ∧
      ¬ TookEffect
        (postEffects .default (.knowing [] []) (fun _ => 0) (servedState []) [] [0x7b]) := by
  have heffects : postEffects .default (.knowing [] []) (fun _ => 0) (servedState []) [] [0x7b] =
      [⟨0, none, []⟩] := by decide
  rw [heffects]
  exact ⟨⟨rfl, by decide⟩, fun ⟨msg, h⟩ => by cases h⟩

end LedMatrix
