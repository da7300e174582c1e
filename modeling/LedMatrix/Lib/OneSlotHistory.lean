import LedMatrix.Lib.Mealy
import LedMatrix.Lib.OneSlot
import Mathlib.Data.List.ReduceOption

/-!
# The history of a one-slot channel's consumer

Whatever the publishers do, the consumer has been through a list of messages and
timeouts: its state and its outputs are those of that list, and the messages in the list
are the ones in the log of what was handled.
-/

namespace OneSlot

open Mealy

variable {M S O : Type*} {cap : ℕ} {c : Consumer M S O}

/-- The consumer as a machine: `none` stands for a timeout. -/
def Consumer.consume (c : Consumer M S O) (x : S) : Option M → S × List O
  | some m => c.onMessage x m
  | none => c.onIdle x

/-- The channel's consumer has been through the list. -/
structure Consumed (c : Consumer M S O) (x : S) (is : List (Option M)) (s : State M S O) :
    Prop where
  /-- Its state is the one that the list leads to. -/
  consumer_eq : s.consumer = final c.consume x is
  /-- The messages of the list are those handled. -/
  handled_eq : s.handled.map Prod.snd = is.reduceOption
  /-- What was emitted is what the list emits. -/
  emitted_eq : s.emitted = (outputs c.consume x is).flatten

/-- The consumer has consumed one more message or timeout. -/
theorem Consumed.concat {x : S} {is : List (Option M)} {s t : State M S O}
    (h : Consumed c x is s) (i : Option M) (hconsumer : t.consumer = (c.consume s.consumer i).1)
    (hhandled : t.handled.map Prod.snd = s.handled.map Prod.snd ++ i.toList)
    (hemitted : t.emitted = s.emitted ++ (c.consume s.consumer i).2) :
    Consumed c x (is ++ [i]) t := by
  refine ⟨?_, ?_, ?_⟩
  · rw [final_concat, ← h.consumer_eq]
    exact hconsumer
  · rw [hhandled, h.handled_eq, List.reduceOption_append]
    cases i <;> rfl
  · have hlast : outputs c.consume x (is ++ [i]) =
        outputs c.consume x is ++ [(c.consume (final c.consume x is) i).2] := by
      simp [outputs, run_append]
    rw [hlast, List.flatten_append, List.flatten_singleton, ← h.consumer_eq, ← h.emitted_eq]
    exact hemitted

/-- Every step extends the list by what it has the consumer do. -/
theorem Consumed.step {x : S} {is : List (Option M)} {s t : State M S O} {e : Event M}
    (h : Consumed c x is s) (hstep : Step cap c s e t) : ∃ is', Consumed c x is' t := by
  cases hstep with
  | copy _ | giveUp _ | enqueue _ _ | overflow _ _ | accept _ | reject _ | wake _ _ | refuse _ _ =>
    exact ⟨is, h.consumer_eq, h.handled_eq, h.emitted_eq⟩
  | handle _ _ => exact ⟨_, h.concat (some s.current) rfl (List.map_append ..) rfl⟩
  | rest _ _ => exact ⟨_, h.concat none rfl (List.append_nil _).symm rfl⟩

/-- **The consumer's history** after every run. -/
theorem exec_consumed {m : M} {x : S} {es : List (Event M)} {t : State M S O}
    (hrun : Runs.exec (step cap c) (State.initial m x) es = some t) :
    ∃ is, Consumed c x is t := by
  refine Runs.exec_preserves (I := fun s : State M S O => ∃ is, Consumed c x is s) ?_
    ⟨[], rfl, rfl, rfl⟩ hrun
  rintro s e u ⟨is, hs⟩ hu
  exact hs.step (.of_step hu)

/-- What the consumer has emitted last fits its state, if every message and every timeout
keeps this, whatever was emitted before. -/
theorem exec_getLast_emitted {R : S → O → Prop}
    (hconsume : ∀ x i os, (∀ o ∈ os.getLast?, R x o) →
      ∀ o ∈ (os ++ (c.consume x i).2).getLast?, R (c.consume x i).1 o)
    {m : M} {x : S} {es : List (Event M)} {t : State M S O}
    (hrun : Runs.exec (step cap c) (State.initial m x) es = some t) :
    ∀ o ∈ t.emitted.getLast?, R t.consumer o := by
  refine Runs.exec_preserves (I := fun s : State M S O => ∀ o ∈ s.emitted.getLast?, R s.consumer o)
    ?_ (by simp [State.initial]) hrun
  intro s e u hs hu
  cases Step.of_step hu with
  | copy _ | giveUp _ | enqueue _ _ | overflow _ _ | accept _ | reject _ | wake _ _ | refuse _ _ =>
    exact hs
  | handle _ _ => exact hconsume s.consumer (some s.current) s.emitted hs
  | rest _ _ => exact hconsume s.consumer none s.emitted hs

end OneSlot
