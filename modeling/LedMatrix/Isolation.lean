import LedMatrix.LedHandler
import Mathlib.Data.Fintype.Basic

/-!
# Transactions that overlap

The handler has one buffer for all transactions and is not told which of them a
callback belongs to. Overlapping transactions are therefore compared with
transactions that each have a handler of their own. They agree as long as no
callback that uses the buffer arrives while it holds bytes of another
transaction.
-/

namespace LedMatrix

open Reassembly Mealy

variable {ι : Type*} [DecidableEq ι]

/-- What a transaction sees of a callback: its return value, and the bytes that
were handed to `parse_led_post`. -/
structure Reply where
  ret : Int
  parsed : Option (List UInt8)
  deriving DecidableEq, Repr

/-- What a transaction sees of the result of a call. -/
def HandlerResult.reply (r : HandlerResult) : Reply := ⟨r.ret, r.parsed⟩

/-- `led_handler` as a transaction sees it. -/
def ledReply (s : HandlerState) (c : Callback) : HandlerState × Reply :=
  ((ledHandler s c).1, (ledHandler s c).2.reply)

/-- The callback uses the buffer: it ends a transaction, or it delivers data of
a POST that is not an empty chunk with more to follow. -/
def Callback.Touches (c : Callback) : Prop :=
  c.status = .aborted ∨ c.status = .complete ∨
    (c.method = .post ∧ (c.status = .final ∨ c.data ≠ []))

instance (c : Callback) : Decidable c.Touches := inferInstanceAs (Decidable (_ ∨ _ ∨ _))

/-- Whenever a callback uses the buffer, no other transaction has bytes of its
own that are still to be parsed. -/
def Exclusive (cs : List (ι × Callback)) : Prop :=
  ∀ n, (h : n < cs.length) → cs[n].2.Touches →
    ∀ i, i ≠ cs[n].1 → (final ledReply .initial (project i (cs.take n))).cursor = 0

instance [Fintype ι] (cs : List (ι × Callback)) : Decidable (Exclusive cs) :=
  inferInstanceAs (Decidable (∀ n, (h : n < cs.length) → cs[n].2.Touches →
    ∀ i, i ≠ cs[n].1 → (final ledReply .initial (project i (cs.take n))).cursor = 0))

/-- A callback that does not use the buffer is answered alike in every state,
and leaves the collected bytes alone. -/
theorem Body.step_of_not_touches {c : Callback} (h : ¬ c.Touches) (p : Body) :
    (p.step c).1 = p ∧ (p.step c).2.reply = ⟨0, none⟩ := by
  obtain ⟨method, status, data⟩ := c
  cases status with
  | aborted => exact absurd (.inl rfl) h
  | complete => exact absurd (.inr (.inl rfl)) h
  | final =>
    cases method with
    | get => exact ⟨rfl, rfl⟩
    | post => exact absurd (.inr (.inr ⟨rfl, .inl rfl⟩)) h
  | more =>
    cases method with
    | get => exact ⟨rfl, rfl⟩
    | post =>
      have hdata : data = [] := by
        by_contra hne
        exact h (.inr (.inr ⟨rfl, .inr hne⟩))
      subst hdata
      simp [Body.step, Body.collect, Collected.push_nil, HandlerResult.reply]

/-- At most one transaction has bytes of its own to be parsed, and the shared
buffer holds exactly these. -/
def Owned (p : Body) (ps : ι → Body) : Prop :=
  (p = .empty ∧ ∀ i, ps i = .empty) ∨ ∃ o, ps o = p ∧ ∀ i, i ≠ o → ps i = .empty

/-- When no other transaction has bytes to be parsed, the shared buffer holds
those of this one. -/
theorem Owned.eq_of_others_empty {p : Body} {ps : ι → Body} (h : Owned p ps) {i : ι}
    (hothers : ∀ j, j ≠ i → ps j = .empty) : ps i = p := by
  rcases h with ⟨hp, hps⟩ | ⟨o, hp, hps⟩
  · rw [hp, hps i]
  · by_cases ho : o = i
    · rw [← ho, hp]
    · rw [← hp, hothers o ho, hps i (Ne.symm ho)]

/-- The shared handler holds what the private ones hold together. -/
def Shares (s : HandlerState) (ts : ι → HandlerState) : Prop :=
  ∃ p, ∃ ps : ι → Body, Represents s p ∧ (∀ i, Represents (ts i) (ps i)) ∧ Owned p ps

/-- A call on one of the private handlers keeps what all of them represent. -/
theorem Represents.update {ts : ι → HandlerState} {ps : ι → Body}
    (h : ∀ i, Represents (ts i) (ps i)) (i : ι) (c : Callback) (j : ι) :
    Represents (Function.update ts i (ledReply (ts i) c).1 j)
      (Function.update ps i ((ps i).step c).1 j) := by
  by_cases hj : j = i
  · subst hj
    simpa only [Function.update_self, ledReply] using ((h j).step c).1
  · simpa only [Function.update_of_ne hj] using h j

/-- A call on the shared handler is answered like the call on the private one,
provided that a callback that uses the buffer finds no foreign bytes in it. -/
theorem Shares.step {s : HandlerState} {ts : ι → HandlerState} (h : Shares s ts) {i : ι}
    {c : Callback} (hexclusive : c.Touches → ∀ j, j ≠ i → (ts j).cursor = 0) :
    Shares (ledReply s c).1 (Function.update ts i (ledReply (ts i) c).1) ∧
      (ledReply s c).2 = (ledReply (ts i) c).2 := by
  obtain ⟨p, ps, hs, hts, howned⟩ := h
  obtain ⟨hnext, hresult⟩ := hs.step c
  have hresult' := ((hts i).step c).2
  have hupdate := Represents.update hts i c
  by_cases htouches : c.Touches
  · have hothers : ∀ j, j ≠ i → ps j = .empty := by
      intro j hj
      have hlen : (ps j).elements.length = 0 := by
        rw [← (hts j).cursor_eq]
        exact hexclusive htouches j hj
      exact Collected.ext (List.eq_nil_of_length_eq_zero hlen)
    have hown := howned.eq_of_others_empty hothers
    refine ⟨⟨_, _, hnext, hupdate, .inr ⟨i, ?_, ?_⟩⟩, ?_⟩
    · rw [Function.update_self, hown]
    · intro j hj
      rw [Function.update_of_ne hj, hothers j hj]
    · simp only [ledReply, hresult, hresult', hown]
  · obtain ⟨hsame, hreply⟩ := Body.step_of_not_touches htouches p
    obtain ⟨hsame', hreply'⟩ := Body.step_of_not_touches htouches (ps i)
    rw [hsame] at hnext
    rw [hsame', Function.update_eq_self] at hupdate
    refine ⟨⟨p, ps, hnext, hupdate, howned⟩, ?_⟩
    simp only [ledReply, hresult, hresult', hreply, hreply']

/-- **Isolation.** As long as no callback uses the buffer while another
transaction has bytes to be parsed, every transaction has the bodies parsed and
gets the return values that it would have and get alone. -/
theorem overlapping_isolated (cs : List (ι × Callback)) (h : Exclusive cs) (i : ι) :
    project i (outputs (shared ledReply) .initial cs) =
      outputs ledReply .initial (project i cs) := by
  have hstart : Shares .initial fun _ : ι => HandlerState.initial :=
    ⟨.empty, fun _ => .empty, .initial, fun _ => .initial, .inl ⟨rfl, fun _ => rfl⟩⟩
  apply project_outputs_shared (R := Shares)
    (G := fun ts x => x.2.Touches → ∀ j, j ≠ x.1 → (ts j).cursor = 0) _ hstart
  · rintro pre x post rfl htouches j hj
    have hlen : pre.length < (pre ++ x :: post).length := by simp
    have hcursor := h pre.length hlen
    simp only [List.getElem_append_right (Nat.le_refl _), Nat.sub_self, List.getElem_cons_zero,
      List.take_left] at hcursor
    exact hcursor htouches j hj
  · intro s ts x hshares hexclusive
    exact hshares.step hexclusive

/-- A POST in two chunks, then another in one, with a GET in between. -/
def exclusiveCallbacks : List (Bool × Callback) :=
  [(false, ⟨.post, .more, [0x61, 0x62]⟩), (true, ⟨.get, .final, []⟩),
    (false, ⟨.post, .final, [0x63]⟩), (false, ⟨.post, .complete, []⟩),
    (true, ⟨.get, .complete, []⟩), (true, ⟨.post, .final, [0x64]⟩)]

/-- The bodies of POSTs that do not overlap are parsed as if each were alone. -/
theorem overlapping_isolated_exclusiveCallbacks :
    project true (outputs (shared ledReply) .initial exclusiveCallbacks) =
      outputs ledReply .initial (project true exclusiveCallbacks) :=
  overlapping_isolated exclusiveCallbacks (by decide) true

/-- Two overlapping POSTs: the second arrives complete between the two chunks of
the first. -/
def overlappingPosts : List (Bool × Callback) :=
  [(false, ⟨.post, .more, [0x61, 0x62]⟩), (true, ⟨.post, .final, [0x63, 0x64]⟩),
    (true, ⟨.post, .complete, []⟩), (false, ⟨.post, .final, [0x65, 0x66]⟩),
    (false, ⟨.post, .complete, []⟩)]

/-- The second is parsed with the bytes of the first in front of its own, and
the first without them. -/
theorem overlappingPosts_mixed :
    (project true (outputs (shared ledReply) .initial overlappingPosts)).filterMap Reply.parsed =
        [[0x61, 0x62, 0x63, 0x64]] ∧
      (outputs ledReply .initial (project true overlappingPosts)).filterMap Reply.parsed =
        [[0x63, 0x64]] ∧
      (project false (outputs (shared ledReply) .initial overlappingPosts)).filterMap
        Reply.parsed = [[0x65, 0x66]] ∧
      (outputs ledReply .initial (project false overlappingPosts)).filterMap Reply.parsed =
        [[0x61, 0x62, 0x65, 0x66]] := by
  decide

end LedMatrix
