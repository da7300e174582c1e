import LedMatrix.Lib.OneSlotDelivery

/-!
# Progress of a one-slot channel

A publish under way still has to notify and to unlock, and a reference still has to be
taken and used. Each of these steps is possible as long as it is needed, and brings the
channel nearer to a state that needs none; a timeout of the consumer does not take it
back.
-/

namespace OneSlot

variable {M S O : Type*} {cap : ℕ} {c : Consumer M S O}

/-- What the publish that holds the lock still has to do, with what follows from it. -/
def Lock.pending : Lock → ℕ
  | .free => 0
  | .copied => 4
  | .queued | .full => 1

/-- What is still to be done: a reference has to be taken and then used, and a publish has
to queue its reference, which is to be taken and used in turn, and to unlock. -/
def State.pending (s : State M S O) : ℕ := 2 * s.refs + s.taken + s.lock.pending

/-- The step does something that is pending. -/
def Action.works : Action → Bool
  | .put | .unlock | .wait | .read => true
  | .idle => false

/-- Nothing is pending exactly when nothing is under way. -/
theorem State.pending_eq_zero {s : State M S O} : s.pending = 0 ↔ s.AtRest := by
  have hlock : s.lock.pending = 0 ↔ s.lock = .free := by cases s.lock <;> simp [Lock.pending]
  have htaken : s.taken = 0 ↔ s.reading = false := by simp [State.taken]
  constructor
  · intro h
    unfold pending at h
    exact ⟨by omega, hlock.mp (by omega), htaken.mp (by omega)⟩
  · intro h
    unfold pending
    have h₁ := h.refs_eq
    have h₂ := hlock.mpr h.lock_eq
    have h₃ := htaken.mpr h.reading_eq
    omega

/-- Without another publish, what is pending only becomes less, and each step that works
makes it less. -/
theorem Step.pending_le {s t : State M S O} {a : Action} (h : Step cap c s (.act a) t) :
    a.works.toNat + t.pending ≤ s.pending := by
  unfold State.pending State.taken
  cases h with
  | enqueue hlock _ =>
    simp only [State.enqueue, hlock, Lock.pending, Action.works, Bool.toNat_true]
    omega
  | overflow hlock _ =>
    simp only [State.overflow, hlock, Lock.pending, Action.works, Bool.toNat_true]
    omega
  | accept hlock =>
    simp only [State.accept, hlock, Lock.pending, Action.works, Bool.toNat_true]
    omega
  | reject hlock =>
    simp only [State.reject, hlock, Lock.pending, Action.works, Bool.toNat_true]
    omega
  | wake hwaits hr =>
    simp only [State.wake, hwaits, Action.works, Bool.toNat_true, Bool.toNat_false]
    omega
  | refuse hreading _ =>
    simp only [State.refuse, hreading, Action.works, Bool.toNat_true, Bool.toNat_false]
    omega
  | handle hreading _ =>
    simp only [State.handle, hreading, Action.works, Bool.toNat_true, Bool.toNat_false]
    omega
  | rest _ _ => exact Nat.le_of_eq (Nat.zero_add _)

/-- While something is pending, a step that works is possible, and one that is no read
between a notification and its unlock. -/
theorem exists_step_works (cap : ℕ) (c : Consumer M S O) {s : State M S O} (h : 0 < s.pending) :
    ∃ a t, Action.works a = true ∧ AtomicRead s (.act a) ∧ step cap c s (.act a) = some t := by
  cases hlock : s.lock with
  | copied =>
    by_cases hr : s.refs < cap
    · exact ⟨.put, s.enqueue, rfl, trivial, by simp [step, hlock, hr]⟩
    · exact ⟨.put, s.overflow, rfl, trivial, by simp [step, hlock, hr]⟩
  | queued => exact ⟨.unlock, s.accept, rfl, trivial, by simp [step, hlock]⟩
  | full => exact ⟨.unlock, s.reject, rfl, trivial, by simp [step, hlock]⟩
  | free =>
    cases hreading : s.reading with
    | true =>
      exact ⟨.read, s.handle c, rfl, (by rw [AtomicRead, hlock]; rfl),
        by simp [step, hlock, hreading]⟩
    | false =>
      have hr : 0 < s.refs := by
        by_contra hr
        have hrest : s.AtRest := ⟨by omega, hlock, hreading⟩
        have hnone := State.pending_eq_zero.mpr hrest
        omega
      exact ⟨.wait, s.wake, rfl, trivial, by simp [step, hreading, hr]⟩

/-- The queue never holds more references than it has room for. -/
theorem Step.refs_le {s t : State M S O} {e : Event M} (h : Step cap c s e t)
    (hle : s.refs ≤ cap) : t.refs ≤ cap := by
  cases h with
  | enqueue _ hroom => exact hroom
  | wake _ _ => exact Nat.le_trans (Nat.sub_le _ _) hle
  | copy _ | giveUp _ | overflow _ _ | accept _ | reject _ | refuse _ _ | handle _ _ | rest _ _ =>
    exact hle

/-- Only a publish changes what has been copied. -/
theorem Step.copied_eq {s t : State M S O} {a : Action} (h : Step cap c s (.act a) t) :
    t.copied = s.copied := by
  cases h with
  | enqueue _ _ | overflow _ _ | accept _ | reject _ | wake _ _ | refuse _ _ | handle _ _
  | rest _ _ => rfl

/-- After every run there is at most a full queue to go through, one reference taken, and
one publish. -/
theorem exec_pending_le {m : M} {x : S} {es : List (Event M)} {t : State M S O}
    (hrun : Runs.exec (step cap c) (State.initial m x) es = some t) :
    t.pending ≤ 2 * cap + 5 := by
  have hrefs : t.refs ≤ cap := Runs.exec_preserves (I := fun s : State M S O => s.refs ≤ cap)
    (fun _ _ _ hs ht => Step.refs_le (.of_step ht) hs) (Nat.zero_le _) hrun
  have htaken : t.taken ≤ 1 := t.reading.toNat_le
  have hlock : t.lock.pending ≤ 4 := by cases t.lock <;> simp [Lock.pending]
  unfold State.pending
  omega

end OneSlot
