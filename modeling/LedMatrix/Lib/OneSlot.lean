import LedMatrix.Lib.Runs
import Mathlib.Logic.Function.Iterate

/-!
# A one-slot channel whose subscriber is notified by reference

A publisher locks the channel, overwrites its message, puts a reference to the channel
in the bounded queue of one consumer, and unlocks the channel again. The consumer takes
references, not messages: for each of them it reads, in a step of its own, what the
channel holds by then. A read that finds the channel locked is refused, and a publisher
that finds it locked for too long gives up.

The state carries logs of what was copied, accepted, rejected, given up, handled and
refused, so that what is delivered can be compared with what was published.
-/

namespace OneSlot

variable {M S O : Type*}

/-- A consumer woken by a message or by a timeout, with what each step emits. -/
structure Consumer (M S O : Type*) where
  /-- The step on a message. -/
  onMessage : S → M → S × List O
  /-- The step on a timeout. -/
  onIdle : S → S × List O

/-- Whether the channel is locked, and how far the publish has come that holds the lock. -/
inductive Lock
  /-- The channel is not locked. -/
  | free
  /-- The publish has copied its message. -/
  | copied
  /-- It has also queued its reference, and will return success. -/
  | queued
  /-- It has found the queue full, and will return an error. -/
  | full
  deriving DecidableEq, Repr

/-- The publish that holds the lock has put its reference in the queue, or failed to. -/
def Lock.notified : Lock → Bool
  | .free | .copied => false
  | .queued | .full => true

/-- A channel, the queue of references to it, its consumer, and the logs. The
`n`-th message copied into the channel is logged under the number `n`. -/
structure State (M S O : Type*) where
  /-- The message the channel holds. -/
  current : M
  /-- References waiting in the queue of the consumer. -/
  refs : ℕ
  /-- The lock of the channel. -/
  lock : Lock
  /-- The consumer has taken a reference and has not read the channel yet. -/
  reading : Bool
  /-- The consumer's own state. -/
  consumer : S
  /-- All messages copied into the channel, oldest first. -/
  copied : List M
  /-- The publishes that returned success. -/
  accepted : List (ℕ × M)
  /-- The publishes that returned an error after their copy. -/
  rejected : List (ℕ × M)
  /-- The messages of the publishes that gave up on the lock. They are never copied. -/
  gaveUp : List M
  /-- The messages handled by the consumer, in the order it handled them. -/
  handled : List (ℕ × M)
  /-- What the channel held at the reads that were refused. -/
  refused : List (ℕ × M)
  /-- Everything the consumer has emitted. -/
  emitted : List O

/-- The channel before any publish: it holds its initial message, and no
reference to it is queued. -/
def State.initial (m : M) (x : S) : State M S O :=
  { current := m, refs := 0, lock := .free, reading := false, consumer := x, copied := [],
    accepted := [], rejected := [], gaveUp := [], handled := [], refused := [], emitted := [] }

/-- What the channel holds, under its number. -/
def State.latest (s : State M S O) : ℕ × M := (s.copied.length, s.current)

/-- A publish locks the channel and overwrites its message. -/
def State.copy (s : State M S O) (m : M) : State M S O :=
  { s with current := m, lock := .copied, copied := s.copied ++ [m] }

/-- A publish does not get the lock in time, and returns an error. -/
def State.giveUp (s : State M S O) (m : M) : State M S O :=
  { s with gaveUp := s.gaveUp ++ [m] }

/-- A publish queues its reference. -/
def State.enqueue (s : State M S O) : State M S O :=
  { s with refs := s.refs + 1, lock := .queued }

/-- A publish finds the queue full. -/
def State.overflow (s : State M S O) : State M S O := { s with lock := .full }

/-- A publish unlocks the channel and returns success. -/
def State.accept (s : State M S O) : State M S O :=
  { s with lock := .free, accepted := s.accepted ++ [s.latest] }

/-- A publish unlocks the channel and returns an error; its message stays. -/
def State.reject (s : State M S O) : State M S O :=
  { s with lock := .free, rejected := s.rejected ++ [s.latest] }

/-- The consumer takes a reference. -/
def State.wake (s : State M S O) : State M S O :=
  { s with refs := s.refs - 1, reading := true }

/-- The consumer finds the channel locked: its reference is gone and nothing was read. -/
def State.refuse (s : State M S O) : State M S O :=
  { s with reading := false, refused := s.refused ++ [s.latest] }

/-- The consumer reads the message that the channel holds, and handles it. -/
def State.handle (c : Consumer M S O) (s : State M S O) : State M S O :=
  { s with reading := false, consumer := (c.onMessage s.consumer s.current).1
           handled := s.handled ++ [s.latest]
           emitted := s.emitted ++ (c.onMessage s.consumer s.current).2 }

/-- The consumer's wait for a reference times out. -/
def State.rest (c : Consumer M S O) (s : State M S O) : State M S O :=
  { s with consumer := (c.onIdle s.consumer).1
           emitted := s.emitted ++ (c.onIdle s.consumer).2 }

/-- What a publish under way and the consumer can do next. -/
inductive Action
  /-- The publish puts its reference in the queue. -/
  | put
  /-- The publish unlocks the channel and returns. -/
  | unlock
  /-- The consumer's wait returns a reference. -/
  | wait
  /-- The consumer reads the channel. -/
  | read
  /-- The consumer's wait times out. -/
  | idle
  deriving DecidableEq, Repr

/-- The action is one of the consumer. -/
def Action.ofConsumer : Action → Bool
  | .put | .unlock => false
  | .wait | .read | .idle => true

/-- What can happen next: a message is published, or what is under way goes on. -/
inductive Event (M : Type*)
  | publish (m : M)
  | act (a : Action)

/-- One step of the channel with a queue of `cap` references. A publish that finds the
channel locked gives up; one that gets the lock in time happens later. The consumer waits
only after its last read, and its wait times out only on an empty queue. -/
def step (cap : ℕ) (c : Consumer M S O) (s : State M S O) : Event M → Option (State M S O)
  | .publish m => if s.lock = .free then some (s.copy m) else some (s.giveUp m)
  | .act .put =>
    if s.lock = .copied then
      if s.refs < cap then some s.enqueue else some s.overflow
    else none
  | .act .unlock =>
    match s.lock with
    | .queued => some s.accept
    | .full => some s.reject
    | .free | .copied => none
  | .act .wait => if s.reading = false ∧ 0 < s.refs then some s.wake else none
  | .act .read =>
    if s.reading then
      if s.lock = .free then some (s.handle c) else some s.refuse
    else none
  | .act .idle => if s.reading = false ∧ s.refs = 0 then some (s.rest c) else none

/-- The steps of the channel as a relation, one rule for each outcome. -/
inductive Step (cap : ℕ) (c : Consumer M S O) : State M S O → Event M → State M S O → Prop
  | copy {s : State M S O} {m : M} : s.lock = .free → Step cap c s (.publish m) (s.copy m)
  | giveUp {s : State M S O} {m : M} : s.lock ≠ .free → Step cap c s (.publish m) (s.giveUp m)
  | enqueue {s : State M S O} :
      s.lock = .copied → s.refs < cap → Step cap c s (.act .put) s.enqueue
  | overflow {s : State M S O} :
      s.lock = .copied → cap ≤ s.refs → Step cap c s (.act .put) s.overflow
  | accept {s : State M S O} : s.lock = .queued → Step cap c s (.act .unlock) s.accept
  | reject {s : State M S O} : s.lock = .full → Step cap c s (.act .unlock) s.reject
  | wake {s : State M S O} : s.reading = false → 0 < s.refs → Step cap c s (.act .wait) s.wake
  | refuse {s : State M S O} :
      s.reading = true → s.lock ≠ .free → Step cap c s (.act .read) s.refuse
  | handle {s : State M S O} :
      s.reading = true → s.lock = .free → Step cap c s (.act .read) (s.handle c)
  | rest {s : State M S O} :
      s.reading = false → s.refs = 0 → Step cap c s (.act .idle) (s.rest c)

/-- The executable step takes only the steps of the relation. -/
theorem Step.of_step {cap : ℕ} {c : Consumer M S O} {s t : State M S O} {e : Event M}
    (h : step cap c s e = some t) : Step cap c s e t := by
  cases e with
  | publish m =>
    by_cases hlock : s.lock = .free
    · obtain rfl : s.copy m = t := by simpa [step, hlock] using h
      exact .copy hlock
    · obtain rfl : s.giveUp m = t := by simpa [step, hlock] using h
      exact .giveUp hlock
  | act a =>
    cases a with
    | put =>
      simp only [step] at h
      split_ifs at h with hlock hroom
      · obtain rfl := Option.some.inj h
        exact .enqueue hlock hroom
      · obtain rfl := Option.some.inj h
        exact .overflow hlock (by omega)
    | unlock =>
      simp only [step] at h
      split at h
      · obtain rfl := Option.some.inj h
        exact .accept ‹_›
      · obtain rfl := Option.some.inj h
        exact .reject ‹_›
      · cases h
      · cases h
    | wait =>
      simp only [step] at h
      split_ifs at h with hwaits
      obtain rfl := Option.some.inj h
      exact .wake hwaits.1 hwaits.2
    | read =>
      simp only [step] at h
      split_ifs at h with hreading hlock
      · obtain rfl := Option.some.inj h
        exact .handle hreading hlock
      · obtain rfl := Option.some.inj h
        exact .refuse hreading hlock
    | idle =>
      simp only [step] at h
      split_ifs at h with hwaits
      obtain rfl := Option.some.inj h
      exact .rest hwaits.1 hwaits.2

/-! ## What the logs say -/

/-- One reference that the consumer has taken and not used yet, or none. -/
def State.taken (s : State M S O) : ℕ := s.reading.toNat

/-- One publish that is under way, or none. -/
def State.publishing (s : State M S O) : ℕ := if s.lock = .free then 0 else 1

/-- One reference queued by a publish that has not returned yet, or none. -/
def State.queuing (s : State M S O) : ℕ := if s.lock = .queued then 1 else 0

/-- The logs agree with the channel: it holds the last message copied, every
publish is accounted for, every publish that was accepted, or will be, left one
reference, and what was accepted or handled are copies in the order in which they
were made. -/
structure Accounted (s : State M S O) : Prop where
  /-- The channel holds the last message copied into it. -/
  current_eq : s.copied ≠ [] → s.copied.getLast? = some s.current
  /-- Each publish that has copied is accepted, rejected or still running. -/
  copies_eq : s.accepted.length + s.rejected.length + s.publishing = s.copied.length
  /-- Each reference ever queued is handled, refused, taken or still queued. -/
  refs_eq : s.handled.length + s.refused.length + s.taken + s.refs =
    s.accepted.length + s.queuing
  /-- What is handled is the copy logged under its number. -/
  handled_copied : ∀ p ∈ s.handled, 0 < p.1 ∧ s.copied[p.1 - 1]? = some p.2
  /-- Copies are handled in the order in which they were made. -/
  handled_ordered : (s.handled.map Prod.fst).Pairwise (· ≤ ·)
  /-- What is accepted was copied before the publish under way. -/
  accepted_le : ∀ p ∈ s.accepted, p.1 + s.publishing ≤ s.copied.length
  /-- Publishes are accepted once each, in the order in which they copied. -/
  accepted_ordered : (s.accepted.map Prod.fst).Pairwise (· < ·)

/-- The logs agree before any publish. -/
theorem Accounted.initial (m : M) (x : S) : Accounted (State.initial m x : State M S O) where
  current_eq h := absurd rfl h
  copies_eq := rfl
  refs_eq := rfl
  handled_copied := by simp [State.initial]
  handled_ordered := by simp [State.initial]
  accepted_le := by simp [State.initial]
  accepted_ordered := by simp [State.initial]

/-- While a reference is queued or taken, some message has been copied. -/
theorem Accounted.copied_ne_nil {s : State M S O} (h : Accounted s)
    (hr : 0 < s.refs ∨ s.reading = true) : s.copied ≠ [] := by
  have hcopies := h.copies_eq
  have hrefs := h.refs_eq
  have htaken : s.reading = true → s.taken = 1 := fun hreading => by simp [State.taken, hreading]
  have hqueuing : s.queuing ≤ s.publishing := by
    unfold State.queuing State.publishing
    cases s.lock <;> simp
  intro hnil
  rw [hnil, List.length_nil] at hcopies
  rcases hr with hr | hr
  · omega
  · have := htaken hr
    omega

/-- While something is under way, the channel holds a message that was copied. -/
theorem Accounted.current_mem {s : State M S O} (h : Accounted s)
    (hr : 0 < s.refs ∨ s.reading = true) : s.current ∈ s.copied :=
  List.mem_of_getLast? (h.current_eq (h.copied_ne_nil hr))

/-- The number of a handled copy never exceeds the number of copies made. -/
theorem Accounted.handled_le {s : State M S O} (h : Accounted s) {p : ℕ × M}
    (hp : p ∈ s.handled) : p.1 ≤ s.copied.length := by
  obtain ⟨hpos, hget⟩ := h.handled_copied p hp
  have hlt := (List.getElem?_eq_some_iff.mp hget).1
  omega

/-- Every step keeps the publishes and the references accounted for. -/
theorem Accounted.step_counts {cap : ℕ} {c : Consumer M S O} {s t : State M S O} {e : Event M}
    (h : Accounted s) (hstep : Step cap c s e t) :
    t.accepted.length + t.rejected.length + t.publishing = t.copied.length ∧
      t.handled.length + t.refused.length + t.taken + t.refs = t.accepted.length + t.queuing := by
  have hcopies := h.copies_eq
  have hrefs := h.refs_eq
  unfold State.publishing at hcopies
  unfold State.taken State.queuing at hrefs
  cases hstep with
  | copy hlock =>
    rw [hlock] at hcopies hrefs
    constructor
    · simpa [State.copy, State.publishing] using hcopies
    · simpa [State.copy, State.queuing, State.taken] using hrefs
  | giveUp _ => exact ⟨h.copies_eq, h.refs_eq⟩
  | enqueue hlock _ =>
    rw [hlock] at hcopies hrefs
    refine ⟨by simpa [State.enqueue, State.publishing] using hcopies, ?_⟩
    change s.handled.length + s.refused.length + s.reading.toNat + (s.refs + 1) =
      s.accepted.length + 1
    simp only [reduceCtorEq, if_false] at hrefs
    omega
  | overflow hlock _ =>
    rw [hlock] at hcopies hrefs
    constructor
    · simpa [State.overflow, State.publishing] using hcopies
    · simpa [State.overflow, State.queuing, State.taken] using hrefs
  | accept hlock =>
    rw [hlock] at hcopies hrefs
    simp only [reduceCtorEq, if_false, if_true] at hcopies hrefs
    constructor
    · simp only [State.accept, State.publishing, if_true, List.length_append,
        List.length_singleton]
      omega
    · simp only [State.accept, State.queuing, State.taken, reduceCtorEq, if_false,
        List.length_append, List.length_singleton]
      omega
  | reject hlock =>
    rw [hlock] at hcopies hrefs
    simp only [reduceCtorEq, if_false] at hcopies
    constructor
    · simp only [State.reject, State.publishing, if_true, List.length_append,
        List.length_singleton]
      omega
    · simpa [State.reject, State.queuing, State.taken] using hrefs
  | wake hwaits hr =>
    refine ⟨h.copies_eq, ?_⟩
    change s.handled.length + s.refused.length + 1 + (s.refs - 1) = s.accepted.length + s.queuing
    rw [hwaits, Bool.toNat_false] at hrefs
    unfold State.queuing
    omega
  | refuse hreading _ =>
    refine ⟨h.copies_eq, ?_⟩
    change s.handled.length + (s.refused ++ [s.latest]).length + 0 + s.refs =
      s.accepted.length + s.queuing
    rw [hreading, Bool.toNat_true] at hrefs
    rw [List.length_append, List.length_singleton]
    unfold State.queuing
    omega
  | handle hreading _ =>
    refine ⟨h.copies_eq, ?_⟩
    change (s.handled ++ [s.latest]).length + s.refused.length + 0 + s.refs =
      s.accepted.length + s.queuing
    rw [hreading, Bool.toNat_true] at hrefs
    rw [List.length_append, List.length_singleton]
    unfold State.queuing
    omega
  | rest _ _ => exact ⟨h.copies_eq, h.refs_eq⟩

/-- Numbers in order stay in order when a number follows that none of them exceeds. -/
theorem pairwise_concat {r : ℕ → ℕ → Prop} {ps : List (ℕ × M)} {p : ℕ × M}
    (h : (ps.map Prod.fst).Pairwise r) (hle : ∀ q ∈ ps, r q.1 p.1) :
    ((ps ++ [p]).map Prod.fst).Pairwise r := by
  rw [List.map_append, List.map_singleton]
  refine List.pairwise_append.mpr ⟨h, List.pairwise_singleton _ _, ?_⟩
  intro k hk n hn
  obtain ⟨q, hq, rfl⟩ := List.mem_map.mp hk
  obtain rfl := List.mem_singleton.mp hn
  exact hle q hq

/-- Every step keeps what is handled in the order of the copies. -/
theorem Accounted.step_handled {cap : ℕ} {c : Consumer M S O} {s t : State M S O} {e : Event M}
    (h : Accounted s) (hstep : Step cap c s e t) :
    (∀ p ∈ t.handled, 0 < p.1 ∧ t.copied[p.1 - 1]? = some p.2) ∧
      (t.handled.map Prod.fst).Pairwise (· ≤ ·) := by
  cases hstep with
  | copy _ =>
    refine ⟨fun p hp => ?_, h.handled_ordered⟩
    obtain ⟨hpos, hget⟩ := h.handled_copied p hp
    have hlt := (List.getElem?_eq_some_iff.mp hget).1
    exact ⟨hpos, by simpa only [State.copy, List.getElem?_append_left hlt] using hget⟩
  | handle hreading _ =>
    have hne := h.copied_ne_nil (.inr hreading)
    refine ⟨fun p hp => ?_, pairwise_concat h.handled_ordered fun p hp => h.handled_le hp⟩
    rcases List.mem_append.mp hp with hp | hp
    · exact h.handled_copied p hp
    · obtain rfl := List.mem_singleton.mp hp
      have hlast := h.current_eq hne
      rw [List.getLast?_eq_getElem?] at hlast
      exact ⟨List.length_pos_of_ne_nil hne, hlast⟩
  | giveUp _ | enqueue _ _ | overflow _ _ | accept _ | reject _ | wake _ _ | refuse _ _
  | rest _ _ =>
    exact ⟨h.handled_copied, h.handled_ordered⟩

/-- Every step keeps what is accepted in the order of the copies. -/
theorem Accounted.step_accepted {cap : ℕ} {c : Consumer M S O} {s t : State M S O} {e : Event M}
    (h : Accounted s) (hstep : Step cap c s e t) :
    (∀ p ∈ t.accepted, p.1 + t.publishing ≤ t.copied.length) ∧
      (t.accepted.map Prod.fst).Pairwise (· < ·) := by
  have hle := h.accepted_le
  unfold State.publishing at hle
  cases hstep with
  | copy hlock =>
    refine ⟨fun p hp => ?_, h.accepted_ordered⟩
    have hp := hle p hp
    rw [hlock, if_pos rfl] at hp
    simp only [State.copy, State.publishing, reduceCtorEq, if_false, List.length_append,
      List.length_singleton]
    omega
  | accept hlock =>
    rw [hlock] at hle
    refine ⟨fun p hp => ?_, pairwise_concat h.accepted_ordered hle⟩
    change p.1 + 0 ≤ s.copied.length
    rcases List.mem_append.mp hp with hp | hp
    · exact Nat.le_of_succ_le (hle p hp)
    · obtain rfl := List.mem_singleton.mp hp
      exact Nat.le_refl _
  | enqueue hlock _ | overflow hlock _ =>
    rw [hlock] at hle
    exact ⟨hle, h.accepted_ordered⟩
  | reject hlock =>
    rw [hlock] at hle
    exact ⟨fun p hp => Nat.le_of_succ_le (hle p hp), h.accepted_ordered⟩
  | giveUp _ | wake _ _ | refuse _ _ | handle _ _ | rest _ _ =>
    exact ⟨h.accepted_le, h.accepted_ordered⟩

/-- Every step keeps the logs in agreement with the channel. -/
theorem Accounted.step {cap : ℕ} {c : Consumer M S O} {s t : State M S O} {e : Event M}
    (h : Accounted s) (hstep : Step cap c s e t) : Accounted t := by
  have hcurrent : t.copied ≠ [] → t.copied.getLast? = some t.current := by
    cases hstep with
    | copy _ => exact fun _ => by simp [State.copy]
    | giveUp _ | enqueue _ _ | overflow _ _ | accept _ | reject _ | wake _ _ | refuse _ _
    | handle _ _ | rest _ _ =>
      exact h.current_eq
  obtain ⟨hcopies, hrefs⟩ := h.step_counts hstep
  obtain ⟨hhandled, hhandledOrdered⟩ := h.step_handled hstep
  obtain ⟨haccepted, hacceptedOrdered⟩ := h.step_accepted hstep
  exact ⟨hcurrent, hcopies, hrefs, hhandled, hhandledOrdered, haccepted, hacceptedOrdered⟩

/-- The logs agree with the channel after every run. -/
theorem Accounted.exec {cap : ℕ} {c : Consumer M S O} {s t : State M S O} {es : List (Event M)}
    (h : Accounted s) (hrun : Runs.exec (OneSlot.step cap c) s es = some t) : Accounted t :=
  Runs.exec_preserves (fun _ _ _ hs ht => Accounted.step hs (.of_step ht)) h hrun

end OneSlot
