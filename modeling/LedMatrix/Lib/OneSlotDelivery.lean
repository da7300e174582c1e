import LedMatrix.Lib.OneSlot

/-!
# What a one-slot channel delivers

Three properties: an invariant of the consumer that all published messages respect
holds throughout every run; when no read falls between the notification of a publish
and its unlock, and nothing is under way any more, the consumer has handled the last
message copied and has only rested since; and when each publish starts on a channel
that is at rest, no publish fails, and a message is handled exactly once unless its
own read was refused.
-/

namespace OneSlot

variable {M S O : Type*} {cap : ℕ} {c : Consumer M S O}

/-! ## Invariants of the consumer -/

/-- The consumer's state satisfies `I`, its outputs satisfy `J`, and every
copied message satisfies `K`. -/
structure Confined (K : M → Prop) (I : S → Prop) (J : O → Prop) (s : State M S O) : Prop where
  /-- The logs agree with the channel. -/
  accounted : Accounted s
  /-- Only admissible messages have been copied. -/
  copied_mem : ∀ m ∈ s.copied, K m
  /-- The invariant of the consumer. -/
  consumer_mem : I s.consumer
  /-- The property of everything emitted. -/
  emitted_mem : ∀ o ∈ s.emitted, J o

/-- One step keeps the consumer confined, provided that a copied message is
admissible and that the consumer's two steps respect the invariant. -/
theorem Confined.step {K : M → Prop} {I : S → Prop} {J : O → Prop}
    (hmessage : ∀ x m, K m → I x →
      I (c.onMessage x m).1 ∧ ∀ o ∈ (c.onMessage x m).2, J o)
    (hidle : ∀ x, I x → I (c.onIdle x).1 ∧ ∀ o ∈ (c.onIdle x).2, J o)
    {s t : State M S O} {e : Event M} (hadmissible : ∀ m, e = .publish m → K m)
    (h : Confined K I J s) (hstep : Step cap c s e t) : Confined K I J t := by
  have haccounted := h.accounted.step hstep
  cases hstep with
  | copy _ =>
    refine ⟨haccounted, ?_, h.consumer_mem, h.emitted_mem⟩
    intro m hm
    rcases List.mem_append.mp hm with hm | hm
    · exact h.copied_mem m hm
    · obtain rfl := List.mem_singleton.mp hm
      exact hadmissible _ rfl
  | giveUp _ | enqueue _ _ | overflow _ _ | accept _ | reject _ | wake _ _ | refuse _ _ =>
    exact ⟨haccounted, h.copied_mem, h.consumer_mem, h.emitted_mem⟩
  | handle hreading _ =>
    obtain ⟨hI, hJ⟩ :=
      hmessage _ _ (h.copied_mem _ (h.accounted.current_mem (.inr hreading))) h.consumer_mem
    refine ⟨haccounted, h.copied_mem, hI, ?_⟩
    intro o ho
    exact (List.mem_append.mp ho).elim (h.emitted_mem o) (hJ o)
  | rest _ _ =>
    obtain ⟨hI, hJ⟩ := hidle _ h.consumer_mem
    refine ⟨haccounted, h.copied_mem, hI, ?_⟩
    intro o ho
    exact (List.mem_append.mp ho).elim (h.emitted_mem o) (hJ o)

/-- **Invariants lift to runs.** If messages satisfying `K` and timeouts keep
the invariant `I` of the consumer and emit only outputs in `J`, this holds
after every run that publishes only such messages. -/
theorem exec_confined {K : M → Prop} {I : S → Prop} {J : O → Prop}
    (hmessage : ∀ x m, K m → I x →
      I (c.onMessage x m).1 ∧ ∀ o ∈ (c.onMessage x m).2, J o)
    (hidle : ∀ x, I x → I (c.onIdle x).1 ∧ ∀ o ∈ (c.onIdle x).2, J o)
    {m : M} {x : S} (hstart : I x) {es : List (Event M)} {t : State M S O}
    (hadmissible : Runs.Along (step cap c) (fun _ e => ∀ m, e = .publish m → K m)
      (State.initial m x) es)
    (hrun : Runs.exec (step cap c) (State.initial m x) es = some t) : Confined K I J t := by
  have hinitial : Confined K I J (State.initial m x) :=
    ⟨.initial m x, by simp [State.initial], hstart, by simp [State.initial]⟩
  refine Runs.exec_invariant ?_ hadmissible hinitial hrun
  intro s e u he hs hu
  exact Confined.step hmessage hidle he hs (.of_step hu)

/-! ## The latest message wins -/

/-- The consumer has handled `m` and has only rested since. -/
def Settled (c : Consumer M S O) (m : M) (x : S) : Prop :=
  ∃ y n, x = (fun z => (c.onIdle z).1)^[n] (c.onMessage y m).1

/-- Nothing is under way: no reference is queued or taken, and no publish is running. -/
structure State.AtRest (s : State M S O) : Prop where
  /-- No reference is queued. -/
  refs_eq : s.refs = 0
  /-- No publish holds the channel. -/
  lock_eq : s.lock = .free
  /-- The consumer waits for a reference. -/
  reading_eq : s.reading = false

instance (s : State M S O) : Decidable s.AtRest :=
  decidable_of_iff (s.refs = 0 ∧ s.lock = .free ∧ s.reading = false)
    ⟨fun h => ⟨h.1, h.2.1, h.2.2⟩, fun h => ⟨h.refs_eq, h.lock_eq, h.reading_eq⟩⟩

/-- At rest, no reference is on its way to the consumer. -/
theorem State.AtRest.refs_add_taken {s : State M S O} (h : s.AtRest) : s.refs + s.taken = 0 := by
  simp [State.taken, h.refs_eq, h.reading_eq]

/-- The step is no read that falls between the notification of a publish and its unlock. -/
def AtomicRead (s : State M S O) : Event M → Prop
  | .act .read => s.lock.notified = false
  | .act .put | .act .unlock | .act .wait | .act .idle | .publish _ => True

instance (s : State M S O) (e : Event M) : Decidable (AtomicRead s e) :=
  match e with
  | .act .read => inferInstanceAs (Decidable (_ = _))
  | .act .put | .act .unlock | .act .wait | .act .idle | .publish _ => isTrue trivial

/-- When nothing is under way, either no message was ever copied and the consumer has only
rested, or the last message handled is the last one copied and the consumer has settled
on it. -/
def Latest (c : Consumer M S O) (x : S) (s : State M S O) : Prop :=
  s.AtRest →
    (s.copied = [] ∧ s.handled = [] ∧ ∃ n, s.consumer = (fun z => (c.onIdle z).1)^[n] x) ∨
    (s.copied.getLast? = some s.current ∧ s.handled.getLast? = some s.latest ∧
      Settled c s.current s.consumer)

/-- Once a publish has notified the consumer, a reference is queued or taken until it
unlocks the channel. -/
def Heard (s : State M S O) : Prop :=
  s.lock.notified = true → 0 < s.refs ∨ s.reading = true

/-- Every step but a read before the unlock keeps what the consumer was notified of. -/
theorem Heard.step (hcap : 0 < cap) {s t : State M S O} {e : Event M} (h : Heard s)
    (hatomic : AtomicRead s e) (hstep : Step cap c s e t) : Heard t := by
  cases hstep with
  | copy _ | accept _ | reject _ => exact fun hnotified => by cases hnotified
  | giveUp _ => exact h
  | enqueue _ _ => exact fun _ => .inl (Nat.succ_pos _)
  | overflow _ hfull => exact fun _ => .inl (Nat.lt_of_lt_of_le hcap hfull)
  | wake _ _ => exact fun _ => .inr rfl
  | refuse _ _ | handle _ _ =>
    intro hnotified
    have hfree : s.lock.notified = false := hatomic
    exact absurd (hfree.symm.trans hnotified) (by decide)
  | rest _ _ => exact h

/-- Every step keeps the latest message winning. A publish under way, or a reference
queued or taken, stands for the message that is still to be handled. -/
theorem Latest.step {x : S} {s t : State M S O} {e : Event M} (haccounted : Accounted s)
    (hheard : Heard s) (h : Latest c x s) (hstep : Step cap c s e t) : Latest c x t := by
  have hunlocked : s.lock.notified = true → t.refs = s.refs → t.reading = s.reading →
      Latest c x t := by
    intro hnotified hrefs hreading hrest
    rcases hheard hnotified with hr | hr
    · exact absurd (hrefs.symm.trans hrest.refs_eq) (Nat.ne_of_gt hr)
    · exact absurd ((hreading.symm.trans hrest.reading_eq).symm.trans hr) (by decide)
  cases hstep with
  | copy _ | enqueue _ _ | overflow _ _ => exact fun hrest => by cases hrest.lock_eq
  | giveUp _ => exact fun hrest => h ⟨hrest.refs_eq, hrest.lock_eq, hrest.reading_eq⟩
  | accept hlock => exact hunlocked (by rw [hlock]; rfl) rfl rfl
  | reject hlock => exact hunlocked (by rw [hlock]; rfl) rfl rfl
  | wake _ _ => exact fun hrest => by cases hrest.reading_eq
  | refuse _ hlocked => exact fun hrest => absurd hrest.lock_eq hlocked
  | handle hreading _ =>
    intro _
    right
    exact ⟨haccounted.current_eq (haccounted.copied_ne_nil (.inr hreading)),
      by simp [State.handle, State.latest], s.consumer, 0, rfl⟩
  | rest _ _ =>
    intro hrest
    rcases h ⟨hrest.refs_eq, hrest.lock_eq, hrest.reading_eq⟩ with
      ⟨hcopied, hhandled, n, hn⟩ | ⟨hlast, hhandled, y, n, hn⟩
    · left
      refine ⟨hcopied, hhandled, n + 1, ?_⟩
      rw [Function.iterate_succ_apply', ← hn]
      rfl
    · right
      refine ⟨hlast, hhandled, y, n + 1, ?_⟩
      change _ = (fun z => (c.onIdle z).1)^[n + 1] (c.onMessage y s.current).1
      rw [Function.iterate_succ_apply', ← hn]
      rfl

/-- **The latest message wins** after every run in which no read falls between the
notification of a publish and its unlock. -/
theorem exec_latest (hcap : 0 < cap) {m : M} {x : S} {es : List (Event M)} {t : State M S O}
    (hatomic : Runs.Along (step cap c) AtomicRead (State.initial m x) es)
    (hrun : Runs.exec (step cap c) (State.initial m x) es = some t) : Latest c x t := by
  have hheard : Heard (State.initial m x : State M S O) := fun hnotified => by cases hnotified
  have hlatest : Latest c x (State.initial m x) := fun _ => .inl ⟨rfl, rfl, 0, rfl⟩
  refine (Runs.exec_invariant (I := fun s => Accounted s ∧ Heard s ∧ Latest c x s) ?_ hatomic
    ⟨.initial m x, hheard, hlatest⟩ hrun).2.2
  rintro s e u he ⟨haccounted, hheard, hlatest⟩ hu
  have hstep := Step.of_step hu
  exact ⟨haccounted.step hstep, hheard.step hcap he hstep, hlatest.step haccounted hheard hstep⟩

/-! ## Paced publishes -/

/-- A publish starts only when nothing is under way. -/
def PacedAt (s : State M S O) : Event M → Prop
  | .publish _ => s.AtRest
  | .act _ => True

instance (s : State M S O) (e : Event M) : Decidable (PacedAt s e) :=
  match e with
  | .publish _ => inferInstanceAs (Decidable s.AtRest)
  | .act _ => isTrue trivial

/-- The latest message, while a reference to the channel is queued or taken. -/
def State.outstanding (s : State M S O) : List (ℕ × M) :=
  if s.refs + s.taken = 0 then [] else [s.latest]

/-- The latest message, while its publish has queued its reference and not returned yet. -/
def State.arriving (s : State M S O) : List (ℕ × M) :=
  if s.lock = .queued then [s.latest] else []

/-- What paced publishes keep true of the channel: at most one reference is queued or
taken, and no publish fails. -/
structure Paced (s : State M S O) : Prop where
  /-- Before a publish under way queues its reference, there is no other. -/
  refs_eq : s.lock = .copied → s.refs + s.taken = 0
  /-- At most one reference is queued or taken. -/
  refs_le : s.refs + s.taken ≤ 1
  /-- No publish is about to fail. -/
  not_full : s.lock ≠ .full
  /-- No publish has failed. -/
  rejected_eq : s.rejected = []
  /-- No publish has given up. -/
  gaveUp_eq : s.gaveUp = []

/-- Nothing has been published yet. -/
theorem Paced.initial (m : M) (x : S) : Paced (State.initial m x : State M S O) where
  refs_eq h := by cases h
  refs_le := Nat.zero_le _
  not_full h := by cases h
  rejected_eq := rfl
  gaveUp_eq := rfl

/-- What they keep true of the logs: every accepted message has been handled or refused,
in order, but for the latest one while its reference is still there. -/
structure Delivered (s : State M S O) : Prop where
  /-- What is handled was accepted, in the same order. -/
  handled_sublist : (s.handled ++ s.outstanding).Sublist (s.accepted ++ s.arriving)
  /-- What is accepted has been handled or refused. -/
  accepted_mem : ∀ p ∈ s.accepted ++ s.arriving, p ∈ s.handled ∨ p ∈ s.refused ∨ p ∈ s.outstanding
  /-- All copied messages are accepted, but for the one under way. -/
  copied_eq : s.copied =
    s.accepted.map Prod.snd ++ if s.lock = .free then [] else [s.current]

/-- Every step that is itself paced keeps the publishes paced. -/
theorem Paced.step (hcap : 0 < cap) {s t : State M S O} {e : Event M} (hpaced : PacedAt s e)
    (h : Paced s) (hstep : Step cap c s e t) : Paced t := by
  obtain ⟨hrefs, hle, hnotFull, hrejected, hgaveUp⟩ := h
  cases hstep with
  | copy _ =>
    have hrest : s.AtRest := hpaced
    exact ⟨fun _ => hrest.refs_add_taken, hle, by simp [State.copy], hrejected, hgaveUp⟩
  | giveUp hlocked => exact absurd (State.AtRest.lock_eq hpaced) hlocked
  | enqueue hlock _ =>
    have hnone := hrefs hlock
    refine ⟨fun hcopied => (by cases hcopied), ?_, by simp [State.enqueue], hrejected, hgaveUp⟩
    change s.refs + 1 + s.taken ≤ 1
    omega
  | overflow hlock hfull =>
    have hnone := hrefs hlock
    omega
  | accept _ =>
    exact ⟨fun hcopied => (by cases hcopied), hle, by simp [State.accept], hrejected, hgaveUp⟩
  | reject hlock => exact absurd hlock hnotFull
  | wake hwaits hr =>
    have hone : s.refs = 1 := by omega
    refine ⟨fun hcopied => ?_, by simp [State.wake, State.taken, hone], hnotFull, hrejected,
      hgaveUp⟩
    have hnone := hrefs hcopied
    omega
  | refuse hreading _ | handle hreading _ =>
    rw [State.taken, hreading, Bool.toNat_true] at hrefs hle
    refine ⟨fun hcopied => ?_, Nat.le_of_succ_le hle, hnotFull, hrejected, hgaveUp⟩
    have hnone := hrefs hcopied
    omega
  | rest _ _ => exact ⟨hrefs, hle, hnotFull, hrejected, hgaveUp⟩

/-- Logs that have neither gained nor lost anything still deliver. -/
theorem Delivered.of_eq {s t : State M S O} (h : Delivered s) (hhandled : t.handled = s.handled)
    (hrefused : t.refused = s.refused) (houtstanding : t.outstanding = s.outstanding)
    (harriving : t.accepted ++ t.arriving = s.accepted ++ s.arriving)
    (hcopied : t.copied = t.accepted.map Prod.snd ++ if t.lock = .free then [] else [t.current]) :
    Delivered t := by
  refine ⟨?_, ?_, hcopied⟩
  · rw [hhandled, houtstanding, harriving]
    exact h.handled_sublist
  · rw [hhandled, hrefused, houtstanding, harriving]
    exact h.accepted_mem

/-- While the consumer reads, the latest message is the one outstanding. -/
theorem Paced.outstanding_eq {s : State M S O} (h : Paced s) (hreading : s.reading = true) :
    s.outstanding = [s.latest] ∧ s.refs = 0 := by
  have hle := h.refs_le
  rw [State.taken, hreading, Bool.toNat_true] at hle
  exact ⟨by simp [State.outstanding, State.taken, hreading], by omega⟩

/-- Every step that is itself paced goes on delivering. A reference that is used up moves
the latest message from those outstanding to those handled or refused. -/
theorem Delivered.step (hcap : 0 < cap) {s t : State M S O} {e : Event M} (hpaced : PacedAt s e)
    (hs : Paced s) (h : Delivered s) (hstep : Step cap c s e t) : Delivered t := by
  have hcopied := h.copied_eq
  cases hstep with
  | copy hlock =>
    have hrest : s.AtRest := hpaced
    have hnone := hrest.refs_add_taken
    refine h.of_eq rfl rfl ?_ ?_ ?_
    · rw [State.outstanding, State.outstanding, if_pos hnone]
      exact if_pos hnone
    · simp [State.arriving, State.copy, hlock]
    · rw [hlock, if_pos rfl, List.append_nil] at hcopied
      simp [State.copy, hcopied]
  | giveUp hlocked => exact absurd (State.AtRest.lock_eq hpaced) hlocked
  | enqueue hlock _ =>
    have hnone := hs.refs_eq hlock
    obtain ⟨hsublist, hmem, -⟩ := h
    unfold State.outstanding State.arriving at hsublist hmem
    rw [if_pos hnone, hlock] at hsublist hmem
    simp only [reduceCtorEq, if_false, List.append_nil] at hsublist hmem
    have hone : s.enqueue.outstanding = [s.latest] := by
      simp [State.outstanding, State.enqueue, State.latest]
    rw [hlock] at hcopied
    refine ⟨?_, ?_, hcopied⟩
    · rw [hone]
      exact hsublist.append (List.Sublist.refl [s.latest])
    · rw [hone]
      intro p hp
      rcases List.mem_append.mp hp with hp | hp
      · rcases hmem p hp with hhandled | hrefused | hnone
        · exact .inl hhandled
        · exact .inr (.inl hrefused)
        · cases hnone
      · exact .inr (.inr hp)
  | overflow hlock hfull =>
    have hnone := hs.refs_eq hlock
    omega
  | accept hlock =>
    refine h.of_eq rfl rfl rfl ?_ ?_
    · simp [State.accept, State.arriving, hlock]
    · simpa [State.accept, State.latest, hlock] using hcopied
  | reject hlock => exact absurd hlock hs.not_full
  | wake hwaits hr =>
    have hone : s.refs = 1 := by
      have hle := hs.refs_le
      omega
    refine h.of_eq rfl rfl ?_ rfl hcopied
    simp [State.outstanding, State.wake, State.taken, State.latest, hone]
  | refuse hreading hlocked =>
    obtain ⟨hone, hrefs⟩ := hs.outstanding_eq hreading
    obtain ⟨hsublist, hmem, -⟩ := h
    rw [hone] at hsublist hmem
    have hnone : s.refuse.outstanding = [] := by
      simp [State.outstanding, State.refuse, State.taken, hrefs]
    refine ⟨?_, ?_, hcopied⟩
    · rw [hnone, List.append_nil]
      exact (List.sublist_append_left _ _).trans hsublist
    · rw [hnone]
      intro p hp
      rcases hmem p hp with hhandled | hrefused | hlatest
      · exact .inl hhandled
      · exact .inr (.inl (List.mem_append_left _ hrefused))
      · exact .inr (.inl (List.mem_append_right _ hlatest))
  | handle hreading hlock =>
    obtain ⟨hone, hrefs⟩ := hs.outstanding_eq hreading
    obtain ⟨hsublist, hmem, -⟩ := h
    rw [hone] at hsublist hmem
    have hnone : (s.handle c).outstanding = [] := by
      simp [State.outstanding, State.handle, State.taken, hrefs]
    refine ⟨?_, ?_, hcopied⟩
    · rw [hnone, List.append_nil]
      exact hsublist
    · rw [hnone]
      intro p hp
      rcases hmem p hp with hhandled | hrefused | hlatest
      · exact .inl (List.mem_append_left _ hhandled)
      · exact .inr (.inl hrefused)
      · exact .inl (List.mem_append_right _ hlatest)
  | rest _ _ => exact h.of_eq rfl rfl rfl rfl hcopied

/-- **Exactly once.** When every publish of a run starts while nothing is under way, no
publish fails; and when nothing is under way in the end, the messages accepted are the
messages copied, and each of them, in this order, was handled once or its own read was
refused. -/
theorem exec_paced (hcap : 0 < cap) {m : M} {x : S} {es : List (Event M)} {t : State M S O}
    (hpaced : Runs.Along (step cap c) PacedAt (State.initial m x) es)
    (hrun : Runs.exec (step cap c) (State.initial m x) es = some t) :
    t.rejected = [] ∧ t.gaveUp = [] ∧ (t.AtRest → t.accepted.map Prod.snd = t.copied ∧
      t.handled.Sublist t.accepted ∧ ∀ p ∈ t.accepted, p ∈ t.handled ∨ p ∈ t.refused) := by
  have hdelivered : Delivered (State.initial m x : State M S O) :=
    ⟨List.Sublist.refl _, by simp [State.initial, State.arriving], rfl⟩
  obtain ⟨hs, hd⟩ := Runs.exec_invariant (I := fun s => Paced s ∧ Delivered s)
    (fun s e u he hs hu => ⟨hs.1.step hcap he (.of_step hu), hs.2.step hcap he hs.1 (.of_step hu)⟩)
    hpaced ⟨.initial m x, hdelivered⟩ hrun
  refine ⟨hs.rejected_eq, hs.gaveUp_eq, fun hrest => ?_⟩
  obtain ⟨hsublist, hmem, hcopied⟩ := hd
  have hnone : t.outstanding = [] := if_pos hrest.refs_add_taken
  have harriving : t.arriving = [] := by simp [State.arriving, hrest.lock_eq]
  rw [hnone, harriving, List.append_nil, List.append_nil] at hsublist
  rw [hnone, harriving, List.append_nil] at hmem
  rw [hrest.lock_eq, if_pos rfl, List.append_nil] at hcopied
  refine ⟨hcopied.symm, hsublist, fun p hp => ?_⟩
  simpa using hmem p hp

/-- A paced step that is no read between a notification and its unlock is refused nothing. -/
theorem Paced.refused_eq {s t : State M S O} {e : Event M} (hs : Paced s)
    (hatomic : AtomicRead s e) (hstep : Step cap c s e t) (h : s.refused = []) :
    t.refused = [] := by
  cases hstep with
  | refuse hreading hlocked =>
    -- The lock is held by a publish that has notified, or by one before any reference.
    have hnotified : s.lock.notified = false := hatomic
    cases hlock : s.lock with
    | free => exact absurd hlock hlocked
    | copied =>
      have hnone := hs.refs_eq hlock
      simp [State.taken, hreading] at hnone
    | queued => simp [hlock, Lock.notified] at hnotified
    | full => simp [hlock, Lock.notified] at hnotified
  | copy _ | giveUp _ | enqueue _ _ | overflow _ _ | accept _ | reject _ | wake _ _ | handle _ _
  | rest _ _ => exact h

/-- When moreover no read falls between a notification and its unlock, every message is
handled exactly once, in order. -/
theorem exec_paced_handled (hcap : 0 < cap) {m : M} {x : S} {es : List (Event M)}
    {t : State M S O} (hpaced : Runs.Along (step cap c) PacedAt (State.initial m x) es)
    (hatomic : Runs.Along (step cap c) AtomicRead (State.initial m x) es)
    (hrun : Runs.exec (step cap c) (State.initial m x) es = some t) (hrest : t.AtRest) :
    t.handled = t.accepted := by
  have hrefused : t.refused = [] :=
    (Runs.exec_invariant (I := fun s : State M S O => Paced s ∧ s.refused = [])
      (fun s e u he hs hu => ⟨hs.1.step hcap he.1 (.of_step hu),
        hs.1.refused_eq he.2 (.of_step hu) hs.2⟩)
      (Runs.along_and hpaced hatomic) ⟨.initial m x, rfl⟩ hrun).2
  obtain ⟨-, -, hend⟩ := exec_paced hcap hpaced hrun
  have hrefs := ((Accounted.initial (O := O) m x).exec hrun).refs_eq
  simp only [hrefused, State.taken, hrest.reading_eq, hrest.refs_eq, State.queuing, hrest.lock_eq,
    reduceCtorEq, if_false, List.length_nil, Bool.toNat_false, Nat.add_zero] at hrefs
  exact (hend hrest).2.1.eq_of_length hrefs

end OneSlot
