import LedMatrix.Delivery
import LedMatrix.Lib.OneSlotProgress

/-!
# The system settles

When no more requests come, a publish under way still has to notify `led_sub` and to unlock
`led_chan`, and `thread_led` still has to take the references that are queued and to read
the channel. All this happens after a bounded number of steps, whatever their order and
however often the thread times out in between. If no read falls between a notification and
its unlock, the thread has then obeyed the last message of all.
-/

namespace LedMatrix

variable {cfg : Config} {json : JsonObjParse} {es : List SysEvent} {s : Sys cfg}

/-- The event is no request. -/
def SysEvent.Internal : SysEvent → Prop
  | .request _ _ => False
  | .bus _ => True

/-- The event does something that is pending. -/
def SysEvent.works : SysEvent → Bool
  | .request _ _ => false
  | .bus a => a.works

/-- An event that works is no request. -/
theorem SysEvent.Internal.of_works {e : SysEvent} (h : e.works = true) : e.Internal := by
  cases e with
  | request q ready => cases h
  | bus a => trivial

/-- A step that is no request takes back nothing that is pending, and copies nothing. -/
theorem Sys.internal_pending {e : SysEvent} {t : Sys cfg} (he : e.Internal)
    (ht : Sys.step cfg json s e = some t) :
    e.works.toNat + t.bus.pending ≤ s.bus.pending ∧ t.bus.copied = s.bus.copied := by
  cases e with
  | request q ready => exact he.elim
  | bus a =>
    obtain ⟨bus, hbus, rfl⟩ := Option.map_eq_some_iff.mp ht
    have hchannel := OneSlot.Step.of_step hbus
    exact ⟨hchannel.pending_le, hchannel.copied_eq⟩

/-- While something is pending, a step that works is possible, and one that is no read
between a notification and its unlock. -/
theorem Sys.exists_step_works (json : JsonObjParse) (h : 0 < s.bus.pending) :
    ∃ e t, SysEvent.works e = true ∧ Sys.AtomicRead cfg json s e ∧
      Sys.step cfg json s e = some t := by
  obtain ⟨a, bus, hworks, hatomic, hbus⟩ :=
    OneSlot.exists_step_works ledSubQueueSize (threadLed cfg) h
  refine ⟨.bus a, { s with bus := bus }, hworks, ?_, Option.map_eq_some_iff.mpr ⟨bus, hbus, rfl⟩⟩
  intro l hl
  obtain rfl := List.mem_singleton.mp hl
  exact hatomic

/-- When nothing is pending, the thread has obeyed the last message copied, if there is
one; a TOGGLE dictates nothing. -/
theorem Sys.exec_at_rest
    (hatomic : Runs.Along (Sys.step cfg json) (Sys.AtomicRead cfg json) (Sys.initial cfg) es)
    (hrun : Runs.exec (Sys.step cfg json) (Sys.initial cfg) es = some s)
    (hrest : s.bus.pending = 0) :
    s.bus.copied = [] ∨ ∃ msg, s.bus.copied.getLast? = some msg ∧
      s.bus.handled.getLast? = some (s.bus.copied.length, msg) ∧
      (msg.action ≠ .toggle → Obeys msg s.bus.consumer) := by
  rcases Sys.exec_latest hatomic hrun (OneSlot.State.pending_eq_zero.mp hrest) with
    ⟨hcopied, -, -⟩ | ⟨hlast, hhandled, y, n, hn⟩
  · exact .inl hcopied
  · refine .inr ⟨s.bus.current, hlast, hhandled, fun htoggle => ?_⟩
    rw [hn]
    exact (Obeys.onMessage y htoggle).onTimeouts n

/-- **Requests settle.** In every reachable state at most thirteen steps are pending. From
there on, as long as no other request comes, and however often the thread times out: each
notification, unlock, reference taken and read uses up what is pending; when none of them
is possible any more, and none of the reads so far fell between a notification and its
unlock, the thread has handled the last message copied last, and obeys it; and such an end
can be reached from everywhere, without such reads. -/
theorem requests_settle (hrun : Runs.exec (Sys.step cfg json) (Sys.initial cfg) es = some s) :
    s.bus.pending ≤ 13 ∧
    ∀ fs t, (∀ e ∈ fs, SysEvent.Internal e) → Runs.exec (Sys.step cfg json) s fs = some t →
      fs.countP SysEvent.works + t.bus.pending ≤ s.bus.pending ∧
      ((∀ e, SysEvent.works e = true → Sys.step cfg json t e = none) →
        Runs.Along (Sys.step cfg json) (Sys.AtomicRead cfg json) (Sys.initial cfg) (es ++ fs) →
        s.bus.copied = [] ∨ ∃ msg, s.bus.copied.getLast? = some msg ∧
          t.bus.handled.getLast? = some (s.bus.copied.length, msg) ∧
          (msg.action ≠ .toggle → Obeys msg t.bus.consumer)) ∧
      ∃ gs u, (∀ e ∈ gs, SysEvent.works e = true) ∧
        Runs.Along (Sys.step cfg json) (Sys.AtomicRead cfg json) t gs ∧
        Runs.exec (Sys.step cfg json) t gs = some u ∧ u.bus.pending = 0 := by
  constructor
  · obtain ⟨ls, hls⟩ := Sys.exec_channel hrun
    exact OneSlot.exec_pending_le hls
  intro fs t hinternal hfs
  have hcopied : t.bus.copied = s.bus.copied :=
    Runs.exec_invariant (G := fun _ e => SysEvent.Internal e)
      (I := fun u : Sys cfg => u.bus.copied = s.bus.copied)
      (fun u e v he hu hv => (Sys.internal_pending he hv).2.trans hu)
      (Runs.along_of_labels hinternal) rfl hfs
  refine ⟨?_, ?_, ?_⟩
  · exact Runs.exec_rank (fun u : Sys cfg => u.bus.pending)
      (fun u e v he hv => (Sys.internal_pending he hv).1) hinternal hfs
  · intro hstuck hatomic
    have hrest : t.bus.pending = 0 := by
      by_contra hpending
      obtain ⟨e, u, hworks, -, hu⟩ := Sys.exists_step_works json (Nat.pos_of_ne_zero hpending)
      rw [hstuck e hworks] at hu
      cases hu
    have hreach := Runs.exec_append_eq_some.mpr ⟨s, hrun, hfs⟩
    rw [← hcopied]
    exact Sys.exec_at_rest hatomic hreach hrest
  · obtain ⟨gs, u, hguard, hgs, hrest⟩ := Runs.exists_exec_rank_zero
      (G := fun u e => SysEvent.works e = true ∧ Sys.AtomicRead cfg json u e)
      (fun u : Sys cfg => u.bus.pending) (fun u hpending => by
        obtain ⟨e, v, hworks, hatomic, hv⟩ := Sys.exists_step_works json hpending
        have hless := (Sys.internal_pending (.of_works hworks) hv).1
        rw [hworks, Bool.toNat_true] at hless
        exact ⟨e, v, ⟨hworks, hatomic⟩, hv, by omega⟩) t
    exact ⟨gs, u, (Runs.along_labels_iff hgs).mp (Runs.along_mono (fun _ _ h => h.1) hguard),
      Runs.along_mono (fun _ _ h => h.2) hguard, hgs, hrest⟩

/-- A pixel published twice before the thread runs: six steps are pending, and no run
without other requests does more. -/
theorem requests_settle_pixelPost :
    ∃ s, Runs.exec (Sys.step .default decodesTwo) (Sys.initial .default)
        [.request pixelPost none, .bus .put, .bus .unlock, .request pixelPost none] = some s ∧
      ∀ fs t, (∀ e ∈ fs, SysEvent.Internal e) →
        Runs.exec (Sys.step .default decodesTwo) s fs = some t → fs.countP SysEvent.works ≤ 6 := by
  obtain ⟨s, hs⟩ : ∃ s, Runs.exec (Sys.step .default decodesTwo) (Sys.initial .default)
      [.request pixelPost none, .bus .put, .bus .unlock, .request pixelPost none] = some s :=
    ⟨_, rfl⟩
  have hpending : s.bus.pending = 6 := by
    obtain rfl := Option.some.inj hs
    rfl
  refine ⟨s, hs, fun fs t hinternal hfs => ?_⟩
  have hcount := ((requests_settle hs).2 fs t hinternal hfs).1
  omega

end LedMatrix
