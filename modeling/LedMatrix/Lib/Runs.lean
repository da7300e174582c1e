import Mathlib.Algebra.Ring.Int.Defs
import Mathlib.Data.List.Basic

/-!
# Runs of partial labelled transitions

A system is a partial step function: `none` says that a label is not enabled
in a state. Every interleaving of a concurrent system is then one list of
labels, and a property of all its runs is proved once for a step. Nothing here
depends on what the states and the labels are.
-/

namespace Runs

variable {S T E F A : Type*}

/-- Execute a list of labels in order; `none` when one of them is not enabled
where it occurs. -/
def exec (step : S → E → Option S) : S → List E → Option S
  | s, [] => some s
  | s, e :: es => (step s e).bind fun t => exec step t es

@[simp] theorem exec_nil (step : S → E → Option S) (s : S) : exec step s [] = some s := rfl

/-- A nonempty run splits into its first step and the run from there. -/
theorem exec_cons_eq_some {step : S → E → Option S} {s u : S} {e : E} {es : List E} :
    exec step s (e :: es) = some u ↔ ∃ t, step s e = some t ∧ exec step t es = some u := by
  simp only [exec, Option.bind_eq_some_iff]

/-- Runs compose: executing a concatenation continues from the middle state. -/
theorem exec_append (step : S → E → Option S) (s : S) (es fs : List E) :
    exec step s (es ++ fs) = (exec step s es).bind fun t => exec step t fs := by
  induction es generalizing s with
  | nil => rfl
  | cons e es ih =>
    simp only [List.cons_append, exec, Option.bind_assoc]
    exact congrArg _ (funext fun t => ih t)

/-- A run of a concatenation splits at the middle state. -/
theorem exec_append_eq_some {step : S → E → Option S} {s u : S} {es fs : List E} :
    exec step s (es ++ fs) = some u ↔ ∃ t, exec step s es = some t ∧ exec step t fs = some u := by
  rw [exec_append, Option.bind_eq_some_iff]

/-- A prefix of a run is a run. -/
theorem exec_of_prefix {step : S → E → Option S} {s u : S} {pre es : List E} (hpre : pre <+: es)
    (hrun : exec step s es = some u) : ∃ t, exec step s pre = some t := by
  obtain ⟨fs, rfl⟩ := hpre
  obtain ⟨t, ht, -⟩ := exec_append_eq_some.mp hrun
  exact ⟨t, ht⟩

/-- Before a label of a run, the run has come to a state that enables it. -/
theorem step_of_prefix {step : S → E → Option S} {s u : S} {pre es : List E} {e : E}
    (hpre : pre ++ [e] <+: es) (hrun : exec step s es = some u) :
    ∃ t v, exec step s pre = some t ∧ step t e = some v := by
  obtain ⟨v, hv⟩ := exec_of_prefix hpre hrun
  obtain ⟨t, ht, hlast⟩ := exec_append_eq_some.mp hv
  obtain ⟨w, hw, -⟩ := exec_cons_eq_some.mp hlast
  exact ⟨t, w, ht, hw⟩

/-- The condition `G` holds at every step of the run, of the state before the
step and of its label. -/
def Along (step : S → E → Option S) (G : S → E → Prop) : S → List E → Prop
  | _, [] => True
  | s, e :: es => G s e ∧ ∀ t, step s e = some t → Along step G t es

/-- Along a run whose first step leads to `t`. -/
theorem along_cons_iff {step : S → E → Option S} {G : S → E → Prop} {s t : S} {e : E}
    {es : List E} (ht : step s e = some t) :
    Along step G s (e :: es) ↔ G s e ∧ Along step G t es := by
  refine and_congr_right fun _ => ⟨fun halong => halong t ht, fun halong t' ht' => ?_⟩
  obtain rfl := Option.some.inj (ht.symm.trans ht')
  exact halong

/-- A condition on the labels alone holds along every run over such labels. -/
theorem along_of_labels {step : S → E → Option S} {A : E → Prop} {s : S} {es : List E}
    (h : ∀ e ∈ es, A e) : Along step (fun _ e => A e) s es := by
  induction es generalizing s with
  | nil => trivial
  | cons e es ih =>
    exact ⟨h e (by simp), fun t _ => ih fun e' he' => h e' (by simp [he'])⟩

/-- Along a run, a condition on the labels alone is one on each of them. -/
theorem along_labels_iff {step : S → E → Option S} {A : E → Prop} {s u : S} {es : List E}
    (hrun : exec step s es = some u) : Along step (fun _ e => A e) s es ↔ ∀ e ∈ es, A e := by
  refine ⟨fun halong => ?_, along_of_labels⟩
  induction es generalizing s with
  | nil => exact List.forall_mem_nil _
  | cons e es ih =>
    obtain ⟨t, ht, hrun⟩ := exec_cons_eq_some.mp hrun
    obtain ⟨he, hes⟩ := (along_cons_iff ht).mp halong
    exact List.forall_mem_cons.mpr ⟨he, ih hrun hes⟩

/-- A condition along a run holds along it when it is weakened. -/
theorem along_mono {step : S → E → Option S} {G H : S → E → Prop} (h : ∀ s e, G s e → H s e)
    {s : S} {es : List E} (halong : Along step G s es) : Along step H s es := by
  induction es generalizing s with
  | nil => trivial
  | cons e es ih => exact ⟨h s e halong.1, fun t ht => ih (halong.2 t ht)⟩

/-- Two conditions along a run hold along it together. -/
theorem along_and {step : S → E → Option S} {G H : S → E → Prop} {s : S} {es : List E}
    (hG : Along step G s es) (hH : Along step H s es) :
    Along step (fun s e => G s e ∧ H s e) s es := by
  induction es generalizing s with
  | nil => trivial
  | cons e es ih => exact ⟨⟨hG.1, hH.1⟩, fun t ht => ih (hG.2 t ht) (hH.2 t ht)⟩

/-- A condition that can be decided for each step can be decided for each run. -/
instance decidableAlong (step : S → E → Option S) (G : S → E → Prop)
    [∀ s e, Decidable (G s e)] : ∀ s es, Decidable (Along step G s es)
  | _, [] => isTrue trivial
  | s, e :: es =>
    match ht : step s e with
    | none =>
      decidable_of_iff (G s e) ⟨fun he => ⟨he, fun t ht' => by rw [ht] at ht'; cases ht'⟩, And.left⟩
    | some t =>
      have := decidableAlong step G t es
      decidable_of_iff (G s e ∧ Along step G t es) (along_cons_iff ht).symm

/-- A condition along two runs in a row holds along the first one, and along the
second one from where the first ends. -/
theorem along_append {step : S → E → Option S} {G : S → E → Prop} {s : S} {es fs : List E} :
    Along step G s (es ++ fs) ↔
      Along step G s es ∧ ∀ t, exec step s es = some t → Along step G t fs := by
  induction es generalizing s with
  | nil => simp [Along]
  | cons e es ih =>
    simp only [List.cons_append, Along, exec_cons_eq_some, ih]
    constructor
    · rintro ⟨he, hrest⟩
      refine ⟨⟨he, fun t ht => (hrest t ht).1⟩, ?_⟩
      rintro u ⟨t, ht, hu⟩
      exact (hrest t ht).2 u hu
    · rintro ⟨⟨he, hes⟩, hfs⟩
      exact ⟨he, fun t ht => ⟨hes t ht, fun u hu => hfs u ⟨t, ht, hu⟩⟩⟩

/-- An invariant that every conforming step preserves holds at the end of every
conforming run. -/
theorem exec_invariant {step : S → E → Option S} {G : S → E → Prop} {I : S → Prop}
    (hstep : ∀ s e t, G s e → I s → step s e = some t → I t) {s u : S} {es : List E}
    (halong : Along step G s es) (hs : I s) (hrun : exec step s es = some u) : I u := by
  induction es generalizing s with
  | nil =>
    obtain rfl : s = u := by simpa using hrun
    exact hs
  | cons e es ih =>
    obtain ⟨t, ht, hrun⟩ := exec_cons_eq_some.mp hrun
    exact ih (halong.2 t ht) (hstep s e t halong.1 hs ht) hrun

/-- An invariant that every step preserves holds at the end of every run. -/
theorem exec_preserves {step : S → E → Option S} {I : S → Prop}
    (hstep : ∀ s e t, I s → step s e = some t → I t) {s u : S} {es : List E}
    (hs : I s) (hrun : exec step s es = some u) : I u :=
  exec_invariant (G := fun _ _ => True) (fun s e t _ => hstep s e t)
    (along_of_labels fun _ _ => trivial) hs hrun

/-- When every step from a state in `I` keeps `P` exactly if it meets `G`, a whole
run keeps `P` exactly if `G` holds along it. -/
theorem exec_along_iff {step : S → E → Option S} {G : S → E → Prop} {I P : S → Prop}
    (hstep : ∀ s e t, I s → step s e = some t → I t ∧ (P t ↔ P s ∧ G s e)) {s u : S} {es : List E}
    (hs : I s) (hrun : exec step s es = some u) : P u ↔ P s ∧ Along step G s es := by
  induction es generalizing s with
  | nil =>
    obtain rfl : s = u := by simpa using hrun
    exact (and_iff_left trivial).symm
  | cons e es ih =>
    obtain ⟨t, ht, hrun⟩ := exec_cons_eq_some.mp hrun
    obtain ⟨hI, hP⟩ := hstep s e t hs ht
    rw [ih hI hrun, hP, and_assoc, along_cons_iff ht]

/-- **The exact condition on steps.** When an invariant entails `Q`, a step that meets
`G` keeps it, and a step that does not breaks `Q`, then `Q` holds in every state of a
run exactly when `G` holds along it. -/
theorem exec_prefix_iff_along {step : S → E → Option S} {G : S → E → Prop} {I Q : S → Prop}
    (hgood : ∀ s, I s → Q s) (hkeep : ∀ s e t, I s → step s e = some t → G s e → I t)
    (hbreak : ∀ s e t, I s → step s e = some t → ¬ G s e → ¬ Q t) {s u : S} {es : List E}
    (hs : I s) (hrun : exec step s es = some u) :
    (∀ pre t, pre <+: es → exec step s pre = some t → Q t) ↔ Along step G s es := by
  induction es generalizing s with
  | nil =>
    refine iff_of_true (fun pre t hpre ht => ?_) trivial
    obtain rfl := List.prefix_nil.mp hpre
    obtain rfl : s = t := by simpa using ht
    exact hgood s hs
  | cons e es ih =>
    obtain ⟨t, ht, hrun⟩ := exec_cons_eq_some.mp hrun
    by_cases he : G s e
    · have hrest := ih (hkeep s e t hs ht he) hrun
      rw [along_cons_iff ht, and_iff_right he, ← hrest]
      constructor
      · intro hall pre u hpre hu
        exact hall (e :: pre) u (List.cons_prefix_cons.mpr ⟨rfl, hpre⟩)
          (exec_cons_eq_some.mpr ⟨t, ht, hu⟩)
      · intro hall pre u hpre hu
        cases pre with
        | nil =>
          obtain rfl : s = u := by simpa using hu
          exact hgood s hs
        | cons e' pre =>
          obtain ⟨rfl, htail⟩ := List.cons_prefix_cons.mp hpre
          obtain ⟨t', ht', hu'⟩ := exec_cons_eq_some.mp hu
          obtain rfl := Option.some.inj (ht.symm.trans ht')
          exact hall pre u htail hu'
    · refine iff_of_false (fun hall => ?_) fun halong => he halong.1
      exact hbreak s e t hs ht he
        (hall [e] t (by simp) (exec_cons_eq_some.mpr ⟨t, ht, rfl⟩))

/-- **Runs over uses.** When every step from a state with the invariant is a run of
another system over the labels of the step, so is every run over the labels of its
steps, one after another. -/
theorem exec_flatMap {step : S → E → Option S} {step' : T → F → Option T} {f : S → T}
    {labels : E → List F} {I : S → Prop}
    (h : ∀ s e t, I s → step s e = some t → I t ∧ exec step' (f s) (labels e) = some (f t))
    {s u : S} {es : List E} (hs : I s) (hrun : exec step s es = some u) :
    I u ∧ exec step' (f s) (es.flatMap labels) = some (f u) := by
  induction es generalizing s with
  | nil =>
    obtain rfl : s = u := by simpa using hrun
    exact ⟨hs, rfl⟩
  | cons e es ih =>
    obtain ⟨t, ht, hrun⟩ := exec_cons_eq_some.mp hrun
    obtain ⟨hI, hlabels⟩ := h s e t hs ht
    obtain ⟨hu, hrest⟩ := ih hI hrun
    refine ⟨hu, ?_⟩
    rw [List.flatMap_cons, exec_append, hlabels]
    exact hrest

/-- **Refinement of runs.** When every step of one system that meets `G` is a
run of another along which `G'` holds, so is every run along which `G` holds. -/
theorem exec_refines {step : S → E → Option S} {step' : T → F → Option T} {f : S → T}
    {labels : S → E → List F} {G : S → E → Prop} {G' : T → F → Prop}
    (h : ∀ s e t, G s e → step s e = some t →
      exec step' (f s) (labels s e) = some (f t) ∧ Along step' G' (f s) (labels s e))
    {s u : S} {es : List E} (halong : Along step G s es) (hrun : exec step s es = some u) :
    ∃ fs, exec step' (f s) fs = some (f u) ∧ Along step' G' (f s) fs := by
  induction es generalizing s with
  | nil =>
    obtain rfl : s = u := by simpa using hrun
    exact ⟨[], rfl, trivial⟩
  | cons e es ih =>
    obtain ⟨t, ht, hrun⟩ := exec_cons_eq_some.mp hrun
    obtain ⟨hstep, hguard⟩ := h s e t halong.1 ht
    obtain ⟨fs, hfs, hguards⟩ := ih (halong.2 t ht) hrun
    refine ⟨labels s e ++ fs, ?_, ?_⟩
    · rw [exec_append, hstep]
      exact hfs
    · rw [along_append]
      refine ⟨hguard, fun t' ht' => ?_⟩
      obtain rfl : f t = t' := Option.some.inj (hstep.symm.trans ht')
      exact hguards

/-! ## Translated labels -/

/-- A translation of labels that remembers what it has read: `next` is its memory after
a label, and `labels` what the label stands for. -/
def translate (next : A → E → A) (labels : A → E → List F) : A → List E → List F
  | _, [] => []
  | a, e :: es => labels a e ++ translate next labels (next a e) es

/-- **Refinement by translation.** When each step does what its translation does in
the other system, as long as the memory of the translation is related to the state,
so does each run. -/
theorem exec_translate {step : S → E → Option S} {step' : T → F → Option T} {f : S → T}
    {next : A → E → A} {labels : A → E → List F} {R : S → A → Prop}
    (h : ∀ s a e, R s a → (step s e).map f = exec step' (f s) (labels a e) ∧
      ∀ t, step s e = some t → R t (next a e)) {s : S} {a : A} (hs : R s a) (es : List E) :
    (exec step s es).map f = exec step' (f s) (translate next labels a es) ∧
      ∀ t, exec step s es = some t → R t (es.foldl next a) := by
  induction es generalizing s a with
  | nil =>
    refine ⟨rfl, fun t ht => ?_⟩
    obtain rfl : s = t := by simpa using ht
    exact hs
  | cons e es ih =>
    obtain ⟨hmap, hnext⟩ := h s a e hs
    rw [translate, exec_append, ← hmap]
    cases hstep : step s e with
    | none => simp [exec, hstep]
    | some t =>
      obtain ⟨hrest, hend⟩ := ih (hnext t hstep)
      simp only [exec, hstep, Option.bind_some, Option.map_some, List.foldl_cons]
      exact ⟨hrest, hend⟩

/-- Along a run whose steps meet `G`, the steps of its translation meet `G'`, when those
of each single step do. -/
theorem along_translate {step : S → E → Option S} {step' : T → F → Option T} {f : S → T}
    {next : A → E → A} {labels : A → E → List F} {R : S → A → Prop} {G : S → E → Prop}
    {G' : T → F → Prop}
    (h : ∀ s a e, R s a → (step s e).map f = exec step' (f s) (labels a e) ∧
      ∀ t, step s e = some t → R t (next a e))
    (hguard : ∀ s a e, R s a → G s e → Along step' G' (f s) (labels a e))
    {s : S} {a : A} (hs : R s a) {es : List E} (halong : Along step G s es) :
    Along step' G' (f s) (translate next labels a es) := by
  induction es generalizing s a with
  | nil => trivial
  | cons e es ih =>
    obtain ⟨hmap, hnext⟩ := h s a e hs
    refine along_append.mpr ⟨hguard s a e hs halong.1, fun u hu => ?_⟩
    rw [← hmap] at hu
    obtain ⟨t, ht, rfl⟩ := Option.map_eq_some_iff.mp hu
    exact ih (hnext t ht) (halong.2 t ht)

/-! ## Rankings -/

/-- **A ranking bounds the work of a run.** When no allowed step raises the rank and every
step that works lowers it, a run has at most as many of these as it starts with. -/
theorem exec_rank {step : S → E → Option S} (rank : S → ℕ) {allowed : E → Prop} {works : E → Bool}
    (hstep : ∀ s e t, allowed e → step s e = some t → (works e).toNat + rank t ≤ rank s)
    {s u : S} {es : List E} (hallowed : ∀ e ∈ es, allowed e) (hrun : exec step s es = some u) :
    es.countP works + rank u ≤ rank s := by
  induction es generalizing s with
  | nil =>
    obtain rfl : s = u := by simpa using hrun
    simp
  | cons e es ih =>
    obtain ⟨t, ht, hrun⟩ := exec_cons_eq_some.mp hrun
    obtain ⟨he, hes⟩ := List.forall_mem_cons.mp hallowed
    have hfirst := hstep s e t he ht
    have hrest := ih hes hrun
    cases hworks : works e with
    | true =>
      rw [hworks, Bool.toNat_true] at hfirst
      rw [List.countP_cons_of_pos hworks]
      omega
    | false =>
      rw [hworks, Bool.toNat_false] at hfirst
      rw [List.countP_cons_of_neg (by simp [hworks])]
      omega

/-- **A ranking leads to its end.** When every state of positive rank has a step that meets
`G` to a lower rank, a run over such steps leads to rank zero. -/
theorem exists_exec_rank_zero {step : S → E → Option S} (rank : S → ℕ) {G : S → E → Prop}
    (hstep : ∀ s, 0 < rank s → ∃ e t, G s e ∧ step s e = some t ∧ rank t < rank s) (s : S) :
    ∃ es u, Along step G s es ∧ exec step s es = some u ∧ rank u = 0 := by
  induction hn : rank s using Nat.strongRecOn generalizing s with
  | ind n ih =>
    rcases Nat.eq_zero_or_pos n with hzero | hpos
    · exact ⟨[], s, trivial, rfl, hn.trans hzero⟩
    · obtain ⟨e, t, he, ht, hlt⟩ := hstep s (by omega)
      obtain ⟨es, u, hes, hu, hrank⟩ := ih (rank t) (by omega) t rfl
      exact ⟨e :: es, u, (along_cons_iff ht).mpr ⟨he, hes⟩,
        exec_cons_eq_some.mpr ⟨t, ht, hu⟩, hrank⟩

/-- A run seen through `f` is the run of the system that takes the steps seen through `f`. -/
theorem exec_map {step : S → E → Option S} {step' : T → E → Option T} {f : S → T}
    (hstep : ∀ s e, (step s e).map f = step' (f s) e) (s : S) (es : List E) :
    (exec step s es).map f = exec step' (f s) es := by
  induction es generalizing s with
  | nil => rfl
  | cons e es ih =>
    rw [exec, exec, ← hstep]
    cases step s e with
    | none => rfl
    | some t => exact ih t

/-- A relation between the labels taken so far and the state, kept by every step, holds
after every run. -/
theorem exec_history {step : S → E → Option S} {R : List E → S → Prop}
    (hstep : ∀ es s e t, R es s → step s e = some t → R (es ++ [e]) t) {s u : S} {es fs : List E}
    (hs : R fs s) (hrun : exec step s es = some u) : R (fs ++ es) u := by
  induction es generalizing s fs with
  | nil =>
    obtain rfl : s = u := by simpa using hrun
    rwa [List.append_nil]
  | cons e es ih =>
    obtain ⟨t, ht, hrun⟩ := exec_cons_eq_some.mp hrun
    have hrest := ih (hstep fs s e t hs ht) hrun
    rwa [List.append_assoc] at hrest

/-- **The potential method.** When every step from a state with the invariant keeps it and
raises the potential by no more than its cost, a run raises it by no more than the costs
of its steps. -/
theorem exec_potential {step : S → E → Option S} {I : S → Prop} (potential : S → ℤ) {cost : E → ℤ}
    (hstep : ∀ s e t, I s → step s e = some t → I t ∧ potential t ≤ potential s + cost e)
    {s u : S} {es : List E} (hs : I s) (hrun : exec step s es = some u) :
    I u ∧ potential u ≤ potential s + (es.map cost).sum := by
  induction es generalizing s with
  | nil =>
    obtain rfl : s = u := by simpa using hrun
    exact ⟨hs, by simp⟩
  | cons e es ih =>
    obtain ⟨t, ht, hrun⟩ := exec_cons_eq_some.mp hrun
    obtain ⟨hI, hfirst⟩ := hstep s e t hs ht
    obtain ⟨hu, hrest⟩ := ih hI hrun
    rw [List.map_cons, List.sum_cons]
    exact ⟨hu, by omega⟩

end Runs
