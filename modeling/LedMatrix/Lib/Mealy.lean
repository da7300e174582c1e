import Mathlib.Data.List.Basic
import Mathlib.Logic.Function.Basic

/-!
# Machines with outputs

A machine takes one input at a time and answers each with an output. Two
machines that answer alike along related states give the same outputs. When
several senders share a machine, the shared machine is compared in this way
with the product of private ones, in which no sender can affect another.
-/

namespace Mealy

variable {S T I O ι α : Type*}

/-- The steps of a run, each with the state it leads to and its output. -/
def run (f : S → I → S × O) : S → List I → List (S × O)
  | _, [] => []
  | s, i :: is => f s i :: run f (f s i).1 is

/-- The outputs of a run. -/
def outputs (f : S → I → S × O) (s : S) (is : List I) : List O := (run f s is).map Prod.snd

/-- The state in which a run ends. -/
def final (f : S → I → S × O) (s : S) (is : List I) : S := is.foldl (fun s i => (f s i).1) s

@[simp] theorem run_nil (f : S → I → S × O) (s : S) : run f s [] = [] := rfl

@[simp] theorem run_cons (f : S → I → S × O) (s : S) (i : I) (is : List I) :
    run f s (i :: is) = f s i :: run f (f s i).1 is := rfl

@[simp] theorem outputs_cons (f : S → I → S × O) (s : S) (i : I) (is : List I) :
    outputs f s (i :: is) = (f s i).2 :: outputs f (f s i).1 is := rfl

@[simp] theorem final_cons (f : S → I → S × O) (s : S) (i : I) (is : List I) :
    final f s (i :: is) = final f (f s i).1 is := rfl

/-- A run of two parts. -/
theorem run_append (f : S → I → S × O) (s : S) (is js : List I) :
    run f s (is ++ js) = run f s is ++ run f (final f s is) js := by
  induction is generalizing s with
  | nil => rfl
  | cons i is ih => rw [List.cons_append, run_cons, ih, run_cons, final_cons, List.cons_append]

/-- A run over translated inputs ends where the machine that translates them does. -/
theorem final_map {J : Type*} (f : S → I → S × O) (g : J → I) (s : S) (js : List J) :
    final f s (js.map g) = final (fun s j => f s (g j)) s js := List.foldl_map

/-- A run continues from where its first part ends. -/
theorem final_append (f : S → I → S × O) (s : S) (is js : List I) :
    final f s (is ++ js) = final f (final f s is) js := List.foldl_append

/-- The last step of a run. -/
theorem final_concat (f : S → I → S × O) (s : S) (is : List I) (i : I) :
    final f s (is ++ [i]) = (f (final f s is) i).1 := final_append f s is [i]

/-- What every step from a state in `R` establishes holds of all steps of a run. -/
theorem run_invariant {f : S → I → S × O} {R : S → Prop} {Q : S × O → Prop}
    (hstep : ∀ s i, R s → R (f s i).1 ∧ Q (f s i)) {s : S} (hs : R s) (is : List I) :
    ∀ o ∈ run f s is, Q o := by
  induction is generalizing s with
  | nil => simp
  | cons i is ih =>
    obtain ⟨hnext, hout⟩ := hstep s i hs
    intro o ho
    rcases List.mem_cons.mp ho with rfl | ho
    · exact hout
    · exact ih hnext o ho

/-- **Simulation.** Machines whose steps keep `R` and answer alike, at every
step that meets the guard `G` of the second one, give the same outputs. -/
theorem outputs_simulation {f : S → I → S × O} {g : T → I → T × O} {R : S → T → Prop}
    {G : T → I → Prop}
    (hstep : ∀ s t i, R s t → G t i → R (f s i).1 (g t i).1 ∧ (f s i).2 = (g t i).2)
    {s : S} {t : T} {is : List I} (hstart : R s t)
    (hguard : ∀ pre i post, is = pre ++ i :: post → G (final g t pre) i) :
    outputs f s is = outputs g t is := by
  induction is generalizing s t with
  | nil => rfl
  | cons i is ih =>
    obtain ⟨hnext, hout⟩ := hstep s t i hstart (hguard [] i is rfl)
    rw [outputs_cons, outputs_cons, hout]
    refine congrArg _ (ih hnext fun pre i' post his => ?_)
    exact hguard (i :: pre) i' post (by rw [his, List.cons_append])

/-- Every input of a run meets the guard `G` in the state that it finds. -/
def Guarded (f : S → I → S × O) (G : S → I → Prop) (s : S) (is : List I) : Prop :=
  ∀ pre i post, is = pre ++ i :: post → G (final f s pre) i

/-- A run without inputs is guarded. -/
theorem guarded_nil (f : S → I → S × O) (G : S → I → Prop) (s : S) : Guarded f G s [] :=
  fun _ _ _ h => absurd h (by simp)

/-- A run is guarded when its first input is, and the rest from the next state. -/
theorem guarded_cons {f : S → I → S × O} {G : S → I → Prop} {s : S} {i : I} {is : List I} :
    Guarded f G s (i :: is) ↔ G s i ∧ Guarded f G (f s i).1 is := by
  constructor
  · intro h
    refine ⟨h [] i is rfl, fun pre i' post his => ?_⟩
    exact h (i :: pre) i' post (by rw [his, List.cons_append])
  · rintro ⟨hi, his⟩ pre i' post heq
    cases pre with
    | nil =>
      obtain ⟨rfl, -⟩ := List.cons.inj heq
      exact hi
    | cons j pre =>
      obtain ⟨rfl, htail⟩ := List.cons.inj heq
      exact his pre i' post htail

/-! ## Running until an output stops -/

/-- The steps of a run up to the first one whose output stops it. -/
def runUntil (f : S → I → S × O) (stop : O → Bool) : S → List I → List (S × O)
  | _, [] => []
  | s, i :: is => f s i :: if stop (f s i).2 then [] else runUntil f stop (f s i).1 is

/-- The state after recorded steps that started in `s`. -/
def lastState (s : S) (steps : List (S × O)) : S := (steps.getLast?.map Prod.fst).getD s

@[simp] theorem lastState_nil (s : S) : lastState s ([] : List (S × O)) = s := rfl

@[simp] theorem lastState_cons (s : S) (o : S × O) (steps : List (S × O)) :
    lastState s (o :: steps) = lastState o.1 steps := by
  cases h : steps.getLast? <;> simp [lastState, List.getLast?_cons, h]

/-- The last state of a run. -/
theorem lastState_run (f : S → I → S × O) (s : S) (is : List I) :
    lastState s (run f s is) = final f s is := by
  induction is generalizing s with
  | nil => rfl
  | cons i is ih => rw [run_cons, lastState_cons, ih, final_cons]

/-- Stopping only cuts a run short. -/
theorem runUntil_initial (f : S → I → S × O) (stop : O → Bool) (s : S) (is : List I) :
    runUntil f stop s is <+: run f s is := by
  induction is generalizing s with
  | nil => exact List.prefix_rfl
  | cons i is ih =>
    rw [runUntil, run_cons, List.prefix_cons_inj]
    split
    · exact List.nil_prefix
    · exact ih _

/-- A step that does not stop is followed by the rest of the run. -/
theorem runUntil_cons_of_not_stop {f : S → I → S × O} {stop : O → Bool} {s : S} {i : I}
    (h : stop (f s i).2 = false) (is : List I) :
    runUntil f stop s (i :: is) = f s i :: runUntil f stop (f s i).1 is := by
  rw [runUntil, h]
  rfl

/-- A step that stops is the last one. -/
theorem runUntil_cons_of_stop {f : S → I → S × O} {stop : O → Bool} {s : S} {i : I}
    (h : stop (f s i).2 = true) (is : List I) : runUntil f stop s (i :: is) = [f s i] := by
  rw [runUntil, h]
  rfl

/-- A run that is cut short is the run over the inputs that it takes. -/
theorem run_take_runUntil (f : S → I → S × O) (stop : O → Bool) (s : S) (is : List I) :
    run f s (is.take (runUntil f stop s is).length) = runUntil f stop s is := by
  induction is generalizing s with
  | nil => rfl
  | cons i is ih =>
    cases hfirst : stop (f s i).2 with
    | true => simp [runUntil_cons_of_stop hfirst]
    | false =>
      rw [runUntil_cons_of_not_stop hfirst, List.length_cons, List.take_succ_cons, run_cons, ih]

/-- Machines that answer alike along related states are cut short alike. -/
theorem runUntil_simulation {f : S → I → S × O} {g : T → I → T × O} {R : S → T → Prop}
    (hstep : ∀ s t i, R s t → R (f s i).1 (g t i).1 ∧ (f s i).2 = (g t i).2) (stop : O → Bool)
    {s : S} {t : T} (hstart : R s t) (is : List I) :
    (runUntil f stop s is).map Prod.snd = (runUntil g stop t is).map Prod.snd := by
  induction is generalizing s t with
  | nil => rfl
  | cons i is ih =>
    obtain ⟨hnext, hout⟩ := hstep s t i hstart
    cases hfirst : stop (g t i).2 with
    | true =>
      rw [runUntil_cons_of_stop hfirst, runUntil_cons_of_stop (hout ▸ hfirst)]
      simp [hout]
    | false =>
      rw [runUntil_cons_of_not_stop hfirst, runUntil_cons_of_not_stop (hout ▸ hfirst)]
      simp [hout, ih hnext]

/-- A step that stops is the last one of its run. -/
theorem runUntil_getLast? {f : S → I → S × O} {stop : O → Bool} {s : S} {is : List I} {o : S × O}
    (ho : o ∈ runUntil f stop s is) (hstop : stop o.2 = true) :
    (runUntil f stop s is).getLast? = some o := by
  induction is generalizing s with
  | nil => cases ho
  | cons i is ih =>
    cases hfirst : stop (f s i).2 with
    | true =>
      rw [runUntil_cons_of_stop hfirst] at ho ⊢
      rw [List.mem_singleton.mp ho]
      rfl
    | false =>
      rw [runUntil_cons_of_not_stop hfirst] at ho ⊢
      rcases List.mem_cons.mp ho with rfl | ho
      · rw [hstop] at hfirst
        cases hfirst
      · rw [List.getLast?_cons, ih ho, Option.getD_some]

/-! ## Several senders at one machine -/

/-- The inputs, or outputs, of one sender. -/
def project [DecidableEq ι] (i : ι) (xs : List (ι × α)) : List α :=
  xs.filterMap fun x => if x.1 = i then some x.2 else none

/-- A machine shared by all senders. It does not see who sends an input; the
output goes back to the sender. -/
def shared (f : S → I → S × O) (s : S) (x : ι × I) : S × (ι × O) :=
  ((f s x.2).1, x.1, (f s x.2).2)

/-- One private machine for each sender. -/
def product [DecidableEq ι] (g : T → I → T × O) (ts : ι → T) (x : ι × I) : (ι → T) × (ι × O) :=
  (Function.update ts x.1 (g (ts x.1) x.2).1, x.1, (g (ts x.1) x.2).2)

@[simp] theorem project_cons_self [DecidableEq ι] (i : ι) (a : α) (xs : List (ι × α)) :
    project i ((i, a) :: xs) = a :: project i xs := by
  simp [project]

@[simp] theorem project_cons_of_ne [DecidableEq ι] {i j : ι} (h : j ≠ i) (a : α)
    (xs : List (ι × α)) : project i ((j, a) :: xs) = project i xs := by
  simp [project, h]

/-- In the product each sender's machine ends where its own inputs lead it. -/
theorem final_product [DecidableEq ι] (g : T → I → T × O) (ts : ι → T) (xs : List (ι × I))
    (i : ι) : final (product g) ts xs i = final g (ts i) (project i xs) := by
  induction xs generalizing ts with
  | nil => rfl
  | cons x xs ih =>
    obtain ⟨j, a⟩ := x
    rw [final_cons, ih]
    by_cases hj : j = i
    · subst hj
      simp [product]
    · simp [product, hj, Function.update_of_ne (Ne.symm hj)]

/-- In the product each sender gets the outputs for its own inputs alone. -/
theorem project_outputs_product [DecidableEq ι] (g : T → I → T × O) (ts : ι → T)
    (xs : List (ι × I)) (i : ι) :
    project i (outputs (product g) ts xs) = outputs g (ts i) (project i xs) := by
  induction xs generalizing ts with
  | nil => rfl
  | cons x xs ih =>
    obtain ⟨j, a⟩ := x
    rw [outputs_cons]
    by_cases hj : j = i
    · subst hj
      simp [product, ih]
    · simp [product, ih, hj, Function.update_of_ne (Ne.symm hj)]

/-- **Isolation.** When the shared machine simulates the product at every step
that meets the guard, each sender gets the outputs for its own inputs alone. -/
theorem project_outputs_shared [DecidableEq ι] {f : S → I → S × O} {g : T → I → T × O}
    {R : S → (ι → T) → Prop} {G : (ι → T) → ι × I → Prop}
    (hstep : ∀ s ts x, R s ts → G ts x →
      R (f s x.2).1 (Function.update ts x.1 (g (ts x.1) x.2).1) ∧ (f s x.2).2 = (g (ts x.1) x.2).2)
    {s : S} {ts : ι → T} {xs : List (ι × I)} (hstart : R s ts)
    (hguard : ∀ pre x post, xs = pre ++ x :: post →
      G (fun i => final g (ts i) (project i pre)) x) (i : ι) :
    project i (outputs (shared f) s xs) = outputs g (ts i) (project i xs) := by
  rw [← project_outputs_product, outputs_simulation (g := product g) (R := R) (G := G) ?_ hstart ?_]
  · intro s ts x hR hG
    obtain ⟨hnext, hout⟩ := hstep s ts x hR hG
    exact ⟨hnext, by simp only [shared, product, hout]⟩
  · intro pre x post hxs
    have hfinal : final (product g) ts pre = fun i => final g (ts i) (project i pre) :=
      funext fun i => final_product g ts pre i
    rw [hfinal]
    exact hguard pre x post hxs

end Mealy
