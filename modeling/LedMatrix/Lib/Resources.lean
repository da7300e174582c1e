import LedMatrix.Lib.Runs
import Mathlib.Data.Finset.Basic

/-!
# Uses of resources

Resources that are opened, used and closed, such as descriptors or handles. A trace of
uses obeys the discipline if it is a run of the set of the open resources: only what is
not open is opened, and only what is open is used or closed. Then the uses of each
resource are a sequence of lives, each of which ends with the close. The numbers of
closed resources may come again.
-/

namespace Resources

open Runs

variable {α : Type*}

/-- One use of a resource. -/
inductive Use (α : Type*)
  | opened (a : α)
  | used (a : α)
  | closed (a : α)
  deriving DecidableEq, Repr

/-- The resource that is used. -/
def Use.resource : Use α → α
  | .opened a | .used a | .closed a => a

/-- A life that has not ended: the resource is opened and used `n` times. -/
def opening (a : α) (n : ℕ) : List (Use α) := .opened a :: List.replicate n (.used a)

/-- A whole life: at its end the resource is closed. -/
def life (a : α) (n : ℕ) : List (Use α) := opening a n ++ [.closed a]

/-- A life goes on with one more use. -/
theorem opening_succ (a : α) (n : ℕ) : opening a (n + 1) = opening a n ++ [.used a] := by
  simp only [opening, List.replicate_succ', List.cons_append]

variable [DecidableEq α]

/-- The uses of one resource. -/
def usesOf (a : α) (us : List (Use α)) : List (Use α) := us.filter fun u => u.resource = a

/-- Each time that the resource is opened it is closed once, and not used between the
close and the next opening. -/
def Closed (a : α) (us : List (Use α)) : Prop :=
  ∃ ns : List ℕ, usesOf a us = ns.flatMap (life a)

/-- Each time but the last that the resource is opened it is closed once, and since the last
it is open. -/
def Open (a : α) (us : List (Use α)) : Prop :=
  ∃ (ns : List ℕ) (n : ℕ), usesOf a us = ns.flatMap (life a) ++ opening a n

/-- A use of another resource. -/
theorem usesOf_append_of_ne {a : α} (us : List (Use α)) {u : Use α} (h : u.resource ≠ a) :
    usesOf a (us ++ [u]) = usesOf a us := by
  simp [usesOf, h]

/-- A use of the resource. -/
theorem usesOf_append_of_eq {a : α} (us : List (Use α)) (u : Use α) (h : u.resource = a) :
    usesOf a (us ++ [u]) = usesOf a us ++ [u] := by
  simp [usesOf, h]

/-- A closed resource is opened. -/
theorem Closed.opened {a : α} {us : List (Use α)} (h : Closed a us) :
    Open a (us ++ [.opened a]) := by
  obtain ⟨ns, hns⟩ := h
  refine ⟨ns, 0, ?_⟩
  rw [usesOf_append_of_eq (a := a) us (.opened a) rfl, hns]
  rfl

/-- An open resource is used. -/
theorem Open.used {a : α} {us : List (Use α)} (h : Open a us) : Open a (us ++ [.used a]) := by
  obtain ⟨ns, n, hns⟩ := h
  refine ⟨ns, n + 1, ?_⟩
  rw [usesOf_append_of_eq (a := a) us (.used a) rfl, hns, opening_succ, List.append_assoc]

/-- An open resource is closed. -/
theorem Open.closed {a : α} {us : List (Use α)} (h : Open a us) :
    Closed a (us ++ [.closed a]) := by
  obtain ⟨ns, n, hns⟩ := h
  refine ⟨ns ++ [n], ?_⟩
  rw [usesOf_append_of_eq (a := a) us (.closed a) rfl, hns, List.flatMap_append,
    List.flatMap_singleton, life, List.append_assoc]

/-! ## The open resources -/

/-- Only what is not open is opened, and only what is open is used or closed. -/
def Use.Legal (opn : Finset α) : Use α → Prop
  | .opened a => a ∉ opn
  | .used a | .closed a => a ∈ opn

instance (opn : Finset α) : (u : Use α) → Decidable (u.Legal opn)
  | .opened _ => inferInstanceAs (Decidable (_ ∉ _))
  | .used _ | .closed _ => inferInstanceAs (Decidable (_ ∈ _))

/-- The open resources after a use. -/
def Use.after (opn : Finset α) : Use α → Finset α
  | .opened a => insert a opn
  | .used _ => opn
  | .closed a => opn.erase a

/-- The open resources at the end of a trace that starts without any. -/
def stillOpen (us : List (Use α)) : Finset α := us.foldl Use.after ∅

/-- The discipline: every use is legal. -/
def step (opn : Finset α) (u : Use α) : Option (Finset α) :=
  if u.Legal opn then some (u.after opn) else none

/-- A use that the discipline admits is legal. -/
theorem step_eq_some {opn opn' : Finset α} {u : Use α} :
    step opn u = some opn' ↔ u.Legal opn ∧ u.after opn = opn' := by
  simp only [step, Option.ite_none_right_eq_some, Option.some.injEq]

/-- A use of another resource leaves it open or closed. -/
theorem Use.mem_after_of_ne {a : α} {u : Use α} (h : u.resource ≠ a) (opn : Finset α) :
    a ∈ u.after opn ↔ a ∈ opn := by
  cases u with
  | opened b => exact Finset.mem_insert.trans (or_iff_right (Ne.symm h))
  | used b => exact Iff.rfl
  | closed b => exact Finset.mem_erase.trans (and_iff_right (Ne.symm h))

/-- An open resource may be used. -/
theorem exec_used {opn : Finset α} {a : α} (h : a ∈ opn) : exec step opn [.used a] = some opn :=
  exec_cons_eq_some.mpr ⟨opn, step_eq_some.mpr ⟨h, rfl⟩, rfl⟩

/-- One that is not open may be opened. -/
theorem exec_opened {opn : Finset α} {a : α} (h : a ∉ opn) :
    exec step opn [.opened a] = some (insert a opn) :=
  exec_cons_eq_some.mpr ⟨insert a opn, step_eq_some.mpr ⟨h, rfl⟩, rfl⟩

/-- An open resource may be closed. -/
theorem exec_closed {opn : Finset α} {a : α} (h : a ∈ opn) :
    exec step opn [.closed a] = some (opn.erase a) :=
  exec_cons_eq_some.mpr ⟨opn.erase a, step_eq_some.mpr ⟨h, rfl⟩, rfl⟩

/-- A run of the discipline ends with the open resources after its last use. -/
theorem foldl_after_of_exec {us : List (Use α)} {opn opn' : Finset α}
    (hrun : exec step opn us = some opn') : us.foldl Use.after opn = opn' := by
  induction us generalizing opn with
  | nil => exact Option.some.inj hrun
  | cons u us ih =>
    obtain ⟨opn₁, hu, hrun⟩ := exec_cons_eq_some.mp hrun
    obtain ⟨-, rfl⟩ := step_eq_some.mp hu
    exact ih hrun

/-- Started without any, it ends with those still open. -/
theorem stillOpen_of_exec {us : List (Use α)} {opn : Finset α}
    (hrun : exec step ∅ us = some opn) : stillOpen us = opn :=
  foldl_after_of_exec hrun

/-- **Lives.** In a trace that obeys the discipline, a resource that is not open at the
end has had whole lives, and one that is open has had whole lives and an opening. -/
theorem lives_of_exec {us : List (Use α)} {opn : Finset α} (hrun : exec step ∅ us = some opn)
    (a : α) : (a ∉ opn → Closed a us) ∧ (a ∈ opn → Open a us) := by
  induction us using List.reverseRecOn generalizing opn with
  | nil =>
    obtain rfl : ∅ = opn := Option.some.inj hrun
    exact ⟨fun _ => ⟨[], rfl⟩, fun h => absurd h (Finset.notMem_empty a)⟩
  | append_singleton us u ih =>
    obtain ⟨opn₁, hus, hlast⟩ := exec_append_eq_some.mp hrun
    obtain ⟨opn₂, hu, hend⟩ := exec_cons_eq_some.mp hlast
    obtain rfl : opn₂ = opn := Option.some.inj hend
    obtain ⟨hlegal, rfl⟩ := step_eq_some.mp hu
    obtain ⟨hclosed, hopen⟩ := ih hus
    by_cases ha : u.resource = a
    · subst ha
      cases u with
      | opened b => exact ⟨fun h => absurd (Finset.mem_insert_self b opn₁) h,
          fun _ => (hclosed hlegal).opened⟩
      | used b => exact ⟨fun h => absurd hlegal h, fun _ => (hopen hlegal).used⟩
      | closed b => exact ⟨fun _ => (hopen hlegal).closed,
          fun h => absurd h (Finset.notMem_erase b opn₁)⟩
    · -- The uses of `a` and whether it is open stay as they were.
      simp only [Use.mem_after_of_ne ha, Closed, Open, usesOf_append_of_ne us ha]
      exact ⟨hclosed, hopen⟩

end Resources
