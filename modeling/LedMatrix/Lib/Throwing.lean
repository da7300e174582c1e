import Mathlib.Data.List.Basic

/-!
# Programs that throw

A program changes a state, and leaves the state as it is when it throws. So an invariant
has to hold wherever the program may throw, not only where it ends. And a program on more
state matches one on less when both end alike, in states that agree.
-/

namespace Throwing

variable {S T α : Type*}

/-! ## Invariants -/

/-- The state left, whether the program has ended or thrown. -/
def left : Except S S → S
  | .ok s | .error s => s

/-- The state left has the property. -/
def Leaves (I : S → Prop) (r : Except S S) : Prop := I (left r)

/-- What two programs in a row leave. -/
theorem Leaves.bind {I : S → Prop} {r : Except S S} {k : S → Except S S} (hr : Leaves I r)
    (hk : ∀ s, I s → Leaves I (k s)) : Leaves I (r >>= k) := by
  cases r with
  | error s => exact hr
  | ok s => exact hk s hr

/-- A loop leaves what its body leaves. -/
theorem Leaves.foldlM {I : S → Prop} {body : S → α → Except S S} {is : List α} {s : S} (hs : I s)
    (hbody : ∀ t, ∀ i ∈ is, I t → Leaves I (body t i)) : Leaves I (is.foldlM body s) := by
  induction is generalizing s with
  | nil => exact hs
  | cons i is ih =>
    obtain ⟨hi, his⟩ := List.forall_mem_cons.mp (fun j hj t ht => hbody t j hj ht)
    rw [List.foldlM_cons]
    exact (hi s hs).bind fun t ht => ih ht fun u j hj hu => his j hj u hu

/-! ## Matching programs -/

/-- The result, with the state seen through `f`. -/
def mapState (f : S → T) : Except S S → Except T T
  | .ok s => .ok (f s)
  | .error s => .error (f s)

/-- Two programs in a row match two others when each matches its own. -/
theorem mapState_bind {f : S → T} {r : Except S S} {r' : Except T T} {k : S → Except S S}
    {k' : T → Except T T} (hr : mapState f r = r') (hk : ∀ s, mapState f (k s) = k' (f s)) :
    mapState f (r >>= k) = r' >>= k' := by
  obtain rfl := hr
  cases r with
  | error s => rfl
  | ok s => exact hk s

/-- Two loops match when their bodies do. -/
theorem mapState_foldlM {f : S → T} {body : S → α → Except S S} {body' : T → α → Except T T}
    (hbody : ∀ s i, mapState f (body s i) = body' (f s) i) (is : List α) (s : S) :
    mapState f (is.foldlM body s) = is.foldlM body' (f s) := by
  induction is generalizing s with
  | nil => rfl
  | cons i is ih =>
    rw [List.foldlM_cons, List.foldlM_cons]
    exact mapState_bind (hbody s i) ih

end Throwing
