import Mathlib.Data.List.Basic
import Mathlib.Data.Vector.Basic

/-!
# Collecting chunks in a bounded buffer

The abstract collector holds the elements collected so far, never more than
its capacity, and refuses a chunk that would exceed it. The concrete one is a
fixed buffer with a cursor, filled by `memcpy`; what lies before the cursor is
what the abstract collector holds.
-/

namespace Reassembly

variable {α : Type*} {cap : ℕ}

/-! ## The abstract collector -/

/-- The elements collected so far; they fit in the capacity. -/
@[ext] structure Collected (α : Type*) (cap : ℕ) where
  elements : List α
  length_le : elements.length ≤ cap

/-- Nothing has been collected. -/
def Collected.empty : Collected α cap := ⟨[], Nat.zero_le _⟩

/-- Append a chunk, unless the capacity would be exceeded. -/
def Collected.push (p : Collected α cap) (chunk : List α) : Option (Collected α cap) :=
  if h : p.elements.length + chunk.length ≤ cap then
    some ⟨p.elements ++ chunk, by simpa only [List.length_append] using h⟩
  else none

@[simp] theorem Collected.elements_empty : (empty : Collected α cap).elements = [] := rfl

/-- A chunk is accepted exactly when it fits, and is then appended. -/
theorem Collected.push_eq_some {p q : Collected α cap} {chunk : List α} :
    p.push chunk = some q ↔ q.elements = p.elements ++ chunk := by
  unfold push
  constructor
  · intro h
    split at h
    · obtain rfl := Option.some.inj h
      rfl
    · cases h
  · intro h
    have hfits : p.elements.length + chunk.length ≤ cap := by
      rw [← List.length_append, ← h]
      exact q.length_le
    rw [dif_pos hfits]
    exact congrArg some (Collected.ext h.symm)

/-- A chunk is refused exactly when it does not fit. -/
theorem Collected.push_eq_none {p : Collected α cap} {chunk : List α} :
    p.push chunk = none ↔ cap < p.elements.length + chunk.length := by
  unfold push
  split <;> simp <;> omega

/-- An empty chunk changes nothing. -/
theorem Collected.push_nil (p : Collected α cap) : p.push [] = some p :=
  push_eq_some.mpr (List.append_nil _).symm

/-! ## The buffer and its cursor -/

/-- `memcpy(buf + offset, data, len)`, element by element. An element past the
end of the buffer is not stored in it. -/
def memcpy (buf : Vector α cap) (offset : ℕ) : List α → Vector α cap
  | [] => buf
  | x :: xs => memcpy (buf.setIfInBounds offset x) (offset + 1) xs

/-- The elements before the cursor. -/
def contents (buf : Vector α cap) (cursor : ℕ) : List α := buf.toList.take cursor

/-- Storing one element at the cursor appends it to the contents. -/
theorem contents_setIfInBounds {buf : Vector α cap} {cursor : ℕ} {x : α} (h : cursor < cap) :
    contents (buf.setIfInBounds cursor x) (cursor + 1) = contents buf cursor ++ [x] := by
  have hlen : cursor < buf.toList.length := by simpa using h
  simp only [contents, Vector.toList_setIfInBounds]
  rw [List.take_set, List.take_succ_eq_append_getElem hlen,
    List.set_append_right _ _ (by simp)]
  simp [Nat.min_eq_left (Nat.le_of_lt h)]

/-- **Copying at the cursor appends.** While the data fits in the buffer, the
contents up to its end are the old contents followed by the data. -/
theorem contents_memcpy {buf : Vector α cap} {cursor : ℕ} {data : List α}
    (h : cursor + data.length ≤ cap) :
    contents (memcpy buf cursor data) (cursor + data.length) = contents buf cursor ++ data := by
  induction data generalizing buf cursor with
  | nil => simp [memcpy]
  | cons x xs ih =>
    have hlt : cursor < cap := by simp only [List.length_cons] at h; omega
    have hrest : cursor + 1 + xs.length ≤ cap := by simp only [List.length_cons] at h; omega
    have hnext : contents (memcpy (buf.setIfInBounds cursor x) (cursor + 1) xs)
        (cursor + 1 + xs.length) = contents (buf.setIfInBounds cursor x) (cursor + 1) ++ xs :=
      ih hrest
    rw [contents_setIfInBounds hlt] at hnext
    simpa only [memcpy, List.length_cons, Nat.add_assoc, Nat.add_comm 1, List.append_assoc,
      List.singleton_append] using hnext

end Reassembly
