import LedMatrix.Config
import LedMatrix.Lib.Mealy
import LedMatrix.Lib.Reassembly

/-!
# The HTTP handler of the LED resource

`led_handler` of `main.c` collects the chunks of a POST body in a static buffer
with a static cursor and hands the body to `parse_led_post`. It knows nothing
of the transaction a callback belongs to. The abstract handler holds the bytes
themselves instead of a buffer; `Represents.step` connects the two.
-/

namespace LedMatrix

open Reassembly

/-- `client->method`, one of the methods that the resource supports. -/
inductive HttpMethod
  | get
  | post
  deriving DecidableEq, Repr

/-- `enum http_transaction_status`. -/
inductive TransactionStatus
  /-- `HTTP_SERVER_TRANSACTION_ABORTED`. -/
  | aborted
  /-- `HTTP_SERVER_REQUEST_DATA_MORE`. -/
  | more
  /-- `HTTP_SERVER_REQUEST_DATA_FINAL`. -/
  | final
  /-- `HTTP_SERVER_TRANSACTION_COMPLETE`. -/
  | complete
  deriving DecidableEq, Repr

/-- What the HTTP server passes to one call of the handler. -/
structure Callback where
  method : HttpMethod
  status : TransactionStatus
  /-- `request_ctx->data`, with `data_len` bytes. -/
  data : List UInt8
  deriving DecidableEq, Repr

/-- `sizeof(post_payload_buf)`. -/
def postPayloadBufSize : ℕ := 64

/-- The static variables of `led_handler`. -/
structure HandlerState where
  postPayloadBuf : Vector UInt8 postPayloadBufSize
  cursor : ℕ
  deriving DecidableEq

/-- Static variables start as zero. -/
def HandlerState.initial : HandlerState := ⟨Vector.replicate _ 0, 0⟩

/-- What one call does, besides its change of the static variables. -/
structure HandlerResult where
  ret : Int
  /-- The bytes handed to `parse_led_post`, if it is called. -/
  parsed : Option (List UInt8)
  /-- The offset and the length of the `memcpy`, if there is one. -/
  copied : Option (ℕ × ℕ)
  deriving DecidableEq, Repr

/-- The result of a call that touches neither the buffer nor the LEDs. -/
def HandlerResult.ok : HandlerResult := ⟨0, none, none⟩

/-- `led_handler`. -/
def ledHandler (s : HandlerState) (c : Callback) : HandlerState × HandlerResult :=
  if c.status = .aborted ∨ c.status = .complete then ({ s with cursor := 0 }, .ok)
  else if c.method = .get then (s, .ok)
  else if postPayloadBufSize < c.data.length + s.cursor then
    ({ s with cursor := 0 }, ⟨negEnomem, none, none⟩)
  else
    let buf := memcpy s.postPayloadBuf s.cursor c.data
    let cursor := s.cursor + c.data.length
    let copied := some (s.cursor, c.data.length)
    if c.status = .final then (⟨buf, 0⟩, ⟨0, some (contents buf cursor), copied⟩)
    else (⟨buf, cursor⟩, ⟨0, none, copied⟩)

/-! ## The abstract handler -/

/-- The bytes of a body collected so far. -/
abbrev Body : Type := Collected UInt8 postPayloadBufSize

/-- Take the data of a POST, with or without the mark that it is the last. -/
def Body.collect (p : Body) (last : Bool) (data : List UInt8) : Body × HandlerResult :=
  match p.push data with
  | none => (.empty, ⟨negEnomem, none, none⟩)
  | some q =>
    let copied := some (p.elements.length, data.length)
    if last then (.empty, ⟨0, some q.elements, copied⟩) else (q, ⟨0, none, copied⟩)

/-- The handler without its buffer: the end of any transaction forgets the
bytes, a GET leaves them alone, and the data of a POST is collected. -/
def Body.step (p : Body) (c : Callback) : Body × HandlerResult :=
  match c.status, c.method with
  | .aborted, _ | .complete, _ => (.empty, .ok)
  | .more, .get | .final, .get => (p, .ok)
  | .more, .post => p.collect false c.data
  | .final, .post => p.collect true c.data

/-- The static variables hold the bytes collected so far. -/
structure Represents (s : HandlerState) (p : Body) : Prop where
  /-- The bytes lie before the cursor. -/
  contents_eq : contents s.postPayloadBuf s.cursor = p.elements
  /-- The cursor counts them. -/
  cursor_eq : s.cursor = p.elements.length

/-- At the start there are no bytes. -/
theorem Represents.initial : Represents .initial .empty := ⟨rfl, rfl⟩

/-- A cursor at zero represents no bytes, whatever the buffer holds. -/
theorem Represents.reset (buf : Vector UInt8 postPayloadBufSize) : Represents ⟨buf, 0⟩ .empty :=
  ⟨rfl, rfl⟩

/-- The cursor stays in the buffer. -/
theorem Represents.cursor_le {s : HandlerState} {p : Body} (h : Represents s p) :
    s.cursor ≤ postPayloadBufSize := h.cursor_eq ▸ p.length_le

/-- What the data of a POST does to the static variables is what it does to the
bytes. -/
theorem Represents.collect {s : HandlerState} {p : Body} (h : Represents s p) {c : Callback}
    (last : Bool) (hmethod : c.method = .post)
    (hstatus : c.status = if last then .final else .more) :
    Represents (ledHandler s c).1 (p.collect last c.data).1 ∧
      (ledHandler s c).2 = (p.collect last c.data).2 := by
  have hopen : ¬ (c.status = .aborted ∨ c.status = .complete) := by
    cases last <;> simp [hstatus]
  have hpost : c.method ≠ .get := by simp [hmethod]
  unfold ledHandler Body.collect
  rw [if_neg hopen, if_neg hpost]
  cases hpush : p.push c.data with
  | none =>
    have hlarge : postPayloadBufSize < c.data.length + s.cursor := by
      rw [h.cursor_eq, Nat.add_comm]
      exact Collected.push_eq_none.mp hpush
    rw [if_pos hlarge]
    exact ⟨.reset _, rfl⟩
  | some q =>
    have helements := Collected.push_eq_some.mp hpush
    have hfits : s.cursor + c.data.length ≤ postPayloadBufSize := by
      have hle := q.length_le
      rwa [helements, List.length_append, ← h.cursor_eq] at hle
    have hcontents : contents (memcpy s.postPayloadBuf s.cursor c.data)
        (s.cursor + c.data.length) = q.elements := by
      rw [contents_memcpy hfits, h.contents_eq, helements]
    rw [if_neg (by omega)]
    cases last with
    | true =>
      simp only [hstatus, if_true]
      exact ⟨.reset _, by rw [hcontents, h.cursor_eq]⟩
    | false =>
      simp only [hstatus, Bool.false_eq_true, if_false, reduceCtorEq]
      refine ⟨⟨hcontents, ?_⟩, by rw [h.cursor_eq]⟩
      rw [helements, List.length_append, h.cursor_eq]

/-- **The handler refines the abstract one**: it keeps representing the bytes
and gives the same results. -/
theorem Represents.step {s : HandlerState} {p : Body} (h : Represents s p) (c : Callback) :
    Represents (ledHandler s c).1 (p.step c).1 ∧ (ledHandler s c).2 = (p.step c).2 := by
  obtain ⟨method, status, data⟩ := c
  cases status with
  | aborted => exact ⟨.reset _, rfl⟩
  | complete => exact ⟨.reset _, rfl⟩
  | more =>
    cases method with
    | get => exact ⟨h, rfl⟩
    | post => exact h.collect false rfl rfl
  | final =>
    cases method with
    | get => exact ⟨h, rfl⟩
    | post => exact h.collect true rfl rfl

/-- Every `memcpy` of a call lies inside the buffer. -/
def HandlerResult.CopiesInside (r : HandlerResult) : Prop :=
  ∀ offset length, r.copied = some (offset, length) → offset + length ≤ postPayloadBufSize

/-- The abstract handler copies only bytes that it has room for. -/
theorem Body.step_copiesInside (p : Body) (c : Callback) : (p.step c).2.CopiesInside := by
  have hcollect : ∀ last, (p.collect last c.data).2.CopiesInside := by
    intro last offset length h
    unfold Body.collect at h
    cases hpush : p.push c.data with
    | none => simp [hpush] at h
    | some q =>
      have hle := q.length_le
      rw [Collected.push_eq_some.mp hpush, List.length_append] at hle
      cases last <;> simp only [hpush, Bool.false_eq_true, if_false, if_true, Option.some.injEq,
        Prod.mk.injEq] at h <;> omega
  unfold Body.step
  split <;> first | exact hcollect _ | simp [HandlerResult.ok, HandlerResult.CopiesInside]

end LedMatrix
