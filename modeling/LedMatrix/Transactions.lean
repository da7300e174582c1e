import LedMatrix.LedHandler

/-!
# Transactions one after another

The HTTP server delivers the data of a transaction in callbacks, stops when the
handler fails, and closes the transaction. When no two transactions overlap,
the static buffer of the handler serves each of them as if it were its own.
-/

namespace LedMatrix

open Reassembly Mealy

/-- How a transaction ends. -/
inductive Closing
  | complete
  | aborted
  deriving DecidableEq, Repr

/-- The status of the closing callback. -/
def Closing.status : Closing → TransactionStatus
  | .complete => .complete
  | .aborted => .aborted

/-- One transaction on `/api/led`. An aborted one may be cut at any point, also
between its last data and its completion. -/
structure Transaction where
  method : HttpMethod
  /-- The data delivered with the mark that more follows. -/
  chunks : List (List UInt8)
  /-- The data delivered as the last, if it comes to that. -/
  last : Option (List UInt8)
  closing : Closing
  /-- Whether the closing callback still comes after the handler has failed. -/
  closesFailed : Bool
  /-- Only a transaction whose last data was delivered completes. -/
  last_of_complete : closing = .complete → last.isSome = true

/-- All data of a transaction. -/
def Transaction.body (x : Transaction) : List UInt8 := x.chunks.flatten ++ x.last.getD []

/-- The callbacks that deliver data. -/
def dataCallbacks (method : HttpMethod) (chunks : List (List UInt8)) (last : Option (List UInt8)) :
    List Callback :=
  chunks.map (Callback.mk method .more) ++ last.toList.map (Callback.mk method .final)

/-- The handler reports an error. -/
def HandlerResult.failed (r : HandlerResult) : Bool := decide (r.ret < 0)

/-- The data of a transaction is served; there is no more of it after a failure. -/
def Transaction.serveData (s : HandlerState) (x : Transaction) :
    List (HandlerState × HandlerResult) :=
  runUntil ledHandler HandlerResult.failed s (dataCallbacks x.method x.chunks x.last)

/-- A transaction is served: its data, and then the closing callback, which may
stay out after a failure. -/
def Transaction.serve (s : HandlerState) (x : Transaction) : List (HandlerState × HandlerResult) :=
  let data := x.serveData s
  if data.any (fun o => o.2.failed) && !x.closesFailed then data
  else data ++ [ledHandler (lastState s data) ⟨x.method, x.closing.status, []⟩]

/-- Serve transactions one after another. -/
def serveAll (s : HandlerState) : List Transaction → List (List (HandlerState × HandlerResult))
  | [] => []
  | x :: xs => x.serve s :: serveAll (lastState s (x.serve s)) xs

/-- The bodies handed to `parse_led_post` in the course of some callbacks. -/
def parsedBodies (steps : List (HandlerState × HandlerResult)) : List (List UInt8) :=
  steps.filterMap fun o => o.2.parsed

/-- The bodies parsed in a run are those of its parts. -/
theorem parsedBodies_append (steps steps' : List (HandlerState × HandlerResult)) :
    parsedBodies (steps ++ steps') = parsedBodies steps ++ parsedBodies steps' :=
  List.filterMap_append

/-- The bodies parsed in a run start with that of its first callback. -/
theorem parsedBodies_cons (o : HandlerState × HandlerResult)
    (steps : List (HandlerState × HandlerResult)) :
    parsedBodies (o :: steps) = o.2.parsed.toList ++ parsedBodies steps := by
  cases h : o.2.parsed <;> simp [parsedBodies, h]

/-! ## The data of one transaction -/

/-- Data that fits is collected. -/
theorem Body.collect_of_fits {p : Body} (last : Bool) {data : List UInt8}
    (h : p.elements.length + data.length ≤ postPayloadBufSize) :
    ∃ q : Body, q.elements = p.elements ++ data ∧
      p.collect last data = if last then
        (.empty, ⟨0, some q.elements, some (p.elements.length, data.length)⟩)
      else (q, ⟨0, none, some (p.elements.length, data.length)⟩) := by
  cases hpush : p.push data with
  | none =>
    have hlarge := Collected.push_eq_none.mp hpush
    omega
  | some q => exact ⟨q, Collected.push_eq_some.mp hpush, by simp only [Body.collect, hpush]⟩

/-- Data that does not fit is refused, and everything collected is forgotten. -/
theorem Body.collect_of_exceeds {p : Body} (last : Bool) {data : List UInt8}
    (h : postPayloadBufSize < p.elements.length + data.length) :
    p.collect last data = (.empty, ⟨negEnomem, none, none⟩) := by
  simp only [Body.collect, Collected.push_eq_none.mpr h]

/-- The data of a GET changes nothing and is never parsed. -/
theorem get_data (s : HandlerState) (chunks : List (List UInt8)) (last : Option (List UInt8)) :
    ∀ o ∈ runUntil ledHandler HandlerResult.failed s (dataCallbacks .get chunks last),
      o.2 = .ok := by
  have hget : ∀ c ∈ dataCallbacks .get chunks last, ∀ t : HandlerState,
      ledHandler t c = (t, .ok) := by
    intro c hc t
    rcases List.mem_append.mp hc with hc | hc
    · obtain ⟨data, -, rfl⟩ := List.mem_map.mp hc
      rfl
    · obtain ⟨data, -, rfl⟩ := List.mem_map.mp hc
      rfl
  generalize dataCallbacks .get chunks last = cs at hget
  induction cs generalizing s with
  | nil => simp [runUntil]
  | cons c cs ih =>
    have hstep := hget c (by simp) s
    have hgo : (ledHandler s c).2.failed = false := by rw [hstep]; rfl
    rw [runUntil_cons_of_not_stop hgo]
    intro o ho
    rcases List.mem_cons.mp ho with rfl | ho
    · rw [hstep]
    · exact ih _ (fun c' hc' => hget c' (by simp [hc'])) o ho

/-- A chunk that fits is collected without a parse, and the transaction goes on. -/
theorem Represents.serve_chunk {s : HandlerState} {p : Body} (h : Represents s p)
    {chunk : List UInt8} (hfits : p.elements.length + chunk.length ≤ postPayloadBufSize)
    (chunks : List (List UInt8)) (last : Option (List UInt8)) :
    ∃ (q : Body) (o : HandlerState × HandlerResult), Represents o.1 q ∧
      q.elements = p.elements ++ chunk ∧ o.2.ret = 0 ∧ o.2.parsed = none ∧
      runUntil ledHandler HandlerResult.failed s (dataCallbacks .post (chunk :: chunks) last) =
        o :: runUntil ledHandler HandlerResult.failed o.1 (dataCallbacks .post chunks last) := by
  obtain ⟨hnext, hresult⟩ := h.step ⟨.post, .more, chunk⟩
  obtain ⟨q, hq, hcollect⟩ := Body.collect_of_fits false hfits
  simp only [Body.step, hcollect, Bool.false_eq_true, if_false] at hnext hresult
  have hgo : (ledHandler s ⟨.post, .more, chunk⟩).2.failed = false := by rw [hresult]; rfl
  refine ⟨q, ledHandler s ⟨.post, .more, chunk⟩, hnext, hq, by rw [hresult], by rw [hresult], ?_⟩
  exact runUntil_cons_of_not_stop hgo (dataCallbacks .post chunks last)

/-- A POST whose data fits is never refused, and it is parsed once its last
data has come. The induction is on the chunks; `p` holds what came before. -/
theorem post_data_fits {s : HandlerState} {p : Body} (h : Represents s p)
    (chunks : List (List UInt8)) (last : Option (List UInt8))
    (hfits : p.elements.length + (chunks.flatten ++ last.getD []).length ≤ postPayloadBufSize) :
    let steps := runUntil ledHandler HandlerResult.failed s (dataCallbacks .post chunks last)
    (∀ o ∈ steps, o.2.ret = 0) ∧
      parsedBodies steps = last.toList.map (p.elements ++ chunks.flatten ++ ·) := by
  induction chunks generalizing s p with
  | nil =>
    cases last with
    | none => exact ⟨by simp [dataCallbacks, runUntil], rfl⟩
    | some data =>
      obtain ⟨-, hresult⟩ := h.step ⟨.post, .final, data⟩
      have hlast : p.elements.length + data.length ≤ postPayloadBufSize := by simpa using hfits
      obtain ⟨q, hq, hcollect⟩ := Body.collect_of_fits true hlast
      simp only [Body.step, hcollect, if_true] at hresult
      simp [dataCallbacks, runUntil, parsedBodies, hresult, hq]
  | cons chunk chunks ih =>
    simp only [List.flatten_cons, List.append_assoc, List.length_append] at hfits
    have hchunk : p.elements.length + chunk.length ≤ postPayloadBufSize := by omega
    obtain ⟨q, first, hnext, hq, hret, hnone, hrun⟩ := h.serve_chunk hchunk chunks last
    obtain ⟨hrets, hparsed⟩ := ih hnext (by
      simp only [hq, List.length_append]
      omega)
    simp only [hrun, parsedBodies_cons, hparsed, hnone]
    refine ⟨?_, by simp [hq]⟩
    intro o ho
    rcases List.mem_cons.mp ho with rfl | ho
    · exact hret
    · exact hrets o ho

/-- A POST whose data does not fit is refused at some point. It is not parsed,
and nothing of it stays in the buffer. -/
theorem post_data_exceeds {s : HandlerState} {p : Body} (h : Represents s p)
    (chunks : List (List UInt8)) (last : Option (List UInt8))
    (hexceeds : postPayloadBufSize < p.elements.length + (chunks.flatten ++ last.getD []).length) :
    let steps := runUntil ledHandler HandlerResult.failed s (dataCallbacks .post chunks last)
    parsedBodies steps = [] ∧ (∃ o ∈ steps, o.2.ret = negEnomem) ∧
      (∀ o ∈ steps, o.2.ret = 0 ∨ o.2.ret = negEnomem) ∧ (lastState s steps).cursor = 0 := by
  induction chunks generalizing s p with
  | nil =>
    cases last with
    | none =>
      have hle := p.length_le
      simp only [List.flatten_nil, Option.getD_none, List.append_nil, List.length_nil] at hexceeds
      omega
    | some data =>
      obtain ⟨hnext, hresult⟩ := h.step ⟨.post, .final, data⟩
      have hlast : postPayloadBufSize < p.elements.length + data.length := by simpa using hexceeds
      have hcollect := Body.collect_of_exceeds true hlast
      simp only [Body.step, hcollect] at hnext hresult
      simp [dataCallbacks, runUntil, parsedBodies, hresult, hnext.cursor_eq]
  | cons chunk chunks ih =>
    simp only [List.flatten_cons, List.append_assoc, List.length_append] at hexceeds
    by_cases hfits : p.elements.length + chunk.length ≤ postPayloadBufSize
    · obtain ⟨q, first, hnext, hq, hret, hnone, hrun⟩ := h.serve_chunk hfits chunks last
      obtain ⟨hparsed, ⟨o', ho', hret'⟩, hrets, hcursor⟩ := ih hnext (by
        simp only [hq, List.length_append]
        omega)
      simp only [hrun, parsedBodies_cons, hparsed, hnone, lastState_cons]
      refine ⟨rfl, ⟨o', List.mem_cons_of_mem _ ho', hret'⟩, ?_, hcursor⟩
      intro o ho
      rcases List.mem_cons.mp ho with rfl | ho
      · exact .inl hret
      · exact hrets o ho
    · obtain ⟨hnext, hresult⟩ := h.step ⟨.post, .more, chunk⟩
      have hcollect := Body.collect_of_exceeds false (Nat.lt_of_not_le hfits)
      simp only [Body.step, hcollect] at hnext hresult
      have hstop : (ledHandler s ⟨.post, .more, chunk⟩).2.failed = true := by rw [hresult]; rfl
      simp only [dataCallbacks, List.map_cons, List.cons_append]
      rw [runUntil_cons_of_stop hstop]
      simp [parsedBodies, hresult, hnext.cursor_eq]

/-! ## Whole transactions -/

/-- Along any callbacks the cursor and every `memcpy` stay in the buffer. -/
theorem run_inside {s : HandlerState} {p : Body} (h : Represents s p) (cs : List Callback) :
    ∀ o ∈ run ledHandler s cs, o.1.cursor ≤ postPayloadBufSize ∧ o.2.CopiesInside := by
  refine run_invariant (R := fun t => ∃ q, Represents t q) ?_ ⟨p, h⟩ cs
  rintro t c ⟨q, hq⟩
  obtain ⟨hnext, hresult⟩ := hq.step c
  refine ⟨⟨_, hnext⟩, hnext.cursor_le, ?_⟩
  rw [hresult]
  exact q.step_copiesInside c

/-- The closing callback of any transaction resets the cursor. -/
theorem ledHandler_closing (s : HandlerState) (method : HttpMethod) (closing : Closing)
    (data : List UInt8) :
    ledHandler s ⟨method, closing.status, data⟩ = ({ s with cursor := 0 }, .ok) := by
  cases closing <;> rfl

/-- The bodies that a transaction should have parsed: that of a POST, once, when
its last data is delivered and all of it fits in the buffer. -/
def Transaction.expectedBodies (x : Transaction) : List (List UInt8) :=
  if x.method = .post ∧ x.last.isSome = true ∧ x.body.length ≤ postPayloadBufSize then [x.body]
  else []

/-- A POST that does not fit in the buffer. -/
def Transaction.Oversize (x : Transaction) : Prop :=
  x.method = .post ∧ postPayloadBufSize < x.body.length

/-- The callbacks of a transaction have done what they should. -/
structure Served (x : Transaction) (steps : List (HandlerState × HandlerResult)) : Prop where
  /-- The expected bodies, and no others, are parsed. -/
  parsed_eq : parsedBodies steps = x.expectedBodies
  /-- A POST gets `-ENOMEM` exactly when it does not fit. -/
  enomem_iff : (∃ o ∈ steps, o.2.ret = negEnomem) ↔ x.Oversize
  /-- There is no other error. -/
  ret_eq : ∀ o ∈ steps, o.2.ret = 0 ∨ o.2.ret = negEnomem
  /-- The cursor stays in the buffer. -/
  cursor_le : ∀ o ∈ steps, o.1.cursor ≤ postPayloadBufSize
  /-- Every `memcpy` stays in the buffer. -/
  copies_inside : ∀ o ∈ steps, o.2.CopiesInside

/-- A transaction is served by its data, and then by one more callback that
resets the cursor; the latter stays out only after a failure. -/
theorem Transaction.serve_cases (s : HandlerState) (x : Transaction) :
    ((∃ o ∈ x.serveData s, o.2.ret < 0) ∧ x.serve s = x.serveData s) ∨
      ∃ t : HandlerState, t.cursor = 0 ∧ x.serve s = x.serveData s ++ [(t, .ok)] := by
  simp only [serve]
  split_ifs with hstop
  · left
    rw [Bool.and_eq_true, List.any_eq_true] at hstop
    obtain ⟨⟨o, ho, hfailed⟩, -⟩ := hstop
    exact ⟨⟨o, ho, of_decide_eq_true hfailed⟩, rfl⟩
  · right
    refine ⟨{ lastState s (x.serveData s) with cursor := 0 }, rfl, ?_⟩
    rw [ledHandler_closing]

/-- Served callbacks keep to the buffer. -/
theorem Transaction.serve_inside {s : HandlerState} {p : Body} (h : Represents s p)
    (x : Transaction) :
    ∀ o ∈ x.serve s, o.1.cursor ≤ postPayloadBufSize ∧ o.2.CopiesInside := by
  have hdata : ∀ o ∈ x.serveData s, o.1.cursor ≤ postPayloadBufSize ∧ o.2.CopiesInside := by
    intro o ho
    exact run_inside h _ o ((runUntil_initial _ _ _ _).subset ho)
  intro o ho
  rcases x.serve_cases s with ⟨-, hserve⟩ | ⟨t, ht, hserve⟩
  · exact hdata o (hserve ▸ ho)
  · rw [hserve] at ho
    rcases List.mem_append.mp ho with ho | ho
    · exact hdata o ho
    · obtain rfl := List.mem_singleton.mp ho
      exact ⟨ht ▸ Nat.zero_le _, by simp [HandlerResult.CopiesInside, HandlerResult.ok]⟩

/-- A transaction is served as it should be when its data is. The closing callback
neither parses nor fails; where it stays out, the refused data must have left an
empty buffer behind. -/
theorem Transaction.served_of_data {s : HandlerState} (hs : Represents s .empty)
    {x : Transaction} (hparsed : parsedBodies (x.serveData s) = x.expectedBodies)
    (henomem : (∃ o ∈ x.serveData s, o.2.ret = negEnomem) ↔ x.Oversize)
    (hrets : ∀ o ∈ x.serveData s, o.2.ret = 0 ∨ o.2.ret = negEnomem)
    (hend : (∃ o ∈ x.serveData s, o.2.ret < 0) → (lastState s (x.serveData s)).cursor = 0) :
    Served x (x.serve s) ∧ (lastState s (x.serve s)).cursor = 0 := by
  have hcursor := fun o ho => (x.serve_inside hs o ho).1
  have hcopies := fun o ho => (x.serve_inside hs o ho).2
  rcases x.serve_cases s with ⟨hfailed, hserve⟩ | ⟨t, ht, hserve⟩
  · rw [hserve] at hcursor hcopies ⊢
    exact ⟨⟨hparsed, henomem, hrets, hcursor, hcopies⟩, hend hfailed⟩
  · rw [hserve] at hcursor hcopies ⊢
    refine ⟨⟨?_, ?_, ?_, hcursor, hcopies⟩, by simpa [lastState] using ht⟩
    · rw [parsedBodies_append, hparsed]
      exact List.append_nil _
    · rw [← henomem]
      simp [List.mem_append, or_and_right, exists_or, HandlerResult.ok, negEnomem]
    · intro o ho
      rcases List.mem_append.mp ho with ho | ho
      · exact hrets o ho
      · obtain rfl := List.mem_singleton.mp ho
        exact .inl rfl

/-- A transaction is served, in particular, when its data is all accepted. -/
theorem Transaction.served_of_accepted {s : HandlerState} (hs : Represents s .empty)
    {x : Transaction} (hparsed : parsedBodies (x.serveData s) = x.expectedBodies)
    (hsize : ¬ x.Oversize) (hrets : ∀ o ∈ x.serveData s, o.2.ret = 0) :
    Served x (x.serve s) ∧ (lastState s (x.serve s)).cursor = 0 := by
  refine served_of_data hs hparsed ?_ (fun o ho => .inl (hrets o ho)) ?_
  · refine iff_of_false ?_ hsize
    rintro ⟨o, ho, hret⟩
    exact absurd ((hrets o ho).symm.trans hret) (by decide)
  · rintro ⟨o, ho, hneg⟩
    have hzero := hrets o ho
    omega

/-- **One transaction**: from an empty buffer it is served as it should be, and
it leaves an empty buffer behind. -/
theorem Transaction.served {s : HandlerState} (hs : s.cursor = 0) (x : Transaction) :
    Served x (x.serve s) ∧ (lastState s (x.serve s)).cursor = 0 := by
  have hrep : Represents s .empty := by
    obtain ⟨buf, cursor⟩ := s
    obtain rfl : cursor = 0 := hs
    exact .reset buf
  cases hmethod : x.method with
  | get =>
    have hdata : ∀ o ∈ x.serveData s, o.2 = .ok := by
      rw [serveData, hmethod]
      exact get_data s x.chunks x.last
    have hexpected : x.expectedBodies = [] := if_neg (by simp [hmethod])
    refine served_of_accepted hrep ?_ (by simp [Oversize, hmethod]) ?_
    · rw [hexpected, parsedBodies, List.filterMap_eq_nil_iff]
      intro o ho
      rw [hdata o ho]
      rfl
    · intro o ho
      rw [hdata o ho]
      rfl
  | post =>
    by_cases hle : x.body.length ≤ postPayloadBufSize
    · have hfits := post_data_fits hrep x.chunks x.last (by simpa [Transaction.body] using hle)
      rw [← hmethod] at hfits
      obtain ⟨hrets, hparsed⟩ := hfits
      refine served_of_accepted hrep ?_ (fun h => absurd hle (Nat.not_le.mpr h.2)) hrets
      rw [serveData, hparsed, expectedBodies]
      cases hlast : x.last with
      | none => simp
      | some data => simpa [hmethod, Transaction.body, hlast] using hle
    · have hlarge : postPayloadBufSize < x.body.length := Nat.lt_of_not_le hle
      have hexceeds := post_data_exceeds hrep x.chunks x.last
        (by simpa [Transaction.body] using hlarge)
      rw [← hmethod] at hexceeds
      obtain ⟨hparsed, hrefused, hrets, hend⟩ := hexceeds
      have hexpected : x.expectedBodies = [] := if_neg fun h => hle h.2.2
      exact served_of_data hrep (hparsed.trans hexpected.symm)
        (iff_of_true hrefused ⟨hmethod, hlarge⟩) hrets fun _ => hend

/-! ## Runs of transactions -/

/-- **Body reassembly.** Over every sequence of transactions that do not
overlap, each POST whose last data is delivered and that fits is parsed exactly
once, with exactly its own bytes, whether it completes or is aborted after that;
no other body is ever parsed, a POST that does not fit gets `-ENOMEM`, and the
cursor and every `memcpy` stay in the buffer. -/
theorem serveAll_served (xs : List Transaction) :
    List.Forall₂ Served xs (serveAll .initial xs) := by
  have hrun : ∀ s : HandlerState, s.cursor = 0 → List.Forall₂ Served xs (serveAll s xs) := by
    induction xs with
    | nil => exact fun _ _ => .nil
    | cons x xs ih =>
      intro s hs
      obtain ⟨hserved, hend⟩ := x.served hs
      exact .cons hserved (ih _ hend)
  exact hrun _ rfl

/-- A POST that is aborted after its last data, before its completion. -/
def abortedAfterLast : Transaction where
  method := .post
  chunks := []
  last := some [0x7b, 0x7d]
  closing := .aborted
  closesFailed := true
  last_of_complete := by decide

/-- The body of the aborted POST has already been parsed when the abort comes. -/
theorem serveAll_abortedAfterLast :
    abortedAfterLast.closing = .aborted ∧
      (serveAll .initial [abortedAfterLast]).map parsedBodies = [[abortedAfterLast.body]] := by
  decide

end LedMatrix
