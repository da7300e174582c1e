import LedMatrix.EchoService
import Mathlib.Data.List.Forall2

/-!
# What the echo service has done

The calls of a run say what the service has done. Of each line that a client has sent it
has given back a part from its beginning. It goes on to the next client, and to the next
server, until a call that sets a server up fails.
-/

namespace LedMatrix

open CText

/-! ## Lines and pieces -/

/-- The lines received from the current client, after one more call. -/
def nextLines (lines : List (List UInt8)) : EchoCall × EchoReply → List (List UInt8)
  | (.accept _, _) => []
  | (.recv _ _, reply) => if reply.r = -1 ∨ reply.r = 0 then lines else lines ++ [reply.stored]
  | _ => lines

/-- The lines received from the client that was accepted last. -/
def currentLines (es : List (EchoCall × EchoReply)) : List (List UInt8) := es.foldl nextLines []

/-- What `send` has accepted of a line: at least one byte, from its beginning. -/
def IsPiece (piece line : List UInt8) : Prop := piece ≠ [] ∧ piece <+: line

/-- The lines not sent at a point: the one that is being sent, or the one at which the
connection has ended. -/
def EchoPoint.Unsent : EchoPoint → List (List UInt8) → Prop
  | .welcome _ _, lines | .recv _ _, lines => lines = []
  | .send _ _ line, lines => lines = [line]
  | _, lines => lines.length ≤ 1

/-- What is not sent yet is one line at most. -/
theorem EchoPoint.Unsent.length_le {p : EchoPoint} {lines : List (List UInt8)}
    (h : p.Unsent lines) : lines.length ≤ 1 := by
  cases p with
  | welcome serverFd clientFd | recv serverFd clientFd | send serverFd clientFd line =>
    obtain rfl := h
    simp
  | _ => exact h

/-- The lines of the client are those received, and of each line sent there is a piece. -/
def Echo.Pieces (lines : List (List UInt8)) (s : Echo) : Prop :=
  s.received = lines.flatten ∧ ∃ sent unsent pieces, lines = sent ++ unsent ∧
    s.accepted = pieces.flatten ∧ List.Forall₂ IsPiece pieces sent ∧ s.point.Unsent unsent

/-- A call that neither receives nor sends a line keeps what is known of the lines. -/
theorem Echo.Pieces.of_unsent {lines : List (List UInt8)} {s : Echo} (h : s.Pieces lines)
    {p : EchoPoint} (hp : ∀ unsent, s.point.Unsent unsent → p.Unsent unsent) :
    Pieces lines { s with point := p } := by
  obtain ⟨hreceived, sent, unsent, pieces, hlines, haccepted, hpieces, hunsent⟩ := h
  exact ⟨hreceived, sent, unsent, pieces, hlines, haccepted, hpieces, hp unsent hunsent⟩

/-- **One call** keeps the pieces. -/
theorem Echo.Pieces.step {lines : List (List UInt8)} {s t : Echo} {e : EchoCall × EchoReply}
    (h : s.Pieces lines) (ht : s.step e = some t) : t.Pieces (nextLines lines e) := by
  obtain ⟨call, reply⟩ := e
  obtain ⟨point, received, accepted⟩ := s
  obtain ⟨hcall, hallows, rfl⟩ := Echo.step_eq_some.mp ht
  cases point with
  | accept serverFd =>
    obtain rfl := Option.some.inj hcall
    refine ⟨rfl, [], [], [], rfl, rfl, .nil, ?_⟩
    simp only [next, EchoPoint.resume]
    split_ifs
    · exact Nat.zero_le 1
    · rfl
  | recv serverFd clientFd =>
    obtain rfl := Option.some.inj hcall
    obtain ⟨hreceived, sent, unsent, pieces, hlines, haccepted, hpieces, hunsent⟩ := h
    obtain rfl : unsent = [] := hunsent
    have hbytes : reply.r = -1 ∧ reply.stored = [] ∨
        reply.r = reply.stored.length ∧ reply.stored.length ≤ lineSize := hallows
    have hstored : reply.r = -1 ∨ reply.r = 0 → reply.stored = [] := by
      intro hend
      rcases hbytes with ⟨-, hnone⟩ | ⟨hcount, -⟩
      · exact hnone
      · exact List.length_eq_zero_iff.mp (by omega)
    by_cases hend : reply.r = -1 ∨ reply.r = 0
    · -- The connection ends after what has been received before.
      refine ⟨?_, sent, [], pieces, ?_, haccepted, hpieces, ?_⟩
      · simp only [next, nextLines, if_pos hend, hstored hend, List.append_nil]
        exact hreceived
      · simp only [nextLines, if_pos hend]
        exact hlines
      · simp only [next, EchoPoint.resume]
        rcases hend with hfailed | hclosed
        · rw [if_pos hfailed]
          exact Nat.zero_le 1
        · rw [if_neg (by omega), if_pos hclosed]
          exact Nat.zero_le 1
    · obtain ⟨hfailed, hclosed⟩ := not_or.mp hend
      refine ⟨?_, sent, [reply.stored], pieces, ?_, haccepted, hpieces, ?_⟩
      · have hsame : received = lines.flatten := hreceived
        simp only [next, nextLines, if_neg hend, hsame, List.flatten_append, List.flatten_singleton]
      · rw [List.append_nil] at hlines
        simp only [nextLines, if_neg hend, hlines]
      · simp only [next, EchoPoint.resume, if_neg hfailed, if_neg hclosed]
        rfl
  | send serverFd clientFd line =>
    obtain rfl := Option.some.inj hcall
    obtain ⟨hreceived, sent, unsent, pieces, hlines, haccepted, hpieces, hunsent⟩ := h
    obtain rfl : unsent = [line] := hunsent
    have hsame : accepted = pieces.flatten := haccepted
    by_cases hfailed : reply.r = -1
    · -- The line is lost with the connection.
      refine ⟨hreceived, sent, [line], pieces, hlines, ?_, hpieces, ?_⟩
      · simp only [next, hfailed, hsame]
        exact List.append_nil _
      · simp only [next, EchoPoint.resume, if_pos hfailed]
        exact Nat.le_refl 1
    · have hcount : 1 ≤ reply.r ∧ reply.r ≤ line.length := hallows.resolve_left hfailed
      have hpiece : IsPiece (line.take reply.r.toNat) line := by
        refine ⟨List.ne_nil_of_length_pos ?_, List.take_prefix _ _⟩
        rw [List.length_take]
        omega
      refine ⟨hreceived, sent ++ [line], [], pieces ++ [line.take reply.r.toNat], ?_, ?_,
        List.rel_append hpieces (.cons hpiece .nil), ?_⟩
      · rw [List.append_nil]
        exact hlines
      · simp only [next, hsame, List.flatten_append, List.flatten_singleton]
      · simp only [next, EchoPoint.resume, if_neg hfailed]
        rfl
  | welcome serverFd clientFd =>
    obtain rfl := Option.some.inj hcall
    refine h.of_unsent fun unsent hunsent => ?_
    obtain rfl : unsent = [] := hunsent
    simp only [EchoPoint.resume]
    split_ifs
    · exact Nat.zero_le 1
    · rfl
  | socket | setsockopt serverFd | bind serverFd | listen serverFd | ret r =>
    obtain rfl := Option.some.inj hcall
    refine h.of_unsent fun unsent hunsent => ?_
    simp only [EchoPoint.resume]
    split_ifs <;> exact hunsent
  | closeClient serverFd clientFd | closeServer serverFd r =>
    obtain rfl := Option.some.inj hcall
    exact h.of_unsent fun unsent hunsent => hunsent
  | stopped => cases hcall

/-- Pieces of lines, put together, leave out parts of the lines. -/
theorem flatten_sublist_of_pieces {pieces lines : List (List UInt8)}
    (h : List.Forall₂ IsPiece pieces lines) : pieces.flatten.Sublist lines.flatten := by
  induction h with
  | nil => exact List.Sublist.refl []
  | cons hpiece _ ih => exact hpiece.2.sublist.append ih

/-- **What the service gives back.** In every run, with every way of cutting up what is
received and sent, `send` has accepted of each line of the current client a piece from its
beginning, in the order of the lines; at most one line, the last, has no piece, and none
when the service comes back to `recv`. So the client gets no byte that it has not sent,
none twice, and none out of order. -/
theorem echoes_pieces {es : List (EchoCall × EchoReply)} {s : Echo}
    (hrun : Runs.exec Echo.step .initial es = some s) :
    s.received = (currentLines es).flatten ∧ s.accepted.Sublist s.received ∧
      ∃ sent unsent pieces, currentLines es = sent ++ unsent ∧ s.accepted = pieces.flatten ∧
        List.Forall₂ IsPiece pieces sent ∧ unsent.length ≤ 1 ∧
        ∀ serverFd clientFd, s.point = .recv serverFd clientFd → unsent = [] := by
  have hinitial : Echo.Pieces (currentLines []) .initial :=
    ⟨rfl, [], [], [], rfl, rfl, .nil, Nat.zero_le 1⟩
  have hpieces : s.Pieces (currentLines es) := by
    refine Runs.exec_history (R := fun es s => Echo.Pieces (currentLines es) s) ?_ hinitial hrun
    intro es s e t hs ht
    rw [currentLines, List.foldl_append]
    exact hs.step ht
  obtain ⟨hreceived, sent, unsent, pieces, hlines, haccepted, hsent, hunsent⟩ := hpieces
  refine ⟨hreceived, ?_, sent, unsent, pieces, hlines, haccepted, hsent, ?_, ?_⟩
  · rw [hreceived, haccepted, hlines, List.flatten_append]
    exact (flatten_sublist_of_pieces hsent).trans (List.sublist_append_left _ _)
  · exact hunsent.length_le
  · intro serverFd clientFd hpoint
    rw [hpoint] at hunsent
    exact hunsent

/-- A client sends two lines, of which `send` accepts two bytes each. -/
def twoLines : List (EchoCall × EchoReply) :=
  [(.socket, .of 3), (.setsockopt 3, .of 0), (.bind 3, .of 0), (.listen 3, .of 0),
    (.accept 3, .of 4), (.send 4 banner, .of 5), (.recv 4 64, ⟨3, 0, lit "one"⟩),
    (.send 4 (lit "one"), .of 2), (.recv 4 64, ⟨2, 0, lit "to"⟩), (.send 4 (lit "to"), .of 2)]

/-- The client gets its bytes but for one. -/
theorem echoes_pieces_twoLines :
    Runs.exec Echo.step .initial twoLines = some ⟨.recv 3 4, lit "oneto", lit "onto"⟩ ∧
      (lit "onto").Sublist (lit "oneto") := by
  have hrun : Runs.exec Echo.step .initial twoLines =
      some ⟨.recv 3 4, lit "oneto", lit "onto"⟩ := by decide
  exact ⟨hrun, (echoes_pieces hrun).2.1⟩

/-! ## Servers and their ends -/

/-- A call with which `echo_service` sets up its server. -/
def EchoCall.setsUp : EchoCall → Bool
  | .socket | .setsockopt _ | .bind _ | .listen _ => true
  | _ => false

/-- A call that sets up the server has failed. -/
def SetupFails (e : EchoCall × EchoReply) : Prop := e.1.setsUp = true ∧ e.2.r = -1

/-- What the service then still does: it closes what it has opened, and returns. -/
def EchoCall.closing : EchoCall → EchoReply → List EchoCall
  | .socket, reply => [.ret (-reply.errno)]
  | .setsockopt fd, reply | .bind fd, reply | .listen fd, reply =>
    [.close fd, .ret (-reply.errno)]
  | _, _ => []

/-- The service has these calls left to do. -/
def EchoPoint.Leaves : EchoPoint → List EchoCall → Prop
  | .closeServer fd r, calls => r ≠ 0 ∧ calls = [.close fd, .ret r]
  | .ret r, calls => r ≠ 0 ∧ calls = [.ret r]
  | .stopped, calls => calls = []
  | _, _ => False

/-- No call that sets up a server has failed. -/
def EchoPoint.Serves : EchoPoint → Prop
  | .closeServer _ r | .ret r => r = 0
  | .stopped => False
  | _ => True

/-- A call that sets up a server leaves the end to do when it fails. -/
theorem leaves_of_setupFails {s t : Echo} {e : EchoCall × EchoReply} (ht : s.step e = some t)
    (he : SetupFails e) (herrno : 0 < e.2.errno) : t.point.Leaves (e.1.closing e.2) := by
  obtain ⟨hcall, -, rfl⟩ := Echo.step_eq_some.mp ht
  obtain ⟨call, reply⟩ := e
  obtain ⟨hsets, hfailed⟩ := he
  have hresult : -reply.errno ≠ 0 := by
    have hpositive : 0 < reply.errno := herrno
    omega
  rw [Echo.point_next]
  cases hpoint : s.point with
  | socket | setsockopt serverFd | bind serverFd | listen serverFd =>
    rw [hpoint] at hcall
    obtain rfl := Option.some.inj hcall
    simp only [EchoPoint.resume, if_pos hfailed]
    exact ⟨hresult, rfl⟩
  | stopped =>
    rw [hpoint] at hcall
    cases hcall
  | _ =>
    rw [hpoint] at hcall
    obtain rfl := Option.some.inj hcall
    cases hsets

/-- **One call** of those left. -/
theorem EchoPoint.Leaves.step {s t : Echo} {e : EchoCall × EchoReply} {calls : List EchoCall}
    (h : s.point.Leaves calls) (ht : s.step e = some t) :
    ∃ rest, calls = e.1 :: rest ∧ t.point.Leaves rest := by
  obtain ⟨hcall, -, rfl⟩ := Echo.step_eq_some.mp ht
  rw [Echo.point_next]
  cases hpoint : s.point with
  | closeServer serverFd r =>
    rw [hpoint] at h hcall
    obtain ⟨hr, rfl⟩ := h
    exact ⟨[.ret r], congrArg (· :: _) (Option.some.inj hcall), hr, rfl⟩
  | ret r =>
    rw [hpoint] at h hcall
    obtain ⟨hr, rfl⟩ := h
    refine ⟨[], congrArg (· :: _) (Option.some.inj hcall), ?_⟩
    rw [resume, if_neg hr]
    rfl
  | stopped =>
    rw [hpoint] at hcall
    cases hcall
  | _ =>
    rw [hpoint] at h
    exact h.elim

/-- **The calls left**: what a run does of them comes first. -/
theorem EchoPoint.Leaves.exec {s t : Echo} {es : List (EchoCall × EchoReply)}
    {calls : List EchoCall} (h : s.point.Leaves calls) (hrun : Runs.exec Echo.step s es = some t) :
    ∃ rest, calls = es.map Prod.fst ++ rest ∧ t.point.Leaves rest := by
  induction es generalizing s calls with
  | nil =>
    obtain rfl : s = t := by simpa using hrun
    exact ⟨calls, rfl, h⟩
  | cons e es ih =>
    obtain ⟨u, hu, hrun⟩ := Runs.exec_cons_eq_some.mp hrun
    obtain ⟨calls, rfl, hleft⟩ := h.step hu
    obtain ⟨rest, rfl, hrest⟩ := ih hleft hrun
    exact ⟨rest, rfl, hrest⟩

/-- Nothing is left to do exactly when the service has stopped. -/
theorem EchoPoint.Leaves.stopped_iff {p : EchoPoint} {calls : List EchoCall}
    (h : p.Leaves calls) : p = .stopped ↔ calls = [] := by
  cases p with
  | closeServer serverFd r | ret r =>
    obtain ⟨-, rfl⟩ := h
    simp
  | stopped => exact ⟨fun _ => h, fun _ => rfl⟩
  | _ => exact h.elim

/-- **One call** that does not fail to set up a server. -/
theorem EchoPoint.Serves.step {s t : Echo} {e : EchoCall × EchoReply} (he : ¬ SetupFails e)
    (h : s.point.Serves) (ht : s.step e = some t) : t.point.Serves := by
  obtain ⟨hcall, -, rfl⟩ := Echo.step_eq_some.mp ht
  obtain ⟨call, reply⟩ := e
  rw [Echo.point_next]
  cases hpoint : s.point with
  | socket | setsockopt serverFd | bind serverFd | listen serverFd =>
    rw [hpoint] at hcall
    obtain rfl := Option.some.inj hcall
    have hworked : reply.r ≠ -1 := fun hfailed => he ⟨rfl, hfailed⟩
    rw [resume, if_neg hworked]
    trivial
  | accept serverFd | welcome serverFd clientFd | recv serverFd clientFd
  | send serverFd clientFd line =>
    simp only [resume]
    split_ifs <;> trivial
  | closeClient serverFd clientFd => trivial
  | closeServer serverFd r =>
    rw [hpoint] at h
    exact h
  | ret r =>
    rw [hpoint] at h
    have hr : r = 0 := h
    rw [resume, if_pos hr]
    trivial
  | stopped =>
    rw [hpoint] at h
    exact h.elim

/-- Without a failed call that sets up a server, the service goes on. -/
theorem EchoPoint.Serves.exec {s t : Echo} {es : List (EchoCall × EchoReply)}
    (hes : ∀ e ∈ es, ¬ SetupFails e) (h : s.point.Serves)
    (hrun : Runs.exec Echo.step s es = some t) : t.point.Serves := by
  refine Runs.exec_invariant (I := fun s : Echo => s.point.Serves) ?_ (Runs.along_of_labels hes) h
    hrun
  intro s e t he hs ht
  exact hs.step he ht

/-- What follows a failed call that sets up a server, and the end that it makes. -/
theorem leaves_after_setupFails {es pre rest : List (EchoCall × EchoReply)} {s : Echo}
    {e : EchoCall × EchoReply} (hrun : Runs.exec Echo.step .initial es = some s)
    (hes : es = pre ++ e :: rest) (he : SetupFails e) (herrno : 0 < e.2.errno) :
    ∃ left, e.1.closing e.2 = rest.map Prod.fst ++ left ∧ s.point.Leaves left := by
  rw [hes] at hrun
  obtain ⟨t, -, ht⟩ := Runs.exec_append_eq_some.mp hrun
  obtain ⟨u, hu, hrest⟩ := Runs.exec_cons_eq_some.mp ht
  exact (leaves_of_setupFails hu he herrno).exec hrest

/-- **How long the service runs.** In every run in which failed calls set `errno`, the
service stops exactly when a call that sets up a server has failed and it has closed what
it had opened and returned the error: after such a failure it does nothing else, and
before one it starts again each time that it returns, since it returns 0. So no client,
and no failed `accept`, can stop it. -/
theorem serves_until_setup_fails {es : List (EchoCall × EchoReply)} {s : Echo}
    (hrun : Runs.exec Echo.step .initial es = some s)
    (herrno : ∀ e ∈ es, SetupFails e → 0 < e.2.errno) :
    (s.point = .stopped ↔ ∃ pre e rest, es = pre ++ e :: rest ∧ SetupFails e ∧
      rest.map Prod.fst = e.1.closing e.2) ∧
    (∀ pre e rest, es = pre ++ e :: rest → SetupFails e →
      rest.map Prod.fst <+: e.1.closing e.2) ∧
    ((∀ e ∈ es, ¬ SetupFails e) → ∀ r reply, (.ret r, reply) ∈ es → r = 0) := by
  have hafter : ∀ pre e rest, es = pre ++ e :: rest → SetupFails e →
      ∃ left, e.1.closing e.2 = rest.map Prod.fst ++ left ∧ s.point.Leaves left := by
    intro pre e rest hes he
    have hmem : e ∈ es := by simp [hes]
    exact leaves_after_setupFails hrun hes he (herrno e hmem he)
  refine ⟨⟨fun hstopped => ?_, ?_⟩, ?_, ?_⟩
  · by_contra hnone
    have hall : ∀ e ∈ es, ¬ SetupFails e := by
      intro e hmem he
      obtain ⟨pre, rest, hes⟩ := List.append_of_mem hmem
      obtain ⟨left, hclosing, hleft⟩ := hafter pre e rest hes he
      rw [hleft.stopped_iff.mp hstopped, List.append_nil] at hclosing
      exact hnone ⟨pre, e, rest, hes, he, hclosing.symm⟩
    have hserves := EchoPoint.Serves.exec hall (s := .initial) trivial hrun
    rw [hstopped] at hserves
    exact hserves
  · rintro ⟨pre, e, rest, hes, he, hclosing⟩
    obtain ⟨left, hsame, hleft⟩ := hafter pre e rest hes he
    rw [hclosing] at hsame
    exact hleft.stopped_iff.mpr (List.self_eq_append_right.mp hsame)
  · intro pre e rest hes he
    obtain ⟨left, hclosing, -⟩ := hafter pre e rest hes he
    exact ⟨left, hclosing.symm⟩
  · intro hall r reply hmem
    obtain ⟨pre, rest, hes⟩ := List.append_of_mem hmem
    rw [hes] at hrun hall
    obtain ⟨t, ht, hrest⟩ := Runs.exec_append_eq_some.mp hrun
    obtain ⟨u, hu, -⟩ := Runs.exec_cons_eq_some.mp hrest
    have hserves := EchoPoint.Serves.exec (fun e he => hall e (List.mem_append_left _ he))
      (s := .initial) trivial ht
    obtain ⟨hcall, -, -⟩ := Echo.step_eq_some.mp hu
    cases hpoint : t.point with
    | ret r' =>
      rw [hpoint] at hcall hserves
      obtain rfl : r' = r := EchoCall.ret.inj (Option.some.inj hcall)
      exact hserves
    | _ =>
      rw [hpoint] at hcall
      cases hcall

/-- After a failed `accept` the service starts again, and then cannot bind. -/
def rebindRun : List (EchoCall × EchoReply) :=
  [(.socket, .of 3), (.setsockopt 3, .of 0), (.bind 3, .of 0), (.listen 3, .of 0),
    (.accept 3, ⟨-1, 23, []⟩), (.close 3, .of 0), (.ret 0, .of 0), (.socket, .of 3),
    (.setsockopt 3, .of 0), (.bind 3, ⟨-1, 112, []⟩), (.close 3, .of 0), (.ret (-112), .of 0)]

/-- After the failed `bind` the service has closed its socket, returned the error, and
stopped. -/
theorem serves_until_setup_fails_rebindRun :
    (Runs.exec Echo.step .initial rebindRun).map (fun s => s.point) = some .stopped := by
  have hend : (Runs.exec Echo.step .initial rebindRun).isSome = true := by decide
  obtain ⟨s, hs⟩ := Option.isSome_iff_exists.mp hend
  have herrno : ∀ e ∈ rebindRun, SetupFails e → 0 < e.2.errno := by
    unfold SetupFails
    decide
  have hstopped := (serves_until_setup_fails hs herrno).1.mpr
    ⟨rebindRun.take 9, (.bind 3, ⟨-1, 112, []⟩), [(.close 3, .of 0), (.ret (-112), .of 0)], rfl,
      ⟨rfl, rfl⟩, rfl⟩
  rw [hs, Option.map_some, hstopped]

end LedMatrix
