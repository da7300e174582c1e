import LedMatrix.EchoService
import LedMatrix.Lib.Resources
import Mathlib.Data.Finset.Card

/-!
# The sockets of the echo service

The service closes each descriptor that it has opened, and closes it once. At each
point it holds at most the server and one client.
-/

namespace LedMatrix

open Resources

/-! ## The uses of the descriptors -/

/-- What a call with its reply does with the descriptors. `socket` and `accept` open
one unless they fail. -/
def EchoCall.uses : EchoCall → EchoReply → List (Use Fd)
  | .socket, reply => if reply.r = -1 then [] else [.opened reply.r]
  | .accept fd, reply => .used fd :: if reply.r = -1 then [] else [.opened reply.r]
  | .setsockopt fd, _ | .bind fd, _ | .listen fd, _ | .send fd _, _ | .recv fd _, _ => [.used fd]
  | .close fd, _ => [.closed fd]
  | .ret _, _ => []

/-- What a run of calls does with them. -/
def descriptorUses (es : List (EchoCall × EchoReply)) : List (Use Fd) :=
  es.flatMap fun e => e.1.uses e.2

/-- The discipline that a run keeps. -/
structure SocketDiscipline (es : List (EchoCall × EchoReply)) : Prop where
  /-- A descriptor that the service does not hold has been closed exactly once each time
  that it was opened, and not used after the close. -/
  closed_once : ∀ fd, fd ∉ stillOpen (descriptorUses es) → Closed fd (descriptorUses es)
  /-- So has one that it holds, up to the last time that it was opened. -/
  held : ∀ fd, fd ∈ stillOpen (descriptorUses es) → Open fd (descriptorUses es)
  /-- At each `accept` only the server is open. -/
  client_closed : ∀ pre serverFd reply, pre ++ [(.accept serverFd, reply)] <+: es →
    stillOpen (descriptorUses pre) = {serverFd}
  /-- Each time that `echo_service` returns, nothing is open, and every descriptor has
  been closed exactly once. -/
  server_closed : ∀ pre r reply, pre ++ [(.ret r, reply)] <+: es →
    stillOpen (descriptorUses pre) = ∅ ∧ ∀ fd, Closed fd (descriptorUses pre)
  /-- At any time at most two descriptors are open. -/
  at_most_two : ∀ pre, pre <+: es → (stillOpen (descriptorUses pre)).card ≤ 2

/-! ## What the service holds -/

/-- The descriptors that the service holds at a point. -/
def EchoPoint.descriptors : EchoPoint → Finset Fd
  | .socket | .ret _ | .stopped => ∅
  | .setsockopt serverFd | .bind serverFd | .listen serverFd | .accept serverFd
  | .closeServer serverFd _ => {serverFd}
  | .welcome serverFd clientFd | .recv serverFd clientFd | .send serverFd clientFd _
  | .closeClient serverFd clientFd => {clientFd, serverFd}

/-- The client is not the server. -/
def EchoPoint.Distinct : EchoPoint → Prop
  | .welcome serverFd clientFd | .recv serverFd clientFd | .send serverFd clientFd _
  | .closeClient serverFd clientFd => clientFd ≠ serverFd
  | _ => True

/-- The service holds at most two descriptors. -/
theorem EchoPoint.card_descriptors_le (p : EchoPoint) : p.descriptors.card ≤ 2 := by
  cases p with
  | socket | ret r | stopped => exact Nat.zero_le 2
  | setsockopt serverFd | bind serverFd | listen serverFd | accept serverFd
  | closeServer serverFd r => exact (Finset.card_singleton serverFd).trans_le (Nat.le_succ 1)
  | welcome serverFd clientFd | recv serverFd clientFd | send serverFd clientFd line
  | closeClient serverFd clientFd => exact Finset.card_le_two

/-- A call uses only what the service holds, and afterwards the service holds what is
still open. -/
theorem EchoPoint.Distinct.resume {p : EchoPoint} {call : EchoCall} {reply : EchoReply}
    (h : p.Distinct) (hcall : p.call = some call) (hallows : call.Allows reply) :
    (p.resume reply).Distinct ∧
      Runs.exec Resources.step p.descriptors (call.uses reply) =
        some (p.resume reply).descriptors := by
  cases p with
  | socket =>
    obtain rfl := Option.some.inj hcall
    simp only [EchoPoint.resume, EchoCall.uses]
    split_ifs
    · exact ⟨trivial, rfl⟩
    · exact ⟨trivial, exec_opened (Finset.notMem_empty reply.r)⟩
  | setsockopt serverFd | bind serverFd | listen serverFd =>
    obtain rfl := Option.some.inj hcall
    have hused : serverFd ∈ ({serverFd} : Finset Fd) := Finset.mem_singleton_self serverFd
    simp only [EchoPoint.resume]
    split_ifs
    · exact ⟨trivial, exec_used hused⟩
    · exact ⟨trivial, exec_used hused⟩
  | accept serverFd =>
    obtain rfl := Option.some.inj hcall
    have hused : Runs.exec Resources.step {serverFd} [.used serverFd] = some {serverFd} :=
      exec_used (Finset.mem_singleton_self serverFd)
    simp only [EchoPoint.resume, EchoCall.uses]
    split_ifs with hfailed
    · exact ⟨trivial, hused⟩
    · -- The new descriptor is not the one of the server, which is open.
      have hnew : reply.r ≠ serverFd := (hallows.resolve_left hfailed).2
      refine ⟨hnew, Runs.exec_append_eq_some.mpr ⟨{serverFd}, hused, ?_⟩⟩
      exact exec_opened (mt Finset.mem_singleton.mp hnew)
  | welcome serverFd clientFd | recv serverFd clientFd | send serverFd clientFd line =>
    obtain rfl := Option.some.inj hcall
    have hused : clientFd ∈ ({clientFd, serverFd} : Finset Fd) :=
      Finset.mem_insert_self clientFd {serverFd}
    simp only [EchoPoint.resume]
    split_ifs <;> exact ⟨h, exec_used hused⟩
  | closeClient serverFd clientFd =>
    obtain rfl := Option.some.inj hcall
    have hleft : ({clientFd, serverFd} : Finset Fd).erase clientFd = {serverFd} :=
      Finset.erase_insert (mt Finset.mem_singleton.mp h)
    refine ⟨trivial, ?_⟩
    exact (exec_closed (Finset.mem_insert_self clientFd {serverFd})).trans (congrArg some hleft)
  | closeServer serverFd r =>
    obtain rfl := Option.some.inj hcall
    have hleft : ({serverFd} : Finset Fd).erase serverFd = ∅ := Finset.erase_singleton serverFd
    refine ⟨trivial, ?_⟩
    exact (exec_closed (Finset.mem_singleton_self serverFd)).trans (congrArg some hleft)
  | ret r =>
    obtain rfl := Option.some.inj hcall
    simp only [EchoPoint.resume]
    split_ifs <;> exact ⟨trivial, rfl⟩
  | stopped => cases hcall

/-- One step of the service. -/
theorem Echo.step_uses {s t : Echo} {e : EchoCall × EchoReply} (h : s.point.Distinct)
    (ht : s.step e = some t) :
    t.point.Distinct ∧
      Runs.exec Resources.step s.point.descriptors (e.1.uses e.2) = some t.point.descriptors := by
  obtain ⟨hcall, hallows, rfl⟩ := Echo.step_eq_some.mp ht
  rw [Echo.point_next]
  exact h.resume hcall hallows

/-- The uses of a run obey the discipline of resources, and at its end the service
holds what is still open. -/
theorem Echo.exec_uses {es : List (EchoCall × EchoReply)} {s : Echo}
    (hrun : Runs.exec Echo.step .initial es = some s) :
    Runs.exec Resources.step ∅ (descriptorUses es) = some s.point.descriptors :=
  (Runs.exec_flatMap (I := fun s => s.point.Distinct) (f := fun s => s.point.descriptors)
    (fun _ _ _ h ht => Echo.step_uses h ht) trivial hrun).2

/-- What is still open. -/
theorem Echo.stillOpen_eq {es : List (EchoCall × EchoReply)} {s : Echo}
    (hrun : Runs.exec Echo.step .initial es = some s) :
    stillOpen (descriptorUses es) = s.point.descriptors :=
  stillOpen_of_exec (exec_uses hrun)

/-- A descriptor that is not open has had whole lives. -/
theorem Echo.closed_of_not_open {es : List (EchoCall × EchoReply)} {s : Echo} {fd : Fd}
    (hrun : Runs.exec Echo.step .initial es = some s) (hfd : fd ∉ stillOpen (descriptorUses es)) :
    Closed fd (descriptorUses es) := by
  rw [stillOpen_eq hrun] at hfd
  exact (lives_of_exec (exec_uses hrun) fd).1 hfd

/-- One that is open has been opened once more. -/
theorem Echo.open_of_open {es : List (EchoCall × EchoReply)} {s : Echo} {fd : Fd}
    (hrun : Runs.exec Echo.step .initial es = some s) (hfd : fd ∈ stillOpen (descriptorUses es)) :
    Open fd (descriptorUses es) := by
  rw [stillOpen_eq hrun] at hfd
  exact (lives_of_exec (exec_uses hrun) fd).2 hfd

/-- At a call, the service has come to a point that makes it. -/
theorem Echo.exec_at_call {es pre : List (EchoCall × EchoReply)} {s : Echo}
    {e : EchoCall × EchoReply} (hrun : Runs.exec Echo.step .initial es = some s)
    (hpre : pre ++ [e] <+: es) :
    ∃ t, Runs.exec Echo.step .initial pre = some t ∧ t.point.call = some e.1 := by
  obtain ⟨t, u, ht, hu⟩ := Runs.step_of_prefix hpre hrun
  exact ⟨t, ht, (Echo.step_eq_some.mp hu).1⟩

/-- Only the server is held at an `accept`. -/
theorem EchoPoint.descriptors_of_accept {p : EchoPoint} {serverFd : Fd}
    (h : p.call = some (.accept serverFd)) : p.descriptors = {serverFd} := by
  cases p <;> cases h
  rfl

/-- Nothing is held at a return. -/
theorem EchoPoint.descriptors_of_ret {p : EchoPoint} {r : ℤ} (h : p.call = some (.ret r)) :
    p.descriptors = ∅ := by
  cases p <;> cases h
  rfl

/-- **Socket discipline.** In every run of the service, over any number of clients and
of restarts and whatever the calls reply, every descriptor is closed exactly once and
not used after its close, a client before the next `accept` and the server before
`echo_service` returns, and at most two are open at any time. -/
theorem socket_discipline {es : List (EchoCall × EchoReply)} {s : Echo}
    (hrun : Runs.exec Echo.step .initial es = some s) : SocketDiscipline es where
  closed_once _ hfd := Echo.closed_of_not_open hrun hfd
  held _ hfd := Echo.open_of_open hrun hfd
  client_closed pre serverFd reply hpre := by
    obtain ⟨t, ht, hcall⟩ := Echo.exec_at_call hrun hpre
    rw [Echo.stillOpen_eq ht, EchoPoint.descriptors_of_accept hcall]
  server_closed pre r reply hpre := by
    obtain ⟨t, ht, hcall⟩ := Echo.exec_at_call hrun hpre
    have hnone : stillOpen (descriptorUses pre) = ∅ := by
      rw [Echo.stillOpen_eq ht, EchoPoint.descriptors_of_ret hcall]
    refine ⟨hnone, fun fd => Echo.closed_of_not_open ht ?_⟩
    rw [hnone]
    exact Finset.notMem_empty fd
  at_most_two pre hpre := by
    obtain ⟨t, ht⟩ := Runs.exec_of_prefix hpre hrun
    rw [Echo.stillOpen_eq ht]
    exact t.point.card_descriptors_le

/-- One client is echoed a line and leaves, the banner does not reach the next one,
`accept` fails, and when the service starts again it gets no socket. -/
def twoClients : List (EchoCall × EchoReply) :=
  [(.socket, .of 3), (.setsockopt 3, .of 0), (.bind 3, .of 0), (.listen 3, .of 0),
    (.accept 3, .of 4), (.send 4 banner, .of 24), (.recv 4 64, ⟨2, 0, CText.lit "hi"⟩),
    (.send 4 (CText.lit "hi"), .of 2), (.recv 4 64, .of 0), (.close 4, .of 0),
    (.accept 3, .of 4), (.send 4 banner, .of (-1)), (.close 4, .of 0),
    (.accept 3, .of (-1)), (.close 3, .of 0), (.ret 0, .of 0),
    (.socket, ⟨-1, 24, []⟩), (.ret (-24), .of 0)]

/-- Descriptor 4 has been opened and closed twice. -/
theorem socket_discipline_twoClients :
    SocketDiscipline twoClients ∧
      usesOf 4 (descriptorUses twoClients) = [4, 1].flatMap (life 4) := by
  have hrun : Runs.exec Echo.step .initial twoClients = some ⟨.stopped, [], []⟩ := by decide
  exact ⟨socket_discipline hrun, by decide⟩

end LedMatrix
