import LedMatrix.EchoService

/-!
# What the echo service echoes

The service passes each line that it has received to `send`, once. What `send` does
not accept is lost.
-/

namespace LedMatrix

/-- When the service comes back to `recv`, `send` has accepted exactly the bytes
received from the client. -/
def Echo.Echoes (s : Echo) : Prop :=
  ∀ serverFd clientFd, s.point = .recv serverFd clientFd → s.accepted = s.received

/-- A line is accepted as a whole, unless `send` fails. -/
def Echo.SendsAll (s : Echo) (e : EchoCall × EchoReply) : Prop :=
  match s.point with
  | .send _ _ line => e.2.r = -1 ∨ e.2.r = line.length
  | _ => True

/-- Up to the line that is being sent, everything received is accepted. -/
def Echo.InStep (s : Echo) : Prop :=
  match s.point with
  | .welcome _ _ | .recv _ _ => s.accepted = s.received
  | .send _ _ line => s.accepted ++ line = s.received
  | _ => True

/-- A service that is in step echoes. -/
theorem Echo.InStep.echoes {s : Echo} (h : s.InStep) : s.Echoes := by
  intro serverFd clientFd hpoint
  simpa [InStep, hpoint] using h

/-- A step that does not send part of a line stays in step. -/
theorem Echo.InStep.step {s t : Echo} {e : EchoCall × EchoReply} (h : s.InStep)
    (ht : s.step e = some t) (hall : s.SendsAll e) : t.InStep := by
  obtain ⟨call, reply⟩ := e
  obtain ⟨point, received, accepted⟩ := s
  obtain ⟨-, -, rfl⟩ := Echo.step_eq_some.mp ht
  cases point with
  | accept serverFd =>
    simp only [next, EchoPoint.resume]
    split_ifs
    · trivial
    · rfl
  | welcome serverFd clientFd =>
    simp only [next, EchoPoint.resume]
    split_ifs
    · trivial
    · exact h
  | recv serverFd clientFd =>
    have hsame : accepted = received := h
    simp only [next, EchoPoint.resume]
    split_ifs
    · trivial
    · trivial
    · exact congrArg (· ++ reply.stored) hsame
  | send serverFd clientFd line =>
    have hline : accepted ++ line = received := h
    simp only [next, EchoPoint.resume]
    split_ifs with hfailed
    · trivial
    · have hcount : reply.r = line.length := hall.resolve_left hfailed
      have htake : line.take reply.r.toNat = line := List.take_of_length_le (by omega)
      simp only [InStep, htake, hline]
  | socket | setsockopt serverFd | bind serverFd | listen serverFd | ret r =>
    simp only [next, EchoPoint.resume]
    split_ifs <;> trivial
  | closeClient serverFd clientFd => trivial
  | closeServer serverFd r => trivial
  | stopped => trivial

/-- A step that sends part of a line does not echo. -/
theorem Echo.InStep.not_echoes {s t : Echo} {e : EchoCall × EchoReply} (h : s.InStep)
    (ht : s.step e = some t) (hpart : ¬ s.SendsAll e) : ¬ t.Echoes := by
  obtain ⟨call, reply⟩ := e
  obtain ⟨point, received, accepted⟩ := s
  obtain ⟨hcall, hallows, rfl⟩ := Echo.step_eq_some.mp ht
  obtain ⟨serverFd, clientFd, line, rfl⟩ : ∃ serverFd clientFd line,
      point = .send serverFd clientFd line := by
    cases point with
    | send serverFd clientFd line => exact ⟨serverFd, clientFd, line, rfl⟩
    | _ => exact absurd trivial hpart
  obtain ⟨hfailed, hlength⟩ : reply.r ≠ -1 ∧ reply.r ≠ line.length := not_or.mp hpart
  obtain rfl := Option.some.inj hcall
  have hline : accepted ++ line = received := h
  have hcount : 1 ≤ reply.r ∧ reply.r ≤ line.length := hallows.resolve_left hfailed
  intro hechoes
  have hsame : accepted ++ line.take reply.r.toNat = received :=
    hechoes serverFd clientFd (by simp only [next, EchoPoint.resume, if_neg hfailed])
  have hlengths := congrArg List.length (hsame.trans hline.symm)
  simp only [List.length_append, List.length_take] at hlengths
  omega

/-- **When the service echoes.** In every run of the service, `send` has accepted
exactly the bytes received each time that the service comes back to `recv`, if and
only if every `send` of a line that does not fail accepts the whole line. -/
theorem echoes_iff {es : List (EchoCall × EchoReply)} {s : Echo}
    (hrun : Runs.exec Echo.step .initial es = some s) :
    (∀ pre t, pre <+: es → Runs.exec Echo.step .initial pre = some t → t.Echoes) ↔
      Runs.Along Echo.step Echo.SendsAll .initial es :=
  Runs.exec_prefix_iff_along (I := Echo.InStep) (fun _ h => h.echoes)
    (fun _ _ _ h ht hall => h.step ht hall) (fun _ _ _ h ht hpart => h.not_echoes ht hpart) trivial
    hrun

/-- A client is accepted and sends two bytes, of which `send` accepts so many. -/
def twoBytes (count : ℤ) : List (EchoCall × EchoReply) :=
  [(.socket, .of 3), (.setsockopt 3, .of 0), (.bind 3, .of 0), (.listen 3, .of 0),
    (.accept 3, .of 4), (.send 4 banner, .of 24), (.recv 4 64, ⟨2, 0, CText.lit "hi"⟩),
    (.send 4 (CText.lit "hi"), .of count)]

/-- The client gets back its two bytes if `send` accepts both. -/
theorem echoes_twoBytes :
    Runs.exec Echo.step .initial (twoBytes 2) =
        some ⟨.recv 3 4, CText.lit "hi", CText.lit "hi"⟩ ∧
      Echo.Echoes ⟨.recv 3 4, CText.lit "hi", CText.lit "hi"⟩ := by
  have hrun : Runs.exec Echo.step .initial (twoBytes 2) =
      some ⟨.recv 3 4, CText.lit "hi", CText.lit "hi"⟩ := by decide
  have halong : Runs.Along Echo.step Echo.SendsAll .initial (twoBytes 2) := by
    iterate 7 refine (Runs.along_cons_iff rfl).mpr ⟨trivial, ?_⟩
    exact (Runs.along_cons_iff rfl).mpr ⟨.inr rfl, trivial⟩
  exact ⟨hrun, (echoes_iff hrun).mpr halong _ _ List.prefix_rfl hrun⟩

/-- The second byte is lost if `send` accepts only one. -/
theorem echoes_not_oneByte :
    Runs.exec Echo.step .initial (twoBytes 1) =
        some ⟨.recv 3 4, CText.lit "hi", CText.lit "h"⟩ ∧
      ¬ Echo.Echoes ⟨.recv 3 4, CText.lit "hi", CText.lit "h"⟩ := by
  refine ⟨by decide, fun h => ?_⟩
  exact absurd (h 3 4 rfl) (by decide)

end LedMatrix
