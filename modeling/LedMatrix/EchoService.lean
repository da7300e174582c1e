import LedMatrix.Lib.CText
import LedMatrix.Lib.Runs

/-!
# The echo service

`mdns_service.c`: the server that `mdns_service` starts and starts again. The service
is described by its points, one for each call of the socket API that it makes, with
the descriptors and the bytes it holds there. The replies to the calls come from
outside, within what the socket API allows.
-/

namespace LedMatrix

open CText

/-- A file descriptor. -/
abbrev Fd : Type := ℤ

/-! ## Calls and replies -/

/-- The calls that the service makes, and its own return. -/
inductive EchoCall
  | socket
  | setsockopt (fd : Fd)
  | bind (fd : Fd)
  | listen (fd : Fd)
  | accept (fd : Fd)
  | send (fd : Fd) (buf : List UInt8)
  | recv (fd : Fd) (size : ℕ)
  | close (fd : Fd)
  /-- `echo_service` returns to `mdns_service`. -/
  | ret (r : ℤ)
  deriving DecidableEq, Repr

/-- The reply to a call. -/
structure EchoReply where
  r : ℤ
  errno : ℤ
  /-- The bytes that `recv` has stored. -/
  stored : List UInt8
  deriving DecidableEq, Repr

/-- A reply without bytes. -/
def EchoReply.of (r : ℤ) : EchoReply := ⟨r, 0, []⟩

/-- What the socket API may reply. A call fails with -1. A new descriptor is not one
that is still open, such as the socket that accepts it. `send` accepts at least one
byte, but maybe not all, and `recv` stores at most as many as there is room for. -/
def EchoCall.Allows : EchoCall → EchoReply → Prop
  | .socket, reply => reply.r = -1 ∨ 0 ≤ reply.r
  | .setsockopt _, reply | .bind _, reply | .listen _, reply => reply.r = -1 ∨ reply.r = 0
  | .accept fd, reply => reply.r = -1 ∨ 0 ≤ reply.r ∧ reply.r ≠ fd
  | .send _ buf, reply => reply.r = -1 ∨ 1 ≤ reply.r ∧ reply.r ≤ buf.length
  | .recv _ size, reply =>
    reply.r = -1 ∧ reply.stored = [] ∨ reply.r = reply.stored.length ∧ reply.stored.length ≤ size
  | .close _, _ | .ret _, _ => True

instance : (call : EchoCall) → (reply : EchoReply) → Decidable (call.Allows reply)
  | .socket, _ | .setsockopt _, _ | .bind _, _ | .listen _, _ | .accept _, _ | .send _ _, _
  | .recv _ _, _ => inferInstanceAs (Decidable (_ ∨ _))
  | .close _, _ | .ret _, _ => inferInstanceAs (Decidable True)

/-! ## The service -/

/-- The banner of `welcome`, with the zero byte that `sizeof` counts. -/
def banner : List UInt8 := lit "Bonjour, Zephyr world!\n" ++ [0]

/-- `sizeof(line)`. -/
def lineSize : ℕ := 64

/-- The points at which the service waits for a reply. -/
inductive EchoPoint
  | socket
  | setsockopt (serverFd : Fd)
  | bind (serverFd : Fd)
  | listen (serverFd : Fd)
  | accept (serverFd : Fd)
  /-- In `welcome`. -/
  | welcome (serverFd clientFd : Fd)
  | recv (serverFd clientFd : Fd)
  /-- `line` holds these bytes, as many as `len` says. -/
  | send (serverFd clientFd : Fd) (line : List UInt8)
  /-- The client is closed, and the next one accepted. -/
  | closeClient (serverFd clientFd : Fd)
  /-- The server is closed, and `echo_service` returns `r`. -/
  | closeServer (serverFd : Fd) (r : ℤ)
  | ret (r : ℤ)
  /-- `mdns_service` has returned. -/
  | stopped
  deriving DecidableEq, Repr

/-- The call that the service makes. -/
def EchoPoint.call : EchoPoint → Option EchoCall
  | .socket => some .socket
  | .setsockopt serverFd => some (.setsockopt serverFd)
  | .bind serverFd => some (.bind serverFd)
  | .listen serverFd => some (.listen serverFd)
  | .accept serverFd => some (.accept serverFd)
  | .welcome _ clientFd => some (.send clientFd banner)
  | .recv _ clientFd => some (.recv clientFd lineSize)
  | .send _ clientFd line => some (.send clientFd line)
  | .closeClient _ clientFd => some (.close clientFd)
  | .closeServer serverFd _ => some (.close serverFd)
  | .ret r => some (.ret r)
  | .stopped => none

/-- What the service makes of the reply. -/
def EchoPoint.resume : EchoPoint → EchoReply → EchoPoint
  | .socket, reply => if reply.r = -1 then .ret (-reply.errno) else .setsockopt reply.r
  | .setsockopt serverFd, reply =>
    if reply.r = -1 then .closeServer serverFd (-reply.errno) else .bind serverFd
  | .bind serverFd, reply =>
    if reply.r = -1 then .closeServer serverFd (-reply.errno) else .listen serverFd
  | .listen serverFd, reply =>
    if reply.r = -1 then .closeServer serverFd (-reply.errno) else .accept serverFd
  | .accept serverFd, reply =>
    if reply.r = -1 then .closeServer serverFd 0 else .welcome serverFd reply.r
  | .welcome serverFd clientFd, reply =>
    if reply.r = -1 then .closeClient serverFd clientFd else .recv serverFd clientFd
  | .recv serverFd clientFd, reply =>
    if reply.r = -1 then .closeClient serverFd clientFd
    else if reply.r = 0 then .closeClient serverFd clientFd
    else .send serverFd clientFd reply.stored
  | .send serverFd clientFd _, reply =>
    if reply.r = -1 then .closeClient serverFd clientFd else .recv serverFd clientFd
  | .closeClient serverFd _, _ => .accept serverFd
  | .closeServer _ r, _ => .ret r
  -- `mdns_service` starts the service again as long as it returns 0.
  | .ret r, _ => if r = 0 then .socket else .stopped
  | .stopped, _ => .stopped

/-- The service, with what has gone through the current client's connection. -/
structure Echo where
  point : EchoPoint
  /-- The bytes that `recv` has stored. -/
  received : List UInt8
  /-- The bytes that `send` has accepted after the banner. -/
  accepted : List UInt8
  deriving DecidableEq, Repr

/-- `mdns_service` calls `echo_service`. -/
def Echo.initial : Echo := ⟨.socket, [], []⟩

/-- The service after a reply. A failed `send` has accepted nothing. -/
def Echo.next (s : Echo) (reply : EchoReply) : Echo :=
  match s.point with
  | .accept _ => ⟨s.point.resume reply, [], []⟩
  | .recv _ _ => { s with point := s.point.resume reply, received := s.received ++ reply.stored }
  | .send _ _ line =>
    { s with
      point := s.point.resume reply, accepted := s.accepted ++ line.take reply.r.toNat }
  | _ => { s with point := s.point.resume reply }

/-- One call with its reply. -/
def Echo.step (s : Echo) (e : EchoCall × EchoReply) : Option Echo :=
  if s.point.call = some e.1 ∧ e.1.Allows e.2 then some (s.next e.2) else none

/-- The next point. -/
theorem Echo.point_next (s : Echo) (reply : EchoReply) :
    (s.next reply).point = s.point.resume reply := by
  unfold next
  split <;> rfl

/-- A step makes the call of the point, with a reply that is allowed. -/
theorem Echo.step_eq_some {s t : Echo} {e : EchoCall × EchoReply} :
    s.step e = some t ↔ s.point.call = some e.1 ∧ e.1.Allows e.2 ∧ s.next e.2 = t := by
  simp only [step, Option.ite_none_right_eq_some, Option.some.injEq, and_assoc]

end LedMatrix
