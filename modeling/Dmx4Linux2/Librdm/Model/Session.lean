import Dmx4Linux2.Librdm.Model.Api

/-!
# librdm — a session of the controller

The controller between its callers and a line that answers when it
likes. The future of `mute`, `unmute` and of a pass of `discoverDevices`
is a local variable: it is constructed, added to `m_futures`, waited for
and gone when the block it is declared in is left. The future of `get`
is allocated and never freed. The calls of several callers, the frames
the line delivers and the expiry of waits come in any order.
-/

namespace Dmx4Linux2

namespace Librdm

/-- What happens to a controller. -/
inductive Event
  /-- `mute` adds its future and sends. -/
  | mute (whom : ℕ)
  /-- `unmute` does. -/
  | unmute (whom : ℕ)
  /-- A pass of the loop of `discoverDevices` does. -/
  | discoverPass
  /-- `get` does, with a future on the heap. -/
  | get
  /-- The line delivers a frame to `RdmApi::handle`. -/
  | frame (data : DmxData)
  /-- The time of a `wait` is up. -/
  | timeout (p : ℕ)
  /-- The block in which the future at `p` is local is left. -/
  | leave (p : ℕ)

/-- A controller, with the local futures whose block has not been left
and those whose block has. -/
structure Session where
  api : RdmApi
  locals : List ℕ
  ended : List ℕ

namespace Session

/-- The controller as constructed. -/
def new (object : ℕ → RdmFuture) : Session := ⟨RdmApi.new object, [], []⟩

variable (s : Session)

/-- `Rdm::RdmFuture f; addFuture(f);` -/
def addLocal : Session :=
  { s with
    api := s.api.newFuture.addFuture s.api.next
    locals := s.api.next :: s.locals }

/-- `mute` and `unmute`: a broadcast request has no future. -/
def sendMute (whom : ℕ) : Session := if whom = broadcast then s else s.addLocal

/-- A block is left when its `wait` has returned. -/
def canLeave (p : ℕ) : Prop := p ∈ s.locals ∧ (s.api.object p).state ≠ .busy

instance (p : ℕ) : Decidable (s.canLeave p) := inferInstanceAs (Decidable (_ ∧ _))

/-- The controller after an event; a block that cannot be left stays. -/
def step : Event → Session
  | .mute whom => s.sendMute whom
  | .unmute whom => s.sendMute whom
  | .discoverPass => s.addLocal
  | .get => { s with api := s.api.newFuture.addFuture s.api.next }
  | .frame data => { s with api := s.api.handle data }
  | .timeout p => { s with api := s.api.waitFor p }
  | .leave p =>
    if s.canLeave p then { s with locals := s.locals.erase p, ended := p :: s.ended } else s

end Session

end Librdm

end Dmx4Linux2
