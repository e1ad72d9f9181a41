import Dmx4Linux2.Librdm.Model.Api

/-!
# librdm — requests and replies on an ordered line

The controller on a line that delivers requests and replies in order,
with at most one reply to a request. Requests are numbered in the order
in which they are sent; a reply names the request it answers, and comes
in only if no later request has been answered. What the controller is
given of a reply is its bytes. The future of a request is the one its
call registers: none for a `set`, nor for a `mute` of all devices.
-/

namespace Dmx4Linux2

namespace Librdm

namespace Exchange

/-- A request of the controller. -/
inductive Request
  /-- The destructor of a setter commits it. -/
  | set (setter : RdmApiSetter)
  | get (who pid : ℕ)
  | mute (whom : ℕ)
  | unmute (whom : ℕ)

namespace Request

/-- The frame that is sent. -/
def data : Request → DmxData
  | set setter => setter.request
  | get who pid => getRequest who pid
  | mute whom => muteRequest discMute whom
  | unmute whom => muteRequest discUnMute whom

/-- The call adds a future before it sends. -/
def addsFuture : Request → Bool
  | set _ => false
  | get _ _ => true
  | mute whom | unmute whom => whom ≠ broadcast

def isGet : Request → Bool
  | get _ _ => true
  | _ => false

end Request

/-- A request that was sent, and the address of its future. -/
structure Sent where
  request : Request
  future : Option ℕ

end Exchange

/-- A controller, and what went over the line. -/
structure Exchange where
  api : RdmApi
  /-- The requests, in the order in which they were sent. -/
  sent : List Exchange.Sent
  /-- How many had been sent when the last reply came in. -/
  mark : ℕ
  /-- The first request that can still be answered. -/
  due : ℕ
  /-- The replies that came in: the request each one answers, and its
  bytes. -/
  replies : List (ℕ × DmxData)

namespace Exchange

inductive Event
  | send (r : Request)
  /-- The reply to the request with a number comes in. -/
  | reply (k : ℕ) (data : DmxData)
  /-- The time of a `wait` is up. -/
  | timeout (p : ℕ)

/-- The controller as constructed; nothing has been sent. -/
def new (object : ℕ → RdmFuture) : Exchange := ⟨RdmApi.new object, [], 0, 0, []⟩

variable (s : Exchange)

/-- `set`, `get`, `mute` and `unmute`, up to the frame that is sent. -/
def send (r : Request) : Exchange :=
  if r.addsFuture then
    { s with
      api := s.api.newFuture.addFuture s.api.next
      sent := s.sent ++ [⟨r, some s.api.next⟩] }
  else { s with sent := s.sent ++ [⟨r, none⟩] }

/-- The line can bring a reply to this request. -/
def canReply (k : ℕ) : Prop := s.due ≤ k ∧ k < s.sent.length

instance (k : ℕ) : Decidable (s.canReply k) := inferInstanceAs (Decidable (_ ∧ _))

/-- A reply that the line cannot bring does not come in. -/
def step : Event → Exchange
  | .send r => s.send r
  | .reply k data =>
    if s.canReply k then
      { s with
        api := s.api.handle data
        mark := s.sent.length
        due := k + 1
        replies := s.replies ++ [(k, data)] }
    else s
  | .timeout p => { s with api := s.api.waitFor p }

end Exchange

end Librdm

end Dmx4Linux2
