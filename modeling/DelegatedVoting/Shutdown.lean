/-!
# Shutdown

A controller tells everybody who asks that the node shall stop. It can be triggered more than
once. A trigger raises a flag and sends a message on a channel, which keeps only the last message.
Who waits for a signal looks at the flag when they ask for the first time, and at the channel
whenever they ask; they are told once. Who has subscribed hears of every message, but if messages
come too fast only of the number of those that have been missed and of those that are kept.

* `Channel`, `Channel.send`, `Channel.subscribe`, `Channel.receive`: messages for everybody who has
  subscribed, of which the last ones are kept;
* `Shutdown`, `Shutdown.trigger`: the controller;
* `Shutdown.signal`, `Signal.poll`: waiting for a trigger;
* `Shutdown.subscribe`, `Receiver.receive`: hearing of the triggers.
-/

namespace DelegatedVoting

/-- Messages for everybody who has subscribed. They are numbered in the order in which they are
sent, from zero on. -/
structure Channel where
  /-- The number of messages that are kept. -/
  capacity : Nat
  /-- The number of messages that have been sent. -/
  sent : Nat := 0
  deriving DecidableEq, Repr

namespace Channel

/-- Somebody who hears of the messages, and the number of the message that they hear of next. -/
structure Receiver where
  next : Nat := 0
  deriving DecidableEq, Repr

/-- What a subscriber hears. -/
inductive Notice
  | empty
  | notified
  /-- So many messages have been missed. -/
  | lagged (missed : Nat)
  deriving DecidableEq, Repr

/-- Send a message. The oldest one is dropped if there are too many. -/
def send (c : Channel) : Channel := { c with sent := c.sent + 1 }

/-- Hear of the messages from now on. -/
def subscribe (c : Channel) : Receiver := ⟨c.sent⟩

/-- The number of the oldest message that is kept. -/
def oldest (c : Channel) : Nat := c.sent - c.capacity

/-- Ask for news. Messages that have been dropped are reported by their number. -/
def receive (c : Channel) (r : Receiver) : Notice × Receiver :=
  if r.next < c.oldest then (.lagged (c.oldest - r.next), ⟨c.oldest⟩)
  else if r.next < c.sent then (.notified, ⟨r.next + 1⟩)
  else (.empty, r)

end Channel

/-- Whether the node was told to stop, and the channel that tells it. -/
structure Shutdown where
  isTriggered : Bool := false
  channel : Channel := ⟨1, 0⟩
  deriving DecidableEq, Repr

namespace Shutdown

/-- Tell the node to stop. -/
def trigger (s : Shutdown) : Shutdown := ⟨true, s.channel.send⟩

/-! ### Subscribers -/

/-- What a subscriber hears of the triggers. -/
abbrev Notice := Channel.Notice

/-- Somebody who hears of the triggers. -/
abbrev Receiver := Channel.Receiver

/-- Hear of the triggers from now on. -/
def subscribe (s : Shutdown) : Receiver := s.channel.subscribe

/-- Ask for news. -/
def Receiver.receive (s : Shutdown) (r : Receiver) : Notice × Receiver := s.channel.receive r

/-! ### Signals -/

/-- What the one who waits is told. -/
inductive Poll
  | pending
  | ready
  /-- The signal was seen before. -/
  | done
  deriving DecidableEq, Repr

/-- How far the waiting has got. -/
inductive Signal.Stage
  /-- The flag has not been looked at. -/
  | fresh
  /-- The flag was not raised. -/
  | waiting
  | done
  deriving DecidableEq, Repr

/-- Somebody who waits for a trigger. They have subscribed before they look at the flag. -/
structure Signal where
  receiver : Receiver := {}
  stage : Signal.Stage := .fresh
  deriving DecidableEq, Repr

/-- Wait for a trigger from now on. -/
def signal (s : Shutdown) : Signal := ⟨s.subscribe, .fresh⟩

/-- Ask the channel whether the node was told to stop. -/
def Signal.await (s : Shutdown) (w : Signal) : Poll × Signal :=
  match w.receiver.receive s with
  | (.empty, r) => (.pending, ⟨r, .waiting⟩)
  | (_, r) => (.ready, ⟨r, .done⟩)

/-- Ask whether the node was told to stop. -/
def Signal.poll (s : Shutdown) (w : Signal) : Poll × Signal :=
  match w.stage with
  | .fresh => if s.isTriggered then (.ready, { w with stage := .done }) else w.await s
  | .waiting => w.await s
  | .done => (.done, w)

end Shutdown

end DelegatedVoting
