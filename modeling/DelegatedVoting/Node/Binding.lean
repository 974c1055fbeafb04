import DelegatedVoting.Address

/-!
# Bindings

A node awaits requests at an address of its own machine. The machine has the addresses by which it
names itself, and those that stand for many machines may be bound, too, although no request is ever
sent there.

* `Binding.Problem`, `Binding.check`: whether a host may be bound;
* `Binding.isReachable`: whether requests come to a host.
-/

namespace DelegatedVoting.Binding

/-- Why an address is not bound. -/
inductive Problem
  /-- The host is another machine. -/
  | foreign
  /-- The host is no place for a conversation, or is not fully given. -/
  | unfit
  /-- Somebody awaits requests there. -/
  | taken
  deriving DecidableEq, Repr

/-- The report of the system. -/
def Problem.message : Problem → String
  | .foreign => "Cannot assign requested address (os error 99)"
  | .unfit => "Invalid argument (os error 22)"
  | .taken => "Address already in use (os error 98)"

/-- The host that eight groups stand for if only the last two of them matter. -/
def plain : Host → Host
  | .long [0, 0, 0, 0, 0, 0xFFFF, g, h] =>
    .short (UInt8.ofNat (g.toNat / 256)) (UInt8.ofNat g.toNat)
      (UInt8.ofNat (h.toNat / 256)) (UInt8.ofNat h.toNat)
  | host => host

/-- Whether a host stands for all of a machine's own hosts. -/
def isEvery : Host → Bool
  | .short 0 0 0 0 => true
  | .long gs => gs = [0, 0, 0, 0, 0, 0, 0, 0]
  | _ => false

/-- Whether a host is one by which a machine names itself. -/
def isOwn : Host → Bool
  | .short a .. => a = 127
  | .long gs => gs = [0, 0, 0, 0, 0, 0, 0, 1]

/-- Whether a host stands for all hosts of a network. -/
def isBroadcast : Host → Bool
  | .short a 255 255 255 => a = 127 || a = 255
  | _ => false

/-- Whether a host stands for those machines that have joined a group. -/
def isGroup : Host → Bool
  | .short a .. => 224 ≤ a && a < 240
  | .long gs => gs.head?.any (0xFF00 ≤ ·)

/-- Whether a host has its meaning only on one link of the network. -/
def isLinkLocal : Host → Bool
  | .short .. => false
  | .long gs => gs.head?.any fun g => 0xFE80 ≤ g && g < 0xFEC0

/-- Whether a host may be bound. With eight groups neither a group of machines nor a host of some
link that is not told fits. -/
def check (host : Host) : Except Problem Unit :=
  let host := plain host
  if isEvery host || isOwn host || isBroadcast host then .ok ()
  else match host with
    | .short .. => if isGroup host then .ok () else .error .foreign
    | .long _ => .error (if isGroup host || isLinkLocal host then .unfit else .foreign)

/-- Whether requests come to a host. -/
def isReachable (host : Host) : Bool :=
  let host := plain host
  isEvery host || (isOwn host && !isBroadcast host)

end DelegatedVoting.Binding
