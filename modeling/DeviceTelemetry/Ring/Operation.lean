import DeviceTelemetry.Ring.Basic

/-!
# Operations on byte rings

The checked operations of a ring as data, so that a history of a ring is a list. A refused
operation leaves the ring as it was.
-/

set_option autoImplicit false

namespace DeviceTelemetry.Ring

inductive Operation where
  | write (bs : Bytes)
  /-- Writes bytes from `back` places before the end on. -/
  | writeBack (back : Nat) (bs : Bytes)
  | read (offset length : Nat)
  /-- Looks at the unread bytes in consecutive cells from `offset` on. -/
  | run (offset : Nat)
  | consume (length : Nat)
  | consumeBack (length : Nat)
deriving DecidableEq, Repr

inductive Answer where
  | done
  | bytes (bs : Bytes)
  | run (bs : Option Bytes)
deriving DecidableEq, Repr

def settle (r : Ring) : Except RingError Ring → Except RingError Answer × Ring
  | .ok r' => (.ok .done, r')
  | .error e => (.error e, r)

def perform (r : Ring) : Operation → Except RingError Answer × Ring
  | .write bs => r.settle (r.write bs)
  | .writeBack back bs => r.settle (r.writeBack back bs)
  | .read offset length => ((r.read offset length).map .bytes, r)
  | .run offset => (.ok (.run (r.run? offset)), r)
  | .consume length => r.settle (r.consume length)
  | .consumeBack length => r.settle (r.consumeBack length)

def performAll (r : Ring) (ops : List Operation) : Ring :=
  ops.foldl (fun r op => (r.perform op).2) r

end DeviceTelemetry.Ring
