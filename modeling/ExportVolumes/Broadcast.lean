namespace ExportVolumes

/-!
A bounded channel that hands each item to every receiver.

The last `capacity` items are held in a ring, and each receiver has a position in the
sequence of all items.  A receiver that has fallen behind by more than the capacity is told
once how many items it has missed and goes on with the oldest one still held.

`Broadcast.History` is the same channel without the ring: it keeps every item, and a receiver
is what it has not seen yet.
-/

/-- A bounded channel.  Position `p` of the sequence of items is held in slot
`p % capacity` of the ring until position `p + capacity` takes its place. -/
structure Broadcast (α : Type) where
  capacity : Nat
  ring : Array α := #[]
  /-- The number of items sent so far, which is the position of the next one. -/
  tail : Nat := 0
  /-- The position of each receiver, none for a receiver that is gone. -/
  receivers : Array (Option Nat) := #[]
  closed : Bool := false

namespace Broadcast

/-- What a receiver finds when it looks for an item. -/
inductive Received (α : Type) where
  | item (value : α)
  | lagged (missed : Nat)
  | empty
  | closed
  deriving DecidableEq, Repr

/-- The capacity of a bus of events unless another one is asked for. -/
def defaultCapacity : Nat := 256

/-- The largest capacity: no memory could be addressed that holds more items. -/
def maxCapacity : Nat := Nat.pow 2 55

/-- A channel whose capacity is the least power of two that is not below the one asked for.
There is no channel of capacity zero, nor one above `maxCapacity`. -/
def ofCapacity? (α : Type) (asked : Nat) : Option (Broadcast α) :=
  if asked = 0 ∨ maxCapacity < asked then none else some { capacity := asked.nextPowerOfTwo }

variable {α : Type}

/-- The number of receivers that are still there. -/
def receiverCount (b : Broadcast α) : Nat :=
  (b.receivers.toList.filter Option.isSome).length

/-- Add a receiver that sees what is sent from now on. -/
def subscribe (b : Broadcast α) : Nat × Broadcast α :=
  (b.receivers.size, { b with receivers := b.receivers.push (some b.tail) })

/-- Send an item.  With no receiver to see it, it is dropped. -/
def send (b : Broadcast α) (value : α) : Broadcast α :=
  if b.receiverCount = 0 then b
  else
    { b with
      ring :=
        if b.tail < b.capacity then b.ring.push value
        else b.ring.setIfInBounds (b.tail % b.capacity) value
      tail := b.tail + 1 }

/-- The position of a receiver that is still there. -/
def position? (b : Broadcast α) (receiver : Nat) : Option Nat :=
  (b.receivers[receiver]?).join

/-- Let a receiver go on from a position. -/
def moveTo (b : Broadcast α) (receiver position : Nat) : Broadcast α :=
  { b with receivers := b.receivers.setIfInBounds receiver (some position) }

/-- Look for the next item of a receiver. -/
def receive? (b : Broadcast α) (receiver : Nat) : Option (Received α × Broadcast α) :=
  match b.position? receiver with
  | none => none
  | some position =>
      let behind := b.tail - position
      if behind = 0 then some (if b.closed then .closed else .empty, b)
      else if b.capacity < behind then
        some (.lagged (behind - b.capacity), b.moveTo receiver (b.tail - b.capacity))
      else
        match b.ring[position % b.capacity]? with
        | some value => some (.item value, b.moveTo receiver (position + 1))
        | none => some (.empty, b)

/-- Let a receiver go.  `none` if it is not there. -/
def drop? (b : Broadcast α) (receiver : Nat) : Option (Broadcast α) :=
  (b.position? receiver).map fun _ =>
    { b with receivers := b.receivers.setIfInBounds receiver none }

/-- Close the channel: what it holds can still be received. -/
def close (b : Broadcast α) : Broadcast α :=
  { b with closed := true }

/-- Receive until nothing is left, at most `fuel` times. -/
def drainWithin (receiver : Nat) : Nat → Broadcast α → List (Received α) × Broadcast α
  | 0, b => ([], b)
  | fuel + 1, b =>
      match b.receive? receiver with
      | none => ([], b)
      | some (.empty, b) => ([.empty], b)
      | some (.closed, b) => ([.closed], b)
      | some (received, b) =>
          let (others, b) := drainWithin receiver fuel b
          (received :: others, b)

/-- Receive until nothing is left.  A receiver has at most one lag and `capacity` items before
it, and the last answer says that nothing is left. -/
def drain (b : Broadcast α) (receiver : Nat) : List (Received α) × Broadcast α :=
  drainWithin receiver (min b.capacity b.tail + 2) b

/-! ## The channel as a history -/

/-- A channel that forgets nothing: all items sent, and for each receiver the number of items
before the next one it will be given. -/
structure History (α : Type) where
  sent : List α := []
  receivers : List (Option Nat) := []
  closed : Bool := false

namespace History

/-- What a receiver that can look back on at most `capacity` items finds, and where it goes on. -/
def receive (capacity : Nat) (history : History α) (position : Nat) : Received α × Nat :=
  match history.sent.drop position with
  | [] => (if history.closed then .closed else .empty, position)
  | value :: others =>
      let behind := others.length + 1
      if capacity < behind then (.lagged (behind - capacity), position + (behind - capacity))
      else (.item value, position + 1)

end History

end Broadcast
end ExportVolumes
