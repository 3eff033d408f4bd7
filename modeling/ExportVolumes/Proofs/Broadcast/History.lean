import ExportVolumes.Broadcast
import Mathlib.Data.List.Basic

namespace ExportVolumes

/-!
The ring of a channel and its history.

What is done with a channel is done with its history as well, and the ring recounts the history:
it has room for the last items only, but these are all that a receiver can still be given
(`Broadcast.Recounts.act`).  So what a receiver finds is told by the items that it has not been
given yet, without the ring (`Broadcast.Recounts.receive?_eq`).
-/

namespace Broadcast

variable {α : Type}

/-! ## Actions -/

/-- What can be done with a channel. -/
inductive Action (α : Type) where
  | subscribe
  | send (value : α)
  | receive (receiver : Nat)
  | drop (receiver : Nat)
  | close

/-- The channel after an action.  Nobody subscribes to a closed channel or sends through it. -/
def act (b : Broadcast α) : Action α → Broadcast α
  | .subscribe => if b.closed then b else b.subscribe.2
  | .send value => if b.closed then b else b.send value
  | .receive receiver => ((b.receive? receiver).map Prod.snd).getD b
  | .drop receiver => (b.drop? receiver).getD b
  | .close => b.close

namespace History

/-- The number of items before the next one of a receiver that is still there. -/
def position? (history : History α) (receiver : Nat) : Option Nat :=
  (history.receivers[receiver]?).join

/-- The number of receivers that are still there. -/
def receiverCount (history : History α) : Nat :=
  (history.receivers.filter Option.isSome).length

/-- The history of a channel of a capacity after an action. -/
def act (capacity : Nat) (history : History α) : Action α → History α
  | .subscribe =>
      if history.closed then history
      else { history with receivers := history.receivers ++ [some history.sent.length] }
  | .send value =>
      if history.closed ∨ history.receiverCount = 0 then history
      else { history with sent := history.sent ++ [value] }
  | .receive receiver =>
      match history.position? receiver with
      | none => history
      | some position =>
          let next := (receive capacity history position).2
          { history with receivers := history.receivers.set receiver (some next) }
  | .drop receiver =>
      match history.position? receiver with
      | none => history
      | some _ => { history with receivers := history.receivers.set receiver none }
  | .close => { history with closed := true }

theorem position?_eq_some_iff {history : History α} {receiver position : Nat} :
    history.position? receiver = some position ↔
      history.receivers[receiver]? = some (some position) :=
  Option.join_eq_some_iff

theorem lt_length_of_position? {history : History α} {receiver position : Nat}
    (there : history.position? receiver = some position) : receiver < history.receivers.length :=
  (List.getElem?_eq_some_iff.mp (position?_eq_some_iff.mp there)).1

/-- While a receiver is there, items are not dropped. -/
theorem receiverCount_ne_zero {history : History α} {receiver position : Nat}
    (there : history.position? receiver = some position) : history.receiverCount ≠ 0 := by
  have member := List.mem_of_getElem? (position?_eq_some_iff.mp there)
  have kept : some position ∈ history.receivers.filter Option.isSome :=
    List.mem_filter.mpr ⟨member, rfl⟩
  exact Nat.pos_iff_ne_zero.mp (List.length_pos_of_mem kept)

/-- A receiver that finds nothing stays where it is. -/
theorem receive_of_seen (capacity : Nat) {history : History α} {position : Nat}
    (seen : history.sent.length ≤ position) :
    receive capacity history position = (if history.closed then .closed else .empty, position) := by
  rw [receive, List.drop_eq_nil_of_le seen]

/-- A receiver that is not up to date is told of what it has missed, or given the next item. -/
theorem receive_of_lt (capacity : Nat) {history : History α} {position : Nat}
    (behind : position < history.sent.length) :
    receive capacity history position =
      if capacity < history.sent.length - position then
        (.lagged (history.sent.length - position - capacity),
          position + (history.sent.length - position - capacity))
      else (.item history.sent[position], position + 1) := by
  rw [receive, List.drop_eq_getElem_cons behind]
  have count : history.sent.length - (position + 1) + 1 = history.sent.length - position := by omega
  simp only [List.length_drop, count]

theorem receive_le (capacity : Nat) {history : History α} {position : Nat}
    (reached : position ≤ history.sent.length) :
    (receive capacity history position).2 ≤ history.sent.length := by
  by_cases seen : history.sent.length ≤ position
  · rw [receive_of_seen capacity seen]
    exact reached
  · rw [receive_of_lt capacity (Nat.lt_of_not_le seen)]
    split
    · simp only
      omega
    · simp only
      omega

end History

/-! ## The ring -/

/-- A ring recounts a history: it has the same receivers, and each of the last items in its slot. -/
structure Recounts (history : History α) (b : Broadcast α) : Prop where
  positive : 0 < b.capacity
  tail : b.tail = history.sent.length
  size : b.ring.size = min b.capacity b.tail
  slots : ∀ position, position < b.tail → b.tail ≤ position + b.capacity →
    b.ring[position % b.capacity]? = history.sent[position]?
  receivers : b.receivers.toList = history.receivers
  closed : b.closed = history.closed
  reached : ∀ receiver position, history.position? receiver = some position →
    position ≤ history.sent.length

/-- Two positions that are less than a round apart have two slots. -/
theorem mod_ne_of_lt {earlier later capacity : Nat} (ordered : earlier < later)
    (near : later < earlier + capacity) : earlier % capacity ≠ later % capacity := by
  intro same
  have round := Nat.sub_mod_eq_zero_of_mod_eq same.symm
  rw [Nat.mod_eq_of_lt (by omega)] at round
  omega

namespace Recounts

variable {history : History α} {b : Broadcast α} {receiver position : Nat}
  (recounts : Recounts history b)

include recounts

theorem position? : b.position? receiver = history.position? receiver := by
  rw [Broadcast.position?, History.position?, ← recounts.receivers, Array.getElem?_toList]

theorem receiverCount : b.receiverCount = history.receiverCount := by
  rw [Broadcast.receiverCount, History.receiverCount, recounts.receivers]

/-- What the ring answers is what the history says. -/
theorem receive?_eq (there : history.position? receiver = some position) :
    b.receive? receiver =
      some ((History.receive b.capacity history position).1,
        b.moveTo receiver (History.receive b.capacity history position).2) := by
  have reached := recounts.reached receiver position there
  have tail := recounts.tail
  rw [Broadcast.receive?, recounts.position?, there]
  by_cases seen : history.sent.length ≤ position
  · have stays : b.moveTo receiver position = b := by
      have held := History.position?_eq_some_iff.mp there
      rw [← recounts.receivers, Array.getElem?_toList] at held
      rcases Array.getElem?_eq_some_iff.mp held with ⟨bound, same⟩
      rw [moveTo, Array.setIfInBounds, dif_pos bound, ← same, Array.set_getElem_self]
    have level : b.tail - position = 0 := by omega
    simp only [level, if_true, History.receive_of_seen _ seen, stays, recounts.closed]
  · have behind : position < history.sent.length := by omega
    have level : history.sent.length - position ≠ 0 := by omega
    rw [History.receive_of_lt _ behind, tail]
    by_cases lagged : b.capacity < history.sent.length - position
    · have oldest : history.sent.length - b.capacity =
          position + (history.sent.length - position - b.capacity) := by omega
      simp only [if_neg level, if_pos lagged, oldest]
    · have held := recounts.slots position (by omega) (by omega)
      rw [List.getElem?_eq_getElem behind] at held
      simp only [if_neg level, if_neg lagged, held]

/-! ## Actions on both -/

/-- Receivers may change as long as nobody comes to be ahead of what was sent. -/
theorem withReceivers {receivers : Array (Option Nat)}
    (reached : ∀ other position : Nat, (receivers[other]?).join = some position →
      position ≤ history.sent.length) :
    Recounts { history with receivers := receivers.toList } { b with receivers } where
  positive := recounts.positive
  tail := recounts.tail
  size := recounts.size
  slots := recounts.slots
  receivers := rfl
  closed := recounts.closed
  reached other position there := by
    rw [History.position?, Array.getElem?_toList] at there
    exact reached other position there

theorem reached_here (other position : Nat) (there : (b.receivers[other]?).join = some position) :
    position ≤ history.sent.length :=
  recounts.reached other position (recounts.position? ▸ there)

/-- A receiver that is given a new place, or none, is the only one that moves. -/
theorem place {place : Option Nat}
    (within : ∀ position, place = some position → position ≤ history.sent.length) :
    Recounts { history with receivers := history.receivers.set receiver place }
      { b with receivers := b.receivers.setIfInBounds receiver place } := by
  rw [← recounts.receivers, ← Array.toList_setIfInBounds]
  refine recounts.withReceivers (fun other position there => ?_)
  rw [Array.getElem?_setIfInBounds] at there
  split at there
  · split at there
    · exact within position there
    · cases there
  · exact recounts.reached_here other position there

theorem subscribe :
    Recounts { history with receivers := history.receivers ++ [some history.sent.length] }
      b.subscribe.2 := by
  rw [← recounts.receivers, ← recounts.tail, ← Array.toList_push]
  refine recounts.withReceivers (fun other position there => ?_)
  rw [Array.getElem?_push] at there
  split at there
  · cases there
    exact Nat.le_of_eq recounts.tail
  · exact recounts.reached_here other position there

/-- A new item takes the slot of the oldest one, or a new slot while there is room. -/
theorem send (heard : b.receiverCount ≠ 0) (value : α) :
    Recounts { history with sent := history.sent ++ [value] } (b.send value) := by
  have positive := recounts.positive
  have tail := recounts.tail
  have size := recounts.size
  have slot : b.tail % b.capacity < b.capacity := Nat.mod_lt _ positive
  rw [Broadcast.send, if_neg heard]
  refine { positive, tail := ?_, size := ?_, slots := ?_, receivers := recounts.receivers,
           closed := recounts.closed, reached := ?_ }
  · simp [tail]
  · by_cases room : b.tail < b.capacity
    · simp only [if_pos room, Array.size_push]
      omega
    · simp only [if_neg room, Array.size_setIfInBounds]
      omega
  · intro position earlier near
    simp only at earlier near ⊢
    by_cases latest : position = b.tail
    · rw [latest]
      conv => rhs; rw [tail, List.getElem?_concat_length]
      by_cases room : b.tail < b.capacity
      · have free : b.tail % b.capacity = b.ring.size := by
          rw [Nat.mod_eq_of_lt room]
          omega
        rw [if_pos room, free, Array.getElem?_push_size]
      · rw [if_neg room, Array.getElem?_setIfInBounds_self_of_lt (by omega)]
    · have before : position < b.tail := by omega
      have held := recounts.slots position before (by omega)
      rw [List.getElem?_append_left (tail ▸ before), ← held]
      have apart := mod_ne_of_lt before (by omega : b.tail < position + b.capacity)
      by_cases room : b.tail < b.capacity
      · have low : position % b.capacity ≠ b.ring.size := by
          rw [Nat.mod_eq_of_lt room] at apart
          omega
        rw [if_pos room, Array.getElem?_push, if_neg low]
      · rw [if_neg room, Array.getElem?_setIfInBounds_ne apart.symm]
  · intro receiver position there
    have bound := recounts.reached receiver position there
    simp only [List.length_append, List.length_singleton]
    omega

/-- What is done with a channel is done with its history. -/
theorem act (action : Action α) : Recounts (history.act b.capacity action) (b.act action) := by
  cases action with
  | subscribe =>
      rw [History.act, Broadcast.act, recounts.closed]
      split
      · exact recounts
      · exact recounts.subscribe
  | send value =>
      rw [History.act, Broadcast.act, recounts.closed, ← recounts.receiverCount]
      by_cases ended : history.closed = true
      · rw [if_pos (Or.inl ended), if_pos ended]
        exact recounts
      · rw [if_neg ended]
        by_cases unheard : b.receiverCount = 0
        · rw [if_pos (Or.inr unheard), Broadcast.send, if_pos unheard]
          exact recounts
        · rw [if_neg (not_or.mpr ⟨ended, unheard⟩)]
          exact recounts.send unheard value
  | receive receiver =>
      rw [History.act, Broadcast.act]
      cases there : history.position? receiver with
      | none =>
          rw [Broadcast.receive?, recounts.position?, there]
          exact recounts
      | some position =>
          rw [recounts.receive?_eq there]
          refine recounts.place ?_
          rintro _ ⟨⟩
          exact History.receive_le b.capacity (recounts.reached receiver position there)
  | drop receiver =>
      rw [History.act, Broadcast.act, drop?, recounts.position?]
      cases there : history.position? receiver with
      | none => exact recounts
      | some position => exact recounts.place (by rintro _ ⟨⟩)
  | close =>
      exact { positive := recounts.positive, tail := recounts.tail, size := recounts.size,
              slots := recounts.slots, receivers := recounts.receivers, closed := rfl,
              reached := recounts.reached }

end Recounts

/-- A new channel has an empty history. -/
theorem recounts_ofCapacity? {asked : Nat} {b : Broadcast α}
    (opened : ofCapacity? α asked = some b) : Recounts {} b := by
  unfold ofCapacity? at opened
  split at opened
  · cases opened
  · cases opened
    exact { positive := Nat.pos_of_isPowerOfTwo (Nat.isPowerOfTwo_nextPowerOfTwo asked)
            tail := rfl, size := by simp, slots := by simp, receivers := rfl, closed := rfl,
            reached := by simp [History.position?] }

end Broadcast
end ExportVolumes
