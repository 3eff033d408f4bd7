import ExportVolumes.Proofs.Broadcast.Delivery
import Mathlib.Data.List.DropRight

namespace ExportVolumes

/-!
Receiving until nothing is left.

The loop looks again after a lag as it does after an item, and a lag takes nothing off the items
that are held.  Still it ends: a lag leaves no more before the receiver than the channel holds, so
that there is no second one, and then every round takes one item
(`Broadcast.Recounts.drains`).  Rounds enough to see the loop to its end are the loop itself
(`Broadcast.Drains.drainWithin_eq`), so the bound of `Broadcast.drain` cuts nothing off.
-/

namespace Broadcast

variable {α : Type} {b after : Broadcast α} {receiver position : Nat}

/-! ## The loop -/

/-- Whether an answer says that nothing is left. -/
def Received.isLast : Received α → Bool
  | .empty | .closed => true
  | _ => false

/-- The answer to a receiver that has nothing before it. -/
def ending (b : Broadcast α) : Received α :=
  if b.closed then .closed else .empty

theorem isLast_ending (b : Broadcast α) : b.ending.isLast = true := by
  unfold ending
  split <;> rfl

/-- A receiver looks until it is told that nothing is left: its answers, and the channel then. -/
inductive Drains (receiver : Nat) : Broadcast α → List (Received α) → Broadcast α → Prop
  | last {b after : Broadcast α} {answer : Received α}
      (asked : b.receive? receiver = some (answer, after)) (nothing : answer.isLast = true) :
      Drains receiver b [answer] after
  | more {b next after : Broadcast α} {answer : Received α} {answers : List (Received α)}
      (asked : b.receive? receiver = some (answer, next)) (further : answer.isLast = false)
      (onward : Drains receiver next answers after) : Drains receiver b (answer :: answers) after

/-- With as many rounds as it takes, or more, the bounded loop is the loop. -/
theorem Drains.drainWithin_eq {answers : List (Received α)}
    (drains : Drains receiver b answers after) {fuel : Nat} (enough : answers.length ≤ fuel) :
    drainWithin receiver fuel b = (answers, after) := by
  induction drains generalizing fuel with
  | @last b after answer asked nothing =>
      cases fuel with
      | zero => cases enough
      | succ fuel =>
          rw [drainWithin, asked]
          cases answer with
          | item value => cases nothing
          | lagged missed => cases nothing
          | empty => rfl
          | closed => rfl
  | @more b next after answer answers asked further onward ih =>
      cases fuel with
      | zero => cases enough
      | succ fuel =>
          rw [drainWithin, asked]
          cases answer with
          | item value => simp only [ih (Nat.le_of_succ_le_succ enough)]
          | lagged missed => simp only [ih (Nat.le_of_succ_le_succ enough)]
          | empty => cases further
          | closed => cases further

/-! ## One round -/

theorem moveTo_moveTo (b : Broadcast α) (receiver first second : Nat) :
    (b.moveTo receiver first).moveTo receiver second = b.moveTo receiver second := by
  simp only [moveTo, Array.setIfInBounds_setIfInBounds]

namespace Recounts

variable {history : History α} (recounts : Recounts history b)
  (there : history.position? receiver = some position)

include recounts there

/-- A receiver that is moved to a place in the history stands there. -/
theorem exists_moveTo {reached : Nat} (within : reached ≤ history.sent.length) :
    ∃ later, Recounts later (b.moveTo receiver reached) ∧
      later.sent = history.sent ∧ later.position? receiver = some reached := by
  refine ⟨{ history with receivers := history.receivers.set receiver (some reached) },
    recounts.place ?_, rfl, ?_⟩
  · rintro _ ⟨⟩
    exact within
  · rw [History.position?, List.getElem?_set_self (History.lt_length_of_position? there),
      Option.join_some]

/-- A receiver that has items before it is answered by what they are, and is then done with some of
them. -/
theorem receive :
    let next := Outlook.next b.capacity b.closed (history.sent.drop position)
    b.receive? receiver = some (next.1, b.moveTo receiver (position + next.2)) ∧
      ∃ later, Recounts later (b.moveTo receiver (position + next.2)) ∧
        later.sent = history.sent ∧ later.position? receiver = some (position + next.2) := by
  have answered := recounts.receive?_eq there
  rw [History.receive_eq, ← recounts.closed] at answered
  have within := History.receive_le b.capacity (recounts.reached receiver position there)
  rw [History.receive_eq, ← recounts.closed] at within
  exact ⟨answered, recounts.exists_moveTo there within⟩

/-! ## All rounds -/

/-- A receiver that has no more before it than is held is given one item after the other. -/
theorem drains_held (near : (history.sent.drop position).length ≤ b.capacity) :
    Drains receiver b ((history.sent.drop position).map .item ++ [b.ending])
      (b.moveTo receiver b.tail) := by
  induction unread : history.sent.drop position generalizing b history position with
  | nil =>
      have asked := (recounts.receive there).1
      have latest : position = b.tail := by
        have reached := recounts.reached receiver position there
        have seen := List.drop_eq_nil_iff.mp unread
        rw [recounts.tail]
        exact Nat.le_antisymm reached seen
      rw [unread, Outlook.next_nil, Nat.add_zero, latest] at asked
      exact .last asked b.isLast_ending
  | cons value others ih =>
      rcases recounts.receive there with ⟨asked, later, recountsLater, sent, moved⟩
      rw [unread] at near
      rw [unread, Outlook.next_cons near] at asked recountsLater moved
      have left : later.sent.drop (position + 1) = others := by
        rw [sent, ← List.drop_drop, unread, List.drop_one, List.tail_cons]
      have onward := ih recountsLater moved (left ▸ (Nat.le_of_succ_le near)) left
      rw [moveTo_moveTo] at onward
      exact .more asked rfl onward

/-- What a receiver is given until nothing is left: a lag if it has more before it than is held,
and the items that are held. -/
theorem drains :
    let unread := history.sent.drop position
    let lag := unread.length - b.capacity
    Drains receiver b
      ((if b.capacity < unread.length then [.lagged lag] else []) ++
        ((unread.drop lag).map .item ++ [b.ending]))
      (b.moveTo receiver b.tail) := by
  intro unread lag
  by_cases near : unread.length ≤ b.capacity
  · have level : lag = 0 := Nat.sub_eq_zero_of_le near
    rw [if_neg (Nat.not_lt.mpr near), level, List.nil_append, List.drop_zero]
    exact recounts.drains_held there near
  · have lagged := Nat.lt_of_not_le near
    rcases recounts.receive there with ⟨asked, later, recountsLater, sent, moved⟩
    rw [Outlook.next_of_lt lagged] at asked recountsLater moved
    have left : later.sent.drop (position + lag) = unread.drop lag := by
      rw [sent, ← List.drop_drop]
    have onward := recountsLater.drains_held moved (by
      simp only [left, List.length_drop, lag, moveTo]
      omega)
    rw [moveTo_moveTo, left] at onward
    rw [if_pos lagged]
    exact .more asked rfl onward

/-- A receiver that has been moved behind all items has nothing before it. -/
theorem settled :
    (b.moveTo receiver b.tail).receive? receiver =
      some (b.ending, (b.moveTo receiver b.tail).moveTo receiver b.tail) := by
  rcases recounts.exists_moveTo there (Nat.le_of_eq recounts.tail) with ⟨later, moved, sent, here⟩
  have nothing : later.sent.drop b.tail = [] := by
    rw [sent]
    exact List.drop_eq_nil_of_le (Nat.le_of_eq recounts.tail.symm)
  have asked := (moved.receive here).1
  simp only [nothing, Outlook.next_nil, Nat.add_zero] at asked
  exact asked

end Recounts

/-! ## The items that are before a receiver -/

namespace Outlook

variable {capacity : Nat} (outlook : Outlook α)

/-- By an action, nothing comes to be before a receiver but what is sent. -/
theorem suffix_act (capacity receiver : Nat) (action : Action α) (rest : List (Action α)) :
    (outlook.act capacity receiver action).unread.getD [] ++
        (outlook.act capacity receiver action).coming rest <:+
      outlook.unread.getD [] ++ outlook.coming (action :: rest) := by
  cases action with
  | subscribe =>
      rw [act]
      split
      · exact List.suffix_rfl
      · simp only
        split
        · exact List.suffix_append _ _
        · exact List.suffix_rfl
  | send value =>
      by_cases ended : outlook.closed = true
      · simp only [act, coming, if_pos ended]
        exact List.suffix_rfl
      · simp only [act, coming, if_neg ended, published]
        cases outlook.unread with
        | none => exact List.suffix_cons value _
        | some unread =>
            simp only [Option.map_some, Option.getD_some, List.append_assoc]
            exact List.suffix_rfl
  | receive asker =>
      rw [act]
      split
      · cases outlook.unread with
        | none => exact List.suffix_rfl
        | some unread => exact (List.suffix_append_self_iff.mpr (List.drop_suffix _ unread))
      · exact List.suffix_rfl
  | drop other =>
      rw [act]
      split
      · exact List.suffix_append _ _
      · exact List.suffix_rfl
  | close =>
      simp only [act, coming, published, if_true, ite_self]
      exact List.suffix_rfl

/-- What is before a receiver after a run was before it at the beginning, or was sent since. -/
theorem suffix_run {unread : List α} {actions : List (Action α)}
    (before : (outlook.run capacity receiver actions).unread = some unread) :
    unread <:+ outlook.unread.getD [] ++ outlook.coming actions := by
  induction actions generalizing outlook with
  | nil =>
      rw [run, List.foldl_nil] at before
      rw [before, coming, published, ite_self, List.append_nil]
      exact List.suffix_rfl
  | cons action rest ih =>
      exact (ih _ before).trans (outlook.suffix_act capacity receiver action rest)

end Outlook

theorem rtake_of_suffix {list latest : List α} (suffix : latest <:+ list) {count : Nat}
    (short : count ≤ latest.length) : list.rtake count = latest.drop (latest.length - count) := by
  rcases suffix with ⟨earlier, rfl⟩
  have split : (earlier ++ latest).length - count = earlier.length + (latest.length - count) := by
    rw [List.length_append]
    omega
  rw [List.rtake, split, List.drop_length_add_append]

/-! ## Flushing -/

/-- What comes of receiving until nothing is left, for a receiver that some items are before of
which the channel still holds the latest. -/
structure Flushes (b : Broadcast α) (receiver before : Nat) (held : List α) : Prop where
  /-- The loop ends, with at most one round for each item that is held and two more. -/
  ends : Drains receiver b (b.drain receiver).1 (b.drain receiver).2
  rounds : (b.drain receiver).1.length ≤ min before b.capacity + 2
  /-- A lag comes first if more items are before the receiver than are held, and not else. -/
  yields : (b.drain receiver).1 =
    (if b.capacity < before then [.lagged (before - b.capacity)] else []) ++
      (held.map .item ++ [b.ending])
  count : held.length = min before b.capacity
  /-- Nothing changes but that the receiver is where the next item will be. -/
  leaves : (b.drain receiver).2 = b.moveTo receiver b.tail
  settled : ((b.drain receiver).2.receive? receiver).map Prod.fst = some b.ending

/-- A receiver is given what the channel still holds of the items before it. -/
theorem Recounts.flushes {history : History α} (recounts : Recounts history b)
    (there : history.position? receiver = some position) {list : List α}
    (latest : history.sent.drop position <:+ list) :
    b.Flushes receiver (b.tail - position)
      (list.rtake (min (b.tail - position) b.capacity)) := by
  have drains := recounts.drains there
  have length : (history.sent.drop position).length = b.tail - position := by
    rw [List.length_drop, ← recounts.tail]
  have held : (history.sent.drop position).drop (b.tail - position - b.capacity) =
      list.rtake (min (b.tail - position) b.capacity) := by
    rw [rtake_of_suffix latest (by rw [length]; exact Nat.min_le_left _ _), length]
    congr 1
    omega
  have count : (list.rtake (min (b.tail - position) b.capacity)).length =
      min (b.tail - position) b.capacity := by
    rw [← held, List.length_drop, length]
    omega
  simp only [length, held] at drains
  generalize list.rtake (min (b.tail - position) b.capacity) = items at drains count
  generalize before_eq : b.tail - position = before at drains count
  have rounds : ((if b.capacity < before then [Received.lagged (before - b.capacity)] else []) ++
      (items.map Received.item ++ [b.ending])).length ≤ min before b.capacity + 2 := by
    simp only [List.length_append, List.length_map, List.length_singleton, count]
    split
    · rw [List.length_singleton]
      omega
    · rw [List.length_nil]
      omega
  have drained : b.drain receiver = (_, b.moveTo receiver b.tail) :=
    drains.drainWithin_eq (rounds.trans (by omega))
  constructor
  case ends =>
    rw [drained]
    exact drains
  case rounds =>
    rw [drained]
    exact rounds
  case yields => rw [drained]
  case count => exact count
  case leaves => rw [drained]
  case settled => rw [drained, recounts.settled there, Option.map_some]

/-- Whatever was done with a channel, a receiver that looks until nothing is left is told once of
what it has missed, if anything, is given the latest items as far as they are held, in the order in
which they were sent, and has nothing before it then. -/
theorem drain_flushes {asked : Nat} {start : Broadcast α}
    (opened : ofCapacity? α asked = some start) {actions : List (Action α)}
    (there : (start.run actions).position? receiver = some position) :
    let b := start.run actions
    let before := b.tail - position
    b.capacity = start.capacity ∧ (b.closed = true ↔ .close ∈ actions) ∧
      b.Flushes receiver before ((published actions).rtake (min before b.capacity)) := by
  intro b before
  rcases (recounts_ofCapacity? opened).run receiver actions with ⟨capacity, later, recounts, shown⟩
  rw [recounts.position?] at there
  have unread : (({} : Outlook α).run start.capacity receiver actions).unread =
      some (later.sent.drop position) := by
    rw [← History.outlook_new receiver, ← shown, History.outlook, there, Option.map_some]
  have closed : b.closed = true ↔ .close ∈ actions := by
    have ended := Outlook.closed_run start.capacity receiver ({} : Outlook α) actions
    rw [← History.outlook_new receiver, ← shown] at ended
    rw [recounts.closed]
    exact ended.trans (or_iff_right Bool.false_ne_true)
  exact ⟨capacity, closed, recounts.flushes there (Outlook.suffix_run {} unread)⟩

open private Nat.nextPowerOfTwo.go from Init.Data.Nat.Power2.Basic

/-- A receiver of a channel for two items that has taken the first one and has three more before it
is told of one, given the two others, and told that the channel is closed. -/
theorem drain_flushes_behind :
    let start : Broadcast Nat := { capacity := 2 }
    let actions : List (Action Nat) :=
      [.subscribe, .send 1, .receive 0, .send 2, .send 3, .send 4, .close]
    ofCapacity? Nat 2 = some start ∧ (start.run actions).position? 0 = some 1 ∧
      ((start.run actions).drain 0).1 = [.lagged 1, .item 3, .item 4, .closed] ∧
      (start.run actions).Flushes 0 3 [3, 4] := by
  intro start actions
  have opened : ofCapacity? Nat 2 = some start := by
    simp [ofCapacity?, maxCapacity, Nat.nextPowerOfTwo, Nat.nextPowerOfTwo.go, start]
  have there : (start.run actions).position? 0 = some 1 := by decide
  have behind : (start.run actions).tail - 1 = 3 := by decide
  have capacity : (start.run actions).capacity = 2 := by decide
  have latest : (published actions).rtake (min 3 2) = [3, 4] := by decide
  have flushes := (drain_flushes opened there).2.2
  rw [behind, capacity, latest] at flushes
  exact ⟨opened, there, by decide, flushes⟩

end Broadcast
end ExportVolumes
