import ExportVolumes.Proofs.Broadcast.History
import Mathlib.Data.List.Forall2

namespace ExportVolumes

/-!
What receivers are given.

All that a receiver can tell of a channel is whether it is closed and which items it has not been
given yet, and this, its outlook, changes with the actions of others only where they send or close
(`Broadcast.Recounts.observed_eq`).  Every answer that a receiver is given covers the next items:
an item itself, a lag as many items as it counts, and the other answers none
(`Broadcast.Outlook.covers`).  So what a receiver finds in the course of a run covers the items
that were sent since it subscribed, in order and without a gap (`Broadcast.delivery`).
-/

namespace Broadcast

variable {α : Type}

/-! ## Capacities -/

open private Nat.nextPowerOfTwo.go from Init.Data.Nat.Power2.Basic

/-- Doubling stops at the first power that is not below a number. -/
theorem nextPowerOfTwo_go_bounds {number power : Nat} (positive : 0 < power)
    (small : power < 2 * number) :
    number ≤ Nat.nextPowerOfTwo.go number power positive ∧
      Nat.nextPowerOfTwo.go number power positive < 2 * number := by
  rw [Nat.nextPowerOfTwo.go]
  split
  · exact nextPowerOfTwo_go_bounds _ (by omega)
  · omega
termination_by number - power

/-- The capacity of a channel is the one asked for, rounded up to a power of two. -/
theorem capacity_bounds {asked : Nat} {b : Broadcast α} (opened : ofCapacity? α asked = some b) :
    b.capacity.isPowerOfTwo ∧ asked ≤ b.capacity ∧ b.capacity < 2 * asked := by
  unfold ofCapacity? at opened
  split at opened
  · cases opened
  · rename_i admitted
    cases opened
    exact ⟨Nat.isPowerOfTwo_nextPowerOfTwo asked,
      nextPowerOfTwo_go_bounds Nat.one_pos (by omega)⟩

/-! ## Runs -/

/-- The channel after some actions. -/
def run (b : Broadcast α) (actions : List (Action α)) : Broadcast α :=
  actions.foldl act b

/-- What a receiver finds by an action. -/
def found (receiver : Nat) (b : Broadcast α) : Action α → Option (Received α)
  | .receive asker => if asker = receiver then (b.receive? receiver).map Prod.fst else none
  | _ => none

/-- What a receiver finds in the course of some actions. -/
def observed (receiver : Nat) : Broadcast α → List (Action α) → List (Received α)
  | _, [] => []
  | b, action :: rest => (b.found receiver action).toList ++ observed receiver (b.act action) rest

/-- The items that are sent before the channel is closed. -/
def published : List (Action α) → List α
  | [] => []
  | .close :: _ => []
  | .send value :: rest => value :: published rest
  | _ :: rest => published rest

namespace Action

/-- Whether an action is a subscription. -/
def isSubscription : Action α → Bool
  | .subscribe => true
  | _ => false

/-- Whether an action is anything but what another receiver does for itself. -/
def concerns (receiver : Nat) : Action α → Bool
  | .receive other | .drop other => other = receiver
  | _ => true

end Action

/-- The items that an answer stands for. -/
inductive Covers : List α → Received α → Prop
  | item (value : α) : Covers [value] (.item value)
  | lagged (missed : List α) : Covers missed (.lagged missed.length)
  | empty : Covers [] .empty
  | closed : Covers [] .closed

/-- What a receiver is told when it looks for the next item: a lag exactly if more items are unread
than the channel holds, and that there is nothing only if nothing is unread. -/
structure Told (capacity : Nat) (ended : Prop) (unread : List α) (answer : Received α) : Prop where
  item : ∀ value, answer = .item value ↔ unread.head? = some value ∧ unread.length ≤ capacity
  lagged : ∀ missed, answer = .lagged missed ↔
    missed = unread.length - capacity ∧ capacity < unread.length
  empty : answer = .empty ↔ unread = [] ∧ ¬ended
  closed : answer = .closed ↔ unread = [] ∧ ended

/-! ## Outlooks -/

/-- What a receiver can tell of a channel: whether it is closed, how many have subscribed, and the
items that it has not been given yet if it is there. -/
structure Outlook (α : Type) where
  closed : Bool := false
  count : Nat := 0
  unread : Option (List α) := none

/-- The outlook of a receiver on a channel with a history. -/
def History.outlook (receiver : Nat) (history : History α) : Outlook α where
  closed := history.closed
  count := history.receivers.length
  unread := (history.position? receiver).map history.sent.drop

namespace Outlook

/-- The outlook of a receiver that has just subscribed. -/
def joined (receiver : Nat) : Outlook α where
  count := receiver + 1
  unread := some []

/-- What a receiver finds that has not been given some items yet, and how many of them it is done
with then. -/
def next (capacity : Nat) (closed : Bool) (unread : List α) : Received α × Nat :=
  History.receive capacity { sent := unread, closed } 0

/-- The outlook of a receiver after an action. -/
def act (capacity receiver : Nat) (outlook : Outlook α) : Action α → Outlook α
  | .subscribe =>
      if outlook.closed then outlook
      else { outlook with
        count := outlook.count + 1
        unread := if receiver = outlook.count then some [] else outlook.unread }
  | .send value =>
      if outlook.closed then outlook
      else { outlook with unread := outlook.unread.map (· ++ [value]) }
  | .receive asker =>
      if asker = receiver then
        { outlook with
          unread := outlook.unread.map fun unread =>
            unread.drop (next capacity outlook.closed unread).2 }
      else outlook
  | .drop other => if other = receiver then { outlook with unread := none } else outlook
  | .close => { outlook with closed := true }

/-- What a receiver finds by an action. -/
def found (capacity receiver : Nat) (outlook : Outlook α) : Action α → Option (Received α)
  | .receive asker =>
      if asker = receiver then
        outlook.unread.map fun unread => (next capacity outlook.closed unread).1
      else none
  | _ => none

/-- The outlook of a receiver after some actions. -/
def run (capacity receiver : Nat) (outlook : Outlook α) (actions : List (Action α)) : Outlook α :=
  actions.foldl (act capacity receiver) outlook

/-- What a receiver finds in the course of some actions. -/
def observed (capacity receiver : Nat) : Outlook α → List (Action α) → List (Received α)
  | _, [] => []
  | outlook, action :: rest =>
      (outlook.found capacity receiver action).toList ++
        observed capacity receiver (outlook.act capacity receiver action) rest

theorem next_nil (capacity : Nat) (closed : Bool) :
    next capacity closed ([] : List α) = (if closed then .closed else .empty, 0) :=
  rfl

theorem next_of_lt {capacity : Nat} {unread : List α} (lagged : capacity < unread.length)
    (closed : Bool) :
    next capacity closed unread =
      (.lagged (unread.length - capacity), unread.length - capacity) := by
  rw [next, History.receive_of_lt capacity (by simp only; omega)]
  simp only [Nat.sub_zero, if_pos lagged, Nat.zero_add]

theorem next_cons {capacity : Nat} {value : α} {others : List α}
    (near : (value :: others).length ≤ capacity) (closed : Bool) :
    next capacity closed (value :: others) = (.item value, 1) := by
  rw [next, History.receive_of_lt capacity (by simp)]
  simp only [Nat.sub_zero, if_neg (Nat.not_lt.mpr near), List.getElem_cons_zero, Nat.zero_add]

/-- An answer covers what the receiver is done with. -/
theorem covers (capacity : Nat) (closed : Bool) (unread : List α) :
    Covers (unread.take (next capacity closed unread).2) (next capacity closed unread).1 := by
  cases unread with
  | nil =>
      cases closed with
      | false => exact .empty
      | true => exact .closed
  | cons value others =>
      by_cases near : (value :: others).length ≤ capacity
      · rw [next_cons near]
        exact .item value
      · rw [next_of_lt (Nat.lt_of_not_le near)]
        have length : ((value :: others).take ((value :: others).length - capacity)).length =
            (value :: others).length - capacity := by
          rw [List.length_take]
          omega
        conv => rhs; rw [← length]
        exact .lagged _

end Outlook

/-! ## What a channel shows -/

namespace History

variable {history : History α} {receiver position : Nat}

/-- Where nothing was done with a channel yet, nobody is there. -/
theorem outlook_new (receiver : Nat) : ({} : History α).outlook receiver = {} :=
  rfl

/-- What a receiver is given next is told by what it has not been given. -/
theorem receive_eq (capacity : Nat) (history : History α) (position : Nat) :
    receive capacity history position =
      ((Outlook.next capacity history.closed (history.sent.drop position)).1,
        position + (Outlook.next capacity history.closed (history.sent.drop position)).2) := by
  by_cases seen : history.sent.length ≤ position
  · rw [receive_of_seen capacity seen, List.drop_eq_nil_of_le seen, Outlook.next_nil]
    rfl
  · have behind : position < history.sent.length := by omega
    have count : (history.sent.drop position).length = history.sent.length - position :=
      List.length_drop
    rw [receive_of_lt capacity behind]
    by_cases lagged : capacity < history.sent.length - position
    · rw [if_pos lagged, Outlook.next_of_lt (count ▸ lagged), count]
    · rw [if_neg lagged]
      rw [List.drop_eq_getElem_cons behind] at count ⊢
      rw [Outlook.next_cons (by omega)]

/-- The outlook after a subscription: the new receiver has nothing before it yet. -/
theorem outlook_subscribe (receiver : Nat) (history : History α) :
    outlook receiver
        { history with receivers := history.receivers ++ [some history.sent.length] } =
      { history.outlook receiver with
        count := history.receivers.length + 1
        unread :=
          if receiver = history.receivers.length then some []
          else (history.outlook receiver).unread } := by
  simp only [outlook, List.length_append, List.length_singleton, Outlook.mk.injEq, true_and]
  by_cases latest : receiver = history.receivers.length
  · rw [if_pos latest, latest, position?, List.getElem?_concat_length, Option.join_some,
      Option.map_some, List.drop_length]
  · rw [if_neg latest, position?, position?]
    by_cases earlier : receiver < history.receivers.length
    · rw [List.getElem?_append_left earlier]
    · have beyond : (history.receivers ++ [some history.sent.length]).length ≤ receiver := by
        rw [List.length_append, List.length_singleton]
        omega
      rw [List.getElem?_eq_none beyond, List.getElem?_eq_none (Nat.le_of_not_lt earlier)]

/-- The outlook after an item was sent: the item is the last one before every receiver. -/
theorem outlook_send (value : α)
    (reached : ∀ position, history.position? receiver = some position →
      position ≤ history.sent.length) :
    outlook receiver { history with sent := history.sent ++ [value] } =
      { history.outlook receiver with
        unread := (history.outlook receiver).unread.map (· ++ [value]) } := by
  simp only [outlook, Outlook.mk.injEq, true_and, Option.map_map]
  change (history.position? receiver).map _ = _
  cases there : history.position? receiver with
  | none => rfl
  | some position =>
      rw [Option.map_some, List.drop_append_of_le_length (reached position there)]
      rfl

/-- The outlook after a receiver was given a place: no other receiver can tell. -/
theorem outlook_place {mover : Nat} (there : history.position? mover = some position)
    (receiver : Nat) (place : Option Nat) :
    outlook receiver { history with receivers := history.receivers.set mover place } =
      { history.outlook receiver with
        unread :=
          if mover = receiver then place.map history.sent.drop
          else (history.outlook receiver).unread } := by
  simp only [outlook, List.length_set, Outlook.mk.injEq, true_and]
  by_cases same : mover = receiver
  · rw [if_pos same, ← same, position?, List.getElem?_set_self (lt_length_of_position? there),
      Option.join_some]
  · rw [if_neg same, position?, position?, List.getElem?_set_ne same]

end History

namespace Recounts

variable {history : History α} {b : Broadcast α} (recounts : Recounts history b) (receiver : Nat)

include recounts

/-- The outlook of a receiver changes as the history does. -/
theorem outlook_act (action : Action α) :
    (history.act b.capacity action).outlook receiver =
      (history.outlook receiver).act b.capacity receiver action := by
  have closed : (history.outlook receiver).closed = history.closed := rfl
  cases action with
  | subscribe =>
      rw [History.act, Outlook.act, closed]
      split
      · rfl
      · exact history.outlook_subscribe receiver
  | send value =>
      rw [History.act, Outlook.act, closed]
      by_cases ended : history.closed = true
      · rw [if_pos (Or.inl ended), if_pos ended]
      · rw [if_neg ended]
        split
        · -- With nobody there to hear of the item, there is nothing unread.
          rename_i unheard
          have absent : (history.outlook receiver).unread = none := by
            cases there : history.position? receiver with
            | none => rw [History.outlook, there, Option.map_none]
            | some position =>
                exact absurd (unheard.resolve_left ended) (History.receiverCount_ne_zero there)
          rw [absent, Option.map_none, ← absent]
          rfl
        · exact History.outlook_send value (recounts.reached receiver)
  | receive asker =>
      rw [History.act, Outlook.act]
      cases asked : history.position? asker with
      | none =>
          by_cases same : asker = receiver
          · rw [if_pos same]
            rw [same] at asked
            simp only [History.outlook, asked, Option.map_none]
          · rw [if_neg same]
      | some position =>
          simp only [History.outlook_place asked]
          by_cases same : asker = receiver
          · rw [if_pos same, if_pos same]
            simp only [History.outlook, ← same, asked, Option.map_some, History.receive_eq,
              List.drop_drop]
          · rw [if_neg same, if_neg same]
  | drop other =>
      rw [History.act, Outlook.act]
      cases asked : history.position? other with
      | none =>
          by_cases same : other = receiver
          · rw [if_pos same]
            rw [same] at asked
            simp only [History.outlook, asked, Option.map_none]
          · rw [if_neg same]
      | some position =>
          simp only [History.outlook_place asked]
          by_cases same : other = receiver
          · rw [if_pos same, if_pos same, Option.map_none]
          · rw [if_neg same, if_neg same]
  | close => rfl

/-- What a receiver finds is told by its outlook. -/
theorem found_eq (action : Action α) :
    b.found receiver action = (history.outlook receiver).found b.capacity receiver action := by
  cases action with
  | receive asker =>
      rw [found, Outlook.found]
      by_cases same : asker = receiver
      · rw [if_pos same, if_pos same]
        cases there : history.position? receiver with
        | none =>
            rw [receive?, recounts.position?, there, History.outlook, there]
            rfl
        | some position =>
            rw [recounts.receive?_eq there, History.receive_eq]
            simp only [History.outlook, there, Option.map_some]
      · rw [if_neg same, if_neg same]
  | _ => rfl

end Recounts

theorem capacity_act (b : Broadcast α) (action : Action α) :
    (b.act action).capacity = b.capacity := by
  cases action with
  | subscribe =>
      rw [act]
      split <;> rfl
  | send value =>
      rw [act, send]
      split
      · rfl
      · split <;> rfl
  | receive receiver =>
      rw [act, receive?]
      split
      · rfl
      · simp only
        repeat' split
        all_goals rfl
  | drop receiver =>
      rw [act, drop?]
      cases b.position? receiver <;> rfl
  | close => rfl

namespace Recounts

variable {history : History α} {b : Broadcast α}

/-- What a receiver finds in the course of a run is told by its outlook at the beginning. -/
theorem observed_eq (recounts : Recounts history b) (receiver : Nat) (actions : List (Action α)) :
    b.observed receiver actions =
      (history.outlook receiver).observed b.capacity receiver actions := by
  induction actions generalizing b history with
  | nil => rfl
  | cons action rest ih =>
      have onward := ih (recounts.act action)
      rw [capacity_act, recounts.outlook_act] at onward
      rw [observed, Outlook.observed, recounts.found_eq, onward]

/-- After a run, the outlook of a receiver is what its own course has made of it. -/
theorem run (recounts : Recounts history b) (receiver : Nat) (actions : List (Action α)) :
    (b.run actions).capacity = b.capacity ∧
      ∃ later, Recounts later (b.run actions) ∧
        later.outlook receiver = (history.outlook receiver).run b.capacity receiver actions := by
  induction actions generalizing b history with
  | nil => exact ⟨rfl, history, recounts, rfl⟩
  | cons action rest ih =>
      rcases ih (recounts.act action) with ⟨capacity, later, recountsLater, shown⟩
      rw [capacity_act] at capacity shown
      rw [recounts.outlook_act] at shown
      exact ⟨capacity, later, recountsLater, shown⟩

end Recounts

/-! ## The course of a receiver -/

namespace Outlook

variable {capacity receiver : Nat} {outlook : Outlook α}

theorem closed_act (capacity receiver : Nat) (outlook : Outlook α) (action : Action α) :
    (outlook.act capacity receiver action).closed = true ↔
      outlook.closed = true ∨ .close = action := by
  cases action with
  | close => simp [act]
  | _ =>
      simp only [act, reduceCtorEq, or_false]
      first
        | done
        | split <;> rfl

theorem closed_run (capacity receiver : Nat) (outlook : Outlook α) (actions : List (Action α)) :
    (outlook.run capacity receiver actions).closed = true ↔
      outlook.closed = true ∨ .close ∈ actions := by
  induction actions generalizing outlook with
  | nil => simp [run]
  | cons action rest ih =>
      have onward := ih (outlook.act capacity receiver action)
      rw [closed_act, or_assoc, ← List.mem_cons] at onward
      exact onward

/-! ### A receiver that is not there -/

theorem found_of_absent (absent : outlook.unread = none) (action : Action α) :
    outlook.found capacity receiver action = none := by
  cases action with
  | receive asker => simp [Outlook.found, absent]
  | _ => rfl

/-- Only subscriptions and the end of the channel show where a receiver is not there. -/
theorem act_of_absent (capacity receiver : Nat) (absent : outlook.unread = none) {action : Action α}
    (settled : action ≠ .subscribe) (unclosed : action ≠ .close) :
    outlook.act capacity receiver action = outlook := by
  cases action with
  | subscribe => exact absurd rfl settled
  | close => exact absurd rfl unclosed
  | _ =>
      simp only [act, absent, Option.map_none]
      rw [← absent]
      exact ite_self _

/-- Before a receiver subscribes it finds nothing. -/
theorem before (capacity : Nat) {actions : List (Action α)} (absent : outlook.unread = none)
    (unclosed : outlook.closed = false) (stays : .close ∉ actions)
    (early : outlook.count + actions.countP Action.isSubscription ≤ receiver) :
    outlook.observed capacity receiver actions = [] ∧
      outlook.run capacity receiver actions =
        { outlook with count := outlook.count + actions.countP Action.isSubscription } := by
  induction actions generalizing outlook with
  | nil => exact ⟨rfl, rfl⟩
  | cons action rest ih =>
      have still : .close ∉ rest := fun member => stays (List.mem_cons_of_mem _ member)
      have head : action ≠ .close := fun same => stays (same ▸ List.mem_cons_self)
      rw [Outlook.observed, found_of_absent absent]
      by_cases settled : action = .subscribe
      · subst settled
        have one : (Action.subscribe (α := α) :: rest).countP Action.isSubscription =
            rest.countP Action.isSubscription + 1 := List.countP_cons_of_pos rfl
        rw [one] at early
        have other : receiver ≠ outlook.count := by omega
        have next : outlook.act capacity receiver .subscribe =
            { outlook with count := outlook.count + 1 } := by
          rw [act, unclosed, if_neg Bool.false_ne_true, if_neg other]
        rcases @ih { outlook with count := outlook.count + 1 } absent unclosed still
          (by simp only; omega) with ⟨nothing, onward⟩
        rw [one, next]
        refine ⟨nothing, ?_⟩
        rw [run, List.foldl_cons, next]
        exact onward.trans (by simp only [Nat.add_assoc, Nat.add_comm 1])
      · have none_ : (action :: rest).countP Action.isSubscription =
            rest.countP Action.isSubscription := by
          refine List.countP_cons_of_neg ?_
          cases action with
          | subscribe => exact absurd rfl settled
          | _ => exact Bool.false_ne_true
        have next := act_of_absent capacity receiver absent settled head
        rw [none_] at early ⊢
        rw [next, run, List.foldl_cons, next]
        exact ih absent unclosed still early

/-- After a receiver was dropped it finds nothing. -/
theorem gone (absent : outlook.unread = none) (subscribed : receiver < outlook.count)
    (actions : List (Action α)) :
    outlook.observed capacity receiver actions = [] ∧
      (outlook.run capacity receiver actions).unread = none := by
  induction actions generalizing outlook with
  | nil => exact ⟨rfl, absent⟩
  | cons action rest ih =>
      have still : (outlook.act capacity receiver action).unread = none ∧
          receiver < (outlook.act capacity receiver action).count := by
        by_cases settled : action = .subscribe
        · rw [settled, act]
          split
          · exact ⟨absent, subscribed⟩
          · exact ⟨by simp only [absent, if_neg (Nat.ne_of_lt subscribed)], by simp only; omega⟩
        · by_cases ends : action = .close
          · rw [ends]
            exact ⟨absent, subscribed⟩
          · rw [act_of_absent capacity receiver absent settled ends]
            exact ⟨absent, subscribed⟩
      rcases ih still.1 still.2 with ⟨nothing, away⟩
      rw [Outlook.observed, found_of_absent absent, nothing]
      exact ⟨rfl, away⟩

/-! ### A receiver that is there -/

/-- The items that are still sent in the course of some actions. -/
def coming (outlook : Outlook α) (actions : List (Action α)) : List α :=
  if outlook.closed then [] else published actions

/-- One action covers the next items that are unread, if the receiver does not leave by it. -/
theorem given_act (capacity : Nat) {unread : List α} (there : outlook.unread = some unread)
    (subscribed : receiver < outlook.count) {action : Action α} (stays : action ≠ .drop receiver) :
    ∃ parts left, (outlook.act capacity receiver action).unread = some left ∧
      receiver < (outlook.act capacity receiver action).count ∧
      List.Forall₂ Covers parts (outlook.found capacity receiver action).toList ∧
      ∀ rest, unread ++ outlook.coming (action :: rest) =
        parts.flatten ++ (left ++ (outlook.act capacity receiver action).coming rest) := by
  cases action with
  | subscribe =>
      refine ⟨[], unread, ?_, ?_, .nil, fun rest => ?_⟩
      · rw [act]
        split
        · exact there
        · simp only [if_neg (Nat.ne_of_lt subscribed), there]
      · rw [act]
        split
        · exact subscribed
        · exact Nat.lt_succ_of_lt subscribed
      · rw [act]
        split <;> rfl
  | send value =>
      by_cases ended : outlook.closed = true
      · have next : outlook.act capacity receiver (.send value) = outlook := if_pos ended
        rw [next]
        exact ⟨[], unread, there, subscribed, .nil, fun rest => by simp [coming, ended]⟩
      · have next : outlook.act capacity receiver (.send value) =
            { outlook with unread := outlook.unread.map (· ++ [value]) } := if_neg ended
        rw [next]
        refine ⟨[], unread ++ [value], by rw [there, Option.map_some], subscribed, .nil,
          fun rest => ?_⟩
        simp only [coming, if_neg ended, published, List.flatten_nil, List.nil_append,
          List.append_assoc, List.cons_append]
  | receive asker =>
      by_cases same : asker = receiver
      · have next : outlook.act capacity receiver (.receive asker) =
            { outlook with
              unread := outlook.unread.map fun unread =>
                unread.drop (Outlook.next capacity outlook.closed unread).2 } := if_pos same
        have answered : outlook.found capacity receiver (.receive asker) =
            some (Outlook.next capacity outlook.closed unread).1 := by
          rw [Outlook.found, if_pos same, there, Option.map_some]
        rw [next, answered]
        refine ⟨[unread.take (Outlook.next capacity outlook.closed unread).2],
          unread.drop (Outlook.next capacity outlook.closed unread).2,
          by rw [there, Option.map_some], subscribed,
          .cons (covers capacity outlook.closed unread) .nil, fun rest => ?_⟩
        rw [List.flatten_singleton, ← List.append_assoc, List.take_append_drop]
        rfl
      · have next : outlook.act capacity receiver (.receive asker) = outlook := if_neg same
        have unasked : outlook.found capacity receiver (.receive asker) = none := if_neg same
        rw [next, unasked]
        exact ⟨[], unread, there, subscribed, .nil, fun rest => rfl⟩
  | drop other =>
      have next : outlook.act capacity receiver (.drop other) = outlook :=
        if_neg (fun same => stays (congrArg _ same))
      rw [next]
      exact ⟨[], unread, there, subscribed, .nil, fun rest => rfl⟩
  | close =>
      refine ⟨[], unread, there, subscribed, .nil, fun rest => ?_⟩
      simp [coming, act, published]

/-- A receiver that is there is given what is unread and what is still sent, in order. -/
theorem given (capacity : Nat) {unread : List α} (there : outlook.unread = some unread)
    (subscribed : receiver < outlook.count) (actions : List (Action α)) :
    ∃ parts left, unread ++ outlook.coming actions = parts.flatten ++ left ∧
      List.Forall₂ Covers parts (outlook.observed capacity receiver actions) ∧
      (.drop receiver ∉ actions →
        (outlook.run capacity receiver actions).unread = some left) ∧
      (.drop receiver ∈ actions → (outlook.run capacity receiver actions).unread = none) := by
  induction actions generalizing outlook unread with
  | nil =>
      refine ⟨[], unread, ?_, .nil, fun _ => there, fun impossible => by cases impossible⟩
      rw [coming, published, ite_self, List.append_nil]
      rfl
  | cons action rest ih =>
      by_cases leaves : action = .drop receiver
      · subst leaves
        have next : outlook.act capacity receiver (.drop receiver) =
            { outlook with unread := none } := if_pos rfl
        rcases @gone _ capacity receiver { outlook with unread := none } rfl subscribed rest with
          ⟨nothing, away⟩
        rw [← next] at nothing away
        refine ⟨[], _, rfl, ?_, fun stays => absurd List.mem_cons_self stays, fun _ => away⟩
        rw [Outlook.observed, nothing]
        exact .nil
      · rcases given_act capacity there subscribed leaves with
          ⟨parts, left, thereStill, subscribedStill, covered, whole⟩
        rcases ih thereStill subscribedStill with ⟨more, last, onward, coveredMore, stays, gone⟩
        refine ⟨parts ++ more, last, ?_, ?_, fun absent => ?_, fun member => ?_⟩
        · rw [whole, onward, List.flatten_append, List.append_assoc]
        · exact List.rel_append covered coveredMore
        · exact stays (fun member => absent (List.mem_cons_of_mem _ member))
        · exact gone ((List.mem_cons.mp member).resolve_left (Ne.symm leaves))

/-- What others do for themselves does not show. -/
theorem observed_filter (outlook : Outlook α) (actions : List (Action α)) :
    outlook.observed capacity receiver (actions.filter (Action.concerns receiver)) =
      outlook.observed capacity receiver actions := by
  induction actions generalizing outlook with
  | nil => rfl
  | cons action rest ih =>
      cases concerned : action.concerns receiver with
      | true =>
          rw [List.filter_cons_of_pos concerned, Outlook.observed, Outlook.observed, ih]
      | false =>
          have hidden : outlook.act capacity receiver action = outlook ∧
              outlook.found capacity receiver action = none := by
            cases action with
            | receive other =>
                have ne := of_decide_eq_false concerned
                exact ⟨if_neg ne, if_neg ne⟩
            | drop other => exact ⟨if_neg (of_decide_eq_false concerned), rfl⟩
            | _ => cases concerned
          rw [List.filter_cons_of_neg (by simp [concerned]), Outlook.observed, hidden.1, hidden.2]
          exact ih outlook

/-! ### Runs one after the other -/

theorem run_append (outlook : Outlook α) (first last : List (Action α)) :
    outlook.run capacity receiver (first ++ last) =
      (outlook.run capacity receiver first).run capacity receiver last :=
  List.foldl_append

theorem observed_append (outlook : Outlook α) (first last : List (Action α)) :
    outlook.observed capacity receiver (first ++ last) =
      outlook.observed capacity receiver first ++
        (outlook.run capacity receiver first).observed capacity receiver last := by
  induction first generalizing outlook with
  | nil => rfl
  | cons action rest ih =>
      rw [List.cons_append, Outlook.observed, Outlook.observed, ih, List.append_assoc]
      rfl

/-- A receiver that subscribes begins with nothing unread. -/
theorem subscribed (capacity : Nat) {before : List (Action α)} (absent : outlook.unread = none)
    (unclosed : outlook.closed = false) (stays : .close ∉ before)
    (latest : receiver = outlook.count + before.countP Action.isSubscription)
    (after : List (Action α)) :
    outlook.observed capacity receiver (before ++ .subscribe :: after) =
        (joined receiver).observed capacity receiver after ∧
      outlook.run capacity receiver (before ++ .subscribe :: after) =
        (joined receiver).run capacity receiver after := by
  rcases Outlook.before capacity absent unclosed stays (Nat.le_of_eq latest.symm) with
    ⟨nothing, reached⟩
  have next : (outlook.run capacity receiver before).act capacity receiver .subscribe =
      joined receiver := by
    rw [reached, act, unclosed, ← latest, if_neg Bool.false_ne_true]
    simp only [if_pos, joined]
  constructor
  · rw [observed_append, nothing, Outlook.observed, next]
    rfl
  · rw [run_append, run, List.foldl_cons, next]
    rfl

/-- A receiver is told the truth, whatever it has not been given yet. -/
theorem told (capacity : Nat) (closed : Bool) (unread : List α) :
    Told capacity (closed = true) unread (next capacity closed unread).1 := by
  cases unread with
  | nil =>
      rw [next_nil]
      constructor <;> cases closed <;> simp
  | cons value others =>
      by_cases near : (value :: others).length ≤ capacity
      · rw [next_cons near]
        constructor
        case item => simpa using near
        case lagged => simpa using near
        case empty => simp
        case closed => simp
      · have lagged := Nat.lt_of_not_le near
        rw [next_of_lt lagged]
        constructor
        case item => simpa using lagged
        case lagged => simpa [eq_comm] using lagged
        case empty => simp
        case closed => simp

end Outlook

/-! ## Delivery -/

/-- The first receivers are numbered in the order in which they subscribe. -/
theorem subscribe_run {b : Broadcast α} (recounts : Recounts {} b) {before : List (Action α)}
    (unclosed : .close ∉ before) :
    (b.run before).subscribe.1 = before.countP Action.isSubscription := by
  rcases recounts.run (before.countP Action.isSubscription) before with ⟨_, later, recounted, shown⟩
  have absent : ({} : Outlook α).unread = none := rfl
  have early := Outlook.before b.capacity absent rfl unclosed (Nat.le_of_eq (Nat.zero_add _))
  rw [History.outlook_new, early.2] at shown
  rw [subscribe, ← Array.length_toList, recounted.receivers]
  exact (congrArg Outlook.count shown).trans (Nat.zero_add _)

/-- Nothing that is sent is lost in silence, given twice or out of order.  Whatever is done with a
channel, what a receiver is given covers the items that were sent since it subscribed, from the
first one on and without a gap, and it is told the truth about the rest.  What other receivers do
for themselves makes no difference to it. -/
theorem delivery {asked : Nat} {start : Broadcast α} (opened : ofCapacity? α asked = some start)
    {before : List (Action α)} (unclosed : .close ∉ before) (after : List (Action α)) :
    let receiver := (start.run before).subscribe.1
    let actions := before ++ .subscribe :: after
    let answer := ((start.run actions).receive? receiver).map Prod.fst
    (start.capacity.isPowerOfTwo ∧ asked ≤ start.capacity ∧ start.capacity < 2 * asked) ∧
      (∃ parts unread, published after = parts.flatten ++ unread ∧
        List.Forall₂ Covers parts (start.observed receiver actions) ∧
        (.drop receiver ∈ after → answer = none) ∧
        (.drop receiver ∉ after →
          ∃ told, answer = some told ∧ Told start.capacity (.close ∈ after) unread told)) ∧
      start.observed receiver (actions.filter (Action.concerns receiver)) =
        start.observed receiver actions := by
  intro receiver actions answer
  have recounts := recounts_ofCapacity? opened
  have number : receiver = before.countP Action.isSubscription := subscribe_run recounts unclosed
  have absent : ({} : Outlook α).unread = none := rfl
  rcases Outlook.subscribed start.capacity absent rfl unclosed (number.trans (Nat.zero_add _).symm)
    after with ⟨observed, reached⟩
  have there : (Outlook.joined receiver).unread = some ([] : List α) := rfl
  rcases Outlook.given start.capacity there (Nat.lt_succ_self receiver) after with
    ⟨parts, unread, whole, covered, stays, leaves⟩
  rcases recounts.run receiver actions with ⟨capacity, later, recounted, shown⟩
  rw [History.outlook_new, reached] at shown
  -- One more look is one more action, so its answer is told by the outlook at the end.
  have told : answer =
      (later.outlook receiver).found start.capacity receiver (.receive receiver) := by
    have seen := recounted.found_eq receiver (.receive receiver)
    rwa [capacity, found, if_pos rfl] at seen
  rw [shown, Outlook.found, if_pos rfl] at told
  refine ⟨capacity_bounds opened, ⟨parts, unread, whole, ?_, fun left => ?_, fun there => ?_⟩, ?_⟩
  · rw [recounts.observed_eq, History.outlook_new, observed]
    exact covered
  · rw [told, leaves left, Option.map_none]
  · rw [stays there, Option.map_some] at told
    have truth := Outlook.told start.capacity
      ((Outlook.joined receiver).run start.capacity receiver after).closed unread
    have ended := (Outlook.closed_run start.capacity receiver (Outlook.joined receiver) after).trans
      (or_iff_right Bool.false_ne_true)
    rw [ended] at truth
    exact ⟨_, told, truth⟩
  · rw [recounts.observed_eq, recounts.observed_eq, Outlook.observed_filter]

/-- A receiver of a channel for two items that has three of them before it is told of one, and finds
the second next.  The item that was sent before it subscribed is not among them. -/
theorem delivery_behind :
    let start : Broadcast Nat := { capacity := 2 }
    let after : List (Action Nat) := [.send 1, .send 2, .send 3, .receive 0]
    let actions := .send 0 :: .subscribe :: after
    ofCapacity? Nat 2 = some start ∧ .close ∉ [Action.send 0] ∧
      start.observed 0 actions = [.lagged 1] ∧
      ∃ parts unread, published after = parts.flatten ++ unread ∧
        List.Forall₂ Covers parts (start.observed 0 actions) ∧ Told 2 False unread (.item 2) := by
  intro start after actions
  have opened : ofCapacity? Nat 2 = some start := by
    simp [ofCapacity?, maxCapacity, Nat.nextPowerOfTwo, Nat.nextPowerOfTwo.go, start]
  have unclosed : .close ∉ [Action.send 0] := by simp
  have answer : ((start.run actions).receive? 0).map Prod.fst = some (.item 2) := by decide
  have observed : start.observed 0 actions = [.lagged 1] := by decide
  refine ⟨opened, unclosed, observed, ?_⟩
  rcases delivery opened unclosed after with ⟨_, ⟨parts, unread, whole, covered, _, there⟩, _⟩
  rcases there (by simp [after]) with ⟨told, answered, truth⟩
  rw [← Option.some.inj (answer.symm.trans answered)] at truth
  have unended : (.close ∈ after) = False := by simp [after]
  exact ⟨parts, unread, whole, covered, unended ▸ truth⟩

end Broadcast
end ExportVolumes
