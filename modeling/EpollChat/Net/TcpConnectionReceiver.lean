import EpollChat.Net.TcpSocket

/-! `net::TcpConnectionReceiver`. The results of `accept` are arguments; with a new
descriptor come the addresses at which the allocator puts the objects that are
made for it. -/

namespace EpollChat.Net

open Utils

structure TcpConnectionReceiver where
  self : Address
  listenSocketFd : FileDescriptor
  deriving DecidableEq

/-- A descriptor returned by `accept`, and the addresses of the `TcpSocket` and of
the listener's connection made for it. -/
structure Accepted where
  newIncomingSocketFd : FileDescriptor
  socket : Address
  connection : Address
  deriving DecidableEq

/-- What one `accept` returns: a descriptor, or -1 with `errno`. -/
inductive AcceptResult where
  | accepted (incoming : Accepted)
  | eagain
  | error
  deriving DecidableEq

/-- The loop of `OnIn`, by the call made for each descriptor. Any failure ends the
loop. -/
def TcpConnectionReceiver.onInLoop {ω : Type} (onNewConnection : Accepted → ω → ω) (w : ω) : List AcceptResult → ω
  | [] => w
  | .accepted incoming :: results => onInLoop onNewConnection (onNewConnection incoming w) results
  | .eagain :: _ => w
  | .error :: _ => w

/-! ### The calls of `accept`

The descriptor is registered edge-triggered: what an activation leaves in the queue
is not announced again. -/

def AcceptResult.incoming : AcceptResult → Option Accepted
  | .accepted incoming => some incoming
  | _ => none

/-- What `accept` returns for an entry of the queue, `none` being a failure that
concerns this connection or this call only. -/
def entryResult : Option Accepted → AcceptResult
  | some incoming => .accepted incoming
  | none => .error

@[simp] theorem incoming_entryResult (entry : Option Accepted) : (entryResult entry).incoming = entry := by
  cases entry <;> rfl

theorem filterMap_entryResult (queue : List (Option Accepted)) :
    (queue.map entryResult).filterMap AcceptResult.incoming = queue.filterMap id := by
  rw [List.filterMap_map]
  exact congrArg (List.filterMap · queue) (funext incoming_entryResult)

/-- What `accept` returns until the queue is empty. -/
def queueResults (queue : List (Option Accepted)) : List AcceptResult := queue.map entryResult ++ [.eagain]

namespace TcpConnectionReceiver

variable {ω : Type} (onNewConnection : Accepted → ω → ω)

/-- The loop of `OnIn` with the calls of `accept` that it makes, by their results. -/
def onInCalls (w : ω) : List AcceptResult → ω × List AcceptResult
  | [] => (w, [])
  | .accepted incoming :: results =>
    let later := onInCalls (onNewConnection incoming w) results
    (later.1, .accepted incoming :: later.2)
  | .eagain :: _ => (w, [.eagain])
  | .error :: _ => (w, [.error])

theorem onInCalls_fst (w : ω) (results : List AcceptResult) :
    (onInCalls onNewConnection w results).1 = onInLoop onNewConnection w results := by
  induction results generalizing w with
  | nil => rfl
  | cons result results ih =>
    cases result with
    | accepted incoming => exact ih _
    | eagain => rfl
    | error => rfl

/-- Each descriptor that `accept` has returned is handled once, in order. -/
theorem onInCalls_eq_foldl (w : ω) (results : List AcceptResult) :
    (onInCalls onNewConnection w results).1 =
      ((onInCalls onNewConnection w results).2.filterMap AcceptResult.incoming).foldl
        (fun w incoming => onNewConnection incoming w) w := by
  induction results generalizing w with
  | nil => rfl
  | cons result results ih =>
    cases result with
    | accepted incoming => exact ih _
    | eagain => rfl
    | error => rfl

/-- The calls stop at the first failure. -/
theorem onInCalls_queue (w : ω) (queue : List (Option Accepted)) :
    (onInCalls onNewConnection w (queueResults queue)).2 =
      (queue.takeWhile Option.isSome).map entryResult ++ [if none ∈ queue then .error else .eagain] := by
  induction queue generalizing w with
  | nil => rfl
  | cons entry queue ih =>
    cases entry with
    | none =>
      rw [if_pos List.mem_cons_self]
      rfl
    | some incoming =>
      rw [List.takeWhile_cons_of_pos rfl, List.map_cons, List.cons_append]
      simp only [List.mem_cons, reduceCtorEq, false_or, ← ih (onNewConnection incoming w)]
      rfl

end TcpConnectionReceiver

open TcpConnectionReceiver

/-- Whatever `OnNewConnection` does with a connection, an activation ends with the
report of an empty queue, all its connections handled once and in order, if and only
if no `accept` fails before; else those after the first failure are left in the queue. -/
theorem onIn_empties_queue_iff {ω : Type} (onNewConnection : Accepted → ω → ω) (w : ω)
    (queue : List (Option Accepted)) :
    let calls := (onInCalls onNewConnection w (queueResults queue)).2
    let handled := calls.filterMap AcceptResult.incoming
    onInLoop onNewConnection w (queueResults queue) = handled.foldl (fun w incoming => onNewConnection incoming w) w ∧
    handled = (queue.takeWhile Option.isSome).filterMap id ∧
    (calls.getLast? = some .eagain ∧ handled = queue.filterMap id ↔ none ∉ queue) := by
  intro calls handled
  have hcalls := onInCalls_queue onNewConnection w queue
  have hhandled : handled = (queue.takeWhile Option.isSome).filterMap id := by
    rw [show handled = _ from congrArg (List.filterMap _) hcalls, List.filterMap_append, filterMap_entryResult]
    split <;> exact List.append_nil _
  refine ⟨?_, hhandled, ?_⟩
  · rw [← onInCalls_fst]
    exact onInCalls_eq_foldl onNewConnection w _
  · rw [hhandled, show calls = _ from hcalls, List.getLast?_concat]
    by_cases h : none ∈ queue
    · simp [h]
    · have hall : ∀ entry ∈ queue, entry.isSome := fun entry hentry =>
        Option.isSome_iff_ne_none.mpr fun he => h (he ▸ hentry)
      rw [if_neg h, List.takeWhile_eq_self_iff.mpr hall]
      exact iff_of_true ⟨rfl, rfl⟩ h

/-- A connection aborted in the queue leaves the one behind it there. -/
theorem aborted_connection_strands_next :
    let queue : List (Option Accepted) := [none, some ⟨5, 100, 200⟩]
    (onInCalls List.cons [] (queueResults queue)).2.getLast? ≠ some .eagain ∧
      onInLoop List.cons [] (queueResults queue) = [] := by
  decide

end EpollChat.Net
