import EpollChat.Chat.ClientRun
import EpollChat.Utils.Timer

/-! When the client is told that its connection has timed out. The events come with
the time at which `epoll_wait` returned them. Only an event of the timer leads to
the call, so it comes as early as the timer is set to expire. -/

namespace EpollChat.Chat

open Cpp Utils Net Cli

namespace Client

variable {o : ClientObjects} {p : Phase} {w : Client}

/-- The timeout is among the calls. -/
def TimedOut (w : Client) : Prop := .onConnectionTimeout ∈ w.calls

instance (w : Client) : Decidable w.TimedOut := inferInstanceAs (Decidable (_ ∈ _))

theorem timedOut_record {calls : List ClientCall} (h : .onConnectionTimeout ∉ calls) :
    (w.record calls).TimedOut ↔ w.TimedOut := by
  unfold TimedOut record
  rw [List.mem_append, or_iff_left h]

theorem timedOut_closeClient : w.closeClient.TimedOut ↔ w.TimedOut := timedOut_record (by decide)

/-! ### What does not time out -/

theorem timedOut_onMessageRead (message : Bytes) : (w.onMessageRead message).TimedOut ↔ w.TimedOut := by
  have hread : (w.record [.onMessageRead message, .resetInputLine]).TimedOut ↔ w.TimedOut :=
    timedOut_record (by simp)
  unfold onMessageRead
  dsimp only [record_clientConnection]
  split
  · exact (timedOut_record (by decide)).trans hread
  · split
    · exact (timedOut_record (by simp)).trans hread
    · exact hread

theorem timedOut_onReaderClosed : w.onReaderClosed.TimedOut ↔ w.TimedOut :=
  timedOut_closeClient.trans (timedOut_record (by decide))

theorem timedOut_onReaderCall (call : ReaderCall) : (w.onReaderCall call).TimedOut ↔ w.TimedOut := by
  cases call with
  | onMessageRead message => exact timedOut_onMessageRead message
  | onReaderClosed => exact timedOut_onReaderClosed
  | popBackOfEmpty => exact (timedOut_onMessageRead []).trans (timedOut_record (by decide))

theorem timedOut_onDataReceived (c : ClientConnection) (data : DataBuffer) :
    (w.onDataReceived c data).TimedOut ↔ w.TimedOut := by
  refine timedOut_record fun h => ?_
  obtain ⟨m, -, hm⟩ := List.mem_flatMap.mp h
  cases m <;> simp [onCallback] at hm

theorem timedOut_onSocketCall {call : ListenerCall} (hcall : call ≠ .onConnectionTimeout) (c : ClientConnection) :
    (w.onSocketCall c call).TimedOut ↔ w.TimedOut := by
  cases call with
  | onDataReceived data => exact timedOut_onDataReceived c data
  | onConnected => exact timedOut_record (by decide)
  | onConnectionTimeout => exact absurd rfl hcall
  | onError => exact timedOut_closeClient.trans (timedOut_record (by decide))
  | onClosed => exact timedOut_closeClient.trans (timedOut_record (by decide))

theorem timedOut_onOut (a : Address) (answers : ClientAnswers) : (onOut a answers w).TimedOut ↔ w.TimedOut := by
  unfold onOut
  split
  · next c hc =>
    dsimp only
    split
    · exact Iff.rfl
    · next call hcall =>
      refine (timedOut_onSocketCall ?_ _).trans Iff.rfl
      rintro rfl
      unfold TcpSocket.onOut at hcall
      split_ifs at hcall <;> cases hcall
  · exact Iff.rfl

theorem timedOut_onClosed (a : Address) (answers : ClientAnswers) : (onClosed a answers w).TimedOut ↔ w.TimedOut := by
  unfold onClosed
  split
  · exact timedOut_onReaderClosed
  · exact timedOut_onSocketCall (by decide) _
  · exact Iff.rfl

theorem timedOut_onError (a : Address) (answers : ClientAnswers) : (onError a answers w).TimedOut ↔ w.TimedOut := by
  unfold onError
  split
  · exact timedOut_onReaderClosed
  · exact timedOut_onSocketCall (by decide) _
  · exact Iff.rfl

/-- Only the timer's `OnIn` does. -/
theorem timedOut_onIn {a : Address} (ha : ∀ c, w.objectAt a ≠ some (.timer c)) (answers : ClientAnswers) :
    (onIn a answers w).TimedOut ↔ w.TimedOut := by
  unfold onIn
  split
  · exact Iff.rfl
  · split
    · exact Iff.rfl
    · exact timedOut_onReaderCall _
  · split
    · exact Iff.rfl
    · next call hcall =>
      refine timedOut_onSocketCall ?_ _
      rintro rfl
      rcases TcpSocket.onIn_cases answers.reads with h | ⟨data, h⟩ | h | h <;> rw [h] at hcall <;> cases hcall
  · next c hc => exact absurd hc (ha c)

theorem timedOut_notifyIf {a : Address} {handler : Address → ClientAnswers → Client → Client} {answers : ClientAnswers}
    {flag : Bool} (h : flag → ((handler a answers w).TimedOut ↔ w.TimedOut)) :
    (process.notifyIf flag handler (some a) answers w).TimedOut ↔ w.TimedOut := by
  rw [process.notifyIf_some]
  split
  · next hflag => exact h hflag.1
  · exact Iff.rfl

/-- An event may time out only in `OnIn` of its subscriber. -/
theorem timedOut_notifySubscriber {ev : EpollEvent ClientAnswers} {a : Address}
    (hlookup : process.getSubscriberByFileDescriptor w ev.fd = some a)
    (hin : ev.epollIn → ∀ c,
      (process.notifyIf ev.epollOut process.onOut (some a) ev.answers w).objectAt a ≠ some (.timer c)) :
    (process.notifySubscriber ev w).TimedOut ↔ w.TimedOut := by
  simp only [Process.notifySubscriber, hlookup]
  refine (timedOut_notifyIf fun _ => timedOut_onError a ev.answers).trans ?_
  refine (timedOut_notifyIf fun _ => timedOut_onClosed a ev.answers).trans ?_
  refine (timedOut_notifyIf fun hflag => timedOut_onIn (hin hflag) ev.answers).trans ?_
  exact timedOut_notifyIf fun _ => timedOut_onOut a ev.answers

/-! ### The event that times out -/

theorem At.eq_timer_of_objectAt (h : At o p w) {a : Address} {c : ClientConnection}
    (ha : w.objectAt a = some (.timer c)) : a = o.timer := by
  unfold objectAt at ha
  cases p with
  | connecting =>
    obtain ⟨data, hc⟩ := h.connecting
    rw [hc] at ha
    dsimp only at ha
    split_ifs at ha with hreader hsocket htimer
    · cases ha
    · cases ha
    · exact htimer
  | connected =>
    obtain ⟨data, hc⟩ := h.connected
    rw [hc] at ha
    dsimp only at ha
    split_ifs at ha <;> cases ha
  | closed =>
    rw [h.closed] at ha
    dsimp only at ha
    split_ifs at ha
    cases ha

/-- The event says that the timer has expired. -/
def IsExpiry (o : ClientObjects) (ev : EpollEvent ClientAnswers) : Prop := ev.fd = o.timerFd ∧ ev.epollIn

theorem timedOut_event (h : At o p w) {ev : EpollEvent ClientAnswers} (hev : ¬ IsExpiry o ev) :
    (process.notifySubscriber ev w).TimedOut ↔ w.TimedOut := by
  obtain ⟨hst, -, htr⟩ := At.addresses o
  cases hlookup : process.getSubscriberByFileDescriptor w ev.fd with
  | none => rw [process.notifySubscriber_of_none hlookup]
  | some a =>
    refine timedOut_notifySubscriber hlookup fun hin c hc => ?_
    obtain ⟨ha, hfd⟩ := process.getSubscriber_spec hlookup
    rcases h.getFileDescriptor_eq ha with ⟨rfl, -⟩ | ⟨rfl, -, -⟩ | ⟨-, -, hb⟩
    · have hout : process.onOut o.inputReader ev.answers w = w := by
        show onOut o.inputReader ev.answers w = w
        simp only [onOut, h.objectAt_reader]
      rw [process.notifyIf_id hout] at hc
      exact htr (h.eq_timer_of_objectAt hc).symm
    · exact hst ((moves_socket_out h ev.epollOut ev.answers).reached.eq_timer_of_objectAt hc)
    · exact hev ⟨Option.some.inj (hfd.symm.trans hb), hin⟩

theorem timedOut_batch (h : At o p w) {batch : List (EpollEvent ClientAnswers)} (hbatch : ∀ ev ∈ batch, ¬ IsExpiry o ev) :
    (process.notifyAll batch w).TimedOut ↔ w.TimedOut := by
  induction batch generalizing p w with
  | nil => exact Iff.rfl
  | cons ev batch ih =>
    rw [List.forall_mem_cons] at hbatch
    rw [process.notifyAll_cons, ih (moves_event h ev).reached hbatch.2, timedOut_event h hbatch.1]

/-- A batch more, without an expiry, is no timeout more. -/
theorem timedOut_run_concat (h : At o p w) (before : List (List (EpollEvent ClientAnswers)))
    {batch : List (EpollEvent ClientAnswers)} (hbatch : ∀ ev ∈ batch, ¬ IsExpiry o ev) :
    (process.run (before ++ [batch]) w).TimedOut ↔ (process.run before w).TimedOut := by
  induction before generalizing p w with
  | nil =>
    rw [List.nil_append, Process.run, Process.run, Process.run, ite_self]
    exact timedOut_batch h hbatch
  | cons first before ih =>
    rw [List.cons_append, Process.run, Process.run]
    split
    · exact Iff.rfl
    · exact ih (moves_batch h first).reached

end Client

/-! ### Timed runs -/

/-- What one `epoll_wait` returns: when, in nanoseconds, and its events. -/
structure TimedBatch where
  time : ℤ
  events : List (EpollEvent ClientAnswers)

namespace TimedBatch

/-- The calls of a run until a batch. -/
def run (o : ClientObjects) (batches : List TimedBatch) : Client := Client.run o (batches.map events)

/-- The call for the timeout is made in the batch. -/
def TimesOut (o : ClientObjects) (before : List TimedBatch) (batch : TimedBatch) : Prop :=
  ¬ (run o before).TimedOut ∧ (run o (before ++ [batch])).TimedOut

end TimedBatch

open TimedBatch

/-- The timer is set when the client is made, and the kernel does not report that it
has expired before the time it is set to. -/
def KeepsTime (o : ClientObjects) (created : ℤ) (spec : TimeSpec) (batches : List TimedBatch) : Prop :=
  ∀ batch ∈ batches, (∃ ev ∈ batch.events, Client.IsExpiry o ev) → created + spec.nanoseconds ≤ batch.time

/-- In every run with the timeout it is not delivered before its time. -/
def NeverEarly (timeout : Timeout) : Prop :=
  ∀ (o : ClientObjects) (created : ℤ) (batches : List TimedBatch), KeepsTime o created (timerSpecNew timeout) batches →
    ∀ before batch after, batches = before ++ batch :: after → TimesOut o before batch →
      created + timeout.toNat * 1000000 ≤ batch.time

/-- The timeout is not delivered before the timer expires. -/
theorem expired_of_timesOut {o : ClientObjects} {created : ℤ} {spec : TimeSpec} {batches before after : List TimedBatch}
    {batch : TimedBatch} (h : KeepsTime o created spec batches) (hsplit : batches = before ++ batch :: after)
    (htimeout : TimesOut o before batch) : created + spec.nanoseconds ≤ batch.time := by
  apply h batch (by rw [hsplit]; simp)
  by_contra hnone
  obtain ⟨hbefore, hafter⟩ := htimeout
  unfold TimedBatch.run Client.run at hbefore hafter
  rw [List.map_append, List.map_singleton,
    Client.timedOut_run_concat (Client.at_start o) _ fun ev hev he => hnone ⟨ev, hev, he⟩] at hafter
  exact hbefore hafter

/-- A client whose connection is not made until its timer expires. -/
theorem exists_timesOut (time : ℤ) :
    ∃ (o : ClientObjects) (batch : TimedBatch), batch.time = time ∧ TimesOut o [] batch := by
  let o : ClientObjects := ⟨1, 2, 3, 4, 5, by decide, by decide⟩
  let expiry : EpollEvent ClientAnswers := ⟨5, false, true, false, false, ⟨0, []⟩⟩
  have hruns : ¬ (Client.run o []).TimedOut ∧ (Client.run o [[expiry]]).TimedOut := by decide
  exact ⟨o, ⟨time, [expiry]⟩, rfl, hruns⟩

theorem neverEarly_iff (timeout : Timeout) : NeverEarly timeout ↔ timeout % 1000 = 0 := by
  constructor
  · intro h
    obtain ⟨o, batch, htime, htimeout⟩ := exists_timesOut (timerSpecNew timeout).nanoseconds
    have hkeeps : KeepsTime o 0 (timerSpecNew timeout) [batch] := by
      intro b hb _
      rw [List.mem_singleton.mp hb, htime]
      omega
    have hearly := h o 0 [batch] hkeeps [] batch [] rfl htimeout
    have hle := nanoseconds_le timeout
    rw [← nanoseconds_eq_iff]
    omega
  · intro h o created batches hkeeps before batch after hsplit htimeout
    rw [← (nanoseconds_eq_iff timeout).mpr h]
    exact expired_of_timesOut hkeeps hsplit htimeout

/-- What a timer is set to is accepted and not zero; it is the timeout, and the
timeout is never delivered early, if and only if it is a whole number of seconds. -/
theorem timer_runs_timeout_iff {timeout : Timeout} (h : 0 < timeout) :
    let spec := timerSpecNew timeout
    spec.Valid ∧ spec.Armed ∧
      ((spec.nanoseconds = timeout.toNat * 1000000 ∧ NeverEarly timeout) ↔ timeout % 1000 = 0) := by
  refine ⟨valid_timerSpecNew timeout, armed_timerSpecNew h, ?_⟩
  rw [nanoseconds_eq_iff, neverEarly_iff, and_self]

/-- The timeout of the program. -/
theorem timer_runs_timeout_iff_ten_seconds :
    let spec := timerSpecNew 10000
    spec.Valid ∧ spec.Armed ∧
      ((spec.nanoseconds = (10000 : Timeout).toNat * 1000000 ∧ NeverEarly 10000) ↔ (10000 : Timeout) % 1000 = 0) :=
  timer_runs_timeout_iff (by decide)

/-- A timeout of a second and a half is set to 1.0005 seconds. -/
theorem half_second_is_half_millisecond :
    (timerSpecNew 1500).nanoseconds = 1000500000 ∧ ¬ NeverEarly 1500 := by
  refine ⟨by decide, ?_⟩
  rw [neverEarly_iff]
  decide

end EpollChat.Chat
