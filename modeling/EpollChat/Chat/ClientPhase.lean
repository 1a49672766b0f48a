import EpollChat.Chat.Client

/-! The life of a client, abstractly: it is connecting, connected or closed. Which
calls may come in a phase and where they lead; what follows for the order of the
calls in any sequence that the phases allow; and how the events of the poller
change the phase. -/

namespace EpollChat.Chat

open Cpp Utils Net Cli

/-- The connection ends with this notification. -/
def ClientCall.isTerminal : ClientCall → Bool
  | .onConnectionTimeout | .onConnectionError | .onConnectionClosed => true
  | _ => false

/-- The connection notifies the client. -/
def ClientCall.isNotification : ClientCall → Bool
  | .onTextMessage _ _ | .onClientLeaveMessage _ | .onServerInfoMessage _ | .onConnected
  | .onConnectionTimeout | .onConnectionError | .onConnectionClosed => true
  | _ => false

theorem ClientCall.isNotification_of_isTerminal {c : ClientCall} (h : c.isTerminal) : c.isNotification := by
  cases c <;> first | rfl | cases h

inductive Phase where
  | connecting
  | connected
  | closed
  deriving DecidableEq

namespace Phase

/-- The phase after a call, if the call may come. -/
def after (p : Phase) (c : ClientCall) : Option Phase :=
  if c = .onConnected then if p = .connecting then some .connected else none
  else if c = .onConnectionTimeout then if p = .connecting then some .closed else none
  else if c.isNotification then
    if p = .closed then none else if c.isTerminal then some .closed else some p
  else if c = .closeClient then some .closed
  else some p

def afterAll (p : Phase) : List ClientCall → Option Phase
  | [] => some p
  | c :: calls => (p.after c).bind fun q => q.afterAll calls

theorem afterAll_append (p : Phase) (calls more : List ClientCall) :
    p.afterAll (calls ++ more) = (p.afterAll calls).bind fun q => q.afterAll more := by
  induction calls generalizing p with
  | nil => rfl
  | cons c calls ih =>
    rw [List.cons_append, afterAll, afterAll]
    cases p.after c with
    | none => rfl
    | some q => exact ih q

/-- The phases around a call in an allowed sequence. -/
theorem afterAll_split {p q : Phase} {before after : List ClientCall} {c : ClientCall}
    (h : p.afterAll (before ++ c :: after) = some q) :
    ∃ r s, Phase.after r c = some s ∧ s.afterAll after = some q := by
  rw [afterAll_append, Option.bind_eq_some_iff] at h
  obtain ⟨r, -, h⟩ := h
  rw [afterAll, Option.bind_eq_some_iff] at h
  obtain ⟨s, hs, h⟩ := h
  exact ⟨r, s, hs, h⟩

theorem after_closed {c : ClientCall} {q : Phase} (h : closed.after c = some q) :
    q = .closed ∧ ¬ c.isNotification := by
  cases c <;> cases h <;> exact ⟨rfl, nofun⟩

/-- Nothing is notified once the client is closed. -/
theorem afterAll_closed {calls : List ClientCall} {q : Phase} (h : closed.afterAll calls = some q) :
    ∀ c ∈ calls, ¬ c.isNotification := by
  induction calls with
  | nil => exact fun c hc => absurd hc List.not_mem_nil
  | cons c calls ih =>
    rw [afterAll, Option.bind_eq_some_iff] at h
    obtain ⟨r, hr, h⟩ := h
    obtain ⟨rfl, hc⟩ := after_closed hr
    exact List.forall_mem_cons.mpr ⟨hc, ih h⟩

theorem after_not_connecting {p q : Phase} {c : ClientCall} (hp : p ≠ .connecting) (h : p.after c = some q) :
    q ≠ .connecting ∧ c ≠ .onConnected ∧ c ≠ .onConnectionTimeout := by
  refine ⟨?_, ?_, ?_⟩
  · rintro rfl
    unfold after at h
    split_ifs at h <;> simp_all
  · rintro rfl
    simp [after, hp] at h
  · rintro rfl
    simp [after, hp] at h

/-- Once the connection is no longer being made, it is not made again and does
not time out. -/
theorem afterAll_not_connecting {p q : Phase} {calls : List ClientCall} (hp : p ≠ .connecting)
    (h : p.afterAll calls = some q) : .onConnected ∉ calls ∧ .onConnectionTimeout ∉ calls := by
  induction calls generalizing p with
  | nil => exact ⟨List.not_mem_nil, List.not_mem_nil⟩
  | cons c calls ih =>
    rw [afterAll, Option.bind_eq_some_iff] at h
    obtain ⟨r, hr, h⟩ := h
    obtain ⟨hr, hconnected, htimeout⟩ := after_not_connecting hp hr
    obtain ⟨ih₁, ih₂⟩ := ih hr h
    rw [List.mem_cons, List.mem_cons, not_or, not_or]
    exact ⟨⟨Ne.symm hconnected, ih₁⟩, Ne.symm htimeout, ih₂⟩

theorem after_onConnected {p q : Phase} (h : p.after .onConnected = some q) : q = .connected := by
  cases p <;> cases h
  rfl

theorem after_terminal {p q : Phase} {c : ClientCall} (hc : c.isTerminal ∨ c = .closeClient)
    (h : p.after c = some q) : q = .closed := by
  rcases hc with hc | rfl
  · cases c <;> cases hc <;> cases p <;> cases h <;> rfl
  · cases p <;> cases h <;> rfl

end Phase

/-- Where no element with the property comes after another one, there is at most one. -/
theorem countP_le_one {α : Type} {P : α → Bool} {l : List α}
    (h : ∀ before a after, l = before ++ a :: after → P a → ∀ b ∈ after, ¬ P b) : l.countP P ≤ 1 := by
  induction l with
  | nil => exact Nat.zero_le 1
  | cons a l ih =>
    rw [List.countP_cons]
    split
    · next ha => rw [List.countP_eq_zero.mpr (h [] a l rfl ha)]
    · exact ih fun before b after he => h (a :: before) b after (by rw [he]; rfl)

/-- The order of the calls in any sequence that the phases allow. -/
theorem life_cycle {calls : List ClientCall} {q : Phase} (h : Phase.connecting.afterAll calls = some q) :
    calls.count .onConnected ≤ 1 ∧
    (∀ before after, calls = before ++ .onConnected :: after → .onConnectionTimeout ∉ after) ∧
    calls.countP ClientCall.isTerminal ≤ 1 ∧
    (∀ before c after, calls = before ++ c :: after → c.isTerminal ∨ c = .closeClient →
      ∀ d ∈ after, ¬ d.isNotification) := by
  have hconnected (before after : List ClientCall) (he : calls = before ++ .onConnected :: after) :
      ClientCall.onConnected ∉ after ∧ ClientCall.onConnectionTimeout ∉ after := by
    rw [he] at h
    obtain ⟨r, s, hs, h⟩ := Phase.afterAll_split h
    obtain rfl := Phase.after_onConnected hs
    exact Phase.afterAll_not_connecting (by decide) h
  have hclosed (before : List ClientCall) (c : ClientCall) (after : List ClientCall) (he : calls = before ++ c :: after)
      (hc : c.isTerminal ∨ c = .closeClient) : ∀ d ∈ after, ¬ d.isNotification := by
    rw [he] at h
    obtain ⟨r, s, hs, h⟩ := Phase.afterAll_split h
    obtain rfl := Phase.after_terminal hc hs
    exact Phase.afterAll_closed h
  refine ⟨countP_le_one fun before c after he hc d hd hcd => ?_, fun before after he => (hconnected before after he).2,
    countP_le_one fun before c after he hc d hd => ?_, hclosed⟩
  · rw [beq_iff_eq] at hc hcd
    subst hc hcd
    exact (hconnected before after he).1 hd
  · exact fun hterminal => hclosed before c after he (.inl hc) d hd (ClientCall.isNotification_of_isTerminal hterminal)

/-! ### Events -/

/-- The reads of the socket end the connection. -/
def ReadsEnd (reads : List ReadResult) : Prop :=
  TcpSocket.onIn reads = some .onClosed ∨ TcpSocket.onIn reads = some .onError

instance (reads : List ReadResult) : Decidable (ReadsEnd reads) := inferInstanceAs (Decidable (_ ∨ _))

/-- The event gives a message of the user to the client, be it empty. -/
def ReadsMessage (ev : EpollEvent ClientAnswers) : Prop :=
  ev.fd = stdinFileno ∧ ev.epollIn ∧ StdInputReader.ReadsAll ev.answers.reads

namespace Phase

variable (o : ClientObjects)

/-- The phase after an event. Events of a descriptor that nothing has any more
change nothing. -/
def next (p : Phase) (ev : EpollEvent ClientAnswers) : Phase :=
  if p = .closed then .closed
  else if ev.fd = stdinFileno then
    if (ev.epollIn ∧ StdInputReader.onIn ev.answers.reads = some .onReaderClosed) ∨ ev.epollHup ∨ ev.epollErr then
      .closed
    else p
  else if ev.fd = o.connectSocketFd then
    if ev.epollOut ∧ p = .connecting ∧ ¬ TcpSocket.connectionIsSuccess ev.answers.soError then .closed
    else if (ev.epollIn ∧ ReadsEnd ev.answers.reads) ∨ ev.epollHup ∨ ev.epollErr then .closed
    else if ev.epollOut then .connected
    else p
  else if ev.fd = o.timerFd ∧ p = .connecting ∧ ev.epollIn then .closed
  else p

/-- The phase after a batch. -/
def nextAll (p : Phase) (batch : List (EpollEvent ClientAnswers)) : Phase := batch.foldl (next o) p

/-- No message of the user comes in the batch after the client is closed. -/
def BatchQuiet (p : Phase) : List (EpollEvent ClientAnswers) → Prop
  | [] => True
  | ev :: batch => ¬ (p = .closed ∧ ReadsMessage ev) ∧ BatchQuiet (p.next o ev) batch

/-- So in every batch, up to the one in which the client is closed. -/
def Quiet (p : Phase) : List (List (EpollEvent ClientAnswers)) → Prop
  | [] => True
  | batch :: batches => BatchQuiet o p batch ∧ (nextAll o p batch = .closed ∨ Quiet (nextAll o p batch) batches)

end Phase

end EpollChat.Chat
