import EpollChat.Chat.ServerRun

/-! Who is in the chat. The nick names given so far are those of the counter
values from one on, and the live connections carry a subsequence of them: a slot
is used again after a leave, a nick name never is. -/

namespace EpollChat.Chat

open Cpp Utils Net

/-- The first `n` nick names. -/
def nickNamesUpTo (n : ℕ) : List Bytes := (List.range n).map fun i => clientNickName (UInt64.ofNat (i + 1))

theorem nickNamesUpTo_succ (n : ℕ) :
    nickNamesUpTo (n + 1) = nickNamesUpTo n ++ [clientNickName (UInt64.ofNat (n + 1))] := by
  simp [nickNamesUpTo, List.range_succ]

@[simp] theorem length_nickNamesUpTo (n : ℕ) : (nickNamesUpTo n).length = n := by simp [nickNamesUpTo]

theorem clientNickName_injective : Function.Injective clientNickName :=
  fun _ _ h => toString_injective (List.append_cancel_left h)

theorem ofNat_injOn {m n : ℕ} (hm : m < UInt64.size) (hn : n < UInt64.size) (h : UInt64.ofNat m = UInt64.ofNat n) : m = n := by
  have := congrArg UInt64.toNat h
  rwa [UInt64.toNat_ofNat_of_lt' hm, UInt64.toNat_ofNat_of_lt' hn] at this

/-- No nick name is given twice before the counter wraps around. -/
theorem nodup_nickNamesUpTo {n : ℕ} (hn : n < UInt64.size) : (nickNamesUpTo n).Nodup := by
  refine List.Nodup.map_on (fun i hi j hj h => ?_) List.nodup_range
  rw [List.mem_range] at hi hj
  have := ofNat_injOn (by omega) (by omega) (clientNickName_injective h)
  omega

@[simp] theorem map_nickName_setDataToParse (s : Server) (c : Address) (data : DataBuffer) :
    (s.setDataToParse c data).incomingConnections.map ServerConnection.nickName =
      s.incomingConnections.map ServerConnection.nickName := by
  rw [Server.setDataToParse, List.map_map]
  apply List.map_congr_left
  intro it _
  simp only [Function.comp]
  split <;> rfl

/-- The invariant of membership: `n` connections have been accepted. -/
structure Membership (limit : UInt64) (s : Session) (n : ℕ) : Prop where
  limit_eq : s.server.incomingConnectionsLimit = limit
  bounded : s.server.incomingConnections.length ≤ limit.toNat
  counter : s.server.incomingConnectionsCounter = UInt64.ofNat n
  accepted : acceptedNickNames s.effects = nickNamesUpTo n
  live : (s.server.incomingConnections.map ServerConnection.nickName).Sublist (nickNamesUpTo n)

theorem membership_step (limit : UInt64) (s : Session) (e : Event) (s' : Session) (h : ∃ n, Membership limit s n)
    (hs : Session.Stepped s e s') : ∃ n, Membership limit s' n := by
  obtain ⟨n, h⟩ := h
  cases hs with
  | refused socket hfull =>
    exact ⟨n, h.limit_eq, h.bounded, h.counter, by simpa using h.accepted, h.live⟩
  | accepted socket server hroom hs =>
    subst hs
    have hc : s.server.incomingConnectionsCounter + 1 = UInt64.ofNat (n + 1) := by
      rw [h.counter, UInt64.ofNat_add]
      rfl
    refine ⟨n + 1, h.limit_eq, ?_, hc, ?_, ?_⟩
    · rw [h.limit_eq] at hroom
      rw [List.length_append, List.length_singleton]
      exact hroom
    · rw [acceptedNickNames_append, h.accepted, acceptedNickNames_accept, notifyServerInfo_eq,
        acceptedNickNames_broadcast, hc, nickNamesUpTo_succ]
    · rw [List.map_append, nickNamesUpTo_succ, ← hc]
      exact h.live.append (List.Sublist.refl _)
  | received c data hfind =>
    exact ⟨n, h.limit_eq, by simpa [Server.setDataToParse] using h.bounded, h.counter, by simpa using h.accepted,
      by simpa using h.live⟩
  | left c e he hfind server hs =>
    subst hs
    refine ⟨n, h.limit_eq, List.eraseP_sublist.length_le.trans h.bounded, h.counter, ?_,
      (List.eraseP_sublist.map _).trans h.live⟩
    simpa [notifyServerInfo_eq, notifyClientLeave_eq] using h.accepted
  | ignored connection e he hfind => exact ⟨n, h⟩

theorem membership_run (limit : UInt64) (events : List Event) : ∃ n, Membership limit (Session.run limit events) n :=
  Session.run_induction limit ⟨0, rfl, Nat.zero_le _, rfl, rfl, List.Sublist.refl _⟩
    (membership_step limit) events

/-- In every reachable state with fewer than `2 ^ 64` connections accepted so far:
the limit holds; the nick names ever given are distinct and come from the counter
values up to now; the live list is in the order of these values; and a connection
that arrives at the limit changes neither the server nor what anyone is sent. -/
theorem membership_invariant (limit : UInt64) (events : List Event)
    (h : (acceptedNickNames (Session.run limit events).effects).length < UInt64.size) :
    let s := Session.run limit events
    s.server.incomingConnections.length ≤ limit.toNat ∧
    (acceptedNickNames s.effects).Nodup ∧
    (∀ nickName ∈ acceptedNickNames s.effects, ∃ k : ℕ, 1 ≤ k ∧ k ≤ s.server.incomingConnectionsCounter.toNat ∧
      nickName = clientNickName (UInt64.ofNat k)) ∧
    (∃ ks : List ℕ, ks.Pairwise (· < ·) ∧
      (∀ k ∈ ks, 1 ≤ k ∧ k ≤ s.server.incomingConnectionsCounter.toNat) ∧
      s.server.incomingConnections.map ServerConnection.nickName =
        ks.map fun k => clientNickName (UInt64.ofNat k)) ∧
    (limit.toNat ≤ s.server.incomingConnections.length → ∀ socket : TcpSocket,
      (s.step (.newConnection socket)).server = s.server ∧
      ∀ c, sentTo c (s.step (.newConnection socket)).effects = sentTo c s.effects) := by
  obtain ⟨n, hm⟩ := membership_run limit events
  intro s
  have hn : n < UInt64.size := by rwa [hm.accepted, length_nickNamesUpTo] at h
  have hcounter : s.server.incomingConnectionsCounter.toNat = n := by
    rw [hm.counter, UInt64.toNat_ofNat_of_lt' hn]
  refine ⟨hm.bounded, ?_, ?_, ?_, ?_⟩
  · rw [hm.accepted]
    exact nodup_nickNamesUpTo hn
  · intro nickName hmem
    rw [hm.accepted, nickNamesUpTo, List.mem_map] at hmem
    obtain ⟨i, hi, rfl⟩ := hmem
    rw [List.mem_range] at hi
    exact ⟨i + 1, Nat.le_add_left 1 i, by omega, rfl⟩
  · obtain ⟨is, hsub, heq⟩ := List.sublist_map_iff.mp hm.live
    refine ⟨is.map (· + 1), ?_, ?_, by rw [heq, List.map_map]; rfl⟩
    · rw [List.pairwise_map]
      exact (List.pairwise_lt_range.sublist hsub).imp fun hlt => Nat.succ_lt_succ hlt
    · intro k hk
      obtain ⟨i, hi, rfl⟩ := List.mem_map.mp hk
      have := List.mem_range.mp (hsub.subset hi)
      omega
  · intro hfull socket
    rw [← hm.limit_eq] at hfull
    have hstep : s.step (.newConnection socket) = ⟨s.server, s.arrivals + 1, s.effects ++ [.destroySocket socket]⟩ := by
      rw [Session.step, Session.perform, Server.onNewConnection, if_pos hfull]
    rw [hstep]
    exact ⟨rfl, fun c => by simp⟩

/-- With one slot, a second connection is refused and a later one gets it. -/
theorem membership_invariant_one_slot :
    let s := Session.run 1 [.newConnection (.incoming 0 5), .newConnection (.incoming 1 6), .closed 0,
      .newConnection (.incoming 2 5)]
    (acceptedNickNames s.effects).length < UInt64.size ∧ s.server.incomingConnections.length ≤ 1 ∧
      (acceptedNickNames s.effects).Nodup :=
  have h : (acceptedNickNames (Session.run 1 [.newConnection (.incoming 0 5), .newConnection (.incoming 1 6),
    .closed 0, .newConnection (.incoming 2 5)]).effects).length < UInt64.size := by decide
  ⟨h, (membership_invariant 1 _ h).1, (membership_invariant 1 _ h).2.1⟩

end EpollChat.Chat
