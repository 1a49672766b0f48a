import EpollChat.Chat.Conversation
import EpollChat.Chat.Membership
import Mathlib.Data.List.Pairwise

/-! What the users of one chat agree on. While every text fits behind the nick name
of its sender there is one conversation: each user says a part of it that no
interleaving reorders, and each screen shows one piece of it. As for all of
`Conversation`, every `send` takes the whole buffer. -/

namespace EpollChat.Chat

open Cpp Framing Utils Net

/-! ### Lists -/

section
variable (notices : List (Room.Notice Bytes Bytes))

theorem countsOf_messages : countsOf (notices.map Room.Notice.message) = (Room.counts notices).map UInt64.ofNat := by
  rw [countsOf, List.filterMap_map, Room.counts, List.map_filterMap]
  refine List.filterMap_congr fun notice _ => ?_
  cases notice <;> rfl

theorem filter_isToClient_messages : (notices.map Room.Notice.message).filter Message.isToClient =
    notices.map Room.Notice.message := by
  refine List.filter_eq_self.mpr fun m hm => ?_
  obtain ⟨notice, -, rfl⟩ := List.mem_map.mp hm
  cases notice <;> rfl

end

/-! ### Lines can be told apart -/

namespace Line

end Line

namespace Conversation

variable {o : Address → ClientObjects} {limit : UInt64} {events : List Event} {n : Conversation}

/-- The server's connection of the client is there. -/
def Live (n : Conversation) (c : Address) : Prop :=
  c ∈ n.session.server.incomingConnections.map ServerConnection.self

instance (n : Conversation) (c : Address) : Decidable (n.Live c) := inferInstanceAs (Decidable (_ ∈ _))

/-- A connection is given a nick name behind which the texts of the client fit. -/
def Fits (n : Conversation) : Effect → Prop
  | .accept c nickName => ∀ text ∈ sentTexts (n.client c).calls,
    nickName.length + text.length + 4 ≤ maxMessageLength + 1
  | _ => True

instance (n : Conversation) : (e : Effect) → Decidable (n.Fits e)
  | .accept _ _ => inferInstanceAs (Decidable (∀ text ∈ _, _))
  | .send _ _ => isTrue trivial
  | .destroySocket _ => isTrue trivial

/-- Every text that a client has sent can be relayed. -/
def TextsFit (n : Conversation) : Prop := ∀ e ∈ n.session.effects, n.Fits e

instance (n : Conversation) : Decidable n.TextsFit := inferInstanceAs (Decidable (∀ e ∈ _, _))

/-- What was said by a client is a first part of what it sent, and all of it once all
has arrived. -/
theorem Sound.said (h : Sound o limit events n) (hfit : n.TextsFit) (c : Address) :
    textsBy c (Room.talk (Observer.run limit events).history) <+: sentTexts (n.client c).calls ∧
      (n.toServer c = [] → textsBy c (Room.talk (Observer.run limit events).history) = sentTexts (n.client c).calls) := by
  obtain ⟨-, htalk⟩ := talk_run limit events
  rw [(htalk c).1]
  have hstream := h.upstream c
  have huplink : uplink (sentTexts (n.client c).calls) =
      ((sentTexts (n.client c).calls).map Message.textMessageToServer).flatMap Message.build := by
    rw [List.flatMap_map]
    rfl
  rw [huplink] at hstream
  by_cases hjoined : c ∈ Room.joins (Observer.run limit events).history
  · have haccept := accept_mem_effects limit events hjoined
    rw [← h.session] at haccept
    have hbuilt : ∀ m ∈ (sentTexts (n.client c).calls).map Message.textMessageToServer, m.SeparatorFree ∧ m.Fits := by
      intro m hm
      obtain ⟨text, htext, rfl⟩ := List.mem_map.mp hm
      have hle := hfit _ haccept text htext
      rw [Message.separatorFree_textMessageToServer, Message.Fits, Message.length_build_textMessageToServer]
      exact ⟨h.clean c text htext, by omega⟩
    have hdrained := drain_flatMap_build hbuilt
    have htexts : texts ((sentTexts (n.client c).calls).map Message.textMessageToServer) =
        sentTexts (n.client c).calls := by
      rw [texts, List.filterMap_map]
      exact List.filterMap_some
    have hstart := prefix_drain (List.prefix_append ((Observer.run limit events).received c) (n.toServer c))
    rw [hstream, hdrained] at hstart
    rw [textsOf, parseData_eq_drain, List.nil_append]
    constructor
    · rw [← htexts]
      exact hstart.filterMap _
    · intro hall
      rw [hall, List.append_nil] at hstream
      rw [hstream, hdrained, htexts]
  · -- nothing has been received from it
    rw [(htalk c).2 hjoined] at hstream ⊢
    refine ⟨List.nil_prefix, fun hall => ?_⟩
    rw [hall, List.append_nil] at hstream
    cases hsent : sentTexts (n.client c).calls with
    | nil => rfl
    | cons text texts => simp [hsent, Message.build_eq] at hstream

/-! ### What is shown -/

theorem exists_attends_run (limit : UInt64) (events : List Event) (c : Address) :
    ∃ part, Room.Attends nickNameOf c (Observer.run limit events).history part :=
  Room.exists_attends nickNameOf c (Refines.run limit events).nodup (talk_run limit events).1

/-- What is in a talk was said by someone who was given a nick name, and sent it. -/
theorem Sound.of_mem_talk (h : Sound o limit events n) (hfit : n.TextsFit) {x : Address × Bytes}
    (hx : x ∈ Room.talk (Observer.run limit events).history) :
    .accept x.1 (Room.nickOf nickNameOf (Observer.run limit events).history x.1) ∈ n.session.effects ∧
      x.2 ∈ sentTexts (n.client x.1).calls := by
  constructor
  · rw [h.session]
    exact accept_mem_effects limit events (Room.mem_joins_of_mem_talk (talk_run limit events).1 hx)
  · refine (h.said hfit x.1).1.subset (List.mem_map.mpr ⟨x, ?_, rfl⟩)
    exact List.mem_filter.mpr ⟨hx, decide_eq_true rfl⟩

theorem Sound.relayedTextsFit (h : Sound o limit events n) (hfit : n.TextsFit) (c : Address) :
    RelayedTextsFit limit events c := by
  intro nickName textMessage hmem
  obtain ⟨part, hshown, before, after, htalk, -⟩ := exists_attends_run limit events c
  have hsaid : (nickName, textMessage) ∈
      Room.saids (Room.view nickNameOf c (Observer.run limit events).history) :=
    List.mem_filterMap.mpr ⟨_, hmem, rfl⟩
  rw [hshown, List.mem_map] at hsaid
  obtain ⟨x, hx, heq⟩ := hsaid
  obtain ⟨rfl, rfl⟩ := Prod.mk.inj heq
  obtain ⟨haccept, hsent⟩ := h.of_mem_talk hfit (x := x) (by
    rw [htalk]
    exact List.mem_append_left _ (List.mem_append_right _ (List.mem_of_mem_filter hx)))
  exact hfit _ haccept x.2 hsent

/-- A client has been told of the first messages sent to it, and of all once all has
arrived and it is still there. -/
theorem Sound.told (h : Sound o limit events n) (hfit : n.TextsFit) (c : Address) :
    let shown := (Room.view nickNameOf c (Observer.run limit events).history).map Room.Notice.message
    told (n.client c).calls <+: shown ∧
      ((n.client c).phase ≠ .closed → n.toClient c = [] → Chat.told (n.client c).calls = shown) := by
  intro shown
  have hsent : sentTo c n.session.effects = shown := by
    rw [h.session, (Refines.run limit events).sent c]
  obtain ⟨hclean, hfits⟩ := sentTo_spec limit events c
  rw [← h.session, hsent] at hclean hfits
  have hdrained := drain_flatMap_build fun m hm => ⟨hclean m hm, hfits.mpr (h.relayedTextsFit hfit c) m hm⟩
  obtain ⟨read, lost, hstream, hheard, hlost⟩ := h.downstream c
  rw [hsent] at hstream
  rw [hheard.told]
  constructor
  · have hstart := prefix_drain (List.prefix_append read (lost ++ n.toClient c))
    rw [← List.append_assoc, hstream, hdrained] at hstart
    have hfiltered := hstart.filter Message.isToClient
    rwa [filter_isToClient_messages] at hfiltered
  · intro hopen hall
    rw [hlost hopen, hall, List.append_nil, List.append_nil] at hstream
    rw [hstream, hdrained]
    exact filter_isToClient_messages _

/-- Two clients connect, the first says `hi`, and the second reads all. -/
def greeting : List Act :=
  let hi := bytes ['h', 'i']
  [.server (.newConnection (.incoming 0 5)), .server (.newConnection (.incoming 1 6)),
    .client 0 ⟨4, true, false, false, false, ⟨0, []⟩⟩, .client 1 ⟨4, true, false, false, false, ⟨0, []⟩⟩,
    .client 0 ⟨0, false, true, false, false, ⟨0, [.data (hi ++ [10]), .eagain]⟩⟩,
    .server (.dataReceived 0 (Message.textMessageToServer hi).build),
    .client 1 ⟨4, false, true, false, false, ⟨0, [.data (Message.serverInfoMessage 2).build,
      .data (Message.textMessageToClient (clientNickName 1) hi).build, .eagain]⟩⟩]

def twoClients : Conversation :=
  let o : Address → ClientObjects := fun _ => ⟨1, 2, 3, 4, 5, by decide, by decide⟩
  greeting.foldl (Conversation.next o) (.init o 10)

theorem reachable_twoClients : ∃ o, Reachable o 10 twoClients := by
  let o : Address → ClientObjects := fun _ => ⟨1, 2, 3, 4, 5, by decide, by decide⟩
  have hpossible : (init o 10).Possible o greeting := by decide +kernel
  exact ⟨o, Reachable.after o .init hpossible⟩

/-- While the texts fit and every `send` takes the whole buffer: once the open client of a
user who is there has been given everything, the count on its screen is that of the live
connections. -/
theorem shown_count (h : n.Reachable o limit) (hfit : n.TextsFit) {c : Address} (hlive : n.Live c)
    (hopen : (n.client c).phase ≠ .closed) (hall : n.toClient c = []) :
    (writtenCounts (n.client c).calls).getLast?.map UInt64.toNat =
      some n.session.server.incomingConnections.length := by
  obtain ⟨events, h⟩ := h.sound
  have hrefines := Refines.run limit events
  rw [Live, h.session, hrefines.live] at hlive
  have hlength : n.session.server.incomingConnections.length =
      (Room.members (Observer.run limit events).history).length := by
    rw [h.session, ← hrefines.live, List.length_map]
  rw [(h.shows c).counts, (h.told hfit c).2 hopen hall, countsOf_messages, List.getLast?_map,
    Room.getLast?_counts nickNameOf hlive, hlength]
  exact congrArg some (UInt64.toNat_ofNat_of_lt' (Nat.lt_of_le_of_lt hrefines.bounded limit.toNat_lt))

theorem shown_count_twoClients :
    (writtenCounts (twoClients.client 1).calls).getLast?.map UInt64.toNat = some 2 := by
  obtain ⟨o, h⟩ := reachable_twoClients
  have hlive : twoClients.Live 1 := by decide +kernel
  exact shown_count h (by decide +kernel) hlive (by decide +kernel) (by decide +kernel)

/-! ### No line is forged -/

end Conversation

end EpollChat.Chat
