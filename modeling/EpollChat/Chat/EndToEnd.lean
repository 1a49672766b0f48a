import EpollChat.Chat.Refinement
import EpollChat.Net.Sending

/-! The server and its clients together. Each client is reached by a reliable pipe
of bytes and parses what it reads, in any pieces, at any time. A client's parser
makes the callbacks that the server called for as long as every relayed text,
with the nick name of its sender before it, stays within the limit: the sender's
own frame has no nick name, so a text that the server accepts can be too long to
be relayed. -/

namespace EpollChat.Chat

open Cpp Framing Utils Net

/-- The way from the server to one client: the bytes not read yet, what the
client's parser keeps, and its callbacks so far. -/
structure Link where
  unread : Bytes
  dataToParse : DataBuffer
  callbacks : List Message

namespace Link

def init : Link := ⟨[], [], []⟩

/-- Messages are sent, and each `send` takes the whole buffer. -/
def transmit (l : Link) (messages : List Message) : Link :=
  { l with unread := SendCall.wire l.unread (messages.map fun m => ⟨m, .accepted m.build.length⟩) }

/-- `ClientConnection::OnDataReceived`, for the next `count` bytes. -/
def deliver (l : Link) (count : ℕ) : Link :=
  let parsed := parseData l.dataToParse (l.unread.take count)
  ⟨l.unread.drop count, parsed.2, l.callbacks ++ parsed.1⟩

/-- The link has carried the messages: the parser has seen a part of their bytes,
and the rest is unread. -/
def Carries (l : Link) (messages : List Message) : Prop :=
  ∃ read, read ++ l.unread = messages.flatMap Message.build ∧ parser.drain read = (l.callbacks, l.dataToParse)

theorem carries_init : init.Carries [] := ⟨[], rfl, parser.drain_nil⟩

theorem transmit_unread (l : Link) (messages : List Message) :
    (l.transmit messages).unread = l.unread ++ messages.flatMap Message.build := by
  show SendCall.wire l.unread (messages.map SendCall.whole) = _
  rw [SendCall.wire_eq, SendCall.flatMap_taken_whole]

theorem Carries.transmit {l : Link} {sent : List Message} (h : l.Carries sent) (messages : List Message) :
    (l.transmit messages).Carries (sent ++ messages) := by
  obtain ⟨read, hstream, hparsed⟩ := h
  refine ⟨read, ?_, hparsed⟩
  rw [transmit_unread, ← List.append_assoc, hstream, List.flatMap_append]

theorem Carries.deliver {l : Link} {sent : List Message} (h : l.Carries sent) (count : ℕ) :
    (l.deliver count).Carries sent := by
  obtain ⟨read, hstream, hparsed⟩ := h
  refine ⟨read ++ l.unread.take count, ?_, ?_⟩
  · rw [List.append_assoc, Link.deliver, List.take_append_drop, hstream]
  · rw [parser.drain_append, hparsed, Link.deliver, parseData_eq_drain]

/-- Where everything sent fits, the callbacks are the first of the messages sent. -/
theorem Carries.prefix_callbacks {l : Link} {sent : List Message} (h : l.Carries sent)
    (hsent : ∀ m ∈ sent, m.SeparatorFree ∧ m.Fits) : l.callbacks <+: sent := by
  obtain ⟨read, hstream, hparsed⟩ := h
  have hprefix := prefix_drain (List.prefix_append read l.unread)
  rwa [hstream, drain_flatMap_build hsent, hparsed] at hprefix

/-- Once all is read, the callbacks are the messages sent, if and only if
everything sent fits. -/
theorem Carries.callbacks_eq_iff {l : Link} {sent : List Message} (h : l.Carries sent)
    (hread : l.unread = []) (h0 : ∀ m ∈ sent, m.SeparatorFree) : l.callbacks = sent ↔ ∀ m ∈ sent, m.Fits := by
  obtain ⟨read, hstream, hparsed⟩ := h
  constructor
  · rintro rfl m hm
    have hfound : m ∈ (parser.drain read).1 := by rwa [hparsed]
    exact (of_mem_drain hfound).2
  · intro hf
    rw [hread, List.append_nil] at hstream
    rw [hstream, drain_flatMap_build fun m hm => ⟨h0 m hm, hf m hm⟩] at hparsed
    exact (Prod.mk.inj hparsed).1.symm

end Link

/-- The server and the links to its clients. -/
structure Network where
  session : Session
  link : Address → Link

namespace Network

inductive Step where
  | server (e : Event)
  | deliver (client : Address) (count : ℕ)

def init (limit : UInt64) : Network := ⟨.init limit, fun _ => .init⟩

/-- What the server sends in an event goes onto the links. -/
def step (n : Network) : Step → Network
  | .server e =>
    let session := n.session.step e
    ⟨session, fun c => (n.link c).transmit (sentTo c (session.effects.drop n.session.effects.length))⟩
  | .deliver client count => { n with link := Function.update n.link client ((n.link client).deliver count) }

def run (limit : UInt64) (steps : List Step) : Network := steps.foldl step (init limit)

/-- The events of the server among the steps. -/
def events (steps : List Step) : List Event :=
  steps.filterMap fun
    | .server e => some e
    | .deliver _ _ => none

theorem run_concat (limit : UInt64) (steps : List Step) (a : Step) :
    run limit (steps ++ [a]) = (run limit steps).step a := by
  rw [run, List.foldl_concat]
  rfl

theorem run_session (limit : UInt64) (steps : List Step) :
    (run limit steps).session = Session.run limit (events steps) := by
  induction steps using List.reverseRecOn with
  | nil => rfl
  | append_singleton steps a ih =>
    rw [run_concat, events, List.filterMap_append, ← events]
    cases a with
    | server e =>
      rw [show [Step.server e].filterMap _ = [e] from rfl, Session.run_concat, ← ih]
      rfl
    | deliver client count =>
      rw [show [Step.deliver client count].filterMap _ = [] from rfl, List.append_nil]
      exact ih

/-- Every link carries what the server sent to its client. -/
theorem carries_run (limit : UInt64) (steps : List Step) (c : Address) :
    ((run limit steps).link c).Carries (sentTo c (run limit steps).session.effects) := by
  induction steps using List.reverseRecOn with
  | nil => exact Link.carries_init
  | append_singleton steps a ih =>
    rw [run_concat]
    cases a with
    | server e =>
      obtain ⟨more, hmore⟩ := (Session.step_stepped (run limit steps).session e).effects_append
      rw [step, hmore, List.drop_left, sentTo_append]
      exact ih.transmit _
    | deliver client count =>
      dsimp only [step]
      by_cases hc : c = client
      · subst hc
        rw [Function.update_self]
        exact ih.deliver count
      · rw [Function.update_of_ne hc]
        exact ih

end Network

/-! ### What the server sends -/

theorem separator_not_mem_clientNickName (counter : UInt64) : separator ∉ clientNickName counter := by
  rw [clientNickName, List.mem_append, not_or]
  exact ⟨by decide, zero_not_mem_toString counter⟩

theorem length_clientNickName_le (counter : UInt64) : (clientNickName counter).length ≤ 26 := by
  rw [clientNickName, List.length_append]
  exact Nat.add_le_add_left (length_toString_le counter) 6

/-- No text of the room holds a null byte. -/
theorem separator_not_mem_say (limit : UInt64) (events : List Event) {who : Address} {what : Bytes}
    (h : .say who what ∈ (Observer.run limit events).history) : separator ∉ what := by
  induction events using List.reverseRecOn with
  | nil => cases h
  | append_singleton events e ih =>
    rw [Observer.run_concat] at h
    have hleave (connection : Address)
        (h : .say who what ∈ ((Observer.run limit events).leave connection).history) : separator ∉ what := by
      rw [Observer.leave] at h
      split at h
      · rw [List.mem_append, List.mem_singleton] at h
        rcases h with h | h
        · exact ih h
        · cases h
      · exact ih h
    cases e with
    | newConnection socket =>
      simp only [Observer.observe] at h
      split at h
      · rw [List.mem_append, List.mem_singleton] at h
        rcases h with h | h
        · exact ih h
        · cases h
      · exact ih h
    | dataReceived connection data =>
      rw [Observer.observe] at h
      split at h
      · rw [List.mem_append, List.mem_map] at h
        rcases h with h | ⟨text, htext, heq⟩
        · exact ih h
        · obtain ⟨-, rfl⟩ := Room.Happening.say.inj heq
          rw [newTexts_eq, texts, List.mem_filterMap, parseData_eq_drain] at htext
          obtain ⟨m, hm, hsome⟩ := htext
          cases m with
          | textMessageToServer sent =>
            cases hsome
            exact Message.separatorFree_textMessageToServer.mp (of_mem_drain hm).1
          | textMessageToClient nickName sent => cases hsome
          | clientLeaveMessage nickName => cases hsome
          | serverInfoMessage clientsCount => cases hsome
      · exact ih h
    | closed connection => exact hleave connection h
    | error connection => exact hleave connection h

/-- Every text relayed to a client fits behind the nick name of its sender. -/
def RelayedTextsFit (limit : UInt64) (events : List Event) (c : Address) : Prop :=
  ∀ nickName textMessage, .said nickName textMessage ∈ Room.view nickNameOf c (Observer.run limit events).history →
    nickName.length + textMessage.length + 4 ≤ maxMessageLength + 1

/-- What the server sends has no null byte in its strings, and only relayed texts
can be over the limit. -/
theorem sentTo_spec (limit : UInt64) (events : List Event) (c : Address) :
    (∀ m ∈ sentTo c (Session.run limit events).effects, m.SeparatorFree) ∧
    ((∀ m ∈ sentTo c (Session.run limit events).effects, m.Fits) ↔ RelayedTextsFit limit events c) := by
  rw [(Refines.run limit events).sent c]
  refine ⟨fun m hm => ?_, fun h nickName textMessage hmem => ?_, fun h m hm => ?_⟩
  · obtain ⟨notice, hmem, rfl⟩ := List.mem_map.mp hm
    cases notice with
    | present count => exact Message.separatorFree_serverInfoMessage _
    | said who what =>
      obtain ⟨⟨k, rfl⟩, x, hx⟩ := Room.of_said_mem_view hmem
      exact Message.separatorFree_textMessageToClient.mpr
        ⟨separator_not_mem_clientNickName _, separator_not_mem_say limit events hx⟩
    | gone who =>
      obtain ⟨k, rfl⟩ := Room.of_gone_mem_view hmem
      exact Message.separatorFree_clientLeaveMessage.mpr (separator_not_mem_clientNickName _)
  · have hfits := h _ (List.mem_map_of_mem hmem)
    rwa [Room.Notice.message, Message.Fits, Message.length_build_textMessageToClient] at hfits
  · obtain ⟨notice, hmem, rfl⟩ := List.mem_map.mp hm
    cases notice with
    | present count => exact Message.fits_serverInfoMessage _
    | said who what =>
      rw [Room.Notice.message, Message.Fits, Message.length_build_textMessageToClient]
      exact h who what hmem
    | gone who =>
      obtain ⟨k, rfl⟩ := Room.of_gone_mem_view hmem
      have := length_clientNickName_le (UInt64.ofNat k)
      rw [Room.Notice.message, Message.Fits, Message.length_build_clientLeaveMessage, nickNameOf, maxMessageLength]
      omega

/-- In every run, while the relayed texts fit, a client's callbacks are the first
of the server's calls; and when the client has read everything, its callbacks are
the server's calls if and only if the relayed texts fit. -/
theorem callbacks_agree (limit : UInt64) (steps : List Network.Step) (c : Address) :
    let n := Network.run limit steps
    let calls := sentTo c n.session.effects
    let fit := RelayedTextsFit limit (Network.events steps) c
    (fit → (n.link c).callbacks <+: calls) ∧
    ((n.link c).unread = [] → ((n.link c).callbacks = calls ↔ fit)) := by
  intro n calls fit
  have hcarries : (n.link c).Carries calls := Network.carries_run limit steps c
  obtain ⟨h0, hfits⟩ := sentTo_spec limit (Network.events steps) c
  rw [← Network.run_session] at h0 hfits
  refine ⟨fun h => hcarries.prefix_callbacks fun m hm => ⟨h0 m hm, hfits.mpr h m hm⟩, fun hread => ?_⟩
  rw [hcarries.callbacks_eq_iff hread h0]
  exact hfits

/-- The first client sends a text of 1015 bytes, within the limit. Relayed to the
second client it is one byte too long, and the client is never shown it. -/
theorem long_text_is_not_shown :
    let text : Bytes := List.replicate 1015 97
    let n := Network.run 10 [.server (.newConnection (.incoming 0 5)), .server (.newConnection (.incoming 1 6)),
      .server (.dataReceived 0 (Message.textMessageToServer text).build), .deliver 1 1100]
    (Message.textMessageToServer text).build.length ≤ maxMessageLength ∧ (n.link 1).unread = [] ∧
      sentTo 1 n.session.effects = [.serverInfoMessage 2, .textMessageToClient (clientNickName 1) text] ∧
      (n.link 1).callbacks = [.serverInfoMessage 2] := by
  intro text n
  have h0 : separator ∉ text := fun h => absurd (List.eq_of_mem_replicate h) (by decide)
  have hlen : text.length = 1015 := List.length_replicate
  -- the state after the two connections, and the first of them
  let s := Session.run 10 [.newConnection (.incoming 0 5), .newConnection (.incoming 1 6)]
  let sender : ServerConnection := ⟨0, .incoming 0 5, clientNickName 1, []⟩
  have hparsed : parser.drain (Message.textMessageToServer text).build = ([.textMessageToServer text], []) :=
    drain_build (Message.separatorFree_textMessageToServer.mpr h0)
      (by rw [Message.Fits, Message.length_build_textMessageToServer, hlen]; decide)
  have hsent : sentTo 1 n.session.effects =
      [.serverInfoMessage 2, .textMessageToClient (clientNickName 1) text] := by
    have hsession : n.session = s.perform (s.server.onDataReceived sender (Message.textMessageToServer text).build) := rfl
    have htexts : texts [.textMessageToServer text] = [text] := rfl
    rw [hsession, Session.perform, Server.onDataReceived]
    dsimp only
    rw [sentTo_append, sentTo_callbacks 1 s.server sender (by decide), if_pos (by decide), parseData_eq_drain,
      List.nil_append, hparsed, htexts]
    rfl
  have hrelay : (Message.textMessageToClient (clientNickName 1) text).build.length = 1026 := by
    rw [Message.length_build_textMessageToClient, hlen]
    rfl
  have hread : (n.link 1).unread = [] := by
    let steps : List Network.Step := [.server (.newConnection (.incoming 0 5)),
      .server (.newConnection (.incoming 1 6)), .server (.dataReceived 0 (Message.textMessageToServer text).build)]
    let before := Network.run 10 steps
    obtain ⟨read, hstream, -⟩ : (before.link 1).Carries (sentTo 1 n.session.effects) := Network.carries_run 10 _ 1
    have hlength := congrArg List.length hstream
    rw [hsent, List.flatMap_cons, List.flatMap_singleton, List.length_append, List.length_append, hrelay] at hlength
    have hinfo : (Message.serverInfoMessage 2).build.length = 4 := by decide
    have hlast : n = before.step (.deliver 1 1100) := Network.run_concat 10 steps _
    rw [hlast]
    clear_value before
    simp only [Network.step, Function.update_self, Link.deliver, List.drop_eq_nil_iff]
    omega
  refine ⟨?_, hread, hsent, ?_⟩
  · rw [Message.length_build_textMessageToServer, hlen]
    decide
  · obtain ⟨read, hstream, hcallbacks⟩ : (n.link 1).Carries (sentTo 1 n.session.effects) := Network.carries_run 10 _ 1
    have hinfo := drain_build (Message.separatorFree_serverInfoMessage 2) (Message.fits_serverInfoMessage 2)
    have hlost := drain_build_one_over (Message.separatorFree_textMessageToClient.mpr ⟨by decide, h0⟩) hrelay
    rw [hread, List.append_nil, hsent, List.flatMap_cons, List.flatMap_singleton] at hstream
    rw [hstream, parser.drain_append_of_eq hinfo, hlost, List.append_nil] at hcallbacks
    exact (Prod.mk.inj hcallbacks).1.symm

end EpollChat.Chat
