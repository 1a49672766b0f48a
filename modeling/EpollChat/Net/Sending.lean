import EpollChat.Chat.Overlong
import EpollChat.Net.TcpSocket

/-! A sequence of messages sent on one socket. `send` is non-blocking and may take
any prefix of a buffer; the rest of the buffer is lost, and the next message then
follows in the middle of a frame. -/

namespace EpollChat.Net

open Cpp Framing Chat

/-- A call of `SendData` with the buffer of a message, and the result of its `send`. -/
structure SendCall where
  message : Message
  result : SendResult

namespace SendCall

/-- The bytes on the wire after some calls. -/
def wire (sent : Bytes) : List SendCall → Bytes
  | [] => sent
  | call :: calls => wire (TcpSocket.sendData sent call.message.build call.result) calls

/-- The bytes that the call adds. -/
def taken (call : SendCall) : Bytes := TcpSocket.sendData [] call.message.build call.result

theorem wire_eq (sent : Bytes) (calls : List SendCall) : wire sent calls = sent ++ calls.flatMap taken := by
  induction calls generalizing sent with
  | nil => rw [wire, List.flatMap_nil, List.append_nil]
  | cons call calls ih =>
    rw [wire, ih, List.flatMap_cons, ← List.append_assoc]
    congr 1
    unfold taken
    cases call.result <;> simp [TcpSocket.sendData]

/-- Each buffer is taken whole or not at all, but for one after which the kernel
takes nothing more. -/
def Untorn : List SendCall → Prop
  | [] => True
  | call :: calls =>
    ((call.taken = call.message.build ∨ call.taken = []) ∧ Untorn calls) ∨ ∀ later ∈ calls, later.taken = []

instance decidableUntorn : (calls : List SendCall) → Decidable (Untorn calls)
  | [] => isTrue trivial
  | _ :: calls =>
    let _ := decidableUntorn calls
    inferInstanceAs (Decidable (_ ∨ _))

theorem prefix_taken (call : SendCall) : call.taken <+: call.message.build := by
  unfold taken
  cases call.result with
  | error => exact List.nil_prefix
  | accepted count => exact List.take_prefix _ _

end SendCall

/-- Reading only the front of a stream finds only the first of its messages. -/
theorem prefix_drain {w v : Bytes} (h : w <+: v) : (parser.drain w).1 <+: (parser.drain v).1 := by
  obtain ⟨rest, rfl⟩ := h
  rw [parser.drain_append]
  exact List.prefix_append _ _

theorem drain_taken_sublist {calls : List SendCall}
    (h : ∀ call ∈ calls, call.message.SeparatorFree ∧ call.message.Fits) (hu : SendCall.Untorn calls) :
    (parser.drain (calls.flatMap SendCall.taken)).1.Sublist (calls.map SendCall.message) := by
  induction calls with
  | nil => rw [List.flatMap_nil, parser.drain_nil]; exact List.Sublist.refl _
  | cons call calls ih =>
    rw [List.forall_mem_cons] at h
    have hd := drain_build h.1.1 h.1.2
    rw [List.flatMap_cons, List.map_cons]
    rcases hu with ⟨hwhole | hnone, hu⟩ | hlast
    · rw [hwhole, parser.drain_append_of_eq hd]
      exact (ih h.2 hu).cons_cons call.message
    · rw [hnone, List.nil_append]
      exact (ih h.2 hu).cons call.message
    · have hprefix := prefix_drain call.prefix_taken
      rw [hd] at hprefix
      rw [List.flatMap_eq_nil_iff.mpr hlast, List.append_nil]
      exact hprefix.sublist.trans (List.singleton_sublist.mpr List.mem_cons_self)

/-! ### A torn buffer -/

/-- Behind the torn buffer of a message, some messages sent whole are not read as
what was sent. -/
def Spoils (torn : Bytes) (m : Message) (later : List Message) : Prop :=
  (∀ a ∈ later, a.SeparatorFree ∧ a.build.length ≤ maxMessageLength) ∧
    ¬ (parser.drain (torn ++ later.flatMap Message.build)).1.Sublist (m :: later)

def isText : Message → Bool
  | .textMessageToServer _ => true
  | _ => false

theorem not_sublist_of_countP {found sent : List Message} (h : sent.countP isText < found.countP isText) :
    ¬ found.Sublist sent := fun hs => Nat.not_lt.mpr hs.countP_le h

theorem countP_cons_of_no_text {later : List Message} (h : later.countP isText = 0) (m : Message) :
    (m :: later).countP isText = [m].countP isText := by
  rw [List.countP_cons, h, List.countP_singleton, Nat.zero_add]

/-- Two leave messages: behind an unfinished string the header of the first ends
it, and the name of the first becomes a header. -/
def leaves : List Message := [.clientLeaveMessage [textMessageToServerHeader], .clientLeaveMessage []]

theorem leaves_ok : ∀ a ∈ leaves, a.SeparatorFree ∧ a.build.length ≤ maxMessageLength := by decide

theorem build_leaves : leaves.flatMap Message.build = clientLeaveMessageHeader :: separator ::
    [textMessageToServerHeader, separator, clientLeaveMessageHeader, separator, separator] := by decide

theorem drain_after_leaf : (parser.drain
    [textMessageToServerHeader, separator, clientLeaveMessageHeader, separator, separator]).1 =
    [.textMessageToServer [clientLeaveMessageHeader]] := by decide +kernel

/-- Nothing but the header was taken. -/
theorem spoils_header (m : Message) :
    Spoils [m.header] m (.clientLeaveMessage [120, textMessageToServerHeader] :: leaves) := by
  refine ⟨by decide, not_sublist_of_countP ?_⟩
  have hbytes : [m.header] ++
      List.flatMap Message.build (.clientLeaveMessage [120, textMessageToServerHeader] :: leaves) =
      m.header :: clientLeaveMessageHeader :: separator :: 120 ::
        (Message.build (.textMessageToServer [clientLeaveMessageHeader]) ++
          [textMessageToServerHeader, separator, clientLeaveMessageHeader, separator, separator]) := rfl
  rw [hbytes, drain_pair (by decide), drain_separator,
    parser.drain_append_of_eq (drain_build (by decide) (by decide)), drain_after_leaf, countP_cons_of_no_text (by decide)]
  exact Nat.lt_succ_of_le List.countP_le_length

/-- The last string of a message was cut: the leave message completes it. -/
theorem spoils_last {torn : Bytes} {m m' : Message} (h0 : m'.SeparatorFree) (hf : m'.Fits)
    (hm : torn ++ [clientLeaveMessageHeader, separator] = m'.build) (htext : isText m = isText m') :
    Spoils torn m leaves := by
  refine ⟨leaves_ok, not_sublist_of_countP ?_⟩
  rw [build_leaves, List.append_cons, List.append_cons, List.append_assoc torn, List.singleton_append, hm,
    parser.drain_append_of_eq (drain_build h0 hf), drain_after_leaf, countP_cons_of_no_text (by decide),
    List.countP_append, List.countP_singleton, List.countP_singleton, htext]
  exact Nat.lt_succ_self _

theorem mem_append_header {text : Bytes} (h0 : separator ∉ text) (k : ℕ) :
    separator ∉ text.take k ++ [clientLeaveMessageHeader] := by
  rw [List.mem_append, not_or]
  exact ⟨fun h => h0 (List.mem_of_mem_take h), by decide⟩

/-- A string at the end of a message was cut. -/
theorem spoils_string {f : Bytes → Message} {front : Bytes} (hbuild : ∀ t, (f t).build = front ++ t ++ [separator])
    (hfree : ∀ t, separator ∉ t → (f t).SeparatorFree) (hkind : ∀ t t', isText (f t) = isText (f t')) {text : Bytes}
    (h0 : separator ∉ text) (hlen : (f text).build.length ≤ maxMessageLength) (k : ℕ) :
    Spoils (front ++ text.take k) (f text) leaves := by
  refine spoils_last (hfree _ (mem_append_header h0 k)) ?_ ?_ (hkind _ _)
  · rw [hbuild, List.length_append, List.length_append, List.length_singleton] at hlen
    rw [Message.Fits, hbuild, List.length_append, List.length_append, List.length_append, List.length_take,
      List.length_singleton, List.length_singleton]
    omega
  · rw [hbuild, List.append_assoc, List.append_assoc, List.append_assoc]
    rfl

theorem drain_info_text {text : Bytes} (h0 : separator ∉ text) (hlen : text.length + 2 ≤ maxMessageLength)
    (rest : Bytes) :
    ∃ out, (parser.drain (serverInfoMessageHeader :: separator :: (text ++ separator :: rest))).1 =
      out ++ (parser.drain rest).1 := by
  cases hn : stoul text with
  | none => exact ⟨[], by rw [drain_info_malformed h0 hlen hn, List.nil_append]⟩
  | some n =>
    exact ⟨[.serverInfoMessage n], by rw [parser.drain_of_frame (step_info h0 hlen hn rest)]; rfl⟩

/-- The digits of a server info were cut: whatever number is read, the name of
the leave message becomes a header. -/
theorem spoils_info {digits : Bytes} (h0 : separator ∉ digits) (hlen : digits.length ≤ 20) (k : ℕ) (n : UInt64) :
    Spoils (serverInfoMessageHeader :: separator :: digits.take k) (.serverInfoMessage n) leaves := by
  refine ⟨leaves_ok, not_sublist_of_countP ?_⟩
  have h0' := mem_append_header h0 k
  have hlen' : (digits.take k ++ [clientLeaveMessageHeader]).length + 2 ≤ maxMessageLength := by
    rw [List.length_append, List.length_take, List.length_singleton, maxMessageLength]
    omega
  rw [build_leaves, List.cons_append, List.cons_append, List.append_cons, countP_cons_of_no_text (by decide)]
  obtain ⟨out, hout⟩ := drain_info_text h0' hlen'
    [textMessageToServerHeader, separator, clientLeaveMessageHeader, separator, separator]
  rw [hout, drain_after_leaf, List.countP_append, List.countP_singleton]
  exact Nat.succ_pos _

/-- The nick name of a text was cut: the leave message completes it, and its name
becomes the text. -/
theorem spoils_nick {nickName text name : Bytes} (h0 : separator ∉ nickName) (h0' : separator ∉ name) (k : ℕ)
    (hlen : (nickName.take k).length + name.length + 5 ≤ maxMessageLength + 1)
    (hne : nickName.take k ++ [clientLeaveMessageHeader] = nickName → name ≠ text) :
    Spoils (textMessageToClientHeader :: separator :: nickName.take k) (.textMessageToClient nickName text)
      [.clientLeaveMessage name] := by
  have hm : textMessageToClientHeader :: separator :: nickName.take k ++ (Message.clientLeaveMessage name).build =
      (Message.textMessageToClient (nickName.take k ++ [clientLeaveMessageHeader]) name).build := by
    simp [Message.build_eq, Message.header]
  refine ⟨?_, ?_⟩
  · intro a ha
    rw [List.mem_singleton.mp ha, Message.separatorFree_clientLeaveMessage, Message.length_build_clientLeaveMessage]
    exact ⟨h0', by omega⟩
  · rw [List.flatMap_singleton, hm, drain_build (Message.separatorFree_textMessageToClient.mpr
      ⟨mem_append_header h0 k, h0'⟩) (by rw [Message.Fits, Message.length_build_textMessageToClient,
        List.length_append, List.length_singleton]; omega), List.singleton_sublist]
    intro hmem
    rcases List.mem_pair.mp hmem with heq | heq
    · rw [Message.textMessageToClient.injEq] at heq
      exact hne heq.1 heq.2
    · cases heq

theorem exists_spoils_client {nickName text : Bytes} (h0 : separator ∉ nickName ∧ separator ∉ text)
    (hlen : (Message.textMessageToClient nickName text).build.length ≤ maxMessageLength) {k : ℕ}
    (hk : k < nickName.length + text.length + 2) :
    ∃ later, Spoils (textMessageToClientHeader :: separator ::
      (nickName ++ separator :: (text ++ [separator])).take k) (.textMessageToClient nickName text) later := by
  rcases Nat.lt_or_ge nickName.length k with hn | hn
  · obtain ⟨j, rfl⟩ := Nat.exists_eq_add_of_lt hn
    have htake : (nickName ++ separator :: (text ++ [separator])).take (nickName.length + j + 1) =
        nickName ++ separator :: text.take j := by
      rw [Nat.add_assoc, List.take_length_add_append, List.take_succ_cons, List.take_append_of_le_length (by omega)]
    have hbuild (t : Bytes) : (Message.textMessageToClient nickName t).build =
        textMessageToClientHeader :: separator :: (nickName ++ [separator]) ++ t ++ [separator] := by
      simp [Message.build_eq, Message.header]
    rw [htake, List.append_cons]
    exact ⟨leaves, spoils_string hbuild
      (fun t ht => Message.separatorFree_textMessageToClient.mpr ⟨h0.1, ht⟩) (fun _ _ => rfl) h0.2 hlen j⟩
  · rw [Message.length_build_textMessageToClient] at hlen
    rw [List.take_append_of_le_length hn]
    by_cases heq : nickName.take k ++ [clientLeaveMessageHeader] = nickName
    · -- the completed nick name is the right one, so the text has to differ
      have hk' := congrArg List.length heq
      rw [List.length_append, List.length_singleton] at hk'
      refine ⟨[.clientLeaveMessage (if text = [] then [120] else [])], spoils_nick h0.1 ?_ k ?_ fun _ => ?_⟩
      · split <;> decide
      · split
        · rw [List.length_singleton]; omega
        · rw [List.length_nil]; omega
      · split
        · next ht => rw [ht]; decide
        · next ht => exact Ne.symm ht
    · refine ⟨[.clientLeaveMessage []], spoils_nick h0.1 List.not_mem_nil k ?_ fun h => absurd h heq⟩
      rw [List.length_take, List.length_nil]
      omega

/-- A buffer of which only a part was taken spoils some messages sent after it. -/
theorem exists_spoils {m : Message} (h0 : m.SeparatorFree) (hlen : m.build.length ≤ maxMessageLength) {count : ℕ}
    (hpos : 0 < count) (hcount : count < m.build.length) : ∃ later, Spoils (m.build.take count) m later := by
  rw [m.build_eq] at hcount ⊢
  match count with
  | 1 => exact ⟨_, spoils_header m⟩
  | k + 2 =>
    rw [List.take_succ_cons, List.take_succ_cons]
    rw [List.length_cons, List.length_cons] at hcount
    cases m with
    | textMessageToServer text =>
      rw [Message.separatorFree_textMessageToServer] at h0
      rw [Message.body_textMessageToServer, List.length_append, List.length_singleton] at hcount
      rw [Message.body_textMessageToServer, List.take_append_of_le_length (by omega)]
      exact ⟨leaves, spoils_string (fun _ => rfl) (fun _ => Message.separatorFree_textMessageToServer.mpr)
        (fun _ _ => rfl) h0 hlen k⟩
    | clientLeaveMessage nickName =>
      rw [Message.separatorFree_clientLeaveMessage] at h0
      rw [Message.body_clientLeaveMessage, List.length_append, List.length_singleton] at hcount
      rw [Message.body_clientLeaveMessage, List.take_append_of_le_length (by omega)]
      exact ⟨leaves, spoils_string (fun _ => rfl) (fun _ => Message.separatorFree_clientLeaveMessage.mpr)
        (fun _ _ => rfl) h0 hlen k⟩
    | serverInfoMessage n =>
      rw [Message.body_serverInfoMessage, List.length_append, List.length_singleton] at hcount
      rw [Message.body_serverInfoMessage, List.take_append_of_le_length (by omega)]
      exact ⟨leaves, spoils_info (zero_not_mem_toString n) (length_toString_le n) k n⟩
    | textMessageToClient nickName text =>
      rw [Message.separatorFree_textMessageToClient] at h0
      rw [Message.body_textMessageToClient] at hcount ⊢
      exact exists_spoils_client h0 hlen (by simp at hcount; omega)

/-! ### Framing on the wire -/

namespace SendCall

/-- The kernel took some of the buffer, and not all of it. -/
def Torn (call : SendCall) : Prop := call.taken ≠ [] ∧ call.taken ≠ call.message.build

/-- The call whose buffer is taken whole. -/
def whole (m : Message) : SendCall := ⟨m, .accepted m.build.length⟩

theorem taken_whole (m : Message) : (whole m).taken = m.build := List.take_length

theorem flatMap_taken_whole (ms : List Message) : (ms.map whole).flatMap taken = ms.flatMap Message.build := by
  rw [List.flatMap_map]
  exact List.flatMap_congr fun m _ => taken_whole m

theorem Torn.taken_eq {call : SendCall} (h : call.Torn) :
    ∃ count, 0 < count ∧ count < call.message.build.length ∧ call.taken = call.message.build.take count := by
  obtain ⟨message, result⟩ := call
  cases result with
  | error => exact absurd rfl h.1
  | accepted count =>
    refine ⟨count, Nat.pos_of_ne_zero ?_, Nat.not_le.mp fun hle => h.2 (List.take_of_length_le hle), rfl⟩
    rintro rfl
    exact h.1 rfl

/-- Some messages that are sent whole after a torn buffer are not read as they were sent. -/
theorem Torn.exists_spoiled {call : SendCall} (h : call.Torn) (h0 : call.message.SeparatorFree)
    (hlen : call.message.build.length ≤ maxMessageLength) :
    ∃ later : List Message, (∀ m ∈ later, m.SeparatorFree ∧ m.build.length ≤ maxMessageLength) ∧
      ¬ (parseDataAll [] [wire [] (call :: later.map whole)]).1.Sublist (call.message :: later) := by
  obtain ⟨count, hpos, hcount, htaken⟩ := h.taken_eq
  obtain ⟨later, hlater, hspoiled⟩ := exists_spoils h0 hlen hpos hcount
  refine ⟨later, hlater, ?_⟩
  rwa [parseDataAll_nil, List.flatten_singleton, wire_eq, List.nil_append, List.flatMap_cons, htaken,
    flatMap_taken_whole]

end SendCall

/-- Where no buffer is torn, whatever part of the wire has been read, in any
pieces, only messages that were sent have been found, in their order. Behind each
torn buffer there are messages for which this fails. -/
theorem parseDataAll_wire (calls : List SendCall)
    (h : ∀ call ∈ calls, call.message.SeparatorFree ∧ call.message.build.length ≤ maxMessageLength) :
    (SendCall.Untorn calls → ∀ pieces : List DataBuffer, pieces.flatten <+: SendCall.wire [] calls →
      (parseDataAll [] pieces).1.Sublist (calls.map SendCall.message)) ∧
    ∀ call ∈ calls, call.Torn → ∃ later : List Message,
      (∀ m ∈ later, m.SeparatorFree ∧ m.build.length ≤ maxMessageLength) ∧
        ¬ (parseDataAll [] [SendCall.wire [] (call :: later.map SendCall.whole)]).1.Sublist
          (call.message :: later) := by
  refine ⟨fun hu pieces hp => ?_, fun call hc ht => ht.exists_spoiled (h call hc).1 (h call hc).2⟩
  rw [SendCall.wire_eq, List.nil_append] at hp
  rw [parseDataAll_nil]
  exact (prefix_drain hp).sublist.trans
    (drain_taken_sublist (fun call hc => ⟨(h call hc).1, Nat.le_succ_of_le (h call hc).2⟩) hu)

theorem parseDataAll_wire_untorn :
    (parseDataAll [] [[115, 0, 97], [0, 108, 0, 98]]).1.Sublist
      [.textMessageToServer [97], .serverInfoMessage 7, .clientLeaveMessage [98]] :=
  (parseDataAll_wire
    [⟨.textMessageToServer [97], .accepted 4⟩, ⟨.serverInfoMessage 7, .error⟩,
      ⟨.clientLeaveMessage [98], .accepted 3⟩]
    (by decide)).1 (by decide) [[115, 0, 97], [0, 108, 0, 98]] (by decide)

/-- Two texts, `ab` taken up to its first byte and `c` taken whole: the receiver
is shown `as`. -/
theorem torn_text_is_spliced :
    let calls : List SendCall :=
      [⟨.textMessageToServer [97, 98], .accepted 3⟩, ⟨.textMessageToServer [99], .accepted 4⟩]
    (∀ call ∈ calls, call.message.SeparatorFree ∧ call.message.build.length ≤ maxMessageLength) ∧
      (parseDataAll [] [SendCall.wire [] calls]).1 = [.textMessageToServer [97, 115]] ∧
      ¬ (parseDataAll [] [SendCall.wire [] calls]).1.Sublist (calls.map SendCall.message) := by
  decide

end EpollChat.Net
