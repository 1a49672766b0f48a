import EpollChat.Chat.ParserSpec

/-! Decoding what was built. A message of at most `maxMessageLength + 1` bytes is
parsed back and leaves the parser at its end: the limit is tested before a byte
is counted, so one byte more than `maxMessageLength` gets through. A longer
message is rejected after exactly `maxMessageLength + 1` of its bytes. -/

namespace EpollChat.Chat

open Cpp Framing

/-- The message passes the parser's limit. -/
def Message.Fits (m : Message) : Prop := m.build.length ≤ maxMessageLength + 1

instance (m : Message) : Decidable m.Fits := inferInstanceAs (Decidable (_ ≤ _))

/-- A count has at most twenty digits. -/
theorem Message.fits_serverInfoMessage (n : UInt64) : (serverInfoMessage n).Fits := by
  have := length_toString_le n
  rw [Fits, length_build_serverInfoMessage, maxMessageLength]
  omega

/-! ### A message within the limit -/

theorem parseFields_body {m : Message} (h0 : m.SeparatorFree) (hf : m.Fits) (rest : Bytes) :
    parseFields m.header ⟨m.body ++ rest, 2⟩ = .ok m ⟨rest, m.build.length⟩ := by
  rw [Message.Fits] at hf
  cases m with
  | textMessageToServer text =>
    rw [Message.separatorFree_textMessageToServer] at h0
    rw [Message.length_build_textMessageToServer] at hf ⊢
    rw [Message.body_textMessageToServer, List.append_assoc, List.singleton_append, Message.header,
      parseFields_textMessageToServer, bind_of_ok (parseText_text h0 2 (by omega) rest), pure_apply]
    congr 2
    omega
  | textMessageToClient nickName text =>
    rw [Message.separatorFree_textMessageToClient] at h0
    rw [Message.length_build_textMessageToClient] at hf ⊢
    rw [Message.body_textMessageToClient, List.append_assoc, List.cons_append, List.append_assoc,
      List.singleton_append, Message.header, parseFields_textMessageToClient,
      bind_of_ok (parseText_text h0.1 2 (by omega) _), bind_of_ok (parseText_text h0.2 _ (by omega) rest),
      pure_apply]
    congr 2
    omega
  | clientLeaveMessage nickName =>
    rw [Message.separatorFree_clientLeaveMessage] at h0
    rw [Message.length_build_clientLeaveMessage] at hf ⊢
    rw [Message.body_clientLeaveMessage, List.append_assoc, List.singleton_append, Message.header,
      parseFields_clientLeaveMessage, bind_of_ok (parseText_text h0 2 (by omega) rest), pure_apply]
    congr 2
    omega
  | serverInfoMessage n =>
    rw [Message.length_build_serverInfoMessage] at hf ⊢
    have hi := parseInteger_of_parseText (parseText_text (zero_not_mem_toString n) 2 (by omega) rest)
    rw [stoul_toString] at hi
    rw [Message.body_serverInfoMessage, List.append_assoc, List.singleton_append, Message.header,
      parseFields_serverInfoMessage, bind_of_ok hi, pure_apply]
    congr 2
    omega

theorem step_build {m : Message} (h0 : m.SeparatorFree) (hf : m.Fits) :
    parser.step m.build = .frame (some m) [] := by
  have h := parseFields_body h0 hf []
  rw [List.append_nil] at h
  rw [parser_step, scanStep, m.build_eq, parseMessage_header, h]

theorem drain_build {m : Message} (h0 : m.SeparatorFree) (hf : m.Fits) : parser.drain m.build = ([m], []) := by
  rw [parser.drain_of_frame (step_build h0 hf), parser.drain_nil]
  rfl

theorem drain_flatMap_build {ms : List Message} (h : ∀ m ∈ ms, m.SeparatorFree ∧ m.Fits) :
    parser.drain (ms.flatMap Message.build) = (ms, []) := by
  rw [parser.drain_flatMap _ (fun m => [m]) ms fun m hm => drain_build (h m hm).1 (h m hm).2,
    List.flatMap_singleton']

/-- Decoding the encodings of any messages within the limit gives these messages
back, and keeps nothing. -/
theorem parseData_flatMap_build (ms : List Message)
    (h : ∀ m ∈ ms, m.SeparatorFree ∧ m.build.length ≤ maxMessageLength) :
    parseData [] (ms.flatMap Message.build) = (ms, []) := by
  rw [parseData_eq_drain, List.nil_append]
  exact drain_flatMap_build fun m hm => ⟨(h m hm).1, Nat.le_succ_of_le (h m hm).2⟩

theorem parseData_flatMap_build_kinds :
    let ms : List Message := [.textMessageToServer [97], .textMessageToClient [98] [], .clientLeaveMessage [98, 99],
      .serverInfoMessage 18446744073709551615]
    parseData [] (ms.flatMap Message.build) = (ms, []) :=
  parseData_flatMap_build _ (by decide)

/-! ### A message that was decoded -/

theorem parseFields_ok {header : Byte} {s t : Cursor Byte} {m : Message} (hs : s.count = 2)
    (h : parseFields header s = .ok m t) (ht : t.count ≤ maxMessageLength + 1) : m.SeparatorFree ∧ m.Fits := by
  by_cases hh : header ∈ headers
  · rcases mem_headers.mp hh with rfl | rfl | rfl | rfl
    · rw [parseFields_textMessageToServer] at h
      obtain ⟨text, u, hr, hm⟩ := bind_eq_ok h
      obtain ⟨h0, -, hc⟩ := parseText_ok hr
      cases hm
      rw [Message.separatorFree_textMessageToServer, Message.Fits, Message.length_build_textMessageToServer]
      exact ⟨h0, by omega⟩
    · rw [parseFields_textMessageToClient] at h
      obtain ⟨nickName, u, hr, h⟩ := bind_eq_ok h
      obtain ⟨text, v, hr', hm⟩ := bind_eq_ok h
      obtain ⟨h0, -, hc⟩ := parseText_ok hr
      obtain ⟨h0', -, hc'⟩ := parseText_ok hr'
      cases hm
      rw [Message.separatorFree_textMessageToClient, Message.Fits, Message.length_build_textMessageToClient]
      exact ⟨⟨h0, h0'⟩, by omega⟩
    · rw [parseFields_clientLeaveMessage] at h
      obtain ⟨nickName, u, hr, hm⟩ := bind_eq_ok h
      obtain ⟨h0, -, hc⟩ := parseText_ok hr
      cases hm
      rw [Message.separatorFree_clientLeaveMessage, Message.Fits, Message.length_build_clientLeaveMessage]
      exact ⟨h0, by omega⟩
    · rw [parseFields_serverInfoMessage] at h
      obtain ⟨n, u, -, hm⟩ := bind_eq_ok h
      cases hm
      exact ⟨Message.separatorFree_serverInfoMessage n, Message.fits_serverInfoMessage n⟩
  · rw [parseFields_other hh] at h
    cases h

theorem parseMessage_ok {buf : Bytes} {t : Cursor Byte} {m : Message} (h : parseMessage ⟨buf, 0⟩ = .ok m t) :
    m.SeparatorFree ∧ m.Fits := by
  have hb := lawful_parseMessage.bounded ⟨buf, 0⟩ (Nat.zero_le _)
  rw [h] at hb
  obtain ⟨header, u, hr, hf⟩ := bind_eq_ok h
  exact parseFields_ok (parseHeader_ok hr).2 hf hb

/-- The bytes of a message that was decoded are those that its arguments are built
into. Only the text of a number may be another one. -/
theorem parseMessage_ok_bytes {buf : Bytes} {t : Cursor Byte} {m : Message} (h : parseMessage ⟨buf, 0⟩ = .ok m t) :
    (m.header ≠ serverInfoMessageHeader ∧ buf = m.build ++ t.unread) ∨
    ∃ field n, m = .serverInfoMessage n ∧ separator ∉ field ∧ stoul field = some n ∧
      buf = serverInfoMessageHeader :: separator :: (field ++ separator :: t.unread) := by
  have hserver : textMessageToServerHeader ≠ serverInfoMessageHeader := by decide
  have hclient : textMessageToClientHeader ≠ serverInfoMessageHeader := by decide
  have hleave : clientLeaveMessageHeader ≠ serverInfoMessageHeader := by decide
  obtain ⟨header, s, hr, h⟩ := bind_eq_ok h
  obtain ⟨hbuf, -⟩ := parseHeader_ok hr
  by_cases hh : header ∈ headers
  · rcases mem_headers.mp hh with rfl | rfl | rfl | rfl
    · rw [parseFields_textMessageToServer] at h
      obtain ⟨text, u, hr, hm⟩ := bind_eq_ok h
      obtain ⟨-, hu, -⟩ := parseText_ok hr
      cases hm
      exact .inl ⟨hserver, by rw [hbuf, hu, Message.build_eq]; simp [Message.header]⟩
    · rw [parseFields_textMessageToClient] at h
      obtain ⟨nickName, u, hr, h⟩ := bind_eq_ok h
      obtain ⟨text, v, hr', hm⟩ := bind_eq_ok h
      obtain ⟨-, hu, -⟩ := parseText_ok hr
      obtain ⟨-, hv, -⟩ := parseText_ok hr'
      cases hm
      exact .inl ⟨hclient, by rw [hbuf, hu, hv, Message.build_eq]; simp [Message.header]⟩
    · rw [parseFields_clientLeaveMessage] at h
      obtain ⟨nickName, u, hr, hm⟩ := bind_eq_ok h
      obtain ⟨-, hu, -⟩ := parseText_ok hr
      cases hm
      exact .inl ⟨hleave, by rw [hbuf, hu, Message.build_eq]; simp [Message.header]⟩
    · rw [parseFields_serverInfoMessage] at h
      obtain ⟨n, u, hi, hm⟩ := bind_eq_ok h
      cases hm
      obtain ⟨field, v, hr, -⟩ := bind_eq_ok hi
      obtain ⟨h0, hv, -⟩ := parseText_ok hr
      rw [parseInteger_of_parseText hr] at hi
      split at hi
      · next hn => cases hi; exact .inr ⟨field, _, rfl, h0, hn, by rw [hbuf, hv]⟩
      · cases hi
  · rw [parseFields_other hh] at h
    cases h

/-- Whatever the bytes, a message that the parser delivers could have been built
and passes the limit. -/
theorem of_mem_drain {m : Message} {buf : Bytes} (h : m ∈ (parser.drain buf).1) : m.SeparatorFree ∧ m.Fits := by
  induction buf using parser.frameInduction with
  | incomplete buf hs => rw [parser.drain_of_incomplete hs] at h; cases h
  | frame buf out rest hs ih =>
    rw [parser.drain_of_frame hs, List.mem_append, Option.mem_toList] at h
    rcases h with h | h
    · rw [parser_step, scanStep] at hs
      split at hs
      · next hr =>
        cases hs
        cases h
        exact parseMessage_ok hr
      · cases hs; cases h
      · cases hs
    · exact ih h

/-! ### A message over the limit -/

theorem separator_not_mem_take {text : Bytes} (h0 : separator ∉ text) {n : ℕ} (hn : n ≤ text.length) (rest : Bytes) :
    separator ∉ (text ++ rest).take n := by
  rw [List.take_append_of_le_length hn]
  exact fun h => h0 (List.mem_of_mem_take h)

/-- A text that reaches the limit is rejected there. -/
theorem parseText_long {text : Bytes} (h0 : separator ∉ text) (count : ℕ) (hcount : count ≤ maxMessageLength + 1)
    (hlen : maxMessageLength + 1 ≤ count + text.length) (rest : Bytes) :
    parseText ⟨text ++ rest, count⟩ =
      .error .malformed ⟨(text ++ rest).drop (maxMessageLength + 1 - count), maxMessageLength + 1⟩ := by
  refine parseText_overflow _ count hcount ?_ (separator_not_mem_take h0 (by omega) rest)
  rw [List.length_append]
  omega

/-- A longer message is rejected when `maxMessageLength + 1` of its bytes are read. -/
theorem parseFields_body_overflow {m : Message} (h0 : m.SeparatorFree) (hf : ¬ m.Fits) :
    parseFields m.header ⟨m.body, 2⟩ =
      .error .malformed ⟨m.body.drop (maxMessageLength + 1 - 2), maxMessageLength + 1⟩ := by
  rw [Message.Fits, Nat.not_le] at hf
  have h2 : 2 ≤ maxMessageLength + 1 := by decide
  cases m with
  | textMessageToServer text =>
    rw [Message.separatorFree_textMessageToServer] at h0
    rw [Message.length_build_textMessageToServer] at hf
    rw [Message.body_textMessageToServer, Message.header, parseFields_textMessageToServer,
      bind_of_error (parseText_long h0 2 h2 (by omega) _)]
  | textMessageToClient nickName text =>
    rw [Message.separatorFree_textMessageToClient] at h0
    rw [Message.length_build_textMessageToClient] at hf
    rw [Message.body_textMessageToClient, Message.header, parseFields_textMessageToClient]
    rcases Nat.lt_or_ge (nickName.length + 2) (maxMessageLength + 1) with hn | hn
    · -- the nick name is read, the text runs over the limit
      have hdrop : (nickName ++ separator :: (text ++ [separator])).drop (maxMessageLength + 1 - 2) =
          (text ++ [separator]).drop (maxMessageLength + 1 - (2 + nickName.length + 1)) := by
        rw [List.append_cons, List.drop_append, List.drop_eq_nil_of_le (by simp; omega), List.nil_append,
          List.length_append, List.length_singleton]
        congr 1
        omega
      rw [bind_of_ok (parseText_text h0.1 2 (by omega) _),
        bind_of_error (parseText_long h0.2 _ (by omega) (by omega) _), hdrop]
    · rw [bind_of_error (parseText_long h0.1 2 h2 (by omega) _)]
  | clientLeaveMessage nickName =>
    rw [Message.separatorFree_clientLeaveMessage] at h0
    rw [Message.length_build_clientLeaveMessage] at hf
    rw [Message.body_clientLeaveMessage, Message.header, parseFields_clientLeaveMessage,
      bind_of_error (parseText_long h0 2 h2 (by omega) _)]
  | serverInfoMessage n => exact absurd (Message.fits_serverInfoMessage n) (Nat.not_le.mpr hf)

theorem step_build_overflow {m : Message} (h0 : m.SeparatorFree) (hf : ¬ m.Fits) :
    parser.step m.build = .frame none (m.build.drop (maxMessageLength + 1)) := by
  rw [parser_step, scanStep, m.build_eq, parseMessage_header, parseFields_body_overflow h0 hf]
  rfl

/-- Past its first `maxMessageLength + 1` bytes, a longer message is read as if a
new message began there. -/
theorem drain_build_overflow {m : Message} (h0 : m.SeparatorFree) (hf : ¬ m.Fits) :
    parser.drain m.build = parser.drain (m.build.drop (maxMessageLength + 1)) := by
  rw [parser.drain_of_frame (step_build_overflow h0 hf)]
  rfl

theorem Message.exists_build_eq_concat (m : Message) : ∃ front, m.build = front ++ [separator] := by
  cases m with
  | textMessageToServer textMessage => exact ⟨_, rfl⟩
  | textMessageToClient nickName textMessage => exact ⟨_, rfl⟩
  | clientLeaveMessage nickName => exact ⟨_, rfl⟩
  | serverInfoMessage clientsCount => exact ⟨_, rfl⟩

/-- Of the shortest messages that are rejected, the separator at the end is kept. -/
theorem drain_build_one_over {m : Message} (h0 : m.SeparatorFree) (hlen : m.build.length = maxMessageLength + 2) :
    parser.drain m.build = ([], [separator]) := by
  have hf : ¬ m.Fits := by
    rw [Message.Fits, hlen]
    exact Nat.not_succ_le_self _
  have hs : parser.step [separator] = .incomplete := by
    rw [parser_step, scanStep, parseMessage, bind_of_error (parseHeader_one separator)]
  obtain ⟨front, hfront⟩ := m.exists_build_eq_concat
  have hfrontlen : front.length = maxMessageLength + 1 := by
    rw [hfront, List.length_append, List.length_singleton] at hlen
    omega
  rw [drain_build_overflow h0 hf, hfront, List.drop_left' hfrontlen, parser.drain_of_incomplete hs]

end EpollChat.Chat
