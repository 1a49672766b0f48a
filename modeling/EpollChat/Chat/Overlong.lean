import EpollChat.Chat.RoundTrip

/-! Messages over the limit. The parser drops the first `maxMessageLength + 1`
bytes of such a message and goes on in the middle of it, two bytes at a time,
until a byte that is a header stands before a separator. Whether it is back at a
frame boundary when the message ends depends on the parity of what is left and on
the byte before each separator. -/

namespace EpollChat.Chat

open Cpp Framing

/-! ### Reading the rest of a text -/

theorem drain_pair {byte : Byte} (h : byte ≠ separator) (header : Byte) (rest : Bytes) :
    parser.drain (header :: byte :: rest) = parser.drain rest := by
  have hh := parseHeader_two header byte rest
  rw [if_neg h] at hh
  have hs : parser.step (header :: byte :: rest) = .frame none rest := by
    rw [parser_step, scanStep, parseMessage, bind_of_error hh]
  rw [parser.drain_of_frame hs]
  rfl

theorem drain_of_parseFields {header : Byte} {bytes rest : Bytes} {count : ℕ}
    (h : parseFields header ⟨bytes, 2⟩ = .error .malformed ⟨rest, count⟩) :
    parser.drain (header :: separator :: bytes) = parser.drain rest := by
  have hs : parser.step (header :: separator :: bytes) = .frame none rest := by
    rw [parser_step, scanStep, parseMessage_header, h]
  rw [parser.drain_of_frame hs]
  rfl

theorem drain_other {header : Byte} (h : header ∉ headers) (rest : Bytes) :
    parser.drain (header :: separator :: rest) = parser.drain rest :=
  drain_of_parseFields (by rw [parseFields_other h, throw_apply])

/-- A separator where a header is expected takes the next byte with it. -/
theorem drain_separator (byte : Byte) (rest : Bytes) :
    parser.drain (separator :: byte :: rest) = parser.drain rest := by
  by_cases h : byte = separator
  · rw [h, drain_other (by decide)]
  · exact drain_pair h separator rest

theorem drain_even {text : Bytes} (h0 : separator ∉ text) (heven : text.length % 2 = 0) (rest : Bytes) :
    parser.drain (text ++ rest) = parser.drain rest := by
  match text with
  | [] => rfl
  | [_] => simp at heven
  | a :: b :: text =>
    simp only [List.mem_cons, not_or] at h0
    rw [List.cons_append, List.cons_append, drain_pair (Ne.symm h0.2.1)]
    exact drain_even h0.2.2 (by simp only [List.length_cons] at heven; omega) rest

theorem drain_odd {text : Bytes} (h0 : separator ∉ text) (hodd : text.length % 2 = 1) :
    ∃ last, text.getLast? = some last ∧ ∀ rest, parser.drain (text ++ rest) = parser.drain (last :: rest) := by
  rcases List.eq_nil_or_concat text with rfl | ⟨init, last, rfl⟩
  · simp at hodd
  · rw [List.length_concat] at hodd
    refine ⟨last, by simp, fun rest => ?_⟩
    rw [List.concat_eq_append, List.append_assoc, List.singleton_append]
    exact drain_even (fun h => h0 (by simp [h])) (by omega) _

/-- Read from a frame boundary, the text and the separator after it are rejected
two bytes at a time, with a boundary at their end. -/
def SkippedInPairs (text : Bytes) : Prop := text.length % 2 = 1 ∧ ∀ last ∈ text.getLast?, last ∉ headers

instance (text : Bytes) : Decidable (SkippedInPairs text) := inferInstanceAs (Decidable (_ ∧ _))

theorem drain_skipped {text : Bytes} (h0 : separator ∉ text) (h : SkippedInPairs text) (rest : Bytes) :
    parser.drain (text ++ separator :: rest) = parser.drain rest := by
  obtain ⟨last, hlast, hd⟩ := drain_odd h0 h.1
  rw [hd, drain_other (h.2 last hlast)]

theorem drain_not_skipped {text : Bytes} (h0 : separator ∉ text) (h : ¬ SkippedInPairs text) (rest : Bytes) :
    parser.drain (text ++ separator :: rest) = parser.drain (separator :: rest) ∨
    ∃ header ∈ headers, parser.drain (text ++ separator :: rest) = parser.drain (header :: separator :: rest) := by
  rcases Nat.mod_two_eq_zero_or_one text.length with heven | hodd
  · exact .inl (drain_even h0 heven _)
  · obtain ⟨last, hlast, hd⟩ := drain_odd h0 hodd
    refine .inr ⟨last, ?_, hd _⟩
    by_contra hl
    exact h ⟨hodd, fun b hb => by rw [hlast, Option.mem_some_iff] at hb; exact hb ▸ hl⟩

/-! ### Reading a text as the fields of a message -/

/-- After any header, a text that reaches the limit is rejected there. -/
theorem drain_header_long {header : Byte} (hh : header ∈ headers) {text : Bytes} (h0 : separator ∉ text)
    (hlen : maxMessageLength - 1 ≤ text.length) (rest : Bytes) :
    parser.drain (header :: separator :: (text ++ rest)) =
      parser.drain (text.drop (maxMessageLength - 1) ++ rest) := by
  have hp := parseText_long h0 2 (by decide) (by rw [maxMessageLength] at hlen ⊢; omega) rest
  rw [show maxMessageLength + 1 - 2 = maxMessageLength - 1 from rfl, List.drop_append_of_le_length hlen] at hp
  exact drain_of_parseFields (parseFields_of_error hh hp)

/-- After the header of a server info, a text that is no number is rejected. -/
theorem drain_info_malformed {text : Bytes} (h0 : separator ∉ text) (hlen : text.length + 2 ≤ maxMessageLength)
    (hn : stoul text = none) (rest : Bytes) :
    parser.drain (serverInfoMessageHeader :: separator :: (text ++ separator :: rest)) = parser.drain rest := by
  have hi := parseInteger_of_parseText (parseText_text h0 2 (by omega) rest)
  rw [hn] at hi
  exact drain_of_parseFields (by rw [parseFields_serverInfoMessage, bind_of_error hi])

theorem step_info {text : Bytes} {n : UInt64} (h0 : separator ∉ text) (hlen : text.length + 2 ≤ maxMessageLength)
    (hn : stoul text = some n) (rest : Bytes) :
    parser.step (serverInfoMessageHeader :: separator :: (text ++ separator :: rest)) =
      .frame (some (.serverInfoMessage n)) rest := by
  have hi := parseInteger_of_parseText (parseText_text h0 2 (by omega) rest)
  rw [hn] at hi
  rw [parser_step, scanStep, parseMessage_header, parseFields_serverInfoMessage, bind_of_ok hi, pure_apply]

/-- After the header of a text to a client, a nick name that ends at the limit is
rejected with its separator. -/
theorem drain_client_full {text : Bytes} (h0 : separator ∉ text) (hlen : text.length + 2 = maxMessageLength)
    (rest : Bytes) :
    parser.drain (textMessageToClientHeader :: separator :: (text ++ separator :: rest)) = parser.drain rest := by
  have hp := parseText_text h0 2 (by omega) rest
  have hq := parseText_long (List.not_mem_nil : separator ∉ ([] : Bytes)) (2 + text.length + 1) (by omega)
    (by simp; omega) rest
  rw [List.nil_append, show maxMessageLength + 1 - (2 + text.length + 1) = 0 by omega, List.drop_zero] at hq
  exact drain_of_parseFields (by rw [parseFields_textMessageToClient, bind_of_ok hp, bind_of_error hq])

/-! ### Messages that leave their neighbours alone -/

/-- The text and its separator, read as the fields after a header, cause no
callback and end at a frame boundary. -/
def RejectedAfter (header : Byte) (text : Bytes) : Prop :=
  if maxMessageLength - 1 ≤ text.length then SkippedInPairs (text.drop (maxMessageLength - 1))
  else header = serverInfoMessageHeader ∧ stoul text = none ∨
    header = textMessageToClientHeader ∧ text.length + 2 = maxMessageLength

instance (header : Byte) (text : Bytes) : Decidable (RejectedAfter header text) :=
  inferInstanceAs (Decidable (ite _ _ _))

/-- What follows the first `maxMessageLength + 1` bytes of the message is rejected
up to its end. When the nick name itself reaches the limit, its rest and the text
are two separate strings; a nick name that ends in a header then makes the text
the fields of a new message. -/
def Message.Harmless : Message → Prop
  | .textMessageToServer text => SkippedInPairs (text.drop (maxMessageLength - 1))
  | .clientLeaveMessage nickName => SkippedInPairs (nickName.drop (maxMessageLength - 1))
  | .serverInfoMessage _ => False
  | .textMessageToClient nickName text =>
    if nickName.length + 2 ≤ maxMessageLength then
      SkippedInPairs (text.drop (maxMessageLength - 2 - nickName.length))
    else if nickName.length % 2 = 1 then text = [] ∨ SkippedInPairs text.tail
    else if nickName.getLast?.getD separator ∈ headers then
      RejectedAfter (nickName.getLast?.getD separator) text
    else SkippedInPairs text

instance (m : Message) : Decidable m.Harmless := by
  cases m <;> unfold Message.Harmless <;> infer_instance

theorem drain_rejectedAfter {header : Byte} (hh : header ∈ headers) {text : Bytes} (h0 : separator ∉ text)
    (h : RejectedAfter header text) (rest : Bytes) :
    parser.drain (header :: separator :: (text ++ separator :: rest)) = parser.drain rest := by
  rw [RejectedAfter] at h
  split at h
  · next hlen =>
    rw [drain_header_long hh h0 hlen, drain_skipped (fun hm => h0 (List.mem_of_mem_drop hm)) h]
  · next hlen =>
    rw [maxMessageLength] at hlen
    rcases h with ⟨rfl, hn⟩ | ⟨rfl, hl⟩
    · exact drain_info_malformed h0 (by rw [maxMessageLength]; omega) hn rest
    · exact drain_client_full h0 hl rest

/-! ### What the parser makes of a message over the limit -/

theorem drain_build_append_overflow {m : Message} (h0 : m.SeparatorFree) (hf : ¬ m.Fits) (rest : Bytes) :
    parser.drain (m.build ++ rest) = parser.drain (m.body.drop (maxMessageLength - 1) ++ rest) := by
  rw [parser.drain_of_frame (parser.stable (step_build_overflow h0 hf) rest), m.build_eq]
  rfl

theorem drain_long_text {text : Bytes} (hlen : maxMessageLength - 1 ≤ text.length) (rest : Bytes) :
    parser.drain ((text ++ [separator]).drop (maxMessageLength - 1) ++ rest) =
      parser.drain (text.drop (maxMessageLength - 1) ++ separator :: rest) := by
  rw [List.drop_append_of_le_length hlen, List.append_assoc, List.singleton_append]

/-- A text to a server or a leave message: what is left is the rest of its string. -/
theorem drain_server_overflow {text : Bytes} (h0 : separator ∉ text) (hf : ¬ (Message.textMessageToServer text).Fits)
    (rest : Bytes) :
    parser.drain ((Message.textMessageToServer text).build ++ rest) =
      parser.drain (text.drop (maxMessageLength - 1) ++ separator :: rest) := by
  rw [drain_build_append_overflow (Message.separatorFree_textMessageToServer.mpr h0) hf,
    Message.body_textMessageToServer, drain_long_text]
  rw [Message.Fits, Message.length_build_textMessageToServer] at hf
  omega

theorem drain_leave_overflow {nickName : Bytes} (h0 : separator ∉ nickName)
    (hf : ¬ (Message.clientLeaveMessage nickName).Fits) (rest : Bytes) :
    parser.drain ((Message.clientLeaveMessage nickName).build ++ rest) =
      parser.drain (nickName.drop (maxMessageLength - 1) ++ separator :: rest) := by
  rw [drain_build_append_overflow (Message.separatorFree_clientLeaveMessage.mpr h0) hf,
    Message.body_clientLeaveMessage, drain_long_text]
  rw [Message.Fits, Message.length_build_clientLeaveMessage] at hf
  omega

section Client
variable {nickName text : Bytes} (h0 : separator ∉ nickName ∧ separator ∉ text)
  (hf : ¬ (Message.textMessageToClient nickName text).Fits) (rest : Bytes)
include h0 hf

/-- The limit falls into the text. -/
theorem drain_client_overflow_text (hn : nickName.length + 2 ≤ maxMessageLength) :
    parser.drain ((Message.textMessageToClient nickName text).build ++ rest) =
      parser.drain (text.drop (maxMessageLength - 2 - nickName.length) ++ separator :: rest) := by
  rw [drain_build_append_overflow (Message.separatorFree_textMessageToClient.mpr h0) hf,
    Message.body_textMessageToClient]
  rw [Message.Fits, Message.length_build_textMessageToClient] at hf
  rw [List.append_cons, List.drop_append, List.drop_eq_nil_of_le (by simp; omega), List.nil_append,
    List.length_append, List.length_singleton,
    show maxMessageLength - 1 - (nickName.length + 1) = maxMessageLength - 2 - nickName.length by omega,
    List.drop_append_of_le_length (by omega), List.append_assoc, List.singleton_append]

/-- The limit falls into the nick name, or just after it. -/
theorem drain_client_overflow_nick (hn : maxMessageLength < nickName.length + 2) :
    parser.drain ((Message.textMessageToClient nickName text).build ++ rest) =
      parser.drain (nickName.drop (maxMessageLength - 1) ++ separator :: (text ++ separator :: rest)) := by
  rw [drain_build_append_overflow (Message.separatorFree_textMessageToClient.mpr h0) hf,
    Message.body_textMessageToClient, List.drop_append_of_le_length (by omega), List.append_assoc,
    List.cons_append, List.append_assoc, List.singleton_append]

/-- An odd nick name: the separator after it takes the first byte of the text with it. -/
theorem drain_client_overflow_odd (hn : maxMessageLength < nickName.length + 2) (hodd : nickName.length % 2 = 1) :
    parser.drain ((Message.textMessageToClient nickName text).build ++ rest) =
      if text = [] then parser.drain rest else parser.drain (text.tail ++ separator :: rest) := by
  rw [maxMessageLength] at hn
  rw [drain_client_overflow_nick h0 hf rest hn,
    drain_even (fun h => h0.1 (List.mem_of_mem_drop h)) (by rw [List.length_drop, maxMessageLength]; omega)]
  cases text with
  | nil => rw [if_pos rfl, List.nil_append, drain_separator]
  | cons b text => rw [if_neg (List.cons_ne_nil b text), List.cons_append, drain_separator, List.tail_cons]

/-- An even nick name: its last byte stands where a header is expected. -/
theorem drain_client_overflow_even (hn : maxMessageLength < nickName.length + 2) (heven : nickName.length % 2 = 0) :
    parser.drain ((Message.textMessageToClient nickName text).build ++ rest) =
      parser.drain (nickName.getLast?.getD separator :: separator :: (text ++ separator :: rest)) := by
  rw [maxMessageLength] at hn
  obtain ⟨last, hlast, hd⟩ := drain_odd (fun h => h0.1 (List.mem_of_mem_drop h))
    (by rw [List.length_drop, maxMessageLength]; omega : (nickName.drop (maxMessageLength - 1)).length % 2 = 1)
  rw [drain_client_overflow_nick h0 hf rest hn, hd]
  rw [List.getLast?_drop, if_neg (by rw [maxMessageLength]; omega)] at hlast
  rw [hlast, Option.getD_some]

end Client

/-- A harmless message over the limit is swallowed. -/
theorem drain_harmless {m : Message} (h0 : m.SeparatorFree) (hf : ¬ m.Fits) (h : m.Harmless) (rest : Bytes) :
    parser.drain (m.build ++ rest) = parser.drain rest := by
  cases m with
  | textMessageToServer text =>
    rw [Message.separatorFree_textMessageToServer] at h0
    rw [drain_server_overflow h0 hf, drain_skipped (fun hm => h0 (List.mem_of_mem_drop hm)) h]
  | clientLeaveMessage nickName =>
    rw [Message.separatorFree_clientLeaveMessage] at h0
    rw [drain_leave_overflow h0 hf, drain_skipped (fun hm => h0 (List.mem_of_mem_drop hm)) h]
  | serverInfoMessage n => exact absurd (Message.fits_serverInfoMessage n) hf
  | textMessageToClient nickName text =>
    rw [Message.separatorFree_textMessageToClient] at h0
    simp only [Message.Harmless] at h
    split at h
    · next hn =>
      rw [drain_client_overflow_text h0 hf rest hn, drain_skipped (fun hm => h0.2 (List.mem_of_mem_drop hm)) h]
    · next hn =>
      rw [Nat.not_le] at hn
      split at h
      · next hodd =>
        rw [drain_client_overflow_odd h0 hf rest hn hodd]
        split
        · rfl
        · next ht => exact drain_skipped (fun hm => h0.2 (List.mem_of_mem_tail hm)) (h.resolve_left ht) rest
      · next hodd =>
        rw [drain_client_overflow_even h0 hf rest hn (by omega)]
        split at h
        · next hh => exact drain_rejectedAfter hh h0.2 h rest
        · next hh => rw [drain_other hh, drain_skipped h0.2 h]

theorem SkippedInPairs.length_pos {text : Bytes} (h : SkippedInPairs text) : 0 < text.length := by
  have := h.1
  omega

theorem Message.Harmless.not_fits {m : Message} (h : m.Harmless) : ¬ m.Fits := by
  rw [Fits, Nat.not_le]
  cases m with
  | textMessageToServer text =>
    have := SkippedInPairs.length_pos h
    rw [List.length_drop] at this
    rw [length_build_textMessageToServer]
    omega
  | clientLeaveMessage nickName =>
    have := SkippedInPairs.length_pos h
    rw [List.length_drop] at this
    rw [length_build_clientLeaveMessage]
    omega
  | serverInfoMessage n => exact h.elim
  | textMessageToClient nickName text =>
    rw [length_build_textMessageToClient]
    simp only [Harmless] at h
    split at h
    · have := h.length_pos
      rw [List.length_drop] at this
      omega
    · omega

/-! ### Every other message over the limit does harm -/

/-- A short message to put behind. -/
def probe : Message := .textMessageToServer (bytes ['x'])

theorem probe_build : probe.build = [textMessageToServerHeader, separator, 'x'.toUInt8, separator] := by decide

theorem probe_ok : probe.SeparatorFree ∧ probe.build.length ≤ maxMessageLength := by decide

/-- The probe is lost or garbled where a separator is left over, or a header. -/
theorem probe_spoiled {text : Bytes} (h0 : separator ∉ text) (h : ¬ SkippedInPairs text) :
    (parser.drain (text ++ separator :: probe.build)).1 ≠ [probe] := by
  have hall : ∀ header ∈ headers,
      (parser.drain [header, separator, textMessageToServerHeader, separator, 'x'.toUInt8, separator]).1 ≠ [probe] := by
    decide +kernel
  rw [probe_build]
  rcases drain_not_skipped h0 h [textMessageToServerHeader, separator, 'x'.toUInt8, separator] with
    hd | ⟨b, hb, hd⟩
  · rw [hd]
    decide
  · rw [hd]
    exact hall b hb

/-- A message of its own before the probe. -/
theorem probe_preceded {w : Bytes} {m : Message} (hw : parser.step w = .frame (some m) []) :
    (parser.drain (w ++ probe.build)).1 ≠ [probe] := by
  rw [parser.drain_of_frame (parser.stable hw _), List.nil_append,
    drain_build probe_ok.1 (Nat.le_succ_of_le probe_ok.2)]
  exact fun h => by simpa using congrArg List.length h

/-- The probe comes after a message with a single field. -/
theorem probe_after_field {header : Byte} {text : Bytes} {m : Message}
    (hw : parser.step (header :: separator :: (text ++ [separator])) = .frame (some m) []) :
    (parser.drain (header :: separator :: (text ++ separator :: probe.build))).1 ≠ [probe] := by
  have h := probe_preceded hw
  rwa [List.cons_append, List.cons_append, List.append_assoc, List.singleton_append] at h

theorem probe_after_info {text : Bytes} (h0 : separator ∉ text) (hlen : text.length + 2 ≤ maxMessageLength)
    (hn : stoul text ≠ none) :
    (parser.drain (serverInfoMessageHeader :: separator :: (text ++ separator :: probe.build))).1 ≠ [probe] := by
  obtain ⟨n, hn⟩ := Option.ne_none_iff_exists'.mp hn
  exact probe_after_field (step_info h0 hlen hn [])

/-- The probe's header becomes the text of another message, or the byte that runs
over the limit. -/
theorem probe_after_client {text : Bytes} (h0 : separator ∉ text) (hlen : text.length + 2 < maxMessageLength) :
    (parser.drain (textMessageToClientHeader :: separator :: (text ++ separator :: probe.build))).1 ≠ [probe] := by
  have hp := parseText_text h0 2 (by omega) probe.build
  have hs : separator ∉ [textMessageToServerHeader] := by decide
  rcases Nat.lt_or_ge (text.length + 3) maxMessageLength with hl | hl
  · have hq := parseText_text hs (2 + text.length + 1) (by rw [List.length_singleton]; omega)
      ['x'.toUInt8, separator]
    rw [List.singleton_append, ← probe_build] at hq
    have hw : parser.step (textMessageToClientHeader :: separator :: (text ++ separator :: probe.build)) =
        .frame (some (.textMessageToClient text [textMessageToServerHeader])) ['x'.toUInt8, separator] := by
      rw [parser_step, scanStep, parseMessage_header, parseFields_textMessageToClient, bind_of_ok hp,
        bind_of_ok hq, pure_apply]
    rw [parser.drain_of_frame hw]
    exact fun h => by simp [probe] at h
  · have hq := parseText_long hs (2 + text.length + 1) (by omega) (by rw [List.length_singleton]; omega)
      [separator, 'x'.toUInt8, separator]
    rw [List.singleton_append, ← probe_build, show maxMessageLength + 1 - (2 + text.length + 1) = 1 by omega] at hq
    rw [drain_of_parseFields (by rw [parseFields_textMessageToClient, bind_of_ok hp, bind_of_error hq]), probe_build]
    decide

theorem probe_after_header {header : Byte} (hh : header ∈ headers) {text : Bytes} (h0 : separator ∉ text)
    (h : ¬ RejectedAfter header text) :
    (parser.drain (header :: separator :: (text ++ separator :: probe.build))).1 ≠ [probe] := by
  rw [RejectedAfter] at h
  split at h
  · next hlen =>
    rw [drain_header_long hh h0 hlen]
    exact probe_spoiled (fun hm => h0 (List.mem_of_mem_drop hm)) h
  · next hlen =>
    have hl : text.length + 2 ≤ maxMessageLength := by rw [maxMessageLength] at hlen ⊢; omega
    rw [not_or, not_and, not_and] at h
    rcases mem_headers.mp hh with rfl | rfl | rfl | rfl
    · have hw := step_build (Message.separatorFree_textMessageToServer.mpr h0)
        (by rw [Message.Fits, Message.length_build_textMessageToServer]; omega)
      rw [Message.build_eq, Message.header, Message.body_textMessageToServer] at hw
      exact probe_after_field hw
    · exact probe_after_client h0 (Nat.lt_of_le_of_ne hl (h.2 rfl))
    · have hw := step_build (Message.separatorFree_clientLeaveMessage.mpr h0)
        (by rw [Message.Fits, Message.length_build_clientLeaveMessage]; omega)
      rw [Message.build_eq, Message.header, Message.body_clientLeaveMessage] at hw
      exact probe_after_field hw
    · exact probe_after_info h0 hl (h.1 rfl)

theorem probe_after_harmful {m : Message} (h0 : m.SeparatorFree) (hf : ¬ m.Fits) (h : ¬ m.Harmless) :
    (parser.drain (m.build ++ probe.build)).1 ≠ [probe] := by
  cases m with
  | textMessageToServer text =>
    rw [Message.separatorFree_textMessageToServer] at h0
    rw [drain_server_overflow h0 hf]
    exact probe_spoiled (fun hm => h0 (List.mem_of_mem_drop hm)) h
  | clientLeaveMessage nickName =>
    rw [Message.separatorFree_clientLeaveMessage] at h0
    rw [drain_leave_overflow h0 hf]
    exact probe_spoiled (fun hm => h0 (List.mem_of_mem_drop hm)) h
  | serverInfoMessage n => exact absurd (Message.fits_serverInfoMessage n) hf
  | textMessageToClient nickName text =>
    rw [Message.separatorFree_textMessageToClient] at h0
    simp only [Message.Harmless] at h
    split at h
    · next hn =>
      rw [drain_client_overflow_text h0 hf _ hn]
      exact probe_spoiled (fun hm => h0.2 (List.mem_of_mem_drop hm)) h
    · next hn =>
      rw [Nat.not_le] at hn
      split at h
      · next hodd =>
        rw [not_or] at h
        rw [drain_client_overflow_odd h0 hf _ hn hodd, if_neg h.1]
        exact probe_spoiled (fun hm => h0.2 (List.mem_of_mem_tail hm)) h.2
      · next hodd =>
        rw [drain_client_overflow_even h0 hf _ hn (by omega)]
        split at h
        · next hh => exact probe_after_header hh h0.2 h
        · next hh =>
          rw [drain_other hh]
          exact probe_spoiled h0.2 h

/-! ### Neighbours -/

/-- The messages whose encoding has at most `maxMessageLength` bytes. -/
def withinLimit (ms : List Message) : List Message := ms.filter fun m => m.build.length ≤ maxMessageLength

theorem drain_withinLimit {ms : List Message} (h0 : ∀ m ∈ ms, m.SeparatorFree)
    (h : ∀ m ∈ ms, maxMessageLength < m.build.length → m.Harmless) :
    parser.drain (ms.flatMap Message.build) = (withinLimit ms, []) := by
  induction ms with
  | nil => exact parser.drain_nil
  | cons m ms ih =>
    rw [List.forall_mem_cons] at h0 h
    rw [List.flatMap_cons, withinLimit, List.filter_cons]
    by_cases hm : m.build.length ≤ maxMessageLength
    · rw [parser.drain_append_of_eq (drain_build h0.1 (Nat.le_succ_of_le hm)), ih h0.2 h.2,
        if_pos (by simpa using hm)]
      rfl
    · have hh := h.1 (Nat.not_le.mp hm)
      rw [drain_harmless h0.1 hh.not_fits hh, ih h0.2 h.2, if_neg (by simpa using hm)]
      rfl

/-- Any other message over the limit loses or garbles what follows it, or is
delivered itself. -/
theorem exists_spoiled {m : Message} (h0 : m.SeparatorFree) (hlong : maxMessageLength < m.build.length)
    (h : ¬ m.Harmless) :
    ∃ after : List Message, (∀ a ∈ after, a.SeparatorFree ∧ a.build.length ≤ maxMessageLength) ∧
      (parser.drain ((m :: after).flatMap Message.build)).1 ≠ withinLimit (m :: after) := by
  have hm : withinLimit [m] = [] := by simp [withinLimit, hlong]
  by_cases hf : m.Fits
  · refine ⟨[], fun a ha => absurd ha List.not_mem_nil, ?_⟩
    rw [List.flatMap_singleton, drain_build h0 hf, hm]
    exact List.cons_ne_nil m []
  · refine ⟨[probe], fun a ha => List.mem_singleton.mp ha ▸ probe_ok, ?_⟩
    have hw : withinLimit [m, probe] = [probe] := by
      rw [withinLimit, List.filter_cons_of_neg (by simpa using hlong)]
      decide
    rw [hw]
    simpa using probe_after_harmful h0 hf h

/-- Let certain messages over the limit be sent among those within it. From all
lists of such messages, in any pieces, exactly the messages within the limit
arrive, if and only if these messages over the limit are harmless. -/
theorem parseDataAll_overlong (sent : Message → Prop) :
    (∀ ms : List Message, (∀ m ∈ ms, m.SeparatorFree ∧ (maxMessageLength < m.build.length → sent m)) →
      ∀ pieces : List DataBuffer, pieces.flatten = ms.flatMap Message.build →
        (parseDataAll [] pieces).1 = withinLimit ms) ↔
    ∀ m : Message, m.SeparatorFree → maxMessageLength < m.build.length → sent m → m.Harmless := by
  constructor
  · intro hall m h0 hlong hsent
    by_contra h
    obtain ⟨after, hafter, hspoiled⟩ := exists_spoiled h0 hlong h
    apply hspoiled
    rw [← hall (m :: after) ?_ [(m :: after).flatMap Message.build] (by simp), parseDataAll_nil, List.flatten_singleton]
    refine List.forall_mem_cons.mpr ⟨⟨h0, fun _ => hsent⟩, fun a ha => ⟨(hafter a ha).1, fun hl => ?_⟩⟩
    exact absurd hl (Nat.not_lt.mpr (hafter a ha).2)
  · intro h ms hms pieces hp
    rw [parseDataAll_nil, hp, drain_withinLimit (fun m hm => (hms m hm).1)
      fun m hm hlong => h m (hms m hm).1 hlong ((hms m hm).2 hlong)]

/-- A text of 1023 bytes is rejected one byte before its end, and the short text
after it is never found. -/
theorem overlong_text_loses_next :
    let long := Message.textMessageToServer (List.replicate 1023 97)
    (∀ m ∈ [long, probe], m.SeparatorFree) ∧ withinLimit [long, probe] = [probe] ∧
      (parseData [] ([long, probe].flatMap Message.build)).1 = [] := by
  intro long
  have h0 : separator ∉ List.replicate 1023 (97 : Byte) := fun h => absurd (List.eq_of_mem_replicate h) (by decide)
  have hlen : long.build.length = 1026 := by
    rw [Message.length_build_textMessageToServer, List.length_replicate]
  have hf : ¬ long.Fits := by
    rw [Message.Fits, hlen]
    decide
  refine ⟨?_, ?_, ?_⟩
  · rintro m hm
    rcases List.mem_pair.mp hm with rfl | rfl
    · exact Message.separatorFree_textMessageToServer.mpr h0
    · exact probe_ok.1
  · rw [withinLimit, List.filter_cons_of_neg (by rw [hlen]; decide)]
    decide
  · rw [parseData_eq_drain, List.nil_append, List.flatMap_cons, List.flatMap_singleton, drain_server_overflow h0 hf,
      List.drop_replicate]
    decide

end EpollChat.Chat
