import EpollChat.Chat.Parser

/-! What each parsing function does: forwards, on the bytes that the `Build*`
functions write and on bytes that run over the limit; backwards, what the bytes
were when it succeeds. -/

namespace EpollChat.Chat

open Cpp Framing

/-! ### `GetNextByte` and `ParseHeader` -/

theorem getNextByte_cons {count : ℕ} (h : count ≤ maxMessageLength) (byte : Byte) (rest : Bytes) :
    getNextByte ⟨byte :: rest, count⟩ = .ok byte ⟨rest, count + 1⟩ := by
  rw [getNextByte_eq, next_cons h]

theorem getNextByte_overflow {count : ℕ} (h : maxMessageLength < count) (unread : Bytes) :
    getNextByte ⟨unread, count⟩ = .error .malformed ⟨unread, count⟩ := by
  rw [getNextByte_eq, next_overflow h]

theorem getNextByte_ok {s t : Cursor Byte} {byte : Byte} (h : getNextByte s = .ok byte t) :
    s.unread = byte :: t.unread ∧ t.count = s.count + 1 := by
  rw [getNextByte_eq] at h
  rcases next_cases maxMessageLength s with ⟨-, he⟩ | ⟨-, -, he⟩ | ⟨-, b, rest, hu, he⟩
  · rw [he] at h; cases h
  · rw [he] at h; cases h
  · rw [he] at h
    cases h
    exact ⟨hu, rfl⟩

theorem parseHeader_two (header byte : Byte) (rest : Bytes) :
    parseHeader ⟨header :: byte :: rest, 0⟩ =
      if byte = separator then .ok header ⟨rest, 2⟩ else .error .malformed ⟨rest, 2⟩ := by
  rw [parseHeader, bind_of_ok (getNextByte_cons (by decide) header (byte :: rest)),
    bind_of_ok (getNextByte_cons (by decide) byte rest)]
  by_cases h : byte = separator
  · simp only [ne_eq, h, not_true_eq_false, if_false, if_true]
    rfl
  · simp only [ne_eq, h, not_false_eq_true, if_false, if_true]
    rfl

theorem parseHeader_one (byte : Byte) : parseHeader ⟨[byte], 0⟩ = .error .incomplete ⟨[], 1⟩ := by
  rw [parseHeader, bind_of_ok (getNextByte_cons (by decide) byte []), getNextByte_eq,
    bind_of_error (next_nil (by decide))]

theorem parseHeader_ok {buf : Bytes} {t : Cursor Byte} {header : Byte} (h : parseHeader ⟨buf, 0⟩ = .ok header t) :
    buf = header :: separator :: t.unread ∧ t.count = 2 := by
  match buf with
  | [] => rw [parseHeader, getNextByte_eq, bind_of_error (next_nil (by decide))] at h; cases h
  | [byte] => rw [parseHeader_one] at h; cases h
  | a :: b :: rest =>
    rw [parseHeader_two] at h
    split at h
    · next hb => cases h; exact ⟨by rw [hb], rfl⟩
    · cases h

/-! ### `ParseText` -/

theorem parseTextLoop_text (fuel count : ℕ) {text : Bytes} (h0 : separator ∉ text) (hfuel : text.length < fuel)
    (hcount : count + text.length ≤ maxMessageLength) (result rest : Bytes) :
    parseTextLoop fuel result ⟨text ++ separator :: rest, count⟩ =
      .ok (result ++ text) ⟨rest, count + text.length + 1⟩ := by
  induction text generalizing fuel count result with
  | nil =>
    obtain ⟨fuel, rfl⟩ : ∃ n, fuel = n + 1 := ⟨fuel - 1, by simp at hfuel; omega⟩
    rw [parseTextLoop, List.nil_append, bind_of_ok (getNextByte_cons (by simpa using hcount) _ _)]
    simp only [ne_eq, not_true_eq_false, if_false, List.append_nil, List.length_nil, Nat.add_zero]
    rfl
  | cons b text ih =>
    rw [List.mem_cons, not_or] at h0
    rw [List.length_cons] at hfuel hcount
    obtain ⟨fuel, rfl⟩ : ∃ n, fuel = n + 1 := ⟨fuel - 1, by omega⟩
    rw [parseTextLoop, List.cons_append, bind_of_ok (getNextByte_cons (by omega) _ _)]
    simp only [ne_eq, Ne.symm h0.1, not_false_eq_true, if_true]
    rw [ih fuel (count + 1) h0.2 (by omega) (by omega), List.append_assoc, List.singleton_append, List.length_cons]
    congr 2
    omega

theorem parseTextLoop_overflow (fuel count : ℕ) {text : Bytes} (h0 : separator ∉ text) (hfuel : text.length < fuel)
    (hcount : count + text.length = maxMessageLength + 1) (result rest : Bytes) :
    parseTextLoop fuel result ⟨text ++ rest, count⟩ = .error .malformed ⟨rest, maxMessageLength + 1⟩ := by
  induction text generalizing fuel count result with
  | nil =>
    obtain ⟨fuel, rfl⟩ : ∃ n, fuel = n + 1 := ⟨fuel - 1, by simp at hfuel; omega⟩
    rw [List.length_nil, Nat.add_zero] at hcount
    rw [parseTextLoop, List.nil_append, hcount, bind_of_error (getNextByte_overflow (Nat.lt_succ_self _) _)]
  | cons b text ih =>
    rw [List.mem_cons, not_or] at h0
    rw [List.length_cons] at hfuel hcount
    obtain ⟨fuel, rfl⟩ : ∃ n, fuel = n + 1 := ⟨fuel - 1, by omega⟩
    rw [parseTextLoop, List.cons_append, bind_of_ok (getNextByte_cons (by omega) _ _)]
    simp only [ne_eq, Ne.symm h0.1, not_false_eq_true, if_true]
    exact ih fuel (count + 1) h0.2 (by omega) (by omega) _

theorem parseTextLoop_ok {fuel : ℕ} {result text : Bytes} {s t : Cursor Byte}
    (h : parseTextLoop fuel result s = .ok text t) :
    ∃ read, text = result ++ read ∧ separator ∉ read ∧ s.unread = read ++ separator :: t.unread ∧
      t.count = s.count + read.length + 1 := by
  induction fuel generalizing result s with
  | zero => cases h
  | succ fuel ih =>
    rw [parseTextLoop] at h
    cases hr : getNextByte s with
    | error e u => rw [bind_of_error hr] at h; cases h
    | ok byte u =>
      obtain ⟨hu, hc⟩ := getNextByte_ok hr
      rw [bind_of_ok hr] at h
      split at h
      · next hb =>
        obtain ⟨read, htext, h0, hread, hcount⟩ := ih h
        refine ⟨byte :: read, by rw [htext, List.append_assoc, List.singleton_append], ?_, ?_, ?_⟩
        · rw [List.mem_cons, not_or]; exact ⟨Ne.symm hb, h0⟩
        · rw [hu, hread, List.cons_append]
        · rw [hcount, hc, List.length_cons]; omega
      · next hb =>
        cases h
        exact ⟨[], by rw [List.append_nil], List.not_mem_nil, by rw [hu, not_not.mp hb, List.nil_append], hc⟩

theorem parseTextLoop_incomplete (fuel count : ℕ) {unread : Bytes} (h0 : separator ∉ unread)
    (hfuel : unread.length < fuel) (hcount : count + unread.length ≤ maxMessageLength) (result : Bytes) :
    parseTextLoop fuel result ⟨unread, count⟩ = .error .incomplete ⟨[], count + unread.length⟩ := by
  induction unread generalizing fuel count result with
  | nil =>
    obtain ⟨fuel, rfl⟩ : ∃ n, fuel = n + 1 := ⟨fuel - 1, by simp at hfuel; omega⟩
    have hnext : next maxMessageLength ⟨[], count⟩ = .error .incomplete (⟨[], count⟩ : Cursor Byte) := next_nil hcount
    rw [parseTextLoop, getNextByte_eq, bind_of_error hnext]
    rfl
  | cons b unread ih =>
    rw [List.mem_cons, not_or] at h0
    rw [List.length_cons] at hfuel hcount
    obtain ⟨fuel, rfl⟩ : ∃ n, fuel = n + 1 := ⟨fuel - 1, by omega⟩
    rw [parseTextLoop, bind_of_ok (getNextByte_cons (by omega) _ _)]
    simp only [ne_eq, Ne.symm h0.1, not_false_eq_true, if_true]
    rw [ih fuel (count + 1) h0.2 (by omega) (by omega), List.length_cons]
    congr 2
    omega

/-- A text followed by a separator is read, if the limit lets it. -/
theorem parseText_text {text : Bytes} (h0 : separator ∉ text) (count : ℕ)
    (hcount : count + text.length ≤ maxMessageLength) (rest : Bytes) :
    parseText ⟨text ++ separator :: rest, count⟩ = .ok text ⟨rest, count + text.length + 1⟩ := by
  have h := parseTextLoop_text (maxMessageLength + 2) count h0 (by omega) hcount [] rest
  rwa [List.nil_append] at h

/-- Without a separator up to the limit the text is malformed, and the scan stops
`maxMessageLength + 1` bytes into the message. -/
theorem parseText_overflow (unread : Bytes) (count : ℕ) (hcount : count ≤ maxMessageLength + 1)
    (hlen : maxMessageLength + 1 - count ≤ unread.length)
    (h0 : separator ∉ unread.take (maxMessageLength + 1 - count)) :
    parseText ⟨unread, count⟩ =
      .error .malformed ⟨unread.drop (maxMessageLength + 1 - count), maxMessageLength + 1⟩ := by
  have hl : (unread.take (maxMessageLength + 1 - count)).length = maxMessageLength + 1 - count :=
    List.length_take_of_le hlen
  have h := parseTextLoop_overflow (maxMessageLength + 2) count h0 (by omega) (by omega) []
    (unread.drop (maxMessageLength + 1 - count))
  rwa [List.take_append_drop] at h

theorem parseText_incomplete {unread : Bytes} (h0 : separator ∉ unread) (count : ℕ)
    (hcount : count + unread.length ≤ maxMessageLength) :
    parseText ⟨unread, count⟩ = .error .incomplete ⟨[], count + unread.length⟩ :=
  parseTextLoop_incomplete (maxMessageLength + 2) count h0 (by omega) hcount []

/-- The three outcomes of `ParseText`. -/
theorem parseText_cases (unread : Bytes) {count : ℕ} (hcount : count ≤ maxMessageLength + 1) :
    (∃ text rest, separator ∉ text ∧ unread = text ++ separator :: rest ∧ count + text.length ≤ maxMessageLength ∧
      parseText ⟨unread, count⟩ = .ok text ⟨rest, count + text.length + 1⟩) ∨
    (separator ∉ unread.take (maxMessageLength + 1 - count) ∧ parseText ⟨unread, count⟩ =
      .error .malformed ⟨unread.drop (maxMessageLength + 1 - count), maxMessageLength + 1⟩) ∨
    (count + unread.length ≤ maxMessageLength ∧ separator ∉ unread ∧
      parseText ⟨unread, count⟩ = .error .incomplete ⟨[], count + unread.length⟩) := by
  by_cases h0 : separator ∈ unread.take (maxMessageLength + 1 - count)
  · obtain ⟨text, more, hsplit, htext⟩ := List.eq_append_cons_of_mem h0
    have hlen := congrArg List.length hsplit
    rw [List.length_take, List.length_append, List.length_cons] at hlen
    have hunread : unread = text ++ separator :: (more ++ unread.drop (maxMessageLength + 1 - count)) := by
      rw [← List.cons_append, ← List.append_assoc, ← hsplit, List.take_append_drop]
    have hfits : count + text.length ≤ maxMessageLength := by omega
    refine .inl ⟨text, _, htext, hunread, hfits, ?_⟩
    rw [← parseText_text htext count hfits, ← hunread]
  · rcases Nat.lt_or_ge unread.length (maxMessageLength + 1 - count) with hlen | hlen
    · rw [List.take_of_length_le (Nat.le_of_lt hlen)] at h0
      exact .inr (.inr ⟨by omega, h0, parseText_incomplete h0 count (by omega)⟩)
    · exact .inr (.inl ⟨h0, parseText_overflow unread count hcount hlen h0⟩)

theorem parseText_ok {s t : Cursor Byte} {text : Bytes} (h : parseText s = .ok text t) :
    separator ∉ text ∧ s.unread = text ++ separator :: t.unread ∧ t.count = s.count + text.length + 1 := by
  obtain ⟨read, rfl, h0, hu, hc⟩ := parseTextLoop_ok h
  exact ⟨h0, hu, hc⟩

theorem parseInteger_of_parseText {s t : Cursor Byte} {text : Bytes} (h : parseText s = .ok text t) :
    parseInteger s = match stoul text with
      | some result => .ok result t
      | none => .error .malformed t := by
  rw [parseInteger, bind_of_ok h]
  cases stoul text <;> rfl

/-! ### `ParseMessage` -/

theorem parseFields_textMessageToServer :
    parseFields textMessageToServerHeader = parseText >>= fun textMessage => pure (.textMessageToServer textMessage) := rfl

theorem parseFields_textMessageToClient :
    parseFields textMessageToClientHeader = parseText >>= fun nickName =>
      parseText >>= fun textMessage => pure (.textMessageToClient nickName textMessage) := rfl

theorem parseFields_clientLeaveMessage :
    parseFields clientLeaveMessageHeader = parseText >>= fun nickName => pure (.clientLeaveMessage nickName) := rfl

theorem parseFields_serverInfoMessage :
    parseFields serverInfoMessageHeader = parseInteger >>= fun clientsCount => pure (.serverInfoMessage clientsCount) := rfl

theorem parseFields_other {header : Byte} (h : header ∉ headers) : parseFields header = throw .malformed := by
  rw [mem_headers, not_or, not_or, not_or] at h
  simp only [parseFields, h, if_false]

/-- What the first field throws is thrown, whatever the header is. -/
theorem parseFields_of_error {header : Byte} (hh : header ∈ headers) {s t : Cursor Byte} {stop : Stop}
    (hr : parseText s = .error stop t) : parseFields header s = .error stop t := by
  rcases mem_headers.mp hh with rfl | rfl | rfl | rfl
  · rw [parseFields_textMessageToServer, bind_of_error hr]
  · rw [parseFields_textMessageToClient, bind_of_error hr]
  · rw [parseFields_clientLeaveMessage, bind_of_error hr]
  · rw [parseFields_serverInfoMessage, parseInteger, bind_of_error (bind_of_error hr)]

/-- A message or an error comes of the field of every other kind. -/
theorem parseFields_of_ok {header : Byte} (hh : header ∈ headers) (hne : header ≠ textMessageToClientHeader)
    {s t : Cursor Byte} {text : Bytes} (hr : parseText s = .ok text t) :
    (∃ m, parseFields header s = .ok m t) ∨ parseFields header s = .error .malformed t := by
  rcases mem_headers.mp hh with rfl | rfl | rfl | rfl
  · exact .inl ⟨_, by rw [parseFields_textMessageToServer, bind_of_ok hr, pure_apply]⟩
  · exact absurd rfl hne
  · exact .inl ⟨_, by rw [parseFields_clientLeaveMessage, bind_of_ok hr, pure_apply]⟩
  · have hi := parseInteger_of_parseText hr
    cases hn : stoul text with
    | some n =>
      rw [hn] at hi
      exact .inl ⟨_, by rw [parseFields_serverInfoMessage, bind_of_ok hi, pure_apply]⟩
    | none =>
      rw [hn] at hi
      exact .inr (by rw [parseFields_serverInfoMessage, bind_of_error hi])

theorem parseMessage_header (header : Byte) (rest : Bytes) :
    parseMessage ⟨header :: separator :: rest, 0⟩ = parseFields header ⟨rest, 2⟩ := by
  have h := parseHeader_two header separator rest
  rw [if_pos rfl] at h
  rw [parseMessage, bind_of_ok h]

end EpollChat.Chat
