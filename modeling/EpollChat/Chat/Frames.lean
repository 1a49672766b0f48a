import EpollChat.Chat.RoundTrip

/-! The frames into which the parser cuts a stream. What it keeps is never longer
than the limit, so a client cannot make the buffer grow; and a frame ends within
the limit unless its fields have not ended by then, where one byte more is read. -/

namespace EpollChat.Chat

open Cpp Framing

/-- The separators among the bytes that may be read when `count` bytes have been. -/
def separatorsWithin (count : ℕ) (unread : Bytes) : ℕ := (unread.take (maxMessageLength - count)).count separator

/-- How many separators end the fields after a header. -/
def fieldCount (header : Byte) : ℕ :=
  if header = textMessageToClientHeader then 2 else if header ∈ headers then 1 else 0

theorem separatorsWithin_append {text rest : Bytes} (h0 : separator ∉ text) {count : ℕ}
    (hcount : count + text.length < maxMessageLength) :
    separatorsWithin count (text ++ separator :: rest) = separatorsWithin (count + text.length + 1) rest + 1 := by
  rw [separatorsWithin, List.take_append, List.take_of_length_le (by omega), List.count_append,
    List.count_eq_zero.mpr h0, Nat.zero_add,
    show maxMessageLength - count - text.length = maxMessageLength - (count + text.length + 1) + 1 by omega,
    List.take_succ_cons, List.count_cons_self]
  rfl

/-- One `ParseText`, by the separators it may read. -/
theorem parseText_within (unread : Bytes) {count : ℕ} (hcount : count ≤ maxMessageLength + 1) :
    (∃ t, parseText ⟨unread, count⟩ = .error .incomplete t ∧ unread.length + count ≤ maxMessageLength) ∨
    (∃ t, parseText ⟨unread, count⟩ = .error .malformed t ∧ t.count = maxMessageLength + 1 ∧
      separatorsWithin count unread = 0) ∨
    (∃ text t, parseText ⟨unread, count⟩ = .ok text t ∧ count < t.count ∧
      t.unread.length + t.count = unread.length + count ∧
      ((t.count ≤ maxMessageLength ∧ separatorsWithin count unread = separatorsWithin t.count t.unread + 1) ∨
        (t.count = maxMessageLength + 1 ∧ separatorsWithin count unread = 0))) := by
  rcases parseText_cases unread hcount with ⟨text, rest, h0, rfl, hlen, hr⟩ | ⟨h0, hr⟩ | ⟨hlen, -, hr⟩
  · refine .inr (.inr ⟨text, _, hr, ?_, ?_, ?_⟩)
    · dsimp only
      omega
    · simp only [List.length_append, List.length_cons]
      omega
    · rcases Nat.lt_or_ge (count + text.length) maxMessageLength with hl | hl
      · exact .inl ⟨hl, separatorsWithin_append h0 hl⟩
      · refine .inr ⟨?_, ?_⟩
        · dsimp only
          omega
        · rw [separatorsWithin, List.take_append_of_le_length (by omega)]
          exact List.count_eq_zero.mpr fun h => h0 (List.mem_of_mem_take h)
  · refine .inr (.inl ⟨_, hr, rfl, List.count_eq_zero.mpr fun h => h0 ?_⟩)
    exact List.take_subset_take_left _ (by omega) h
  · exact .inl ⟨_, hr, by omega⟩

/-! ### The fields of a message -/

/-- The fields end the frame, well or not, unless they are incomplete. -/
def Ends (r : EStateM.Result Stop (Cursor Byte) Message) (t : Cursor Byte) : Prop :=
  (∃ m, r = .ok m t) ∨ r = .error .malformed t

theorem fieldCount_of_ne {header : Byte} (hh : header ∈ headers) (hne : header ≠ textMessageToClientHeader) :
    fieldCount header = 1 := by rw [fieldCount, if_neg hne, if_pos hh]

/-- The fields are read past the limit just if too few separators come before it. -/
theorem parseFields_within {header : Byte} (hh : header ∈ headers) (rest : Bytes) :
    (∃ t, parseFields header ⟨rest, 2⟩ = .error .incomplete t ∧ rest.length + 2 ≤ maxMessageLength) ∨
    ∃ t, Ends (parseFields header ⟨rest, 2⟩) t ∧
      (maxMessageLength < t.count ↔ separatorsWithin 2 rest < fieldCount header) := by
  have h2 : 2 ≤ maxMessageLength + 1 := by decide
  have hpos : 0 < fieldCount header := by
    rw [fieldCount, if_pos hh]
    split <;> decide
  rcases parseText_within rest h2 with ⟨t, hr, hlen⟩ | ⟨t, hr, hc, hs⟩ | ⟨nickName, t, hr, hlt, hlen, hs⟩
  · exact .inl ⟨t, parseFields_of_error hh hr, hlen⟩
  · refine .inr ⟨t, .inr (parseFields_of_error hh hr), iff_of_true (by omega) (by omega)⟩
  by_cases hclient : header = textMessageToClientHeader
  · subst hclient
    have htwo : fieldCount textMessageToClientHeader = 2 := rfl
    rw [parseFields_textMessageToClient, bind_of_ok hr, htwo]
    have hcount : t.count ≤ maxMessageLength + 1 := by omega
    rcases parseText_within t.unread hcount with ⟨u, hr', hlen'⟩ | ⟨u, hr', hc', hs'⟩ | ⟨text, u, hr', hlt', hlen', hs'⟩
    · exact .inl ⟨u, bind_of_error hr', by omega⟩
    · exact .inr ⟨u, .inr (bind_of_error hr'), iff_of_true (by omega) (by omega)⟩
    · refine .inr ⟨u, .inl ⟨_, by rw [bind_of_ok hr', pure_apply]⟩, ?_⟩
      omega
  · have hone := fieldCount_of_ne hh hclient
    exact .inr ⟨t, parseFields_of_ok hh hclient hr, by omega⟩

/-! ### One frame -/

/-- The bytes begin with a message whose fields have not ended when
`maxMessageLength` bytes are read, and there is another byte. -/
def Overruns : DataBuffer → Prop
  | header :: byte :: rest =>
    byte = separator ∧ maxMessageLength < rest.length + 2 ∧ separatorsWithin 2 rest < fieldCount header
  | _ => False

instance decidableOverruns : (buf : DataBuffer) → Decidable (Overruns buf)
  | _ :: _ :: _ => inferInstanceAs (Decidable (_ ∧ _))
  | [] => isFalse id
  | [_] => isFalse id

/-- More input is needed, within the limit, or a frame is cut off the front of the
buffer, and exceeds the limit just if it overruns it. -/
def Framed (buf : DataBuffer) : Prop :=
  (parser.step buf = .incomplete ∧ buf.length ≤ maxMessageLength) ∨
  ∃ bytes out rest, buf = bytes ++ rest ∧ parser.step buf = .frame out rest ∧
    (maxMessageLength < bytes.length ↔ Overruns buf)

/-- Two bytes that are no beginning of a message are cut off. -/
theorem framed_rejected {header byte : Byte} {rest : Bytes}
    (hs : parser.step (header :: byte :: rest) = .frame none rest) (h : ¬ Overruns (header :: byte :: rest)) :
    Framed (header :: byte :: rest) := by
  have hshort : ¬ maxMessageLength < [header, byte].length := by
    rw [List.length_cons, List.length_singleton]
    decide
  exact .inr ⟨[header, byte], none, rest, rfl, hs, iff_of_false hshort h⟩

theorem framed_other {header : Byte} (hh : header ∉ headers) (rest : Bytes) :
    Framed (header :: separator :: rest) := by
  refine framed_rejected ?_ ?_
  · rw [parser_step, scanStep, parseMessage_header, parseFields_other hh, throw_apply]
  · rintro ⟨-, -, hs⟩
    have hne : header ≠ textMessageToClientHeader := fun he => hh (he ▸ by decide)
    rw [fieldCount, if_neg hne, if_neg hh] at hs
    exact absurd hs (Nat.not_lt_zero _)

theorem framed_no_separator {header byte : Byte} (hb : byte ≠ separator) (rest : Bytes) :
    Framed (header :: byte :: rest) := by
  refine framed_rejected ?_ fun h => hb h.1
  have hr := parseHeader_two header byte rest
  rw [if_neg hb] at hr
  rw [parser_step, scanStep, parseMessage, bind_of_error hr]

theorem framed_header {header : Byte} (hh : header ∈ headers) (rest : Bytes) :
    Framed (header :: separator :: rest) := by
  rcases parseFields_within hh rest with ⟨t, hr, hlen⟩ | ⟨t, hends, hlimit⟩
  · refine .inl ⟨?_, hlen⟩
    rw [parser_step, scanStep, parseMessage_header, hr]
  · have hreads : Reads ⟨rest, 2⟩ t := by
      have := (lawful_parseFields header).reads ⟨rest, 2⟩
      rcases hends with ⟨m, hr⟩ | hr <;> rwa [hr] at this
    obtain ⟨read, hrest, hcount⟩ := hreads
    dsimp only at hrest hcount
    have hstep : ∃ out, parser.step (header :: separator :: rest) = .frame out t.unread := by
      rw [parser_step, scanStep, parseMessage_header]
      rcases hends with ⟨m, hr⟩ | hr
      · exact ⟨some m, by rw [hr]⟩
      · exact ⟨none, by rw [hr]⟩
    obtain ⟨out, hstep⟩ := hstep
    refine .inr ⟨header :: separator :: read, out, t.unread, by rw [hrest]; rfl, hstep, ?_⟩
    rw [Overruns, ← hlimit, hrest]
    simp only [List.length_append, List.length_cons, true_and]
    omega

theorem framed (buf : DataBuffer) : Framed buf := by
  match buf with
  | [] => exact .inl ⟨parser.step_nil, Nat.zero_le _⟩
  | [byte] =>
    refine .inl ⟨?_, by rw [List.length_singleton]; decide⟩
    rw [parser_step, scanStep, parseMessage, bind_of_error (parseHeader_one byte)]
  | header :: byte :: rest =>
    by_cases hb : byte = separator
    · subst hb
      by_cases hh : header ∈ headers
      · exact framed_header hh rest
      · exact framed_other hh rest
    · exact framed_no_separator hb rest

theorem length_le_of_incomplete {buf : DataBuffer} (h : parser.step buf = .incomplete) :
    buf.length ≤ maxMessageLength := by
  rcases framed buf with ⟨-, hlen⟩ | ⟨bytes, out, rest, -, hs, -⟩
  · exact hlen
  · rw [h] at hs
    cases hs

theorem length_of_frame {bytes rest : Bytes} {out : Option Message} (h : parser.step (bytes ++ rest) = .frame out rest) :
    maxMessageLength < bytes.length ↔ Overruns (bytes ++ rest) := by
  rcases framed (bytes ++ rest) with ⟨hs, -⟩ | ⟨bytes', out', rest', heq, hs, hlen⟩
  · rw [h] at hs
    cases hs
  · rw [h] at hs
    cases hs
    rw [← hlen, List.append_cancel_right heq]

/-- The message found in a frame is not longer than the frame, or it is a number. -/
theorem length_build_of_frame {bytes rest : Bytes} {m : Message}
    (h : parser.step (bytes ++ rest) = .frame (some m) rest) :
    m.build.length ≤ bytes.length ∨ m.build.length ≤ maxMessageLength := by
  rw [parser_step, scanStep] at h
  split at h
  · next hr =>
    cases h
    rcases parseMessage_ok_bytes hr with ⟨-, heq⟩ | ⟨field, n, rfl, -⟩
    · exact .inl (List.append_cancel_right heq ▸ Nat.le_refl _)
    · have := length_toString_le n
      refine .inr ?_
      rw [Message.length_build_serverInfoMessage, maxMessageLength]
      omega
  · cases h
  · cases h

/-! ### Whole streams -/

theorem parseTextLoop_eq_parseText {fuel : ℕ} (h : maxMessageLength + 2 ≤ fuel) (s : Cursor Byte) :
    parseTextLoop fuel [] s = parseText s := by
  induction fuel, h using Nat.le_induction with
  | base => rfl
  | succ fuel h ih =>
    rw [← ih]
    exact (parseTextLoop_fuel fuel [] s (by omega) (by omega)).symm

theorem parseMessage_incomplete {buf : DataBuffer} (h : parser.step buf = .incomplete) :
    ∃ s, parseMessage ⟨buf, 0⟩ = .error .incomplete s := by
  rw [parser_step, scanStep] at h
  split at h
  · cases h
  · cases h
  · next s hr => exact ⟨s, hr⟩

/-- Every call of `ParseData`, on whatever was received before: both loops end by
themselves; the buffer is cut into frames that are not empty, each delivered by
one callback or rejected, and what is kept, the end of the stream; and this is
within the limit and the beginning of a message. -/
theorem parseData_frames (earlier : List DataBuffer) (data : DataBuffer) :
    let held := (parseDataAll [] earlier).2
    let parsed := parseData held data
    (∀ fuel, (held ++ data).length ≤ fuel → parseDataLoop fuel (held ++ data) = parsed) ∧
    (∀ fuel, maxMessageLength + 2 ≤ fuel → ∀ s, parseTextLoop fuel [] s = parseText s) ∧
    (∃ frames, parser.Cut (held ++ data) frames parsed.2 ∧ parsed.1 = frames.filterMap Prod.snd ∧
      held ++ data = (frames.map Prod.fst).flatten ++ parsed.2 ∧ ∀ frame ∈ frames, frame.1 ≠ []) ∧
    (∃ consumed, earlier.flatten ++ data = consumed ++ parsed.2) ∧
    parsed.2.length ≤ maxMessageLength ∧ ∃ s, parseMessage ⟨parsed.2, 0⟩ = .error .incomplete s := by
  intro held parsed
  have hparsed : parsed = parser.drain (held ++ data) := parseData_eq_drain held data
  have hkept : parser.step parsed.2 = .incomplete := by
    rw [hparsed]
    exact parser.step_drain _
  refine ⟨fun fuel hfuel => ?_, fun fuel => parseTextLoop_eq_parseText, ?_, ?_, length_le_of_incomplete hkept,
    parseMessage_incomplete hkept⟩
  · rw [parseDataLoop_eq_drainLoop, hparsed, parser.drainLoop_eq_drain hfuel]
  · obtain ⟨frames, hcut, hfound⟩ := parser.exists_cut (held ++ data)
    rw [← hparsed] at hcut hfound
    refine ⟨frames, hcut, hfound, hcut.flatten_eq, fun frame hf => ?_⟩
    obtain ⟨before, after, hsplit⟩ := List.append_of_mem hf
    exact (hcut.step_frame hsplit).1
  · have hheld : held = (parser.drain earlier.flatten).2 := congrArg Prod.snd (parseDataAll_nil earlier)
    have hstream : parsed.2 = (parser.drain (earlier.flatten ++ data)).2 := by
      rw [hparsed, hheld, parser.drain_append earlier.flatten data]
    obtain ⟨frames, hcut, -⟩ := parser.exists_cut (earlier.flatten ++ data)
    exact ⟨(frames.map Prod.fst).flatten, by rw [hstream]; exact hcut.flatten_eq⟩

/-- Over a whole stream, in any pieces: no frame, and no message delivered, is longer
than the limit, if and only if no frame starts where fields overrun it. -/
theorem frames_within_limit_iff (pieces : List DataBuffer) :
    let parsed := parseDataAll [] pieces
    ∃ frames, parser.Cut pieces.flatten frames parsed.2 ∧ parsed.1 = frames.filterMap Prod.snd ∧
      ((∀ frame ∈ frames, frame.1.length ≤ maxMessageLength ∧
          ∀ m, frame.2 = some m → m.build.length ≤ maxMessageLength) ↔
        ∀ before frame after, frames = before ++ frame :: after →
          ¬ Overruns (frame.1 ++ ((after.map Prod.fst).flatten ++ parsed.2))) := by
  intro parsed
  have hparsed : parsed = parser.drain pieces.flatten := parseDataAll_nil pieces
  obtain ⟨frames, hcut, hfound⟩ := parser.exists_cut pieces.flatten
  rw [← hparsed] at hcut hfound
  refine ⟨frames, hcut, hfound, fun h before frame after hf => ?_, fun h frame hf => ?_⟩
  · obtain ⟨-, hstep⟩ := hcut.step_frame hf
    rw [← length_of_frame hstep, Nat.not_lt]
    exact (h frame (by rw [hf]; simp)).1
  · obtain ⟨before, after, hsplit⟩ := List.append_of_mem hf
    obtain ⟨bytes, out⟩ := frame
    obtain ⟨-, hstep⟩ := hcut.step_frame hsplit
    have hlen : bytes.length ≤ maxMessageLength := by
      rw [← Nat.not_lt, length_of_frame hstep]
      exact h before (bytes, out) after hsplit
    refine ⟨hlen, ?_⟩
    rintro m rfl
    rcases length_build_of_frame hstep with hm | hm
    · exact hm.trans hlen
    · exact hm

/-- A text of 1022 bytes is built into one byte more than the limit, and delivered. -/
theorem message_over_limit_is_delivered :
    let m := Message.textMessageToServer (List.replicate 1022 97)
    maxMessageLength < m.build.length ∧ parseData [] m.build = ([m], []) := by
  intro m
  have hlen : m.build.length = 1025 := by rw [Message.length_build_textMessageToServer, List.length_replicate]
  have h0 : m.SeparatorFree := Message.separatorFree_textMessageToServer.mpr fun h =>
    absurd (List.eq_of_mem_replicate h) (by decide)
  refine ⟨by rw [hlen]; decide, ?_⟩
  rw [parseData_eq_drain, List.nil_append]
  exact drain_build h0 (by rw [Message.Fits, hlen]; decide)

end EpollChat.Chat
