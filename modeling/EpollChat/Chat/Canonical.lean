import EpollChat.Chat.RoundTrip

/-! Which bytes the parser accepts for a message. They are those that the message is
built into, but for the count of clients: `std::stoul` also takes blanks, a sign
and leading zeros before the digits, and anything after them. -/

namespace EpollChat.Chat

open Cpp Framing

/-- The bytes up to the separator that follows a header and its separator. -/
def firstField (buf : DataBuffer) : Bytes := (buf.drop 2).takeWhile fun b => b ≠ separator

theorem firstField_eq {header : Byte} {field rest : Bytes} (h0 : separator ∉ field) :
    firstField (header :: separator :: (field ++ separator :: rest)) = field := by
  have hfield : ∀ b ∈ field, decide (b ≠ separator) = true := fun b hb =>
    decide_eq_true fun he => h0 (he ▸ hb)
  rw [firstField, List.drop_succ_cons, List.drop_succ_cons, List.drop_zero, List.takeWhile_append_of_pos hfield,
    List.takeWhile_cons_of_neg (by simp), List.append_nil]

/-- The bytes consumed for a message are the message as it is built, if and only if
the text of a count is a plain decimal. -/
theorem parseMessage_consumes_build_iff {buf : DataBuffer} {m : Message} {t : Cursor Byte}
    (h : parseMessage ⟨buf, 0⟩ = .ok m t) :
    ∃ consumed, buf = consumed ++ t.unread ∧ consumed.length = t.count ∧
      (consumed = m.build ↔ (buf.head? = some serverInfoMessageHeader → PlainDecimal (firstField buf))) := by
  obtain ⟨consumed, hbuf, hcount⟩ : Reads ⟨buf, 0⟩ t := by
    have hreads := lawful_parseMessage.reads ⟨buf, 0⟩
    rwa [h] at hreads
  dsimp only at hbuf hcount
  refine ⟨consumed, hbuf, by omega, ?_⟩
  rcases parseMessage_ok_bytes h with ⟨hheader, hm⟩ | ⟨field, n, rfl, h0, hn, hm⟩
  · have hconsumed : consumed = m.build := List.append_cancel_right (hbuf.symm.trans hm)
    refine iff_of_true hconsumed fun hhead => absurd ?_ hheader
    rw [hm, Message.build_eq] at hhead
    exact Option.some.inj hhead
  · have hconsumed : consumed = serverInfoMessageHeader :: separator :: (field ++ [separator]) := by
      apply List.append_cancel_right (hbuf.symm.trans hm |>.trans ?_)
      simp
    have hbuild : consumed = (Message.serverInfoMessage n).build ↔ field = Cpp.toString n := by
      rw [hconsumed, Message.build_eq, Message.body_serverInfoMessage, Message.header]
      simp
    rw [hbuild, eq_toString_iff hn, hm, firstField_eq h0]
    exact ⟨fun hp _ => hp, fun hp => hp rfl⟩

theorem parseMessage_consumes_build_iff_seven :
    ∃ consumed, [serverInfoMessageHeader, separator, 55, separator, 120] = consumed ++ [120] ∧ consumed.length = 4 ∧
      (consumed = (Message.serverInfoMessage 7).build ↔
        ([serverInfoMessageHeader, separator, 55, separator, 120].head? = some serverInfoMessageHeader →
          PlainDecimal (firstField [serverInfoMessageHeader, separator, 55, separator, 120]))) := by
  have h : parseMessage ⟨[serverInfoMessageHeader, separator, 55, separator, 120], 0⟩ =
      .ok (.serverInfoMessage 7) ⟨[120], 4⟩ := rfl
  exact parseMessage_consumes_build_iff h

/-- The text `-1` is a count of 18446744073709551615 clients. -/
theorem negative_count_is_accepted :
    let buf := [serverInfoMessageHeader, separator] ++ bytes ['-', '1'] ++ [separator]
    parseData [] buf = ([.serverInfoMessage 18446744073709551615], []) ∧
      buf ≠ (Message.serverInfoMessage 18446744073709551615).build := by
  decide +kernel

end EpollChat.Chat
