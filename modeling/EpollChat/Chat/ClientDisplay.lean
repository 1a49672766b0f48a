import EpollChat.Chat.ClientScreen
import EpollChat.Chat.ClientTalk
import EpollChat.Cli.History

/-! What stands on the screen of a client. Whatever is written last draws what the
members of the output writer hold, and these are the end of the conversation and the
latest count. -/

namespace EpollChat.Chat

open Cpp Utils Net Cli Loops StdOutputWriter

variable (strerror : Errno → String) {columns : UInt16} {s : Console}

/-! ### What is drawn last -/

/-- The last that was written is a drawing of what the members hold. -/
def Displays (columns : UInt16) (s : Console) : Prop :=
  ∃ before, s.cout = before ++ drawing (screenLines columns.toNat s.writer)

theorem displays_drawn (columns : UInt16) (s : Console) : Displays columns (drawn columns s) := ⟨_, rfl⟩

/-- Either a call draws, or it leaves the drawing alone. -/
theorem displays_perform (hcolumns : columns ≠ 0) (hs : Reports s.sizes columns) (hd : Displays columns s)
    (call : WriterCall) : ∃ t, (call.perform strerror).Results s (.ok () t) ∧ t.writer = call.apply s.writer ∧
      Reports t.sizes columns ∧ Displays columns t := by
  rcases call.draws_or_writeError with h | ⟨error, rfl⟩
  · exact ⟨_, WriterCall.results_perform h hcolumns hs, rfl, hs.drop _, displays_drawn columns _⟩
  · exact ⟨_, WriterCall.results_writeError error, rfl, hs, hd⟩

theorem displays_calls (hcolumns : columns ≠ 0) (history : List WriterCall) (hs : Reports s.sizes columns)
    (hd : Displays columns s) : ∃ t, (history.forM (WriterCall.perform strerror)).Results s (.ok () t) ∧
      t.writer = afterCalls s.writer history ∧ Displays columns t := by
  induction history generalizing s with
  | nil => exact ⟨s, ⟨0, rfl⟩, rfl, hd⟩
  | cons call history ih =>
    obtain ⟨t, ht, hwriter, hsizes, hdt⟩ := displays_perform strerror hcolumns hs hd call
    obtain ⟨u, hu, hwriter', hdu⟩ := ih hsizes hdt
    refine ⟨u, ht.bind_ok hu, ?_, hdu⟩
    rw [hwriter', hwriter]
    rfl

/-- The constructor ends with a drawing. -/
theorem displays_construct (hcolumns : columns ≠ 0) (hs : Reports s.sizes columns) :
    ∃ t, (construct strerror).Results s (.ok () t) ∧ t.writer = empty ∧ Reports t.sizes columns ∧ Displays columns t := by
  let cleared : Console := { s with writer := empty }
  have hmembers : (modifyMembers fun _ => empty).Results s (.ok () cleared) := ⟨0, rfl⟩
  have hcleared : Leaves columns (Computation.loop (clearRound strerror) 0) cleared empty := leaves_clearLoop hs
  obtain ⟨t, ht, hwriter, hsizes⟩ := hcleared
  have hreset : (StdOutputWriter.resetInputLine strerror).Results t _ :=
    WriterCall.results_perform (show WriterCall.resetInputLine.draws from rfl) hcolumns hsizes
  exact ⟨_, hmembers.bind_ok (ht.bind_ok hreset), hwriter, hsizes.drop _, displays_drawn columns _⟩

theorem displays_session (hcolumns : columns ≠ 0) (hs : Reports s.sizes columns) (history : List WriterCall) :
    ∃ t, (session strerror history).Results s (.ok () t) ∧ t.writer = afterCalls empty history ∧ Displays columns t := by
  obtain ⟨t, ht, hwriter, hsizes, hd⟩ := displays_construct strerror hcolumns hs
  obtain ⟨u, hu, hwriter', hdu⟩ := displays_calls strerror hcolumns history hsizes hd
  exact ⟨u, ht.bind_ok hu, hwriter ▸ hwriter', hdu⟩

/-! ### The conversation -/

/-- The messages and counts that the writer is given are those of the client's calls. -/
theorem filterMap_writerCalls (w : Client) : w.writerCalls.filterMap messageOf = written w.calls ∧
    w.writerCalls.filterMap clientsCountOf =
      (writtenCounts w.calls).map fun count => bytes "Clients count: ".toList ++ Cpp.toString count := by
  rw [Client.writerCalls, written, writtenCounts, List.filterMap_filterMap, List.filterMap_filterMap, List.map_filterMap]
  constructor <;>
  · congr 1
    funext call
    cases call <;> rfl

/-- In every run, on a terminal with the same width at all times: all calls on the output
writer return, what was written last is a drawing of its members, the messages among
these are the last lines of the conversation, as in all bytes that the client's socket
passed on to the connection and all texts that the reader gave to `OnMessageRead` while
the client was connected, and the clients count is the last one in these bytes. A real run
ends with undefined behaviour, where this one goes on. -/
theorem client_displays_conversation (hcolumns : columns ≠ 0) (hs : Reports s.sizes columns) (o : ClientObjects)
    (batches : List (List (EpollEvent ClientAnswers))) :
    let messages := (parseData [] (Phase.givenAll o .connecting batches.flatten)).1
    ∃ (lines : List Line) (t : Console) (before : Bytes),
      lines.filter (fun l => ¬ l.isOwn) = messages.filterMap Line.ofMessage ∧
      lines.filterMap Line.ownText = Phase.sendsAll o .connecting batches.flatten ∧
      (session strerror (Client.run o batches).writerCalls).Results s (.ok () t) ∧
      t.cout = before ++ drawing (screenLines columns.toNat t.writer) ∧
      t.writer.messages = (lines.map Line.text).reverse.take messageLimit ∧
      t.writer.clientsCountLine =
        ((countsOf messages).getLast?.map fun count => bytes "Clients count: ".toList ++ Cpp.toString count).getD [] := by
  intro messages
  obtain ⟨htold, hsent, hshows⟩ := Client.shows_run o batches
  obtain ⟨hnotices, hown⟩ := lines_split (Client.run o batches).calls
  obtain ⟨hlines, hcounts⟩ := Client.filterMap_ofMessage messages
  obtain ⟨t, hsession, hwriter, before, hcout⟩ := displays_session strerror hcolumns hs (Client.run o batches).writerCalls
  obtain ⟨hmessages, hclientsCounts⟩ := filterMap_writerCalls (Client.run o batches)
  have htexts := texts_afterCalls (Client.run o batches).writerCalls
  rw [← hwriter] at htexts
  simp only [StdOutputWriter.texts, shownTexts, List.cons_append, List.nil_append, List.cons.injEq] at htexts
  obtain ⟨-, -, -, hcount, -, hrecent⟩ := htexts
  refine ⟨lines (Client.run o batches).calls, t, before, ?_, hown.trans hsent, hsession, hcout, ?_, ?_⟩
  · rw [hnotices, htold, hlines]
  · rw [hrecent, recentMessages, hmessages, hshows.lines]
  · rw [hcount, latest, hclientsCounts, hshows.counts, htold, hcounts, List.getLast?_map]

/-- The client connects, and is told that it is one of two. -/
theorem client_displays_conversation_two :
    let columns : UInt16 := 80
    let s : Console := ⟨.empty, [], [], Stream'.const (.ok ⟨24, columns⟩)⟩
    let batches : List (List (EpollEvent ClientAnswers)) := [[⟨4, true, false, false, false, ⟨0, []⟩⟩],
      [⟨4, false, true, false, false, ⟨0, [.data (Message.serverInfoMessage 2).build, .eagain]⟩⟩]]
    ∃ t before, (session (fun _ => "") (Client.run ⟨1, 2, 3, 4, 5, by decide, by decide⟩ batches).writerCalls).Results s
        (.ok () t) ∧
      t.cout = before ++ drawing (screenLines columns.toNat t.writer) ∧
      t.writer.clientsCountLine = bytes "Clients count: 2".toList := by
  intro columns s batches
  have hcolumns : columns ≠ 0 := by decide
  have hs : Reports s.sizes columns := fun _ => ⟨_, rfl, rfl⟩
  obtain ⟨-, t, before, -, -, hsession, hcout, -, hcount⟩ := client_displays_conversation (fun _ => "") hcolumns hs
    ⟨1, 2, 3, 4, 5, by decide, by decide⟩ batches
  exact ⟨t, before, hsession, hcout, hcount.trans (by decide +kernel)⟩

end EpollChat.Chat
