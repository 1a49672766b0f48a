import EpollChat.Chat.ClientRun
import EpollChat.Cli.Ending

/-! The calls that a client makes on its output writer. They end as long as the reported
width is not zero; where it is, the loop that splits a text does not, and with it the
callback that has drawn the screen. -/

namespace EpollChat.Chat

open Cpp Utils Net Cli Loops

variable {strerror : Errno → String} {columns : UInt16} {s : Console}

/-- The call on the output writer. -/
def ClientCall.writerCall : ClientCall → Option WriterCall
  | resetInputLine => some .resetInputLine
  | writeMessage message => some (.writeMessage message)
  | writeError error => some (.writeError error)
  | updateClientsCount clientsCount => some (.updateClientsCount clientsCount)
  | updateConnectionState state => some (.updateConnectionState state)
  | updateClientInfo info => some (.updateClientInfo info)
  | _ => none

def Client.writerCalls (w : Client) : List WriterCall := w.calls.filterMap ClientCall.writerCall

/-- The constructor of the client makes the first call. -/
theorem Client.writerCalls_run (o : ClientObjects) (batches : List (List (EpollEvent ClientAnswers))) :
    ∃ info calls, (Client.run o batches).writerCalls = .updateClientInfo info :: calls := by
  obtain ⟨q, -, new, hcalls, -⟩ := Client.moves_run_start o batches
  rw [writerCalls, hcalls, List.filterMap_append]
  exact ⟨_, _, rfl⟩

/-- For every text, width and state of the writer: the loop of `PrintText` ends if and
only if there is a column or nothing to split. A call on the writer ends if and only
if that holds of each text that it comes to print, and so do all calls of a client, in
every run. With the same width at all times they end if and only if it is not zero. -/
theorem screen_ends_iff (strerror : Errno → String) :
    (∀ (width : UInt16) (text : Bytes) (partsToPrint : List Bytes) (s : Console),
      (Computation.loop (StdOutputWriter.splitRound width.toNat) (text, partsToPrint)).Ends s ↔ (width = 0 → text = [])) ∧
    (∀ (call : WriterCall) (s : Console),
      (call.perform strerror).Ends s ↔ Drawable (call.prints s.writer) s.sizes) ∧
    ∀ (o : ClientObjects) (batches : List (List (EpollEvent ClientAnswers))) (s : Console),
      let calls := (Client.run o batches).writerCalls
      ((calls.forM (WriterCall.perform strerror)).Ends s ↔ Drawable (printsAll s.writer calls) s.sizes) ∧
        ∀ columns, Reports s.sizes columns → ((calls.forM (WriterCall.perform strerror)).Ends s ↔ columns ≠ 0) := by
  refine ⟨fun width text parts s => ?_, fun call s => ends_perform_iff call,
    fun o batches s => ⟨ends_calls_iff _, fun columns hs => ?_⟩⟩
  · rw [StdOutputWriter.ends_splitLoop_iff, ← UInt16.toNat_inj]
    rfl
  · rw [ends_calls_iff, drawable_iff hs]
    refine imp_congr_right fun _ => iff_of_false (fun hempty => ?_) not_false
    -- the first text of the first drawing is a blank
    obtain ⟨info, calls, hcalls⟩ := Client.writerCalls_run o batches
    have hblank := hempty StdOutputWriter.blankText (by
      rw [hcalls, printsAll]
      exact List.mem_append_left _ (List.mem_cons_self ..))
    exact absurd hblank (by decide)

/-- With a reported width of zero the loop does not end on a message, nor does the call
that is to show it. -/
theorem no_column_hangs :
    let sizes : Stream' (SysResult Winsize) := Stream'.const (.ok ⟨24, 0⟩)
    let s : Console := ⟨.empty, [], [], sizes⟩
    let hi : Bytes := bytes ['h', 'i']
    ¬ (Computation.loop (StdOutputWriter.splitRound (0 : UInt16).toNat) (hi, [])).Ends s ∧
      ¬ ((WriterCall.writeMessage hi).perform fun _ => "").Ends s := by
  intro sizes s hi
  have hs : Reports s.sizes 0 := fun _ => ⟨_, rfl, rfl⟩
  rw [StdOutputWriter.ends_splitLoop_iff, ends_perform_iff, drawable_iff hs]
  decide

end EpollChat.Chat
