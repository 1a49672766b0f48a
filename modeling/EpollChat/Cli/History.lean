import EpollChat.Cli.Drawing

/-! The calls made on a writer, from its construction on. Whatever the calls were, each
draws the latest information and the most recent messages, without loss. -/

namespace EpollChat.Cli

open Cpp Utils Loops Terminal StdOutputWriter

variable {strerror : Errno → String} {columns : UInt16} {s : Console}

namespace WriterCall

/-- What the call does to the members. -/
def apply : WriterCall → StdOutputWriter → StdOutputWriter
  | writeMessage message, w => w.pushMessage message
  | updateClientsCount clientsCount, w =>
    { w with clientsCountLine := bytes "Clients count: ".toList ++ Cpp.toString clientsCount }
  | updateConnectionState state, w => { w with connectionStateLine := bytes "Connection state: ".toList ++ state }
  | updateClientInfo info, w => { w with infoLine := info }
  | writeError _, w => w
  | resetInputLine, w => w

/-- What it writes before the screen is drawn. -/
def opening : WriterCall → Bytes
  | resetInputLine => cursorUp ++ removeLine
  | _ => []

/-- All calls but `WriteError` draw the screen. -/
def draws : WriterCall → Bool
  | writeError _ => false
  | _ => true

theorem draws_or_writeError (call : WriterCall) : call.draws ∨ ∃ error, call = writeError error := by
  cases call with
  | writeError error => exact .inr ⟨error, rfl⟩
  | _ => exact .inl rfl

/-- The state in which the screen is drawn. -/
def prepare (call : WriterCall) (s : Console) : Console := { s with writer := call.apply s.writer }.print call.opening

theorem perform_eq {call : WriterCall} (h : call.draws) (strerror : Errno → String) :
    ∃ first : WriterM Unit, call.perform strerror = (do first; updateScreen strerror) ∧
      ∀ s, first.Results s (.ok () (call.prepare s)) := by
  cases call with
  | writeError error => cases h
  | resetInputLine =>
    refine ⟨do write cursorUp; write removeLine, ?_, fun s => ?_⟩
    · simp only [perform, StdOutputWriter.resetInputLine, bind_assoc]
    · rw [prepare, opening, ← Console.print_print]
      exact (results_write cursorUp).bind_ok (results_write removeLine)
  | _ => exact ⟨_, rfl, fun s => ⟨0, by rw [prepare, opening, Console.print_nil] <;> first | rfl | nofun⟩⟩

theorem results_perform {call : WriterCall} (h : call.draws) (hcolumns : columns ≠ 0) (hs : Reports s.sizes columns) :
    (call.perform strerror).Results s (.ok () (drawn columns (call.prepare s))) := by
  obtain ⟨first, heq, hfirst⟩ := perform_eq h strerror
  rw [heq]
  exact (hfirst s).bind_ok (results_updateScreen hcolumns hs)

theorem results_writeError (error : Bytes) :
    ((writeError error).perform strerror).Results s (.ok () { s with cerr := s.cerr ++ (endl ++ (error ++ endl)) }) :=
  ⟨0, by rw [← List.append_assoc]; rfl⟩

end WriterCall

/-! ### A session -/

/-- The writer is constructed, and the calls are made. -/
def session (strerror : Errno → String) (history : List WriterCall) : WriterM Unit := do
  construct strerror
  history.forM (WriterCall.perform strerror)

/-- The computation returns with these members, the width being as before. -/
def Leaves (columns : UInt16) (c : WriterM Unit) (s : Console) (w : StdOutputWriter) : Prop :=
  ∃ t, c.Results s (.ok () t) ∧ t.writer = w ∧ Reports t.sizes columns

theorem Leaves.bind {c : WriterM Unit} {f : Unit → WriterM Unit} {w v : StdOutputWriter} (h : Leaves columns c s w)
    (hf : ∀ t, t.writer = w → Reports t.sizes columns → Leaves columns (f ()) t v) :
    Leaves columns (c >>= f) s v := by
  obtain ⟨t, hc, hwriter, ht⟩ := h
  obtain ⟨u, hrest, hv, hu⟩ := hf t hwriter ht
  exact ⟨u, hc.bind_ok hrest, hv, hu⟩

theorem leaves_perform (hcolumns : columns ≠ 0) (hs : Reports s.sizes columns) (call : WriterCall) :
    Leaves columns (call.perform strerror) s (call.apply s.writer) := by
  rcases call.draws_or_writeError with h | ⟨error, rfl⟩
  · exact ⟨_, WriterCall.results_perform h hcolumns hs, rfl, hs.drop _⟩
  · exact ⟨_, WriterCall.results_writeError error, rfl, hs⟩

theorem results_clearRound_next {size : Winsize} (hsize : s.sizes.head = .ok size) {i : ℕ} (hi : i < size.wsRow.toNat) :
    (clearRound strerror i).Results s (.ok (.inl (i + 1)) ((s.skip 1).print endl)) := by
  refine (results_getScreenHeight hsize).bind_ok ?_
  rw [if_pos hi]
  exact (results_write endl).bind_ok ⟨0, rfl⟩

theorem results_clearRound_done {size : Winsize} (hsize : s.sizes.head = .ok size) {i : ℕ} (hi : ¬ i < size.wsRow.toNat) :
    (clearRound strerror i).Results s (.ok (.inr ()) (s.skip 1)) := by
  refine (results_getScreenHeight hsize).bind_ok ?_
  rw [if_neg hi]
  exact ⟨0, rfl⟩

/-- No height is more than the largest `unsigned short`, so the loop ends. -/
theorem leaves_clearLoop (hs : Reports s.sizes columns) :
    Leaves columns (Computation.loop (clearRound strerror) 0) s s.writer := by
  let inv (t : Console) : Prop := t.writer = s.writer ∧ Reports t.sizes columns
  have hround (i : ℕ) (t : Console) (ht : inv t) :
      (∃ a u, (clearRound strerror i).Results t (.ok (.inr a) u) ∧ inv u) ∨
        ∃ j u, (clearRound strerror i).Results t (.ok (.inl j) u) ∧ inv u ∧ UInt16.size - j < UInt16.size - i := by
    obtain ⟨size, hsize, -⟩ := ht.2.head
    by_cases hi : i < size.wsRow.toNat
    · have hlt := size.wsRow.toNat_lt_size
      exact .inr ⟨_, _, results_clearRound_next hsize hi, ⟨ht.1, ht.2.drop 1⟩, by omega⟩
    · exact .inl ⟨_, _, results_clearRound_done hsize hi, ht.1, ht.2.drop 1⟩
  obtain ⟨⟨⟩, t, hloop, ht⟩ := Computation.results_loop (clearRound strerror) (fun _ => inv)
    (fun i _ => UInt16.size - i) (fun _ => inv) hround (⟨rfl, hs⟩ : inv s)
  exact ⟨t, hloop, ht⟩

theorem leaves_construct (hcolumns : columns ≠ 0) (hs : Reports s.sizes columns) :
    Leaves columns (construct strerror) s empty := by
  have hmembers : Leaves columns (modifyMembers fun _ => empty) s empty := ⟨_, ⟨0, rfl⟩, rfl, hs⟩
  refine hmembers.bind fun t ht hsizes => Leaves.bind (leaves_clearLoop hsizes) fun u hu hsizes' => ?_
  have hreset : Leaves columns (WriterCall.resetInputLine.perform strerror) u u.writer :=
    leaves_perform hcolumns hsizes' .resetInputLine
  rwa [hu, ht] at hreset

/-- The members after some calls. -/
def afterCalls (w : StdOutputWriter) (history : List WriterCall) : StdOutputWriter :=
  history.foldl (fun w call => call.apply w) w

theorem leaves_calls (hcolumns : columns ≠ 0) (history : List WriterCall) (hs : Reports s.sizes columns) :
    Leaves columns (history.forM (WriterCall.perform strerror)) s (afterCalls s.writer history) := by
  induction history generalizing s with
  | nil => exact ⟨s, ⟨0, rfl⟩, rfl, hs⟩
  | cons call history ih =>
    refine (leaves_perform hcolumns hs call).bind fun t ht hsizes => ?_
    have hrest := ih hsizes
    rwa [ht] at hrest

theorem leaves_session (hcolumns : columns ≠ 0) (hs : Reports s.sizes columns) (history : List WriterCall) :
    Leaves columns (session strerror history) s (afterCalls empty history) := by
  refine (leaves_construct hcolumns hs).bind fun t ht hsizes => ?_
  rw [← ht]
  exact leaves_calls hcolumns history hsizes

/-! ### The recent history -/

/-- The arguments of the calls of one kind, as they are shown. -/
def messageOf : WriterCall → Option Bytes
  | .writeMessage message => some message
  | _ => none

def clientsCountOf : WriterCall → Option Bytes
  | .updateClientsCount clientsCount => some (bytes "Clients count: ".toList ++ Cpp.toString clientsCount)
  | _ => none

def connectionStateOf : WriterCall → Option Bytes
  | .updateConnectionState state => some (bytes "Connection state: ".toList ++ state)
  | _ => none

def clientInfoOf : WriterCall → Option Bytes
  | .updateClientInfo info => some info
  | _ => none

/-- The last text set by the calls of one kind, empty if there was none. -/
def latest (lineOf : WriterCall → Option Bytes) (history : List WriterCall) : Bytes :=
  ((history.filterMap lineOf).getLast?).getD []

/-- The newest message comes first. -/
def recentMessages (history : List WriterCall) : List Bytes :=
  (history.filterMap messageOf).reverse.take messageLimit

/-- The texts to be shown after some calls, from the bottom one up. -/
def shownTexts (history : List WriterCall) : List Bytes :=
  [blankText, latest clientInfoOf history, latest connectionStateOf history, latest clientsCountOf history, blankText] ++
    recentMessages history

theorem afterCalls_concat (w : StdOutputWriter) (history : List WriterCall) (call : WriterCall) :
    afterCalls w (history ++ [call]) = call.apply (afterCalls w history) := by
  rw [afterCalls, List.foldl_append]
  rfl

theorem latest_concat (lineOf : WriterCall → Option Bytes) (history : List WriterCall) (call : WriterCall) :
    latest lineOf (history ++ [call]) = (lineOf call).getD (latest lineOf history) := by
  rw [latest, List.filterMap_append]
  cases h : lineOf call with
  | none => simp [h, latest]
  | some line => simp [h]

theorem recentMessages_concat (history : List WriterCall) (call : WriterCall) :
    recentMessages (history ++ [call]) = ((messageOf call).toList ++ recentMessages history).take messageLimit := by
  rw [recentMessages, recentMessages, List.filterMap_append, List.reverse_append]
  cases h : messageOf call with
  | none => simp [h]
  | some message => simp [h, messageLimit, List.take_take]

theorem messages_pushMessage (w : StdOutputWriter) (message : Bytes) :
    (w.pushMessage message).messages = (message :: w.messages).take messageLimit := by
  have hlength := w.length_messages
  show (message :: if messageLimit ≤ w.messages.length then w.messages.dropLast else w.messages) = _
  unfold messageLimit at *
  rw [List.take_succ_cons]
  by_cases h : 100 ≤ w.messages.length
  · rw [if_pos h, List.dropLast_eq_take, show w.messages.length - 1 = 99 by omega]
  · rw [if_neg h, List.take_of_length_le (by omega)]

/-- The members hold what is to be shown. -/
theorem texts_afterCalls (history : List WriterCall) : (afterCalls empty history).texts = shownTexts history := by
  suffices (afterCalls empty history).infoLine = latest clientInfoOf history ∧
      (afterCalls empty history).connectionStateLine = latest connectionStateOf history ∧
      (afterCalls empty history).clientsCountLine = latest clientsCountOf history ∧
      (afterCalls empty history).messages = recentMessages history by
    obtain ⟨hinfo, hstate, hcount, hmessages⟩ := this
    rw [texts, shownTexts, hinfo, hstate, hcount, hmessages]
  induction history using List.reverseRecOn with
  | nil => exact ⟨rfl, rfl, rfl, rfl⟩
  | append_singleton history call ih =>
    obtain ⟨hinfo, hstate, hcount, hmessages⟩ := ih
    simp only [afterCalls_concat, latest_concat, recentMessages_concat, ← hinfo, ← hstate, ← hcount, ← hmessages]
    have hlength := (afterCalls empty history).length_messages
    cases call with
    | writeMessage message => exact ⟨rfl, rfl, rfl, messages_pushMessage _ message⟩
    | _ => exact ⟨rfl, rfl, rfl, (List.take_of_length_le hlength).symm⟩

/-! ### Lines of a text -/

/-- The text takes these lines, from the bottom one up. -/
structure IsSplit (width : ℕ) (text : Bytes) (lines : List Bytes) : Prop where
  length : lines.length = max 1 (text.length ⌈/⌉ width)
  width : ∀ line ∈ lines, line.length ≤ width
  flatten : lines.reverse.flatten = if text = [] then blankText else text

theorem isSplit_textLines {width : ℕ} (hwidth : 0 < width) (text : Bytes) : IsSplit width text (textLines width text) := by
  rcases eq_or_ne text [] with rfl | h
  · rw [textLines, if_pos rfl]
    exact ⟨by simp, by simpa [blankText, bytes] using Nat.one_le_of_lt hwidth, by simp⟩
  · rw [textLines, if_neg h]
    refine ⟨?_, fun line hline => length_le_of_mem_cut (List.mem_reverse.mp hline), ?_⟩
    · rw [List.length_reverse, length_cut, ceilDiv_succ hwidth (List.length_pos_of_ne_nil h)]
      omega
    · rw [List.reverse_reverse, flatten_cut hwidth, if_neg h]

/-- After any calls, each call that draws sends the lines of the latest information and
of the most recent messages, from the bottom one up, and none of a text is lost. -/
theorem draws_recent_history (strerror : Errno → String) (hcolumns : columns ≠ 0) (hs : Reports s.sizes columns)
    (history : List WriterCall) {call : WriterCall} (hcall : call.draws) :
    ∃ t u lines, (session strerror history).Results s (.ok () t) ∧ (call.perform strerror).Results t (.ok () u) ∧
      u.cout = t.cout ++ call.opening ++ drawing lines.flatten ∧
      List.Forall₂ (IsSplit columns.toNat) (shownTexts (history ++ [call])) lines := by
  obtain ⟨t, hsession, hwriter, ht⟩ := leaves_session hcolumns hs history
  refine ⟨t, _, (shownTexts (history ++ [call])).map (textLines columns.toNat), hsession,
    WriterCall.results_perform hcall hcolumns ht, ?_, ?_⟩
  · rw [← texts_afterCalls, afterCalls_concat, ← hwriter, ← List.flatMap_def]
    rfl
  · rw [List.forall₂_map_right_iff, List.forall₂_same]
    exact fun text _ => isSplit_textLines (toNat_pos hcolumns) text

theorem draws_recent_history_hello :
    let columns : UInt16 := 80
    let s : Console := ⟨.empty, [], [], Stream'.const (.ok ⟨24, columns⟩)⟩
    let history : List WriterCall := [.updateClientInfo (bytes ['i', 'n', 'f', 'o']), .resetInputLine]
    let call : WriterCall := .writeMessage (bytes ['h', 'e', 'l', 'l', 'o'])
    ∃ t u lines, (session (fun _ => "") history).Results s (.ok () t) ∧ (call.perform fun _ => "").Results t (.ok () u) ∧
      u.cout = t.cout ++ call.opening ++ drawing lines.flatten ∧
      List.Forall₂ (IsSplit columns.toNat) (shownTexts (history ++ [call])) lines := by
  intro columns s history call
  have hcolumns : columns ≠ 0 := by decide
  have hs : Reports s.sizes columns := fun _ => ⟨_, rfl, rfl⟩
  exact draws_recent_history (fun _ => "") hcolumns hs history (show call.draws from rfl)

end EpollChat.Cli
