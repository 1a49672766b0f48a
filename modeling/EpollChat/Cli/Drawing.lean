import EpollChat.Cli.StdOutputWriter
import EpollChat.Terminal.Ansi
import EpollChat.Terminal.Lines
import Mathlib.Data.Stream.Init

/-! What the writer draws. As long as the reported width is not zero every function
returns, and what it has drawn last are the texts that its members hold: three lines
of information between blank ones and above them the messages, all cut into lines. -/

namespace EpollChat.Cli

open Cpp Utils Loops Terminal

theorem toNat_pos {columns : UInt16} (h : columns ≠ 0) : 0 < columns.toNat :=
  Nat.pos_of_ne_zero fun hzero => h (UInt16.toNat_inj.mp hzero)

/-- The terminal is so wide at every call of `ioctl`. -/
def Reports (sizes : Stream' (SysResult Winsize)) (width : UInt16) : Prop :=
  ∀ n, ∃ size, sizes.get n = .ok size ∧ size.wsCol = width

theorem Reports.drop {sizes : Stream' (SysResult Winsize)} {width : UInt16} (h : Reports sizes width) (k : ℕ) :
    Reports (sizes.drop k) width := fun n => h (n + k)

theorem Reports.head {sizes : Stream' (SysResult Winsize)} {width : UInt16} (h : Reports sizes width) :
    ∃ size, sizes.head = .ok size ∧ size.wsCol = width := h 0

namespace Console

def print (s : Console) (out : Bytes) : Console := { s with cout := s.cout ++ out }

/-- After some calls of `ioctl`. -/
def skip (s : Console) (n : ℕ) : Console := { s with sizes := s.sizes.drop n }

@[simp] theorem print_writer (s : Console) (out : Bytes) : (s.print out).writer = s.writer := rfl

@[simp] theorem print_nil (s : Console) : s.print [] = s := by
  rw [print, List.append_nil]

@[simp] theorem print_print (s : Console) (out more : Bytes) : (s.print out).print more = s.print (out ++ more) := by
  rw [print, print, print, List.append_assoc]

theorem skip_print (s : Console) (out : Bytes) (n : ℕ) : (s.print out).skip n = (s.skip n).print out := rfl

theorem skip_skip (s : Console) (n m : ℕ) : (s.skip n).skip m = s.skip (n + m) := by
  rw [skip, skip, skip, Stream'.drop_drop]

theorem foldl_print {ι : Type} (out : ι → Bytes) (items : List ι) (s : Console) :
    items.foldl (fun s i => s.print (out i)) s = s.print (items.flatMap out) := by
  induction items generalizing s with
  | nil => rw [List.foldl_nil, List.flatMap_nil, print_nil]
  | cons i items ih => rw [List.foldl_cons, ih, print_print, List.flatMap_cons]

theorem foldl_skip_print {ι : Type} (out : ι → Bytes) (items : List ι) (s : Console) :
    items.foldl (fun s i => (s.skip 1).print (out i)) s = (s.skip items.length).print (items.flatMap out) := by
  induction items generalizing s with
  | nil => exact (foldl_print out [] s)
  | cons i items ih =>
    rw [List.foldl_cons, ih, skip_print, print_print, skip_skip, List.flatMap_cons, List.length_cons, Nat.add_comm]

end Console

namespace StdOutputWriter

/-! ### What is drawn -/

/-- The lines of a text, from the bottom one up. -/
def textLines (width : ℕ) (text : Bytes) : List Bytes := if text = [] then [blankText] else (cut width text).reverse

/-- The texts on the screen, from the bottom one up. -/
def texts (w : StdOutputWriter) : List Bytes :=
  [blankText, w.infoLine, w.connectionStateLine, w.clientsCountLine, blankText] ++ w.messages

def screenLines (width : ℕ) (w : StdOutputWriter) : List Bytes := w.texts.flatMap (textLines width)

def lineDrawing (line : Bytes) : Bytes := cursorUp ++ (eraseLine ++ line)

/-- What is sent for the lines of the screen, the cursor being left where it was. -/
def drawing (lines : List Bytes) : Bytes := saveCursor ++ (lines.flatMap lineDrawing ++ restoreCursor)

variable {strerror : Errno → String} {width : ℕ} {s : Console}

/-! ### Splitting a text -/

theorem results_splitRound_done (partsToPrint : List Bytes) :
    (splitRound width ([], partsToPrint)).Results s (.ok (.inr partsToPrint) s) := ⟨0, rfl⟩

theorem results_splitRound_next {text : Bytes} (h : text ≠ []) (partsToPrint : List Bytes) :
    (splitRound width (text, partsToPrint)).Results s
      (.ok (.inl (text.drop width, text.take width :: partsToPrint)) s) := by
  refine ⟨0, ?_⟩
  rw [splitRound, if_neg (by simpa using h)]
  dsimp only
  by_cases hlt : width < text.length
  · rw [if_pos hlt, List.length_take_of_le (Nat.le_of_lt hlt)]
    rfl
  · have hle := Nat.not_lt.mp hlt
    rw [if_neg hlt, List.drop_length, List.drop_eq_nil_of_le hle, List.take_of_length_le hle]
    rfl

/-- Each round cuts off the line that goes above those there are. -/
theorem results_splitLoop {text : Bytes} (h : width = 0 → text = []) (partsToPrint : List Bytes) :
    (Computation.loop (splitRound width) (text, partsToPrint)).Results s
      (.ok ((cut width text).reverse ++ partsToPrint) s) := by
  induction hn : text.length using Nat.strongRecOn generalizing text partsToPrint with
  | _ n ih =>
    rcases eq_or_ne text [] with rfl | htext
    · rw [cut_nil]
      exact Computation.results_loop_done (results_splitRound_done partsToPrint)
    · have hwidth : 0 < width := Nat.pos_of_ne_zero fun hzero => htext (h hzero)
      have hpos := List.length_pos_of_ne_nil htext
      have hlt : (text.drop width).length < n := by
        rw [List.length_drop]
        omega
      have hrest : (Computation.loop (splitRound width) (text.drop width, text.take width :: partsToPrint)).Results s _ :=
        ih _ hlt (fun hzero => absurd hzero hwidth.ne') _ rfl
      rw [cut_of_ne_nil hwidth htext, List.reverse_cons, List.append_assoc]
      exact Computation.results_loop_next (results_splitRound_next htext partsToPrint) hrest

/-- The loop does not end if it cuts off nothing from a text. -/
theorem ends_splitLoop_iff {text : Bytes} {partsToPrint : List Bytes} :
    (Computation.loop (splitRound width) (text, partsToPrint)).Ends s ↔ (width = 0 → text = []) := by
  refine ⟨?_, fun h => (results_splitLoop h partsToPrint).ends⟩
  rintro h rfl
  by_contra htext
  refine Computation.not_ends_loop (fun round _ => round.1 = text) (fun round t hround => ?_) rfl h
  obtain ⟨rest, parts⟩ := round
  obtain rfl : rest = text := hround
  exact ⟨_, t, results_splitRound_next htext parts, List.drop_zero⟩

/-! ### Printing a text -/

theorem results_write (out : Bytes) : (write out).Results s (.ok () (s.print out)) := ⟨0, rfl⟩

theorem results_ioctl {size : Winsize} (h : s.sizes.head = .ok size) :
    (ioctl strerror).Results s (.ok size (s.skip 1)) := by
  refine ⟨0, ?_⟩
  simp only [ioctl, Computation.lift, h]
  rfl

theorem results_getScreenHeight {size : Winsize} (h : s.sizes.head = .ok size) :
    (getScreenHeight strerror).Results s (.ok size.wsRow.toNat (s.skip 1)) := (results_ioctl h).bind_ok ⟨0, rfl⟩

theorem results_getScreenWidth {size : Winsize} (h : s.sizes.head = .ok size) :
    (getScreenWidth strerror).Results s (.ok size.wsCol.toNat (s.skip 1)) := (results_ioctl h).bind_ok ⟨0, rfl⟩

theorem results_getScreenWidth_error {errno : Errno} (h : s.sizes.head = .error errno) :
    (getScreenWidth strerror).Results s (.error ⟨"ioctl", strerror errno⟩ (s.skip 1)) := by
  refine Computation.Results.bind_error _ ⟨0, ?_⟩
  simp only [ioctl, Computation.lift, h]
  rfl

theorem results_printPart (partToPrint : Bytes) :
    (printPart partToPrint).Results s (.ok () (s.print (lineDrawing partToPrint))) := by
  refine (results_write cursorUp).bind_ok ((results_write eraseLine).bind_ok ?_)
  rw [lineDrawing, ← Console.print_print, ← Console.print_print]
  exact results_write partToPrint

theorem results_printParts (partsToPrint : List Bytes) :
    (partsToPrint.forM printPart).Results s (.ok () (s.print (partsToPrint.flatMap lineDrawing))) := by
  rw [← Console.foldl_print]
  exact Computation.results_forM (fun _ => True) (fun part _ t _ => ⟨results_printPart part, trivial⟩) trivial

/-- The lines that the loop begins with, and those it ends with. -/
theorem textLines_eq (text : Bytes) :
    textLines width text = (cut width text).reverse ++ if text.isEmpty then [blankText] else [] := by
  rcases eq_or_ne text [] with rfl | h
  · rw [textLines, if_pos rfl, cut_nil]
    rfl
  · rw [textLines, if_neg h, if_neg (by simpa using h), List.append_nil]

theorem results_printText {size : Winsize} (hsize : s.sizes.head = .ok size) {text : Bytes}
    (h : size.wsCol = 0 → text = []) :
    (printText strerror text).Results s
      (.ok () ((s.skip 1).print ((textLines size.wsCol.toNat text).flatMap lineDrawing))) := by
  rw [textLines_eq]
  refine (results_getScreenWidth hsize).bind_ok ((results_splitLoop (fun hzero => h ?_) _).bind_ok (results_printParts _))
  exact UInt16.toNat_inj.mp hzero

/-! ### Printing all texts -/

theorem results_printTexts {columns : UInt16} (hcolumns : columns ≠ 0) (texts : List Bytes)
    (hs : Reports s.sizes columns) :
    (texts.forM (printText strerror)).Results s
      (.ok () ((s.skip texts.length).print (texts.flatMap fun text => (textLines columns.toNat text).flatMap lineDrawing))) := by
  rw [← Console.foldl_skip_print]
  refine Computation.results_forM (fun s => Reports s.sizes columns) (fun text _ t ht => ?_) hs
  obtain ⟨size, hsize, rfl⟩ := ht.head
  exact ⟨results_printText hsize fun hzero => absurd hzero hcolumns, ht.drop 1⟩

/-! ### The screen -/

theorem updateScreen_eq : updateScreen strerror = (do
      write saveCursor
      let s ← Computation.lift get
      s.writer.texts.forM (printText strerror)
      write restoreCursor) := by
  simp only [updateScreen, texts, List.cons_append, List.nil_append, List.forM, bind_assoc]

theorem results_get : (Computation.lift get : WriterM Console).Results s (.ok s s) := ⟨0, rfl⟩

/-- The state after the lines of the screen have been drawn. -/
def drawn (columns : UInt16) (s : Console) : Console :=
  (s.skip s.writer.texts.length).print (drawing (screenLines columns.toNat s.writer))

theorem results_updateScreen {columns : UInt16} (hcolumns : columns ≠ 0) (hs : Reports s.sizes columns) :
    (updateScreen strerror).Results s (.ok () (drawn columns s)) := by
  rw [updateScreen_eq, drawn, drawing, screenLines, List.flatMap_assoc, ← Console.print_print, ← Console.print_print]
  refine (results_write saveCursor).bind_ok (results_get.bind_ok ?_)
  refine Computation.Results.bind_ok (a := ()) (results_printTexts hcolumns _ ?_) (results_write restoreCursor)
  exact hs

end StdOutputWriter

end EpollChat.Cli
