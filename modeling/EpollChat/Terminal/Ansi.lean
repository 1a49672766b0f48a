import EpollChat.Terminal.Screen

/-! Terminals that read bytes, among them the ANSI control sequences. Of a terminal only
this is assumed: between two sequences, it obeys those listed here, and puts a
printable character at the cursor if there is room on the row. An emulator is such a
terminal. -/

namespace EpollChat.Terminal

variable {τ : Type} {width : ℕ}

/-- `' '`. -/
def blank : UInt8 := 32

inductive Control where
  | saveCursor
  | restoreCursor
  | previousLine
  | eraseLine

namespace Control

/-- `ESC [ s`, `ESC [ u`, `ESC [ 1 F` and `ESC [ 2 K`. -/
def sequence : Control → List UInt8
  | saveCursor => [27, 91, 115]
  | restoreCursor => [27, 91, 117]
  | previousLine => [27, 91, 49, 70]
  | eraseLine => [27, 91, 50, 75]

def act : Control → Screen UInt8 width → Screen UInt8 width
  | saveCursor => Screen.saveCursor
  | restoreCursor => Screen.restoreCursor
  | previousLine => Screen.previousLine
  | eraseLine => Screen.eraseLine blank

end Control

structure AnsiTerminal (τ : Type) (width : ℕ) where
  write : τ → UInt8 → τ
  screen : τ → Screen UInt8 width
  /-- It is not in the middle of a sequence. -/
  Ready : τ → Prop
  Printable : UInt8 → Prop
  control : ∀ {t}, Ready t → ∀ c : Control,
    Ready (c.sequence.foldl write t) ∧ screen (c.sequence.foldl write t) = c.act (screen t)
  print : ∀ {t b}, Ready t → Printable b → (screen t).column < width →
    Ready (write t b) ∧ screen (write t b) = (screen t).put b

namespace AnsiTerminal

variable (terminal : AnsiTerminal τ width)

def feed (t : τ) (out : List UInt8) : τ := out.foldl terminal.write t

theorem feed_append (t : τ) (out more : List UInt8) :
    terminal.feed t (out ++ more) = terminal.feed (terminal.feed t out) more := List.foldl_append

variable {terminal} {t : τ}

theorem feed_control (ht : terminal.Ready t) (c : Control) :
    terminal.Ready (terminal.feed t c.sequence) ∧
      terminal.screen (terminal.feed t c.sequence) = c.act (terminal.screen t) := terminal.control ht c

/-- A text with room on the row of the cursor. -/
theorem feed_text (ht : terminal.Ready t) {text : List UInt8} (htext : ∀ b ∈ text, terminal.Printable b)
    (hroom : (terminal.screen t).column + text.length ≤ width) :
    terminal.Ready (terminal.feed t text) ∧ terminal.screen (terminal.feed t text) = (terminal.screen t).puts text := by
  induction text generalizing t with
  | nil => exact ⟨ht, rfl⟩
  | cons b text ih =>
    rw [List.length_cons] at hroom
    obtain ⟨hready, hscreen⟩ := terminal.print ht (htext b (by simp)) (by omega)
    have hcolumn : (terminal.screen (terminal.write t b)).column = (terminal.screen t).column + 1 := by rw [hscreen]; rfl
    obtain ⟨hready', hscreen'⟩ := ih hready (fun c hc => htext c (by simp [hc])) (by omega)
    exact ⟨hready', hscreen'.trans (by rw [hscreen]; rfl)⟩

/-- What is sent for a line on the row above. -/
def lineOutput (line : List UInt8) : List UInt8 :=
  Control.previousLine.sequence ++ (Control.eraseLine.sequence ++ line)

theorem feed_line (ht : terminal.Ready t) {line : List UInt8} (hline : ∀ b ∈ line, terminal.Printable b)
    (hlength : line.length ≤ width) :
    terminal.Ready (terminal.feed t (lineOutput line)) ∧
      terminal.screen (terminal.feed t (lineOutput line)) = (terminal.screen t).drawLine blank line := by
  obtain ⟨hup, hscreenUp⟩ := feed_control ht .previousLine
  obtain ⟨herase, hscreenErase⟩ := feed_control hup .eraseLine
  rw [hscreenUp] at hscreenErase
  rw [lineOutput, feed_append, feed_append]
  obtain ⟨hready, hscreen⟩ := feed_text herase hline (by rw [hscreenErase]; show 0 + line.length ≤ width; omega)
  exact ⟨hready, hscreen.trans (by rw [hscreenErase]; rfl)⟩

theorem feed_lines (ht : terminal.Ready t) {lines : List (List UInt8)}
    (hlines : ∀ line ∈ lines, (∀ b ∈ line, terminal.Printable b) ∧ line.length ≤ width) :
    terminal.Ready (terminal.feed t (lines.flatMap lineOutput)) ∧
      terminal.screen (terminal.feed t (lines.flatMap lineOutput)) = (terminal.screen t).drawLines blank lines := by
  induction lines generalizing t with
  | nil => exact ⟨ht, rfl⟩
  | cons line lines ih =>
    obtain ⟨hprintable, hlength⟩ := hlines line (by simp)
    obtain ⟨hready, hscreen⟩ := feed_line ht hprintable hlength
    obtain ⟨hready', hscreen'⟩ := ih hready fun l hl => hlines l (by simp [hl])
    rw [List.flatMap_cons, feed_append]
    exact ⟨hready', hscreen'.trans (by rw [hscreen]; rfl)⟩

end AnsiTerminal

/-! ### An emulator -/

/-- How far a sequence has been read. -/
inductive Mode where
  | ground
  | escape
  | parameter (n : ℕ)

structure Emulator (width : ℕ) where
  screen : Screen UInt8 width
  height : ℕ
  mode : Mode

namespace Emulator

/-- The screen with room for a character: a full row goes on in the next one, and at
the bottom all rows move up. -/
def makeRoom (e : Emulator width) : Screen UInt8 width :=
  if e.screen.column < width then e.screen
  else if e.screen.row + 1 < e.height then { e.screen with row := e.screen.row + 1, column := 0 }
  else { e.screen with
    cells := fun i => if i + 1 < e.height then e.screen.cells (i + 1) else fun _ => blank
    column := 0 }

/-- A sequence with its parameter and its last byte. An absent parameter is 0. -/
def obey (s : Screen UInt8 width) (n : ℕ) (final : UInt8) : Screen UInt8 width :=
  if final = 115 then s.saveCursor
  else if final = 117 then s.restoreCursor
  else if final = 70 then { s with row := s.row - max n 1, column := 0 }
  else if final = 75 ∧ n = 2 then s.eraseLine blank
  else s

def write (e : Emulator width) (b : UInt8) : Emulator width :=
  match e.mode with
  | .ground =>
    if b = 27 then { e with mode := .escape }
    else if 32 ≤ b ∧ b ≤ 126 then { e with screen := e.makeRoom.put b }
    else e
  | .escape => { e with mode := if b = 91 then .parameter 0 else .ground }
  | .parameter n =>
    if 48 ≤ b ∧ b ≤ 57 then { e with mode := .parameter (10 * n + (b.toNat - 48)) }
    else { e with screen := obey e.screen n b, mode := .ground }

/-- The emulator is a terminal as assumed. -/
def terminal : AnsiTerminal (Emulator width) width where
  write := write
  screen := screen
  Ready e := e.mode = .ground
  Printable b := 32 ≤ b ∧ b ≤ 126
  control := by
    rintro ⟨s, height, mode⟩ rfl c
    cases c <;> exact ⟨rfl, rfl⟩
  print := by
    rintro ⟨s, height, mode⟩ b rfl hb hroom
    have hescape : b ≠ 27 := by
      rintro rfl
      exact absurd hb.1 (by decide)
    simp only [write, makeRoom]
    rw [if_neg hescape, if_pos hb, if_pos hroom]
    exact ⟨rfl, rfl⟩

end Emulator

end EpollChat.Terminal
