import EpollChat.Cli.History

/-! What the writer's drawing shows on an ANSI terminal as wide as reported: its lines
stand above the cursor in their order, until they reach the first row. -/

namespace EpollChat.Cli

open Cpp Utils Loops Terminal StdOutputWriter

variable {strerror : Errno → String} {columns : UInt16} {s : Console} {τ : Type} {width : ℕ}
  {terminal : AnsiTerminal τ width} {t : τ}

/-- The writer's strings are the control sequences. -/
theorem drawing_eq (lines : List Bytes) : drawing lines =
    Control.saveCursor.sequence ++ (lines.flatMap AnsiTerminal.lineOutput ++ Control.restoreCursor.sequence) := rfl

theorem feed_drawing (ht : terminal.Ready t) {lines : List Bytes}
    (hlines : ∀ line ∈ lines, (∀ b ∈ line, terminal.Printable b) ∧ line.length ≤ width) :
    terminal.Ready (terminal.feed t (drawing lines)) ∧ terminal.screen (terminal.feed t (drawing lines)) =
      ((terminal.screen t).saveCursor.drawLines blank lines).restoreCursor := by
  obtain ⟨hsave, hscreenSave⟩ := AnsiTerminal.feed_control ht .saveCursor
  obtain ⟨hdraw, hscreenDraw⟩ := AnsiTerminal.feed_lines hsave hlines
  obtain ⟨hrestore, hscreenRestore⟩ := AnsiTerminal.feed_control hdraw .restoreCursor
  rw [drawing_eq, AnsiTerminal.feed_append, AnsiTerminal.feed_append]
  rw [hscreenDraw, hscreenSave] at hscreenRestore
  exact ⟨hrestore, hscreenRestore⟩

/-- A line has characters of the texts only, and room on a row. -/
theorem screenLines_fit (hwidth : 0 < width) {w : StdOutputWriter}
    (htexts : ∀ text ∈ w.texts, ∀ b ∈ text, terminal.Printable b) :
    ∀ line ∈ screenLines width w, (∀ b ∈ line, terminal.Printable b) ∧ line.length ≤ width := by
  intro line hline
  obtain ⟨text, htext, hline⟩ := List.mem_flatMap.mp hline
  refine ⟨fun b hb => ?_, (isSplit_textLines hwidth text).width line hline⟩
  rw [textLines] at hline
  split at hline
  · rw [List.mem_singleton.mp hline] at hb
    exact htexts blankText (by simp [texts]) b hb
  · exact htexts text htext b (mem_of_mem_cut (List.mem_reverse.mp hline) hb)

/-- On a terminal where the texts are printable, every line that has room stands above
the cursor in its place and all else is as before, if and only if there are no more
lines than rows above the cursor, or the last line reads like what belongs on the
first row. -/
theorem shows_lines_iff (strerror : Errno → String) (hcolumns : columns ≠ 0) (hs : Reports s.sizes columns)
    (terminal : AnsiTerminal τ columns.toNat) {t : τ} (ht : terminal.Ready t)
    (htexts : ∀ text ∈ s.writer.texts, ∀ b ∈ text, terminal.Printable b) :
    let lines := screenLines columns.toNat s.writer
    let before := terminal.screen t
    ∃ u, (updateScreen strerror).Results s (.ok () u) ∧ u.cout = s.cout ++ drawing lines ∧
      let after := terminal.screen (terminal.feed t (drawing lines))
      after.row = before.row ∧ after.column = before.column ∧
        (Screen.ShowsAbove blank before after lines ↔ lines.length ≤ before.row ∨
          ∃ last, lines.getLast? = some last ∧ Screen.textRow blank columns.toNat last = before.firstRow blank lines) := by
  intro lines before
  obtain ⟨-, hscreen⟩ := feed_drawing ht (screenLines_fit (toNat_pos hcolumns) htexts)
  refine ⟨_, results_updateScreen hcolumns hs, rfl, ?_⟩
  rw [show terminal.screen (terminal.feed t (drawing lines)) = _ from hscreen]
  refine ⟨congrArg Prod.fst (Screen.saved_drawLines before.saveCursor lines),
    congrArg Prod.snd (Screen.saved_drawLines before.saveCursor lines), ?_⟩
  have hiff : Screen.ShowsAbove blank before.saveCursor _ lines ↔ _ :=
    Screen.showsAbove_drawLines_iff before.saveCursor lines
  exact ⟨fun h => hiff.mp ⟨h.above, h.below⟩, fun h => ⟨(hiff.mpr h).above, (hiff.mpr h).below⟩⟩

/-- An emulated terminal of 24 rows, with one message. -/
theorem shows_lines_iff_one_message :
    let columns : UInt16 := 80
    let s : Console := ⟨⟨[bytes ['h', 'i']], [], [], [], by decide⟩, [], [], Stream'.const (.ok ⟨24, columns⟩)⟩
    let t : Emulator columns.toNat := ⟨⟨fun _ _ => blank, 23, 0, (0, 0)⟩, 24, .ground⟩
    let lines := screenLines columns.toNat s.writer
    let before := t.screen
    ∃ u, (updateScreen fun _ => "").Results s (.ok () u) ∧ u.cout = s.cout ++ drawing lines ∧
      let after := (Emulator.terminal.feed t (drawing lines)).screen
      after.row = before.row ∧ after.column = before.column ∧
        (Screen.ShowsAbove blank before after lines ↔ lines.length ≤ before.row ∨
          ∃ last, lines.getLast? = some last ∧ Screen.textRow blank columns.toNat last = before.firstRow blank lines) := by
  intro columns s t
  have hcolumns : columns ≠ 0 := by decide
  have hs : Reports s.sizes columns := fun _ => ⟨_, rfl, rfl⟩
  have htexts : ∀ text ∈ s.writer.texts, ∀ b ∈ text, 32 ≤ b ∧ b ≤ 126 := by decide +kernel
  exact shows_lines_iff (fun _ => "") hcolumns hs Emulator.terminal (t := t) rfl htexts

/-- With six rows above the cursor and seven lines, the oldest message is drawn over the
newest. -/
theorem oldest_message_overwrites_newest :
    let columns : UInt16 := 80
    let s : Console := ⟨⟨[bytes ['b'], bytes ['a']], [], [], [], by decide⟩, [], [], Stream'.const (.ok ⟨7, columns⟩)⟩
    let t : Emulator columns.toNat := ⟨⟨fun _ _ => blank, 6, 0, (0, 0)⟩, 7, .ground⟩
    ∃ u, (updateScreen fun _ => "").Results s (.ok () u) ∧
      let after := (Emulator.terminal.feed t u.cout).screen
      after.cells 0 ⟨0, by decide⟩ = 97 ∧
        ¬ Screen.ShowsAbove blank t.screen after (screenLines columns.toNat s.writer) := by
  intro columns s t
  have hcolumns : columns ≠ 0 := by decide
  refine ⟨_, results_updateScreen hcolumns fun _ => ⟨_, rfl, rfl⟩, ?_⟩
  have hfirst : (Emulator.terminal.feed t (drawn columns s).cout).screen.cells 0 ⟨0, by decide⟩ = 97 := by
    decide +kernel
  refine ⟨hfirst, fun h => ?_⟩
  have hrow := congrFun (h.above 5 0 rfl) ⟨0, by decide⟩
  rw [hfirst] at hrow
  exact absurd hrow (by decide +kernel)

end EpollChat.Cli
