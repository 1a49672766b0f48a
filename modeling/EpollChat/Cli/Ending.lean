import EpollChat.Cli.History

/-! When the functions of the writer end. `PrintText` runs on if it is to cut a text into
lines without columns. A failing `ioctl` ends what was going on by an exception. So a
sequence of calls ends just if no text it comes to print meets a width of zero. -/

namespace EpollChat.Cli

open Cpp Utils Loops StdOutputWriter

variable {strerror : Errno → String} {s : Console} {w : StdOutputWriter} {α : Type}

/-- No text meets a width of zero, as long as `ioctl` does not fail. -/
def Drawable : List Bytes → Stream' (SysResult Winsize) → Prop
  | [], _ => True
  | text :: texts, sizes => match sizes.head with
    | .error _ => True
    | .ok size => (size.wsCol = 0 → text = []) ∧ Drawable texts sizes.tail

theorem ends_printText_iff {size : Winsize} (hsize : s.sizes.head = .ok size) {text : Bytes} :
    (printText strerror text).Ends s ↔ (size.wsCol = 0 → text = []) := by
  refine ⟨fun h => ?_, fun h => (results_printText hsize h).ends⟩
  have hloop := ends_splitLoop_iff.mp (Computation.ends_bind.mp ((Computation.ends_bind_of_ok
    (results_getScreenWidth hsize)).mp h)).1
  exact fun hzero => hloop (UInt16.toNat_inj.mpr hzero)

/-- From a state with these members, the computation ends just if the texts are
drawable. -/
def EndsFor (w : StdOutputWriter) (texts : List Bytes) (c : WriterM α) : Prop :=
  ∀ s, s.writer = w → (c.Ends s ↔ Drawable texts s.sizes)

namespace EndsFor

variable {more : List Bytes} {k : Unit → WriterM α}

theorem pure (a : α) : EndsFor w [] (pure a : WriterM α) := fun _ _ => iff_of_true ⟨_, 0, rfl⟩ trivial

theorem printText (h : EndsFor w more (k ())) (text : Bytes) :
    EndsFor w (text :: more) (printText strerror text >>= k) := by
  intro s hs
  rw [Drawable]
  cases hsize : s.sizes.head with
  | error errno => exact iff_of_true (((results_getScreenWidth_error hsize).bind_error _).bind_error _).ends trivial
  | ok size =>
    refine Computation.ends_bind.trans ?_
    rw [ends_printText_iff hsize]
    refine and_congr_right fun htext => ?_
    have hprint : (StdOutputWriter.printText strerror text).Results s _ := results_printText hsize htext
    refine Iff.trans ⟨fun hk => hk _ _ hprint, fun hk a t ht => ?_⟩ (h _ hs)
    cases hprint.unique ht
    exact hk

theorem printTexts (h : EndsFor w more (k ())) (texts : List Bytes) :
    EndsFor w (texts ++ more) (texts.forM (StdOutputWriter.printText strerror) >>= k) := by
  induction texts with
  | nil => exact h
  | cons text texts ih =>
    rw [List.forM, bind_assoc]
    exact ih.printText text

theorem updateScreen (h : EndsFor w more (k ())) : EndsFor w (w.texts ++ more) (updateScreen strerror >>= k) := by
  intro s hs
  have hrest : EndsFor w more (write restoreCursor >>= k) := fun t ht =>
    (Computation.ends_bind_of_ok (results_write restoreCursor)).trans (h _ ht)
  rw [updateScreen_eq]
  simp only [bind_assoc]
  rw [Computation.ends_bind_of_ok (results_write saveCursor), Computation.ends_bind_of_ok results_get,
    Console.print_writer, hs]
  exact hrest.printTexts w.texts _ hs

end EndsFor

/-! ### Calls -/

/-- The texts a call prints, the members being these before. -/
def WriterCall.prints (call : WriterCall) (w : StdOutputWriter) : List Bytes :=
  if call.draws then (call.apply w).texts else []

theorem EndsFor.perform {call : WriterCall} {more : List Bytes} {k : Unit → WriterM α}
    (h : EndsFor (call.apply w) more (k ())) :
    EndsFor w (call.prints w ++ more) (call.perform strerror >>= k) := by
  rintro s rfl
  rcases call.draws_or_writeError with hdraws | ⟨error, rfl⟩
  · obtain ⟨first, heq, hfirst⟩ := WriterCall.perform_eq hdraws strerror
    rw [heq, bind_assoc, Computation.ends_bind_of_ok (hfirst s), WriterCall.prints, if_pos hdraws]
    exact h.updateScreen _ rfl
  · exact (Computation.ends_bind_of_ok (WriterCall.results_writeError error)).trans (h _ rfl)

/-- The texts that some calls print, one after the other. -/
def printsAll (w : StdOutputWriter) : List WriterCall → List Bytes
  | [] => []
  | call :: calls => call.prints w ++ printsAll (call.apply w) calls

theorem ends_perform_iff (call : WriterCall) :
    (call.perform strerror).Ends s ↔ Drawable (call.prints s.writer) s.sizes := by
  have h : EndsFor s.writer (call.prints s.writer ++ []) (call.perform strerror >>= pure) := .perform (.pure ())
  rw [List.append_nil, bind_pure] at h
  exact h s rfl

theorem ends_calls_iff (calls : List WriterCall) :
    (calls.forM (WriterCall.perform strerror)).Ends s ↔ Drawable (printsAll s.writer calls) s.sizes := by
  suffices ∀ w, EndsFor w (printsAll w calls) (calls.forM (WriterCall.perform strerror)) from this s.writer s rfl
  induction calls with
  | nil => exact fun w => EndsFor.pure PUnit.unit
  | cons call calls ih => exact fun w => (ih (call.apply w)).perform

/-- With the same width at all times. -/
theorem drawable_iff {columns : UInt16} {sizes : Stream' (SysResult Winsize)} (h : Reports sizes columns)
    (texts : List Bytes) : Drawable texts sizes ↔ (columns = 0 → ∀ text ∈ texts, text = []) := by
  induction texts generalizing sizes with
  | nil => exact iff_of_true trivial (by simp)
  | cons text texts ih =>
    obtain ⟨size, hsize, rfl⟩ := h.head
    have hrest : Drawable texts sizes.tail ↔ _ := ih (h.drop 1)
    simp only [Drawable, hsize, hrest, List.forall_mem_cons, imp_and]

end EpollChat.Cli
