import EpollChat.Net.TcpSocket

/-! `cli::StdInputReader`, up to the calls it makes on its listener. The results of
`read` on the standard input are arguments. -/

namespace EpollChat.Cli

open Cpp Utils Net

/-- `STDIN_FILENO`. -/
def stdinFileno : FileDescriptor := 0

/-- The call made on the `StdInputReaderListener`. -/
inductive ReaderCall where
  | onMessageRead (message : Bytes)
  | onReaderClosed
  /-- `OnMessageRead`, after `pop_back` on an empty string, which is undefined. -/
  | popBackOfEmpty
  deriving DecidableEq

namespace StdInputReader

/-- The loop of `OnIn`. A chunk is appended as a null-terminated string. With no
result left, `read` has not returned yet. -/
def onInLoop (buffer : Bytes) : List ReadResult → Option ReaderCall
  | [] => none
  | .eagain :: _ => some (if buffer.isEmpty then .popBackOfEmpty else .onMessageRead buffer.dropLast)
  | .endOfFile :: _ => some .onReaderClosed
  | .error :: _ => some .onReaderClosed
  | .data chunk :: reads => onInLoop (buffer ++ chunk.takeWhile (· ≠ 0)) reads

def onIn (reads : List ReadResult) : Option ReaderCall := onInLoop [] reads

/-- The results end with `EAGAIN`, whatever was read before. -/
def ReadsAll : List ReadResult → Prop
  | [] => False
  | .eagain :: _ => True
  | .endOfFile :: _ => False
  | .error :: _ => False
  | .data _ :: reads => ReadsAll reads

instance decidableReadsAll : (reads : List ReadResult) → Decidable (ReadsAll reads)
  | [] => isFalse id
  | .eagain :: _ => isTrue trivial
  | .endOfFile :: _ => isFalse id
  | .error :: _ => isFalse id
  | .data _ :: reads => decidableReadsAll reads

/-- Then `OnMessageRead` is called, be it after undefined behaviour. -/
theorem readsAll_iff (reads : List ReadResult) :
    ReadsAll reads ↔ ∃ call, onIn reads = some call ∧ call ≠ .onReaderClosed := by
  unfold onIn
  generalize ([] : Bytes) = buffer
  induction reads generalizing buffer with
  | nil => simp [ReadsAll, onInLoop]
  | cons r reads ih =>
    cases r with
    | data chunk => exact ih _
    | endOfFile => simp [ReadsAll, onInLoop]
    | error => simp [ReadsAll, onInLoop]
    | eagain =>
      refine iff_of_true trivial ⟨_, rfl, ?_⟩
      split <;> exact nofun

/-! ### What is forwarded

The buffer is what was read up to the first null byte of each chunk, and its last
byte goes whatever it is. -/

/-- `'\n'`. -/
def newline : Byte := 10

/-- Without the newline at the end, if there is one. -/
def stripNewline (read : Bytes) : Bytes := if read.getLast? = some newline then read.dropLast else read

/-- The bytes appended to the buffer for some chunks. -/
def appended (chunks : List Bytes) : Bytes := (chunks.map fun chunk => chunk.takeWhile (· ≠ 0)).flatten

theorem appended_cons (chunk : Bytes) (chunks : List Bytes) :
    appended (chunk :: chunks) = chunk.takeWhile (· ≠ 0) ++ appended chunks := rfl

theorem onInLoop_chunks (buffer : Bytes) (chunks : List Bytes) (reads : List ReadResult) :
    onInLoop buffer (chunks.map ReadResult.data ++ reads) = onInLoop (buffer ++ appended chunks) reads := by
  induction chunks generalizing buffer with
  | nil => rw [List.map_nil, List.nil_append, appended, List.map_nil, List.flatten_nil, List.append_nil]
  | cons chunk chunks ih =>
    rw [List.map_cons, List.cons_append, onInLoop, ih, appended_cons, List.append_assoc]

theorem onIn_allRead (chunks : List Bytes) :
    onIn (chunks.map ReadResult.data ++ [.eagain]) =
      some (if (appended chunks).isEmpty then .popBackOfEmpty else .onMessageRead (appended chunks).dropLast) := by
  rw [onIn, onInLoop_chunks, List.nil_append, onInLoop]

/-- Nothing is cut off unless there is a null byte. -/
theorem appended_cases (chunks : List Bytes) :
    (0 ∉ chunks.flatten ∧ appended chunks = chunks.flatten) ∨
      (0 ∈ chunks.flatten ∧ (appended chunks).length < chunks.flatten.length) := by
  induction chunks with
  | nil => exact .inl ⟨List.not_mem_nil, rfl⟩
  | cons chunk chunks ih =>
    have hfront := List.takeWhile_prefix (l := chunk) (fun b => decide (b ≠ 0))
    rw [appended_cons, List.flatten_cons, List.length_append, List.length_append, List.mem_append]
    by_cases h : 0 ∈ chunk
    · have hne : chunk.takeWhile (· ≠ 0) ≠ chunk := fun he => by
        simpa using List.takeWhile_eq_self_iff.mp he 0 h
      have hlt : (chunk.takeWhile (· ≠ 0)).length < chunk.length :=
        lt_of_le_of_ne hfront.length_le fun he => hne (hfront.eq_of_length he)
      refine .inr ⟨.inl h, ?_⟩
      rcases ih with ⟨-, he⟩ | ⟨-, hle⟩
      · rw [he]
        omega
      · omega
    · have heq : chunk.takeWhile (· ≠ 0) = chunk := List.takeWhile_eq_self_iff.mpr fun b hb =>
        decide_eq_true fun he => h (he ▸ hb)
      rw [heq]
      rcases ih with ⟨h0, he⟩ | ⟨h0, hlt⟩
      · exact .inl ⟨by tauto, by rw [he]⟩
      · exact .inr ⟨.inr h0, by omega⟩

theorem length_stripNewline (read : Bytes) : read.length ≤ (stripNewline read).length + 1 := by
  unfold stripNewline
  split
  · rw [List.length_dropLast]
    omega
  · omega

theorem dropLast_eq_stripNewline_iff {read : Bytes} (h : read ≠ []) :
    read.dropLast = stripNewline read ↔ read.getLast? = some newline := by
  unfold stripNewline
  split
  · next hl => exact iff_of_true rfl hl
  · next hl =>
    refine iff_of_false (fun he => ?_) hl
    have hlen := congrArg List.length he
    have hpos := List.length_pos_of_ne_nil h
    rw [List.length_dropLast] at hlen
    omega

end StdInputReader

open StdInputReader

/-- In an activation that reads until there is no more, the last byte is taken from a
non-empty buffer and all that was read is forwarded but a newline at its end, if and
only if it has no null byte and ends in a newline. -/
theorem forwards_input_iff (chunks : List Bytes) :
    let call := onIn (chunks.map ReadResult.data ++ [.eagain])
    let read := chunks.flatten
    (call ≠ some .popBackOfEmpty ∧ (read ≠ [] → call = some (.onMessageRead (stripNewline read)))) ↔
      0 ∉ read ∧ read.getLast? = some newline := by
  intro call read
  have hcall : call = _ := onIn_allRead chunks
  have hcases : (0 ∉ read ∧ appended chunks = read) ∨ (0 ∈ read ∧ (appended chunks).length < read.length) :=
    appended_cases chunks
  rw [hcall]
  rcases hcases with ⟨h0, he⟩ | ⟨h0, hlt⟩
  · rw [he]
    by_cases hread : read = []
    · simp [read, hread]
    · have hempty : ¬ read.isEmpty := by simpa using hread
      rw [if_neg hempty, and_iff_right h0, ← dropLast_eq_stripNewline_iff hread]
      simp [hread]
  · -- a byte less than the buffer of all that was read, and one more is dropped
    refine iff_of_false (fun h => ?_) fun h => h.1 h0
    have hread : read ≠ [] := List.ne_nil_of_mem h0
    obtain ⟨hpop, hmessage⟩ := h
    have hempty : ¬ (appended chunks).isEmpty := fun he => hpop (by rw [if_pos he])
    have hpos : 0 < (appended chunks).length := List.length_pos_of_ne_nil fun he => hempty (by rw [he]; rfl)
    have hdrop := hmessage hread
    rw [if_neg hempty, Option.some.injEq, ReaderCall.onMessageRead.injEq] at hdrop
    have hlen := congrArg List.length hdrop
    have hstrip := length_stripNewline read
    rw [List.length_dropLast] at hlen
    omega

/-- A line flushed without its newline loses its last byte. -/
theorem input_without_newline_is_cut :
    let hi : Bytes := [104, 105]
    onIn [.data hi, .eagain] = some (.onMessageRead [104]) ∧ stripNewline hi = hi := by
  decide

end EpollChat.Cli
