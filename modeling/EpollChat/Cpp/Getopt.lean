import EpollChat.Cpp.Numbers

/-! `getopt` of the GNU C library, for an option string that begins with none of `+`,
`-` and `:` and has no optional arguments, with `opterr` 0, `POSIXLY_CORRECT` not set
and no word moved by the caller. A word that is no option is passed over; at the end
these words stand together, at `optind`. -/

namespace EpollChat.Cpp.Getopt

/-- Whether a character is an option, and if so whether it takes an argument. -/
def lookup (optstring : Bytes) (c : Byte) : Option Bool :=
  if c = 58 ∨ c = 59 then none
  else match optstring.dropWhile fun b => b ≠ c with
    | [] => none
    | _ :: 58 :: _ => some true
    | _ => some false

/-- A result other than -1: an option with `optarg`, or `?` with `optopt`. -/
inductive Found where
  | option (c : Byte) (optarg : Option Bytes)
  | questionMark (optopt : Byte)
  deriving DecidableEq

/-- The rest of the word that is being read, the words after it, and the words passed
over. -/
structure Scan where
  nextchar : Bytes
  words : List Bytes
  nonOptions : List Bytes

variable (optstring : Bytes)

/-- The option character `c`, with what follows it in its word. -/
def character (c : Byte) (rest : Bytes) (words nonOptions : List Bytes) : Found × Scan :=
  match lookup optstring c with
  | none => (.questionMark c, ⟨rest, words, nonOptions⟩)
  | some false => (.option c none, ⟨rest, words, nonOptions⟩)
  | some true =>
    match rest, words with
    | b :: rest, words => (.option c (some (b :: rest)), ⟨[], words, nonOptions⟩)
    | [], [] => (.questionMark c, ⟨[], [], nonOptions⟩)
    | [], word :: words => (.option c (some word), ⟨[], words, nonOptions⟩)

/-- The next word with options. After `--` there are none. -/
def nextWord : List Bytes → List Bytes → Option (Found × Scan) × List Bytes
  | [], nonOptions => (none, nonOptions)
  | [45, 45] :: words, nonOptions => (none, nonOptions ++ words)
  | (45 :: c :: rest) :: words, nonOptions => (some (character optstring c rest words nonOptions), nonOptions)
  | word :: words, nonOptions => nextWord words (nonOptions ++ [word])

/-- One call. At the end, the words from `optind` on. -/
def getopt (s : Scan) : Option (Found × Scan) × List Bytes :=
  match s.nextchar with
  | c :: rest => (some (character optstring c rest s.words s.nonOptions), s.nonOptions)
  | [] => nextWord optstring s.words s.nonOptions

/-! ### Every call reads something -/

def Scan.size (s : Scan) : ℕ := s.nextchar.length + s.words.flatten.length + s.words.length

theorem size_character (c : Byte) (rest : Bytes) (words nonOptions : List Bytes) :
    (character optstring c rest words nonOptions).2.size ≤ rest.length + words.flatten.length + words.length := by
  unfold character
  split
  · exact Nat.le_refl _
  · exact Nat.le_refl _
  · split <;> simp only [Scan.size, List.flatten_cons, List.length_append, List.length_cons, List.length_nil] <;> omega

theorem size_nextWord {words nonOptions : List Bytes} {found : Found} {s : Scan}
    (h : (nextWord optstring words nonOptions).1 = some (found, s)) :
    s.size < words.flatten.length + words.length := by
  induction words, nonOptions using nextWord.induct with
  | case1 nonOptions => cases h
  | case2 words nonOptions => cases h
  | case3 c rest words nonOptions hne =>
    rw [nextWord] at h
    · have hsize := size_character optstring c rest words nonOptions
      rw [Option.some.inj h] at hsize
      simp only [List.flatten_cons, List.length_append, List.length_cons]
      exact Nat.lt_of_le_of_lt hsize (by omega)
    · exact hne
  | case4 word words nonOptions hdashes hoption ih =>
    rw [nextWord] at h
    · have := ih h
      simp only [List.flatten_cons, List.length_append, List.length_cons]
      omega
    · exact hdashes
    · exact hoption

theorem size_getopt {s s' : Scan} {found : Found} (h : (getopt optstring s).1 = some (found, s')) : s'.size < s.size := by
  unfold getopt at h
  split at h
  · next c rest hc =>
    have hsize := size_character optstring c rest s.words s.nonOptions
    rw [Option.some.inj h] at hsize
    rw [Scan.size.eq_def s, hc, List.length_cons]
    exact Nat.lt_of_le_of_lt hsize (by omega)
  · next hc =>
    rw [Scan.size.eq_def s, hc, List.length_nil, Nat.zero_add]
    exact size_nextWord optstring h

/-- What all calls return up to -1, and the words from `optind` on. -/
def all (s : Scan) : List Found × List Bytes :=
  match _h : (getopt optstring s).1 with
  | none => ([], (getopt optstring s).2)
  | some (found, s') => (found :: (all s').1, (all s').2)
termination_by s.size
decreasing_by all_goals exact size_getopt optstring _h

/-! ### The calls in turn -/

variable {optstring}

theorem nonOptions_character {c : Byte} {rest : Bytes} {words nonOptions : List Bytes} :
    (character optstring c rest words nonOptions).2.nonOptions = nonOptions := by
  unfold character
  split
  · rfl
  · rfl
  · split <;> rfl

theorem all_of_none {s : Scan} (h : (getopt optstring s).1 = none) : all optstring s = ([], (getopt optstring s).2) := by
  rw [all]
  split
  · rfl
  · next hsome => rw [h] at hsome; cases hsome

theorem all_of_some {s s' : Scan} {found : Found} (h : (getopt optstring s).1 = some (found, s')) :
    all optstring s = (found :: (all optstring s').1, (all optstring s').2) := by
  rw [all]
  split
  · next hnone => rw [h] at hnone; cases hnone
  · next found' s'' hsome =>
    rw [h] at hsome
    cases hsome
    rfl

section
variable {c : Byte} {rest : Bytes} {words nonOptions : List Bytes}

/-- The next option character, in the word that is being read. -/
theorem all_character : all optstring ⟨c :: rest, words, nonOptions⟩ =
    ((character optstring c rest words nonOptions).1 ::
        (all optstring (character optstring c rest words nonOptions).2).1,
      (all optstring (character optstring c rest words nonOptions).2).2) := all_of_some rfl

theorem all_nil : all optstring ⟨[], [], nonOptions⟩ = ([], nonOptions) := all_of_none rfl

theorem all_dashes : all optstring ⟨[], [45, 45] :: words, nonOptions⟩ = ([], nonOptions ++ words) := all_of_none rfl

/-- A word with options. -/
theorem all_word (h : c = 45 → rest = [] → False) :
    all optstring ⟨[], (45 :: c :: rest) :: words, nonOptions⟩ = all optstring ⟨c :: rest, words, nonOptions⟩ := by
  have hnext : (getopt optstring ⟨[], (45 :: c :: rest) :: words, nonOptions⟩).1 =
      some (character optstring c rest words nonOptions) := by
    rw [getopt, nextWord]
    exact h
  exact (all_of_some hnext).trans all_character.symm

/-- A word without is passed over. -/
theorem all_nonOption {word : Bytes} (hdashes : word = [45, 45] → False)
    (hoption : ∀ (c : Byte) (rest : Bytes), word = 45 :: c :: rest → False) :
    all optstring ⟨[], word :: words, nonOptions⟩ = all optstring ⟨[], words, nonOptions ++ [word]⟩ := by
  have hnext : getopt optstring ⟨[], word :: words, nonOptions⟩ =
      getopt optstring ⟨[], words, nonOptions ++ [word]⟩ := by
    rw [getopt, nextWord]
    · rfl
    · exact hdashes
    · exact hoption
  cases h : (getopt optstring ⟨[], words, nonOptions ++ [word]⟩).1 with
  | none => rw [all_of_none h, all_of_none (hnext ▸ h), hnext]
  | some found => rw [all_of_some h, all_of_some (hnext ▸ h)]

end

/-- What has been passed over is kept. -/
theorem nonOptions_prefix (optstring : Bytes) (s : Scan) : s.nonOptions <+: (all optstring s).2 := by
  have hnext (words nonOptions : List Bytes) : (∀ found s', (nextWord optstring words nonOptions).1 = some (found, s') →
      nonOptions <+: s'.nonOptions) ∧ nonOptions <+: (nextWord optstring words nonOptions).2 := by
    induction words, nonOptions using nextWord.induct with
    | case1 nonOptions => exact ⟨nofun, List.prefix_refl _⟩
    | case2 words nonOptions => exact ⟨nofun, List.prefix_append ..⟩
    | case3 c rest words nonOptions hne =>
      rw [nextWord]
      · refine ⟨fun found s' h => ?_, List.prefix_refl _⟩
        have hkept : (character optstring c rest words nonOptions).2.nonOptions = nonOptions := nonOptions_character
        rw [Option.some.inj h] at hkept
        exact hkept ▸ List.prefix_refl _
      · exact hne
    | case4 word words nonOptions hdashes hoption ih =>
      rw [nextWord]
      · have hmore := List.prefix_append nonOptions [word]
        exact ⟨fun found s' h => hmore.trans (ih.1 found s' h), hmore.trans ih.2⟩
      · exact hdashes
      · exact hoption
  have hgetopt (s : Scan) : (∀ found s', (getopt optstring s).1 = some (found, s') → s.nonOptions <+: s'.nonOptions) ∧
      ((getopt optstring s).1 = none → s.nonOptions <+: (getopt optstring s).2) := by
    unfold getopt
    split
    · refine ⟨fun found s' h => ?_, nofun⟩
      have hkept := congrArg (fun r => r.2.nonOptions) (Option.some.inj h)
      exact (nonOptions_character.symm.trans hkept) ▸ List.prefix_refl _
    · exact ⟨(hnext s.words s.nonOptions).1, fun _ => (hnext s.words s.nonOptions).2⟩
  induction s using all.induct optstring with
  | case1 s h =>
    rw [all_of_none h]
    exact (hgetopt s).2 h
  | case2 s found s' h ih =>
    rw [all_of_some h]
    exact ((hgetopt s).1 found s' h).trans ih

/-! ### What is returned -/

theorem exists_character {s : Scan} {r : Found × Scan} (h : (getopt optstring s).1 = some r) :
    ∃ (c : Byte) (rest : Bytes) (words nonOptions : List Bytes), r = character optstring c rest words nonOptions := by
  have hnext (words nonOptions : List Bytes) (hr : (nextWord optstring words nonOptions).1 = some r) :
      ∃ (c : Byte) (rest : Bytes) (words nonOptions : List Bytes), r = character optstring c rest words nonOptions := by
    induction words, nonOptions using nextWord.induct with
    | case1 nonOptions => cases hr
    | case2 words nonOptions => cases hr
    | case3 c rest words nonOptions hne =>
      rw [nextWord] at hr
      · exact ⟨c, rest, words, nonOptions, (Option.some.inj hr).symm⟩
      · exact hne
    | case4 word words nonOptions hdashes hoption ih =>
      rw [nextWord] at hr
      · exact ih hr
      · exact hdashes
      · exact hoption
  unfold getopt at h
  split at h
  · exact ⟨_, _, _, _, (Option.some.inj h).symm⟩
  · exact hnext _ _ h

theorem lookup_character {c c' : Byte} {rest : Bytes} {words nonOptions : List Bytes} {optarg : Option Bytes}
    (h : (character optstring c rest words nonOptions).1 = .option c' optarg) :
    lookup optstring c' = some optarg.isSome := by
  unfold character at h
  split at h
  · cases h
  · next hlookup =>
    cases h
    exact hlookup
  · next hlookup =>
    split at h
    · cases h
      exact hlookup
    · cases h
    · cases h
      exact hlookup

/-- An option that is returned is one of the option string, with an argument if it
takes one. -/
theorem lookup_of_mem {s : Scan} {c : Byte} {optarg : Option Bytes} (h : .option c optarg ∈ (all optstring s).1) :
    lookup optstring c = some optarg.isSome := by
  induction s using all.induct optstring with
  | case1 s hnone =>
    rw [all_of_none hnone] at h
    cases h
  | case2 s found s' hsome ih =>
    rw [all_of_some hsome] at h
    rcases List.mem_cons.mp h with hfound | hmem
    · obtain ⟨c', rest, words, nonOptions, hr⟩ := exists_character hsome
      have hoption : (character optstring c' rest words nonOptions).1 = .option c optarg := by rw [← hr, hfound]
      exact lookup_character hoption
    · exact ih hmem

end EpollChat.Cpp.Getopt
