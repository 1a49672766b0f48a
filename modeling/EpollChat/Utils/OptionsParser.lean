import EpollChat.Cpp.Getopt
import EpollChat.Exceptions.Unwinding
import EpollChat.Utils.Exception

/-! `utils::ServerOptionsParser`. `Parse` keeps the options set before it throws: `main`
looks at them to report the error. The command lines that it accepts are those that
are written in groups of options. -/

namespace EpollChat.Utils

open Cpp Getopt Exceptions

structure ServerOptionsParser where
  daemon : Bool
  forceStart : Bool
  lockFileDir : Bytes
  port : Bytes
  deriving DecidableEq

/-- A `std::string` as a text. -/
def text (s : Bytes) : String := String.ofList (s.map fun b => Char.ofNat b.toNat)

/-- In the "C" locale. -/
def isprint (b : Byte) : Bool := 32 ≤ b && b ≤ 126

namespace ServerOptionsParser

def init : ServerOptionsParser := ⟨false, false, bytes "/tmp/".toList, []⟩

abbrev ParserM := EStateM Exception ServerOptionsParser

def printUsage : ParserM Unit := throw ⟨"usage", "chat_server [-hdflp] [-l lock_file_dir] -p bind_port"⟩

def optstring : Bytes := bytes "hdfp:l:".toList

/-- The body of the loop, on what `getopt` returns. -/
def handle : Found → ParserM Unit
  | .option c optarg =>
    if c = 'h'.toUInt8 then printUsage
    else if c = 'd'.toUInt8 then modify fun o => { o with daemon := true }
    else if c = 'f'.toUInt8 then modify fun o => { o with forceStart := true }
    else if c = 'p'.toUInt8 then modify fun o => { o with port := optarg.getD [] }
    else if c = 'l'.toUInt8 then modify fun o => { o with lockFileDir := optarg.getD [] }
    else throw ⟨"options", "error parse"⟩
  | .questionMark optopt =>
    if optopt = 'p'.toUInt8 ∨ optopt = 'l'.toUInt8 then
      throw ⟨"options", "Option -" ++ text [optopt] ++ " requires an argument."⟩
    else if isprint optopt then throw ⟨"options", "Unknown option '-" ++ text [optopt] ++ "'."⟩
    else throw ⟨"options", "Unknown option character '" ++ text [optopt] ++ "'."⟩

/-- What comes after the loop. -/
def finish (nonOptions : List Bytes) : ParserM Unit := do
  match nonOptions with
  | [] => pure ()
  | word :: _ => throw ⟨"options", "Non-option argument " ++ text word⟩
  let o ← get
  if o.port.isEmpty then throw ⟨"options", "Requires argument option -p bind_port"⟩

/-- `Parse`, on the words after the name of the program. -/
def parse (words : List Bytes) : ParserM Unit := do
  if words.isEmpty then printUsage
  let scanned := all optstring ⟨[], words, []⟩
  forM scanned.1 handle
  finish scanned.2

/-! ### How options are written -/

/-- An option without an argument. -/
inductive Flag where
  | daemon
  | forceStart

/-- An option with one. -/
inductive Setting where
  | port
  | lockFileDir

def Flag.char : Flag → Byte
  | daemon => 'd'.toUInt8
  | forceStart => 'f'.toUInt8

def Flag.set : Flag → ServerOptionsParser → ServerOptionsParser
  | daemon, o => { o with daemon := true }
  | forceStart, o => { o with forceStart := true }

def Setting.char : Setting → Byte
  | port => 'p'.toUInt8
  | lockFileDir => 'l'.toUInt8

def Setting.set : Setting → Bytes → ServerOptionsParser → ServerOptionsParser
  | port, arg, o => { o with port := arg }
  | lockFileDir, arg, o => { o with lockFileDir := arg }

def setFlags (flags : List Flag) (o : ServerOptionsParser) : ServerOptionsParser := flags.foldl (fun o flag => flag.set o) o

/-- Options in one word: flags, and at the end one with an argument, which follows in
the same word, if it is not empty, or is the next word, whatever this looks like. -/
inductive Group where
  | plain (first : Flag) (more : List Flag)
  | attached (flags : List Flag) (setting : Setting) (first : Byte) (more : Bytes)
  | separate (flags : List Flag) (setting : Setting) (arg : Bytes)

namespace Group

/-- The word after its `-`. -/
def characters : Group → Bytes
  | plain first more => first.char :: more.map Flag.char
  | attached flags setting first more => flags.map Flag.char ++ setting.char :: first :: more
  | separate flags setting _ => flags.map Flag.char ++ [setting.char]

def next : Group → List Bytes
  | separate _ _ arg => [arg]
  | _ => []

def words (group : Group) : List Bytes := (45 :: group.characters) :: group.next

def set : Group → ServerOptionsParser → ServerOptionsParser
  | plain first more, o => setFlags (first :: more) o
  | attached flags setting first more, o => setting.set (first :: more) (setFlags flags o)
  | separate flags setting arg, o => setting.set arg (setFlags flags o)

/-- With one more flag in front. -/
def after (flag : Flag) : Group → Group
  | plain first more => plain flag (first :: more)
  | attached flags setting first more => attached (flag :: flags) setting first more
  | separate flags setting arg => separate (flag :: flags) setting arg

variable (flag : Flag) (group : Group)

theorem characters_after : (group.after flag).characters = flag.char :: group.characters := by cases group <;> rfl

theorem next_after : (group.after flag).next = group.next := by cases group <;> rfl

theorem set_after (o : ServerOptionsParser) : (group.after flag).set o = group.set (flag.set o) := by cases group <;> rfl

theorem characters_ne_nil : group.characters ≠ [] := by cases group <;> simp [characters]

/-- The word of a group is not `--`. -/
theorem characters_ne_dash : group.characters ≠ [45] := by
  cases group with
  | plain first more => cases first <;> exact fun h => nomatch h
  | attached flags setting first more =>
    intro h
    have := congrArg List.length h
    simp [characters] at this
    omega
  | separate flags setting arg =>
    cases flags with
    | nil => cases setting <;> exact fun h => nomatch h
    | cons flag flags => cases flag <;> exact fun h => nomatch h

end Group

/-- `--`, or nothing. -/
def ending (dashes : Bool) : List Bytes := if dashes then [[45, 45]] else []

/-- The options are the flags, the options with an argument, and `h`. -/
theorem lookup_optstring {c : Byte} {takes : Bool} (h : lookup optstring c = some takes) :
    (c = 'h'.toUInt8 ∧ takes = false) ∨ (∃ flag : Flag, c = flag.char ∧ takes = false) ∨
      ∃ setting : Setting, c = setting.char ∧ takes = true := by
  have hstring : optstring = ['h'.toUInt8, 'd'.toUInt8, 'f'.toUInt8, 'p'.toUInt8, 58, 'l'.toUInt8, 58] := by decide
  by_cases hhelp : c = 'h'.toUInt8
  · subst hhelp
    exact .inl ⟨rfl, (Option.some.inj h).symm⟩
  by_cases hd : c = Flag.daemon.char
  · subst hd
    exact .inr (.inl ⟨.daemon, rfl, (Option.some.inj h).symm⟩)
  by_cases hf : c = Flag.forceStart.char
  · subst hf
    exact .inr (.inl ⟨.forceStart, rfl, (Option.some.inj h).symm⟩)
  by_cases hp : c = Setting.port.char
  · subst hp
    exact .inr (.inr ⟨.port, rfl, (Option.some.inj h).symm⟩)
  by_cases hl : c = Setting.lockFileDir.char
  · subst hl
    exact .inr (.inr ⟨.lockFileDir, rfl, (Option.some.inj h).symm⟩)
  · rw [lookup, hstring] at h
    simp only [Flag.char, Setting.char] at hd hf hp hl
    split at h
    · cases h
    · next hcolon =>
      simp [Ne.symm hhelp, Ne.symm hd, Ne.symm hf, Ne.symm hp, Ne.symm hl, List.dropWhile,
        Ne.symm (not_or.mp hcolon).1] at h

/-! ### What the loop accepts -/

/-- The loop runs to its end from `o` to `o'`, and nothing has been passed over. -/
def Accepts (s : Scan) (o o' : ServerOptionsParser) : Prop :=
  forM (all optstring s).1 handle o = .ok () o' ∧ (all optstring s).2 = []

section
variable {c : Byte} {rest : Bytes} {words nonOptions : List Bytes} {o o' : ServerOptionsParser}

/-- The next option is handled without an exception, and the loop goes on. -/
theorem accepts_character {o₁ : ServerOptionsParser}
    (h : handle (character optstring c rest words nonOptions).1 o = .ok () o₁) :
    Accepts ⟨c :: rest, words, nonOptions⟩ o o' ↔ Accepts (character optstring c rest words nonOptions).2 o₁ o' := by
  rw [Accepts, Accepts, all_character, List.forM_cons, bind_of_ok h]

theorem not_accepts_character {e : Exception} {o₁ : ServerOptionsParser}
    (h : handle (character optstring c rest words nonOptions).1 o = .error e o₁) :
    ¬ Accepts ⟨c :: rest, words, nonOptions⟩ o o' := by
  rw [Accepts, all_character, List.forM_cons, bind_of_error h]
  exact fun hacc => nomatch hacc.1

theorem accepts_flag (flag : Flag) :
    Accepts ⟨flag.char :: rest, words, nonOptions⟩ o o' ↔ Accepts ⟨rest, words, nonOptions⟩ (flag.set o) o' := by
  cases flag <;> exact accepts_character rfl

theorem accepts_attached (setting : Setting) (first : Byte) (more : Bytes) :
    Accepts ⟨setting.char :: first :: more, words, nonOptions⟩ o o' ↔
      Accepts ⟨[], words, nonOptions⟩ (setting.set (first :: more) o) o' := by
  cases setting <;> exact accepts_character rfl

theorem accepts_separate (setting : Setting) (arg : Bytes) :
    Accepts ⟨[setting.char], arg :: words, nonOptions⟩ o o' ↔
      Accepts ⟨[], words, nonOptions⟩ (setting.set arg o) o' := by
  cases setting <;> exact accepts_character rfl

theorem not_accepts_missing (setting : Setting) : ¬ Accepts ⟨[setting.char], [], nonOptions⟩ o o' := by
  cases setting <;> exact not_accepts_character rfl

/-- The other texts begin with a capital letter. -/
theorem append_ne_errorParse {start rest : String} (first : Char) (h : start.toList.head? = some first)
    (hne : first ≠ 'e') : start ++ rest ≠ "error parse" := by
  intro happend
  have hhead := congrArg (fun s : String => s.toList.head?) happend
  simp only [String.toList_append, List.head?_append, h, Option.some_or] at hhead
  exact hne (Option.some.inj (hhead.trans (by decide : _ = some 'e')))

theorem handle_questionMark (c : Byte) (o : ServerOptionsParser) :
    ∃ e, handle (.questionMark c) o = .error e o ∧ e.errorDescription ≠ "error parse" := by
  rw [handle]
  split
  · refine ⟨_, rfl, ?_⟩
    rw [String.append_assoc]
    exact append_ne_errorParse 'O' (by decide) (by decide)
  · split <;>
    · refine ⟨_, rfl, ?_⟩
      rw [String.append_assoc]
      exact append_ne_errorParse 'U' (by decide) (by decide)

/-- Any other character is refused, `h` too. -/
theorem not_accepts_other (hflag : ∀ flag : Flag, c ≠ flag.char) (hsetting : ∀ setting : Setting, c ≠ setting.char) :
    ¬ Accepts ⟨c :: rest, words, nonOptions⟩ o o' := by
  by_cases hhelp : c = 'h'.toUInt8
  · subst hhelp
    exact not_accepts_character rfl
  · have hlookup : lookup optstring c = none := by
      refine Option.eq_none_iff_forall_ne_some.mpr fun takes h => ?_
      obtain ⟨hc, -⟩ | ⟨flag, hc, -⟩ | ⟨setting, hc, -⟩ := lookup_optstring h
      · exact hhelp hc
      · exact hflag flag hc
      · exact hsetting setting hc
    obtain ⟨e, he, -⟩ := handle_questionMark c o
    have hcharacter : character optstring c rest words nonOptions = (.questionMark c, ⟨rest, words, nonOptions⟩) := by
      unfold character
      rw [hlookup]
    exact not_accepts_character (e := e) (by rw [hcharacter]; exact he)

/-! ### A group -/

theorem accepts_flags (flags : List Flag) : Accepts ⟨flags.map Flag.char ++ rest, words, nonOptions⟩ o o' ↔
    Accepts ⟨rest, words, nonOptions⟩ (setFlags flags o) o' := by
  induction flags generalizing o with
  | nil => exact Iff.rfl
  | cons flag flags ih => exact (accepts_flag flag).trans ih

theorem accepts_characters (group : Group) : Accepts ⟨group.characters, group.next ++ words, nonOptions⟩ o o' ↔
    Accepts ⟨[], words, nonOptions⟩ (group.set o) o' := by
  cases group with
  | plain first more =>
    have hplain : (Group.plain first more).characters = (first :: more).map Flag.char ++ [] := (List.append_nil _).symm
    rw [hplain]
    exact accepts_flags (first :: more)
  | attached flags setting first more => exact (accepts_flags flags).trans (accepts_attached setting first more)
  | separate flags setting arg => exact (accepts_flags flags).trans (accepts_separate setting arg)

/-- Any word that is accepted is one of a group: a character that is neither a flag nor
an option with an argument is refused, and so is such an option at the end of the last
word. -/
theorem exists_group {nextchar : Bytes} (hne : nextchar ≠ []) (h : Accepts ⟨nextchar, words, nonOptions⟩ o o') :
    ∃ (group : Group) (words' : List Bytes), nextchar = group.characters ∧ words = group.next ++ words' ∧
      Accepts ⟨[], words', nonOptions⟩ (group.set o) o' := by
  induction nextchar generalizing o with
  | nil => exact absurd rfl hne
  | cons c rest ih =>
    by_cases hflag : ∃ flag : Flag, c = flag.char
    · obtain ⟨flag, rfl⟩ := hflag
      have hrest := (accepts_flag flag).mp h
      cases rest with
      | nil => exact ⟨.plain flag [], words, rfl, rfl, hrest⟩
      | cons c rest =>
        obtain ⟨group, words', hcharacters, hwords, hacc⟩ := ih (List.cons_ne_nil c rest) hrest
        refine ⟨group.after flag, words', ?_, ?_, ?_⟩
        · rw [group.characters_after, hcharacters]
        · rw [group.next_after, hwords]
        · rwa [group.set_after]
    by_cases hsetting : ∃ setting : Setting, c = setting.char
    · obtain ⟨setting, rfl⟩ := hsetting
      cases rest with
      | cons first more =>
        exact ⟨.attached [] setting first more, words, rfl, rfl, (accepts_attached setting first more).mp h⟩
      | nil =>
        cases words with
        | nil => exact absurd h (not_accepts_missing setting)
        | cons arg words => exact ⟨.separate [] setting arg, words, rfl, rfl, (accepts_separate setting arg).mp h⟩
    · exact absurd h (not_accepts_other (not_exists.mp hflag) (not_exists.mp hsetting))

/-! ### A command line -/

theorem accepts_word (h : c = 45 → rest = [] → False) :
    Accepts ⟨[], (45 :: c :: rest) :: words, nonOptions⟩ o o' ↔ Accepts ⟨c :: rest, words, nonOptions⟩ o o' := by
  rw [Accepts, all_word h, Accepts]

theorem accepts_group (group : Group) : Accepts ⟨[], group.words ++ words, nonOptions⟩ o o' ↔
    Accepts ⟨[], words, nonOptions⟩ (group.set o) o' := by
  rw [Group.words, List.cons_append, ← accepts_characters]
  have hnil := group.characters_ne_nil
  have hdash := group.characters_ne_dash
  cases hc : group.characters with
  | nil => exact absurd hc hnil
  | cons c rest =>
    refine accepts_word fun h45 hrest => hdash ?_
    rw [hc, h45, hrest]

theorem accepts_nil : Accepts ⟨[], [], nonOptions⟩ o o' ↔ o = o' ∧ nonOptions = [] := by
  rw [Accepts, all_nil, List.forM_nil]
  exact and_congr_left' ⟨fun h => by cases h; rfl, fun h => h ▸ rfl⟩

theorem accepts_dashes : Accepts ⟨[], [45, 45] :: words, nonOptions⟩ o o' ↔ o = o' ∧ nonOptions ++ words = [] := by
  rw [Accepts, all_dashes, List.forM_nil]
  exact and_congr_left' ⟨fun h => by cases h; rfl, fun h => h ▸ rfl⟩

/-- A word that is no option is reported after the loop. -/
theorem not_accepts_nonOption {word : Bytes} (hdashes : word = [45, 45] → False)
    (hoption : ∀ (c : Byte) (rest : Bytes), word = 45 :: c :: rest → False) :
    ¬ Accepts ⟨[], word :: words, nonOptions⟩ o o' := by
  intro h
  rw [Accepts, all_nonOption hdashes hoption] at h
  have hpassed := nonOptions_prefix optstring ⟨[], words, nonOptions ++ [word]⟩
  rw [h.2, List.prefix_nil] at hpassed
  exact absurd hpassed (by simp)

/-- `words` is written in groups that lead from `o` to `o'`. -/
def Written (words : List Bytes) (o o' : ServerOptionsParser) : Prop :=
  ∃ (groups : List Group) (dashes : Bool), words = groups.flatMap Group.words ++ ending dashes ∧
    o' = groups.foldl (fun o group => group.set o) o

theorem Written.cons (group : Group) (h : Written words (group.set o) o') : Written (group.words ++ words) o o' := by
  obtain ⟨groups, dashes, rfl, rfl⟩ := h
  exact ⟨group :: groups, dashes, by rw [List.flatMap_cons, List.append_assoc], rfl⟩

theorem written_of_accepts (h : Accepts ⟨[], words, []⟩ o o') : Written words o o' := by
  -- a group takes a word or two
  induction hn : words.length using Nat.strong_induction_on generalizing words o with
  | _ n ih =>
    cases words with
    | nil => exact ⟨[], false, rfl, (accepts_nil.mp h).1.symm⟩
    | cons word words =>
      by_cases hdashes : word = [45, 45]
      · subst hdashes
        obtain ⟨rfl, rfl⟩ := accepts_dashes.mp h
        exact ⟨[], true, rfl, rfl⟩
      by_cases hoption : ∃ (c : Byte) (rest : Bytes), word = 45 :: c :: rest
      · obtain ⟨c, rest, rfl⟩ := hoption
        have hword := (accepts_word fun hc hrest => hdashes (by rw [hc, hrest])).mp h
        obtain ⟨group, words', hcharacters, rfl, hacc⟩ := exists_group (List.cons_ne_nil c rest) hword
        have hshorter : words'.length < n := by
          rw [← hn, List.length_cons, List.length_append]
          omega
        rw [hcharacters]
        exact (ih words'.length hshorter hacc rfl).cons group
      · exact absurd h (not_accepts_nonOption hdashes fun c rest hword => hoption ⟨c, rest, hword⟩)

theorem accepts_of_written (h : Written words o o') : Accepts ⟨[], words, []⟩ o o' := by
  obtain ⟨groups, dashes, rfl, rfl⟩ := h
  induction groups generalizing o with
  | nil =>
    cases dashes with
    | false => exact accepts_nil.mpr ⟨rfl, rfl⟩
    | true => exact accepts_dashes.mpr ⟨rfl, rfl⟩
  | cons group groups ih =>
    rw [List.flatMap_cons, List.append_assoc]
    exact (accepts_group group).mpr ih

theorem finish_ok_iff {o'' : ServerOptionsParser} :
    finish nonOptions o' = .ok () o'' ↔ nonOptions = [] ∧ o' = o'' ∧ o'.port ≠ [] := by
  cases nonOptions with
  | cons word nonOptions => exact iff_of_false nofun (fun h => nomatch h.1)
  | nil =>
    change (if o'.port.isEmpty then throw _ else pure () : ParserM Unit) o' = _ ↔ _
    split
    · next hempty => exact iff_of_false nofun fun h => h.2.2 (List.isEmpty_iff.mp hempty)
    · next hport =>
      rw [List.isEmpty_iff] at hport
      exact ⟨fun h => by cases h; exact ⟨rfl, rfl, hport⟩, fun h => h.2.1 ▸ rfl⟩

theorem finish_ne_errorParse : finish nonOptions o ≠ .error ⟨"options", "error parse"⟩ o' := by
  intro h
  cases nonOptions with
  | cons word nonOptions =>
    have hdescription := congrArg Exception.errorDescription (EStateM.Result.error.inj h).1
    exact append_ne_errorParse 'N' (by decide) (by decide) hdescription
  | nil =>
    change (if o.port.isEmpty then throw _ else pure () : ParserM Unit) o = _ at h
    split at h
    · have hdescription := congrArg Exception.errorDescription (EStateM.Result.error.inj h).1
      exact absurd hdescription (by decide)
    · cases h

theorem parse_eq (hne : words ≠ []) (o : ServerOptionsParser) :
    parse words o = (forM (all optstring ⟨[], words, []⟩).1 handle >>= fun _ => finish (all optstring ⟨[], words, []⟩).2) o := by
  rw [parse, if_neg (by simpa using hne)]

theorem parse_ok_iff_accepts (hne : words ≠ []) :
    parse words o = .ok () o' ↔ Accepts ⟨[], words, []⟩ o o' ∧ o'.port ≠ [] := by
  rw [parse_eq hne, Accepts]
  cases h : forM (all optstring ⟨[], words, []⟩).1 handle o with
  | ok _ o₁ =>
    rw [bind_of_ok h, finish_ok_iff]
    constructor
    · rintro ⟨hnone, rfl, hport⟩
      exact ⟨⟨rfl, hnone⟩, hport⟩
    · rintro ⟨⟨hok, hnone⟩, hport⟩
      cases hok
      exact ⟨hnone, rfl, hport⟩
  | error e o₁ =>
    rw [bind_of_error h]
    exact iff_of_false nofun fun hacc => nomatch hacc.1.1

/-- `Parse` accepts the command lines that are written in groups of options, with `--`
at the end or not, and set a port that is not empty, and it leaves what the groups set,
in their order. -/
theorem parse_ok_iff (words : List Bytes) (o : ServerOptionsParser) :
    parse words init = .ok () o ↔ ∃ (groups : List Group) (dashes : Bool),
      words = groups.flatMap Group.words ++ ending dashes ∧
        o = groups.foldl (fun o group => group.set o) init ∧ o.port ≠ [] := by
  by_cases hne : words = []
  · subst hne
    refine iff_of_false nofun ?_
    rintro ⟨groups, dashes, hwords, ho, hport⟩
    exact hport ((accepts_nil.mp (accepts_of_written ⟨groups, dashes, hwords, ho⟩)).1 ▸ rfl)
  · rw [parse_ok_iff_accepts hne]
    constructor
    · rintro ⟨hacc, hport⟩
      obtain ⟨groups, dashes, hwords, ho⟩ := written_of_accepts hacc
      exact ⟨groups, dashes, hwords, ho, hport⟩
    · rintro ⟨groups, dashes, hwords, ho, hport⟩
      exact ⟨accepts_of_written ⟨groups, dashes, hwords, ho⟩, hport⟩

end

/-! ### What cannot happen -/

/-- An error of a loop is one of its body. -/
theorem exists_error_of_forM {found : List Found} {o o' : ServerOptionsParser} {e : Exception}
    (h : forM found handle o = .error e o') : ∃ f ∈ found, ∃ o₁, handle f o₁ = .error e o' := by
  induction found generalizing o with
  | nil => cases h
  | cons f found ih =>
    rw [List.forM_cons] at h
    cases hf : handle f o with
    | ok _ o₁ =>
      rw [bind_of_ok hf] at h
      obtain ⟨f', hmem, o₂, he⟩ := ih h
      exact ⟨f', List.mem_cons_of_mem f hmem, o₂, he⟩
    | error e₁ o₁ =>
      rw [bind_of_error hf] at h
      cases h
      exact ⟨f, List.mem_cons_self, o, hf⟩

/-- `getopt` gives an argument with `-p` and `-l`: no string is made of a null pointer,
and the `default` of the `switch` is never taken. -/
theorem parse_default_unreachable (words : List Bytes) : (∀ (c : Byte) (optarg : Option Bytes),
      .option c optarg ∈ (all optstring ⟨[], words, []⟩).1 → c = 'p'.toUInt8 ∨ c = 'l'.toUInt8 → optarg.isSome) ∧
    ∀ o o' : ServerOptionsParser, parse words o ≠ .error ⟨"options", "error parse"⟩ o' := by
  have hoption (c : Byte) (optarg : Option Bytes) (hmem : .option c optarg ∈ (all optstring ⟨[], words, []⟩).1) :=
    lookup_optstring (lookup_of_mem hmem)
  constructor
  · intro c optarg hmem hc
    obtain ⟨rfl, -⟩ | ⟨flag, rfl, -⟩ | ⟨setting, rfl, hsome⟩ := hoption c optarg hmem
    · exact absurd hc (by decide)
    · cases flag <;> exact absurd hc (by decide)
    · exact hsome
  · intro o o' herror
    by_cases hne : words = []
    · subst hne
      exact absurd (congrArg Exception.sourceError (EStateM.Result.error.inj herror).1) (by decide)
    rw [parse_eq hne] at herror
    cases hloop : forM (all optstring ⟨[], words, []⟩).1 handle o with
    | error e o₁ =>
      rw [bind_of_error hloop] at herror
      obtain ⟨f, hmem, o₂, hf⟩ := exists_error_of_forM hloop
      cases herror
      cases f with
      | questionMark optopt =>
        obtain ⟨e, he, hdescription⟩ := handle_questionMark optopt o₂
        rw [he] at hf
        cases hf
        exact hdescription rfl
      | option c optarg =>
        obtain ⟨rfl, -⟩ | ⟨flag, rfl, -⟩ | ⟨setting, rfl, -⟩ := hoption c optarg hmem
        · exact absurd (congrArg Exception.sourceError (EStateM.Result.error.inj hf).1) (by decide)
        · cases flag <;> cases hf
        · cases setting <;> cases hf
    | ok _ o₁ =>
      rw [bind_of_ok hloop] at herror
      exact finish_ne_errorParse herror

end ServerOptionsParser

end EpollChat.Utils
