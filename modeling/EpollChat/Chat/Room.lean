import Mathlib.Data.List.Induction
import Mathlib.Data.List.Nodup
import Mathlib.Data.Nat.Notation

/-! An abstract chat room. Its history is a sequence of joins, of things said and
of leaves; who is in the room, and what a member is shown of the history, follow
from the history alone. The nick name of a member is chosen by the number of its
join. -/

namespace EpollChat.Chat.Room

variable {κ ν τ : Type}

inductive Happening (κ τ : Type) where
  | join (who : κ)
  | say (who : κ) (what : τ)
  | leave (who : κ)

/-- What a member is shown. -/
inductive Notice (ν τ : Type) where
  | present (count : ℕ)
  | said (who : ν) (what : τ)
  | gone (who : ν)

/-- Everyone who ever joined, in the order of the joins. -/
def joins (history : List (Happening κ τ)) : List κ :=
  history.filterMap fun
    | .join who => some who
    | _ => none

variable [DecidableEq κ]

def change (present : List κ) : Happening κ τ → List κ
  | .join who => present ++ [who]
  | .say _ _ => present
  | .leave who => present.erase who

/-- Who is in the room after the history. -/
def members (history : List (Happening κ τ)) : List κ := history.foldl change []

def nickOf (name : ℕ → ν) (history : List (Happening κ τ)) (who : κ) : ν := name ((joins history).idxOf who + 1)

/-- What `viewer` is shown of the next thing that happens: a join or a leave to
whoever is there after it, what is said to the others. -/
def notices (name : ℕ → ν) (viewer : κ) (before : List (Happening κ τ)) : Happening κ τ → List (Notice ν τ)
  | .join who =>
    let present := members (before ++ [.join who])
    if viewer ∈ present then [.present present.length] else []
  | .say who what =>
    if viewer ∈ members before ∧ viewer ≠ who then [.said (nickOf name before who) what] else []
  | .leave who =>
    let present := members (before ++ [.leave who])
    if viewer ∈ present then [.present present.length, .gone (nickOf name before who)] else []

def viewFrom (name : ℕ → ν) (viewer : κ) (before : List (Happening κ τ)) :
    List (Happening κ τ) → List (Notice ν τ)
  | [] => []
  | e :: later => notices name viewer before e ++ viewFrom name viewer (before ++ [e]) later

/-- What `viewer` is shown of a whole history. -/
def view (name : ℕ → ν) (viewer : κ) (history : List (Happening κ τ)) : List (Notice ν τ) :=
  viewFrom name viewer [] history

section
omit [DecidableEq κ]

@[simp] theorem joins_nil : joins ([] : List (Happening κ τ)) = [] := rfl

@[simp] theorem joins_join (h : List (Happening κ τ)) (who : κ) : joins (h ++ [.join who]) = joins h ++ [who] := by
  simp [joins]

@[simp] theorem joins_say (h : List (Happening κ τ)) (who : κ) (what : τ) :
    joins (h ++ [.say who what]) = joins h := by simp [joins]

@[simp] theorem joins_leave (h : List (Happening κ τ)) (who : κ) : joins (h ++ [.leave who]) = joins h := by
  simp [joins]

end

theorem members_concat (h : List (Happening κ τ)) (e : Happening κ τ) : members (h ++ [e]) = change (members h) e := by
  rw [members, List.foldl_concat]
  rfl

@[simp] theorem members_join (h : List (Happening κ τ)) (who : κ) :
    members (h ++ [.join who]) = members h ++ [who] := members_concat h _

@[simp] theorem members_say (h : List (Happening κ τ)) (who : κ) (what : τ) :
    members (h ++ [.say who what]) = members h := members_concat h _

@[simp] theorem members_leave (h : List (Happening κ τ)) (who : κ) :
    members (h ++ [.leave who]) = (members h).erase who := members_concat h _

/-- The members are some of those who joined, in the order of their joins. -/
theorem members_sublist (h : List (Happening κ τ)) : (members h).Sublist (joins h) := by
  induction h using List.reverseRecOn with
  | nil => exact List.Sublist.refl _
  | append_singleton h e ih =>
    cases e with
    | join who => simpa using ih
    | say who what => simpa using ih
    | leave who => simpa using List.erase_sublist.trans ih

theorem viewFrom_concat (name : ℕ → ν) (viewer : κ) (before h : List (Happening κ τ)) (e : Happening κ τ) :
    viewFrom name viewer before (h ++ [e]) =
      viewFrom name viewer before h ++ notices name viewer (before ++ h) e := by
  induction h generalizing before with
  | nil => simp [viewFrom]
  | cons d h ih =>
    rw [List.cons_append, viewFrom, viewFrom, ih, List.append_assoc, List.append_assoc, List.singleton_append]

theorem view_concat (name : ℕ → ν) (viewer : κ) (h : List (Happening κ τ)) (e : Happening κ τ) :
    view name viewer (h ++ [e]) = view name viewer h ++ notices name viewer h e :=
  viewFrom_concat name viewer [] h e

/-- A nick name is kept. -/
theorem nickOf_join {name : ℕ → ν} {h : List (Happening κ τ)} {who : κ} (hw : who ∈ joins h) (other : κ) :
    nickOf name (h ++ [.join other]) who = nickOf name h who := by
  rw [nickOf, nickOf, joins_join, List.idxOf_append_of_mem hw]

theorem nickOf_join_self {name : ℕ → ν} {h : List (Happening κ τ)} {who : κ} (hw : who ∉ joins h) :
    nickOf name (h ++ [.join who]) who = name ((joins h).length + 1) := by
  rw [nickOf, joins_join, List.idxOf_append_of_notMem hw, List.idxOf_cons_self, Nat.add_zero]

@[simp] theorem nickOf_leave (name : ℕ → ν) (h : List (Happening κ τ)) (other who : κ) :
    nickOf name (h ++ [.leave other]) who = nickOf name h who := by rw [nickOf, nickOf, joins_leave]

@[simp] theorem nickOf_say (name : ℕ → ν) (h : List (Happening κ τ)) (other who : κ) (what : τ) :
    nickOf name (h ++ [.say other what]) who = nickOf name h who := by rw [nickOf, nickOf, joins_say]

/-- What a member is shown was said, by someone with the nick name of a join. -/
theorem of_said_mem_view {name : ℕ → ν} {viewer : κ} {h : List (Happening κ τ)} {who : ν} {what : τ}
    (hm : .said who what ∈ view name viewer h) : (∃ k, who = name k) ∧ ∃ x, .say x what ∈ h := by
  induction h using List.reverseRecOn with
  | nil => cases hm
  | append_singleton h e ih =>
    rw [view_concat, List.mem_append] at hm
    rcases hm with hm | hm
    · obtain ⟨hname, x, hx⟩ := ih hm
      exact ⟨hname, x, List.mem_append_left _ hx⟩
    · cases e with
      | join other => simp [notices] at hm
      | leave other => simp [notices] at hm
      | say x said =>
        simp only [notices] at hm
        split at hm
        · obtain ⟨rfl, rfl⟩ := Notice.said.inj (List.mem_singleton.mp hm)
          exact ⟨⟨_, rfl⟩, x, List.mem_append_right _ (List.mem_singleton_self _)⟩
        · cases hm

/-- Whoever is said to be gone has the nick name of a join. -/
theorem of_gone_mem_view {name : ℕ → ν} {viewer : κ} {h : List (Happening κ τ)} {who : ν}
    (hm : .gone who ∈ view name viewer h) : ∃ k, who = name k := by
  induction h using List.reverseRecOn with
  | nil => cases hm
  | append_singleton h e ih =>
    rw [view_concat, List.mem_append] at hm
    rcases hm with hm | hm
    · exact ih hm
    · cases e with
      | join other => simp [notices] at hm
      | say x said => simp [notices] at hm
      | leave other =>
        simp only [notices] at hm
        split at hm
        · rw [List.mem_pair] at hm
          rcases hm with hm | hm
          · cases hm
          · exact ⟨_, Notice.gone.inj hm⟩
        · cases hm

/-! ### Several things said at once -/

section
variable (name : ℕ → ν) (h : List (Happening κ τ)) (who : κ) (whats : List τ)

omit [DecidableEq κ] in
theorem joins_says : joins (h ++ whats.map (.say who)) = joins h := by
  simp [joins, List.filterMap_map]

theorem members_says : members (h ++ whats.map (.say who)) = members h := by
  induction whats generalizing h with
  | nil => simp
  | cons what whats ih => rw [List.map_cons, List.append_cons, ih, members_say]

theorem nickOf_says (x : κ) : nickOf name (h ++ whats.map (.say who)) x = nickOf name h x := by
  rw [nickOf, nickOf, joins_says]

theorem view_says (viewer : κ) :
    view name viewer (h ++ whats.map (.say who)) = view name viewer h ++
      if viewer ∈ members h ∧ viewer ≠ who then whats.map (.said (nickOf name h who)) else [] := by
  induction whats generalizing h with
  | nil => simp
  | cons what whats ih =>
    rw [List.map_cons, List.append_cons, ih, view_concat, members_say, nickOf_say, notices, List.append_assoc]
    split <;> rfl

end

end EpollChat.Chat.Room
