import EpollChat.Chat.Room

/-! What is said in a room, in its one order, and the part of it that a member
attends. A member is shown just that part, but what it says itself, and the count
that it was shown last is the number of members. -/

namespace EpollChat.Chat.Room

variable {κ ν τ : Type}

/-- What was said, and by whom. -/
def talk (history : List (Happening κ τ)) : List (κ × τ) :=
  history.filterMap fun
    | .say who what => some (who, what)
    | _ => none

/-- What was said, of the notices. -/
def saids (notices : List (Notice ν τ)) : List (ν × τ) :=
  notices.filterMap fun
    | .said who what => some (who, what)
    | _ => none

/-- The counts, of the notices. -/
def counts (notices : List (Notice ν τ)) : List ℕ :=
  notices.filterMap fun
    | .present count => some count
    | _ => none

@[simp] theorem talk_join (h : List (Happening κ τ)) (who : κ) : talk (h ++ [.join who]) = talk h := by simp [talk]

@[simp] theorem talk_say (h : List (Happening κ τ)) (who : κ) (what : τ) :
    talk (h ++ [.say who what]) = talk h ++ [(who, what)] := by simp [talk]

@[simp] theorem talk_leave (h : List (Happening κ τ)) (who : κ) : talk (h ++ [.leave who]) = talk h := by simp [talk]

@[simp] theorem saids_append (ns ms : List (Notice ν τ)) : saids (ns ++ ms) = saids ns ++ saids ms :=
  List.filterMap_append

@[simp] theorem counts_append (ns ms : List (Notice ν τ)) : counts (ns ++ ms) = counts ns ++ counts ms :=
  List.filterMap_append

variable [DecidableEq κ]

/-- Who says something, or leaves. -/
def actor : Happening κ τ → Option κ
  | .join _ => none
  | .say who _ => some who
  | .leave who => some who

/-- Only members say something, or leave. -/
def Orderly (history : List (Happening κ τ)) : Prop :=
  ∀ before e after, history = before ++ e :: after → ∀ who ∈ actor e, who ∈ members before

theorem orderly_nil : Orderly ([] : List (Happening κ τ)) := fun before _ _ h => by
  cases before <;> cases h

theorem Orderly.concat {h : List (Happening κ τ)} {e : Happening κ τ} (hh : Orderly h)
    (he : ∀ who ∈ actor e, who ∈ members h) : Orderly (h ++ [e]) := by
  intro before e' after heq
  rcases List.eq_nil_or_concat' after with rfl | ⟨after, last, rfl⟩
  · obtain ⟨rfl, rfl⟩ := List.append_singleton_inj.mp heq
    exact he
  · rw [← List.cons_append, ← List.append_assoc, List.append_singleton_inj] at heq
    exact hh before e' after heq.1

theorem Orderly.of_concat {h : List (Happening κ τ)} {e : Happening κ τ} (hh : Orderly (h ++ [e])) :
    Orderly h ∧ ∀ who ∈ actor e, who ∈ members h :=
  ⟨fun before e' after heq => hh before e' (after ++ [e]) (by rw [heq]; simp), hh h e [] rfl⟩

theorem mem_joins_of_mem_talk {h : List (Happening κ τ)} (hh : Orderly h) {x : κ × τ} (hx : x ∈ talk h) :
    x.1 ∈ joins h := by
  obtain ⟨e, he, hsome⟩ := List.mem_filterMap.mp hx
  cases e with
  | join who => cases hsome
  | leave who => cases hsome
  | say who what =>
    cases hsome
    obtain ⟨before, after, rfl⟩ := List.append_of_mem he
    have hjoined := (members_sublist before).subset (hh before _ after rfl who rfl)
    rw [joins, List.filterMap_append]
    exact List.mem_append_left _ hjoined

/-- The part of what is said that `viewer` attends, and how it is shown to it. -/
structure Attends (name : ℕ → ν) (viewer : κ) (h : List (Happening κ τ)) (part : List (κ × τ)) : Prop where
  shown : saids (view name viewer h) =
    (part.filter fun x => x.1 ≠ viewer).map fun x => (nickOf name h x.1, x.2)
  inside : ∃ before after, talk h = before ++ part ++ after ∧ (viewer ∈ members h → after = []) ∧
    (viewer ∉ joins h → part = [] ∧ after = [])

variable {name : ℕ → ν} {viewer : κ} {h : List (Happening κ τ)} {part : List (κ × τ)}

theorem saids_notices_of_not_say {e : Happening κ τ} (he : ∀ who what, e ≠ .say who what) :
    saids (notices name viewer h e) = [] := by
  cases e with
  | join who => simp only [notices]; split <;> rfl
  | leave who => simp only [notices]; split <;> rfl
  | say who what => exact absurd rfl (he who what)

/-- The nick names of those who have said something are kept. -/
theorem map_nickOf_join {other : κ} (hpart : ∀ x ∈ part, x.1 ∈ joins h) :
    (part.filter fun x => x.1 ≠ viewer).map (fun x => (nickOf name (h ++ [.join other]) x.1, x.2)) =
      (part.filter fun x => x.1 ≠ viewer).map fun x => (nickOf name h x.1, x.2) := by
  refine List.map_congr_left fun x hx => ?_
  rw [nickOf_join (hpart x (List.mem_of_mem_filter hx))]

theorem Attends.join (ha : Attends name viewer h part) (hh : Orderly h) {who : κ} (hnew : who ∉ joins h) :
    Attends name viewer (h ++ [.join who]) part := by
  obtain ⟨hshown, before, after, htalk, hmember, hnot⟩ := ha
  refine ⟨?_, before, after, by rwa [talk_join], fun hm => ?_, fun hj => ?_⟩
  · have hpart : ∀ x ∈ part, x.1 ∈ joins h := fun x hx => mem_joins_of_mem_talk hh (by simp [htalk, hx])
    rw [view_concat, saids_append, saids_notices_of_not_say (by simp), List.append_nil, hshown, map_nickOf_join hpart]
  · rw [members_join, List.mem_append, List.mem_singleton] at hm
    rcases hm with hm | rfl
    · exact hmember hm
    · exact (hnot hnew).2
  · rw [joins_join, List.mem_append, not_or] at hj
    exact hnot hj.1

theorem Attends.leave (ha : Attends name viewer h part) (who : κ) : Attends name viewer (h ++ [.leave who]) part := by
  obtain ⟨hshown, before, after, htalk, hmember, hnot⟩ := ha
  refine ⟨?_, before, after, by rwa [talk_leave], fun hm => ?_, fun hj => ?_⟩
  · rw [view_concat, saids_append, saids_notices_of_not_say (by simp), List.append_nil, hshown]
    simp only [nickOf_leave]
  · rw [members_leave] at hm
    exact hmember (List.mem_of_mem_erase hm)
  · rw [joins_leave] at hj
    exact hnot hj

/-- What is said is attended by the members. -/
theorem Attends.say (ha : Attends name viewer h part) (who : κ) (what : τ) :
    Attends name viewer (h ++ [.say who what]) (if viewer ∈ members h then part ++ [(who, what)] else part) := by
  obtain ⟨hshown, before, after, htalk, hmember, hnot⟩ := ha
  constructor
  · rw [view_concat, saids_append, hshown, notices]
    simp only [nickOf_say]
    by_cases hm : viewer ∈ members h
    · by_cases hne : viewer = who
      · subst hne
        simp [hm, saids]
      · simp [hm, hne, Ne.symm hne, saids]
    · simp [hm, saids]
  · rw [members_say, joins_say, talk_say, htalk]
    by_cases hm : viewer ∈ members h
    · rw [if_pos hm, hmember hm]
      exact ⟨before, [], by simp, fun _ => rfl, fun hj => absurd ((members_sublist h).subset hm) hj⟩
    · rw [if_neg hm]
      by_cases hj : viewer ∈ joins h
      · exact ⟨before, after ++ [(who, what)], by simp, fun h => absurd h hm, fun h => absurd hj h⟩
      · obtain ⟨rfl, rfl⟩ := hnot hj
        exact ⟨before ++ [(who, what)], [], by simp, fun _ => rfl, fun _ => ⟨rfl, rfl⟩⟩

/-- Whoever joins at most once attends one part of what is said, up to its leave. -/
theorem exists_attends (name : ℕ → ν) (viewer : κ) (hnodup : (joins h).Nodup) (hh : Orderly h) :
    ∃ part, Attends name viewer h part := by
  induction h using List.reverseRecOn with
  | nil => exact ⟨[], rfl, [], [], rfl, fun _ => rfl, fun _ => ⟨rfl, rfl⟩⟩
  | append_singleton h e ih =>
    cases e with
    | join who =>
      rw [joins_join, List.nodup_append] at hnodup
      obtain ⟨part, ha⟩ := ih hnodup.1 hh.of_concat.1
      exact ⟨part, ha.join hh.of_concat.1 fun hm => hnodup.2.2 who hm who (by simp) rfl⟩
    | say who what =>
      rw [joins_say] at hnodup
      obtain ⟨part, ha⟩ := ih hnodup hh.of_concat.1
      exact ⟨_, ha.say who what⟩
    | leave who =>
      rw [joins_leave] at hnodup
      obtain ⟨part, ha⟩ := ih hnodup hh.of_concat.1
      exact ⟨part, ha.leave who⟩

/-! ### Counts -/

/-- The last count that a member was shown is the number of members. -/
theorem getLast?_counts (name : ℕ → ν) (hm : viewer ∈ members h) :
    (counts (view name viewer h)).getLast? = some (members h).length := by
  induction h using List.reverseRecOn with
  | nil => cases hm
  | append_singleton h e ih =>
    rw [view_concat, counts_append]
    cases e with
    | join who =>
      rw [notices, if_pos hm]
      exact List.getLast?_concat ..
    | leave who =>
      rw [notices, if_pos hm]
      exact List.getLast?_concat ..
    | say who what =>
      rw [members_say] at hm ⊢
      have hnone : counts (notices name viewer h (.say who what)) = [] := by
        simp only [notices]
        split <;> rfl
      rw [hnone, List.append_nil, ih hm]

end EpollChat.Chat.Room
