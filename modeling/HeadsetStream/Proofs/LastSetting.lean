import Mathlib.Data.List.Basic
import Mathlib.Data.List.Induction

/-!
# The last setting in a history

Of a history in which each occurrence sets a value or leaves it alone, the last setting is what
counts. It is the one after which nothing was set.
-/

namespace HeadsetStream

variable {α β : Type}

/-- The value after a history of which each occurrence may set it. -/
def lastSet (setting : β → Option α) (start : α) (history : List β) : α :=
  history.foldl (fun value occurrence => (setting occurrence).getD value) start

/-- An occurrence in a history is its last, or it is in what was before the last. -/
theorem split_of_append_singleton {history before after : List β} {last occurrence : β}
    (h : history ++ [last] = before ++ occurrence :: after) :
    history = before ∧ last = occurrence ∧ after = [] ∨
      ∃ rest, after = rest ++ [last] ∧ history = before ++ occurrence :: rest := by
  rcases List.eq_nil_or_concat' after with rfl | ⟨rest, final, rfl⟩
  · obtain ⟨hhistory, hlast⟩ := List.append_singleton_inj.mp h
    exact .inl ⟨hhistory, hlast, rfl⟩
  · rw [← List.cons_append, ← List.append_assoc] at h
    obtain ⟨hhistory, rfl⟩ := List.append_singleton_inj.mp h
    exact .inr ⟨rest, rfl, hhistory⟩

section

variable {setting : β → Option α} {start value : α} {history first rest : List β} {occurrence : β}

theorem lastSet_append :
    lastSet setting start (first ++ rest) = lastSet setting (lastSet setting start first) rest :=
  List.foldl_append

@[simp] theorem lastSet_append_singleton :
    lastSet setting start (history ++ [occurrence]) =
      (setting occurrence).getD (lastSet setting start history) :=
  lastSet_append

/-- Occurrences that set nothing can be left out. -/
theorem lastSet_filter {keep : β → Bool} (h : ∀ occurrence, keep occurrence = false →
      setting occurrence = none) :
    lastSet setting start (history.filter keep) = lastSet setting start history := by
  induction history generalizing start with
  | nil => rfl
  | cons occurrence rest ih =>
    cases hkeep : keep occurrence with
    | true =>
      rw [List.filter_cons_of_pos hkeep]
      exact ih
    | false =>
      have hnone := h occurrence hkeep
      rw [List.filter_cons_of_neg (by simp [hkeep]), ih]
      simp [lastSet, hnone]

/-- A value stays while nothing else is set. -/
theorem lastSet_append_of_kept (hfirst : lastSet setting start first = value)
    (h : ∀ occurrence ∈ rest, setting occurrence = none ∨ setting occurrence = some value) :
    lastSet setting start (first ++ rest) = value := by
  induction rest using List.reverseRecOn with
  | nil => rwa [List.append_nil]
  | append_singleton rest occurrence ih =>
    have hrest := ih fun earlier hearlier => h earlier (List.mem_append_left _ hearlier)
    rw [← List.append_assoc, lastSet_append_singleton, hrest]
    rcases h occurrence (by simp) with hnone | hsome
    · rw [hnone, Option.getD_none]
    · rw [hsome, Option.getD_some]

theorem lastSet_of_none (h : ∀ occurrence ∈ history, setting occurrence = none) :
    lastSet setting start history = start := by
  rw [← List.nil_append history]
  exact lastSet_append_of_kept rfl fun occurrence hmem => .inl (h occurrence hmem)

theorem lastSet_eq_iff (hstart : value ≠ start) :
    lastSet setting start history = value ↔
      ∃ before occurrence after, history = before ++ occurrence :: after ∧
        setting occurrence = some value ∧ ∀ later ∈ after, setting later = none := by
  constructor
  · intro hvalue
    induction history using List.reverseRecOn with
    | nil => exact absurd hvalue.symm hstart
    | append_singleton history occurrence ih =>
      rw [lastSet_append_singleton] at hvalue
      cases hset : setting occurrence with
      | none =>
        rw [hset, Option.getD_none] at hvalue
        obtain ⟨before, earlier, after, rfl, hearlier, hafter⟩ := ih hvalue
        refine ⟨before, earlier, after ++ [occurrence], by simp, hearlier, ?_⟩
        intro later hlater
        rcases List.mem_append.mp hlater with hmem | hmem
        · exact hafter later hmem
        · rw [List.mem_singleton.mp hmem, hset]
      | some last =>
        rw [hset, Option.getD_some] at hvalue
        exact ⟨history, occurrence, [], rfl, by rw [hset, hvalue], by simp⟩
  · rintro ⟨before, occurrence, after, rfl, hset, hafter⟩
    rw [List.append_cons]
    apply lastSet_append_of_kept
    · rw [lastSet_append_singleton, hset, Option.getD_some]
    · exact fun later hlater => .inl (hafter later hlater)

end

end HeadsetStream
