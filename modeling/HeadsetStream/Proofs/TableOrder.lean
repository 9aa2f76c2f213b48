import HeadsetStream.Settings.Table
import Mathlib.Data.List.Induction
import Mathlib.Data.String.Basic

/-!
# What the order of a table is for

The keys of a table rise from entry to entry. So no key has two entries, an entry is found under its
key, and two tables with the same values under the same keys are the same.
-/

namespace HeadsetStream.Settings

namespace Table

variable {α β : Type} {key : String} {value : α}

private theorem lookup_eq_none_of_lt {entries : List (String × α)}
    (h : ∀ entry ∈ entries, key < entry.1) : entries.lookup key = none := by
  rw [List.lookup_eq_none_iff]
  intro entry hmem
  exact bne_iff_ne.mpr (ne_of_lt (h entry hmem))

theorem mem_entries_iff (table : Table α) :
    (key, value) ∈ table.entries ↔ table.get? key = some value := by
  obtain ⟨entries, h⟩ := table
  unfold get?
  induction entries with
  | nil => simp
  | cons first rest ih =>
    obtain ⟨hfirst, hrest⟩ := List.pairwise_cons.mp h
    obtain ⟨name, held⟩ := first
    rw [List.mem_cons, List.lookup_cons]
    by_cases hkey : key = name
    · subst hkey
      have hmem : (key, value) ∉ rest := fun hmem => lt_irrefl key (hfirst (key, value) hmem)
      simp [hmem, eq_comm]
    · rw [beq_eq_false_iff_ne.mpr hkey, ← ih hrest]
      simp [hkey]

/-- What is laid on covers what was there. -/
theorem get?_overlay (table : Table α) (f : β → α) (other : Table β) (key : String) :
    (table.overlay f other).get? key = ((other.get? key).map f).or (table.get? key) := by
  obtain ⟨entries, h⟩ := other
  unfold Table.overlay
  simp only [get?] at *
  induction entries generalizing table with
  | nil => rfl
  | cons entry rest ih =>
    obtain ⟨hfirst, hrest⟩ := List.pairwise_cons.mp h
    rw [List.foldl_cons, ih (table.insert entry.1 (f entry.2)) hrest]
    have hinsert := table.get?_insert entry.1 key (f entry.2)
    simp only [get?] at hinsert
    rw [hinsert]
    by_cases hkey : key = entry.1
    · subst hkey
      rw [lookup_eq_none_of_lt hfirst, List.lookup_cons, beq_self_eq_true]
      simp
    · rw [if_neg hkey, List.lookup_cons, beq_eq_false_iff_ne.mpr hkey]

/-- Of the entries with a key the last one holds. -/
theorem get?_ofList (entries : List (String × α)) (key : String) :
    (ofList entries).get? key = entries.reverse.lookup key := by
  induction entries using List.reverseRecOn with
  | nil => rfl
  | append_singleton entries entry ih =>
    have hconcat : ofList (entries ++ [entry]) = (ofList entries).insert entry.1 entry.2 := by
      rw [ofList, List.foldl_append]
      rfl
    rw [hconcat, get?_insert, ih, List.reverse_append, List.reverse_singleton,
      List.singleton_append, List.lookup_cons]
    by_cases hkey : key = entry.1
    · simp [hkey]
    · simp [hkey, beq_eq_false_iff_ne.mpr hkey]

theorem nodup_entries (table : Table α) : table.entries.Nodup :=
  table.ordered.imp fun hlt heq => ne_of_lt hlt (congrArg Prod.fst heq)

/-- A table is known by what it has under each key. -/
theorem eq_of_get? {table other : Table α} (hget : ∀ key, table.get? key = other.get? key) :
    table = other := by
  have hperm : table.entries.Perm other.entries := by
    rw [List.perm_ext_iff_of_nodup table.nodup_entries other.nodup_entries]
    rintro ⟨key, value⟩
    rw [mem_entries_iff, mem_entries_iff, hget]
  have hentries : table.entries = other.entries :=
    hperm.eq_of_pairwise (fun _ _ _ _ hlt hlt' => absurd hlt' (lt_asymm hlt)) table.ordered
      other.ordered
  cases table
  cases other
  cases hentries
  rfl

end Table

end HeadsetStream.Settings
