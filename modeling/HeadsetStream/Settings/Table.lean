/-!
# Tables keyed by text

A table keeps its entries in the order of their keys, one entry a key; setting a key again replaces
its value. Texts are ordered by their code points, which is also the order of their bytes.
-/

namespace HeadsetStream.Settings

structure Table (α : Type) where
  entries : List (String × α)
  /-- The keys rise from entry to entry. -/
  ordered : entries.Pairwise fun entry later => entry.1 < later.1
  deriving DecidableEq, Repr

namespace Table

variable {α : Type}

def empty : Table α := ⟨[], .nil⟩

instance : EmptyCollection (Table α) := ⟨empty⟩

instance : Inhabited (Table α) := ⟨empty⟩

def isEmpty (table : Table α) : Bool := table.entries.isEmpty

/-- The value under a key. -/
def get? (table : Table α) (key : String) : Option α := table.entries.lookup key

/-- The entries with `key` set to `value`, put in its place in the order. -/
def insertEntry (key : String) (value : α) : List (String × α) → List (String × α)
  | [] => [(key, value)]
  | (k, v) :: rest =>
    if key = k then (key, value) :: rest
    else if key < k then (key, value) :: (k, v) :: rest
    else (k, v) :: insertEntry key value rest

theorem mem_insertEntry {key : String} {value : α} {entry : String × α}
    {entries : List (String × α)} (h : entry ∈ insertEntry key value entries) :
    entry = (key, value) ∨ entry ∈ entries := by
  induction entries with
  | nil => exact .inl (List.mem_singleton.mp h)
  | cons first rest ih =>
    unfold insertEntry at h
    split at h
    · exact (List.mem_cons.mp h).imp id (List.mem_cons_of_mem first)
    · split at h
      · exact List.mem_cons.mp h
      · rcases List.mem_cons.mp h with rfl | hrest
        · exact .inr List.mem_cons_self
        · exact (ih hrest).imp id (List.mem_cons_of_mem first)

theorem pairwise_insertEntry {entries : List (String × α)}
    (h : entries.Pairwise fun entry later => entry.1 < later.1) (key : String) (value : α) :
    (insertEntry key value entries).Pairwise fun entry later => entry.1 < later.1 := by
  induction entries with
  | nil => exact List.pairwise_singleton _ _
  | cons first rest ih =>
    obtain ⟨hfirst, hrest⟩ := List.pairwise_cons.mp h
    unfold insertEntry
    split
    · next hsame =>
      subst hsame
      exact List.pairwise_cons.mpr ⟨hfirst, hrest⟩
    · next hother =>
      split
      · next hbefore =>
        refine List.pairwise_cons.mpr ⟨fun later hlater => ?_, h⟩
        rcases List.mem_cons.mp hlater with rfl | hlater
        · exact hbefore
        · exact String.lt_trans hbefore (hfirst later hlater)
      · next hbehind =>
        have hlt : first.1 < key := Std.lt_of_le_of_ne (String.not_lt.mp hbehind) (Ne.symm hother)
        refine List.pairwise_cons.mpr ⟨fun later hlater => ?_, ih hrest⟩
        rcases mem_insertEntry hlater with rfl | hlater
        · exact hlt
        · exact hfirst later hlater

def insert (table : Table α) (key : String) (value : α) : Table α :=
  ⟨insertEntry key value table.entries, pairwise_insertEntry table.ordered key value⟩

/-- The table that setting these entries one after the other makes. -/
def ofList (entries : List (String × α)) : Table α :=
  entries.foldl (fun table (key, value) => table.insert key value) empty

/-- `table` with all entries of another set on top, their values as `f` makes them. -/
def overlay {β : Type} (table : Table α) (f : β → α) (other : Table β) : Table α :=
  other.entries.foldl (fun table (key, value) => table.insert key (f value)) table

@[simp] theorem get?_empty (key : String) : (empty : Table α).get? key = none := rfl

theorem lookup_insertEntry (key key' : String) (value : α) (entries : List (String × α)) :
    (insertEntry key value entries).lookup key' =
      if key' = key then some value else entries.lookup key' := by
  induction entries with
  | nil =>
    by_cases h : key' = key <;> simp [insertEntry, List.lookup_cons, beq_eq_false_iff_ne.mpr, h]
  | cons entry rest ih =>
    obtain ⟨k, v⟩ := entry
    unfold insertEntry
    by_cases hk : key = k
    · subst k
      by_cases h : key' = key <;> simp [List.lookup_cons, beq_eq_false_iff_ne.mpr, h]
    · rw [if_neg hk]
      split
      · by_cases h : key' = key <;> simp [List.lookup_cons, beq_eq_false_iff_ne.mpr, h]
      · by_cases h : key' = k
        · subst key'
          rw [if_neg (Ne.symm hk)]
          simp
        · simp [List.lookup_cons, beq_eq_false_iff_ne.mpr h, ih]

/-- A key that was set has its value, and every other key keeps the one it had. -/
@[simp] theorem get?_insert (table : Table α) (key key' : String) (value : α) :
    (table.insert key value).get? key' = if key' = key then some value else table.get? key' :=
  lookup_insertEntry ..

end Table

end HeadsetStream.Settings
