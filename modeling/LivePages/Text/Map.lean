import LivePages.Text.Order

namespace LivePages

/-- Entries under distinct texts, kept in the order of the texts. -/
structure TextMap (α : Type) where
  entries : List (String × α)
  sorted : entries.Pairwise fun a b => textBefore a.1 b.1 = true

namespace TextMap

variable {α : Type}

def empty : TextMap α :=
  ⟨[], .nil⟩

/-- Puts an entry in its place; an entry under the same text goes. -/
def insertInto (key : String) (value : α) : List (String × α) → List (String × α)
  | [] => [(key, value)]
  | (k, v) :: rest =>
    if key = k then (key, value) :: rest
    else if textBefore key k then (key, value) :: (k, v) :: rest
    else (k, v) :: insertInto key value rest

theorem mem_insertInto {key : String} {value : α} {entry : String × α}
    {entries : List (String × α)} (h : entry ∈ insertInto key value entries) :
    entry = (key, value) ∨ entry ∈ entries := by
  induction entries with
  | nil => exact .inl (List.mem_singleton.mp h)
  | cons first rest ih =>
    obtain ⟨k, v⟩ := first
    simp only [insertInto] at h
    split at h
    · rcases List.mem_cons.mp h with h | h
      · exact .inl h
      · exact .inr (List.mem_cons_of_mem _ h)
    · split at h
      · rcases List.mem_cons.mp h with h | h
        · exact .inl h
        · exact .inr h
      · rcases List.mem_cons.mp h with h | h
        · exact .inr (h ▸ List.mem_cons_self)
        · exact (ih h).imp id (List.mem_cons_of_mem _)

theorem sorted_insertInto (key : String) (value : α) {entries : List (String × α)}
    (h : entries.Pairwise fun a b => textBefore a.1 b.1 = true) :
    (insertInto key value entries).Pairwise fun a b => textBefore a.1 b.1 = true := by
  induction entries with
  | nil => simp [insertInto]
  | cons first rest ih =>
    obtain ⟨k, v⟩ := first
    obtain ⟨head, tail⟩ := List.pairwise_cons.mp h
    simp only [insertInto]
    split
    next e =>
      subst e
      exact List.pairwise_cons.mpr ⟨head, tail⟩
    next ne =>
      split
      next before =>
        refine List.pairwise_cons.mpr ⟨?_, h⟩
        intro b hb
        rcases List.mem_cons.mp hb with rfl | hb
        · exact before
        · exact textBefore_trans before (head b hb)
      next after =>
        refine List.pairwise_cons.mpr ⟨?_, ih tail⟩
        intro b hb
        rcases mem_insertInto hb with rfl | hb
        · exact textBefore_of_ne ne (by simpa using after)
        · exact head b hb

def insert (m : TextMap α) (key : String) (value : α) : TextMap α :=
  ⟨insertInto key value m.entries, sorted_insertInto key value m.sorted⟩

def lookup (m : TextMap α) (key : String) : Option α :=
  m.entries.lookup key

def contains (m : TextMap α) (key : String) : Bool :=
  (m.lookup key).isSome

def keys (m : TextMap α) : List String :=
  m.entries.map Prod.fst

def size (m : TextMap α) : Nat :=
  m.entries.length

def isEmpty (m : TextMap α) : Bool :=
  m.entries.isEmpty

/-- Of entries under one text the last counts. -/
def ofList (entries : List (String × α)) : TextMap α :=
  entries.foldl (fun m (key, value) => m.insert key value) empty

end TextMap

end LivePages
