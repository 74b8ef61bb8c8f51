import LivePages.Files.Tree
import Mathlib.Data.List.Infix
import Mathlib.Data.List.Nodup

namespace LivePages

/-- A name under which an entry of a directory can stand. -/
structure IsFileName (name : String) : Prop where
  ne_empty : name ≠ ""
  ne_dot : name ≠ "."
  ne_dots : name ≠ ".."
  slash : '/' ∉ name.toList

instance (name : String) : Decidable (IsFileName name) :=
  decidable_of_iff (name ≠ "" ∧ name ≠ "." ∧ name ≠ ".." ∧ '/' ∉ name.toList)
    ⟨fun ⟨h₁, h₂, h₃, h₄⟩ => ⟨h₁, h₂, h₃, h₄⟩, fun ⟨h₁, h₂, h₃, h₄⟩ => ⟨h₁, h₂, h₃, h₄⟩⟩

/-- What is to be seen of a file or a directory without looking into the directory. -/
inductive FileNode where
  | file (content : List UInt8)
  | directory
  deriving DecidableEq

namespace FileTree

def node : FileTree → FileNode
  | file content => .file content
  | directory _ => .directory

/-- What stands in a place. -/
def node? (t : FileTree) (place : List String) : Option FileNode :=
  (t.find? place).map node

/-- No directory has two entries of one name. -/
inductive Named : FileTree → Prop where
  | file (content : List UInt8) : Named (file content)
  | directory {entries : List (String × FileTree)} (nodup : (entries.map Prod.fst).Nodup)
    (names : ∀ e ∈ entries, IsFileName e.1) (trees : ∀ e ∈ entries, Named e.2) :
    Named (directory entries)

/-- Nothing stands below a file or an empty directory. -/
def IsLeaf (t : FileTree) : Prop :=
  ∀ place, place ≠ [] → t.find? place = none

theorem isLeaf_file (content : List UInt8) : (file content).IsLeaf := by
  intro place hne
  obtain ⟨name, rest, rfl⟩ := List.exists_cons_of_ne_nil hne
  rfl

theorem isLeaf_empty : (directory []).IsLeaf := by
  intro place hne
  obtain ⟨name, rest, rfl⟩ := List.exists_cons_of_ne_nil hne
  rfl

variable {t u new old : FileTree} {entries : List (String × FileTree)} {name n : String}
  {place parent rest q : List String}

theorem find?_nil (t : FileTree) : t.find? [] = some t := by
  cases t <;> rfl

theorem find?_append (t : FileTree) (place rest : List String) :
    t.find? (place ++ rest) = (t.find? place).bind fun u => u.find? rest := by
  induction place generalizing t with
  | nil => rw [find?_nil, List.nil_append, Option.bind_some]
  | cons name place ih =>
    cases t with
    | file content => rfl
    | directory entries =>
      simp only [List.cons_append, find?]
      cases entries.lookup name with
      | none => rfl
      | some u => exact ih u

theorem node?_append (h : t.find? place = some u) (rest : List String) :
    t.node? (place ++ rest) = u.node? rest := by
  rw [node?, find?_append, h, Option.bind_some, node?]

theorem find?_of_node?_directory (h : t.node? place = some .directory) :
    ∃ entries, t.find? place = some (directory entries) := by
  obtain ⟨u, hu, hn⟩ := Option.map_eq_some_iff.mp h
  cases u with
  | file content => cases hn
  | directory entries => exact ⟨entries, hu⟩

theorem find?_of_node?_file {content : List UInt8} (h : t.node? place = some (.file content)) :
    t.find? place = some (file content) := by
  obtain ⟨u, hu, hn⟩ := Option.map_eq_some_iff.mp h
  cases u with
  | file content' =>
    cases hn
    exact hu
  | directory entries => cases hn

/-- Only a directory has something below it. -/
theorem node?_parent (h : t.node? (place ++ rest) ≠ none) (hr : rest ≠ []) :
    t.node? place = some .directory := by
  rw [node?, find?_append] at h
  rw [node?]
  cases hu : t.find? place with
  | none =>
    rw [hu] at h
    exact absurd rfl h
  | some u =>
    cases u with
    | directory entries => rfl
    | file content =>
      rw [hu, Option.bind_some, isLeaf_file content rest hr] at h
      exact absurd rfl h

theorem lookup_setEntry (name n : String) (u : FileTree) (entries : List (String × FileTree)) :
    (setEntry name u entries).lookup n = if n = name then some u else entries.lookup n := by
  induction entries with
  | nil =>
    rw [setEntry, List.lookup_cons]
    by_cases hn : n = name
    · simp [hn]
    · simp [hn, beq_eq_false_iff_ne.mpr hn]
  | cons entry entries ih =>
    obtain ⟨m, old⟩ := entry
    by_cases hm : m = name
    · subst hm
      rw [setEntry, if_pos rfl, List.lookup_cons, List.lookup_cons]
      by_cases hn : n = m
      · simp [hn]
      · simp [hn, beq_eq_false_iff_ne.mpr hn]
    · rw [setEntry, if_neg hm, List.lookup_cons, List.lookup_cons, ih]
      by_cases hn : n = m
      · subst hn
        simp [hm]
      · simp [beq_eq_false_iff_ne.mpr hn]

theorem lookup_filter_ne (name : String) (entries : List (String × FileTree)) (n : String) :
    (entries.filter fun entry => entry.1 != name).lookup n =
      if n = name then none else entries.lookup n := by
  induction entries with
  | nil => simp
  | cons entry entries ih =>
    by_cases he : entry.1 = name
    · rw [List.filter_cons_of_neg (by simp [he]), ih, List.lookup_cons]
      by_cases hn : n = name
      · rw [if_pos hn, if_pos hn]
      · rw [if_neg hn, if_neg hn, he, beq_eq_false_iff_ne.mpr hn]
    · rw [List.filter_cons_of_pos (by simp [he]), List.lookup_cons, List.lookup_cons, ih]
      by_cases hn : n = entry.1
      · subst hn
        simp [he]
      · rw [beq_eq_false_iff_ne.mpr hn]

theorem node?_of_lookup (hl : entries.lookup name = some u) (rest : List String) :
    (directory entries).node? (name :: rest) = u.node? rest := by
  simp [node?, find?, hl]

theorem node?_setEntry (name n : String) (u : FileTree) (entries : List (String × FileTree))
    (rest : List String) :
    (directory (setEntry name u entries)).node? (n :: rest) =
      if n = name then u.node? rest else (directory entries).node? (n :: rest) := by
  simp only [node?, find?, lookup_setEntry]
  split_ifs
  · rfl
  · rfl

/-- A change of one place in an entry is a change of one place in the directory. -/
theorem node?_setEntry_of_eq {seen : Option FileNode} (hl : entries.lookup name = some old)
    (h : ∀ rest, new.node? rest = if rest = place then seen else old.node? rest) (q : List String) :
    (directory (setEntry name new entries)).node? q =
      if q = name :: place then seen else (directory entries).node? q := by
  cases q with
  | nil => rfl
  | cons m rest =>
    rw [node?_setEntry]
    by_cases hm : m = name
    · subst hm
      rw [if_pos rfl, h, node?_of_lookup hl]
      simp only [List.cons.injEq, true_and]
    · rw [if_neg hm, if_neg fun e => hm (List.cons.inj e).1]

theorem IsLeaf.node?_eq (h : u.IsLeaf) (rest : List String) :
    u.node? rest = if rest = [] then some u.node else none := by
  by_cases hr : rest = []
  · rw [if_pos hr, hr, node?, find?_nil, Option.map_some]
  · rw [if_neg hr, node?, h rest hr, Option.map_none]

/-- A leaf that is put into a directory is seen under its name alone. -/
theorem node?_setEntry_leaf (hnew : new.IsLeaf) (hold : ∀ u, entries.lookup name = some u → u.IsLeaf)
    (q : List String) :
    (directory (setEntry name new entries)).node? q =
      if q = [name] then some new.node else (directory entries).node? q := by
  cases hl : entries.lookup name with
  | some old =>
    refine node?_setEntry_of_eq hl (fun rest => ?_) q
    rw [hnew.node?_eq, (hold old hl).node?_eq]
    split_ifs
    · rfl
    · rfl
  | none =>
    cases q with
    | nil => rfl
    | cons m rest =>
      rw [node?_setEntry, hnew.node?_eq]
      by_cases hm : m = name
      · subst hm
        simp [node?, find?, hl]
      · rw [if_neg hm, if_neg fun e => hm (List.cons.inj e).1]

/-- What is put in a place is seen there, and all else stays as it was. -/
theorem node?_put (hnew : new.IsLeaf) (hp : t.node? parent = some .directory)
    (hold : ∀ u, t.find? (parent ++ [n]) = some u → u.IsLeaf) (q : List String) :
    (put new t (parent ++ [n])).node? q = if q = parent ++ [n] then some new.node else t.node? q := by
  induction parent generalizing t q with
  | nil =>
    obtain ⟨entries, hf⟩ := find?_of_node?_directory hp
    cases Option.some.inj ((find?_nil t).symm.trans hf)
    have hput : put new (directory entries) [n] = directory (setEntry n new entries) := by
      unfold put
      cases entries.lookup n <;> simp [put]
    rw [List.nil_append, hput]
    refine node?_setEntry_leaf hnew (fun u hu => hold u ?_) q
    simp [find?, hu]
  | cons m parent ih =>
    cases t with
    | file content => cases hp
    | directory entries =>
      cases hl : entries.lookup m with
      | none => simp [node?, find?, hl] at hp
      | some old =>
        have hput : put new (directory entries) (m :: (parent ++ [n])) =
            directory (setEntry m (put new old (parent ++ [n])) entries) := by
          simp [put, hl]
        rw [List.cons_append, hput]
        rw [node?_of_lookup hl] at hp
        refine node?_setEntry_of_eq hl (fun rest => ih hp (fun u hu => hold u ?_) rest) q
        rw [List.cons_append, find?, hl]
        exact hu

theorem node?_remove {content : List UInt8} (hne : place ≠ [])
    (hold : t.find? place = some (file content)) (q : List String) :
    (t.remove place).node? q = if q = place then none else t.node? q := by
  induction place generalizing t q with
  | nil => exact absurd rfl hne
  | cons m place ih =>
    cases t with
    | file _ => cases hold
    | directory entries =>
      cases hl : entries.lookup m with
      | none => simp [find?, hl] at hold
      | some old =>
        rw [find?, hl, Option.bind_some] at hold
        cases place with
        | nil =>
          rw [find?_nil] at hold
          cases hold
          cases q with
          | nil => rfl
          | cons k rest =>
            by_cases hk : k = m
            · subst hk
              rw [node?_of_lookup hl, (isLeaf_file content).node?_eq]
              simp [remove, node?, find?, lookup_filter_ne]
            · simp [remove, node?, find?, lookup_filter_ne, hk]
        | cons m' place =>
          have hremove : (directory entries).remove (m :: m' :: place) =
              directory (setEntry m (old.remove (m' :: place)) entries) := by
            simp only [remove, hl]
          rw [hremove]
          exact node?_setEntry_of_eq hl (fun rest => ih (List.cons_ne_nil _ _) hold rest) q

theorem mem_of_lookup {name : String} (h : entries.lookup name = some u) : (name, u) ∈ entries := by
  obtain ⟨before, after, rfl, -⟩ := List.lookup_eq_some_iff.mp h
  simp

theorem lookup_of_mem (hn : (entries.map Prod.fst).Nodup) (h : (name, u) ∈ entries) :
    entries.lookup name = some u := by
  obtain ⟨before, after, rfl⟩ := List.append_of_mem h
  rw [List.map_append, List.map_cons, List.nodup_append] at hn
  refine List.lookup_eq_some_iff.mpr ⟨before, after, rfl, ?_⟩
  intro entry he
  rw [bne_iff_ne, ne_comm]
  exact hn.2.2 entry.1 (List.mem_map_of_mem he) name List.mem_cons_self

theorem mem_setEntry {name : String} {entry : String × FileTree}
    (h : entry ∈ setEntry name u entries) : entry = (name, u) ∨ entry ∈ entries := by
  induction entries with
  | nil => exact .inl (List.mem_singleton.mp h)
  | cons first entries ih =>
    obtain ⟨m, old⟩ := first
    by_cases hm : m = name
    · rw [setEntry, if_pos hm, hm] at h
      rcases List.mem_cons.mp h with rfl | h
      · exact .inl rfl
      · exact .inr (List.mem_cons_of_mem _ h)
    · rw [setEntry, if_neg hm] at h
      rcases List.mem_cons.mp h with rfl | h
      · exact .inr List.mem_cons_self
      · exact (ih h).imp_right (List.mem_cons_of_mem _)

theorem nodup_setEntry (name : String) (u : FileTree) (h : (entries.map Prod.fst).Nodup) :
    ((setEntry name u entries).map Prod.fst).Nodup := by
  induction entries with
  | nil => simp [setEntry]
  | cons first entries ih =>
    obtain ⟨m, old⟩ := first
    obtain ⟨hm, hn⟩ := List.nodup_cons.mp h
    by_cases he : m = name
    · rw [setEntry, if_pos he]
      exact h
    · rw [setEntry, if_neg he, List.map_cons, List.nodup_cons]
      refine ⟨?_, ih hn⟩
      intro hmem
      obtain ⟨entry, hentry, hname⟩ := List.mem_map.mp hmem
      rcases mem_setEntry hentry with rfl | hentry
      · exact he hname.symm
      · exact hm (hname ▸ List.mem_map_of_mem hentry)

namespace Named

/-- An entry of a valid name can take the place of another one, or stand beside the others. -/
theorem setEntry (h : (FileTree.directory entries).Named) (hn : IsFileName name) (hu : u.Named) :
    (FileTree.directory (FileTree.setEntry name u entries)).Named := by
  cases h with
  | directory nodup names trees =>
    refine .directory (nodup_setEntry name u nodup) ?_ ?_
    · intro entry he
      rcases mem_setEntry he with rfl | he
      · exact hn
      · exact names entry he
    · intro entry he
      rcases mem_setEntry he with rfl | he
      · exact hu
      · exact trees entry he

theorem put (h : t.Named) (hnew : new.Named) (hplace : ∀ name ∈ place, IsFileName name) :
    (FileTree.put new t place).Named := by
  induction place generalizing t with
  | nil => simpa [FileTree.put] using hnew
  | cons name place ih =>
    rw [List.forall_mem_cons] at hplace
    cases t with
    | file content => exact h
    | directory entries =>
      unfold FileTree.put
      cases hl : entries.lookup name with
      | some old =>
        apply h.setEntry hplace.1
        cases h with
        | directory _ _ trees => exact ih (trees _ (mem_of_lookup hl)) hplace.2
      | none =>
        show Named (if place.isEmpty then _ else _)
        split
        next => exact h.setEntry hplace.1 hnew
        next => exact h

theorem remove (h : t.Named) (place : List String) : (t.remove place).Named := by
  induction place generalizing t with
  | nil => simpa [FileTree.remove] using h
  | cons name place ih =>
    cases t with
    | file content => exact h
    | directory entries =>
      cases place with
      | nil =>
        cases h with
        | directory nodup names trees =>
          refine .directory (nodup.sublist (List.filter_sublist.map _)) ?_ ?_
          · intro entry he
            exact names entry (List.mem_filter.mp he).1
          · intro entry he
            exact trees entry (List.mem_filter.mp he).1
      | cons name' place =>
        unfold FileTree.remove
        cases hl : entries.lookup name with
        | none => exact h
        | some old =>
          have hmem := mem_of_lookup hl
          apply h.setEntry
          · cases h with
            | directory _ names _ => exact names _ hmem
          · cases h with
            | directory _ _ trees => exact ih (trees _ hmem)

/-- What stands in a place has distinct names too, and valid names lead to it. -/
theorem find? (h : t.Named) (hf : t.find? place = some u) :
    u.Named ∧ ∀ name ∈ place, IsFileName name := by
  induction place generalizing t with
  | nil =>
    rw [find?_nil] at hf
    cases hf
    exact ⟨h, by simp⟩
  | cons name place ih =>
    cases h with
    | file content => cases hf
    | directory nodup names trees =>
      obtain ⟨old, hl, hf⟩ := Option.bind_eq_some_iff.mp hf
      obtain ⟨hu, hplace⟩ := ih (trees _ (mem_of_lookup hl)) hf
      exact ⟨hu, List.forall_mem_cons.mpr ⟨names _ (mem_of_lookup hl), hplace⟩⟩

end Named

theorem mem_entryContents : (place, u) ∈ entryContents entries ↔
    ∃ e ∈ entries, place = [e.1] ∧ u = e.2 ∨ ∃ rest, place = e.1 :: rest ∧ (rest, u) ∈ e.2.contents := by
  induction entries with
  | nil => simp [entryContents]
  | cons entry entries ih =>
    rw [entryContents, List.cons_append, List.mem_cons, List.mem_append, ih, List.mem_map]
    constructor
    · rintro (he | ⟨⟨rest, v⟩, hm, he⟩ | ⟨e, hm, h⟩)
      · cases he
        exact ⟨entry, List.mem_cons_self, .inl ⟨rfl, rfl⟩⟩
      · cases he
        exact ⟨entry, List.mem_cons_self, .inr ⟨rest, rfl, hm⟩⟩
      · exact ⟨e, List.mem_cons_of_mem _ hm, h⟩
    · rintro ⟨e, hm, h⟩
      rcases List.mem_cons.mp hm with rfl | hm
      · rcases h with ⟨rfl, rfl⟩ | ⟨rest, rfl, h⟩
        · exact .inl rfl
        · exact .inr (.inl ⟨(rest, u), h, rfl⟩)
      · exact .inr (.inr ⟨e, hm, h⟩)

/-- The contents of a tree are what stands in all its places but the first. -/
theorem Named.mem_contents (h : t.Named) :
    (place, u) ∈ t.contents ↔ place ≠ [] ∧ t.find? place = some u := by
  induction h generalizing place with
  | file content =>
    constructor
    · intro hm
      cases hm
    · rintro ⟨hne, hf⟩
      rw [isLeaf_file content place hne] at hf
      cases hf
  | @directory entries nodup names trees ih =>
    rw [contents, mem_entryContents]
    constructor
    · rintro ⟨⟨name, v⟩, hm, ⟨rfl, rfl⟩ | ⟨rest, rfl, hrest⟩⟩
      · simp [FileTree.find?, lookup_of_mem nodup hm]
      · obtain ⟨-, hf⟩ := (ih _ hm).mp hrest
        simp [FileTree.find?, lookup_of_mem nodup hm, hf]
    · rintro ⟨hne, hf⟩
      obtain ⟨name, rest, rfl⟩ := List.exists_cons_of_ne_nil hne
      obtain ⟨v, hl, hf⟩ := Option.bind_eq_some_iff.mp hf
      refine ⟨(name, v), mem_of_lookup hl, ?_⟩
      by_cases hr : rest = []
      · subst hr
        rw [find?_nil] at hf
        cases hf
        exact .inl ⟨rfl, rfl⟩
      · exact .inr ⟨rest, rfl, (ih _ (mem_of_lookup hl)).mpr ⟨hr, hf⟩⟩

theorem Named.nodup_contents (h : t.Named) : (t.contents.map Prod.fst).Nodup := by
  induction h with
  | file content => exact List.nodup_nil
  | @directory entries nodup names trees ih =>
    rw [contents]
    clear names
    induction entries with
    | nil => exact List.nodup_nil
    | cons entry entries ihe =>
      obtain ⟨hn, hnodup⟩ := List.nodup_cons.mp nodup
      rw [List.forall_mem_cons] at ih trees
      have rest := ihe hnodup trees.2 ih.2
      have own : (entry.2.contents.map fun e => (entry.1 :: e.1, e.2)).map Prod.fst =
          (entry.2.contents.map Prod.fst).map (entry.1 :: ·) := by
        simp [Function.comp_def]
      -- The first name of a place tells which entry the place belongs to.
      have starts (place : List String) (hp : place ∈ (entryContents entries).map Prod.fst) :
          ∃ name ∈ entries.map Prod.fst, ∃ rest, place = name :: rest := by
        obtain ⟨⟨p, u⟩, hm, rfl⟩ := List.mem_map.mp hp
        obtain ⟨e, he, ⟨rfl, -⟩ | ⟨rest, rfl, -⟩⟩ := mem_entryContents.mp hm
        · exact ⟨e.1, List.mem_map_of_mem he, [], rfl⟩
        · exact ⟨e.1, List.mem_map_of_mem he, rest, rfl⟩
      rw [entryContents, List.map_append, List.map_cons]
      show ([entry.1] :: (entry.2.contents.map fun e => (entry.1 :: e.1, e.2)).map Prod.fst ++
        (entryContents entries).map Prod.fst).Nodup
      rw [own, List.nodup_append, List.nodup_cons]
      refine ⟨⟨?_, ih.1.map fun a b h => (List.cons.inj h).2⟩, rest, ?_⟩
      · intro hm
        obtain ⟨place, hp, he⟩ := List.mem_map.mp hm
        cases he
        obtain ⟨⟨_, u⟩, hm, rfl⟩ := List.mem_map.mp hp
        exact absurd rfl (trees.1.mem_contents.mp hm).1
      · intro a ha b hb
        rintro rfl
        obtain ⟨name, hname, rest, rfl⟩ := starts a hb
        rcases List.mem_cons.mp ha with he | ha
        · cases he
          exact hn hname
        · obtain ⟨place, -, he⟩ := List.mem_map.mp ha
          cases he
          exact hn hname

end FileTree

end LivePages
