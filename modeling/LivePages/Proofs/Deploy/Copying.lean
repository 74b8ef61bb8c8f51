import LivePages.Deploy.Writing
import LivePages.Proofs.Files.Operations
import LivePages.Proofs.Site.AssetSet

namespace LivePages

/-- Neither of two places is above the other one. -/
structure Apart (a b : List String) : Prop where
  left : ¬ a <+: b
  right : ¬ b <+: a

namespace Apart

variable {a b : List String}

theorem append (h : Apart a b) (x y : List String) : Apart (a ++ x) (b ++ y) := by
  have either : ¬ (a <+: b ∨ b <+: a) := not_or.mpr ⟨h.left, h.right⟩
  constructor
  · intro hp
    exact either (List.prefix_or_prefix_of_prefix ((List.prefix_append a x).trans hp)
      (List.prefix_append b y))
  · intro hp
    exact either (List.prefix_or_prefix_of_prefix (List.prefix_append a x)
      ((List.prefix_append b y).trans hp))

theorem ne (h : Apart a b) (x y : List String) : a ++ x ≠ b ++ y := by
  intro e
  exact (h.append x y).left (e ▸ List.prefix_refl _)

theorem not_prefix (h : Apart a b) {q : List String} (hq : a <+: q) : ¬ b <+: q := by
  intro hb
  rcases List.prefix_or_prefix_of_prefix hq hb with hp | hp
  · exact h.left hp
  · exact h.right hp

end Apart

namespace FileTree.Named

variable {name : String} {u : FileTree} {entries : List (String × FileTree)}

theorem of_cons (h : (FileTree.directory ((name, u) :: entries)).Named) :
    IsFileName name ∧ u.Named ∧ (FileTree.directory entries).Named := by
  cases h with
  | directory nodup names trees =>
    rw [List.forall_mem_cons] at names trees
    exact ⟨names.1, trees.1, .directory (List.nodup_cons.mp nodup).2 names.2 trees.2⟩

end FileTree.Named

/-- The files in a directory, as they stand below a place. -/
def EntryFiles (entries : List (String × FileTree)) (place q : List String) (c : List UInt8) : Prop :=
  ∃ e ∈ entries, ∃ r, q = place ++ e.1 :: r ∧ e.2.node? r = some (.file c)

theorem entryFiles_iff {entries : List (String × FileTree)} (h : (FileTree.directory entries).Named)
    (place q : List String) (c : List UInt8) : EntryFiles entries place q c ↔
      ∃ r, q = place ++ r ∧ (FileTree.directory entries).node? r = some (.file c) := by
  have nodup : (entries.map Prod.fst).Nodup := by
    cases h with
    | directory nodup _ _ => exact nodup
  constructor
  · rintro ⟨⟨name, u⟩, hm, r, rfl, hu⟩
    refine ⟨name :: r, rfl, ?_⟩
    have found : (FileTree.directory entries).find? [name] = some u := by
      show (entries.lookup name).bind (fun t => t.find? []) = some u
      rw [FileTree.lookup_of_mem nodup hm, Option.bind_some, FileTree.find?_nil]
    exact (FileTree.node?_append found r).trans hu
  · rintro ⟨r, rfl, hr⟩
    cases r with
    | nil => cases hr
    | cons name r =>
      obtain ⟨v, hf, hv⟩ := Option.map_eq_some_iff.mp hr
      obtain ⟨u, hl, hf⟩ := Option.bind_eq_some_iff.mp hf
      refine ⟨(name, u), FileTree.mem_of_lookup hl, r, rfl, ?_⟩
      unfold FileTree.node?
      rw [hf, Option.map_some, hv]

theorem entryFiles_cons (name : String) (u : FileTree) (entries : List (String × FileTree))
    (place q : List String) (c : List UInt8) : EntryFiles ((name, u) :: entries) place q c ↔
      (∃ r, q = place ++ name :: r ∧ u.node? r = some (.file c)) ∨ EntryFiles entries place q c := by
  unfold EntryFiles
  rw [List.exists_mem_cons_iff]

theorem entryFiles_file (name : String) (content : List UInt8) (entries : List (String × FileTree))
    (place q : List String) (c : List UInt8) :
    EntryFiles ((name, .file content) :: entries) place q c ↔
      FileStore.OneFile (place ++ [name]) content q c ∨ EntryFiles entries place q c := by
  rw [entryFiles_cons]
  apply or_congr_left
  constructor
  · rintro ⟨r, rfl, hr⟩
    cases r with
    | nil =>
      cases hr
      exact ⟨rfl, rfl⟩
    | cons n r => cases hr
  · rintro ⟨rfl, rfl⟩
    exact ⟨[], rfl, rfl⟩

theorem entryFiles_directory {name : String} {inner entries : List (String × FileTree)}
    (h : (FileTree.directory inner).Named) (place q : List String) (c : List UInt8) :
    EntryFiles ((name, .directory inner) :: entries) place q c ↔
      EntryFiles inner (place ++ [name]) q c ∨ EntryFiles entries place q c := by
  rw [entryFiles_cons, entryFiles_iff h]
  simp only [List.append_assoc, List.singleton_append]

namespace FileStore

variable {s s' : FileStore} {path source target name : String} {q : List String}
  {D : List String → Prop} {W : List String → List UInt8 → Prop}

/-- A place that a path passes, or below the one that it leads to. -/
def Reached (s : FileStore) (path : String) (q : List String) : Prop :=
  s.OnWay path q ∨ s.placeOf path <+: q

theorem placeOf_name (hn : IsFileName name) :
    s.placeOf (joinPath path name) = s.placeOf path ++ [name] := by
  rw [placeOf_plain hn.isPlainPath, splitText_of_not_mem hn.slash]

/-- The way to an entry of a directory is the way to the directory and the entry. -/
theorem OnWay.of_name (hn : IsFileName name) (h : s.OnWay (joinPath path name) q) :
    s.OnWay path q ∨ q = s.placeOf (joinPath path name) := by
  rw [placeOf_name hn]
  refine (h.of_joinPath hn.isPlainPath).imp_right ?_
  rw [splitText_of_not_mem hn.slash]
  rintro ⟨names, hne, hnames, rfl⟩
  rcases List.prefix_cons_iff.mp hnames with rfl | ⟨rest, rfl, hr⟩
  · exact absurd rfl hne
  · rw [List.prefix_nil.mp hr]

theorem reached_of_here (h : s'.here = s.here) : s'.Reached path q ↔ s.Reached path q := by
  unfold Reached
  rw [onWay_of_here h, placeOf_of_here h]

theorem reached_of_onWay {rest : String} (hr : IsPlainPath rest)
    (h : s.OnWay (joinPath path rest) q) : s.Reached path q := by
  rcases h.of_joinPath hr with h | ⟨names, -, -, rfl⟩
  · exact .inl h
  · exact .inr (List.prefix_append _ _)

theorem Reached.of_joinPath {rest : String} (hr : IsPlainPath rest)
    (h : s.Reached (joinPath path rest) q) : s.Reached path q := by
  rcases h with h | h
  · exact reached_of_onWay hr h
  · rw [placeOf_plain hr] at h
    exact .inr ((List.prefix_append _ _).trans h)

end FileStore

open FileAction FileStore

variable {s s' : FileStore} {source target root path : String}

/-- A file is copied to where its path leads to, after the directories above are made. -/
theorem copyAsset_ok (h : (copyAsset source target).runOn s = (.ok (), s')) :
    ∃ content, s.root.node? (s.placeOf source) = some (.file content) ∧
      Fills (s.OnWay target) (OneFile (s.placeOf target)
        (if s.placeOf target = s.placeOf source then [] else content)) s s' := by
  unfold copyAsset at h
  split at h
  next parent hparent =>
    obtain ⟨⟨⟩, s₁, h₁, h₂⟩ := runOn_bind_eq_ok.mp h
    obtain ⟨hf, -⟩ := makeDirectories_ok (runOn_explain_eq_ok.mp h₁)
    obtain ⟨content, hc, hf'⟩ := copyFile_ok (D := s.OnWay target) (runOn_explain_eq_ok.mp h₂)
    rw [hf.placeOf, hf.placeOf] at hf'
    rw [hf.placeOf, hf.file_iff fun _ => id] at hc
    have above := hf.mono fun q _ => OnWay.of_parent hparent
    exact ⟨content, hc, above.after hf'⟩
  next => exact copyFile_ok (runOn_explain_eq_ok.mp h)

/-- The files of a tree stand below a place. -/
def Stands (s : FileStore) (place : List String) (entries : List (String × FileTree)) : Prop :=
  ∀ q c, EntryFiles entries place q c → s.root.node? q = some (.file c)

theorem Stands.fills {place : List String} {entries : List (String × FileTree)}
    {D : List String → Prop} {W : List String → List UInt8 → Prop} (h : Stands s place entries)
    (hf : Fills D W s s') (hW : ∀ r c, ¬ W (place ++ r) c) : Stands s' place entries := by
  rintro q c hq
  have file := h q c hq
  obtain ⟨e, -, r, rfl, -⟩ := hq
  exact (hf.file_iff (hW _) c).mpr file

theorem Stands.of_cons {place : List String} {e : String × FileTree}
    {entries : List (String × FileTree)} (h : Stands s place (e :: entries)) :
    Stands s place entries := by
  rintro q c ⟨e, hm, hq⟩
  exact h q c ⟨e, List.mem_cons_of_mem _ hm, hq⟩

theorem Stands.inner {place : List String} {name : String} {inner entries : List (String × FileTree)}
    (h : Stands s place ((name, .directory inner) :: entries))
    (hi : (FileTree.directory inner).Named) : Stands s (place ++ [name]) inner := by
  intro q c hq
  exact h q c ((entryFiles_directory hi place q c).mpr (.inl hq))

theorem not_entryFiles {a b : List String} (h : Apart a b) (entries : List (String × FileTree))
    (r : List String) (c : List UInt8) : ¬ EntryFiles entries b (a ++ r) c := by
  rintro ⟨e, -, r', he, -⟩
  exact h.ne _ _ he

/-- A file of a directory is copied as it stands. -/
theorem copyEntry_file {name : String} {content : List UInt8}
    (h : (copyAsset (joinPath source name) (joinPath target name)).runOn s = (.ok (), s'))
    (hn : IsFileName name) (ha : Apart (s.placeOf source) (s.placeOf target))
    (own : s.root.node? (s.placeOf source ++ [name]) = some (.file content)) :
    Fills (s.Reached target) (OneFile (s.placeOf target ++ [name]) content) s s' := by
  obtain ⟨c, hc, hf⟩ := copyAsset_ok h
  rw [placeOf_name hn] at hc
  rw [placeOf_name hn, placeOf_name hn, if_neg (ha.ne _ _).symm] at hf
  cases hc.symm.trans own
  exact hf.mono fun q _ => reached_of_onWay hn.isPlainPath

/-- What is written first leaves the entries that come after it where they were. -/
theorem fills_entries {entries : List (String × FileTree)} {W : List String → List UInt8 → Prop}
    {s₁ : FileStore} (first : Fills (s.Reached target) W s s₁)
    (hW : ∀ r c, ¬ W (s.placeOf source ++ r) c) (ha : Apart (s.placeOf source) (s.placeOf target))
    (hs : Stands s (s.placeOf source) entries)
    (copied : Apart (s₁.placeOf source) (s₁.placeOf target) →
      Stands s₁ (s₁.placeOf source) entries →
      Fills (s₁.Reached target) (EntryFiles entries (s₁.placeOf target)) s₁ s') :
    Fills (s.Reached target) (fun q c => W q c ∨ EntryFiles entries (s.placeOf target) q c) s s' := by
  rw [first.placeOf, first.placeOf] at copied
  have second := copied ha (hs.fills first hW)
  exact first.trans (second.mono fun q _ => (reached_of_here first.here).mp)

/-- Every file that is in a directory is copied, and what is there besides stays. The induction is on
the entries of the directory, from the inside; all of them are where they were until the end,
because nothing is written near them. -/
theorem copyEntries_ok {entries : List (String × FileTree)}
    (h : (copyEntries source target entries).runOn s = (.ok (), s'))
    (hn : (FileTree.directory entries).Named) (ha : Apart (s.placeOf source) (s.placeOf target))
    (hs : Stands s (s.placeOf source) entries) :
    Fills (s.Reached target) (EntryFiles entries (s.placeOf target)) s s' := by
  induction source, target, entries using copyEntries.induct generalizing s s' with
  | case1 source target =>
    rw [copyEntries] at h
    cases h
    exact (Fills.refl _ _).congr (by simp [EntryFiles])
  | case2 source target name content rest ih =>
    rw [copyEntries] at h
    obtain ⟨⟨⟩, s₁, h₁, h₂⟩ := runOn_bind_eq_ok.mp h
    obtain ⟨hname, -, hrest⟩ := hn.of_cons
    have own := hs (s.placeOf source ++ [name]) content ⟨_, List.mem_cons_self, [], rfl, rfl⟩
    have first := copyEntry_file h₁ hname ha own
    refine (fills_entries first ?_ ha hs.of_cons (ih h₂ hrest)).congr ?_
    · rintro r c ⟨he, -⟩
      exact ha.ne _ _ he
    · intro q c
      exact (entryFiles_file name content rest _ q c).symm
  | case3 source target name inner rest ihe ih =>
    rw [copyEntries] at h
    obtain ⟨⟨⟩, s₁, h₁, h⟩ := runOn_bind_eq_ok.mp h
    obtain ⟨⟨⟩, s₂, h₂, h₃⟩ := runOn_bind_eq_ok.mp h
    obtain ⟨hname, hinner, hrest⟩ := hn.of_cons
    obtain ⟨hf, -⟩ := makeDirectories_ok (runOn_explain_eq_ok.mp h₁)
    have made : Fills (s.Reached (joinPath target name)) NoFile s s₁ := hf.mono fun q _ => .inl
    have apart : Apart (s.placeOf (joinPath source name)) (s.placeOf (joinPath target name)) := by
      rw [placeOf_name hname, placeOf_name hname]
      exact ha.append _ _
    have stands : Stands s (s.placeOf (joinPath source name)) inner := by
      rw [placeOf_name hname]
      exact hs.inner hinner
    have copied := fills_entries made (fun _ _ => id) apart stands (ihe h₂ hinner)
    rw [placeOf_name hname] at copied
    have nested : Fills (s.Reached target) (EntryFiles inner (s.placeOf target ++ [name])) s s₂ :=
      (copied.mono fun q _ hq => hq.of_joinPath hname.isPlainPath).congr (by simp)
    refine (fills_entries nested ?_ ha hs.of_cons (ih h₃ hrest)).congr ?_
    · have apart := ha.append [] [name]
      rw [List.append_nil] at apart
      exact not_entryFiles apart inner
    · intro q c
      exact (entryFiles_directory hinner _ q c).symm

/-- The files in one place and below it, as they stand in another place and below it. -/
def FilesBelow (s : FileStore) (a b q : List String) (c : List UInt8) : Prop :=
  ∃ r, q = b ++ r ∧ s.root.node? (a ++ r) = some (.file c)

theorem filesBelow_file {a b : List String} {content : List UInt8}
    (h : s.root.node? a = some (.file content)) (q : List String) (c : List UInt8) :
    FilesBelow s a b q c ↔ OneFile b content q c := by
  constructor
  · rintro ⟨r, rfl, hr⟩
    have hnil : r = [] := by
      by_contra hne
      have directory := FileTree.node?_parent (by rw [hr]; simp) hne
      cases h.symm.trans directory
    subst hnil
    rw [List.append_nil, h] at hr
    cases hr
    exact ⟨List.append_nil _, rfl⟩
  · rintro ⟨rfl, rfl⟩
    exact ⟨[], (List.append_nil _).symm, by rwa [List.append_nil]⟩

theorem copyDirectory_ok (h : (copyDirectory source target).runOn s = (.ok (), s'))
    (hs : s.root.Named) (ha : Apart (s.placeOf source) (s.placeOf target)) :
    Fills (s.Reached target) (FilesBelow s (s.placeOf source) (s.placeOf target)) s s' := by
  obtain ⟨⟨⟩, s₁, h₁, h⟩ := runOn_bind_eq_ok.mp h
  obtain ⟨⟨place, u⟩, s₂, h₂, h₃⟩ := runOn_bind_eq_ok.mp h
  obtain ⟨hf, -⟩ := makeDirectories_ok (runOn_explain_eq_ok.mp h₁)
  obtain ⟨rfl, -, -, hfind⟩ := of_readFile (runOn_explain_eq_ok.mp h₂)
  cases u with
  | file content => cases h₃
  | directory entries =>
    have named : (FileTree.directory entries).Named := ((hf.named hs).find? hfind).1
    have seen (r : List String) : s₂.root.node? (s₂.placeOf source ++ r) =
        (FileTree.directory entries).node? r := FileTree.node?_append hfind r
    have stands : Stands s₂ (s₂.placeOf source) entries := by
      intro q c hq
      obtain ⟨r, rfl, hr⟩ := (entryFiles_iff named _ q c).mp hq
      exact (seen r).trans hr
    have copied := copyEntries_ok h₃ named (by rwa [hf.placeOf, hf.placeOf]) stands
    have made : Fills (s.Reached target) NoFile s s₂ := hf.mono fun q _ => .inl
    refine (made.trans (copied.mono fun q _ => (reached_of_here hf.here).mp)).congr ?_
    intro q c
    rw [entryFiles_iff named, hf.placeOf, false_or]
    apply exists_congr
    intro r
    apply and_congr_right
    rintro rfl
    rw [← seen, hf.placeOf]
    exact hf.file_iff (fun _ => id) c

/-- What has been done so far has not touched the files below a place. -/
structure Untouched (place : List String) (s s' : FileStore) : Prop where
  here : s'.here = s.here
  named : s'.root.Named
  file_iff : ∀ r c, s'.root.node? (place ++ r) = some (.file c) ↔
    s.root.node? (place ++ r) = some (.file c)

namespace Untouched

variable {place : List String} {s'' : FileStore} {D : List String → Prop}
  {W : List String → List UInt8 → Prop}

theorem refl (hs : s.root.Named) (place : List String) : Untouched place s s :=
  ⟨rfl, hs, fun _ _ => Iff.rfl⟩

theorem fills (h : Untouched place s s') (hf : Fills D W s' s'') (hW : ∀ r c, ¬ W (place ++ r) c) :
    Untouched place s s'' := by
  refine ⟨hf.here.trans h.here, hf.named h.named, ?_⟩
  intro r c
  rw [← h.file_iff]
  exact hf.file_iff (hW r) c

theorem placeOf (h : Untouched place s s') (path : String) : s'.placeOf path = s.placeOf path :=
  placeOf_of_here h.here path

end Untouched

namespace AssetSet

/-- The files that assets stand for, as they stand below a place. -/
def Files (assets : AssetSet) (s : FileStore) (root : String) (place q : List String)
    (c : List UInt8) : Prop :=
  ∃ path ∈ assets.paths,
    FilesBelow s (s.placeOf root ++ splitText '/' path) (place ++ splitText '/' path) q c

/-- Every asset is copied with all that is below it. -/
theorem copy_ok {assets : AssetSet} (h : (assets.copy root target).runOn s = (.ok (), s'))
    (hp : ∀ path ∈ assets.paths, IsPlainPath path) (hs : s.root.Named)
    (ha : Apart (s.placeOf root) (s.placeOf target)) :
    Fills (s.Reached target) (assets.Files s root (s.placeOf target)) s s' := by
  refine Fills.forM (Untouched (s.placeOf root) s) ?_ (.refl hs _) h
  intro path hpath s₁ s₂ hsame hrun
  have plain := hp path hpath
  have apart := ha.append (splitText '/' path) (splitText '/' path)
  have copied : Fills (s₁.Reached (joinPath target path))
      (FilesBelow s₁ (s.placeOf root ++ splitText '/' path) (s.placeOf target ++ splitText '/' path))
      s₁ s₂ := by
    have source_place := (hsame.placeOf (joinPath root path)).trans (placeOf_plain plain)
    have target_place := (hsame.placeOf (joinPath target path)).trans (placeOf_plain plain)
    rw [← source_place, ← target_place] at apart ⊢
    rw [runOn_get_bind] at hrun
    split at hrun
    next => exact copyDirectory_ok hrun hsame.named apart
    next =>
      obtain ⟨content, hc, hf⟩ := copyAsset_ok hrun
      have other := apart.ne [] []
      rw [List.append_nil, List.append_nil] at other
      rw [if_neg other.symm] at hf
      exact (hf.mono fun q _ => .inl).congr fun q c => (filesBelow_file hc q c).symm
  constructor
  · refine (copied.mono fun q _ hq => (reached_of_here hsame.here).mp (hq.of_joinPath plain)).congr ?_
    intro q c
    apply exists_congr
    intro r
    rw [List.append_assoc (s.placeOf root), hsame.file_iff]
  · apply hsame.fills copied
    rintro r c ⟨r', he, -⟩
    rw [List.append_assoc] at he
    exact ha.ne _ _ he

end AssetSet

end LivePages
