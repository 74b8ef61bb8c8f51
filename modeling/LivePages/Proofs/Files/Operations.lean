import LivePages.Proofs.Files.Writing

namespace LivePages

namespace FileStore

variable {s s' : FileStore} {path source : String} {t : Target} {before idle : List String}
  {new : FileTree} {content : List UInt8} {D : List String → Prop}

/-- Something else is in a place. -/
def putAt (s : FileStore) (new : FileTree) (place : List String) : FileStore :=
  { s with root := .put new s.root place }

namespace Target.IsFor

variable (h : t.IsFor s path before idle)
include h

theorem node?_putAt (hnew : new.IsLeaf) (hold : ∀ u, t.entries.lookup t.name = some u → u.IsLeaf)
    (q : List String) : (s.putAt new (t.place ++ [t.name])).root.node? q =
      if q = s.placeOf path then some new.node else s.root.node? q := by
  rw [h.placeOf]
  apply FileTree.node?_put hnew h.node?_place
  rw [h.find?]
  exact hold

theorem named_putAt (hnew : new.Named) (hs : s.root.Named) :
    (s.putAt new (t.place ++ [t.name])).root.Named := by
  apply hs.put hnew
  intro name hm
  rcases List.mem_append.mp hm with hm | hm
  · exact (hs.find? h.directory).2 name hm
  · rw [List.mem_singleton.mp hm]
    exact h.named

theorem node?_placeOf : s.root.node? (s.placeOf path) = (t.entries.lookup t.name).map FileTree.node := by
  unfold FileTree.node?
  rw [h.placeOf, h.find?]

theorem fills_directory (hnone : t.entries.lookup t.name = none) :
    Fills (s.OnWay path) NoFile s (s.putAt (.directory []) (t.place ++ [t.name])) := by
  refine ⟨rfl, h.named_putAt (.directory .nil (by simp) (by simp)), ?_⟩
  intro q
  have none := h.node?_placeOf
  rw [hnone] at none
  rw [h.node?_putAt FileTree.isLeaf_empty (by simp [hnone])]
  refine .inr ⟨fun _ => id, ?_⟩
  split
  next hq =>
    subst hq
    exact .inr ⟨none, rfl, onWay_placeOf s path⟩
  next => exact .inl rfl

theorem fills_file (hfile : ∀ entries, t.entries.lookup t.name ≠ some (.directory entries)) :
    Fills D (OneFile (s.placeOf path) content) s
      (s.putAt (.file content) (t.place ++ [t.name])) := by
  refine ⟨rfl, h.named_putAt (.file content), ?_⟩
  have old (u) (hu : t.entries.lookup t.name = some u) : ∃ old, u = .file old := by
    cases u with
    | file old => exact ⟨old, rfl⟩
    | directory entries => exact absurd hu (hfile entries)
  intro q
  rw [h.node?_putAt (FileTree.isLeaf_file content)]
  · split
    next hq =>
      subst hq
      refine .inl ⟨content, ⟨rfl, rfl⟩, rfl, ?_⟩
      rw [h.node?_placeOf]
      intro hd
      obtain ⟨u, hu, hd⟩ := Option.map_eq_some_iff.mp hd
      obtain ⟨content, rfl⟩ := old u hu
      cases hd
    next hq => exact .inr ⟨fun c hc => hq hc.1, .inl rfl⟩
  · intro u hu
    obtain ⟨content, rfl⟩ := old u hu
    exact FileTree.isLeaf_file content

/-- After something is put where a path leads to, the path leads to it. -/
theorem locate {W : List String → List UInt8 → Prop} (hf : Fills D W s s')
    (hp : s'.root.node? (s.placeOf path) ≠ none)
    (hi : idle ≠ [] → s'.root.node? (s.placeOf path) = some .directory) :
    s'.locate path = .ok (s.placeOf path) := by
  have start : s'.startOf path = s.startOf path := by
    unfold startOf
    rw [hf.here]
  have name := h.named.placeStep t.place
  rw [h.placeOf] at hp hi ⊢
  have trail : ∀ pieces : List String, (∀ piece ∈ pieces, piece = "") →
      (pieces ≠ [] → s'.root.node? (t.place ++ [t.name]) = some .directory) →
      FileStore.walk s'.root pieces (t.place ++ [t.name]) = .ok (t.place ++ [t.name]) := by
    intro pieces
    induction pieces with
    | nil =>
      intro _ _
      rfl
    | cons piece pieces ih =>
      intro hempty hd
      rw [List.forall_mem_cons] at hempty
      have stays : placeStep (t.place ++ [t.name]) piece = t.place ++ [t.name] := by
        apply placeStep_of_isIdle
        rw [hempty.1]
        rfl
      have directory := hd (by simp)
      rw [walk_cons, stays]
      exact ⟨directory, hp, ih hempty.2 fun _ => directory⟩
  rw [locate_of_ne_empty _ h.ne_empty, h.pieces, start, walk_append,
    walk_mono (fun _ => hf.directory) (fun _ => hf.present) h.walk, ok_bind, walk_cons, name]
  exact ⟨hf.directory h.node?_place, hp, trail idle h.empty hi⟩

end Target.IsFor

end FileStore

namespace FileAction

open FileStore

variable {s s' : FileStore} {path source : String} {content : List UInt8} {fault : FileFault}

theorem runOn_makeDirectory (path : String) (s : FileStore) : (makeDirectory path).runOn s =
    match s.target path with
    | .error fault => (.error fault, s)
    | .ok t =>
      if t.isSpecial || (t.entries.lookup t.name).isSome then (.error .present, s)
      else (.ok (), s.putAt (.directory []) (t.place ++ [t.name])) := by
  unfold makeDirectory
  rw [runOn_get_bind, runOn_bind, runOn_liftM]
  cases s.target path with
  | error fault => rfl
  | ok t =>
    dsimp only
    split <;> rfl

/-- A directory that has been made is where its path leads to. -/
theorem makeDirectory_ok (h : (makeDirectory path).runOn s = (.ok (), s')) :
    Fills (s.OnWay path) NoFile s s' ∧ s'.LeadsToDirectory path := by
  rw [runOn_makeDirectory] at h
  split at h
  next => cases h
  next t ht =>
    split at h
    next => cases h
    next hs =>
      cases h
      rw [Bool.or_eq_true, not_or] at hs
      obtain ⟨before, idle, hfor⟩ := exists_isFor_target ht hs.1
      have none := Option.not_isSome_iff_eq_none.mp hs.2
      have fills := hfor.fills_directory none
      have made : (s.putAt (.directory []) (t.place ++ [t.name])).root.node? (s.placeOf path) =
          some .directory := by
        rw [hfor.node?_putAt FileTree.isLeaf_empty (by simp [none]), if_pos rfl]
        rfl
      refine ⟨fills, ?_, ?_⟩
      · rw [fills.placeOf]
        exact hfor.locate fills (by simp [made]) fun _ => made
      · rw [fills.placeOf]
        exact made

theorem makeDirectory_error (h : (makeDirectory path).runOn s = (.error fault, s')) : s' = s := by
  rw [runOn_makeDirectory] at h
  split at h
  next =>
    cases h
    rfl
  next =>
    split at h
    next =>
      cases h
      rfl
    next => cases h

/-- What is done when a directory could not be made, if it is there. -/
theorem hasDirectory_ok (h : (do if (← get).hasDirectory path then pure () else throw fault :
    FileAction FileFault Unit).runOn s = (.ok (), s')) : s' = s ∧ s.LeadsToDirectory path := by
  rw [runOn_get_bind] at h
  split at h
  next hd =>
    cases h
    exact ⟨rfl, hasDirectory_iff.mp hd⟩
  next => cases h

theorem ensureDirectory_ok (h : (ensureDirectory path).runOn s = (.ok (), s')) :
    Fills (s.OnWay path) NoFile s s' ∧ s'.LeadsToDirectory path := by
  unfold ensureDirectory at h
  rw [runOn_tryCatch] at h
  split at h
  next hm =>
    cases h
    exact makeDirectory_ok hm
  next hm =>
    cases makeDirectory_error hm
    obtain ⟨rfl, hd⟩ := hasDirectory_ok h
    exact ⟨.refl _ _, hd⟩

theorem makeDirectoriesWithin_ok {bound : Nat}
    (h : (makeDirectoriesWithin bound path).runOn s = (.ok (), s')) :
    Fills (s.OnWay path) NoFile s s' ∧ (bound ≠ 0 → path = "" ∨ s'.LeadsToDirectory path) := by
  induction bound generalizing path s s' with
  | zero =>
    cases h
    exact ⟨.refl _ _, fun hb => absurd rfl hb⟩
  | succ bound ih =>
    unfold makeDirectoriesWithin at h
    split at h
    next hp =>
      cases h
      exact ⟨.refl _ _, fun _ => .inl hp⟩
    next =>
      rw [runOn_tryCatch] at h
      split at h
      next hm =>
        cases h
        obtain ⟨hf, hd⟩ := makeDirectory_ok hm
        exact ⟨hf, fun _ => .inr hd⟩
      next hm =>
        cases makeDirectory_error hm
        split at h
        next =>
          split at h
          next => cases h
          next parent hparent =>
            obtain ⟨⟨⟩, s₁, h₁, h₂⟩ := runOn_bind_eq_ok.mp h
            obtain ⟨hf₁, -⟩ := ih h₁
            obtain ⟨hf₂, hd⟩ := ensureDirectory_ok h₂
            have above := hf₁.mono fun q _ => OnWay.of_parent hparent
            have own := hf₂.mono fun q _ => (OnWay.fills hf₁).mp
            exact ⟨above.after own, fun _ => .inr hd⟩
        next =>
          obtain ⟨rfl, hd⟩ := hasDirectory_ok h
          exact ⟨.refl _ _, fun _ => .inr hd⟩

theorem makeDirectories_ok (h : (makeDirectories path).runOn s = (.ok (), s')) :
    Fills (s.OnWay path) NoFile s s' ∧ (path = "" ∨ s'.LeadsToDirectory path) := by
  obtain ⟨hf, hd⟩ := makeDirectoriesWithin_ok h
  exact ⟨hf, hd (Nat.succ_ne_zero _)⟩

theorem of_writable {place : List String} (h : (writable path).runOn s = (.ok place, s')) :
    s' = s ∧ ∃ (t : Target) (before : List String), t.IsFor s path before [] ∧
      place = t.place ++ [t.name] ∧ ∀ entries, t.entries.lookup t.name ≠ some (.directory entries) := by
  unfold writable at h
  rw [runOn_get_bind] at h
  obtain ⟨t, s₁, ht, h⟩ := runOn_bind_eq_ok.mp h
  rw [runOn_liftM] at ht
  cases ht' : s.target path with
  | error fault =>
    rw [ht'] at ht
    cases ht
  | ok t' =>
    rw [ht'] at ht
    cases ht
    split at h
    next => cases h
    next hs =>
      rw [Bool.or_eq_true, not_or] at hs
      obtain ⟨before, idle, hfor⟩ := exists_isFor_target ht' hs.2
      cases hfor.slash (Bool.eq_false_iff.mpr hs.1)
      split at h
      next => cases h
      next hne =>
        cases h
        exact ⟨rfl, t, before, hfor, rfl, hne⟩

/-- A file that has been written is where its path leads to. -/
theorem writeFile_ok {D : List String → Prop}
    (h : (writeFile path content).runOn s = (.ok (), s')) :
    Fills D (OneFile (s.placeOf path) content) s s' ∧ s'.locate path = .ok (s.placeOf path) := by
  obtain ⟨place, s₁, hw, hput⟩ := runOn_bind_eq_ok.mp h
  obtain ⟨rfl, t, before, hfor, rfl, hne⟩ := of_writable hw
  cases hput
  have fills : Fills D (OneFile (s₁.placeOf path) content) s₁
      (s₁.putAt (.file content) (t.place ++ [t.name])) := hfor.fills_file hne
  have present : (s₁.putAt (.file content) (t.place ++ [t.name])).root.node? (s₁.placeOf path) ≠
      none := by
    rcases fills.node? (s₁.placeOf path) with ⟨c, -, hc, -⟩ | ⟨hw, -⟩
    · rw [hc]
      simp
    · exact absurd ⟨rfl, rfl⟩ (hw content)
  exact ⟨fills, hfor.locate fills present fun hne => absurd rfl hne⟩

theorem of_readFile {found : List String × FileTree} (h : (readFile path).runOn s = (.ok found, s')) :
    s' = s ∧ s.locate path = .ok (s.placeOf path) ∧ found.1 = s.placeOf path ∧
      s.root.find? (s.placeOf path) = some found.2 := by
  unfold readFile at h
  rw [runOn_get_bind] at h
  obtain ⟨place, s₁, hl, h⟩ := runOn_bind_eq_ok.mp h
  rw [runOn_liftM] at hl
  cases hl' : s.locate path with
  | error fault =>
    rw [hl'] at hl
    cases hl
  | ok place' =>
    rw [hl'] at hl
    cases hl
    cases place_of_locate hl'
    split at h
    next u hf =>
      cases h
      exact ⟨rfl, rfl, rfl, hf⟩
    next => cases h

/-- A file that is copied onto itself is empty. -/
theorem copyFile_ok {target : String} {D : List String → Prop}
    (h : (copyFile source target).runOn s = (.ok (), s')) :
    ∃ content, s.root.node? (s.placeOf source) = some (.file content) ∧
      Fills D (OneFile (s.placeOf target)
        (if s.placeOf target = s.placeOf source then [] else content)) s s' := by
  obtain ⟨⟨place, u⟩, s₁, hr, hcopy⟩ := runOn_bind_eq_ok.mp h
  obtain ⟨rfl, -, hplace, hfind⟩ := of_readFile hr
  cases hplace
  cases u with
  | directory entries => cases hcopy
  | file content =>
    refine ⟨content, ?_, ?_⟩
    · unfold FileTree.node?
      rw [hfind]
      rfl
    · obtain ⟨goal, s₂, hw, hput⟩ := runOn_bind_eq_ok.mp hcopy
      obtain ⟨rfl, t, before, hfor, rfl, hne⟩ := of_writable hw
      cases hput
      rw [hfor.placeOf]
      have fills : Fills D (OneFile (s₂.placeOf target) _) s₂ (s₂.putAt (.file
          (if t.place ++ [t.name] = s₂.placeOf source then [] else content))
          (t.place ++ [t.name])) := hfor.fills_file hne
      rwa [hfor.placeOf] at fills

/-- The root is no file that a path leads to. -/
theorem placeOf_ne_nil (hl : s.locate path = .ok (s.placeOf path))
    (hf : s.root.find? (s.placeOf path) = some (.file content)) : s.placeOf path ≠ [] := by
  intro empty
  rw [empty] at hf
  have file : s.root.node? [] = some (.file content) := by
    unfold FileTree.node?
    rw [hf]
    rfl
  have start : s.root.node? (s.startOf path) = some .directory := by
    unfold locate at hl
    split at hl
    next => cases hl
    next =>
      obtain ⟨piece, pieces, e⟩ := List.exists_cons_of_ne_nil (splitText_ne_nil path)
      rw [e] at hl
      exact (walk_cons.mp hl).1
  have above : s.root.node? [] = some .directory := by
    by_cases hs : s.startOf path = []
    · rwa [hs] at start
    · have present : s.root.node? ([] ++ s.startOf path) ≠ none := by
        rw [List.nil_append, start]
        simp
      exact FileTree.node?_parent present hs
  rw [file] at above
  cases above

/-- A file that has been removed is not there, and all else is. -/
theorem removeFile_ok (h : (removeFile path).runOn s = (.ok (), s')) :
    s'.here = s.here ∧ (s.root.Named → s'.root.Named) ∧
      ∀ q, s'.root.node? q = if q = s.placeOf path then none else s.root.node? q := by
  obtain ⟨⟨place, u⟩, s₁, hr, hremove⟩ := runOn_bind_eq_ok.mp h
  obtain ⟨rfl, hl, hplace, hfind⟩ := of_readFile hr
  cases hplace
  cases u with
  | directory entries => cases hremove
  | file content =>
    cases hremove
    refine ⟨rfl, fun hs => hs.remove _, ?_⟩
    exact FileTree.node?_remove (placeOf_ne_nil hl hfind) hfind

end FileAction

end LivePages
