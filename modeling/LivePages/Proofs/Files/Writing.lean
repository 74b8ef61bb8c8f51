import LivePages.Proofs.Files.Actions
import LivePages.Proofs.Files.Places

namespace LivePages

namespace FileStore

variable {D D' : List String → Prop} {W W' : List String → List UInt8 → Prop}
  {s s' s'' : FileStore} {q : List String} {path : String} {content : List UInt8}

/-- Files get new contents in some places, and missing directories are made in others. All else stays
as it is, and no directory goes. -/
structure Fills (D : List String → Prop) (W : List String → List UInt8 → Prop)
    (s s' : FileStore) : Prop where
  here : s'.here = s.here
  named : s.root.Named → s'.root.Named
  node? : ∀ q,
    (∃ c, W q c ∧ s'.root.node? q = some (.file c) ∧ s.root.node? q ≠ some .directory) ∨
    (∀ c, ¬ W q c) ∧ (s'.root.node? q = s.root.node? q ∨
      s.root.node? q = none ∧ s'.root.node? q = some .directory ∧ D q)

/-- Nothing is written. -/
abbrev NoFile : List String → List UInt8 → Prop :=
  fun _ _ => False

/-- One file is written. -/
def OneFile (place : List String) (content : List UInt8) : List String → List UInt8 → Prop :=
  fun q c => q = place ∧ c = content

namespace Fills

theorem refl (D : List String → Prop) (s : FileStore) : Fills D NoFile s s := by
  refine ⟨rfl, id, ?_⟩
  intro q
  exact .inr ⟨fun _ => id, .inl rfl⟩

theorem mono (h : Fills D W s s') (hD : ∀ q, s.root.node? q = none → D q → D' q) :
    Fills D' W s s' := by
  refine ⟨h.here, h.named, ?_⟩
  intro q
  rcases h.node? q with written | ⟨hw, kept | ⟨hn, hd, hq⟩⟩
  · exact .inl written
  · exact .inr ⟨hw, .inl kept⟩
  · exact .inr ⟨hw, .inr ⟨hn, hd, hD q hn hq⟩⟩

theorem congr (h : Fills D W s s') (hW : ∀ q c, W q c ↔ W' q c) : Fills D W' s s' := by
  have e : W = W' := by
    funext q c
    exact propext (hW q c)
  exact e ▸ h

theorem directory (h : Fills D W s s') (hq : s.root.node? q = some .directory) :
    s'.root.node? q = some .directory := by
  rcases h.node? q with ⟨c, -, -, hne⟩ | ⟨-, kept | ⟨hn, -, -⟩⟩
  · exact absurd hq hne
  · rw [kept, hq]
  · rw [hn] at hq
    cases hq

theorem present (h : Fills D W s s') (hq : s.root.node? q ≠ none) : s'.root.node? q ≠ none := by
  rcases h.node? q with ⟨c, -, hc, -⟩ | ⟨-, kept | ⟨hn, -, -⟩⟩
  · rw [hc]
    simp
  · rw [kept]
    exact hq
  · exact absurd hn hq

/-- Where nothing is written, the files are the ones that were there. -/
theorem file_iff (h : Fills D W s s') (hq : ∀ c, ¬ W q c) (c : List UInt8) :
    s'.root.node? q = some (.file c) ↔ s.root.node? q = some (.file c) := by
  rcases h.node? q with ⟨c, hw, -, -⟩ | ⟨-, kept | ⟨hn, hd, -⟩⟩
  · exact absurd hw (hq c)
  · rw [kept]
  · rw [hn, hd]
    simp

/-- Where nothing is written and no directory is made, all is as it was. -/
theorem node?_eq (h : Fills D W s s') (hq : ∀ c, ¬ W q c) (hd : ¬ D q) :
    s'.root.node? q = s.root.node? q := by
  rcases h.node? q with ⟨c, hw, -, -⟩ | ⟨-, kept | ⟨-, -, made⟩⟩
  · exact absurd hw (hq c)
  · exact kept
  · exact absurd made hd

/-- What is written is there, if only one content is written. -/
theorem file (h : Fills D W s s') (hw : W q content) (unique : ∀ c, W q c → c = content) :
    s'.root.node? q = some (.file content) := by
  rcases h.node? q with ⟨c, hc, file, -⟩ | ⟨none, -⟩
  · rw [file, unique c hc]
  · exact absurd hw (none content)

theorem trans (h : Fills D W s s') (h' : Fills D W' s' s'') :
    Fills D (fun q c => W q c ∨ W' q c) s s'' := by
  refine ⟨h'.here.trans h.here, fun hs => h'.named (h.named hs), ?_⟩
  intro q
  rcases h'.node? q with ⟨c, hw', hc, hne'⟩ | ⟨hw', hq'⟩
  · refine .inl ⟨c, .inr hw', hc, ?_⟩
    intro hd
    exact hne' (h.directory hd)
  · rcases h.node? q with ⟨c, hw, hc, hne⟩ | ⟨hw, hq⟩
    · rcases hq' with kept | ⟨hn, -, -⟩
      · exact .inl ⟨c, .inl hw, kept.trans hc, hne⟩
      · rw [hc] at hn
        cases hn
    · refine .inr ⟨fun c => not_or.mpr ⟨hw c, hw' c⟩, ?_⟩
      rcases hq with kept | ⟨hn, hd, hD⟩
      · rw [kept] at hq'
        exact hq'
      · rcases hq' with kept' | ⟨hn', -, -⟩
        · exact .inr ⟨hn, kept'.trans hd, hD⟩
        · rw [hd] at hn'
          cases hn'

/-- Something is written after directories have been made. -/
theorem after (h : Fills D NoFile s s') (h' : Fills D W s' s'') : Fills D W s s'' := by
  refine (h.trans h').congr ?_
  intro q c
  exact or_iff_right id

/-- What is written later takes the place of what was written before. -/
theorem override (h : Fills D W s s') (h' : Fills D W' s' s'') :
    Fills D (fun q c => W' q c ∨ (∀ c', ¬ W' q c') ∧ W q c) s s'' := by
  have both := h.trans h'
  refine ⟨both.here, both.named, ?_⟩
  intro q
  rcases h'.node? q with ⟨c, hw', hc, hne'⟩ | ⟨hw', hq'⟩
  · refine .inl ⟨c, .inl hw', hc, ?_⟩
    intro hd
    exact hne' (h.directory hd)
  · rcases both.node? q with ⟨c, hw, hc, hne⟩ | ⟨hw, hq⟩
    · exact .inl ⟨c, .inr ⟨hw', hw.resolve_right (hw' c)⟩, hc, hne⟩
    · refine .inr ⟨?_, hq⟩
      rintro c (hc | ⟨-, hc⟩)
      · exact hw' c hc
      · exact hw c (.inl hc)

theorem placeOf (h : Fills D W s s') (path : String) : s'.placeOf path = s.placeOf path :=
  placeOf_of_here h.here path

theorem locate {p : List String} (h : Fills D W s s') (hl : s.locate path = .ok p) :
    s'.locate path = .ok p := by
  unfold FileStore.locate startOf at hl ⊢
  split at hl
  next => cases hl
  next hp =>
    rw [if_neg hp, h.here]
    exact walk_mono (fun _ => h.directory) (fun _ => h.present) hl

theorem reaches (h : Fills D W s s') (hp : s.Reaches path) : s'.Reaches path := by
  rcases hp with hp | hp
  · exact .inl hp
  · refine .inr ?_
    rw [h.placeOf]
    exact h.locate hp

/-- One operation after another fills what each of them fills. -/
theorem forM {ε α : Type} {f : α → FileAction ε Unit} {W : α → List String → List UInt8 → Prop}
    {l : List α} (P : FileStore → Prop)
    (step : ∀ a ∈ l, ∀ s s', P s → (f a).runOn s = (.ok (), s') → Fills D (W a) s s' ∧ P s')
    (hP : P s) (h : (l.forM f).runOn s = (.ok (), s')) :
    Fills D (fun q c => ∃ a ∈ l, W a q c) s s' := by
  induction l generalizing s with
  | nil =>
    cases h
    exact (refl D s').congr (by simp)
  | cons a l ih =>
    rw [List.forall_mem_cons] at step
    obtain ⟨⟨⟩, s₁, h₁, h₂⟩ := FileAction.runOn_bind_eq_ok.mp h
    obtain ⟨first, hP⟩ := step.1 s s₁ hP h₁
    refine (first.trans (ih step.2 hP h₂)).congr ?_
    intro q c
    rw [List.exists_mem_cons_iff]

end Fills

/-- A path leads to a directory. -/
structure LeadsToDirectory (s : FileStore) (path : String) : Prop where
  locate : s.locate path = .ok (s.placeOf path)
  node? : s.root.node? (s.placeOf path) = some .directory

theorem hasDirectory_iff : s.hasDirectory path ↔ s.LeadsToDirectory path := by
  unfold hasDirectory get?
  cases hl : s.locate path with
  | error fault =>
    refine iff_of_false Bool.false_ne_true ?_
    intro h
    cases hl.symm.trans h.locate
  | ok p =>
    cases place_of_locate hl
    constructor
    · intro h
      refine ⟨hl, ?_⟩
      have h : (s.root.find? (s.placeOf path)).any FileTree.isDirectory = true := h
      unfold FileTree.node?
      cases hf : s.root.find? (s.placeOf path) with
      | none =>
        rw [hf] at h
        cases h
      | some t =>
        rw [hf] at h
        cases t with
        | file content => cases h
        | directory entries => rfl
    · intro h
      obtain ⟨entries, hf⟩ := FileTree.find?_of_node?_directory h.node?
      show (s.root.find? (s.placeOf path)).any FileTree.isDirectory
      rw [hf]
      rfl

/-- A place that a path passes or leads to. -/
def OnWay (s : FileStore) (path : String) (q : List String) : Prop :=
  ∃ before, before <+: splitText '/' path ∧ q = placeFrom (s.startOf path) before

theorem onWay_placeOf (s : FileStore) (path : String) : s.OnWay path (s.placeOf path) :=
  ⟨_, List.prefix_refl _, rfl⟩

theorem OnWay.prefix_placeOf (h : s.OnWay path q) (hp : ".." ∉ splitText '/' path) :
    q <+: s.placeOf path := by
  obtain ⟨before, ⟨after, e⟩, rfl⟩ := h
  unfold placeOf
  rw [← e, List.mem_append, not_or] at hp
  rw [← e, placeFrom_append]
  exact prefix_placeFrom hp.2 _

theorem onWay_of_here (h : s'.here = s.here) : s'.OnWay path q ↔ s.OnWay path q := by
  unfold OnWay startOf
  rw [h]

theorem OnWay.fills (h : Fills D W s s') : s'.OnWay path q ↔ s.OnWay path q :=
  onWay_of_here h.here

/-- What a path passes is there if the path leads somewhere. -/
theorem OnWay.present {p : List String} (hl : s.locate path = .ok p) (h : s.OnWay path q) :
    s.root.node? q ≠ none := by
  obtain ⟨before, ⟨after, e⟩, rfl⟩ := h
  have hp : path ≠ "" := by
    rintro rfl
    cases hl
  rw [locate_of_ne_empty _ hp] at hl
  have start : s.root.node? (s.startOf path) ≠ none := by
    obtain ⟨piece, pieces, e⟩ := List.exists_cons_of_ne_nil (splitText_ne_nil path)
    rw [e] at hl
    rw [(walk_cons.mp hl).1]
    simp
  rw [← e, walk_append] at hl
  obtain ⟨place, hw, -⟩ := bind_eq_ok.mp hl
  rw [← place_of_walk hw]
  exact node?_of_walk hw start

/-- The way to a path is the first part of the way to what is below it. -/
theorem OnWay.below {rest : String} (hr : ¬ isRooted rest) (h : s.OnWay path q) :
    s.OnWay (joinPath path rest) q := by
  obtain ⟨before, hb, rfl⟩ := h
  by_cases hp : path = ""
  · subst hp
    have start : s.startOf rest = s.startOf "" := by
      unfold startOf
      rw [if_neg hr, if_neg (by decide)]
    refine ⟨[], List.nil_prefix, ?_⟩
    rw [joinPath_empty, start]
    apply placeFrom_of_isIdle
    intro piece hm
    rw [List.mem_singleton.mp (hb.subset hm)]
    rfl
  · obtain ⟨pieces, idle, -, e, hi, e'⟩ := exists_splitText_joinPath hp hr
    unfold OnWay startOf
    rw [isRooted_joinPath hp hr, e']
    rw [e] at hb
    rcases List.prefix_or_prefix_of_prefix hb (List.prefix_append pieces idle) with hb | ⟨rest, rfl⟩
    · exact ⟨before, hb.trans (List.prefix_append _ _), rfl⟩
    · refine ⟨pieces, List.prefix_append _ _, ?_⟩
      have empty (piece) (hm : piece ∈ rest) : isIdle piece := by
        rw [hi piece (((List.prefix_append_right_inj pieces).mp hb).subset hm)]
        rfl
      rw [placeFrom_append, placeFrom_of_isIdle empty]

/-- The way to a path below another one goes on from where the other leads. -/
theorem OnWay.of_joinPath {rest : String} (hr : IsPlainPath rest)
    (h : s.OnWay (joinPath path rest) q) : s.OnWay path q ∨
      ∃ names, names ≠ [] ∧ names <+: splitText '/' rest ∧ q = s.placeOf path ++ names := by
  have below {place : List String} {names : List String} (hn : names <+: splitText '/' rest) :
      placeFrom place names = place ++ names :=
    placeFrom_names (fun name hm => hr name (hn.subset hm)) place
  obtain ⟨before, hb, rfl⟩ := h
  by_cases hp : path = ""
  · subst hp
    rw [joinPath_empty] at hb ⊢
    have start : s.startOf rest = s.here := by
      unfold startOf
      rw [if_neg hr.not_isRooted]
    rw [start, below hb]
    by_cases hbefore : before = []
    · subst hbefore
      exact .inl ⟨[], List.nil_prefix, List.append_nil _⟩
    · exact .inr ⟨before, hbefore, hb, rfl⟩
  · have start : s.startOf (joinPath path rest) = s.startOf path := by
      unfold startOf
      rw [isRooted_joinPath hp hr.not_isRooted]
    obtain ⟨pieces, idle, -, e, hi, e'⟩ := exists_splitText_joinPath hp hr.not_isRooted
    have place : s.placeOf path = placeFrom (s.startOf path) pieces := by
      unfold placeOf
      have empty (piece) (hm : piece ∈ idle) : isIdle piece := by
        rw [hi piece hm]
        rfl
      rw [e, placeFrom_append, placeFrom_of_isIdle empty]
    rw [e'] at hb
    rw [start]
    rcases List.prefix_or_prefix_of_prefix hb (List.prefix_append pieces _) with hb | ⟨names, rfl⟩
    · exact .inl ⟨before, hb.trans (e ▸ List.prefix_append _ _), rfl⟩
    · have hn := (List.prefix_append_right_inj pieces).mp hb
      rw [placeFrom_append, ← place, below hn]
      by_cases hnames : names = []
      · subst hnames
        refine .inl ⟨pieces, e ▸ List.prefix_append _ _, ?_⟩
        rw [List.append_nil, place]
      · exact .inr ⟨names, hnames, hn, rfl⟩

theorem prefix_dropIdle (pieces : List String) : dropIdle pieces <+: pieces := by
  unfold dropIdle
  rw [← List.reverse_suffix, List.reverse_reverse]
  exact List.dropWhile_suffix _

theorem isRooted_iff : isRooted path ↔ ∃ pieces, pieces ≠ [] ∧ splitText '/' path = "" :: pieces := by
  unfold isRooted splitText
  cases hp : path.toList with
  | nil => simp [splitAtChar]
  | cons c cs =>
    rw [List.head?_cons, beq_iff_eq, Option.some.injEq, splitAtChar]
    by_cases hc : c = '/'
    · simp [hc, splitAtChar_ne_nil]
    · rw [if_neg hc]
      obtain ⟨piece, pieces, e⟩ := List.exists_cons_of_ne_nil (splitAtChar_ne_nil '/' cs)
      rw [e]
      simp only [hc, List.map_cons, List.cons.injEq, false_iff, not_exists, not_and]
      rintro _ - empty
      have empty := congrArg String.toList empty
      rw [String.toList_ofList] at empty
      cases empty

theorem isRooted_iff_of_splitText {first : String} {rest : List String}
    (e : splitText '/' path = first :: rest) : isRooted path ↔ first = "" ∧ rest ≠ [] := by
  rw [isRooted_iff, e]
  constructor
  · rintro ⟨pieces, hne, he⟩
    cases he
    exact ⟨rfl, hne⟩
  · rintro ⟨rfl, hne⟩
    exact ⟨rest, hne, rfl⟩

/-- The parent of a path is the empty path, the root, or the path written with fewer names after
its first piece. -/
theorem parentPath?_cases {parent first : String} {rest : List String}
    (e : splitText '/' path = first :: rest) (hp : parentPath? path = some parent) :
    (parent = "" ∧ first ≠ "") ∨ (parent = "/" ∧ first = "" ∧ rest ≠ []) ∨
      ∃ names, names <+: rest ∧ rest ≠ [] ∧ (names = [] → first ≠ "") ∧
        parent = "/".intercalate (first :: names) := by
  unfold parentPath? at hp
  rw [e] at hp
  dsimp only at hp
  split at hp
  next =>
    split at hp
    next => cases hp
    next hfirst => exact .inl ⟨(Option.some.inj hp).symm, mt beq_iff_eq.mpr hfirst⟩
  next hne =>
    have hrest : rest ≠ [] := by
      rintro rfl
      exact hne rfl
    split at hp
    next =>
      split at hp
      next hfirst =>
        exact .inr (.inl ⟨(Option.some.inj hp).symm, beq_iff_eq.mp hfirst, hrest⟩)
      next hfirst =>
        refine .inr (.inr ⟨[], List.nil_prefix, hrest, fun _ => mt beq_iff_eq.mpr hfirst, ?_⟩)
        rw [← Option.some.inj hp]
        rfl
    next hnames =>
      have front : dropIdle (dropIdle rest).dropLast <+: rest :=
        (prefix_dropIdle _).trans ((List.dropLast_prefix _).trans (prefix_dropIdle _))
      exact .inr (.inr ⟨_, front, hrest, fun none => absurd none hnames,
        (Option.some.inj hp).symm⟩)

/-- The parent of a path starts where the path does. What is written of it is the first part of the
path, or nothing that leads anywhere. -/
theorem splitText_of_parentPath? {parent : String} (hp : parentPath? path = some parent) :
    (isRooted parent ↔ isRooted path) ∧
      (splitText '/' parent <+: splitText '/' path ∨
        ∀ piece ∈ splitText '/' parent, isIdle piece) := by
  obtain ⟨first, rest, e⟩ := List.exists_cons_of_ne_nil (splitText_ne_nil path)
  rw [isRooted_iff_of_splitText e, e]
  rcases parentPath?_cases e hp with ⟨rfl, hfirst⟩ | ⟨rfl, hfirst, hrest⟩ |
    ⟨names, hnames, hrest, hfirst, rfl⟩
  · exact ⟨iff_of_false (by decide) fun h => hfirst h.1, .inr (by decide)⟩
  · exact ⟨iff_of_true (by decide) ⟨hfirst, hrest⟩, .inr (by decide)⟩
  · have slashless : ∀ name ∈ first :: names, '/' ∉ name.toList := by
      intro name hm
      have written := ((List.prefix_cons_inj first).mpr hnames).subset hm
      rw [← e] at written
      exact slash_of_mem_splitText written
    have pieces := splitText_intercalate slashless (List.cons_ne_nil _ _)
    rw [isRooted_iff_of_splitText pieces, pieces]
    refine ⟨?_, .inl ((List.prefix_cons_inj first).mpr hnames)⟩
    constructor
    · exact fun h => ⟨h.1, hrest⟩
    · exact fun h => ⟨h.1, fun none => hfirst none h.1⟩

/-- The way to the parent of a path is the first part of the way to the path. -/
theorem OnWay.of_parent {parent : String} (hp : parentPath? path = some parent)
    (h : s.OnWay parent q) : s.OnWay path q := by
  obtain ⟨before, hb, rfl⟩ := h
  obtain ⟨rooted, written⟩ := splitText_of_parentPath? hp
  have start : s.startOf parent = s.startOf path := by
    unfold startOf
    rw [Bool.eq_iff_iff.mpr rooted]
  rw [start]
  rcases written with written | idle
  · exact ⟨before, hb.trans written, rfl⟩
  · exact ⟨[], List.nil_prefix, placeFrom_of_isIdle (fun piece hm => idle piece (hb.subset hm)) _⟩

end FileStore

end LivePages
