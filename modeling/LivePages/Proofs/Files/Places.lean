import LivePages.Files.Store
import LivePages.Proofs.Files.Tree
import LivePages.Proofs.Outcome
import LivePages.Proofs.Page.Url
import Mathlib.Data.List.TakeWhile

namespace LivePages

/-- Where a piece of a path leads from a place, whatever is there. -/
def placeStep (place : List String) (piece : String) : List String :=
  if isIdle piece then place else if piece = ".." then place.dropLast else place ++ [piece]

def placeFrom (place pieces : List String) : List String :=
  pieces.foldl placeStep place

section Steps

variable {place pieces pieces' names : List String} {piece name : String}

theorem placeFrom_cons (place : List String) (piece : String) (pieces : List String) :
    placeFrom place (piece :: pieces) = placeFrom (placeStep place piece) pieces :=
  rfl

theorem placeFrom_append (place pieces pieces' : List String) :
    placeFrom place (pieces ++ pieces') = placeFrom (placeFrom place pieces) pieces' :=
  List.foldl_append

theorem placeStep_of_isIdle (h : isIdle piece) : placeStep place piece = place :=
  if_pos h

theorem IsFileName.not_isIdle (h : IsFileName name) : ¬ isIdle name := by
  unfold isIdle
  simp [h.ne_empty, h.ne_dot]

theorem IsFileName.placeStep (h : IsFileName name) (place : List String) :
    placeStep place name = place ++ [name] := by
  unfold LivePages.placeStep
  rw [if_neg h.not_isIdle, if_neg h.ne_dots]

theorem placeFrom_names (h : ∀ name ∈ names, IsFileName name) (place : List String) :
    placeFrom place names = place ++ names := by
  induction names generalizing place with
  | nil => exact (List.append_nil _).symm
  | cons name names ih =>
    rw [List.forall_mem_cons] at h
    rw [placeFrom_cons, h.1.placeStep, ih h.2, List.append_assoc]
    rfl

/-- Without a way up, pieces lead down. -/
theorem prefix_placeFrom (h : ".." ∉ pieces) (place : List String) : place <+: placeFrom place pieces := by
  induction pieces generalizing place with
  | nil => exact List.prefix_refl _
  | cons piece pieces ih =>
    rw [List.mem_cons, not_or] at h
    have step : place <+: placeStep place piece := by
      unfold placeStep
      rw [if_neg (Ne.symm h.1)]
      split
      next => exact List.prefix_refl _
      next => exact List.prefix_append _ _
    exact step.trans (ih h.2 _)

theorem placeFrom_of_isIdle (h : ∀ piece ∈ pieces, isIdle piece) (place : List String) :
    placeFrom place pieces = place := by
  induction pieces generalizing place with
  | nil => rfl
  | cons piece pieces ih =>
    rw [List.forall_mem_cons] at h
    rw [placeFrom_cons, placeStep_of_isIdle h.1, ih h.2]

end Steps

namespace FileStore

variable {root root' : FileTree} {s s' : FileStore} {place p q pieces pieces' names : List String}
  {piece path rest name : String}

/-- A piece is followed from a directory to something that is there. -/
theorem walk_cons : walk root (piece :: pieces) place = .ok p ↔
    root.node? place = some .directory ∧ root.node? (placeStep place piece) ≠ none ∧
      walk root pieces (placeStep place piece) = .ok p := by
  rw [walk]
  unfold FileTree.node?
  cases hf : root.find? place with
  | none => simp
  | some t =>
    cases t with
    | file content => simp [FileTree.node]
    | directory entries =>
      dsimp only
      unfold placeStep
      by_cases hi : isIdle piece
      · simp [hi, hf, FileTree.node]
      · rw [if_neg hi, if_neg hi]
        by_cases hd : piece = ".."
        · rw [if_pos hd, if_pos hd]
          have above : root.find? place.dropLast ≠ none := by
            intro none
            by_cases hp : place = []
            · rw [hp, List.dropLast_nil] at none
              rw [hp, none] at hf
              cases hf
            · have e := List.dropLast_append_getLast hp
              rw [← e, FileTree.find?_append, none] at hf
              cases hf
          simp [above, FileTree.node]
        · rw [if_neg hd, if_neg hd]
          have entry : root.find? (place ++ [piece]) = entries.lookup piece := by
            rw [FileTree.find?_append, hf]
            show (entries.lookup piece).bind (fun t => t.find? []) = _
            cases entries.lookup piece with
            | none => rfl
            | some t => exact FileTree.find?_nil t
          rw [entry]
          cases entries.lookup piece with
          | none => simp
          | some t => simp [FileTree.node]

theorem walk_append (root : FileTree) (pieces pieces' place : List String) :
    walk root (pieces ++ pieces') place =
      (walk root pieces place >>= fun p => walk root pieces' p) := by
  induction pieces generalizing place with
  | nil => rfl
  | cons piece pieces ih =>
    rw [List.cons_append, walk, walk]
    split
    next => rfl
    next => rfl
    next =>
      simp only [ih]
      repeat' split
      all_goals rfl

/-- A piece that leads nowhere else can be left out in front of another one. -/
theorem walk_idle (h : isIdle piece) (hne : pieces ≠ []) (place : List String) :
    walk root (piece :: pieces) place = walk root pieces place := by
  obtain ⟨next, pieces, rfl⟩ := List.exists_cons_of_ne_nil hne
  rw [walk]
  split
  next hf => rw [walk, hf]
  next hf => rw [walk, hf]
  next => rw [if_pos h]

theorem place_of_walk (h : walk root pieces place = .ok p) : p = placeFrom place pieces := by
  induction pieces generalizing place with
  | nil => exact (Except.ok.inj h).symm
  | cons piece pieces ih => exact ih (walk_cons.mp h).2.2

/-- What a path leads to is there. -/
theorem node?_of_walk (h : walk root pieces place = .ok p) (hp : root.node? place ≠ none) :
    root.node? p ≠ none := by
  induction pieces generalizing place with
  | nil => exact Except.ok.inj h ▸ hp
  | cons piece pieces ih => exact ih (walk_cons.mp h).2.2 (walk_cons.mp h).2.1

/-- A path leads to the same place after files have been added. -/
theorem walk_mono (hd : ∀ q, root.node? q = some .directory → root'.node? q = some .directory)
    (hn : ∀ q, root.node? q ≠ none → root'.node? q ≠ none)
    (h : walk root pieces place = .ok p) : walk root' pieces place = .ok p := by
  induction pieces generalizing place with
  | nil => exact h
  | cons piece pieces ih =>
    obtain ⟨directory, present, h⟩ := walk_cons.mp h
    exact walk_cons.mpr ⟨hd _ directory, hn _ present, ih h⟩

/-- Names lead to what stands under them. -/
theorem walk_names (hn : ∀ name ∈ names, IsFileName name) (hne : names ≠ []) :
    walk root names place = .ok p ↔ p = place ++ names ∧ root.node? (place ++ names) ≠ none := by
  constructor
  · intro h
    have e := place_of_walk h
    rw [placeFrom_names hn] at e
    refine ⟨e, ?_⟩
    obtain ⟨name, names, rfl⟩ := List.exists_cons_of_ne_nil hne
    rw [← e]
    exact node?_of_walk (walk_cons.mp h).2.2 (walk_cons.mp h).2.1
  · rintro ⟨rfl, present⟩
    induction names generalizing place with
    | nil => exact absurd rfl hne
    | cons name names ih =>
      rw [List.forall_mem_cons] at hn
      have directory := FileTree.node?_parent present hne
      rw [List.append_cons] at present
      have named : root.node? (place ++ [name]) ≠ none := by
        by_cases he : names = []
        · rwa [he, List.append_nil] at present
        · rw [FileTree.node?_parent present he]
          simp
      rw [walk_cons, hn.1.placeStep]
      refine ⟨directory, named, ?_⟩
      by_cases he : names = []
      · subst he
        rfl
      · rw [List.append_cons place name names]
        exact ih hn.2 he present

end FileStore

section Paths

variable {path rest : String} {names : List String}

theorem splitText_ne_nil (path : String) : splitText '/' path ≠ [] := by
  unfold splitText
  rw [Ne, List.map_eq_nil_iff]
  exact splitAtChar_ne_nil '/' path.toList

theorem splitText_append (a b : String) :
    splitText '/' (a ++ "/" ++ b) = splitText '/' a ++ splitText '/' b := by
  have e : (a ++ "/" ++ b).toList = a.toList ++ '/' :: b.toList := by
    rw [String.toList_append, String.toList_append, List.append_assoc]
    rfl
  unfold splitText
  rw [e, splitAtChar_separator, List.map_append]

theorem splitText_of_not_mem (h : '/' ∉ path.toList) : splitText '/' path = [path] := by
  unfold splitText
  rw [splitAtChar_of_not_mem h, List.map_singleton, String.ofList_toList]

theorem slash_of_mem_splitText {piece : String} (h : piece ∈ splitText '/' path) :
    '/' ∉ piece.toList := by
  obtain ⟨chars, hc, rfl⟩ := List.mem_map.mp h
  rw [String.toList_ofList]
  exact not_mem_of_mem_splitAtChar hc

theorem splitText_intercalate (h : ∀ name ∈ names, '/' ∉ name.toList) (hne : names ≠ []) :
    splitText '/' ("/".intercalate names) = names := by
  induction names with
  | nil => exact absurd rfl hne
  | cons name names ih =>
    rw [List.forall_mem_cons] at h
    cases names with
    | nil => rw [String.intercalate_singleton, splitText_of_not_mem h.1]
    | cons next names =>
      rw [String.intercalate_cons_cons, splitText_append, splitText_of_not_mem h.1,
        ih h.2 (List.cons_ne_nil _ _)]
      rfl

theorem not_isRooted_of_not_mem (h : '/' ∉ path.toList) : ¬ isRooted path := by
  intro hr
  unfold isRooted at hr
  exact h (List.mem_of_head? (beq_iff_eq.mp hr))

/-- A rooted path starts with a piece in front of its first slash. -/
theorem head_of_isRooted (h : isRooted path) : (splitText '/' path).head? = some "" := by
  unfold isRooted at h
  unfold splitText
  cases hp : path.toList with
  | nil =>
    rw [hp] at h
    cases h
  | cons c cs =>
    rw [hp, List.head?_cons, beq_iff_eq, Option.some.injEq] at h
    rw [splitAtChar, if_pos h]
    rfl

/-- A path that is made of names. -/
def IsPlainPath (path : String) : Prop :=
  ∀ piece ∈ splitText '/' path, IsFileName piece

instance (path : String) : Decidable (IsPlainPath path) :=
  inferInstanceAs (Decidable (∀ piece ∈ splitText '/' path, IsFileName piece))

theorem isPlainPath_intercalate (h : ∀ name ∈ names, IsFileName name) (hne : names ≠ []) :
    IsPlainPath ("/".intercalate names) := by
  unfold IsPlainPath
  rw [splitText_intercalate (fun name hn => (h name hn).slash) hne]
  exact h

theorem IsFileName.isPlainPath (h : IsFileName path) : IsPlainPath path := by
  unfold IsPlainPath
  rw [splitText_of_not_mem h.slash]
  simpa using h

theorem IsPlainPath.not_isRooted (h : IsPlainPath path) : ¬ isRooted path := by
  intro hr
  exact (h "" (List.mem_of_mem_head? (head_of_isRooted hr))).ne_empty rfl

/-- The pieces of a path below another one follow those of the other, except for what is behind the
last slash of the other, which is nothing. -/
theorem exists_splitText_joinPath (hp : path ≠ "") (hr : ¬ isRooted rest) :
    ∃ pieces idle, pieces ≠ [] ∧ splitText '/' path = pieces ++ idle ∧
      (∀ piece ∈ idle, piece = "") ∧
        splitText '/' (joinPath path rest) = pieces ++ splitText '/' rest := by
  unfold joinPath
  rw [if_neg hr]
  split
  next h =>
    have slash : path.toList.getLast? = some '/' := by simpa [hp] using h
    have e : path = String.ofList path.toList.dropLast ++ "/" := by
      apply String.toList_inj.mp
      rw [String.toList_append, String.toList_ofList]
      exact (List.dropLast_append_getLast? _ slash).symm
    refine ⟨splitText '/' (String.ofList path.toList.dropLast), [""], splitText_ne_nil _, ?_,
      by simp, ?_⟩
    · have split := splitText_append (String.ofList path.toList.dropLast) ""
      rwa [String.append_empty, ← e] at split
    · rw [← splitText_append, ← e]
  next =>
    exact ⟨splitText '/' path, [], splitText_ne_nil path, by simp, by simp, splitText_append path rest⟩

theorem joinPath_empty (rest : String) : joinPath "" rest = rest := by
  unfold joinPath
  split
  next => rfl
  next =>
    rw [if_pos (by decide)]
    exact String.empty_append

theorem toList_joinPath (path : String) (hr : ¬ isRooted rest) :
    ∃ tail, (joinPath path rest).toList = path.toList ++ tail := by
  unfold joinPath
  rw [if_neg hr]
  split
  next => exact ⟨_, String.toList_append⟩
  next =>
    rw [String.append_assoc]
    exact ⟨_, String.toList_append⟩

theorem joinPath_ne_empty (hp : path ≠ "") (hr : ¬ isRooted rest) : joinPath path rest ≠ "" := by
  obtain ⟨tail, e⟩ := toList_joinPath path hr
  intro empty
  rw [empty] at e
  have none := (List.append_eq_nil_iff.mp e.symm).1
  exact hp (String.toList_inj.mp none)

theorem isRooted_joinPath (hp : path ≠ "") (hr : ¬ isRooted rest) :
    isRooted (joinPath path rest) = isRooted path := by
  obtain ⟨tail, e⟩ := toList_joinPath path hr
  unfold isRooted
  rw [e]
  cases h : path.toList with
  | nil => exact absurd (String.toList_inj.mp h) hp
  | cons c cs => rfl

end Paths

namespace FileStore

variable {s s' : FileStore} {p : List String} {path rest : String} {n : FileNode}

/-- Where a path leads, whatever is there. -/
def placeOf (s : FileStore) (path : String) : List String :=
  placeFrom (s.startOf path) (splitText '/' path)

/-- What a path leads to. -/
def node? (s : FileStore) (path : String) : Option FileNode :=
  (s.get? path).map FileTree.node

theorem placeOf_empty (s : FileStore) : s.placeOf "" = s.here :=
  rfl

theorem placeOf_of_here (h : s'.here = s.here) (path : String) : s'.placeOf path = s.placeOf path := by
  unfold placeOf startOf
  rw [h]

theorem locate_of_ne_empty (s : FileStore) (h : path ≠ "") :
    s.locate path = walk s.root (splitText '/' path) (s.startOf path) :=
  if_neg h

theorem place_of_locate (h : s.locate path = .ok p) : p = s.placeOf path := by
  unfold locate at h
  split at h
  next => cases h
  next => exact place_of_walk h

theorem placeOf_joinPath (hr : ¬ isRooted rest) :
    s.placeOf (joinPath path rest) = placeFrom (s.placeOf path) (splitText '/' rest) := by
  by_cases hp : path = ""
  · subst hp
    rw [joinPath_empty, placeOf_empty]
    unfold placeOf startOf
    rw [if_neg hr]
  · obtain ⟨pieces, idle, -, e, hi, e'⟩ := exists_splitText_joinPath hp hr
    unfold placeOf startOf
    rw [isRooted_joinPath hp hr, e, e', placeFrom_append, placeFrom_append]
    have empty (piece) (h : piece ∈ idle) : isIdle piece := by
      rw [hi piece h]
      rfl
    rw [placeFrom_of_isIdle empty]

theorem placeOf_plain (hr : IsPlainPath rest) :
    s.placeOf (joinPath path rest) = s.placeOf path ++ splitText '/' rest := by
  rw [placeOf_joinPath hr.not_isRooted, placeFrom_names hr]

/-- A path below another one is followed from where the other leads. -/
theorem locate_joinPath (hp : path ≠ "") (hr : ¬ isRooted rest) : s.locate (joinPath path rest) =
    (s.locate path >>= fun p => walk s.root (splitText '/' rest) p) := by
  obtain ⟨pieces, idle, -, e, hi, e'⟩ := exists_splitText_joinPath hp hr
  have start : s.startOf (joinPath path rest) = s.startOf path := by
    unfold startOf
    rw [isRooted_joinPath hp hr]
  rw [locate_of_ne_empty _ (joinPath_ne_empty hp hr), locate_of_ne_empty _ hp, start, e, e',
    ← walk_append, List.append_assoc, walk_append, walk_append]
  refine bind_congr ?_
  intro place
  clear e
  induction idle with
  | nil => rfl
  | cons piece idle ih =>
    rw [List.forall_mem_cons] at hi
    have idle' : isIdle piece := by
      rw [hi.1]
      rfl
    rw [List.cons_append, walk_idle idle' (by simp [splitText_ne_nil])]
    exact ih hi.2

/-- A path is empty or leads somewhere; so what is below it can be reached. -/
def Reaches (s : FileStore) (path : String) : Prop :=
  path = "" ∨ s.locate path = .ok (s.placeOf path)

theorem locate_plain_iff (hr : IsPlainPath rest) (h : s.Reaches path) :
    s.locate (joinPath path rest) = .ok p ↔
      p = s.placeOf path ++ splitText '/' rest ∧
        s.root.node? (s.placeOf path ++ splitText '/' rest) ≠ none := by
  by_cases hp : path = ""
  · subst hp
    have hne : rest ≠ "" := by
      rintro rfl
      exact (hr "" (by decide)).ne_empty rfl
    rw [joinPath_empty, locate_of_ne_empty _ hne, placeOf_empty]
    unfold startOf
    rw [if_neg hr.not_isRooted]
    exact walk_names hr (splitText_ne_nil rest)
  · rw [locate_joinPath hp hr.not_isRooted, h.resolve_left hp, ok_bind]
    exact walk_names hr (splitText_ne_nil rest)

theorem reaches_of_locate (hr : IsPlainPath rest) (h : s.locate (joinPath path rest) = .ok p) :
    s.Reaches path := by
  by_cases hp : path = ""
  · exact .inl hp
  · rw [locate_joinPath hp hr.not_isRooted] at h
    obtain ⟨place, hl, -⟩ := bind_eq_ok.mp h
    exact .inr (place_of_locate hl ▸ hl)

theorem node?_of_locate (h : s.locate path = .ok p) : s.node? path = s.root.node? p := by
  unfold node? get?
  rw [h]
  rfl

theorem node?_joinPath (hr : IsPlainPath rest) (h : s.Reaches path) :
    s.node? (joinPath path rest) = s.root.node? (s.placeOf path ++ splitText '/' rest) := by
  cases hl : s.locate (joinPath path rest) with
  | ok p =>
    rw [node?_of_locate hl, ((locate_plain_iff hr h).mp hl).1]
  | error fault =>
    have none : s.root.node? (s.placeOf path ++ splitText '/' rest) = none := by
      by_contra present
      cases hl.symm.trans ((locate_plain_iff hr h).mpr ⟨rfl, present⟩)
    rw [none]
    unfold node? get?
    rw [hl]
    rfl

theorem locate_of_node? (h : s.node? path = some n) : s.locate path = .ok (s.placeOf path) := by
  unfold node? get? at h
  cases hl : s.locate path with
  | ok p => rw [place_of_locate hl]
  | error fault =>
    rw [hl] at h
    cases h

theorem reaches_of_has (hr : IsPlainPath rest) (h : s.has (joinPath path rest)) : s.Reaches path := by
  obtain ⟨t, ht⟩ := Option.isSome_iff_exists.mp h
  have node : s.node? (joinPath path rest) = some t.node := by
    unfold node?
    rw [ht]
    rfl
  exact reaches_of_locate hr (locate_of_node? node)

theorem node?_of_joinPath (hr : IsPlainPath rest) (h : s.node? (joinPath path rest) = some n) :
    s.root.node? (s.placeOf path ++ splitText '/' rest) = some n := by
  rw [← h, node?_joinPath hr (reaches_of_locate hr (locate_of_node? h))]

/-- Names can also be looked up in two parts, whether or not the first part is there. -/
theorem node?_joinPath_joinPath {rest' : String} (hr : IsPlainPath rest) (hr' : IsPlainPath rest')
    (h : s.Reaches path) : s.node? (joinPath (joinPath path rest) rest') =
      s.root.node? (s.placeOf path ++ splitText '/' rest ++ splitText '/' rest') := by
  have place : s.placeOf (joinPath path rest) = s.placeOf path ++ splitText '/' rest :=
    placeOf_plain hr
  by_cases hp : s.root.node? (s.placeOf path ++ splitText '/' rest) = none
  · have none : s.root.node? (s.placeOf path ++ splitText '/' rest ++ splitText '/' rest') = none := by
      by_contra present
      have directory := FileTree.node?_parent present (splitText_ne_nil rest')
      cases hp.symm.trans directory
    rw [none]
    by_contra present
    obtain ⟨n, hn⟩ := Option.ne_none_iff_exists'.mp present
    have found := node?_of_joinPath hr' hn
    rw [place, none] at found
    cases found
  · have reached : s.Reaches (joinPath path rest) := by
      refine .inr ?_
      rw [place]
      exact (locate_plain_iff hr h).mpr ⟨rfl, hp⟩
    rw [node?_joinPath hr' reached, place]

/-- Where a new file or directory goes: into a directory to which the path leads, under a name. -/
structure Target.IsFor (t : Target) (s : FileStore) (path : String) (before idle : List String) :
    Prop where
  pieces : splitText '/' path = before ++ t.name :: idle
  empty : ∀ piece ∈ idle, piece = ""
  walk : walk s.root before (s.startOf path) = .ok t.place
  directory : s.root.find? t.place = some (.directory t.entries)
  named : IsFileName t.name
  slash : t.slash = false → idle = []

theorem exists_isFor_target {t : Target} (h : s.target path = .ok t) (hs : ¬ t.isSpecial) :
    ∃ before idle, t.IsFor s path before idle := by
  unfold target at h
  split at h
  next => cases h
  dsimp only at h
  split at h
  next => cases h
  next place hw =>
    split at h
    next entries hd =>
      cases h
      generalize hn : (splitText '/' path).reverse.dropWhile (· == "") = named at hw hs
      have split : (splitText '/' path).reverse =
          (splitText '/' path).reverse.takeWhile (· == "") ++ named := by
        rw [← hn, List.takeWhile_append_dropWhile]
      have pieces := congrArg List.reverse split
      rw [List.reverse_reverse, List.reverse_append] at pieces
      have idle : ∀ piece ∈ ((splitText '/' path).reverse.takeWhile (· == "")).reverse,
          piece = "" := by
        intro piece hm
        have empty := List.mem_takeWhile_imp (List.mem_reverse.mp hm)
        exact beq_iff_eq.mp empty
      generalize ((splitText '/' path).reverse.takeWhile (· == "")).reverse = trail at pieces idle
      cases named with
      | nil => exact absurd rfl hs
      | cons name before =>
        rw [List.reverse_cons, List.append_assoc, List.singleton_append] at pieces
        have hs : ¬ (isIdle name || name == "..") := hs
        unfold isIdle at hs
        simp only [Bool.or_eq_true, beq_iff_eq, not_or] at hs
        refine ⟨before.reverse, trail, pieces, idle, hw, hd, ⟨hs.1.1, hs.1.2, hs.2, ?_⟩, ?_⟩
        · have hm : name ∈ splitText '/' path := by
            rw [pieces]
            simp
          exact slash_of_mem_splitText hm
        · intro slash
          by_contra hne
          obtain ⟨front, last, rfl⟩ : ∃ front last, trail = front ++ [last] :=
            ⟨_, _, (List.dropLast_append_getLast hne).symm⟩
          have slash : ((splitText '/' path).reverse.head? == some "") = false := slash
          rw [pieces, idle last (by simp)] at slash
          simp at slash
    next => cases h
    next => cases h

namespace Target.IsFor

variable {t : Target} {before idle : List String}

theorem placeOf (h : t.IsFor s path before idle) : s.placeOf path = t.place ++ [t.name] := by
  unfold FileStore.placeOf
  have empty (piece) (hm : piece ∈ idle) : isIdle piece := by
    rw [h.empty piece hm]
    rfl
  rw [h.pieces, placeFrom_append, placeFrom_cons, ← place_of_walk h.walk, h.named.placeStep,
    placeFrom_of_isIdle empty]

theorem ne_empty (h : t.IsFor s path before idle) : path ≠ "" := by
  rintro rfl
  have pieces : [""] = before ++ t.name :: idle := h.pieces
  have hm : t.name ∈ [""] := by
    rw [pieces]
    simp
  exact h.named.ne_empty (List.mem_singleton.mp hm)

theorem node?_place (h : t.IsFor s path before idle) : s.root.node? t.place = some .directory := by
  unfold FileTree.node?
  rw [h.directory]
  rfl

theorem find? (h : t.IsFor s path before idle) :
    s.root.find? (t.place ++ [t.name]) = t.entries.lookup t.name := by
  rw [FileTree.find?_append, h.directory]
  show (t.entries.lookup t.name).bind (fun u => u.find? []) = _
  cases t.entries.lookup t.name with
  | none => rfl
  | some u => exact FileTree.find?_nil u

end Target.IsFor

end FileStore

end LivePages
