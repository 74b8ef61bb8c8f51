import LivePages.Proofs.Site.Findable
import LivePages.Site.Matching

namespace LivePages

section Escape

variable {text : String} {cs : List Char}

/-- What stands for a character in a pattern. -/
def bracket (c : Char) : List Char :=
  if isPatternMark c then ['[', c, ']'] else [c]

theorem toList_escapePattern (text : String) :
    (escapePattern text).toList = text.toList.flatMap bracket :=
  String.toList_ofList

theorem bracket_cases (c : Char) :
    (isPatternMark c = true ∧ bracket c = ['[', c, ']']) ∨
      (isPatternMark c = false ∧ bracket c = [c]) := by
  unfold bracket
  cases isPatternMark c <;> simp

theorem escapePattern_ne_empty (h : text ≠ "") : escapePattern text ≠ "" := by
  intro e
  have e := congrArg String.toList e
  rw [toList_escapePattern] at e
  obtain ⟨c, cs, hc⟩ := List.exists_cons_of_ne_nil fun hnil => h (String.toList_inj.mp hnil)
  rw [hc, List.flatMap_cons] at e
  rcases bracket_cases c with ⟨-, hb⟩ | ⟨-, hb⟩ <;> rw [hb] at e <;> cases e

theorem slash_mem_bracket {c : Char} : '/' ∈ bracket c ↔ c = '/' := by
  rcases bracket_cases c with ⟨hm, e⟩ | ⟨-, e⟩
  · have hne : c ≠ '/' := by
      rintro rfl
      cases hm
    simp [e, hne, hne.symm]
  · simp [e, eq_comm]

theorem any_bracket (c : Char) : (bracket c).any isPatternMark = isPatternMark c := by
  rcases bracket_cases c with ⟨hm, e⟩ | ⟨-, e⟩
  · rw [e, hm]
    rfl
  · rw [e, List.any_cons, List.any_nil, Bool.or_false]

theorem literalText?_bracket (cs : List Char) : literalText? (cs.flatMap bracket) = some cs := by
  induction cs with
  | nil => rfl
  | cons c cs ih =>
    rw [List.flatMap_cons]
    rcases bracket_cases c with ⟨hm, e⟩ | ⟨hm, e⟩
    · rw [e]
      show literalText? ('[' :: c :: ']' :: cs.flatMap bracket) = _
      rw [literalText?, if_pos hm, ih, Option.map_some]
    · rw [e]
      show literalText? (c :: cs.flatMap bracket) = _
      have hne : c ≠ '[' := by
        rintro rfl
        cases hm
      rw [literalText?, if_neg (by simp [hm]), ih, Option.map_some]
      exact fun _ _ h => absurd h hne

/-- The piece of a pattern that matches a text. -/
def literalPiece (text : String) : PatternPiece :=
  ⟨text, text.toList.any isPatternMark⟩

theorem ofText?_escapePattern (text : String) :
    PatternPiece.ofText? (escapePattern text) = some (literalPiece text) := by
  unfold PatternPiece.ofText?
  rw [toList_escapePattern, literalText?_bracket, Option.map_some, String.ofList_toList,
    List.any_flatMap, literalPiece]
  simp only [any_bracket]

example : PatternPiece.ofText? "s[[]1[]][*]" = some (literalPiece "s[1]*") := by decide

theorem splitAtChar_block {separator : Char} {block piece : List Char} {pieces : List (List Char)}
    (h : separator ∉ block) (hs : splitAtChar separator cs = piece :: pieces) :
    splitAtChar separator (block ++ cs) = (block ++ piece) :: pieces := by
  induction block with
  | nil => exact hs
  | cons c block ih =>
    rw [List.mem_cons, not_or] at h
    rw [List.cons_append, splitAtChar, if_neg (Ne.symm h.1), ih h.2]
    rfl

/-- A slash is no special character, so the pieces of the pattern are those of the text. -/
theorem splitAtChar_bracket (cs : List Char) :
    splitAtChar '/' (cs.flatMap bracket) = (splitAtChar '/' cs).map (List.flatMap bracket) := by
  induction cs with
  | nil => rfl
  | cons c cs ih =>
    rw [List.flatMap_cons]
    by_cases hc : c = '/'
    · have e : bracket c = ['/'] := by
        rw [hc]
        rfl
      rw [e, List.singleton_append, splitAtChar, splitAtChar, if_pos rfl, if_pos hc, ih]
      rfl
    · obtain ⟨piece, pieces, e⟩ := List.exists_cons_of_ne_nil (splitAtChar_ne_nil '/' cs)
      rw [e] at ih
      rw [splitAtChar_block (mt slash_mem_bracket.mp hc) ih, splitAtChar, if_neg hc, e]
      rfl

theorem splitText_escapePattern (text : String) :
    splitText '/' (escapePattern text) = (splitText '/' text).map escapePattern := by
  unfold splitText
  rw [toList_escapePattern, splitAtChar_bracket, List.map_map, List.map_map]
  refine List.map_congr_left fun piece _ => ?_
  apply String.toList_inj.mp
  rw [Function.comp_apply, Function.comp_apply, toList_escapePattern, String.toList_ofList,
    String.toList_ofList]

theorem isRooted_escapePattern (text : String) : isRooted (escapePattern text) = isRooted text := by
  unfold isRooted
  rw [toList_escapePattern]
  cases text.toList with
  | nil => rfl
  | cons c cs =>
    rcases bracket_cases c with ⟨hm, e⟩ | ⟨-, e⟩
    · have hne : c ≠ '/' := by
        rintro rfl
        cases hm
      simp [e, hne]
    · simp [e]

theorem startsAtRoot_escapePattern (text : String) :
    startsAtRoot (escapePattern text) = startsAtRoot text := by
  by_cases h : text = ""
  · subst h
    rfl
  · rw [startsAtRoot_of_ne (escapePattern_ne_empty h), startsAtRoot_of_ne h, isRooted_escapePattern]

theorem mapM_ofText? (pieces : List String) :
    (pieces.map escapePattern).mapM PatternPiece.ofText? = some (pieces.map literalPiece) := by
  induction pieces with
  | nil => rfl
  | cons piece pieces ih =>
    rw [List.map_cons, List.mapM_cons, ofText?_escapePattern, ih]
    rfl

end Escape

namespace FileStore

variable {s : FileStore} {site found next piece path rest : String} {names pieces : List String}
  {t u : FileTree}

/-- Names below a path that was found lead to what stands under them. -/
theorem get?_belowSite (hf : found ≠ "") (hn : ∀ name ∈ names, IsFileName name) (hne : names ≠ []) :
    s.get? (belowSite found ("/".intercalate names)) = (s.get? found).bind fun t => t.find? names := by
  have hr := isPlainPath_intercalate hn hne
  have split := splitText_intercalate (fun name hm => (hn name hm).slash) hne
  have hrest (_ : found = ".") : "/".intercalate names ≠ "" := by
    intro e
    rw [e] at hr
    exact (hr "" (by decide)).ne_empty rfl
  rw [get?_eq, get?_eq, place?, place?, locate_belowSite hf hr.not_isRooted hrest, split]
  cases s.locate found with
  | error fault => rfl
  | ok place =>
    rw [ok_bind]
    have append := FileTree.find?_append s.root place names
    show (walk s.root names place).toOption.bind s.root.find? = (s.root.find? place).bind _
    rw [← append]
    cases hw : walk s.root names place with
    | ok p =>
      rw [((walk_names hn hne).mp hw).1]
      rfl
    | error fault =>
      have none : s.root.node? (place ++ names) = none := by
        by_contra present
        cases hw.symm.trans ((walk_names hn hne).mpr ⟨rfl, present⟩)
      exact (Option.map_eq_none_iff.mp none).symm

theorem step?_eq_some (h : s.step? found piece = some next) : next = belowSite found piece := by
  have e : s.step? found piece = if piece == "." || piece == ".." then
      if s.hasDirectory found then some (belowSite found piece) else none
    else if s.has (belowSite found piece) then some (belowSite found piece) else none := rfl
  rw [e] at h
  split at h <;> split at h <;> cases h <;> rfl

/-- Nothing is found under an empty path. -/
theorem ne_empty_of_step? (hf : found ≠ "") (hs : '/' ∉ piece.toList)
    (h : s.step? found piece = some next) : next ≠ "" := by
  cases step?_eq_some h
  unfold belowSite
  split
  next hdot =>
    rintro rfl
    cases beq_iff_eq.mp hdot
    cases h
  next => exact joinPath_ne_empty hf (not_isRooted_of_not_mem hs)

theorem isFileName_of_mark (hs : '/' ∉ piece.toList) (hm : piece.toList.any isPatternMark) :
    IsFileName piece where
  ne_empty := by
    rintro rfl
    cases hm
  ne_dot := by
    rintro rfl
    cases hm
  ne_dots := by
    rintro rfl
    cases hm
  slash := hs

theorem named_of_get? (hroot : s.root.Named) (h : s.get? path = some t) : t.Named := by
  unfold get? at h
  split at h
  next => exact (hroot.find? h).1
  next => cases h

theorem nodup_namesIn (hroot : s.root.Named) (found : String) : (s.namesIn found).Nodup := by
  unfold namesIn
  split
  next entries h =>
    cases named_of_get? hroot h with
    | directory nodup names trees => exact nodup
  next => exact List.nodup_nil

theorem mem_namesIn (hroot : s.root.Named) (hf : found ≠ "") (hn : IsFileName piece) :
    piece ∈ s.namesIn found ↔ s.has (belowSite found piece) := by
  have get : s.get? (belowSite found ("/".intercalate [piece])) = _ :=
    get?_belowSite hf (by simpa using hn) (List.cons_ne_nil _ _)
  rw [String.intercalate_singleton] at get
  unfold has namesIn
  rw [get]
  cases h : s.get? found with
  | none => simp
  | some t =>
    cases named_of_get? hroot h with
    | file content => simp [FileTree.find?]
    | @directory entries nodup names trees =>
      have find : (FileTree.directory entries).find? [piece] = entries.lookup piece := by
        show (entries.lookup piece).bind (fun t => t.find? []) = _
        cases entries.lookup piece with
        | none => rfl
        | some t => exact FileTree.find?_nil t
      rw [Option.bind_some, find, Option.isSome_iff_exists]
      constructor
      · intro hm
        obtain ⟨e, he, rfl⟩ := List.mem_map.mp hm
        exact ⟨e.2, FileTree.lookup_of_mem nodup he⟩
      · rintro ⟨u, hu⟩
        exact List.mem_map_of_mem (FileTree.mem_of_lookup hu)

/-- A piece of the site's path is found in the same way where something stands in brackets. -/
theorem matchPiece_literalPiece (hroot : s.root.Named) (hf : found ≠ "") (hs : '/' ∉ piece.toList) :
    s.matchPiece found (literalPiece piece) = (s.step? found piece).toList := by
  unfold matchPiece literalPiece
  dsimp only
  split
  next hm =>
    have hn := isFileName_of_mark hs hm
    have e : s.step? found piece =
        if s.has (belowSite found piece) then some (belowSite found piece) else none := by
      unfold step?
      dsimp only
      rw [if_neg (by simp [hn.ne_dot, hn.ne_dots])]
      rfl
    rw [e, List.filter_beq]
    by_cases hmem : piece ∈ s.namesIn found
    · rw [List.count_eq_one_of_mem (nodup_namesIn hroot found) hmem,
        if_pos ((mem_namesIn hroot hf hn).mp hmem)]
      rfl
    · rw [List.count_eq_zero_of_not_mem hmem, if_neg (mt (mem_namesIn hroot hf hn).mpr hmem)]
      rfl
  next => rfl

theorem matchPieces_literalPiece (hroot : s.root.Named) (hf : found ≠ "")
    (hs : ∀ piece ∈ pieces, '/' ∉ piece.toList) :
    s.matchPieces found (pieces.map literalPiece) = (pieces.foldlM s.step? found).toList := by
  induction pieces generalizing found with
  | nil => rfl
  | cons piece pieces ih =>
    rw [List.forall_mem_cons] at hs
    rw [List.map_cons, matchPieces, matchPiece_literalPiece hroot hf hs.1, List.foldlM_cons]
    cases h : s.step? found piece with
    | none => rfl
    | some next =>
      rw [Option.toList_some, List.flatMap_singleton, ih (ne_empty_of_step? hf hs.1 h) hs.2]
      rfl

/-- The escaped path of a site leads to where the site is found. -/
theorem matchesBelow_escapePattern (hroot : s.root.Named) (site : String) :
    s.matchesBelow (escapePattern site) = some ((s.foundSite? site).toList.flatMap s.pathsBelow) := by
  have hs : ∀ piece ∈ splitText '/' site, '/' ∉ piece.toList := fun _ => slash_of_mem_splitText
  unfold matchesBelow foundSite?
  dsimp only
  rw [startsAtRoot_escapePattern, splitText_escapePattern, ← List.map_tail, mapM_ofText?,
    mapM_ofText?]
  split
  next =>
    rw [Option.map_some, Option.map_some, matchPieces_literalPiece hroot (by decide) fun piece hm =>
      hs piece (List.mem_of_mem_tail hm)]
  next => rw [Option.map_some, Option.map_some, matchPieces_literalPiece hroot (by decide) hs]

/-- The files below a directory that was found, by the names that lead to them. -/
theorem filter_pathsBelow (hroot : s.root.Named) (hf : found ≠ "") :
    ((s.pathsBelow found).filter s.hasFile).Perm
      ((((s.get? found).map FileTree.siteFiles).getD []).map fun f => belowSite found f.path) := by
  unfold pathsBelow
  cases h : s.get? found with
  | none => exact .refl _
  | some t =>
    have ht := named_of_get? hroot h
    have file (e : List String × FileTree) (he : e ∈ t.contents) :
        s.hasFile (belowSite found ("/".intercalate e.1)) = e.2.isFile := by
      obtain ⟨hne, hfind⟩ := ht.mem_contents.mp he
      unfold hasFile
      rw [get?_belowSite hf (ht.find? hfind).2 hne, h, Option.bind_some, hfind, Option.any_some]
    have paths : (t.siteFiles.map fun f => belowSite found f.path) =
        t.siteFiles.map fun f => belowSite found ("/".intercalate f.names) :=
      List.map_congr_left fun f hf => by rw [(ht.isNamed_of_mem_siteFiles hf).path_eq]
    have perm := (FileTree.map_names_siteFiles t).map fun names => belowSite found ("/".intercalate names)
    rw [List.map_map, List.map_map] at perm
    rw [Option.map_some, Option.getD_some, paths]
    refine List.Perm.trans (.of_eq ?_) perm.symm
    show (t.contents.map fun e => belowSite found ("/".intercalate e.1)).filter s.hasFile = _
    rw [List.filter_map]
    exact congrArg _ (List.filter_congr file)

end FileStore

/-- What a search is documented to find: everything below the directories that the pattern before
its end leads to, each path once for every way in which it matches, in any order. -/
def PathSearch.FindsBelow (search : PathSearch) : Prop :=
  ∀ (s : FileStore) (base : String) (paths : List String), s.root.Named → base ≠ "" →
    s.matchesBelow base = some paths →
      ∃ found, search s (base ++ everythingBelow) = some found ∧ found.Perm paths

theorem findsBelow_searchBelow : PathSearch.FindsBelow searchBelow := by
  intro s base paths _ hne h
  have hbase : String.ofList ((base ++ everythingBelow).toList.take
      ((base ++ everythingBelow).length - everythingBelow.length)) = base := by
    apply String.toList_inj.mp
    rw [String.toList_ofList, String.length_append, Nat.add_sub_cancel, String.toList_append]
    exact List.take_left' String.length_toList
  unfold searchBelow
  dsimp only
  rw [hbase, if_pos (beq_self_eq_true _), h]
  exact ⟨_, rfl, List.mergeSort_perm _ _⟩

end LivePages
