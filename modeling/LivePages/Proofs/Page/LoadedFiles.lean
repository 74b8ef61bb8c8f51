import LivePages.Proofs.Page.HeadLayout
import LivePages.Proofs.Widget.HeadFiles

namespace LivePages

theorem flatten_prefixes {α : Type} {a : α} {l : List α} {ls : List (List α)} (h : ∀ l' ∈ ls, l' <+: a :: l) :
    ls.flatten = [] ∨ ∃ rest, ls.flatten = a :: rest := by
  induction ls with
  | nil => exact .inl rfl
  | cons first ls ih =>
    rw [List.forall_mem_cons] at h
    rw [List.flatten_cons]
    cases first with
    | nil => exact ih h.2
    | cons b first =>
      obtain ⟨rfl, -⟩ := List.cons_prefix_cons.mp h.1
      exact .inr ⟨_, rfl⟩

section Duplicates

variable {α : Type} [BEq α] [LawfulBEq α]

theorem eraseDups_filter (p : α → Bool) (l : List α) :
    (l.filter p).eraseDups = l.eraseDups.filter p := by
  induction hn : l.length using Nat.strong_induction_on generalizing l with
  | _ n ih =>
    cases l with
    | nil => rfl
    | cons a l =>
      have hl : (l.filter fun b => !b == a).length < n := by
        rw [← hn, List.length_cons]
        exact Nat.lt_succ_of_le (List.length_filter_le _ _)
      rw [List.eraseDups_cons, List.filter_cons]
      split
      next hp =>
        rw [List.eraseDups_cons, List.filter_cons_of_pos hp, ← ih _ hl _ rfl, List.filter_comm]
      next hp =>
        rw [List.filter_cons_of_neg hp, ← ih _ hl _ rfl, List.filter_filter]
        refine congrArg List.eraseDups (List.filter_congr fun b _ => ?_)
        by_cases hb : b = a
        · simp [hb, hp]
        · simp [hb]

/-- Of the beginnings of a list, one of them complete, only the list is left without repetitions. -/
theorem eraseDups_flatten {l : List α} {ls : List (List α)} (hn : l.Nodup) (h : ∀ l' ∈ ls, l' <+: l)
    (hm : l ∈ ls) : ls.flatten.eraseDups = l := by
  induction l generalizing ls with
  | nil =>
    have he : ls.flatten = [] := List.flatten_eq_nil_iff.mpr fun l' hl => List.prefix_nil.mp (h l' hl)
    rw [he, List.eraseDups_nil]
  | cons a l ih =>
    obtain ⟨ha, hn⟩ := List.nodup_cons.mp hn
    have hself : (a :: l).filter (fun b => !b == a) = l := by
      rw [List.filter_cons_of_neg (by simp), List.filter_eq_self]
      intro b hb
      have hne : b ≠ a := fun e => ha (e ▸ hb)
      simpa using hne
    have rest : (ls.map (List.filter fun b => !b == a)).flatten.eraseDups = l := ih hn
      (fun part hp => by
        obtain ⟨l', hl, rfl⟩ := List.mem_map.mp hp
        exact hself ▸ (h l' hl).filter _)
      (List.mem_map.mpr ⟨_, hm, hself⟩)
    rw [← List.filter_flatten] at rest
    rcases flatten_prefixes h with he | ⟨others, he⟩
    · have hnil := List.flatten_eq_nil_iff.mp he _ hm
      cases hnil
    · rw [he, List.filter_cons_of_neg (by simp)] at rest
      rw [he, List.eraseDups_cons, rest]

end Duplicates

/-- The directory of a language's file has the name of the file, or the file has no name. -/
theorem modeFile_cases (mode : String) :
    (∃ before last, segmentsOf (modeFile mode) =
      ["node_modules", "codemirror", "mode"] ++ (before ++ [last]) ++ before ++ [last ++ ".js"]) ∨
    ∃ segments, ∃ name ∈ [".js", "..js"], segmentsOf (modeFile mode) = segments ++ [name] := by
  rw [segmentsOf_modeFile]
  rcases segmentsOf_extended mode with ⟨before, last, e, e'⟩ | e | e
  · exact .inl ⟨before, last, by rw [e, e', ← List.append_assoc]⟩
  · exact .inr ⟨_, ".js", List.mem_cons_self, by rw [e, ← List.append_assoc]⟩
  · exact .inr ⟨_, "..js", by simp, by rw [e, ← List.append_assoc]⟩

/-- What tells the place of a file from the places of all languages' files. -/
structure IsFixed (target : List String) : Prop where
  plain : ".." ∉ target
  depth : target.length = 4 ∨ target.length = 1 ∧ target.head? ≠ some "node_modules"
  named : ∀ name ∈ target.getLast?, name ∉ [".js", "..js", "...js"]

instance (target : List String) : Decidable (IsFixed target) :=
  decidable_of_iff (".." ∉ target ∧
      (target.length = 4 ∨ target.length = 1 ∧ target.head? ≠ some "node_modules") ∧
      ∀ name ∈ target.getLast?, name ∉ [".js", "..js", "...js"])
    ⟨fun h => ⟨h.1, h.2.1, h.2.2⟩, fun h => ⟨h.plain, h.depth, h.named⟩⟩

/-- A detour from a file right below the root ends at a language's file only if the file has the name
of the libraries' directory, or the language ends with two dots. -/
theorem eq_of_detour_single {file name : String} {before way : List String} {c : Nat}
    (e : ["node_modules", "codemirror", "mode"] ++ (before ++ [name]) ++ before ++ [name ++ ".js"] =
      detour [file] way c) : file = "node_modules" ∨ name = ".." := by
  cases c with
  | succ c =>
    left
    have hf := congrArg List.head? e
    exact (Option.some.inj hf).symm
  | zero =>
    right
    have hw : way.length = before.length + 2 := by
      have hl := congrArg List.length e
      simp only [length_detour, List.length_append, List.length_cons, List.length_nil] at hl
      omega
    -- The name of the directory is the second of the steps up.
    have hup := congrArg (fun segments => segments[before.length + 3]?) e
    have hi : before.length + 3 - (before.length + 2) = 1 := by omega
    simpa [detour, hw, hi] using hup

namespace IsFixed

variable {target way : List String} {c : Nat} {mode : String}

theorem ne_detour (h : IsFixed target) : segmentsOf (modeFile mode) ≠ detour target way c := by
  intro e
  have last {name : String} (hn : (segmentsOf (modeFile mode)).getLast? = some name)
      (hne : name ≠ "..") : target.getLast? = some name := by
    rw [e] at hn
    rcases getLast?_detour target way c with hl | hl
    · exact hl.symm.trans hn
    · exact absurd (Option.some.inj (hl.symm.trans hn)).symm hne
  rcases modeFile_cases mode with ⟨before, name, hm⟩ | ⟨segments, name, hname, hm⟩
  · have hlast := last (by rw [hm, List.getLast?_concat]) (extended_ne_up name)
    rw [hm] at e
    rcases h.depth with hd | ⟨hd, hhead⟩
    · -- A detour adds an even number of segments, and there is an odd number of them.
      have hl := congrArg List.length e
      simp only [length_detour, List.length_append, List.length_cons, List.length_nil] at hl
      omega
    · obtain ⟨file, rfl⟩ := List.length_eq_one_iff.mp hd
      rcases eq_of_detour_single e with rfl | rfl
      · exact hhead rfl
      · exact h.named _ hlast (by decide)
  · have hlast := last (by rw [hm, List.getLast?_concat]) (by rintro rfl; simp at hname)
    refine h.named name hlast ?_
    simp only [List.mem_cons, List.not_mem_nil, or_false] at hname ⊢
    exact hname.imp_right .inl

end IsFixed

/-- The files that pages load whatever the languages of their editors are. -/
def fixedFiles : List String :=
  ("/" ++ roomConnectionAsset) :: WidgetKind.all.flatMap WidgetKind.files

theorem WidgetKind.mem_fixedFiles {k : WidgetKind} {file : String} (h : file ∈ k.files) :
    file ∈ fixedFiles :=
  List.mem_cons_of_mem _ (List.mem_flatMap.mpr ⟨k, k.mem_all, h⟩)

section Fixed

variable {file file' mode : String} {page : PageUrl}

theorem isFixed_of_mem (h : file ∈ fixedFiles) : IsFixed (segmentsOf file) := by
  have all : ∀ file ∈ fixedFiles, IsFixed (segmentsOf file) := by decide +kernel
  exact all file h

theorem eq_of_segmentsOf_eq (h : file ∈ fixedFiles) (h' : file' ∈ fixedFiles)
    (e : segmentsOf file = segmentsOf file') : file = file' := by
  have written : ∀ file ∈ fixedFiles, "/" ++ "/".intercalate (segmentsOf file) = file := by
    decide +kernel
  rw [← written file h, e, written file' h']

theorem fileTemplate_injective (h : file ∈ fixedFiles) (h' : file' ∈ fixedFiles)
    (e : fileTemplate page file = fileTemplate page file') : file = file' := by
  have hr := congrArg Template.references e
  rw [references_fileTemplate, references_fileTemplate, List.cons.injEq] at hr
  have hp := congrArg (resolve page.segments) hr.1
  rw [PageUrl.resolve_relative (isFixed_of_mem h).plain,
    PageUrl.resolve_relative (isFixed_of_mem h').plain] at hp
  exact eq_of_segmentsOf_eq h h' (Option.some.inj hp)

/-- No language makes an editor load a fixed file a second time. -/
theorem fileTemplate_ne_mode (h : file ∈ fixedFiles) :
    fileTemplate page file ≠ .scriptSource (page.relative (modeFile mode)) := by
  intro e
  have hr : [page.relative file] = [page.relative (modeFile mode)] :=
    (references_fileTemplate page file).symm.trans (congrArg Template.references e)
  have hp := congrArg segmentsOf (List.cons.inj hr).1
  rw [PageUrl.segmentsOf_relative, PageUrl.segmentsOf_relative] at hp
  obtain ⟨c, way, hd⟩ := PageUrl.path_detour (isFixed_of_mem h).plain hp
  exact (isFixed_of_mem h).ne_detour hd

end Fixed

namespace WidgetContent

variable {c c' : WidgetContent} {file : String} {page : PageUrl} {a : Template}

/-- The element for the language of an editor. -/
def modeTemplates (c : WidgetContent) (page : PageUrl) : List Template :=
  (c.mode?.map fun mode => .scriptSource (page.relative (modeFile mode))).toList

theorem fileTemplate_not_mem_mode (h : file ∈ fixedFiles) :
    fileTemplate page file ∉ c.modeTemplates page := by
  intro hm
  rw [modeTemplates, Option.mem_toList, Option.map_eq_some_iff] at hm
  obtain ⟨mode, -, e⟩ := hm
  exact fileTemplate_ne_mode h e.symm

theorem fileTemplate_mem_headTemplates (h : file ∈ fixedFiles) :
    fileTemplate page file ∈ c.headTemplates page ↔ file ∈ c.kind.files := by
  rw [headTemplates_eq, List.mem_append, List.mem_map]
  constructor
  · rintro (⟨file', hf, e⟩ | hm)
    · exact fileTemplate_injective (WidgetKind.mem_fixedFiles hf) h e ▸ hf
    · exact absurd hm (fileTemplate_not_mem_mode h)
  · exact fun hf => .inl ⟨file, hf, rfl⟩

theorem mode_mem_headTemplates (h : a ∈ c.modeTemplates page) :
    a ∈ c'.headTemplates page ↔ a ∈ c'.modeTemplates page := by
  rw [headTemplates_eq, List.mem_append, List.mem_map]
  refine or_iff_right ?_
  rintro ⟨file, hf, rfl⟩
  exact fileTemplate_not_mem_mode (WidgetKind.mem_fixedFiles hf) h

theorem kind_of_mode (h : a ∈ c.modeTemplates page) : c.kind = .textEditor := by
  cases c with
  | textEditor => rfl
  | _ => cases h

theorem filter_modeTemplates (c c' : WidgetContent) (page : PageUrl) :
    ((c.modeTemplates page).filter fun a => a ∈ c'.modeTemplates page) <+:
      c'.modeTemplates page := by
  rw [modeTemplates, modeTemplates]
  generalize c.mode?.map _ = own
  generalize c'.mode?.map _ = other
  cases own with
  | none => exact List.nil_prefix
  | some a =>
    cases other with
    | none => simp
    | some b =>
      by_cases h : a = b
      · simp [h]
      · simp [h]

theorem nodup_headTemplates (c : WidgetContent) (page : PageUrl) : (c.headTemplates page).Nodup := by
  rw [headTemplates_eq]
  refine List.nodup_append.mpr ⟨?_, ?_, ?_⟩
  · refine List.Nodup.map_on (fun file hf file' hf' e => ?_) ?_
    · exact fileTemplate_injective (WidgetKind.mem_fixedFiles hf) (WidgetKind.mem_fixedFiles hf') e
    · cases c.kind <;> decide
  · cases c.mode? <;> simp
  · rintro a ha b hb rfl
    obtain ⟨file, hf, rfl⟩ := List.mem_map.mp ha
    exact fileTemplate_not_mem_mode (WidgetKind.mem_fixedFiles hf) hb

/-- What a widget needs of what another one needs is a beginning of it: both need the class of all
widgets first. -/
theorem filter_headTemplates (c c' : WidgetContent) (page : PageUrl) :
    ((c.headTemplates page).filter fun a => a ∈ c'.headTemplates page) <+:
      c'.headTemplates page := by
  have files : (c.kind.files.map (fileTemplate page)).filter (fun a => a ∈ c'.headTemplates page) =
      (c.kind.files.filter fun file => file ∈ c'.kind.files).map (fileTemplate page) := by
    rw [List.filter_map]
    refine congrArg _ (List.filter_congr fun file hf => ?_)
    exact decide_eq_decide.mpr (fileTemplate_mem_headTemplates (WidgetKind.mem_fixedFiles hf))
  have modes : (c.modeTemplates page).filter (fun a => a ∈ c'.headTemplates page) =
      (c.modeTemplates page).filter fun a => a ∈ c'.modeTemplates page :=
    List.filter_congr fun a ha => decide_eq_decide.mpr (mode_mem_headTemplates ha)
  rw [headTemplates_eq c, List.filter_append, files, ← modeTemplates, modes,
    headTemplates_eq c', ← modeTemplates]
  by_cases hk : c.kind = c'.kind
  · have hall : (c.kind.files.filter fun file => file ∈ c'.kind.files) = c'.kind.files := by
      rw [hk, List.filter_eq_self]
      exact fun file hf => decide_eq_true hf
    rw [hall, List.prefix_append_right_inj]
    exact filter_modeTemplates c c' page
  · have hnone : ((c.modeTemplates page).filter fun a => a ∈ c'.modeTemplates page) = [] := by
      refine List.filter_eq_nil_iff.mpr fun a ha hm => hk ?_
      exact (kind_of_mode ha).trans (kind_of_mode (of_decide_eq_true hm)).symm
    have common : ∀ k k' : WidgetKind, (k.files.filter fun file => file ∈ k'.files) <+: k'.files := by
      intro k k'
      cases k <;> cases k' <;> decide
    rw [hnone, List.append_nil]
    exact ((common c.kind c'.kind).map _).trans (List.prefix_append _ _)

theorem not_mem_headTemplates_of_session (h : a ∈ page.sessionScripts) :
    a ∉ c.headTemplates page := by
  rcases List.mem_cons.mp h with rfl | h
  · intro hm
    have hr : [] ∈ (c.headTemplates page).map Template.references :=
      List.mem_map.mpr ⟨_, hm, rfl⟩
    rw [references_headTemplates, List.mem_map] at hr
    obtain ⟨_, -, e⟩ := hr
    cases e
  · have fixed : "/" ++ roomConnectionAsset ∈ fixedFiles := List.mem_cons_self
    have template : fileTemplate page ("/" ++ roomConnectionAsset) =
        .scriptSource (page.relative ("/" ++ roomConnectionAsset)) := if_neg (by decide)
    rw [List.mem_singleton.mp h, ← template, fileTemplate_mem_headTemplates fixed]
    cases c.kind <;> decide

end WidgetContent

namespace CompiledPage

variable {page : CompiledPage} {w : WidgetDescriptor}

/-- Of all that a page needs in its head, each once, a widget's part is in the widget's order. -/
theorem eraseDups_headTemplates (hu : ∀ v ∈ page.widgets, v.page = page.url)
    (hw : w ∈ page.widgets) :
    (page.headTemplates.filter fun a => a ∈ w.headTemplates).eraseDups = w.headTemplates := by
  have session : (page.url.sessionScripts.filter fun a => a ∈ w.headTemplates) = [] := by
    refine List.filter_eq_nil_iff.mpr fun a ha hm => ?_
    refine WidgetContent.not_mem_headTemplates_of_session ha (?_ : a ∈ w.content.headTemplates _)
    exact hu w hw ▸ of_decide_eq_true hm
  rw [headTemplates, List.filter_append, session, List.nil_append, List.filter_flatMap,
    List.flatMap_def]
  refine eraseDups_flatten (WidgetContent.nodup_headTemplates _ _) ?_ ?_
  · intro part hp
    obtain ⟨v, hv, rfl⟩ := List.mem_map.mp hp
    rw [WidgetDescriptor.headTemplates, WidgetDescriptor.headTemplates, hu v hv, hu w hw]
    exact WidgetContent.filter_headTemplates v.content w.content page.url
  · refine List.mem_map.mpr ⟨w, hw, ?_⟩
    exact List.filter_eq_self.mpr fun a ha => decide_eq_true ha

end CompiledPage

end LivePages
