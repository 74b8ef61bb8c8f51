import LivePages.Proofs.Page.References
import LivePages.Proofs.Page.Resolution

namespace LivePages

/-- A piece ends a text if it has no separator in it. -/
theorem splitAtChar_append_end {separator : Char} {ending : List Char} (h : separator ∉ ending)
    (cs : List Char) : ∃ pieces last, splitAtChar separator cs = pieces ++ [last] ∧
      splitAtChar separator (cs ++ ending) = pieces ++ [last ++ ending] := by
  induction cs with
  | nil => exact ⟨[], [], rfl, splitAtChar_of_not_mem h⟩
  | cons c cs ih =>
    obtain ⟨pieces, last, e, e'⟩ := ih
    rw [List.cons_append, splitAtChar, splitAtChar, e, e']
    split
    next => exact ⟨[] :: pieces, last, rfl, rfl⟩
    next =>
      cases pieces with
      | nil => exact ⟨[], c :: last, rfl, rfl⟩
      | cons piece pieces => exact ⟨(c :: piece) :: pieces, last, rfl, rfl⟩

/-- An extension goes to the last segment, or it is a segment of its own. -/
theorem segmentsOf_extended (text : String) :
    (∃ before last, segmentsOf text = before ++ [last] ∧
      segmentsOf (text ++ ".js") = before ++ [last ++ ".js"]) ∨
    segmentsOf (text ++ ".js") = segmentsOf text ++ [".js"] ∨
    segmentsOf (text ++ ".js") = segmentsOf text ++ ["..js"] := by
  have h : '/' ∉ ".js".toList := by decide
  obtain ⟨pieces, last, e, e'⟩ := splitAtChar_append_end h text.toList
  have ht : segmentsOf text =
      (pieces.filter isSegment).map String.ofList ++ ([last].filter isSegment).map String.ofList := by
    rw [segmentsOf, e, List.filter_append, List.map_append]
  have hx : isSegment (last ++ ".js".toList) := by
    cases last with
    | nil => decide
    | cons c cs => simp [isSegment]
  have hj : segmentsOf (text ++ ".js") =
      (pieces.filter isSegment).map String.ofList ++ [String.ofList (last ++ ".js".toList)] := by
    rw [segmentsOf, String.toList_append, e', List.filter_append, List.map_append,
      List.filter_cons_of_pos hx]
    rfl
  rw [ht, hj]
  by_cases hl : isSegment last
  · left
    rw [List.filter_cons_of_pos hl]
    exact ⟨_, String.ofList last, rfl, by rw [String.ofList_append]; rfl⟩
  · right
    rw [List.filter_cons_of_neg hl, List.filter_nil, List.map_nil, List.append_nil]
    have hl : last = [] ∨ last = ['.'] := by
      simpa [isSegment, or_iff_not_imp_left] using hl
    rcases hl with rfl | rfl
    · exact .inl rfl
    · exact .inr rfl

theorem extended_ne_up (text : String) : text ++ ".js" ≠ ".." := by
  intro he
  have hend := congrArg (fun text => text.toList.getLast?) he
  simp at hend

/-- A text with an extension does not lead anywhere above what the text leads to. -/
theorem up_not_mem_extended {text : String} (h : ".." ∉ segmentsOf text) :
    ".." ∉ segmentsOf (text ++ ".js") := by
  rcases segmentsOf_extended text with ⟨before, last, e, e'⟩ | e' | e'
  · rw [e, List.mem_append, not_or] at h
    rw [e', List.mem_append, List.mem_singleton]
    exact not_or.mpr ⟨h.1, (extended_ne_up last).symm⟩
  · rw [e', List.mem_append]
    exact not_or.mpr ⟨h, by decide⟩
  · rw [e', List.mem_append]
    exact not_or.mpr ⟨h, by decide⟩

namespace WidgetKind

/-- The files that every widget of a kind loads, in their order. -/
def files : WidgetKind → List String
  | button => ["/Widget.js", "/ButtonWidget.js"]
  | epilogue => ["/Widget.js", "/EpilogueWidget.js"]
  | imageViewer => ["/Widget.js", "/ImageViewerWidget.js"]
  | prologue => ["/Widget.js", "/PrologueWidget.js"]
  | terminal =>
    ["/Widget.js", "/TerminalWidget.js", "/node_modules/xterm/lib/xterm.js",
      "/node_modules/xterm-addon-fit/lib/xterm-addon-fit.js", "/node_modules/xterm/css/xterm.css"]
  | textEditor =>
    ["/Widget.js", "/TextEditorWidget.js", "/node_modules/codemirror/lib/codemirror.js",
      "/node_modules/codemirror/lib/codemirror.css"]
  | textViewer => ["/Widget.js", "/TextViewerWidget.js"]

end WidgetKind

/-- The file that an editor loads for a language. -/
def modeFile (mode : String) : String :=
  "/node_modules/codemirror/mode/" ++ mode ++ "/" ++ mode ++ ".js"

theorem segmentsOf_modeFile (mode : String) : segmentsOf (modeFile mode) =
    ["node_modules", "codemirror", "mode"] ++ segmentsOf mode ++ segmentsOf (mode ++ ".js") := by
  have cut {directory above : String} (h : directory = above ++ "/") :
      segmentsOf (directory ++ mode ++ "/" ++ mode ++ ".js") =
        segmentsOf above ++ segmentsOf mode ++ segmentsOf (mode ++ ".js") := by
    have regroup : directory ++ mode ++ "/" ++ mode ++ ".js" =
        above ++ "/" ++ mode ++ "/" ++ (mode ++ ".js") := by
      simp only [h, String.append_assoc]
    rw [regroup, segmentsOf_append, segmentsOf_append]
  have above : segmentsOf "/node_modules/codemirror/mode" =
      ["node_modules", "codemirror", "mode"] := by
    decide
  rw [← above]
  exact cut (by decide)

def styleFiles : List String :=
  ["/node_modules/xterm/css/xterm.css", "/node_modules/codemirror/lib/codemirror.css"]

/-- The element that loads a file of a kind. -/
def fileTemplate (page : PageUrl) (file : String) : Template :=
  if file ∈ styleFiles then .stylesheet (page.relative file)
  else .scriptSource (page.relative file)

theorem references_fileTemplate (page : PageUrl) (file : String) :
    (fileTemplate page file).references = [page.relative file] := by
  rw [fileTemplate]
  split <;> rfl

namespace WidgetContent

/-- The language of an editor, if the author has given one. -/
def mode? : WidgetContent → Option String
  | textEditor _ mode => mode
  | _ => none

def files (c : WidgetContent) : List String :=
  c.kind.files ++ (c.mode?.map modeFile).toList

theorem className_file (c : WidgetContent) :
    c.kind.files.take 2 = ["/" ++ widgetAsset, "/" ++ c.className ++ ".js"] := by
  cases c <;>
  · simp only [kind, className, WidgetKind.files, List.take_succ_cons, List.take_zero]
    decide

/-- The head of a page gets one element for each file of a widget, in their order. -/
theorem headTemplates_eq (c : WidgetContent) (page : PageUrl) :
    c.headTemplates page = c.kind.files.map (fileTemplate page) ++
      (c.mode?.map fun mode => .scriptSource (page.relative (modeFile mode))).toList := by
  have library : c.libraryTemplates page = (c.kind.files.drop 2).map (fileTemplate page) ++
      (c.mode?.map fun mode => .scriptSource (page.relative (modeFile mode))).toList := by
    cases c with
    | textEditor file mode => cases mode <;> rfl
    | _ => rfl
  have script : "/" ++ c.className ++ ".js" ∉ styleFiles := by
    cases c <;>
    · rw [className]
      decide
  have own : fileTemplate page ("/" ++ c.className ++ ".js") =
      .scriptSource (page.relative ("/" ++ c.className ++ ".js")) := if_neg script
  rw [headTemplates, library, ← List.append_assoc]
  conv_rhs => rw [← List.take_append_drop 2 c.kind.files, className_file, List.map_append]
  rw [List.map_cons, List.map_cons, own]
  rfl

/-- What a widget needs in the head refers to its files, one by one. -/
theorem references_headTemplates (c : WidgetContent) (page : PageUrl) :
    (c.headTemplates page).map Template.references = c.files.map fun f => [page.relative f] := by
  rw [headTemplates_eq, files, List.map_append, List.map_append, List.map_map]
  congr 1
  · exact List.map_congr_left fun f _ => references_fileTemplate page f
  · cases c.mode? <;> rfl

end WidgetContent

end LivePages
