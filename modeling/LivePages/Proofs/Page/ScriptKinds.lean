import LivePages.Proofs.Page.Replacement

namespace LivePages

namespace Template

/-- What the scripts of a page begin with tells their kinds apart. -/
def opening (a : Template) : List Char :=
  (a.text.getD "").toList.take 2

theorem not_agrees_of_opening {a b : Template} (h : a.opening ≠ b.opening) : ¬ a.Agrees b := by
  intro hab
  refine h ?_
  rw [opening, hab.text, opening]

/-- What a page with widgets has in its head. -/
inductive IsHead : Template → Prop where
  | roomName : IsHead roomNameScript
  | source (src : String) : IsHead (scriptSource src)
  | style (href : String) : IsHead (stylesheet href)

theorem opening_roomName : roomNameScript.opening = ['\n', 'c'] := by
  rw [roomNameScript, opening, inlineScript, withText, Option.getD_some, roomNameLines,
    String.intercalate_cons_cons, String.intercalate_cons_cons]
  simp only [String.toList_append]
  rfl

theorem opening_instantiation (i : Instantiation) : i.template.opening = ['\n', '\x7b'] := by
  rw [Instantiation.template, opening, inlineScript, withText, Option.getD_some,
    Instantiation.write, String.toList_join, Instantiation.lines]
  rfl

theorem tag_instantiation (i : Instantiation) : i.template.tag = "script" :=
  show (ofTag "script").tag = "script" by decide

theorem opening_connection : connectionScript.opening = ['c', 'o'] := by
  decide

theorem opening_ready : readyScript.opening = ['r', 'o'] := by
  decide

theorem opening_container {w : WidgetDescriptor} {a : Template} (h : w.container? = some a) :
    a.opening = [] := by
  rw [WidgetDescriptor.container?] at h
  split at h
  next => cases h
  next => cases Option.some.inj h; rfl

theorem IsHead.opening {a : Template} (h : a.IsHead) : a.opening = ['\n', 'c'] ∨ a.opening = [] := by
  cases h with
  | roomName => exact .inl opening_roomName
  | source => exact .inr rfl
  | style => exact .inr rfl

theorem IsHead.distinct {a : Template} (h : a.IsHead) : (a.attributes.map Prod.fst).Nodup := by
  cases h <;> simp [roomNameScript, inlineScript, scriptSource, stylesheet, ofTag, withText, withAttribute]

theorem IsHead.tag {a : Template} (h : a.IsHead) : a.tag = "script" ∨ a.tag = "link" := by
  cases h with
  | roomName => exact .inl (by decide)
  | source => exact .inl (show (ofTag "script").tag = "script" by decide)
  | style => exact .inr (show (ofTag "link").tag = "link" by decide)

end Template

theorem isHead_of_mem_sessionScripts {url : PageUrl} {a : Template} (h : a ∈ url.sessionScripts) :
    a.IsHead := by
  rcases List.mem_cons.mp h with rfl | h
  · exact .roomName
  · cases List.mem_singleton.mp h
    exact .source _

namespace WidgetDescriptor

variable {w : WidgetDescriptor} {a b : Template}

theorem isHead_of_mem_headTemplates (h : a ∈ w.headTemplates) : a.IsHead := by
  simp only [headTemplates, WidgetContent.headTemplates] at h
  rcases List.mem_append.mp h with h | h
  · simp only [List.mem_cons, List.not_mem_nil, or_false] at h
    rcases h with rfl | rfl <;> exact .source _
  · unfold WidgetContent.libraryTemplates at h
    split at h
    next =>
      simp only [List.mem_cons, List.not_mem_nil, or_false] at h
      rcases h with rfl | rfl | rfl
      · exact .source _
      · exact .source _
      · exact .style _
    next =>
      rcases List.mem_append.mp h with h | h
      · simp only [List.mem_cons, List.not_mem_nil, or_false] at h
        rcases h with rfl | rfl
        · exact .source _
        · exact .style _
      · split at h
        next => cases List.mem_singleton.mp h; exact .source _
        next => cases h
    next => cases h

theorem mem_templates : a ∈ w.templates ↔ w.container? = some a ∨ a = w.instantiation.template := by
  simp [templates]

theorem opening_of_mem_templates (h : a ∈ w.templates) :
    a.opening = [] ∨ a.opening = ['\n', '\x7b'] := by
  rcases mem_templates.mp h with h | rfl
  · exact .inl (Template.opening_container h)
  · exact .inr (Template.opening_instantiation _)

theorem tag_container {w : WidgetDescriptor} {template : Template}
    (h : w.container? = some template) : template.tag = "div" := by
  rw [container?] at h
  split at h
  next => cases h
  next =>
    cases Option.some.inj h
    exact show (Template.ofTag "div").tag = "div" by decide

/-- Nothing in the place of a widget's markup is taken for something in the head. -/
theorem not_agrees_head (h : a ∈ w.templates) (hb : b.IsHead) : ¬ a.Agrees b := by
  rcases mem_templates.mp h with h | rfl
  · intro hab
    have ht := hab.tag
    rw [tag_container h] at ht
    rcases hb.tag with e | e <;> simp [e] at ht
  · refine Template.not_agrees_of_opening ?_
    rw [Template.opening_instantiation]
    rcases hb.opening with e | e <;> simp [e]

end WidgetDescriptor

theorem connection_not_agrees_ready : ¬ connectionScript.Agrees readyScript := by
  refine Template.not_agrees_of_opening ?_
  rw [Template.opening_connection, Template.opening_ready]
  decide

end LivePages
