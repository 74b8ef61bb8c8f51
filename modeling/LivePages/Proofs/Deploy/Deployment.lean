import LivePages.Proofs.Deploy.Copying
import LivePages.Proofs.Site.Preparation

namespace LivePages

/-- The texts of a deployment by the names of their files. A file without a text is not there. -/
def Artifacts.files (texts : Artifacts) : List (String × Option String) :=
  [(ExecutionPlan.fileName, texts.plan), (proxyFileName, some texts.proxy),
    (imageFileName, some texts.image), (composeFileName, some texts.compose)]

theorem Artifacts.isFileName_of_mem {texts : Artifacts} {a : String × Option String}
    (h : a ∈ texts.files) : IsFileName a.1 := by
  have names : ∀ name ∈ [ExecutionPlan.fileName, proxyFileName, imageFileName, composeFileName],
      IsFileName name := by
    decide
  exact names a.1 (List.mem_map_of_mem h)

open FileAction FileStore

variable {s s' s'' : FileStore} {out root name text : String} {place q : List String}
  {n : Option FileNode} {texts : Artifacts}

/-- Something else, or nothing, is in one place, and all else is as it was. -/
structure Sets (place : List String) (n : Option FileNode) (s s' : FileStore) : Prop where
  here : s'.here = s.here
  named : s.root.Named → s'.root.Named
  node? : ∀ q, s'.root.node? q = if q = place then n else s.root.node? q

theorem sets_of_fills {content : List UInt8}
    (h : Fills (fun _ => False) (OneFile place content) s s') : Sets place (some (.file content)) s s' := by
  refine ⟨h.here, h.named, ?_⟩
  intro q
  split
  next hq => exact h.file ⟨hq, rfl⟩ fun _ hc => hc.2
  next hq => exact h.node?_eq (fun _ hc => hq hc.1) id

theorem writeArtifact_ok (h : (writeArtifact out name text).runOn s = (.ok (), s'))
    (hn : IsFileName name) : Sets (s.placeOf out ++ [name]) (some (.file (bytesOf text))) s s' ∧
      s'.locate (joinPath out name) = .ok (s.placeOf out ++ [name]) := by
  rw [← placeOf_name hn]
  obtain ⟨fills, hl⟩ := writeFile_ok (runOn_explain_eq_ok.mp h)
  exact ⟨sets_of_fills fills, hl⟩

/-- The plan is written, or the plan of an earlier deployment is taken away. -/
theorem writePlan_ok {plan : Option String} (h : (writePlan out plan).runOn s = (.ok (), s'))
    (hout : s.Reaches out) : Sets (s.placeOf out ++ [ExecutionPlan.fileName])
      (plan.map fun text => .file (bytesOf text)) s s' := by
  have hn : IsFileName ExecutionPlan.fileName := by decide
  cases plan with
  | some text => exact (writeArtifact_ok h hn).1
  | none =>
    unfold writePlan at h
    dsimp only at h
    rw [runOn_get_bind] at h
    split at h
    next =>
      obtain ⟨here, named, removed⟩ := removeFile_ok (runOn_explain_eq_ok.mp h)
      rw [← placeOf_name hn]
      exact ⟨here, named, removed⟩
    next hmissing =>
      cases h
      refine ⟨rfl, id, ?_⟩
      intro q
      split
      next hq =>
        subst hq
        have node := node?_joinPath hn.isPlainPath hout
        rw [splitText_of_not_mem hn.slash] at node
        rw [← node]
        unfold FileStore.node?
        rw [Option.not_isSome_iff_eq_none.mp hmissing]
        rfl
      next => rfl

/-- The texts of a deployment have been written, and all else is as it was, except for the directory to
which they are written and those above it. -/
structure TextsWritten (texts : Artifacts) (out : String) (s s' : FileStore) : Prop where
  here : s'.here = s.here
  named : s.root.Named → s'.root.Named
  reaches : s'.Reaches out
  onWay : ∀ q, s.OnWay out q → s'.root.node? q ≠ none
  text : ∀ a ∈ texts.files, s'.root.node? (s.placeOf out ++ [a.1]) =
    a.2.map fun text => .file (bytesOf text)
  other : ∀ q, (∀ a ∈ texts.files, q ≠ s.placeOf out ++ [a.1]) →
    s'.root.node? q = s.root.node? q ∨
      s.root.node? q = none ∧ s'.root.node? q = some .directory ∧ s.OnWay out q

theorem TextsWritten.untouched (h : TextsWritten texts out s s') (hs : s.root.Named)
    (ha : Apart place (s.placeOf out)) : Untouched place s s' := by
  refine ⟨h.here, h.named hs, ?_⟩
  intro r c
  rcases h.other (place ++ r) fun a _ => ha.ne _ _ with kept | ⟨none, made, -⟩
  · rw [kept]
  · rw [none, made]
    simp

/-- First come the texts of a deployment, then its assets. -/
theorem writeChecked_ok {assets : AssetSet}
    (h : (writeChecked texts assets out root).runOn s = (.ok (), s')) :
    ∃ s₁, TextsWritten texts out s s₁ ∧
      (assets.copy root (joinPath out staticDirectory)).runOn s₁ = (.ok (), s') := by
  obtain ⟨⟨⟩, s₁, h₁, h⟩ := runOn_bind_eq_ok.mp h
  obtain ⟨⟨⟩, s₂, h₂, h⟩ := runOn_bind_eq_ok.mp h
  obtain ⟨⟨⟩, s₃, h₃, h⟩ := runOn_bind_eq_ok.mp h
  obtain ⟨⟨⟩, s₄, h₄, h⟩ := runOn_bind_eq_ok.mp h
  obtain ⟨⟨⟩, s₅, h₅, h⟩ := runOn_bind_eq_ok.mp h
  obtain ⟨made, hd⟩ := makeDirectories_ok (runOn_explain_eq_ok.mp h₁)
  have reached : s₁.Reaches out := hd.imp_right LeadsToDirectory.locate
  have plan := writePlan_ok h₂ reached
  obtain ⟨proxy, -⟩ := writeArtifact_ok h₃ (by decide)
  obtain ⟨image, -⟩ := writeArtifact_ok h₄ (by decide)
  obtain ⟨compose, hl⟩ := writeArtifact_ok h₅ (by decide)
  rw [placeOf_of_here (image.here.trans (proxy.here.trans plan.here))] at compose hl
  rw [placeOf_of_here (proxy.here.trans plan.here)] at image
  rw [placeOf_of_here plan.here] at proxy
  rw [made.placeOf] at plan proxy image compose hl
  have here := compose.here.trans (image.here.trans (proxy.here.trans (plan.here.trans made.here)))
  have plain : IsPlainPath composeFileName := IsFileName.isPlainPath (by decide)
  have final (q) := (compose.node? q).trans (by rw [image.node?, proxy.node?, plan.node?])
  refine ⟨s₅, ⟨here, ?_, ?_, ?_, ?_, ?_⟩, h⟩
  · intro hs
    exact compose.named (image.named (proxy.named (plan.named (made.named hs))))
  · exact reaches_of_locate plain hl
  · intro q hq
    exact OnWay.present hl ((onWay_of_here here).mpr hq |>.below plain.not_isRooted)
  · intro a ha
    rw [final]
    simp only [Artifacts.files, List.mem_cons, List.not_mem_nil, or_false] at ha
    rcases ha with rfl | rfl | rfl | rfl
    all_goals
      simp only [List.append_cancel_left_eq, List.cons.injEq, and_true]
      rfl
  · intro q hq
    simp only [Artifacts.files, List.forall_mem_cons, List.not_mem_nil, false_implies, implies_true,
      and_true] at hq
    rw [final, if_neg hq.2.2.2, if_neg hq.2.2.1, if_neg hq.2.1, if_neg hq.1]
    rcases made.node? q with ⟨c, hc, -⟩ | ⟨-, kept⟩
    · exact absurd hc id
    · exact kept

end LivePages
