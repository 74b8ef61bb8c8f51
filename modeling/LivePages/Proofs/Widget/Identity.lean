import LivePages.Proofs.Page.Url
import LivePages.Proofs.Text.Hex
import LivePages.Widget.Identity

namespace LivePages

theorem WidgetKind.name_injective {j k : WidgetKind} (h : j.name = k.name) : j = k := by
  revert h
  cases j <;> cases k <;> decide

theorem decimal_injective {m n : Nat} (h : toString m = toString n) : m = n := by
  have hd := congrArg (fun text => Nat.ofDigitChars 10 text.toList 0) h
  simpa [Nat.toString_eq_ofList_toDigits] using hd

/-- Lists that are not empty are told apart by the text under their digest. -/
theorem digestText_injective {as bs : List String} (ha : as ≠ []) (hb : bs ≠ [])
    (h : digestText as = digestText bs) : as = bs := by
  have pieces {l : List String} (hl : l ≠ []) :
      ((digestText l).split '-').toList.map (·.copy) = l.map hexOfText := by
    have hd : ∀ s ∈ l.map hexOfText, '-' ∉ s.toList := by
      intro s hs
      obtain ⟨a, -, rfl⟩ := List.mem_map.mp hs
      exact dash_not_mem_hexOfBytes _
    have hs := String.toList_split_intercalate hd
    rwa [if_neg (mt List.map_eq_nil_iff.mp hl)] at hs
  have hl : as.map hexOfText = bs.map hexOfText := by
    rw [← pieces ha, h, pieces hb]
  exact List.map_injective_iff.mpr (fun _ _ => hexOfText_injective) hl

/-- A chosen name falls apart at its first dash. -/
theorem chosenName_injective {u v : PageUrl} {a b : String} (hu : u.Proper) (hv : v.Proper)
    (h : chosenName u a = chosenName v b) : u = v ∧ a = b := by
  have dash (u : PageUrl) : '-' ∉ u.hex.toList := dash_not_mem_hexOfBytes _
  have hl : u.hex.toList ++ '-' :: a.toList = v.hex.toList ++ '-' :: b.toList := by
    have hl := congrArg String.toList h
    rwa [chosenName, chosenName, String.toList_append, String.toList_append, String.toList_append,
      String.toList_append, List.append_assoc, List.append_assoc] at hl
  have hs := congrArg (splitAtChar '-') hl
  rw [splitAtChar_append (dash u), splitAtChar_append (dash v), List.cons.injEq] at hs
  rw [hs.1] at hl
  refine ⟨hu.eq_of_text_eq hv (hexOfText_injective (String.toList_inj.mp hs.1)), ?_⟩
  exact String.toList_inj.mp (List.tail_eq_of_cons_eq (List.append_cancel_left hl))

theorem chosenName_ne_digestName (u : PageUrl) (token : String) (inputs : List String) :
    chosenName u token ≠ digestName inputs := by
  intro h
  have hd : '-' ∈ (chosenName u token).toList := by
    rw [chosenName, String.toList_append, String.toList_append]
    simp
  rw [h] at hd
  exact dash_not_mem_hexOfBytes _ hd

namespace WidgetMarkup

variable {m m₁ m₂ : WidgetMarkup} {d d₁ d₂ : List String} {name n₁ n₂ : String}

theorem definingTexts_injective (hp₁ : m₁.page.Proper) (hp₂ : m₂.page.Proper)
    (h : m₁.definingTexts d₁ = m₂.definingTexts d₂) :
    m₁.kind = m₂.kind ∧ m₁.page = m₂.page ∧ m₁.position = m₂.position ∧ d₁ = d₂ := by
  simp only [definingTexts, List.cons.injEq] at h
  obtain ⟨kind, page, position, rest⟩ := h
  exact ⟨WidgetKind.name_injective kind, hp₁.eq_of_text_eq hp₂ page, decimal_injective position, rest⟩

theorem name_of_chosen {token : String} (he : m.explicitName? = some token)
    (h : m.assignName d = .ok name) : name = chosenName m.page token := by
  rw [assignName, he] at h
  dsimp only at h
  split at h
  next => exact (Except.ok.inj h).symm
  next => cases h

theorem name_of_anonymous (he : m.explicitName? = none) (h : m.assignName d = .ok name) :
    name = digestName (m.definingTexts d) := by
  rw [assignName, he] at h
  exact (Except.ok.inj h).symm

/-- What two widgets have in common if one cannot be told from the other. -/
inductive SameIdentity (m₁ m₂ : WidgetMarkup) (d₁ d₂ : List String) : Prop where
  | anonymous (first : m₁.explicitName? = none) (second : m₂.explicitName? = none)
      (kind : m₁.kind = m₂.kind) (page : m₁.page = m₂.page) (position : m₁.position = m₂.position)
      (defining : d₁ = d₂)
  | chosen (token : String) (first : m₁.explicitName? = some token)
      (second : m₂.explicitName? = some token) (page : m₁.page = m₂.page)

theorem name_eq_of_same (h₁ : m₁.assignName d₁ = .ok n₁) (h₂ : m₂.assignName d₂ = .ok n₂)
    (h : m₁.SameIdentity m₂ d₁ d₂) : n₁ = n₂ := by
  cases h with
  | anonymous first second kind page position defining =>
    rw [name_of_anonymous first h₁, name_of_anonymous second h₂, definingTexts, definingTexts, kind,
      page, position, defining]
  | chosen token first second page =>
    rw [name_of_chosen first h₁, name_of_chosen second h₂, page]

/-- Where the digest tells the texts of two generated names apart, names tell widgets apart. -/
theorem same_of_name_eq (hp₁ : m₁.page.Proper) (hp₂ : m₂.page.Proper)
    (h₁ : m₁.assignName d₁ = .ok n₁) (h₂ : m₂.assignName d₂ = .ok n₂)
    (hash : m₁.explicitName? = none → m₂.explicitName? = none →
      digestName (m₁.definingTexts d₁) = digestName (m₂.definingTexts d₂) →
      m₁.definingTexts d₁ = m₂.definingTexts d₂)
    (h : n₁ = n₂) : m₁.SameIdentity m₂ d₁ d₂ := by
  cases e₁ : m₁.explicitName? with
  | some a =>
    have name₁ := name_of_chosen e₁ h₁
    cases e₂ : m₂.explicitName? with
    | some b =>
      rw [name₁, name_of_chosen e₂ h₂] at h
      obtain ⟨page, rfl⟩ := chosenName_injective hp₁ hp₂ h
      exact .chosen a e₁ e₂ page
    | none =>
      rw [name₁, name_of_anonymous e₂ h₂] at h
      exact absurd h (chosenName_ne_digestName _ _ _)
  | none =>
    have name₁ := name_of_anonymous e₁ h₁
    cases e₂ : m₂.explicitName? with
    | some b =>
      rw [name₁, name_of_chosen e₂ h₂] at h
      exact absurd h.symm (chosenName_ne_digestName _ _ _)
    | none =>
      rw [name₁, name_of_anonymous e₂ h₂] at h
      obtain ⟨kind, page, position, defining⟩ := definingTexts_injective hp₁ hp₂ (hash e₁ e₂ h)
      exact .anonymous e₁ e₂ kind page position defining

theorem digestText_definingTexts_injective
    (h : digestText (m₁.definingTexts d₁) = digestText (m₂.definingTexts d₂)) :
    m₁.definingTexts d₁ = m₂.definingTexts d₂ :=
  digestText_injective (List.cons_ne_nil _ _) (List.cons_ne_nil _ _) h

/-- A part of a value that goes over to the next one changes the text under the digest. -/
theorem digestText_shift_ne (m : WidgetMarkup) (before after : List String) {x y z : String}
    (hy : y ≠ "") : digestText (m.definingTexts (before ++ (x ++ y) :: z :: after)) ≠
      digestText (m.definingTexts (before ++ x :: (y ++ z) :: after)) := by
  intro h
  have ht := digestText_definingTexts_injective h
  simp only [definingTexts, List.cons.injEq, true_and] at ht
  have hx : x ++ y = x := (List.cons.inj (List.append_cancel_left ht)).1
  have hl := congrArg String.toList hx
  rw [String.toList_append, List.append_right_eq_self] at hl
  exact hy (String.toList_inj.mp hl)

/-- Two names are equal for widgets of the same identity only, unless two different texts have one
digest. A chosen name is no generated one and belongs to one page, whatever the digest; and the
text under the digest changes when a part of one value goes over to the next. -/
theorem assignName_eq_iff (hp₁ : m₁.page.Proper) (hp₂ : m₂.page.Proper)
    (h₁ : m₁.assignName d₁ = .ok n₁) (h₂ : m₂.assignName d₂ = .ok n₂)
    (hash : m₁.explicitName? = none → m₂.explicitName? = none →
      digest (bytesOf (digestText (m₁.definingTexts d₁))) =
        digest (bytesOf (digestText (m₂.definingTexts d₂))) →
      digestText (m₁.definingTexts d₁) = digestText (m₂.definingTexts d₂)) :
    (n₁ = n₂ ↔ m₁.SameIdentity m₂ d₁ d₂) ∧
      (m₁.explicitName?.isSome → m₂.explicitName? = none → n₁ ≠ n₂) ∧
      (m₁.explicitName?.isSome → m₁.explicitName? = m₂.explicitName? → m₁.page ≠ m₂.page →
        n₁ ≠ n₂) ∧
      ∀ before after x y z, y ≠ "" →
        digestText (m₁.definingTexts (before ++ (x ++ y) :: z :: after)) ≠
          digestText (m₁.definingTexts (before ++ x :: (y ++ z) :: after)) := by
  have same : n₁ = n₂ → m₁.SameIdentity m₂ d₁ d₂ :=
    same_of_name_eq hp₁ hp₂ h₁ h₂ fun e₁ e₂ h =>
      digestText_definingTexts_injective (hash e₁ e₂ (hexOfBytes_injective h))
  refine ⟨⟨same, name_eq_of_same h₁ h₂⟩, fun hs hn h => ?_, fun hs _ hp h => ?_,
    fun before after x y z hy => m₁.digestText_shift_ne before after hy⟩
  · cases same h with
    | anonymous first => simp [first] at hs
    | chosen token _ second => simp [second] at hn
  · cases same h with
    | anonymous first => simp [first] at hs
    | chosen _ _ _ page => exact hp page

/-- A button without a name on the page at the root. -/
def rootButton (position : Nat) : WidgetMarkup :=
  ⟨.button, .root, position, .empty, 0⟩

theorem assignName_rootButton : ∃ first second,
    (rootButton 0).assignName ["ls", "alpine", "Go"] = .ok first ∧
      (rootButton 1).assignName ["ls", "alpine", "Go"] = .ok second ∧ first ≠ second := by
  have hp (position) : (rootButton position).page.Proper := fun _ hs => absurd hs List.not_mem_nil
  have hash : digest (bytesOf (digestText ((rootButton 0).definingTexts ["ls", "alpine", "Go"]))) ≠
      digest (bytesOf (digestText ((rootButton 1).definingTexts ["ls", "alpine", "Go"]))) := by
    decide +kernel
  obtain ⟨h, -⟩ := assignName_eq_iff (hp 0) (hp 1) rfl rfl fun _ _ e => absurd e hash
  refine ⟨_, _, rfl, rfl, fun e => ?_⟩
  cases h.mp e with
  | anonymous _ _ _ _ position => exact absurd position (by decide)
  | chosen _ first => cases first

end WidgetMarkup

end LivePages
