import LivePages.Files.Store
import LivePages.Proofs.Outcome

namespace LivePages

namespace FileAction

variable {ε δ α β : Type} {action : FileAction ε α} {f : α → FileAction ε β}
  {s s' s'' : FileStore} {a : α} {b : β} {e : ε}

/-- What an operation gives, and the files that it leaves behind. -/
def runOn (action : FileAction ε α) (s : FileStore) : Except ε α × FileStore :=
  action.run.run s

theorem runOn_get (s : FileStore) : (get : FileAction ε FileStore).runOn s = (.ok s, s) :=
  rfl

theorem runOn_liftM (x : Except ε α) (s : FileStore) : (liftM x : FileAction ε α).runOn s = (x, s) := by
  cases x <;> rfl

theorem runOn_bind (action : FileAction ε α) (f : α → FileAction ε β) (s : FileStore) :
    (action >>= f).runOn s = match action.runOn s with
      | (.ok a, s') => (f a).runOn s'
      | (.error e, s') => (.error e, s') := by
  show (ExceptT.bindCont f (action.runOn s).1).run (action.runOn s).2 = _
  rcases action.runOn s with ⟨e | a, s'⟩ <;> rfl

theorem runOn_get_bind (f : FileStore → FileAction ε β) (s : FileStore) :
    ((get : FileAction ε FileStore) >>= f).runOn s = (f s).runOn s := by
  rw [runOn_bind, runOn_get]

theorem runOn_bind_eq_ok : (action >>= f).runOn s = (.ok b, s'') ↔
    ∃ a s', action.runOn s = (.ok a, s') ∧ (f a).runOn s' = (.ok b, s'') := by
  rw [runOn_bind]
  rcases action.runOn s with ⟨e | a, s'⟩
  · simp
  · constructor
    · intro h
      exact ⟨a, s', rfl, h⟩
    · rintro ⟨_, _, h, hf⟩
      cases h
      exact hf

theorem runOn_bind_eq_error : (action >>= f).runOn s = (.error e, s'') ↔
    action.runOn s = (.error e, s'') ∨
      ∃ a s', action.runOn s = (.ok a, s') ∧ (f a).runOn s' = (.error e, s'') := by
  rw [runOn_bind]
  rcases action.runOn s with ⟨e' | a, s'⟩
  · simp
  · constructor
    · intro h
      exact .inr ⟨a, s', rfl, h⟩
    · rintro (h | ⟨_, _, h, hf⟩)
      · cases h
      · cases h
        exact hf

theorem runOn_tryCatch (action : FileAction ε α) (recover : ε → FileAction ε α) (s : FileStore) :
    (tryCatch action recover : FileAction ε α).runOn s = match action.runOn s with
      | (.ok a, s') => (.ok a, s')
      | (.error e, s') => (recover e).runOn s' := by
  show (ExceptT.tryCatch action recover).run.run s = _
  delta ExceptT.tryCatch
  rw [ExceptT.run_mk, StateT.run_bind]
  show (action.runOn s >>= _ : Id _) = _
  rcases action.runOn s with ⟨e | a, s'⟩ <;> rfl

theorem runOn_explain (wrap : ε → δ) (action : FileAction ε α) (s : FileStore) :
    (action.explain wrap).runOn s = ((action.runOn s).1.mapError wrap, (action.runOn s).2) :=
  rfl

theorem runOn_explain_eq_ok {wrap : ε → δ} :
    (action.explain wrap).runOn s = (.ok a, s') ↔ action.runOn s = (.ok a, s') := by
  rw [runOn_explain]
  rcases action.runOn s with ⟨e | a', s''⟩
  · simp [mapError_error]
  · simp [mapError_ok]

theorem runOn_explain_eq_error {wrap : ε → δ} {e : δ} :
    (action.explain wrap).runOn s = (.error e, s') ↔
      ∃ fault, action.runOn s = (.error fault, s') ∧ wrap fault = e := by
  rw [runOn_explain]
  rcases action.runOn s with ⟨e' | a', s''⟩
  · constructor
    · intro h
      cases h
      exact ⟨e', rfl, rfl⟩
    · rintro ⟨_, h, rfl⟩
      cases h
      rfl
  · simp [mapError_ok]

theorem ext {action action' : FileAction ε α} (h : ∀ s, action.runOn s = action'.runOn s) :
    action = action' :=
  funext h

theorem explain_bind (wrap : ε → δ) (action : FileAction ε α) (f : α → FileAction ε β) :
    (action >>= f).explain wrap = action.explain wrap >>= fun a => (f a).explain wrap := by
  apply ext
  intro s
  rw [runOn_explain, runOn_bind, runOn_bind, runOn_explain]
  rcases action.runOn s with ⟨e | a, s'⟩
  · rfl
  · exact (runOn_explain wrap (f a) s').symm

/-- An operation leaves the files as they are, whether or not it fails. -/
structure ReadsOnly (action : FileAction ε α) : Prop where
  files : ∀ s, (action.runOn s).2 = s

/-- All errors of an operation are of one sort. -/
structure FailsAs (P : ε → Prop) (action : FileAction ε α) : Prop where
  error : ∀ s e s', action.runOn s = (.error e, s') → P e

namespace ReadsOnly

theorem pure (a : α) : (Pure.pure a : FileAction ε α).ReadsOnly :=
  ⟨fun _ => rfl⟩

theorem throw (e : ε) : (throw e : FileAction ε α).ReadsOnly :=
  ⟨fun _ => rfl⟩

theorem get : (get : FileAction ε FileStore).ReadsOnly :=
  ⟨fun _ => rfl⟩

theorem liftM (x : Except ε α) : (liftM x : FileAction ε α).ReadsOnly := by
  constructor
  intro s
  rw [runOn_liftM]

theorem bind (h : action.ReadsOnly) (hf : ∀ a, (f a).ReadsOnly) : (action >>= f).ReadsOnly := by
  constructor
  intro s
  rw [runOn_bind]
  have kept := h.files s
  revert kept
  rcases action.runOn s with ⟨e | a, s'⟩
  · exact id
  · rintro rfl
    exact (hf a).files s'

theorem explain (h : action.ReadsOnly) (wrap : ε → δ) : (action.explain wrap).ReadsOnly := by
  constructor
  intro s
  rw [runOn_explain]
  exact h.files s

end ReadsOnly

namespace FailsAs

variable {P : ε → Prop}

theorem pure (a : α) : FailsAs P (Pure.pure a) := by
  constructor
  intro s e s' h
  cases h

theorem throw {e : ε} (h : P e) : FailsAs P (throw e : FileAction ε α) := by
  constructor
  intro s e' s' hs
  cases hs
  exact h

theorem get : FailsAs P (get : FileAction ε FileStore) := by
  constructor
  intro s e s' h
  cases h

theorem bind (h : FailsAs P action) (hf : ∀ a, FailsAs P (f a)) : FailsAs P (action >>= f) := by
  constructor
  intro s e s'' hs
  rcases runOn_bind_eq_error.mp hs with hs | ⟨a, s', -, hs⟩
  · exact h.error s e s'' hs
  · exact (hf a).error s' e s'' hs

theorem explain {wrap : δ → ε} {action : FileAction δ α} (h : ∀ fault, P (wrap fault)) :
    FailsAs P (action.explain wrap) := by
  constructor
  intro s e s' hs
  obtain ⟨fault, -, rfl⟩ := runOn_explain_eq_error.mp hs
  exact h fault

theorem forM {f : α → FileAction ε Unit} (h : ∀ a, FailsAs P (f a)) (l : List α) :
    FailsAs P (l.forM f) := by
  induction l with
  | nil => exact FailsAs.pure ()
  | cons a l ih => exact (h a).bind fun _ => ih

end FailsAs

end FileAction

namespace FileStore

variable {ε α β : Type} {action : FileAction ε α} {s s' : FileStore} {a : α}

/-- What an operation gives on the files as they are. -/
def answer (s : FileStore) (action : FileAction ε α) : Except ε α :=
  (action.runOn s).1

theorem runOn_of_answer (h : action.ReadsOnly) (s : FileStore) :
    action.runOn s = (s.answer action, s) :=
  Prod.ext rfl (h.files s)

theorem answer_bind (h : action.ReadsOnly) (f : α → FileAction ε β) (s : FileStore) :
    s.answer (action >>= f) = s.answer action >>= fun a => s.answer (f a) := by
  unfold answer
  rw [FileAction.runOn_bind, runOn_of_answer h]
  unfold answer
  rcases (action.runOn s).1 with e | a <;> rfl

theorem answer_explain {δ : Type} (wrap : ε → δ) (action : FileAction ε α) (s : FileStore) :
    s.answer (action.explain wrap) = (s.answer action).mapError wrap := by
  unfold answer
  rw [FileAction.runOn_explain]

end FileStore

end LivePages
