import LivePages.Dom.NamePool
import LivePages.Proofs.Dom.Searches
import LivePages.Proofs.Text.Map
import Mathlib.Data.String.Basic

namespace LivePages

open String (utf8Len utf8Len_toList)

theorem dropBytes_append (front behind : List Char) :
    dropBytes (utf8Len front) (front ++ behind) = some behind := by
  induction front with
  | nil => cases behind <;> rfl
  | cons c front ih =>
    have hc := c.utf8Size_pos
    obtain ⟨n, hn⟩ : ∃ n, utf8Len front + c.utf8Size = n + 1 := ⟨_, (Nat.succ_pred (by omega)).symm⟩
    have hle : c.utf8Size ≤ n + 1 := by omega
    have hrest : n + 1 - c.utf8Size = utf8Len front := by omega
    rw [String.utf8Len_cons, hn, List.cons_append, dropBytes, if_pos hle, hrest, ih]

theorem takeBytes_append (front behind : List Char) :
    takeBytes (utf8Len front) (front ++ behind) = some front := by
  induction front with
  | nil => cases behind <;> rfl
  | cons c front ih =>
    have hc := c.utf8Size_pos
    obtain ⟨n, hn⟩ : ∃ n, utf8Len front + c.utf8Size = n + 1 := ⟨_, (Nat.succ_pred (by omega)).symm⟩
    have hle : c.utf8Size ≤ n + 1 := by omega
    have hrest : n + 1 - c.utf8Size = utf8Len front := by omega
    rw [String.utf8Len_cons, hn, List.cons_append, takeBytes, if_pos hle, hrest, ih, Option.map_some]

/-- A text inside another one is found by the bytes before it and its own. -/
theorem stretch?_append (before text after : String) :
    stretch? (before ++ text ++ after) before.utf8ByteSize text.utf8ByteSize = some text := by
  rw [stretch?, ← utf8Len_toList, ← utf8Len_toList, String.toList_append, String.toList_append,
    List.append_assoc, dropBytes_append, Option.bind_some, takeBytes_append, Option.map_some,
    String.ofList_toList]

theorem toNat_toUInt32 {n : Nat} (h : n < 2 ^ 32) : n.toUInt32.toNat = n :=
  UInt32.toNat_ofNat_of_lt' h

namespace NameTable

variable {t : NameTable} {name other : String} {number : Nat}

theorem eq_of_names {t' : NameTable} (h : t.names = t'.names) : t = t' := by
  cases t
  cases t'
  cases h
  rfl

theorem intern_of_some (h : t.lookup name = some number) : t.intern name = (t, number) := by
  unfold intern
  split
  next hl => rw [Option.some.inj (hl.symm.trans h)]
  next hl => cases hl.symm.trans h

theorem intern_of_none (h : t.lookup name = none) :
    (t.intern name).1.names = t.names ++ [name] ∧ (t.intern name).2 = t.length := by
  unfold intern
  split
  next hl => cases hl.symm.trans h
  next => exact ⟨rfl, rfl⟩

theorem lookup_of_append {t' : NameTable} {more : List String} (h : t'.names = t.names ++ more)
    (other : String) :
    t'.lookup other = (t.lookup other).or ((more.idxOf? other).map (· + t.length)) := by
  rw [lookup, h, List.idxOf?, List.findIdx?_append]
  rfl

theorem lookup_of_prefix {t' : NameTable} (h : t.names <+: t'.names)
    (hl : t.lookup name = some number) : t'.lookup name = some number := by
  obtain ⟨more, hm⟩ := h
  rw [lookup_of_append hm.symm, hl, Option.some_or]

theorem lookup_intern (t : NameTable) (name : String) :
    (t.intern name).1.lookup name = some (t.intern name).2 := by
  cases hl : t.lookup name with
  | some number => rw [intern_of_some hl, hl]
  | none =>
    obtain ⟨names, number⟩ := intern_of_none hl
    rw [lookup_of_append names, hl, number]
    simp [List.idxOf?]

theorem get_of_lookup (h : t.lookup name = some number) : t.get number = name := by
  rw [get, List.getD_eq_getElem?_getD, getElem?_of_lookup h, Option.getD_some]

theorem get_of_le (h : t.length ≤ number) : t.get number = "" := by
  rw [get, List.getD_eq_getElem?_getD, List.getElem?_eq_none h, Option.getD_none]

theorem get_of_prefix {t' : NameTable} (h : t.names <+: t'.names) (hn : number < t.length) :
    t'.get number = t.get number := by
  obtain ⟨more, hm⟩ := h
  rw [get, get, List.getD_eq_getElem?_getD, List.getD_eq_getElem?_getD, ← hm,
    List.getElem?_append_left hn]

theorem lookup_lt (h : t.lookup name = some number) : number < t.length := by
  obtain ⟨hn, -⟩ := List.getElem?_eq_some_iff.mp (getElem?_of_lookup h)
  exact hn

/-- Every number below the count stands for a name. -/
theorem exists_lookup_iff : (∃ name, t.lookup name = some number) ↔ number < t.length := by
  constructor
  · rintro ⟨name, hl⟩
    exact lookup_lt hl
  · intro hn
    refine ⟨t.names[number], ?_⟩
    rw [lookup, List.idxOf?_eq_some_iff]
    refine ⟨hn, rfl, fun j hj e => ?_⟩
    exact Nat.ne_of_lt hj ((t.distinct.getElem_inj_iff).mp e)

def internAll (t : NameTable) (names : List String) : NameTable :=
  names.foldl (fun t name => (t.intern name).1) t

theorem internAll_append (t : NameTable) (earlier later : List String) :
    t.internAll (earlier ++ later) = (t.internAll earlier).internAll later :=
  List.foldl_append

theorem prefix_intern (t : NameTable) (name : String) : t.names <+: (t.intern name).1.names := by
  rw [names_intern]
  split
  next => exact List.prefix_refl _
  next => exact List.prefix_append _ _

theorem prefix_internAll (t : NameTable) (names : List String) :
    t.names <+: (t.internAll names).names := by
  induction names generalizing t with
  | nil => exact List.prefix_refl _
  | cons name names ih => exact (t.prefix_intern name).trans (ih _)

theorem mem_internAll {names : List String} :
    other ∈ (t.internAll names).names ↔ other ∈ t.names ++ names := by
  induction names generalizing t with
  | nil => rw [List.append_nil]; rfl
  | cons name names ih =>
    rw [internAll, List.foldl_cons, ← internAll, ih, List.mem_append, mem_intern]
    simp [or_assoc]

end NameTable

namespace NamePool

variable {p : NamePool} {t : NameTable} {name : String} {number : UInt32}

/-- A pool with the names of a table, each in its stretch of the joined text. -/
structure Keeps (p : NamePool) (t : NameTable) : Prop where
  joined : p.joined = String.join t.names
  length : p.length = t.length
  span : ∀ (before : List String) (name : String) (after : List String),
    t.names = before ++ name :: after →
      p.spans[before.length]? = some (.behind (String.join before) name)
  lookup : ∀ name, p.lookup name = (t.lookup name).map Nat.toUInt32

theorem intern_of_some (h : p.lookup name = some number) : p.intern name = (p, number) := by
  rw [intern, h]

theorem intern_of_none (h : p.lookup name = none) :
    p.intern name = (p.add name, p.length.toUInt32) := by
  rw [intern, h]
  rfl

namespace Keeps

variable (h : p.Keeps t)
include h

/-- A name that is new to the pool stands behind all others. -/
theorem add {t' : NameTable} (ht : t'.names = t.names ++ [name]) (hn : t.lookup name = none) :
    (p.add name).Keeps t' where
  joined := by
    rw [ht, String.join_append, ← h.joined]
    simp [NamePool.add]
  length := by
    have hl := h.length
    unfold NamePool.length at hl
    simp [NamePool.add, NamePool.length, NameTable.length, ht, hl]
  span before other after e := by
    have size : p.spans.size = t.names.length := h.length
    rcases append_eq_middle (ht.symm.trans e) with ⟨m, he, rfl⟩ | ⟨m, he, -⟩
    · obtain ⟨rfl, rfl, -⟩ : m = [] ∧ name = other ∧ after = [] := by
        cases m <;> simp_all
      rw [List.append_nil, ← h.joined, ← size]
      exact Array.getElem?_push_size
    · have hlt : before.length < p.spans.size := by simp [size, he]
      rw [← h.span before other m he, Array.getElem?_eq_getElem hlt]
      exact Array.getElem?_push_lt hlt
  lookup other := by
    rw [NameTable.lookup_of_append ht]
    show (p.numbers.insert name p.length.toUInt32).lookup other = _
    rw [TextMap.lookup_insert, h.length]
    split
    next he => simp [he, hn, List.idxOf?]
    next he =>
      simp only [List.idxOf?, List.findIdx?_singleton, beq_iff_eq, Ne.symm he, if_false,
        Option.map_none, Option.or_none]
      exact h.lookup other

theorem intern (name : String) : (p.intern name).1.Keeps (t.intern name).1 ∧
    (p.intern name).2 = (t.intern name).2.toUInt32 := by
  cases hl : t.lookup name with
  | some number =>
    rw [intern_of_some (by rw [h.lookup, hl]; rfl), NameTable.intern_of_some hl]
    exact ⟨h, rfl⟩
  | none =>
    obtain ⟨names, number⟩ := NameTable.intern_of_none hl
    rw [intern_of_none (by rw [h.lookup, hl]; rfl), number, h.length]
    exact ⟨h.add names hl, rfl⟩

theorem internAll (names : List String) : (p.internAll names).Keeps (t.internAll names) := by
  induction names generalizing p t with
  | nil => exact h
  | cons name names ih => exact ih (h.intern name).1

/-- As long as the numbers fit, the pool and the table give a name the same one. -/
theorem lookup_eq_some_iff (count : p.length < 2 ^ 32) :
    p.lookup name = some number ↔ t.lookup name = some number.toNat := by
  have small {n : Nat} (hn : t.lookup name = some n) : n.toUInt32.toNat = n :=
    toNat_toUInt32 ((NameTable.lookup_lt hn).trans (h.length ▸ count))
  rw [h.lookup, Option.map_eq_some_iff]
  constructor
  · rintro ⟨n, hn, rfl⟩
    rw [small hn, hn]
  · intro hn
    exact ⟨number.toNat, hn, UInt32.toNat_inj.mp (small hn)⟩

/-- As long as the places in the joined text fit, each name is read from its stretch. -/
theorem get?_eq (bytes : p.joined.utf8ByteSize < 2 ^ 32) (number : UInt32) :
    p.get? number = some (t.get number.toNat) := by
  have size : p.spans.size = t.names.length := h.length
  rw [NameTable.get, List.getD_eq_getElem?_getD]
  by_cases hlt : number.toNat < t.names.length
  · have split := List.take_append_drop number.toNat t.names
    rw [List.drop_eq_getElem_cons hlt] at split
    have span := h.span _ _ _ split.symm
    rw [List.length_take_of_le (Nat.le_of_lt hlt)] at span
    have joined := h.joined
    rw [← split, String.join_append, String.join_cons, ← String.append_assoc] at joined
    rw [joined, String.utf8ByteSize_append, String.utf8ByteSize_append] at bytes
    rw [get?, span, joined, List.getElem?_eq_getElem hlt]
    show stretch? _ (Nat.toUInt32 _).toNat (Nat.toUInt32 _).toNat = _
    rw [toNat_toUInt32 (by omega), toNat_toUInt32 (by omega), stretch?_append]
    rfl
  · rw [get?, Array.getElem?_eq_none (by omega), List.getElem?_eq_none (by omega)]
    rfl

end Keeps

theorem keeps_standard : standard.Keeps .standard := by
  have empty : NamePool.empty.Keeps ⟨[], .nil⟩ :=
    ⟨rfl, rfl, fun before name after e => by simp at e, fun name => rfl⟩
  have table : NameTable.internAll ⟨[], .nil⟩ NameTable.standard.names = .standard :=
    NameTable.eq_of_names (by decide)
  exact table ▸ empty.internAll NameTable.standard.names

theorem internAll_append (p : NamePool) (earlier later : List String) :
    p.internAll (earlier ++ later) = (p.internAll earlier).internAll later :=
  List.foldl_append

theorem lookup_given (earlier : List String) (name : String) (later : List String) :
    (standard.internAll (earlier ++ name :: later)).lookup name =
      some ((standard.internAll earlier).intern name).2 := by
  obtain ⟨kept, number⟩ := (keeps_standard.internAll earlier).intern name
  have found := NameTable.lookup_of_prefix (NameTable.prefix_internAll _ later)
    (NameTable.lookup_intern (NameTable.standard.internAll earlier) name)
  rw [internAll_append, number]
  show ((((standard.internAll earlier).intern name).1).internAll later).lookup name = _
  rw [(kept.internAll later).lookup, found, Option.map_some]

/-- What a pool answers after names have been interned one after another, behind those that every page
uses. -/
structure Interned (names : List String) (p : NamePool) : Prop where
  used : ∀ name, (p.lookup name).isSome ↔ name ∈ NameTable.standard.names ++ names
  /-- The numbers are those below the count. -/
  numbered : ∀ number : UInt32, (∃ name, p.lookup name = some number) ↔ number.toNat < p.length
  unused : ∀ number : UInt32, p.length ≤ number.toNat → p.get? number = some ""
  get : ∀ name number, p.lookup name = some number → p.get? number = some name
  distinct : ∀ a b number, p.lookup a = some number → p.lookup b = some number → a = b
  again : ∀ name number, p.lookup name = some number → p.intern name = (p, number)
  fresh : ∀ name, p.lookup name = none →
    (p.intern name).2.toNat = p.length ∧ (p.intern name).1.length = p.length + 1
  /-- The number that a name once got stands for the name ever after. -/
  given : ∀ earlier name later, names = earlier ++ name :: later →
    p.lookup name = some ((standard.internAll earlier).intern name).2 ∧
      p.get? ((standard.internAll earlier).intern name).2 = some name
  /-- No later name changes what a number stands for. -/
  kept : ∀ earlier later, names = earlier ++ later →
    ∀ number : UInt32, number.toNat < (standard.internAll earlier).length →
      p.get? number = (standard.internAll earlier).get? number

/-- As long as the count of the names and the bytes of the joined text stay below 2 ^ 32, numbers and
names belong to each other one by one, and stay together. -/
theorem interned_internAll (names : List String) (count : (standard.internAll names).length < 2 ^ 32)
    (bytes : (standard.internAll names).joined.utf8ByteSize < 2 ^ 32) :
    Interned names (standard.internAll names) := by
  have keeps := keeps_standard.internAll names
  have found (name : String) (number : UInt32) : (standard.internAll names).lookup name = some number ↔
      (NameTable.standard.internAll names).lookup name = some number.toNat :=
    keeps.lookup_eq_some_iff count
  have get (name number) (hl : (standard.internAll names).lookup name = some number) :
      (standard.internAll names).get? number = some name := by
    rw [keeps.get?_eq bytes, NameTable.get_of_lookup ((found name number).mp hl)]
  constructor
  case used =>
    intro name
    rw [keeps.lookup, Option.isSome_map, NameTable.lookup_isSome_iff, NameTable.mem_internAll]
  case numbered =>
    intro number
    rw [keeps.length, ← NameTable.exists_lookup_iff]
    exact exists_congr fun name => found name number
  case unused =>
    intro number hn
    rw [keeps.get?_eq bytes, NameTable.get_of_le (keeps.length ▸ hn)]
  case get => exact get
  case distinct =>
    intro a b number ha hb
    exact Option.some.inj ((get a number ha).symm.trans (get b number hb))
  case again => exact fun name number => intern_of_some
  case fresh =>
    intro name hn
    rw [intern_of_none hn]
    exact ⟨toNat_toUInt32 count, Array.size_push _⟩
  case given =>
    rintro earlier name later rfl
    have given := lookup_given earlier name later
    exact ⟨given, get _ _ given⟩
  case kept =>
    rintro earlier later rfl number hn
    have kept := keeps_standard.internAll earlier
    have more := NameTable.prefix_internAll (NameTable.standard.internAll earlier) later
    rw [← NameTable.internAll_append] at more
    have less : (standard.internAll earlier).joined.utf8ByteSize < 2 ^ 32 := by
      obtain ⟨rest, hrest⟩ := more
      rw [keeps.joined, ← hrest, String.join_append, String.utf8ByteSize_append] at bytes
      rw [kept.joined]
      omega
    rw [keeps.get?_eq bytes, kept.get?_eq less, NameTable.get_of_prefix more (kept.length ▸ hn)]

theorem interned_accents : (standard.internAll ["é", "x", "é", "", "éx"]).length < 2 ^ 32 ∧
    (standard.internAll ["é", "x", "é", "", "éx"]).joined.utf8ByteSize < 2 ^ 32 ∧
    (standard.internAll ["é", "x", "é", "", "éx"]).lookup "éx" = some 20 ∧
    (standard.internAll ["é", "x", "é", "", "éx"]).get? 20 = some "éx" := by
  have count : (standard.internAll ["é", "x", "é", "", "éx"]).length < 2 ^ 32 := by decide +kernel
  have bytes : (standard.internAll ["é", "x", "é", "", "éx"]).joined.utf8ByteSize < 2 ^ 32 := by
    decide +kernel
  have interned := interned_internAll ["é", "x", "é", "", "éx"] count bytes
  have number : (standard.internAll ["é", "x", "é", "", "éx"]).lookup "éx" = some 20 := by
    decide +kernel
  exact ⟨count, bytes, number, interned.get _ _ number⟩

end NamePool

end LivePages
