namespace LivePages

/-- Distinct names, numbered from zero in the order of their first use. -/
structure NameTable where
  names : List String
  distinct : names.Nodup

namespace NameTable

/-- The number of a name that has been used. -/
def lookup (t : NameTable) (name : String) : Option Nat :=
  t.names.idxOf? name

theorem lookup_eq_none_iff {t : NameTable} {name : String} :
    t.lookup name = none ↔ name ∉ t.names := by
  simp [lookup, List.idxOf?_eq_none_iff]

/-- Gives a name its number; a new name takes the next free one. -/
def intern (t : NameTable) (name : String) : NameTable × Nat :=
  match h : t.lookup name with
  | some number => (t, number)
  | none =>
    (⟨t.names ++ [name], by
      have fresh := lookup_eq_none_iff.mp h
      rw [List.nodup_append]
      refine ⟨t.distinct, by simp, ?_⟩
      intro a ha b hb
      rw [List.mem_singleton.mp hb]
      intro he
      exact fresh (he ▸ ha)⟩, t.names.length)

/-- The name with a given number; the empty name stands for every unused number. -/
def get (t : NameTable) (number : Nat) : String :=
  t.names.getD number ""

def length (t : NameTable) : Nat :=
  t.names.length

def isEmpty (t : NameTable) : Bool :=
  t.names.isEmpty

/-- The names every page uses come first, the empty name before all others. -/
def standard : NameTable where
  names := ["", "html", "head", "body", "div", "p", "script", "link", "style", "meta", "title",
    "id", "class", "src", "href", "rel", "name", "type"]
  distinct := by decide

end NameTable

end LivePages
