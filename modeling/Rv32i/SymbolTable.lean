import Rv32i.Text.Quoted
import Rv32i.Word.Layout

/-!
# Symbol tables

A finite map from label names to addresses, each name at most once. Its listing is ordered by
address and then by name, so it does not depend on the order in which labels were entered.
-/

set_option autoImplicit false

namespace Rv32i

open Text (ofString)

structure SymbolTable where
  entries : List (Text × Address)
  distinct : (entries.map Prod.fst).Nodup

namespace SymbolTable

def empty : SymbolTable := ⟨[], List.nodup_nil⟩

def get? (s : SymbolTable) (name : Text) : Option Address := s.entries.lookup name

def insert (s : SymbolTable) (name : Text) (address : Address) : SymbolTable where
  entries := (name, address) :: s.entries.filter (·.1 != name)
  distinct := by
    rw [List.map_cons, List.nodup_cons]
    constructor
    · simp
    · exact (List.filter_sublist.map Prod.fst).nodup s.distinct

@[simp] theorem get?_empty (name : Text) : empty.get? name = none := rfl

theorem lookup_filter_ne {κ α : Type} [BEq κ] [LawfulBEq κ] (entries : List (κ × α))
    {name other : κ} (h : other ≠ name) :
    (entries.filter (·.1 != name)).lookup other = entries.lookup other := by
  induction entries with
  | nil => rfl
  | cons e entries ih =>
    by_cases he : e.1 = name
    · have hother : (other == e.1) = false := beq_eq_false_iff_ne.2 fun heq => h (heq.trans he)
      rw [List.filter_cons_of_neg (by simp [he]), ih, List.lookup_cons, hother]
    · rw [List.filter_cons_of_pos (by simpa using he), List.lookup_cons, List.lookup_cons, ih]

theorem get?_insert (s : SymbolTable) (name other : Text) (address : Address) :
    (s.insert name address).get? other = if other = name then some address else s.get? other := by
  by_cases h : other = name
  · simp [get?, insert, h]
  · have hne : (other == name) = false := by simpa using h
    simp [get?, insert, List.lookup_cons, h, hne, lookup_filter_ne s.entries h]

def ofList (entries : List (Text × Address)) : SymbolTable :=
  entries.foldl (fun s e => s.insert e.1 e.2) empty

def precedes (a b : Text × Address) : Bool :=
  a.2 < b.2 || (a.2 == b.2 && Text.le a.1 b.1)

def ordered (s : SymbolTable) : List (Text × Address) := s.entries.mergeSort precedes

def names (s : SymbolTable) : List Text := s.ordered.map Prod.fst

end SymbolTable

end Rv32i
