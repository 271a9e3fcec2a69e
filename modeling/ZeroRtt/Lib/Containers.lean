import Mathlib.Data.List.AList
import Mathlib.Data.List.MinMax
import Mathlib.Data.List.Nodup
import Mathlib.Order.Basic

namespace ZeroRtt.Lib.Containers

variable {α : Type}

abbrev HashMap (κ ν : Type) := AList (fun _ : κ ↦ ν)

section HashMap

variable {κ ν : Type} [DecidableEq κ] (m : HashMap κ ν) (k : κ)

theorem lookup_insert_eq_update (v : ν) :
    (fun k' ↦ (m.insert k v).lookup k') = Function.update (fun k' ↦ m.lookup k') k (some v) := by
  funext k'
  by_cases h : k' = k
  · subst h
    rw [AList.lookup_insert, Function.update_self]
  · rw [AList.lookup_insert_ne h, Function.update_of_ne h]

theorem lookup_erase_eq_update :
    (fun k' ↦ (m.erase k).lookup k') = Function.update (fun k' ↦ m.lookup k') k none := by
  funext k'
  by_cases h : k' = k
  · subst h
    rw [AList.lookup_erase, Function.update_self]
  · rw [AList.lookup_erase_ne h, Function.update_of_ne h]

end HashMap

/-- A set with no order that a program can rely on: an operation that visits
the elements does so along an arbitrary `Order`. -/
structure HashSet (α : Type) where
  toList : List α
  nodup : toList.Nodup

namespace HashSet

def empty : HashSet α := ⟨[], List.nodup_nil⟩

instance : Membership α (HashSet α) := ⟨fun s a ↦ a ∈ s.toList⟩

@[simp] theorem not_mem_empty (a : α) : a ∉ (empty : HashSet α) := List.not_mem_nil

abbrev Order (α : Type) := ∀ s : HashSet α, { l : List α // l.Perm s.toList }

def listed : Order α := fun s ↦ ⟨s.toList, .refl _⟩

theorem mem_order (o : Order α) {s : HashSet α} {a : α} : a ∈ (o s).1 ↔ a ∈ s :=
  (o s).2.mem_iff

theorem order_nodup (o : Order α) (s : HashSet α) : (o s).1.Nodup := (o s).2.nodup_iff.mpr s.nodup

variable [DecidableEq α]

instance (s : HashSet α) (a : α) : Decidable (a ∈ s) := inferInstanceAs (Decidable (a ∈ s.toList))

def insert (s : HashSet α) (a : α) : HashSet α := ⟨s.toList.insert a, s.nodup.insert⟩

def erase (s : HashSet α) (a : α) : HashSet α := ⟨s.toList.erase a, s.nodup.erase a⟩

@[simp] theorem mem_insert {s : HashSet α} {a b : α} : a ∈ s.insert b ↔ a = b ∨ a ∈ s :=
  List.mem_insert_iff

@[simp] theorem mem_erase {s : HashSet α} {a b : α} : a ∈ s.erase b ↔ a ≠ b ∧ a ∈ s :=
  s.nodup.mem_erase_iff

end HashSet

/-- A priority queue: every item has one priority, `push` replaces it, and the
queue gives away an item of least priority, whichever of them. -/
abbrev PriorityQueue (κ ν : Type) := AList (fun _ : κ ↦ ν)

structure Peek (κ ν : Type) [DecidableEq κ] [LE ν] where
  peek : PriorityQueue κ ν → Option (κ × ν)
  eq_empty : ∀ q, peek q = none → q = ∅
  lookup_eq : ∀ q k t, peek q = some (k, t) → q.lookup k = some t
  least : ∀ q k t, peek q = some (k, t) → ∀ k' t', q.lookup k' = some t' → t ≤ t'

namespace Peek

variable {κ ν : Type} [DecidableEq κ] [LinearOrder ν]

def first : Peek κ ν where
  peek q := (q.entries.argmin Sigma.snd).map fun e ↦ (e.1, e.2)
  eq_empty q h := AList.ext (List.argmin_eq_none.mp (Option.map_eq_none_iff.mp h))
  lookup_eq := by
    intro q k t h
    obtain ⟨e, he, heq⟩ := Option.map_eq_some_iff.mp h
    cases heq
    exact AList.mem_lookup_iff.mpr (List.argmin_mem he)
  least := by
    intro q k t h k' t' ht'
    obtain ⟨e, he, heq⟩ := Option.map_eq_some_iff.mp h
    cases heq
    exact List.le_of_mem_argmin (AList.mem_lookup_iff.mp ht') he

end Peek

end ZeroRtt.Lib.Containers
