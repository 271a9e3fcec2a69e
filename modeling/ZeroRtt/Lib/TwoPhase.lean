import Mathlib.Data.List.Nodup
import Mathlib.Logic.Function.Basic

namespace ZeroRtt.Lib.TwoPhase

open Function

variable {κ ι : Type} {table : κ → Option ι} {index : ι → Option κ} {leaving : List (κ × ι)}
variable {k : κ} {x : ι}

/-- A table and an index of its values that are updated one after the other: an
entry is `leaving` once it is out of the table and still in the index. -/
structure Indexed (table : κ → Option ι) (index : ι → Option κ) (leaving : List (κ × ι)) :
    Prop where
  table_index : ∀ {k x}, table k = some x → index x = some k
  leaving_index : ∀ {k x}, (k, x) ∈ leaving → index x = some k
  index_cases : ∀ {k x}, index x = some k → table k = some x ∨ (k, x) ∈ leaving
  apart : ∀ {k k' x}, table k = some x → (k', x) ∉ leaving
  nodup : (leaving.map Prod.snd).Nodup

namespace Indexed

theorem empty : Indexed (fun _ : κ ↦ (none : Option ι)) (fun _ ↦ none) [] where
  table_index h := by cases h
  leaving_index h := by cases h
  index_cases h := by cases h
  apart h := by cases h
  nodup := List.nodup_nil

theorem index_eq_none (h : Indexed table index leaving) (htable : ∀ k, table k ≠ some x)
    (hleaving : ∀ k, (k, x) ∉ leaving) : index x = none := by
  cases hx : index x with
  | none => rfl
  | some k =>
    rcases h.index_cases hx with hk | hk
    · exact absurd hk (htable k)
    · exact absurd hk (hleaving k)

/-- When no entry is leaving, each of the two is the inverse of the other. -/
theorem inverse (h : Indexed table index []) : index x = some k ↔ table k = some x := by
  refine ⟨?_, h.table_index⟩
  intro hx
  rcases h.index_cases hx with hk | hk
  · exact hk
  · cases hk

theorem insert [DecidableEq κ] [DecidableEq ι] (h : Indexed table index leaving)
    (hk : table k = none) (hx : index x = none) :
    Indexed (update table k (some x)) (update index x (some k)) leaving where
  table_index {k' x'} hk' := by
    by_cases hkk : k' = k
    · subst hkk
      obtain rfl : x = x' := by simpa using hk'
      exact update_self ..
    · rw [update_of_ne hkk] at hk'
      have hne : x' ≠ x := by
        rintro rfl
        rw [h.table_index hk'] at hx
        cases hx
      rw [update_of_ne hne, h.table_index hk']
  leaving_index {k' x'} hk' := by
    have hne : x' ≠ x := by
      rintro rfl
      rw [h.leaving_index hk'] at hx
      cases hx
    rw [update_of_ne hne, h.leaving_index hk']
  index_cases {k' x'} hx' := by
    by_cases hxx : x' = x
    · subst hxx
      obtain rfl : k = k' := by simpa using hx'
      exact .inl (update_self ..)
    · rw [update_of_ne hxx] at hx'
      rcases h.index_cases hx' with hk' | hk'
      · have hne : k' ≠ k := by
          rintro rfl
          rw [hk] at hk'
          cases hk'
        rw [update_of_ne hne]
        exact .inl hk'
      · exact .inr hk'
  apart {k' k'' x'} hk' hmem := by
    by_cases hkk : k' = k
    · subst hkk
      obtain rfl : x = x' := by simpa using hk'
      rw [h.leaving_index hmem] at hx
      cases hx
    · rw [update_of_ne hkk] at hk'
      exact h.apart hk' hmem
  nodup := h.nodup

theorem detach [DecidableEq κ] (h : Indexed table index leaving) (hk : table k = some x) :
    Indexed (update table k none) index ((k, x) :: leaving) where
  table_index {k' x'} hk' := by
    have hne : k' ≠ k := by
      rintro rfl
      simp at hk'
    rw [update_of_ne hne] at hk'
    exact h.table_index hk'
  leaving_index {k' x'} hmem := by
    rcases List.mem_cons.mp hmem with heq | hmem
    · cases heq
      exact h.table_index hk
    · exact h.leaving_index hmem
  index_cases {k' x'} hx' := by
    rcases h.index_cases hx' with hk' | hmem
    · by_cases hkk : k' = k
      · subst hkk
        obtain rfl : x = x' := by simpa using hk.symm.trans hk'
        exact .inr (List.mem_cons_self ..)
      · rw [update_of_ne hkk]
        exact .inl hk'
    · exact .inr (List.mem_cons_of_mem _ hmem)
  apart {k' k'' x'} hk' hmem := by
    have hne : k' ≠ k := by
      rintro rfl
      simp at hk'
    rw [update_of_ne hne] at hk'
    rcases List.mem_cons.mp hmem with heq | hmem
    · cases heq
      exact hne (Option.some.inj ((h.table_index hk').symm.trans (h.table_index hk)))
    · exact h.apart hk' hmem
  nodup := by
    rw [List.map_cons, List.nodup_cons]
    refine ⟨?_, h.nodup⟩
    intro hmem
    obtain ⟨⟨k', x'⟩, hleft, rfl⟩ := List.mem_map.mp hmem
    exact h.apart hk hleft

theorem discard [DecidableEq ι] {before after : List (κ × ι)}
    (h : Indexed table index (before ++ (k, x) :: after)) :
    index x = some k ∧ Indexed table (update index x none) (before ++ after) := by
  have hkeep : ∀ {p}, p ∈ before ++ after → p ∈ before ++ (k, x) :: after := by
    intro p hp
    rcases List.mem_append.mp hp with hp | hp
    · exact List.mem_append_left _ hp
    · exact List.mem_append_right _ (List.mem_cons_of_mem _ hp)
  have hmid : (k, x) ∈ before ++ (k, x) :: after := List.mem_append_right _ (List.mem_cons_self ..)
  have hnodup : ((x :: (before ++ after).map Prod.snd)).Nodup := by
    have hn := h.nodup
    rw [List.map_append, List.map_cons] at hn
    rw [List.map_append]
    exact List.nodup_middle.mp hn
  obtain ⟨hx, hrest⟩ := List.nodup_cons.mp hnodup
  have hne : ∀ {k' x'}, (k', x') ∈ before ++ after → x' ≠ x := by
    rintro k' x' hmem rfl
    exact hx (List.mem_map_of_mem (f := Prod.snd) hmem)
  refine ⟨h.leaving_index hmid, ⟨?_, ?_, ?_, fun hk' hmem ↦ h.apart hk' (hkeep hmem), hrest⟩⟩
  · intro k' x' hk'
    have hxx : x' ≠ x := by
      rintro rfl
      exact h.apart hk' hmid
    rw [update_of_ne hxx]
    exact h.table_index hk'
  · intro k' x' hmem
    rw [update_of_ne (hne hmem)]
    exact h.leaving_index (hkeep hmem)
  · intro k' x' hx'
    have hxx : x' ≠ x := by
      rintro rfl
      simp at hx'
    rw [update_of_ne hxx] at hx'
    rcases h.index_cases hx' with hk' | hmem
    · exact .inl hk'
    · rcases List.mem_append.mp hmem with hmem | hmem
      · exact .inr (List.mem_append_left _ hmem)
      · rcases List.mem_cons.mp hmem with heq | hmem
        · cases heq
          exact absurd rfl hxx
        · exact .inr (List.mem_append_right _ hmem)

end Indexed

end ZeroRtt.Lib.TwoPhase
