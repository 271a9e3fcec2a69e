import Mathlib.Data.List.Range
import Mathlib.Tactic.Ring

namespace ZeroRtt.Lib.Counters

variable {base stride next : ℕ} {ids : List ℕ}

/-- The ids that a counter has given out which goes up in strides, and which may
have left some of them out. -/
structure Issued (base stride next : ℕ) (ids : List ℕ) : Prop where
  next_eq : ∃ n, next = base + stride * n
  id_eq : ∀ id ∈ ids, ∃ n, id = base + stride * n
  increasing : ids.Pairwise (· < ·)
  below : ∀ id ∈ ids, id < next

theorem issued_nil : Issued base stride base [] :=
  ⟨⟨0, by simp⟩, by simp, .nil, by simp⟩

theorem Issued.skip (h : Issued base stride next ids) : Issued base stride (next + stride) ids := by
  obtain ⟨n, hn⟩ := h.next_eq
  refine ⟨⟨n + 1, ?_⟩, h.id_eq, h.increasing, ?_⟩
  · rw [hn]
    ring
  · intro id hid
    exact Nat.lt_add_right _ (h.below id hid)

theorem Issued.issue (h : Issued base stride next ids) (hstride : 0 < stride) :
    Issued base stride (next + stride) (ids ++ [next]) := by
  obtain ⟨hnext, -, -, hbelow⟩ := h.skip
  refine ⟨hnext, ?_, ?_, ?_⟩
  · intro id hid
    rcases List.mem_append.mp hid with hid | hid
    · exact h.id_eq id hid
    · rw [List.mem_singleton.mp hid]
      exact h.next_eq
  · rw [List.pairwise_append]
    refine ⟨h.increasing, List.pairwise_singleton _ _, ?_⟩
    intro id hid id' hid'
    rw [List.mem_singleton.mp hid']
    exact h.below id hid
  · intro id hid
    rcases List.mem_append.mp hid with hid | hid
    · exact hbelow id hid
    · rw [List.mem_singleton.mp hid]
      omega

theorem Issued.mod_eq (h : Issued base stride next ids) {id : ℕ} (hid : id ∈ ids) :
    id % stride = base % stride := by
  obtain ⟨n, rfl⟩ := h.id_eq id hid
  exact Nat.add_mul_mod_self_left base stride n

/-- The ids are all those of the counter so far, in order. -/
structure Gapless (base stride next : ℕ) (ids : List ℕ) : Prop where
  ids_eq : ids = (List.range ids.length).map fun n ↦ base + stride * n
  next_eq : next = base + stride * ids.length

theorem gapless_nil : Gapless base stride base [] := ⟨rfl, by simp⟩

theorem Gapless.issue (h : Gapless base stride next ids) :
    Gapless base stride (next + stride) (ids ++ [next]) := by
  constructor
  · rw [List.length_append, List.length_singleton, List.range_succ, List.map_append, ← h.ids_eq,
      List.map_singleton, ← h.next_eq]
  · rw [List.length_append, List.length_singleton, h.next_eq]
    ring

end ZeroRtt.Lib.Counters
