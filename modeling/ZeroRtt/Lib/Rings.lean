import Mathlib.Data.List.Rotate

namespace ZeroRtt.Lib.Rings

variable {α : Type}

section Windows

/-- The cells of a circular memory from position `p` on. -/
def window (mem : List α) (p n : ℕ) : List α := (mem.rotate p).take n

variable {mem mem' : List α} {p m n : ℕ}

theorem window_length (hn : n ≤ mem.length) : (window mem p n).length = n := by
  rw [window, List.length_take, List.length_rotate, Nat.min_eq_left hn]

theorem window_add (h : m + n ≤ mem.length) :
    window mem p (m + n) = window mem p m ++ window mem (p + m) n := by
  have hm : m ≤ (mem.rotate p).length := by
    rw [List.length_rotate]
    omega
  have hn : n ≤ ((mem.rotate p).drop m).length := by
    rw [List.length_drop, List.length_rotate]
    omega
  have hrotate : mem.rotate (p + m) = (mem.rotate p).drop m ++ (mem.rotate p).take m := by
    rw [← List.rotate_rotate, List.rotate_eq_drop_append_take hm]
  rw [window, window, window, hrotate, List.take_append_of_le_length hn, List.take_add]

theorem window_drop (h : m + n ≤ mem.length) :
    (window mem p (m + n)).drop m = window mem (p + m) n := by
  have hlength : (window mem p m).length = m := window_length (by omega)
  rw [window_add h]
  exact List.drop_left' hlength

theorem window_take (h : m + n ≤ mem.length) : (window mem p (m + n)).take m = window mem p m := by
  have hlength : (window mem p m).length = m := window_length (by omega)
  rw [window_add h]
  exact List.take_left' hlength

theorem rotate_start (hmem : 0 < mem.length) :
    mem.rotate p = mem.drop (p % mem.length) ++ mem.take (p % mem.length) := by
  rw [← List.rotate_mod, List.rotate_eq_drop_append_take (Nat.mod_lt p hmem).le]

theorem window_of_lt (hmem : 0 < mem.length) (h : p % mem.length + n ≤ mem.length) :
    window mem p n = (mem.take (p % mem.length + n)).drop (p % mem.length) := by
  have hn : n ≤ (mem.drop (p % mem.length)).length := by
    rw [List.length_drop]
    omega
  rw [window, rotate_start hmem, List.take_append_of_le_length hn, List.drop_take,
    Nat.add_sub_cancel_left]

theorem window_of_wrap (hmem : 0 < mem.length) (hn : n ≤ mem.length)
    (h : mem.length ≤ p % mem.length + n) :
    window mem p n = mem.drop (p % mem.length) ++ mem.take (p % mem.length + n - mem.length) := by
  have hlength : (mem.drop (p % mem.length)).length = mem.length - p % mem.length :=
    List.length_drop
  have hlt := Nat.mod_lt p hmem
  have hrest : n - (mem.length - p % mem.length) = p % mem.length + n - mem.length := by omega
  have hmin : min (p % mem.length + n - mem.length) (p % mem.length) =
      p % mem.length + n - mem.length := by omega
  rw [window, rotate_start hmem, List.take_append, hlength, hrest, List.take_take, hmin,
    List.take_of_length_le (by omega)]

end Windows

section Overwriting

/-- The cells from position `p` on hold `b`, and the others are as before. -/
def Overwrites (mem mem' : List α) (p : ℕ) (b : List α) : Prop :=
  mem'.rotate p = b ++ (mem.rotate p).drop b.length

variable {mem mem' b b' : List α} {p k : ℕ}

theorem Overwrites.length_eq (h : Overwrites mem mem' p b) (hb : b.length ≤ mem.length) :
    mem'.length = mem.length := by
  have hlength := congrArg List.length h
  rw [List.length_rotate, List.length_append, List.length_drop, List.length_rotate] at hlength
  omega

theorem overwrites_nil : Overwrites mem mem p [] := rfl

theorem Overwrites.window (h : Overwrites mem mem' (p + k) b) (hb : k + b.length ≤ mem.length) :
    window mem' p (k + b.length) = window mem p k ++ b := by
  have hmem' : mem'.length = mem.length := h.length_eq (by omega)
  have hk : k ≤ (mem.rotate p).length := by
    rw [List.length_rotate]
    omega
  have hk' : k ≤ (mem'.rotate p).length := by
    rw [List.length_rotate]
    omega
  unfold Overwrites at h
  rw [← List.rotate_rotate, ← List.rotate_rotate, List.rotate_eq_drop_append_take hk,
    List.rotate_eq_drop_append_take hk'] at h
  have hdrop : ((mem.rotate p).drop k ++ (mem.rotate p).take k).drop b.length =
      ((mem.rotate p).drop k).drop b.length ++ (mem.rotate p).take k := by
    apply List.drop_append_of_le_length
    rw [List.length_drop, List.length_rotate]
    omega
  rw [hdrop, ← List.append_assoc] at h
  obtain ⟨hbehind, hbefore⟩ := List.append_inj h (by simp; omega)
  have hnew : (Rings.window mem' (p + k) b.length) = b := by
    rw [Rings.window, ← List.rotate_rotate, List.rotate_eq_drop_append_take hk', hbehind,
      List.append_assoc]
    exact List.take_left' rfl
  rw [window_add (by omega), hnew, Rings.window, hbefore, Rings.window]

/-- `mem` with `b` copied over its cells from `k` on. -/
def splice (mem : List α) (k : ℕ) (b : List α) : List α :=
  mem.take k ++ b ++ mem.drop (k + b.length)

theorem splice_length (h : k + b.length ≤ mem.length) : (splice mem k b).length = mem.length := by
  simp only [splice, List.length_append, List.length_take, List.length_drop]
  omega

theorem splice_take (h : k ≤ mem.length) : (splice mem k b).take k = mem.take k := by
  rw [splice, List.append_assoc]
  exact List.take_left' (List.length_take_of_le h)

theorem splice_drop (h : k ≤ mem.length) :
    (splice mem k b).drop k = b ++ mem.drop (k + b.length) := by
  rw [splice, List.append_assoc]
  exact List.drop_left' (List.length_take_of_le h)

theorem overwrites_splice (hmem : 0 < mem.length)
    (h : p % mem.length + b.length ≤ mem.length) :
    Overwrites mem (splice mem (p % mem.length) b) p b := by
  have hlength := splice_length h
  have hk := (Nat.mod_lt p hmem).le
  have hb : b.length ≤ (mem.drop (p % mem.length)).length := by
    rw [List.length_drop]
    omega
  unfold Overwrites
  rw [rotate_start (by omega), hlength, splice_take hk, splice_drop hk, rotate_start hmem,
    List.drop_append_of_le_length hb, List.drop_drop, List.append_assoc]

theorem overwrites_splice_splice (hmem : 0 < mem.length)
    (hb : p % mem.length + b.length = mem.length) (hb' : b'.length ≤ p % mem.length) :
    Overwrites mem (splice (splice mem (p % mem.length) b) 0 b') p (b ++ b') := by
  have hk := (Nat.mod_lt p hmem).le
  have hfirst : splice mem (p % mem.length) b = mem.take (p % mem.length) ++ b := by
    rw [splice, hb, List.drop_length, List.append_nil]
  have hsecond : splice (splice mem (p % mem.length) b) 0 b' =
      b' ++ (mem.take (p % mem.length)).drop b'.length ++ b := by
    have hle : b'.length ≤ (mem.take (p % mem.length)).length := by
      rw [List.length_take]
      omega
    rw [hfirst, splice, List.take_zero, List.nil_append, Nat.zero_add,
      List.drop_append_of_le_length hle, List.append_assoc]
  have hbefore : (b' ++ (mem.take (p % mem.length)).drop b'.length).length = p % mem.length := by
    simp only [List.length_append, List.length_drop, List.length_take]
    omega
  have hlength : (b' ++ (mem.take (p % mem.length)).drop b'.length ++ b).length = mem.length := by
    rw [List.length_append, hbefore, hb]
  have hdrop : (mem.drop (p % mem.length) ++ mem.take (p % mem.length)).drop (b ++ b').length =
      (mem.take (p % mem.length)).drop b'.length := by
    have hrest : (mem.drop (p % mem.length)).length = b.length := by
      rw [List.length_drop]
      omega
    rw [List.length_append, ← List.drop_drop, List.drop_left' hrest]
  unfold Overwrites
  rw [hsecond, rotate_start (by omega), hlength, List.drop_left' hbefore, List.take_left' hbefore,
    rotate_start hmem, hdrop, List.append_assoc]

theorem Overwrites.of_rest {n : ℕ}
    (h : Overwrites mem mem' p (b ++ (Rings.window mem p n).drop b.length)) :
    Overwrites mem mem' p b := by
  unfold Overwrites at h ⊢
  have hrest : (mem.rotate p).drop b.length =
      (Rings.window mem p n).drop b.length ++
        (mem.rotate p).drop (b ++ (Rings.window mem p n).drop b.length).length := by
    obtain ⟨tail, htail⟩ : ∃ tail, tail = (mem.rotate p).drop b.length := ⟨_, rfl⟩
    have hpart : (Rings.window mem p n).drop b.length = tail.take (n - b.length) := by
      rw [Rings.window, List.drop_take, htail]
    rw [hpart, List.length_append, ← List.drop_drop, ← htail]
    exact (List.prefix_iff_eq_append.mp (List.take_prefix _ tail)).symm
  rw [h, List.append_assoc, ← hrest]

theorem Overwrites.unique {mem'' : List α} (h : Overwrites mem mem' p b)
    (h' : Overwrites mem mem'' p b) : mem' = mem'' := by
  have heq : mem'.rotate p = mem''.rotate p := by rw [h, h']
  exact List.rotate_injective p heq

theorem overwrites_window (mem : List α) (p n : ℕ) :
    Overwrites mem mem p (Rings.window mem p n) := by
  unfold Overwrites
  rw [Rings.window]
  exact (List.prefix_iff_eq_append.mp (List.take_prefix n (mem.rotate p))).symm

theorem splice_zero (mem b : List α) : splice mem 0 b = b ++ mem.drop b.length := by
  rw [splice, List.take_zero, List.nil_append, Nat.zero_add]

theorem splice_splice (mem b b' : List α) :
    splice (splice mem 0 b) b.length b' = b ++ b' ++ mem.drop (b ++ b').length := by
  rw [splice_zero, splice, List.take_left' rfl, ← List.drop_drop, List.drop_left' rfl,
    List.drop_drop, List.length_append]

end Overwriting

section Queues

/-- A queue of capacity `c` takes as many of the items as it has room for. -/
def offer (c : ℕ) (q b : List α) : ℕ × List α :=
  let n := min (c - q.length) b.length
  (n, q ++ b.take n)

/-- A queue gives away as many items as there are and as fit into `b`: their
number, `b` with the items at its start, and the queue that is left. -/
def fetch (q b : List α) : ℕ × List α × List α :=
  let n := min q.length b.length
  (n, q.take n ++ b.drop n, q.drop n)

end Queues

end ZeroRtt.Lib.Rings
