import Mathlib.Data.List.Count
import Mathlib.Data.List.Induction
import Mathlib.Logic.Function.Basic

namespace ZeroRtt.Lib.Ledgers

/-- An entry of a ledger: a key is put with a value, called off, or handed out. -/
inductive Entry (κ ν : Type)
  | put (k : κ) (v : ν)
  | drop (k : κ)
  | take (k : κ)
deriving DecidableEq

variable {κ ν : Type} [DecidableEq κ]

def Entry.post (m : κ → Option ν) : Entry κ ν → κ → Option ν
  | .put k v => Function.update m k (some v)
  | .drop k => Function.update m k none
  | .take k => Function.update m k none

/-- The keys that are outstanding, each with the value that it was put with last. -/
def balance (log : List (Entry κ ν)) : κ → Option ν := log.foldl Entry.post fun _ ↦ none

def Sound (log : List (Entry κ ν)) : Prop :=
  ∀ before k after, log = before ++ .take k :: after → (balance before k).isSome

def Entry.puts (k : κ) : Entry κ ν → Bool
  | .put k' _ => k' = k
  | _ => false

def Entry.takes (k : κ) : Entry κ ν → Bool
  | .take k' => k' = k
  | _ => false

variable {log after : List (Entry κ ν)} {m : κ → Option ν} {k : κ}

theorem balance_append (xs ys : List (Entry κ ν)) :
    balance (xs ++ ys) = ys.foldl Entry.post (balance xs) := List.foldl_append

theorem post_of_ne {x : Entry κ ν} (hput : ∀ v, x ≠ .put k v) (hdrop : x ≠ .drop k)
    (htake : x ≠ .take k) : x.post m k = m k := by
  cases x with
  | put k' v =>
    apply Function.update_of_ne
    rintro rfl
    exact hput v rfl
  | drop k' =>
    apply Function.update_of_ne
    rintro rfl
    exact hdrop rfl
  | take k' =>
    apply Function.update_of_ne
    rintro rfl
    exact htake rfl

theorem post_isSome {x : Entry κ ν} (h : (m k).isSome) (hdrop : x ≠ .drop k)
    (htake : x ≠ .take k) : (x.post m k).isSome := by
  by_cases hput : ∃ v, x = .put k v
  · obtain ⟨v, rfl⟩ := hput
    simp [Entry.post]
  · push Not at hput
    rwa [post_of_ne hput hdrop htake]

theorem foldl_isSome (h : (m k).isSome) (hdrop : .drop k ∉ log) (htake : .take k ∉ log) :
    (log.foldl Entry.post m k).isSome := by
  induction log generalizing m with
  | nil => exact h
  | cons x log ih =>
    rw [List.mem_cons, not_or] at hdrop htake
    exact ih (post_isSome h (Ne.symm hdrop.1) (Ne.symm htake.1)) hdrop.2 htake.2

theorem put_of_foldl {v : ν} (h : log.foldl Entry.post m k = some v) :
    m k = some v ∨ .put k v ∈ log := by
  induction log generalizing m with
  | nil => exact .inl h
  | cons x log ih =>
    rcases ih h with hx | hmem
    · cases x with
      | put k' v' =>
        by_cases hk : k' = k
        · subst hk
          simp only [Entry.post, Function.update_self, Option.some.injEq] at hx
          exact .inr (by simp [hx])
        · exact .inl (by simpa [Entry.post, Function.update_of_ne (Ne.symm hk)] using hx)
      | drop k' =>
        by_cases hk : k' = k
        · simp [Entry.post, hk] at hx
        · exact .inl (by simpa [Entry.post, Function.update_of_ne (Ne.symm hk)] using hx)
      | take k' =>
        by_cases hk : k' = k
        · simp [Entry.post, hk] at hx
        · exact .inl (by simpa [Entry.post, Function.update_of_ne (Ne.symm hk)] using hx)
    · exact .inr (List.mem_cons_of_mem _ hmem)

theorem put_of_balance {v : ν} (h : balance log k = some v) : .put k v ∈ log := by
  rcases put_of_foldl h with hnone | hmem
  · cases hnone
  · exact hmem

/-- What is put is handed out or still outstanding, unless it is called off. -/
theorem taken_or_outstanding (before : List (Entry κ ν)) (v : ν) (hdrop : .drop k ∉ after) :
    .take k ∈ after ∨ (balance (before ++ .put k v :: after) k).isSome := by
  by_cases htake : .take k ∈ after
  · exact .inl htake
  · rw [balance_append, List.foldl_cons]
    exact .inr (foldl_isSome (by simp [Entry.post]) hdrop htake)

theorem foldl_takes (ks : List κ) :
    (ks.map .take).foldl Entry.post m k = if k ∈ ks then none else m k := by
  induction ks generalizing m with
  | nil => rfl
  | cons k' ks ih =>
    rw [List.map_cons, List.foldl_cons, ih]
    by_cases hk : k = k'
    · subst hk
      simp [Entry.post]
    · simp [Entry.post, hk]

theorem sound_nil : Sound ([] : List (Entry κ ν)) := by
  intro before k after h
  simp at h

theorem Sound.snoc {x : Entry κ ν} (h : Sound log)
    (hx : ∀ k, x = .take k → (balance log k).isSome) : Sound (log ++ [x]) := by
  intro before k after hsplit
  rcases List.eq_nil_or_concat after with rfl | ⟨rest, y, rfl⟩
  · obtain ⟨rfl, hlast⟩ := List.append_inj' hsplit rfl
    exact hx k (List.singleton_inj.mp hlast)
  · rw [List.concat_eq_append, ← List.cons_append, ← List.append_assoc] at hsplit
    exact h before k rest (List.append_inj' hsplit rfl).1

theorem Sound.append {news : List (Entry κ ν)} (h : Sound log) (hnews : ∀ k, .take k ∉ news) :
    Sound (log ++ news) := by
  induction news generalizing log with
  | nil => rwa [List.append_nil]
  | cons x news ih =>
    rw [show log ++ x :: news = log ++ [x] ++ news by simp]
    apply ih
    · apply h.snoc
      rintro k rfl
      exact absurd (List.mem_cons_self ..) (hnews k)
    · exact fun k hk ↦ hnews k (List.mem_cons_of_mem _ hk)

theorem Sound.append_takes {ks : List κ} (h : Sound log) (hnodup : ks.Nodup)
    (hks : ∀ k ∈ ks, (balance log k).isSome) : Sound (log ++ ks.map .take) := by
  induction ks generalizing log with
  | nil => simpa using h
  | cons k ks ih =>
    obtain ⟨hk, hnodup⟩ := List.nodup_cons.mp hnodup
    rw [List.map_cons, show log ++ Entry.take k :: ks.map .take =
      log ++ [.take k] ++ ks.map .take by simp]
    apply ih
    · apply h.snoc
      intro k' hk'
      cases hk'
      exact hks k (List.mem_cons_self ..)
    · exact hnodup
    · intro k' hk'
      have hne : k' ≠ k := by
        rintro rfl
        exact hk hk'
      have hsome := hks k' (List.mem_cons_of_mem _ hk')
      rwa [balance_append, List.foldl_cons, List.foldl_nil, post_of_ne] <;> simp [hne.symm]

def due (log : List (Entry κ ν)) (k : κ) : ℕ := if (balance log k).isSome then 1 else 0

theorem Sound.takes_le (h : Sound log) (k : κ) :
    log.countP (Entry.takes k) + due log k ≤ log.countP (Entry.puts k) := by
  induction log using List.reverseRecOn with
  | nil => simp [due, balance]
  | append_singleton log x ih =>
    have hlog : Sound log := by
      intro before k after hsplit
      exact h before k (after ++ [x]) (by simp [hsplit])
    have hstep := ih hlog
    have htake : ∀ k', x = .take k' → (balance log k').isSome := by
      rintro k' rfl
      exact h log k' [] rfl
    rw [List.countP_append, List.countP_append, due, balance_append]
    cases x with
    | put k' v =>
      by_cases hk : k' = k
      · subst hk
        simp only [List.foldl_cons, List.foldl_nil, Entry.post, Function.update_self,
          List.countP_singleton, Entry.takes, Entry.puts, due] at hstep ⊢
        simp only [Option.isSome_some, decide_true, if_true, Bool.false_eq_true, if_false]
        split at hstep <;> omega
      · simpa [Entry.post, Entry.takes, Entry.puts, due, hk, Function.update_of_ne (Ne.symm hk)]
          using hstep
    | drop k' =>
      by_cases hk : k' = k
      · subst hk
        simp only [List.foldl_cons, List.foldl_nil, Entry.post, Function.update_self,
          List.countP_singleton, Entry.takes, Entry.puts] at hstep ⊢
        simp only [Option.isSome_none, Bool.false_eq_true, if_false]
        omega
      · simpa [Entry.post, Entry.takes, Entry.puts, due, Function.update_of_ne (Ne.symm hk)]
          using hstep
    | take k' =>
      by_cases hk : k' = k
      · subst hk
        have hsome := htake _ rfl
        simp only [List.foldl_cons, List.foldl_nil, Entry.post, Function.update_self,
          List.countP_singleton, Entry.takes, Entry.puts, due, hsome] at hstep ⊢
        simp only [Option.isSome_none, Bool.false_eq_true, if_false, decide_true, if_true] at hstep ⊢
        omega
      · simpa [Entry.post, Entry.takes, Entry.puts, due, hk, Function.update_of_ne (Ne.symm hk)]
          using hstep

end ZeroRtt.Lib.Ledgers
