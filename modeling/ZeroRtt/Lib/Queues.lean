import Mathlib.Data.List.DropRight
import Mathlib.Data.List.Induction

namespace ZeroRtt.Lib.Queues

/-- What happens to a queue: a value joins it at its end, or leaves it at its front,
or everything in it is thrown away. -/
inductive Deed (α : Type)
  | push (a : α)
  | pop (a : α)
  | clear
deriving DecidableEq

variable {α : Type} {queue rest : List α} {log log' : List (Deed α)} {a : α} {d : Deed α}

def Deed.pushed : Deed α → Option α
  | .push a => some a
  | _ => none

def Deed.popped : Deed α → Option α
  | .pop a => some a
  | _ => none

def pushes (log : List (Deed α)) : List α := log.filterMap Deed.pushed

def pops (log : List (Deed α)) : List α := log.filterMap Deed.popped

theorem pushes_concat : pushes (log ++ [d]) = pushes log ++ d.pushed.toList := by
  rw [pushes, List.filterMap_append]
  cases h : d.pushed <;> simp [pushes, h]

theorem pops_concat : pops (log ++ [d]) = pops log ++ d.popped.toList := by
  rw [pops, List.filterMap_append]
  cases h : d.popped <;> simp [pops, h]

variable [DecidableEq α]

def Deed.apply (queue : List α) : Deed α → Option (List α)
  | .push a => some (queue ++ [a])
  | .pop a => if queue.head? = some a then some queue.tail else none
  | .clear => some []

/-- The queue after all that happened to it, if all of that could happen. -/
def replay (queue : List α) (log : List (Deed α)) : Option (List α) := log.foldlM Deed.apply queue

def recent (log : List (Deed α)) : List (Deed α) := log.rtakeWhile (· ≠ .clear)

theorem replay_nil : replay queue [] = some queue := rfl

theorem replay_singleton : replay queue [d] = d.apply queue := by
  simp [replay]

theorem replay_append : replay queue (log ++ log') = (replay queue log).bind (replay · log') :=
  List.foldlM_append

theorem replay_trans (h : replay queue log = some rest) {last : List α}
    (h' : replay rest log' = some last) : replay queue (log ++ log') = some last := by
  rw [replay_append, h, Option.bind_some, h']

theorem replay_concat : replay queue (log ++ [d]) = (replay queue log).bind d.apply := by
  rw [replay_append]
  congr 1
  funext rest
  exact replay_singleton

theorem apply_pop_iff : (Deed.pop a).apply queue = some rest ↔ queue = a :: rest := by
  cases queue with
  | nil => simp [Deed.apply]
  | cons b queue =>
    simp only [Deed.apply, List.head?_cons, List.tail_cons, Option.some.injEq, List.cons.injEq]
    split
    next hb => simp [hb]
    next hb => simp [hb]

theorem recent_concat (h : d ≠ .clear) : recent (log ++ [d]) = recent log ++ [d] := by
  rw [recent, List.rtakeWhile_concat_pos _ _ _ (by simpa using h), recent]

theorem recent_clear : recent (log ++ [.clear]) = [] := by
  rw [recent, List.rtakeWhile_concat_neg _ _ _ (by simp)]

/-- First in, first out: what joined since the queue was thrown away last is what left it since, in
the same order, and then what is still in it. -/
theorem pushes_recent (h : replay [] log = some queue) :
    pushes (recent log) = pops (recent log) ++ queue := by
  induction log using List.reverseRecOn generalizing queue with
  | nil =>
    cases h
    rfl
  | append_singleton log d ih =>
    rw [replay_concat] at h
    obtain ⟨before, hbefore, hd⟩ := Option.bind_eq_some_iff.mp h
    have hqueue := ih hbefore
    cases d with
    | push a =>
      cases hd
      rw [recent_concat (by simp), pushes_concat, pops_concat, hqueue]
      simp [Deed.pushed, Deed.popped]
    | pop a =>
      obtain rfl := apply_pop_iff.mp hd
      rw [recent_concat (by simp), pushes_concat, pops_concat, hqueue]
      simp [Deed.pushed, Deed.popped]
    | clear =>
      cases hd
      rw [recent_clear]
      rfl

/-- Nothing leaves that did not join, nothing leaves more often than it joined, and the order is kept,
also when the queue is thrown away in between. -/
theorem pops_sublist (h : replay [] log = some queue) : (pops log ++ queue).Sublist (pushes log) := by
  induction log using List.reverseRecOn generalizing queue with
  | nil =>
    cases h
    exact .slnil
  | append_singleton log d ih =>
    rw [replay_concat] at h
    obtain ⟨before, hbefore, hd⟩ := Option.bind_eq_some_iff.mp h
    have hsublist := ih hbefore
    rw [pushes_concat, pops_concat]
    cases d with
    | push a =>
      cases hd
      rw [← List.append_assoc]
      simpa [Deed.pushed, Deed.popped] using hsublist.append_right [a]
    | pop a =>
      obtain rfl := apply_pop_iff.mp hd
      simpa [Deed.pushed, Deed.popped] using hsublist
    | clear =>
      cases hd
      simpa [Deed.pushed, Deed.popped] using (List.sublist_append_left _ _).trans hsublist

theorem recent_eq_self (h : .clear ∉ log) : recent log = log := by
  apply List.rtakeWhile_eq_self_iff.mpr
  intro d hd
  simp only [decide_eq_true_eq, ne_eq]
  rintro rfl
  exact h hd

end ZeroRtt.Lib.Queues
