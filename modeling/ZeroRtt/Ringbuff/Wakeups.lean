import ZeroRtt.Ringbuff.Delivery

namespace ZeroRtt.Ringbuff.Wakeups

open ZeroRtt.Lib.Panics ZeroRtt.Lib.Runs ZeroRtt.Ringbuff.Pipe ZeroRtt.Ringbuff.Delivery

section Owing

variable {α : Type} {asks wakes : Waker → α} {polls due : α → Prop} {slot : Option Waker}
  {history hs : List α}

/-- Whoever was the last to be put off, with `asks`, is in the slot and nothing
of what it waits for has happened, or it was woken. -/
def Owes (asks wakes : Waker → α) (polls due : α → Prop) (slot : Option Waker)
    (history : List α) : Prop :=
  ∀ before w since, history = before ++ asks w :: since → (∀ h ∈ since, ¬ polls h) →
    (slot = some w ∧ ∀ h ∈ since, ¬ due h) ∨ wakes w ∈ since

theorem append_eq_append_cons {before since : List α} {a : α}
    (h : history ++ hs = before ++ a :: since) :
    (∃ s, history = before ++ a :: s ∧ since = s ++ hs) ∨ a ∈ hs := by
  rcases List.append_eq_append_iff.mp h with ⟨l, -, hhs⟩ | ⟨l, hhistory, hrest⟩
  · exact .inr (by simp [hhs])
  · cases l with
    | nil =>
      rw [List.nil_append] at hrest
      exact .inr (hrest ▸ List.mem_cons_self)
    | cons b l =>
      obtain ⟨rfl, rfl⟩ := List.cons_eq_cons.mp hrest
      exact .inl ⟨l, hhistory, rfl⟩

theorem Owes.nil : Owes asks wakes polls due slot [] := by
  intro before w since hsplit
  simp at hsplit

theorem Owes.quiet (h : Owes asks wakes polls due slot history) (hasks : ∀ w, asks w ∉ hs)
    (hquiet : ∀ e ∈ hs, ¬ due e) : Owes asks wakes polls due slot (history ++ hs) := by
  intro before w since hsplit hpolls
  rcases append_eq_append_cons hsplit with ⟨s, hhistory, rfl⟩ | hmem
  · rcases h before w s hhistory (fun e he ↦ hpolls e (List.mem_append_left _ he)) with
      ⟨hslot, hnot⟩ | hwoke
    · exact .inl ⟨hslot, fun e he ↦ (List.mem_append.mp he).elim (hnot e) (hquiet e)⟩
    · exact .inr (List.mem_append_left _ hwoke)
  · exact absurd hmem (hasks w)

theorem Owes.wake (h : Owes asks wakes polls due slot history) (hasks : ∀ w, asks w ∉ hs)
    (hwakes : ∀ w, slot = some w → wakes w ∈ hs) :
    Owes asks wakes polls due none (history ++ hs) := by
  intro before w since hsplit hpolls
  rcases append_eq_append_cons hsplit with ⟨s, hhistory, rfl⟩ | hmem
  · rcases h before w s hhistory (fun e he ↦ hpolls e (List.mem_append_left _ he)) with
      ⟨hslot, -⟩ | hwoke
    · exact .inr (List.mem_append_right _ (hwakes w hslot))
    · exact .inr (List.mem_append_left _ hwoke)
  · exact absurd hmem (hasks w)

theorem Owes.park (waker : Waker) (hpolls : polls (asks waker)) (hinj : asks.Injective) :
    Owes asks wakes polls due (some waker) (history ++ [asks waker]) := by
  intro before w since hsplit hnone
  rcases List.eq_nil_or_concat since with rfl | ⟨rest, e, rfl⟩
  · obtain ⟨-, hlast⟩ := List.append_inj' hsplit rfl
    obtain rfl := hinj (List.singleton_inj.mp hlast)
    exact .inl ⟨rfl, fun h hh ↦ absurd hh List.not_mem_nil⟩
  · rw [List.concat_eq_append, ← List.cons_append, ← List.append_assoc] at hsplit
    obtain ⟨-, hlast⟩ := List.append_inj' hsplit rfl
    refine absurd hpolls (hnone _ ?_)
    simp [List.singleton_inj.mp hlast]

end Owing

section Pipe

variable {c : ℕ} {p p' : RawRingBufPipe} {q q' : Bytes}

def ReadPolled (h : Happening) : Prop := h = .readReady ∨ ∃ w, h = .readPending w

def WritePolled (h : Happening) : Prop := h = .writeReady ∨ ∃ w, h = .writePending w

/-- What a reader waits for: a byte came in, or the pipe was closed. -/
def ReadDue (h : Happening) : Prop := h = .closed ∨ ∃ bytes, bytes ≠ [] ∧ h = .accepted bytes

/-- What a writer waits for: a byte went out, or the pipe was closed. -/
def WriteDue (h : Happening) : Prop := h = .closed ∨ ∃ bytes, bytes ≠ [] ∧ h = .delivered bytes

structure Attended (p : RawRingBufPipe) : Prop where
  reader : Owes .readPending .woke ReadPolled ReadDue p.reader p.history
  writer : Owes .writePending .woke WritePolled WriteDue p.writer p.history

theorem Attended.moves (h : Attended p) (hmoves : Moves c p q p' q') : Attended p' := by
  cases hmoves with
  | fetched polled _ _ _ hpolled =>
    refine ⟨h.reader.quiet ?_ ?_, h.writer.wake ?_ ?_⟩
    · rcases hpolled with rfl | rfl <;> simp [mem_woken]
    · cases p.writer <;> rcases hpolled with rfl | rfl <;> simp [woken, ReadDue]
    · rcases hpolled with rfl | rfl <;> simp [mem_woken]
    · intro w hw
      exact List.mem_append_left _ (mem_woken.mpr ⟨w, hw, rfl⟩)
  | drained polled _ _ hpolled =>
    refine ⟨h.reader.quiet ?_ ?_, h.writer.quiet ?_ ?_⟩
    all_goals rcases hpolled with rfl | rfl <;> simp [ReadDue, WriteDue]
  | starved => exact ⟨h.reader.quiet (by simp) (by simp [ReadDue]),
      h.writer.quiet (by simp) (by simp [WriteDue])⟩
  | readParked waker =>
    refine ⟨.park waker (.inr ⟨waker, rfl⟩) fun w w' hw ↦ Happening.readPending.inj hw, ?_⟩
    exact h.writer.quiet (by simp) (by simp [WriteDue])
  | offered polled _ _ _ hpolled =>
    refine ⟨h.reader.wake ?_ ?_, h.writer.quiet ?_ ?_⟩
    · rcases hpolled with rfl | rfl <;> simp [mem_woken]
    · intro w hw
      exact List.mem_append_left _ (mem_woken.mpr ⟨w, hw, rfl⟩)
    · rcases hpolled with rfl | rfl <;> simp [mem_woken]
    · cases p.reader <;> rcases hpolled with rfl | rfl <;> simp [woken, WriteDue]
  | refused polled _ hpolled =>
    refine ⟨h.reader.quiet ?_ ?_, h.writer.quiet ?_ ?_⟩
    all_goals rcases hpolled with rfl | rfl <;> simp [ReadDue, WriteDue]
  | full => exact ⟨h.reader.quiet (by simp) (by simp [ReadDue]),
      h.writer.quiet (by simp) (by simp [WriteDue])⟩
  | writeParked waker =>
    refine ⟨h.reader.quiet (by simp) (by simp [ReadDue]), ?_⟩
    exact .park waker (.inr ⟨waker, rfl⟩) fun w w' hw ↦ Happening.writePending.inj hw
  | closed =>
    refine ⟨h.reader.wake (by simp [mem_woken]) ?_, h.writer.wake (by simp [mem_woken]) ?_⟩
    · intro w hw
      exact List.mem_append_right _ (List.mem_append_left _ (mem_woken.mpr ⟨w, hw, rfl⟩))
    · intro w hw
      exact List.mem_append_left _ (mem_woken.mpr ⟨w, hw, rfl⟩)

theorem attended_of_run (hnew : pipe c = .ok p) (hrun : Run step Enabled p p') :
    (∃ q, Sound c p' q) ∧ Attended p' := by
  obtain ⟨h, hempty⟩ := sound_of_pipe hnew
  have hattended : Attended p := by
    refine ⟨?_, ?_⟩
    · rw [hempty]
      exact .nil
    · rw [hempty]
      exact .nil
  refine hrun.invariant (P := fun s ↦ (∃ q, Sound c s q) ∧ Attended s) ⟨⟨[], h⟩, hattended⟩ ?_
  rintro a b i ⟨⟨q, h⟩, hattended⟩ ha hstep
  obtain ⟨q', hmoves, h'⟩ := h.step ha hstep
  exact ⟨⟨q', h'⟩, hattended.moves hmoves⟩

theorem Owes.woken {asks : Waker → Happening} {polls due : Happening → Prop} {slot : Option Waker}
    {before since : List Happening} {w : Waker}
    (h : Owes asks .woke polls due slot (before ++ asks w :: since))
    (hpolls : ∀ e ∈ since, ¬ polls e) (hdue : ∃ e ∈ since, due e) : .woke w ∈ since := by
  obtain ⟨e, he, hdue⟩ := hdue
  rcases h before w since rfl hpolls with ⟨-, hnot⟩ | hwoke
  · exact absurd hdue (hnot e he)
  · exact hwoke

/-- A waker is in its slot only while the ring is empty, or full, and the pipe is
open, and no end that was put off misses what it waits for. -/
theorem no_lost_wakeup (c : ℕ) (p₀ p : RawRingBufPipe) (hnew : pipe c = .ok p₀)
    (hrun : Run step Enabled p₀ p) :
    (p.reader ≠ none → p.ringBuf.readable = .ok 0 ∧ p.closed = false) ∧
      (p.writer ≠ none → p.ringBuf.readable = .ok c ∧ p.closed = false) ∧
      (∀ before w since, p.history = before ++ .readPending w :: since →
        (∀ e ∈ since, ¬ ReadPolled e) → (∃ e ∈ since, ReadDue e) → .woke w ∈ since) ∧
      ∀ before w since, p.history = before ++ .writePending w :: since →
        (∀ e ∈ since, ¬ WritePolled e) → (∃ e ∈ since, WriteDue e) → .woke w ∈ since := by
  obtain ⟨⟨q, h⟩, hattended⟩ := attended_of_run hnew hrun
  have hreadable : p.ringBuf.readable = .ok q.length := RingBuf.readable_eq h.holds
  refine ⟨?_, ?_, ?_, ?_⟩
  · intro hreader
    obtain ⟨rfl, hclosed⟩ := h.reader hreader
    exact ⟨hreadable, hclosed⟩
  · intro hwriter
    obtain ⟨hfull, hclosed⟩ := h.writer hwriter
    rw [hfull] at hreadable
    exact ⟨hreadable, hclosed⟩
  · intro before w since hsplit
    have howes := hattended.reader
    rw [hsplit] at howes
    exact howes.woken
  · intro before w since hsplit
    have howes := hattended.writer
    rw [hsplit] at howes
    exact howes.woken

theorem no_lost_wakeup_example :
    ∃ p₀ p since, pipe 1 = .ok p₀ ∧ Run step Enabled p₀ p ∧
      p.history = .readPending ⟨3⟩ :: since ∧ .woke ⟨3⟩ ∈ since := by
  obtain ⟨since, hsince⟩ : ∃ since : List Happening, since = [.woke ⟨3⟩, .accepted [7]] := ⟨_, rfl⟩
  have hrun : Run step Enabled ⟨⟨[0], 0, 0⟩, none, none, false, []⟩
      ⟨⟨[7], 0, 1⟩, none, none, false, .readPending ⟨3⟩ :: since⟩ := by
    rw [hsince]
    refine .tail (.tail (.refl _) (i := .pollRead ⟨3⟩ [0]) ?_ rfl) (i := .write [7]) ?_ rfl
    · exact List.cons_ne_nil _ _
    · exact List.cons_ne_nil _ _
  have hpolls : ∀ e ∈ since, ¬ ReadPolled e := by simp [hsince, ReadPolled]
  have hdue : ∃ e ∈ since, ReadDue e := by simp [hsince, ReadDue]
  refine ⟨_, _, since, rfl, hrun, rfl, ?_⟩
  exact (no_lost_wakeup 1 _ _ rfl hrun).2.2.1 [] ⟨3⟩ since rfl hpolls hdue

end Pipe

end ZeroRtt.Ringbuff.Wakeups
