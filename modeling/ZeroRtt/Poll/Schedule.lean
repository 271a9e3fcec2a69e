import ZeroRtt.Api.Types
import ZeroRtt.Lib.Containers

namespace ZeroRtt.Poll.Schedule

open ZeroRtt.Lib.Panics ZeroRtt.Lib.Containers ZeroRtt.Api.Types

structure Readiness where
  delayed : PriorityQueue Event Instant
  events : HashSet Event

/-- What a call of `poll` reads from outside: the clock, the order in which the
set of events is drained, and which item the queue yields among equals. -/
structure PollEnv where
  now : Instant
  order : HashSet.Order Event
  queue : Peek Event Instant

namespace Readiness

def empty : Readiness := ⟨∅, .empty⟩

def insert (r : Readiness) (event : Event) : Option Instant → Readiness
  | some delayTo =>
    { events := r.events.erase event
      delayed := r.delayed.insert event delayTo }
  | none =>
    { delayed := r.delayed.erase event
      events := r.events.insert event }

def remove (r : Readiness) (event : Event) : Readiness :=
  { events := r.events.erase event
    delayed := r.delayed.erase event }

/-- The loop of `poll`, with the number of queued items as its bound. -/
def pollDelayed (env : PollEnv) (threshold : Duration) :
    ℕ → PriorityQueue Event Instant → List Event →
      List Event × Option Instant × PriorityQueue Event Instant
  | 0, delayed, out => (out, none, delayed)
  | n + 1, delayed, out =>
    match env.queue.peek delayed with
    | none => (out, none, delayed)
    | some (event, deadline) =>
      if ¬ (deadline - env.now > threshold) then
        pollDelayed env threshold n (delayed.erase event) (out ++ [event])
      else (out, some deadline, delayed)

def poll (r : Readiness) (readiness : List Event) (releaseTimerThreshold : Duration)
    (env : PollEnv) : Rust (List Event × Option Instant × Readiness) := do
  assert (readiness = [])
  let out := readiness ++ (env.order r.events).1
  let (out, deadline, delayed) :=
    pollDelayed env releaseTimerThreshold r.delayed.entries.length r.delayed out
  return (out, deadline, { delayed, events := .empty })

variable {r : Readiness} {e f : Event} {t : Instant}

@[simp] theorem mem_events_insert_none :
    f ∈ (r.insert e none).events ↔ f = e ∨ f ∈ r.events := HashSet.mem_insert

@[simp] theorem mem_events_insert_some :
    f ∈ (r.insert e (some t)).events ↔ f ≠ e ∧ f ∈ r.events := HashSet.mem_erase

@[simp] theorem mem_events_remove : f ∈ (r.remove e).events ↔ f ≠ e ∧ f ∈ r.events :=
  HashSet.mem_erase

theorem delayed_insert_of_ne (h : f ≠ e) (d : Option Instant) :
    (r.insert e d).delayed.lookup f = r.delayed.lookup f := by
  cases d with
  | none => exact AList.lookup_erase_ne h
  | some d => exact AList.lookup_insert_ne h

theorem events_insert_of_ne (h : f ≠ e) (d : Option Instant) :
    f ∈ (r.insert e d).events ↔ f ∈ r.events := by
  cases d <;> simp [h]

section Polling

variable {env : PollEnv} {threshold : Duration} {P : Event → Prop}

/-- The loop takes out of the queue what is due, each event once, and ends at the
least deadline of the rest. -/
structure Splits (threshold : Duration) (now : Instant) (delayed : PriorityQueue Event Instant)
    (more : List Event) (deadline : Option Instant) (rest : PriorityQueue Event Instant) :
    Prop where
  nodup : more.Nodup
  due : ∀ e, e ∈ more ↔ ∃ t, delayed.lookup e = some t ∧ t - now ≤ threshold
  left : ∀ e t, rest.lookup e = some t ↔ delayed.lookup e = some t ∧ threshold < t - now
  empty : deadline = none → rest = ∅
  least : ∀ t, deadline = some t → (∃ e, rest.lookup e = some t) ∧
    ∀ e t', rest.lookup e = some t' → t ≤ t'

theorem length_erase_of_mem {delayed : PriorityQueue Event Instant}
    (h : delayed.lookup e = some t) :
    (delayed.erase e).entries.length + 1 = delayed.entries.length := by
  have hmem : e ∈ delayed.keys := AList.mem_keys.mp (AList.lookup_isSome.mp (by rw [h]; rfl))
  have hkeys : ∀ q : PriorityQueue Event Instant, q.keys.length = q.entries.length :=
    fun q ↦ List.length_map _
  rw [← hkeys, ← hkeys, AList.keys_erase, List.length_erase_of_mem hmem]
  have hpos := List.length_pos_of_mem hmem
  omega

theorem splits_empty (threshold : Duration) (now : Instant) : Splits threshold now ∅ [] none ∅ where
  nodup := List.nodup_nil
  due e := by simp
  left e t := by simp
  empty _ := rfl
  least t ht := by cases ht

theorem splits_of_least {now : Instant} {delayed : PriorityQueue Event Instant} {deadline : Instant}
    (hlookup : delayed.lookup e = some deadline)
    (hleast : ∀ f t, delayed.lookup f = some t → deadline ≤ t) (hdue : threshold < deadline - now) :
    Splits threshold now delayed [] (some deadline) delayed where
  nodup := List.nodup_nil
  due f := by
    apply iff_of_false List.not_mem_nil
    rintro ⟨t, ht, hle⟩
    exact Nat.not_lt.mpr hle (Nat.lt_of_lt_of_le hdue (Nat.sub_le_sub_right (hleast f t ht) now))
  left f t := by
    refine ⟨fun ht ↦ ⟨ht, ?_⟩, And.left⟩
    exact Nat.lt_of_lt_of_le hdue (Nat.sub_le_sub_right (hleast f t ht) now)
  empty h := by cases h
  least t ht := by
    cases ht
    exact ⟨⟨e, hlookup⟩, hleast⟩

theorem Splits.cons {now : Instant} {delayed rest : PriorityQueue Event Instant} {more : List Event}
    {deadline : Option Instant} (h : Splits threshold now (delayed.erase e) more deadline rest)
    (hlookup : delayed.lookup e = some t) (hdue : t - now ≤ threshold) :
    Splits threshold now delayed (e :: more) deadline rest where
  nodup := by
    refine List.nodup_cons.mpr ⟨fun he ↦ ?_, h.nodup⟩
    obtain ⟨t', ht', -⟩ := (h.due e).mp he
    rw [AList.lookup_erase] at ht'
    cases ht'
  due f := by
    by_cases hf : f = e
    · subst hf
      exact iff_of_true (List.mem_cons_self ..) ⟨t, hlookup, hdue⟩
    · rw [List.mem_cons, or_iff_right hf, h.due, AList.lookup_erase_ne hf]
  left f t' := by
    rw [h.left]
    by_cases hf : f = e
    · subst hf
      rw [AList.lookup_erase, hlookup]
      apply iff_of_false (fun hnone ↦ by cases hnone.1)
      rintro ⟨ht', hlt⟩
      cases ht'
      exact Nat.not_lt.mpr hdue hlt
    · rw [AList.lookup_erase_ne hf]
  empty := h.empty
  least := h.least

theorem pollDelayed_splits (env : PollEnv) (threshold : Duration) (n : ℕ)
    {delayed : PriorityQueue Event Instant} (out : List Event) (h : delayed.entries.length ≤ n) :
    ∃ more deadline rest, pollDelayed env threshold n delayed out = (out ++ more, deadline, rest) ∧
      Splits threshold env.now delayed more deadline rest := by
  induction n generalizing delayed out with
  | zero =>
    obtain rfl : delayed = ∅ := AList.ext (List.length_eq_zero_iff.mp (Nat.le_zero.mp h))
    exact ⟨[], none, ∅, by simp [pollDelayed], splits_empty _ _⟩
  | succ n ih =>
    unfold pollDelayed
    cases hpeek : env.queue.peek delayed with
    | none =>
      obtain rfl := env.queue.eq_empty _ hpeek
      exact ⟨[], none, ∅, by simp, splits_empty _ _⟩
    | some item =>
      obtain ⟨event, deadline⟩ := item
      have hlookup := env.queue.lookup_eq _ _ _ hpeek
      dsimp only
      split
      next hdue =>
        have hlength := length_erase_of_mem hlookup
        have hle : (delayed.erase event).entries.length ≤ n := by omega
        obtain ⟨more, next, rest, heq, hsplits⟩ := ih (out ++ [event]) hle
        refine ⟨event :: more, next, rest, by simpa using heq, ?_⟩
        exact hsplits.cons hlookup (Nat.not_lt.mp hdue)
      next hdue =>
        refine ⟨[], some deadline, delayed, by simp, ?_⟩
        exact splits_of_least hlookup (env.queue.least _ _ _ hpeek) (not_not.mp hdue)

theorem poll_eq (r : Readiness) (threshold : Duration) (env : PollEnv) :
    ∃ more deadline rest, r.poll [] threshold env =
        .ok ((env.order r.events).1 ++ more, deadline, ⟨rest, .empty⟩) ∧
      Splits threshold env.now r.delayed more deadline rest := by
  obtain ⟨more, deadline, rest, heq, hsplits⟩ :=
    pollDelayed_splits env threshold r.delayed.entries.length (env.order r.events).1 le_rfl
  refine ⟨more, deadline, rest, ?_, hsplits⟩
  simp only [poll, assert_true, ok_bind, List.nil_append, heq, pure_eq_ok]

theorem poll_spec {out : List Event} {deadline : Option Instant} {r' : Readiness}
    (hpoll : r.poll [] threshold env = .ok (out, deadline, r'))
    (h : ∀ e d, r.delayed.lookup e = some d → P e) :
    ∃ more, out = (env.order r.events).1 ++ more ∧ (∀ e ∈ more, P e) ∧ r'.events = .empty ∧
      ∀ e d, r'.delayed.lookup e = some d → P e := by
  obtain ⟨more, next, rest, heq, hsplits⟩ := poll_eq r threshold env
  rw [heq] at hpoll
  cases hpoll
  refine ⟨more, rfl, fun e he ↦ ?_, rfl, fun e d hd ↦ h e d ((hsplits.left e d).mp hd).1⟩
  obtain ⟨t, ht, -⟩ := (hsplits.due e).mp he
  exact h e t ht

theorem poll_deadline {out : List Event} {deadline : Option Instant} {r' : Readiness}
    (hpoll : r.poll [] threshold env = .ok (out, deadline, r')) {d : Instant}
    (hd : r'.delayed.lookup e = some d) : ∃ t, deadline = some t ∧ t ≤ d := by
  obtain ⟨more, next, rest, heq, hsplits⟩ := poll_eq r threshold env
  rw [heq] at hpoll
  cases hpoll
  cases deadline with
  | none =>
    rw [hsplits.empty rfl] at hd
    cases hd
  | some t => exact ⟨t, rfl, (hsplits.least t rfl).2 e d hd⟩

end Polling

def DueBy (r : Readiness) (e : Event) (t : Instant) : Prop :=
  e ∈ r.events ∨ ∃ d, r.delayed.lookup e = some d ∧ d ≤ t

theorem dueBy_insert_of_ne (h : f ≠ e) (d : Option Instant) :
    (r.insert e d).DueBy f t ↔ r.DueBy f t := by
  unfold DueBy
  rw [events_insert_of_ne h, delayed_insert_of_ne h]

theorem dueBy_insert_none : (r.insert e none).DueBy e t := .inl (by simp)

theorem dueBy_insert_some {d : Instant} : (r.insert e (some d)).DueBy e t ↔ d ≤ t := by
  simp [DueBy, insert]

theorem not_dueBy_remove : ¬ (r.remove e).DueBy e t := by
  simp [DueBy, remove]

end Readiness

end ZeroRtt.Poll.Schedule
