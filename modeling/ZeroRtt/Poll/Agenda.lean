import ZeroRtt.Poll.Schedule

namespace ZeroRtt.Poll.Agenda

open ZeroRtt.Lib.Panics ZeroRtt.Lib.Containers ZeroRtt.Api.Types ZeroRtt.Poll.Schedule

inductive Due
  | now
  | later (t : Instant)
deriving DecidableEq

/-- The schedule: at most one request for each event. -/
abbrev Requests := Event → Option Due

def Due.released (threshold : Duration) (now : Instant) : Due → Prop
  | .now => True
  | .later t => t - now ≤ threshold

/-- What a poll of the schedule may answer, and the schedule after it. -/
structure Polled (threshold : Duration) (now : Instant) (m : Requests) (events : List Event)
    (deadline : Option Instant) (m' : Requests) : Prop where
  nodup : events.Nodup
  released : ∀ e, e ∈ events ↔ ∃ d, m e = some d ∧ d.released threshold now
  left : ∀ e d, m' e = some d ↔ m e = some d ∧ ¬ d.released threshold now
  never : deadline = none ↔ ∀ e, m' e = none
  least : ∀ t, deadline = some t → (∃ e, m' e = some (.later t)) ∧
    ∀ e t', m' e = some (.later t') → t ≤ t'

inductive Op
  | insert (event : Event) (delayTo : Option Instant)
  | remove (event : Event)
  | poll (threshold : Duration) (env : PollEnv)

abbrev Answer := Option (List Event × Option Instant)

def perform (r : Readiness) : Op → Rust (Answer × Readiness)
  | .insert event delayTo => .ok (none, r.insert event delayTo)
  | .remove event => .ok (none, r.remove event)
  | .poll threshold env => do
    let (events, deadline, r) ← r.poll [] threshold env
    return (some (events, deadline), r)

def performAll : Readiness → List Op → Rust (List Answer × Readiness)
  | r, [] => .ok ([], r)
  | r, op :: ops => do
    let (answer, r) ← perform r op
    let (answers, r) ← performAll r ops
    return (answer :: answers, r)

def request : Option Instant → Due
  | none => .now
  | some t => .later t

inductive Serves (m : Requests) : Op → Answer → Requests → Prop
  | insert (event : Event) (delayTo : Option Instant) :
    Serves m (.insert event delayTo) none (Function.update m event (some (request delayTo)))
  | remove (event : Event) : Serves m (.remove event) none (Function.update m event none)
  | poll {threshold : Duration} {env : PollEnv} {events : List Event} {deadline : Option Instant}
      {m' : Requests} (h : Polled threshold env.now m events deadline m') :
    Serves m (.poll threshold env) (some (events, deadline)) m'

inductive ServesAll : Requests → List Op → List Answer → Requests → Prop
  | nil (m : Requests) : ServesAll m [] [] m
  | cons {m m' m'' : Requests} {op : Op} {ops : List Op} {answer : Answer} {answers : List Answer}
      (h : Serves m op answer m') (h' : ServesAll m' ops answers m'') :
    ServesAll m (op :: ops) (answer :: answers) m''

def Apart (r : Readiness) : Prop := ∀ e ∈ r.events, r.delayed.lookup e = none

/-- The schedule that the two containers stand for. -/
def agenda (r : Readiness) : Requests := fun e ↦
  if e ∈ r.events then some .now else (r.delayed.lookup e).map .later

def Op.inserts (e : Event) : Op → Bool
  | .insert event _ => event = e
  | _ => false

def delivers (e : Event) : Answer → Bool
  | none => false
  | some (events, _) => e ∈ events

section Containers

variable {r : Readiness} {e : Event}

theorem agenda_eq_now : agenda r e = some .now ↔ e ∈ r.events := by
  unfold agenda
  split
  next h => simp [h]
  next h => cases hd : r.delayed.lookup e <;> simp [h]

theorem agenda_eq_later (h : Apart r) {t : Instant} :
    agenda r e = some (.later t) ↔ r.delayed.lookup e = some t := by
  unfold agenda
  split
  next he => simp [h e he]
  next => cases hd : r.delayed.lookup e <;> simp

theorem agenda_insert (r : Readiness) (e : Event) (delayTo : Option Instant) :
    agenda (r.insert e delayTo) = Function.update (agenda r) e (some (request delayTo)) := by
  funext f
  by_cases hf : f = e
  · subst hf
    rw [Function.update_self]
    cases delayTo with
    | none => exact agenda_eq_now.mpr (Readiness.mem_events_insert_none.mpr (.inl rfl))
    | some t =>
      have hnot : f ∉ (r.insert f (some t)).events := by simp
      rw [agenda, if_neg hnot, show (r.insert f (some t)).delayed.lookup f = some t from
        AList.lookup_insert _]
      rfl
  · rw [Function.update_of_ne hf, agenda, agenda, Readiness.delayed_insert_of_ne hf]
    simp only [Readiness.events_insert_of_ne hf]

theorem apart_insert (h : Apart r) (e : Event) (delayTo : Option Instant) :
    Apart (r.insert e delayTo) := by
  intro f hf
  by_cases hfe : f = e
  · subst hfe
    cases delayTo with
    | none => exact AList.lookup_erase _ _
    | some t => exact absurd rfl (Readiness.mem_events_insert_some.mp hf).1
  · rw [Readiness.delayed_insert_of_ne hfe]
    exact h f ((Readiness.events_insert_of_ne hfe delayTo).mp hf)

theorem delayed_remove_of_ne {f : Event} (h : f ≠ e) :
    (r.remove e).delayed.lookup f = r.delayed.lookup f := AList.lookup_erase_ne h

theorem agenda_remove (r : Readiness) (e : Event) :
    agenda (r.remove e) = Function.update (agenda r) e none := by
  funext f
  by_cases hf : f = e
  · subst hf
    have hnot : f ∉ (r.remove f).events := by simp
    rw [Function.update_self, agenda, if_neg hnot,
      show (r.remove f).delayed.lookup f = none from AList.lookup_erase _ _]
    rfl
  · rw [Function.update_of_ne hf, agenda, agenda, delayed_remove_of_ne hf]
    simp only [Readiness.mem_events_remove, ne_eq, hf, not_false_eq_true, true_and]

theorem apart_remove (h : Apart r) (e : Event) : Apart (r.remove e) := by
  intro f hf
  obtain ⟨hne, hf⟩ := Readiness.mem_events_remove.mp hf
  rw [delayed_remove_of_ne hne]
  exact h f hf

theorem polled_of_splits (h : Apart r) {threshold : Duration} {env : PollEnv} {more : List Event}
    {deadline : Option Instant} {rest : PriorityQueue Event Instant}
    (hsplits : Readiness.Splits threshold env.now r.delayed more deadline rest) :
    Polled threshold env.now (agenda r) ((env.order r.events).1 ++ more) deadline
      (agenda ⟨rest, .empty⟩) := by
  have hrest : ∀ e t, agenda ⟨rest, .empty⟩ e = some (.later t) ↔ rest.lookup e = some t :=
    fun e t ↦ agenda_eq_later fun e he ↦ absurd he (HashSet.not_mem_empty e)
  have hnow : ∀ e, agenda ⟨rest, .empty⟩ e ≠ some .now :=
    fun e he ↦ HashSet.not_mem_empty e (agenda_eq_now.mp he)
  refine ⟨?_, ?_, ?_, ?_, ?_⟩
  · refine List.nodup_append.mpr ⟨HashSet.order_nodup env.order _, hsplits.nodup, ?_⟩
    rintro e he f hf rfl
    obtain ⟨t, ht, -⟩ := (hsplits.due e).mp hf
    rw [h e ((HashSet.mem_order env.order).mp he)] at ht
    cases ht
  · intro e
    rw [List.mem_append, HashSet.mem_order, hsplits.due]
    constructor
    · rintro (he | ⟨t, ht, hdue⟩)
      · exact ⟨.now, agenda_eq_now.mpr he, trivial⟩
      · exact ⟨.later t, (agenda_eq_later h).mpr ht, hdue⟩
    · rintro ⟨d, hd, hdue⟩
      cases d with
      | now => exact .inl (agenda_eq_now.mp hd)
      | later t => exact .inr ⟨t, (agenda_eq_later h).mp hd, hdue⟩
  · intro e d
    cases d with
    | now => exact iff_of_false (hnow e) fun hd ↦ hd.2 trivial
    | later t =>
      rw [hrest, hsplits.left, agenda_eq_later h, Due.released, Nat.not_le]
  · constructor
    · intro hnone e
      rw [hsplits.empty hnone]
      rfl
    · intro hnone
      cases deadline with
      | none => rfl
      | some t =>
        obtain ⟨e, he⟩ := (hsplits.least t rfl).1
        rw [← hrest, hnone e] at he
        cases he
  · intro t ht
    obtain ⟨⟨e, he⟩, hleast⟩ := hsplits.least t ht
    exact ⟨⟨e, (hrest e t).mpr he⟩, fun f t' hf ↦ hleast f t' ((hrest f t').mp hf)⟩

theorem perform_serves (h : Apart r) (op : Op) :
    ∃ answer r', perform r op = .ok (answer, r') ∧ Serves (agenda r) op answer (agenda r') ∧
      Apart r' := by
  cases op with
  | insert event delayTo =>
    refine ⟨none, r.insert event delayTo, rfl, ?_, apart_insert h event delayTo⟩
    rw [agenda_insert]
    exact .insert event delayTo
  | remove event =>
    refine ⟨none, r.remove event, rfl, ?_, apart_remove h event⟩
    rw [agenda_remove]
    exact .remove event
  | poll threshold env =>
    obtain ⟨more, deadline, rest, heq, hsplits⟩ := Readiness.poll_eq r threshold env
    refine ⟨_, ⟨rest, .empty⟩, ?_, .poll (polled_of_splits h hsplits), ?_⟩
    · simp only [perform, heq, ok_bind, pure_eq_ok]
    · exact fun e he ↦ absurd he (HashSet.not_mem_empty e)

theorem performAll_serves (h : Apart r) (ops : List Op) :
    ∃ answers r', performAll r ops = .ok (answers, r') ∧
      ServesAll (agenda r) ops answers (agenda r') ∧ Apart r' := by
  induction ops generalizing r with
  | nil => exact ⟨[], r, rfl, .nil _, h⟩
  | cons op ops ih =>
    obtain ⟨answer, r', hperform, hserves, hapart⟩ := perform_serves h op
    obtain ⟨answers, r'', hrest, hall, hapart'⟩ := ih hapart
    refine ⟨answer :: answers, r'', ?_, .cons hserves hall, hapart'⟩
    simp only [performAll, hperform, hrest, ok_bind, pure_eq_ok]

end Containers

section Deliveries

variable {m m' : Requests} {e : Event}

def asked (m : Requests) (e : Event) : ℕ := if (m e).isSome then 1 else 0

theorem Serves.delivers {op : Op} {answer : Answer} (h : Serves m op answer m') :
    (delivers e answer).toNat + asked m' e ≤ asked m e + (op.inserts e).toNat := by
  cases h with
  | insert event delayTo =>
    by_cases he : event = e
    · subst he
      simp [Agenda.delivers, asked, Op.inserts]
    · simp [Agenda.delivers, asked, Op.inserts, he, Function.update_of_ne (Ne.symm he)]
  | remove event =>
    by_cases he : event = e
    · subst he
      simp [Agenda.delivers, asked, Op.inserts]
    · simp [Agenda.delivers, asked, Op.inserts, Function.update_of_ne (Ne.symm he)]
  | @poll threshold env events deadline m' h =>
    by_cases hmem : e ∈ events
    · obtain ⟨d, hd, hreleased⟩ := (h.released e).mp hmem
      have hnone : m' e = none := by
        cases hd' : m' e with
        | none => rfl
        | some d' =>
          obtain ⟨hsome, hnot⟩ := (h.left e d').mp hd'
          rw [hd] at hsome
          cases hsome
          exact absurd hreleased hnot
      simp [Agenda.delivers, asked, Op.inserts, hmem, hd, hnone]
    · have hle : asked m' e ≤ asked m e := by
        unfold asked
        cases hd' : m' e with
        | none => simp
        | some d' => simp [((h.left e d').mp hd').1]
      simpa [Agenda.delivers, Op.inserts, hmem] using hle

theorem ServesAll.delivers {ops : List Op} {answers : List Answer}
    (h : ServesAll m ops answers m') :
    answers.countP (Agenda.delivers e) + asked m' e ≤ asked m e + ops.countP (Op.inserts e) := by
  induction h with
  | nil m => simp
  | @cons m m' m'' op ops answer answers h h' ih =>
    have hone := h.delivers (e := e)
    rw [List.countP_cons, List.countP_cons]
    cases hdelivers : Agenda.delivers e answer <;> cases hinserts : op.inserts e <;>
      simp only [hdelivers, hinserts, Bool.toNat_true, Bool.toNat_false, if_true, if_false,
        Bool.false_eq_true] at hone ⊢ <;> omega

end Deliveries

/-- Whatever is inserted, removed and polled, the readiness answers as the schedule
does. An event is never in both containers, and it is delivered at most once for
each time that it was inserted. -/
theorem readiness_is_agenda (ops : List Op) :
    ∃ answers r, performAll .empty ops = .ok (answers, r) ∧
      ServesAll (fun _ ↦ none) ops answers (agenda r) ∧ Apart r ∧
      ∀ e, answers.countP (delivers e) ≤ ops.countP (Op.inserts e) := by
  have hempty : Apart .empty := fun e he ↦ absurd he (HashSet.not_mem_empty e)
  obtain ⟨answers, r, hperform, hall, hapart⟩ := performAll_serves hempty ops
  refine ⟨answers, r, hperform, hall, hapart, fun e ↦ ?_⟩
  have hdelivers := hall.delivers (e := e)
  have hnone : asked (agenda .empty) e = 0 := rfl
  omega

end ZeroRtt.Poll.Agenda
