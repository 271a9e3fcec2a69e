import ZeroRtt.Lib.Ledgers
import ZeroRtt.Poll.Agenda
import ZeroRtt.Poll.Chronicle

namespace ZeroRtt.Poll.Deliveries

open ZeroRtt.Lib.Panics ZeroRtt.Lib.Containers ZeroRtt.Lib.Runs ZeroRtt.Lib.Ledgers
open ZeroRtt.Api.Types ZeroRtt.Api.Quiche ZeroRtt.Poll.Schedule ZeroRtt.Poll.Conn
open ZeroRtt.Poll.Evolution ZeroRtt.Poll.Sections ZeroRtt.Poll.Agenda ZeroRtt.Poll.Chronicle
open ZeroRtt.Poll.Interleaving

def entry : Happening → Option (Entry Event Due)
  | .observed (.insert e delayTo) => some (.put e (request delayTo))
  | .observed (.remove e) => some (.drop e)
  | .delivered e => some (.take e)
  | _ => none

def ledger (history : List Happening) : List (Entry Event Due) := history.filterMap entry

variable {history news : List Happening} {r : Readiness} {e : Event}

theorem ledger_append (xs ys : List Happening) : ledger (xs ++ ys) = ledger xs ++ ledger ys :=
  List.filterMap_append

theorem ledger_delivered (events : List Event) :
    ledger (events.map .delivered) = events.map .take := by
  induction events with
  | nil => rfl
  | cons e events ih => exact congrArg (.take e :: ·) ih

section Entries

theorem mem_ledger {x : Entry Event Due} : x ∈ ledger history ↔ ∃ y ∈ history, entry y = some x :=
  List.mem_filterMap

theorem take_mem_ledger : .take e ∈ ledger history ↔ .delivered e ∈ history := by
  rw [mem_ledger]
  constructor
  · rintro ⟨y, hy, hentry⟩
    cases y with
    | registered token => cases hentry
    | observed o => cases o <;> cases hentry
    | delivered f =>
      cases hentry
      exact hy
  · intro h
    exact ⟨_, h, rfl⟩

theorem put_mem_ledger {d : Due} :
    .put e d ∈ ledger history ↔ ∃ delayTo, .insert e delayTo ∈ observations history ∧
      request delayTo = d := by
  rw [mem_ledger]
  constructor
  · rintro ⟨y, hy, hentry⟩
    cases y with
    | registered token => cases hentry
    | observed o =>
      cases o <;> cases hentry
      exact ⟨_, List.mem_filterMap.mpr ⟨_, hy, rfl⟩, rfl⟩
    | delivered f => cases hentry
  · rintro ⟨delayTo, hobs, rfl⟩
    obtain ⟨y, hy, hsome⟩ := List.mem_filterMap.mp hobs
    cases y <;> cases hsome
    exact ⟨_, hy, rfl⟩

theorem drop_mem_ledger : .drop e ∈ ledger history ↔ .remove e ∈ observations history := by
  rw [mem_ledger, observations, List.mem_filterMap]
  constructor
  · rintro ⟨y, hy, hentry⟩
    cases y with
    | registered token => cases hentry
    | observed o =>
      cases o <;> cases hentry
      exact ⟨_, hy, rfl⟩
    | delivered f => cases hentry
  · rintro ⟨y, hy, hobs⟩
    cases y <;> cases hobs
    exact ⟨_, hy, rfl⟩

theorem countP_takes :
    (ledger history).countP (Entry.takes e) = (deliveredIn history).count e := by
  induction history with
  | nil => rfl
  | cons x history ih =>
    cases x with
    | registered token => exact ih
    | observed o =>
      cases o with
      | readable id => exact ih
      | insert f d => simpa [ledger, entry, deliveredIn, Entry.takes] using ih
      | remove f => simpa [ledger, entry, deliveredIn, Entry.takes] using ih
    | delivered f =>
      simp only [ledger, deliveredIn, List.filterMap_cons, entry, List.countP_cons, List.count_cons]
      simp only [ledger, deliveredIn] at ih
      rw [ih]
      by_cases hf : f = e <;> simp [Entry.takes, hf]

theorem countP_puts :
    (ledger history).countP (Entry.puts e) = (insertedBy (observations history)).count e := by
  induction history with
  | nil => rfl
  | cons x history ih =>
    cases x with
    | registered token => exact ih
    | observed o =>
      cases o with
      | readable id => exact ih
      | insert f d =>
        simp only [ledger, observations, insertedBy, List.filterMap_cons, entry, List.countP_cons,
          List.count_cons]
        simp only [ledger, observations, insertedBy] at ih
        rw [ih]
        by_cases hf : f = e <;> simp [Entry.puts, hf]
      | remove f =>
        simpa [ledger, entry, observations, insertedBy, Entry.puts] using ih
    | delivered f => simpa [ledger, entry, observations, insertedBy, Entry.puts] using ih

end Entries

section Steps

variable {g g' : Group}

theorem agenda_applyObs (r : Readiness) (o : Obs) :
    agenda (applyObs r o) = (ledger [.observed o]).foldl Entry.post (agenda r) := by
  cases o with
  | readable id => rfl
  | insert e d => exact agenda_insert r e d
  | remove e => exact agenda_remove r e

theorem apart_applyObs (h : Apart r) (o : Obs) : Apart (applyObs r o) := by
  cases o with
  | readable id => exact h
  | insert e d => exact apart_insert h e d
  | remove e => exact apart_remove h e

theorem agenda_records (hnone : deliveredIn news = []) (r : Readiness) :
    agenda ((observations news).foldl applyObs r) = (ledger news).foldl Entry.post (agenda r) := by
  induction news generalizing r with
  | nil => rfl
  | cons x news ih =>
    rw [show x :: news = [x] ++ news from rfl, deliveredIn_append, List.append_eq_nil_iff] at hnone
    rw [show x :: news = [x] ++ news from rfl, observations_append, ledger_append,
      List.foldl_append, List.foldl_append, ih hnone.2]
    cases x with
    | registered token => rfl
    | observed o =>
      rw [← agenda_applyObs]
      rfl
    | delivered e => cases hnone.1

theorem apart_foldl {obs : List Obs} (h : Apart r) : Apart (obs.foldl applyObs r) := by
  induction obs generalizing r with
  | nil => exact h
  | cons o obs ih => exact ih (apart_applyObs h o)

/-- The readiness is what is outstanding by the history of the group. -/
structure Booked (g : Group) : Prop where
  apart : Apart g.state.readiness
  agenda : agenda g.state.readiness = balance (ledger g.state.history)
  sound : Sound (ledger g.state.history)
  drops : ∀ e, .remove e ∈ observations g.state.history → e.kind = .send
  delays : ∀ e d, .insert e d ∈ observations g.state.history → d ≠ none → e.kind = .send

theorem booked_new : Booked .new where
  apart e he := absurd he (HashSet.not_mem_empty e)
  agenda := rfl
  sound := sound_nil
  drops e he := by cases he
  delays e d he := by cases he

theorem Booked.records (h : Booked g) (hrecords : Records g g') : Booked g' := by
  obtain ⟨news, hhistory, hnone, hreadiness, hsends⟩ := hrecords
  refine ⟨?_, ?_, ?_, ?_, ?_⟩
  · rw [hreadiness]
    exact apart_foldl h.apart
  · rw [hreadiness, agenda_records hnone, hhistory, ledger_append, balance_append, h.agenda]
  · rw [hhistory, ledger_append]
    apply h.sound.append
    intro e he
    have hmem := take_mem_ledger.mp he
    have hin : e ∈ deliveredIn news := List.mem_filterMap.mpr ⟨_, hmem, rfl⟩
    rw [hnone] at hin
    cases hin
  · intro e he
    rw [hhistory, observations_append] at he
    exact (List.mem_append.mp he).elim (h.drops e) (hsends _)
  · intro e d he
    rw [hhistory, observations_append] at he
    exact (List.mem_append.mp he).elim (h.delays e d) (hsends _)

theorem Booked.poll (h : Booked g) (env : PollEnv) : Booked (leftBy (Group.poll [] env g)) := by
  obtain ⟨more, deadline, rest, heq, hsplits⟩ :=
    Readiness.poll_eq g.state.readiness defaultReleaseTimerThreshold env
  have hpolled : Polled defaultReleaseTimerThreshold env.now (Agenda.agenda g.state.readiness)
      ((env.order g.state.readiness.events).1 ++ more) deadline (Agenda.agenda ⟨rest, .empty⟩) :=
    polled_of_splits h.apart hsplits
  have hhistory : (leftBy (Group.poll [] env g)).state.history = g.state.history ++
      ((env.order g.state.readiness.events).1 ++ more).map .delivered := by
    simp only [Group.poll, heq, leftBy]
  have hreadiness : (leftBy (Group.poll [] env g)).state.readiness = ⟨rest, .empty⟩ := by
    simp only [Group.poll, heq, leftBy]
  generalize (env.order g.state.readiness.events).1 ++ more = out at hpolled hhistory
  have hobs : observations (leftBy (Group.poll [] env g)).state.history =
      observations g.state.history := by
    rw [hhistory, observations_append, observations_delivered, List.append_nil]
  refine ⟨?_, ?_, ?_, by rw [hobs]; exact h.drops, by rw [hobs]; exact h.delays⟩
  · rw [hreadiness]
    exact fun e he ↦ absurd he (HashSet.not_mem_empty e)
  · rw [hreadiness, hhistory, ledger_append, ledger_delivered, balance_append, ← h.agenda]
    funext e
    rw [foldl_takes]
    split
    next he =>
      obtain ⟨d, hd, hreleased⟩ := (hpolled.released e).mp he
      cases hleft : Agenda.agenda ⟨rest, .empty⟩ e with
      | none => rfl
      | some d' =>
        obtain ⟨hd', hnot⟩ := (hpolled.left e d').mp hleft
        rw [hd] at hd'
        cases hd'
        exact absurd hreleased hnot
    next he =>
      cases hd : Agenda.agenda g.state.readiness e with
      | some d =>
        have hnot : ¬ d.released defaultReleaseTimerThreshold env.now := fun hreleased ↦
          he ((hpolled.released e).mpr ⟨d, hd, hreleased⟩)
        exact (hpolled.left e d).mpr ⟨hd, hnot⟩
      | none =>
        cases hleft : Agenda.agenda ⟨rest, .empty⟩ e with
        | none => rfl
        | some d' => exact absurd ((hpolled.left e d').mp hleft).1 (by simp [hd])
  · rw [hhistory, ledger_append, ledger_delivered]
    apply h.sound.append_takes hpolled.nodup
    intro e he
    obtain ⟨d, hd, -⟩ := (hpolled.released e).mp he
    rw [← h.agenda, hd]
    rfl

theorem Booked.mem_of_outstanding (h : Booked g) (he : e.kind ≠ .send)
    (hdue : (balance (ledger g.state.history) e).isSome) : e ∈ g.state.readiness.events := by
  obtain ⟨d, hd⟩ := Option.isSome_iff_exists.mp hdue
  cases d with
  | now =>
    rw [← h.agenda] at hd
    exact agenda_eq_now.mp hd
  | later t =>
    obtain ⟨delayTo, hobs, hrequest⟩ := put_mem_ledger.mp (put_of_balance hd)
    cases delayTo with
    | none => cases hrequest
    | some t' => exact absurd (h.delays e _ hobs (by simp)) he

theorem Booked.kept (h : Booked g) {before : List Happening} {d : Option Instant}
    {after : List Happening}
    (hsplit : g.state.history = before ++ .observed (.insert e d) :: after) (hkind : e.kind ≠ .send) :
    .delivered e ∈ after ∨ e ∈ g.state.readiness.events := by
  have hdrop : .drop e ∉ ledger after := by
    intro hdrop
    refine hkind (h.drops e ?_)
    rw [hsplit, observations_append]
    apply List.mem_append_right
    exact List.mem_cons_of_mem _ (drop_mem_ledger.mp hdrop)
  have hledger : ledger g.state.history =
      ledger before ++ .put e (request d) :: ledger after := by
    rw [hsplit, ledger_append]
    rfl
  rcases taken_or_outstanding (ledger before) (request d) hdrop with htake | hdue
  · exact .inl (take_mem_ledger.mp htake)
  · exact .inr (h.mem_of_outstanding hkind (hledger ▸ hdue))

theorem Booked.count_le (h : Booked g) (e : Event) : (deliveredIn g.state.history).count e ≤
    (insertedBy (observations g.state.history)).count e := by
  have hle := h.sound.takes_le e
  rw [countP_takes, countP_puts] at hle
  omega

theorem Booked.inserted (h : Booked g) (he : e ∈ deliveredIn g.state.history) :
    e ∈ insertedBy (observations g.state.history) := by
  have hpos := List.count_pos_iff.mpr he
  exact List.count_pos_iff.mp (Nat.lt_of_lt_of_le hpos (h.count_le e))

theorem Booked.next {w : World} (h : Booked w.group) (a : Action) : Booked (w.next a).group := by
  by_cases hpoll : ∃ env, a = .poll env
  · obtain ⟨env, rfl⟩ := hpoll
    rw [World.next, run_group fun _ _ ↦ rfl]
    exact h.poll env
  · push Not at hpoll
    exact h.records (sectionwise_records.next hpoll fun _ _ _ ↦ trivial)

theorem booked_of_run {w : World} (h : Run step Legal .initial w) : Booked w.group := by
  refine h.invariant (P := fun w ↦ Booked w.group) booked_new fun w w' a hw _ hstep ↦ ?_
  cases hstep
  exact hw.next a

end Steps

/-- However the threads of a group take turns, what its readiness holds is what was inserted
and neither taken back nor handed out since. Nothing is handed out that is not, no event more
often than it was inserted, and no insertion of an event other than `Send` gets lost. -/
theorem delivered_as_inserted {w : World} (h : Run step Legal .initial w) :
    agenda w.group.state.readiness = balance (ledger w.group.state.history) ∧
    (∀ before e after, w.group.state.history = before ++ .delivered e :: after →
      (balance (ledger before) e).isSome) ∧
    (∀ e, (deliveredIn w.group.state.history).count e ≤
      (insertedBy (observations w.group.state.history)).count e) ∧
    ∀ before e d after, w.group.state.history = before ++ .observed (.insert e d) :: after →
      e.kind ≠ .send → .delivered e ∈ after ∨ e ∈ w.group.state.readiness.events := by
  have hbooked := booked_of_run h
  refine ⟨hbooked.agenda, ?_, hbooked.count_le, ?_⟩
  · intro before e after hsplit
    apply hbooked.sound (ledger before) e (ledger after)
    rw [hsplit, ledger_append]
    rfl
  · intro before e d after hsplit hkind
    exact hbooked.kept hsplit hkind

theorem delivered_as_inserted_example :
    ∃ w, Run step Legal .initial w ∧
      deliveredIn w.group.state.history =
        [⟨⟨0⟩, .send, true, false, 0⟩, ⟨⟨0⟩, .streamAccept, true, false, 0⟩] ∧
      agenda w.group.state.readiness = balance (ledger w.group.state.history) ∧
      ∀ e, (deliveredIn w.group.state.history).count e ≤
        (insertedBy (observations w.group.state.history)).count e := by
  have hconnect : Run step Legal .initial _ :=
    .one (i := .connect (Script.connection ⟨true, [7], [0], [], none⟩) .still)
      trivial rfl
  have hpoll := hconnect.tail (i := .poll ⟨0, HashSet.listed, Peek.first⟩) (by trivial) rfl
  obtain ⟨hagenda, -, hcount, -⟩ := delivered_as_inserted hpoll
  exact ⟨_, hpoll, rfl, hagenda, hcount⟩

end ZeroRtt.Poll.Deliveries
