import ZeroRtt.Futures.Contention
import ZeroRtt.Mio.Loop
import ZeroRtt.Poll.Announcing

namespace ZeroRtt.Futures.Dispatching

open ZeroRtt.Lib.Panics ZeroRtt.Lib.Containers ZeroRtt.Lib.Runs
open ZeroRtt.Poll (Group Section)
open ZeroRtt.Poll.Conn (LocKind UnlockEnv)
open ZeroRtt.Poll.Locking (Guard)
open ZeroRtt.Poll.Schedule (PollEnv Readiness)
open ZeroRtt.Poll.Sections (leftBy transmit)
open ZeroRtt.Poll.Chronicle (observations)
open ZeroRtt.Poll.Announcing
open ZeroRtt.Api.Quiche (Script)
open ZeroRtt.Mio.Loop
open ZeroRtt.Futures.State ZeroRtt.Futures.Contention

def Public : LocKind → Prop
  | .recv | .streamSend .. | .streamRecv _ => True
  | _ => False

/-- The other threads use the group through its operations. -/
def Permitted (w : World) (a : Action) : Prop :=
  Legal w a ∧ ∀ token kind, a = .other (.lock token kind) → Public kind

def Doing : Phase → Iteration → Prop
  | .handling i, j | .locked i _, j | .sent i _ _, j => i = j
  | _, _ => False

structure Tidy (w : World) : Prop where
  announces : Announces w.base.group
  todo : ∀ i, Doing w.phase i → ∀ e ∈ i.todo, e.kind ≠ .readLock
  kept : ∀ i, Doing w.phase i → ∀ e ∈ i.events, Expected e

section Steps

variable {α : Type} {w : World}

theorem tidy_initial : Tidy .initial := by
  refine ⟨⟨?_, ⟨?_, ?_⟩, ?_⟩, fun i hi ↦ hi.elim, fun i hi ↦ hi.elim⟩
  · intro token c hc
    cases hc
  · intro e he
    exact absurd he (HashSet.not_mem_empty e)
  · intro e d hd
    cases hd
  · intro o ho
    cases ho

/-- The round that the thread is in holds nothing that the dispatcher has no arm for. -/
def Clean (phase : Phase) : Prop :=
  ∀ i, Doing phase i → (∀ e ∈ i.todo, e.kind ≠ .readLock) ∧ ∀ e ∈ i.events, Expected e

theorem Tidy.clean (h : Tidy w) : Clean w.phase := fun i hi ↦ ⟨h.todo i hi, h.kept i hi⟩

theorem tidy_of_clean (h : Announces w.base.group) (hclean : Clean w.phase) : Tidy w :=
  ⟨h, fun i hi ↦ (hclean i hi).1, fun i hi ↦ (hclean i hi).2⟩

theorem clean_idle : Clean .idle := fun _ hi ↦ hi.elim

theorem Tidy.run {x : Section α} {k : World → α → World} (h : Tidy w)
    (hx : Keeps w.base.group (leftBy (x w.base.group)))
    (hk : ∀ a g theirs, x w.base.group = .ok a g →
      (k { w with base.group := g, theirs } a).base.group = g ∧
        Clean (k { w with base.group := g, theirs } a).phase) : Tidy (w.run x k) := by
  unfold World.run
  cases hrun : x w.base.group with
  | ok a g =>
    rw [hrun] at hx
    obtain ⟨hgroup, hclean⟩ := hk a g _ hrun
    refine tidy_of_clean ?_ hclean
    rw [hgroup]
    exact hx h.announces
  | error panic g =>
    rw [hrun] at hx
    exact tidy_of_clean (hx h.announces) clean_idle

theorem keeps_transmit (guard : Guard) (len : ℕ) (now : Instant) (g : Group) :
    Keeps g (leftBy (transmit guard len now g)) := by
  refine carries_keeps.bind (carries_keeps.deref guard) (fun conn g ↦ ?_) g
  split
  · exact id
  · refine carries_keeps.bind (keeps_derefMut guard _) (fun _ g ↦ ?_) g
    refine carries_keeps.bind (keeps_derefMut guard _) (fun r g ↦ ?_) g
    split <;> exact id

theorem clean_polled {env : PollEnv} {g g' : Group} {events : List Api.Types.Event}
    {deadline : Option Instant} (h : Announces g)
    (hpoll : Group.poll [] env g = .ok (events, deadline) g') :
    Clean (.handling ⟨deadline, events, []⟩) := by
  rintro i rfl
  refine ⟨?_, by simp⟩
  unfold Group.poll at hpoll
  split at hpoll
  · cases hpoll
  next out next r hout =>
    cases hpoll
    obtain ⟨more, rfl, hmore, -, -⟩ := Readiness.poll_spec hout h.readiness.delayed
    intro e he
    rcases List.mem_append.mp he with he | he
    · exact h.readiness.events e ((HashSet.mem_order env.order).mp he)
    · exact hmore e he

theorem Tidy.handle (h : Tidy w) {next : Option Instant} {event : Api.Types.Event}
    {todo events : List Api.Types.Event} (hphase : w.phase = .handling ⟨next, event :: todo, events⟩) :
    Tidy (w.handle ⟨next, todo, events⟩ event) := by
  obtain ⟨htodo, hevents⟩ := h.clean ⟨next, event :: todo, events⟩ (by rw [hphase]; rfl)
  have hrest : ∀ e ∈ todo, e.kind ≠ .readLock := fun e he ↦ htodo e (List.mem_cons_of_mem _ he)
  have hsame : ∀ phase, (∀ i, Doing phase i → i = ⟨next, todo, events⟩) → Clean phase := by
    intro phase hdoing i hi
    rw [hdoing i hi]
    exact ⟨hrest, hevents⟩
  unfold World.handle
  split
  · apply h.run (keeps_lock _ (by simp) _)
    rintro (err | guard) g theirs -
    · exact ⟨rfl, hsame _ fun i hi ↦ Eq.symm hi⟩
    · exact ⟨rfl, hsame _ fun i hi ↦ Eq.symm hi⟩
  · exact tidy_of_clean h.announces (hsame _ fun i hi ↦ Eq.symm hi)
  next hsend hrecv =>
    refine tidy_of_clean h.announces ?_
    rintro i rfl
    refine ⟨hrest, fun e he ↦ ?_⟩
    rcases List.mem_append.mp he with he | he
    · exact hevents e he
    · rw [List.mem_singleton.mp he]
      exact ⟨hsend, hrecv, htodo event (List.mem_cons_self ..)⟩

theorem Tidy.unlock (h : Tidy w) {i : Iteration} {guard : Guard} {sendDone : Bool}
    (hphase : w.phase = .sent i guard sendDone) (env : UnlockEnv) :
    Tidy (w.unlock i guard sendDone env) := by
  apply h.run (keeps_unlockConn _ env _)
  intro closed g theirs _
  refine ⟨by cases closed <;> rfl, ?_⟩
  rintro j rfl
  exact h.clean i (by rw [hphase]; rfl)

theorem Tidy.next (h : Tidy w) {a : Action} (ha : Permitted w a) : Tidy (w.next a) := by
  cases a with
  | other a =>
    refine tidy_of_clean (sectionwise_keeps.next ha.1.1 ?_ h.announces) h.clean
    rintro token kind rfl rfl
    exact ha.2 token .readLock rfl
  | pollGroup env =>
    unfold World.next
    dsimp only
    split
    · apply h.run (keeps_poll env _)
      rintro ⟨events, deadline⟩ g theirs hpoll
      exact ⟨rfl, clean_polled h.announces hpoll⟩
    · exact h
  | handle =>
    unfold World.next
    dsimp only
    split
    next hphase => exact h.handle hphase
    next => exact h
  | transmit len now =>
    unfold World.next
    dsimp only
    split
    next i guard hphase =>
      apply h.run (keeps_transmit guard len now _)
      intro sent g theirs _
      refine ⟨rfl, ?_⟩
      rintro j rfl
      exact h.clean i (by rw [hphase]; rfl)
    next => exact h
  | unlock env =>
    unfold World.next
    dsimp only
    split
    next hphase => exact h.unlock hphase env
    next => exact h
  | finish =>
    unfold World.next
    dsimp only
    split
    · unfold World.finish
      split <;> exact tidy_of_clean h.announces fun _ hi ↦ hi.elim
    · exact h
  | fail =>
    unfold World.next
    dsimp only
    split
    · exact tidy_of_clean h.announces clean_idle
    · exact h
  | wake =>
    unfold World.next
    dsimp only
    split
    · exact tidy_of_clean h.announces clean_idle
    · exact h

end Steps

theorem tidy_of_run {w : World} (h : Run step Permitted .initial w) : Tidy w := by
  apply h.invariant tidy_initial
  intro w w' a hw ha hstep
  cases hstep
  exact hw.next ha

/-- Whatever the threads do, an operation that waits is of a kind that is announced. No critical
section of the group reaches an arm that it declares unreachable, which leaves the one that
`recv_with_acceptor` has between two of them, and `run_once` reaches none of its own. -/
theorem only_announced_dispatched {w : World} (h : Run step Permitted .initial w) :
    (∀ token c, w.base.group.state.conns.lookup token = some c →
      ∀ k ∈ c.reties, k ≠ .none ∧ k ≠ .send ∧ k ≠ .readLock) ∧
    (∀ a msg, failure w.base a ≠ some (.unreachable msg)) ∧
    (∀ e delayTo, .insert e delayTo ∈ observations w.base.group.state.history →
      e.kind ≠ .readLock) ∧
    ∀ i, Doing w.phase i → ∀ (s : State) (len : ℕ), ∃ r, s.runOnce i.events len = .ok r := by
  have htidy := tidy_of_run h
  refine ⟨htidy.announces.reties, htidy.announces.failure_ne, ?_, ?_⟩
  · intro e delayTo hmem
    exact htidy.announces.inserted _ hmem
  · intro i hi s len
    obtain ⟨t, ht⟩ := dispatchAll_returns (htidy.kept i hi) s
    exact ⟨_, by rw [State.runOnce, ht, ok_bind]; rfl⟩

theorem only_announced_dispatched_example :
    ∃ w i, Run step Permitted .initial w ∧ Doing w.phase i ∧
      i.events.map Api.Types.Event.kind = [.closed] ∧
      ∀ (s : State) (len : ℕ), ∃ r, s.runOnce i.events len = .ok r := by
  have hclose : Run step Permitted .initial _ :=
    .one (i := .other (.connect
      (Script.connection ⟨false, [], [], [.close false 0 []], none⟩) .still))
      (by exact ⟨⟨by simp, trivial⟩, by simp⟩) rfl
  have hclose := hclose.tail (i := .other (.close ⟨0⟩ false 0 [] .still))
    (by exact ⟨⟨by simp, trivial⟩, by simp⟩) rfl
  have hclose := hclose.tail (i := .pollGroup ⟨0, HashSet.listed, Peek.first⟩)
    (by exact ⟨trivial, by simp⟩) rfl
  have hclose := hclose.tail (i := .handle) (by exact ⟨trivial, by simp⟩) rfl
  exact ⟨_, _, hclose, rfl, rfl, (only_announced_dispatched hclose).2.2.2 _ rfl⟩

end ZeroRtt.Futures.Dispatching
