import ZeroRtt.Futures.Waiters
import ZeroRtt.Poll.Sections

namespace ZeroRtt.Futures.Shutdown

open ZeroRtt.Lib.Panics ZeroRtt.Lib.Containers ZeroRtt.Lib.Runs ZeroRtt.Futures
open ZeroRtt.Futures.Tasks (Action Flight Op Reply begun_of_running begun_of_stopped)
open ZeroRtt.Futures.Waiters (Alone Effect registered_of_run step_effect touches)
open ZeroRtt.Api.Types (Error QuicheError Settled Token settled_ok settled_quiche wouldBlock)
open ZeroRtt.Poll (Group)
open ZeroRtt.Poll.Sections (section_bind_ok)
open ZeroRtt.Poll.Conn (Ctx UnlockEnv)
open ZeroRtt.Poll.Conn.Ctx (unlessDone)

/-- The tasks, and the streams that were shut down: those whose flag is set. -/
structure World where
  tasks : Tasks.World
  shut : List (Token × ℕ)

def World.initial : World := ⟨.initial, []⟩

def closes : Action → List (Token × ℕ)
  | .shutdown token streamId => [(token, streamId)]
  | _ => []

def reads : Op → Option (ℕ × Bool)
  | .openStream _ => none
  | .send streamId shutdown | .recv streamId shutdown => some (streamId, shutdown)

def step (w : World) (a : Action) : Rust World := do
  return ⟨← Tasks.step w.tasks a, closes a ++ w.shut⟩

/-- Each stream has one handle, so that whoever sends or receives reads the flag that
`shutdown` sets. -/
def Legal (w : World) (a : Action) : Prop :=
  Tasks.Legal w.tasks a ∧ ∀ token op waker streamId shutdown, a = .begin token op waker →
    reads op = some (streamId, shutdown) → (shutdown = true ↔ (token, streamId) ∈ w.shut)

def Concerns (streamId : ℕ) (event : Event) : Prop :=
  event = .streamSend streamId ∨ event = .streamRecv streamId

section Steps

variable {w w' : Tasks.World} {o : Option (Key × Waker)} {k : Key} {token : Token} {streamId : ℕ}
variable {event : Event}

theorem slot_effect (h : Effect w w' o) (hk : w.state.slot k = none)
    (ho : ∀ waker, o ≠ some (k, waker)) : w'.state.slot k = none := by
  cases h with
  | registers key waker hslot hwaiting =>
    rw [hslot, if_neg fun heq ↦ ho waker (by rw [heq]), hk]
  | takes key waker hslot hwaiting =>
    rw [hslot, hk, ite_self]
  | passes hslot hwaiting => rw [hslot, hk]
  | rouses ws hrouses hwaiting => exact hrouses.slot_eq_none hk

theorem slot_finish {flight : Flight} {answer : Except Io Reply}
    (hk : w.state.slot k = none) (hstep : Tasks.step w (.finish flight answer) = .ok w') :
    w'.state.slot k = none := by
  obtain ⟨⟨result, state⟩, hfinish, hstep⟩ := bind_ok hstep
  have hstate : w'.state = state := by
    cases result <;> cases hstep <;> rfl
  rw [hstate]
  cases answer with
  | error err =>
    simp only [State.finishPoll] at hfinish
    split at hfinish <;> cases hfinish <;> exact hk
  | ok reply =>
    cases hconn : w.state.wakers.lookup flight.token with
    | none => simp [State.finishPoll, hconn, unwrapOption] at hfinish
    | some conn =>
      simp only [State.finishPoll, hconn, unwrapOption, ok_bind] at hfinish
      cases hfinish
      refine (State.slot_conn_erase hconn (by rfl) (by rfl)).trans ?_
      rw [hk, ite_self]

theorem slot_step (hevent : Concerns streamId event)
    (hk : w.state.slot (.conn token event) = none) {a : Action}
    (hstep : Tasks.step w a = .ok w')
    (hbegin : ∀ op waker, a = .begin token op waker → op.event = event →
      op.begun w.state token waker = none) : w'.state.slot (.conn token event) = none := by
  have hne : ∀ {e : Event}, e = .connected ∨ e = .streamAccept → event ≠ e := by
    intro e he heq
    rcases hevent with h | h <;> rcases he with h' | h' <;> rw [h, h'] at heq <;> cases heq
  have heffect := step_effect hstep
  cases a with
  | isEstablished token' waker =>
    refine slot_effect heffect hk fun waker' heq ↦ ?_
    simp only [touches] at heq
    split at heq
    · cases heq
    · exact hne (.inl rfl) (by cases heq; rfl)
  | acceptStream token' waker =>
    refine slot_effect heffect hk fun waker' heq ↦ ?_
    simp only [touches] at heq
    split at heq
    · cases heq
    · exact hne (.inr rfl) (by cases heq; rfl)
  | acceptConn waker =>
    refine slot_effect heffect hk fun waker' heq ↦ ?_
    simp only [touches] at heq
    split at heq <;> cases heq
  | begin token' op waker =>
    refine slot_effect heffect hk fun waker' heq ↦ ?_
    simp only [touches] at heq
    split at heq
    next hsome =>
      cases heq
      rw [hbegin op waker rfl rfl] at hsome
      cases hsome
    next => cases heq
  | finish flight answer => exact slot_finish hk hstep
  | dispatch | stop | shutdown | cancel => exact slot_effect heffect hk fun waker heq ↦ by cases heq

theorem slot_shutdown (s : State) (hevent : Concerns streamId event) :
    (s.shutdown token streamId).2.slot (.conn token event) = none := by
  have hslot : ((s.wake token (.streamSend streamId)).wake token (.streamRecv streamId)).slot
      (.conn token event) = none := by
    rw [State.slot_wake, State.slot_wake]
    rcases hevent with rfl | rfl <;> simp
  unfold State.shutdown
  dsimp only
  split <;> exact hslot

end Steps

section Closing

variable {s s' : Ctx} {token : Token} {streamId err : ℕ} {r : Except Error Unit} {env : UnlockEnv}

theorem settled_unlessDone {α : Type} (answer : Except QuicheError α) :
    Settled (unlessDone answer) := by
  unfold unlessDone
  split
  · split
    · exact settled_quiche _
    · exact settled_ok ()
  · exact settled_ok ()

theorem settled_of_ready {α : Type} {r r' : Except Error α} (h : wouldBlock r = .ready r') :
    Settled r' := by
  unfold wouldBlock at h
  split at h
  · cases h
  · cases h
  next hbusy hretry =>
    cases h
    exact ⟨hbusy, hretry⟩

theorem settled_shutdownRead (s : Ctx) (streamId err : ℕ) :
    Settled (s.shutdownRead streamId err).1 := by
  unfold Ctx.shutdownRead
  split
  · exact settled_unlessDone _
  · exact settled_ok ()

theorem settled_sendFin (s : Ctx) (streamId : ℕ) : Settled (s.sendFin streamId).1 :=
  settled_unlessDone _

theorem settled_streamClosePrv (s : Ctx) (streamId err : ℕ) :
    Settled (s.streamClosePrv streamId err).1 := by
  have hread := settled_shutdownRead s streamId err
  unfold Ctx.streamClosePrv
  split
  · split
    next heq =>
      rw [heq] at hread
      exact hread
    next => exact settled_sendFin _ streamId
  · split
    · exact settled_sendFin s streamId
    · exact hread

theorem settled_streamClose (h : s.streamClose streamId err env = .ok (r, s')) : Settled r := by
  obtain ⟨⟨guard, c⟩, -, h⟩ := bind_ok h
  dsimp only at h
  split at h
  · cases h
    exact settled_ok ()
  next hready =>
    cases h
    exact (settled_of_ready hready).error
  next =>
    obtain ⟨⟨closed, t⟩, -, h⟩ := bind_ok h
    cases h
    exact settled_streamClosePrv _ streamId err

/-- A connection that is locked puts the shutdown of a stream off, so that `shutdown` never has
to wait for it, and its assertion holds. -/
theorem settled_streamShutdown {g g' : Group}
    (h : Group.streamShutdown token streamId err env g = .ok r g') : Settled r := by
  obtain ⟨a, g₁, hconn, h⟩ := section_bind_ok h
  cases h
  unfold Group.onConn at hconn
  split at hconn
  · cases hconn
    exact ⟨by simp [Except.bind], by simp [Except.bind]⟩
  · split at hconn
    · cases hconn
    next hclose =>
      cases hconn
      exact settled_streamClose hclose

end Closing

section Runs

variable {w w' : World} {token : Token} {streamId : ℕ} {event : Event} {waker : Waker}

/-- No waker is left for a stream that was shut down. -/
def Silent (w : World) : Prop :=
  ∀ token streamId, (token, streamId) ∈ w.shut → ∀ event, Concerns streamId event →
    w.tasks.state.slot (.conn token event) = none

theorem begun_of_shut (hshut : (token, streamId) ∈ w.shut) (hevent : Concerns streamId event)
    {op : Op} (hlegal : Legal w (.begin token op waker)) (hop : op.event = event) :
    op.begun w.tasks.state token waker = none := by
  have hflag := hlegal.2 token op waker
  cases hstopped : w.tasks.state.stopped with
  | true => exact begun_of_stopped hstopped op
  | false =>
    rw [begun_of_running hstopped, if_pos]
    subst hop
    cases op with
    | openStream kind => cases kind <;> rcases hevent with h | h <;> cases h
    | send id shutdown =>
      rcases hevent with h | h <;> cases h
      exact (hflag streamId shutdown rfl rfl).mpr hshut
    | recv id shutdown =>
      rcases hevent with h | h <;> cases h
      exact (hflag streamId shutdown rfl rfl).mpr hshut

theorem Silent.step (h : Silent w) {a : Action} (ha : Legal w a)
    (hstep : Shutdown.step w a = .ok w') : Silent w' := by
  obtain ⟨tasks, htasks, hstep⟩ := bind_ok hstep
  cases hstep
  intro token streamId hmem event hevent
  rcases List.mem_append.mp hmem with hnew | hshut
  · cases a with
    | shutdown token' streamId' =>
      cases List.mem_singleton.mp hnew
      cases htasks
      exact slot_shutdown w.tasks.state hevent
    | _ => cases hnew
  · refine slot_step hevent (h token streamId hshut event hevent) htasks ?_
    rintro op waker rfl hop
    exact begun_of_shut hshut hevent ha hop

theorem silent_of_run (h : Run step Legal .initial w) : Silent w := by
  refine h.invariant (P := Silent) (fun token streamId hmem ↦ by cases hmem) ?_
  intro w w' a hw ha hstep
  exact hw.step ha hstep

theorem run_tasks {ok : Tasks.World → Action → Prop}
    (h : Run step (fun w a ↦ Legal w a ∧ ok w.tasks a) .initial w) :
    Run Tasks.step (fun w a ↦ Tasks.Legal w a ∧ ok w a) .initial w.tasks := by
  refine h.invariant (P := fun w ↦ Run Tasks.step _ .initial w.tasks) (.refl _) ?_
  intro w w' a hw ha hstep
  obtain ⟨tasks, htasks, hstep⟩ := bind_ok hstep
  cases hstep
  exact hw.tail ⟨ha.1.1, ha.2⟩ htasks

theorem woken_shutdown (hstep : step w (.shutdown token streamId) = .ok w')
    (hevent : Concerns streamId event)
    (hslot : w.tasks.state.slot (.conn token event) = some waker) :
    waker ∈ w'.tasks.state.woken.drop w.tasks.state.woken.length := by
  obtain ⟨tasks, htasks, hstep⟩ := bind_ok hstep
  cases hstep
  cases htasks
  obtain ⟨ws, hrouses⟩ := State.rouses_shutdown w.tasks.state token streamId
  have hwoken : (w.tasks.state.shutdown token streamId).2.woken.drop w.tasks.state.woken.length =
      ws := by
    rw [hrouses.woken, List.drop_left]
  suffices hmem : waker ∈ ws by
    rw [← hwoken] at hmem
    exact hmem
  rcases hrouses.slot (.conn token event) with heq | ⟨-, hws⟩
  · rw [slot_shutdown w.tasks.state hevent, hslot] at heq
    cases heq
  · exact hws waker hslot

/-- A stream that is shut down releases its tasks for good. Those that wait with it are woken,
none of its polls goes on to the group any more, and as long as no task displaces another one's
waker nobody waits with it again. The group never asks the caller of `shutdown` to wait. -/
theorem shutdown_releases (h : Run step Legal .initial w) :
    (∀ token streamId w', step w (.shutdown token streamId) = .ok w' → ∀ event waker,
      Concerns streamId event → w.tasks.state.slot (.conn token event) = some waker →
      waker ∈ w'.tasks.state.woken.drop w.tasks.state.woken.length) ∧
    (∀ token streamId event, (token, streamId) ∈ w.shut → Concerns streamId event →
      w.tasks.state.slot (.conn token event) = none ∧
      (∀ op waker, Legal w (.begin token op waker) → op.event = event →
        op.begun w.tasks.state token waker = none) ∧
      (Run step (fun w a ↦ Legal w a ∧ Alone w.tasks a) .initial w → ∀ waker,
        (.conn token event, waker) ∉ w.tasks.waiting)) ∧
    ∀ token streamId err env g e g',
      Group.streamShutdown token streamId err env g = .ok (.error e) g' →
      (Io.ofError e).kind ≠ .wouldBlock := by
  have hsilent := silent_of_run h
  refine ⟨?_, ?_, ?_⟩
  · intro token streamId w' hstep event waker hevent hslot
    exact woken_shutdown hstep hevent hslot
  · intro token streamId event hshut hevent
    have hnone := hsilent token streamId hshut event hevent
    refine ⟨hnone, fun op waker hlegal hop ↦ begun_of_shut hshut hevent hlegal hop, ?_⟩
    intro halone waker hmem
    have hslot := registered_of_run (run_tasks halone) _ _ hmem
    rw [hnone] at hslot
    cases hslot
  · intro token streamId err env g e g' hrun hkind
    obtain ⟨hbusy, hretry⟩ := settled_streamShutdown hrun
    cases e with
    | busy => exact hbusy rfl
    | retry => exact hretry rfl
    | _ => cases hkind

theorem shutdown_releases_example :
    ∃ w w', Run step Legal .initial w ∧ step w (.shutdown ⟨1⟩ 4) = .ok w' ∧
      (.conn ⟨1⟩ (.streamRecv 4), ⟨7⟩) ∈ w.tasks.waiting ∧
      ⟨7⟩ ∈ w'.tasks.state.woken.drop w.tasks.state.woken.length ∧
      w'.tasks.state.slot (.conn ⟨1⟩ (.streamRecv 4)) = none := by
  have hbegin : Run step Legal .initial _ :=
    .one (i := .begin ⟨1⟩ (.recv 4 false) ⟨7⟩) ⟨fun f hf ↦ (by cases hf), by
      rintro token op waker streamId shutdown ⟨⟩ ⟨⟩
      simp [World.initial]⟩ rfl
  have hshut := hbegin.tail (i := .shutdown ⟨1⟩ 4) (by exact ⟨trivial, by simp⟩) rfl
  obtain ⟨hwoken, -⟩ := shutdown_releases hbegin
  obtain ⟨-, hreleased, -⟩ := shutdown_releases hshut
  exact ⟨_, _, hbegin, rfl, by decide, hwoken ⟨1⟩ 4 _ rfl (.streamRecv 4) ⟨7⟩ (.inr rfl) rfl,
    (hreleased ⟨1⟩ 4 _ (List.mem_cons_self ..) (.inr rfl)).1⟩

end Runs

end ZeroRtt.Futures.Shutdown
