import ZeroRtt.Futures.Handover
import ZeroRtt.Mio.Polling
import ZeroRtt.Mio.Timers
import ZeroRtt.Poll.Greetings
import ZeroRtt.Poll.Noting

namespace ZeroRtt.Futures.Arrivals

open ZeroRtt.Lib.Panics ZeroRtt.Lib.Containers ZeroRtt.Lib.Runs ZeroRtt.Lib.Queues
open ZeroRtt.Futures ZeroRtt.Futures.Handover ZeroRtt.Mio.Loop
open ZeroRtt.Api.Types (Token EventKind)
open ZeroRtt.Api.Quiche (Connection Script)
open ZeroRtt.Poll (Group Happening)
open ZeroRtt.Poll.Conn (QuicConn LocKind UnlockEnv)
open ZeroRtt.Poll.Schedule (PollEnv Readiness)
open ZeroRtt.Poll.Sections (registrations leftBy bind_of_ok)
open ZeroRtt.Poll.Chronicle (deliveredIn deliveredIn_append deliveredIn_delivered Records)
open ZeroRtt.Poll.Deliveries (Booked booked_new)
open ZeroRtt.Poll.Greetings
open ZeroRtt.Poll.Reporting (carries_voices elementary_reports voices_poll greeting)
open ZeroRtt.Poll.Noting (shaking)
open ZeroRtt.Poll.GuardLifetime (firstGuard takes)
open ZeroRtt.Poll.Tables (registers)
open ZeroRtt.Mio.Polling (ForCaller)
open ZeroRtt.Mio.Timers (Orderly Steady steady_initial steady_next orderly_own)

/-- A server as it is put together: the loop of mio's `poll` beside the other threads that use the
group, the events that it has returned to `run_once`, and the tasks with what the dispatcher tells
them. What the tasks get from the group is left open. -/
structure World where
  loop : Mio.Loop.World
  batch : List Api.Types.Event
  above : Recorded

inductive Action
  | loop (a : Mio.Loop.Action)
  | dispatch
  | task (a : Tasks.Action)

def returned (w : Mio.Loop.World) : Mio.Loop.Action → List Api.Types.Event
  | .finish =>
    match w.phase with
    | .handling ⟨_, [], events⟩ => events
    | _ => []
  | _ => []

def World.initial : World := ⟨.initial, [], .initial⟩

def step (w : World) : Action → Rust World
  | .loop a => return { w with loop := w.loop.next a, batch := w.batch ++ returned w.loop a }
  | .dispatch => do
    return { w with batch := [], above := ← Handover.step w.above (.dispatch w.batch) }
  | .task a => do return { w with above := ← Handover.step w.above a }

/-- The thread of `run_once` polls the group when it is done with the last events, and it
alone dispatches. What `Orderly` leaves out: guards are used by who does not hold them, a
connection is taken out while it is locked, or a packet of the loop meets an I/O error, with
which `poll` returns without the events it has gathered. -/
def Legal (w : World) : Action → Prop
  | .loop a => Orderly w.loop a ∧ ∀ env, a = .pollGroup env → w.batch = []
  | .dispatch => True
  | .task a => Handover.Legal w.above a ∧ ∀ events, a ≠ .dispatch events

/-- Connections are registered before their handshake is over. -/
def Fresh (w : World) : Action → Prop
  | .loop (.other b) => ∀ q env, registers w.loop.base b = some (q, env) → q.isEstablished = false
  | _ => True

section Conveying

variable {w w' : World} {r r' : Recorded} {v : Mio.Loop.World}

def history (w : World) : List Happening := w.loop.base.group.state.history

def inHand : Phase → List Api.Types.Event
  | .handling i | .locked i _ | .sent i _ _ => i.events ++ i.todo.filter ForCaller
  | .idle | .polling _ => []

def underway (w : World) : List Api.Types.Event := w.batch ++ inHand w.loop.phase

def reported (ns : List Note) : List Api.Types.Event :=
  ns.filterMap fun n ↦
    match n with
    | .reported e => some e
    | _ => none

theorem reported_append (ns ns' : List Note) :
    reported (ns ++ ns') = reported ns ++ reported ns' := List.filterMap_append

theorem reported_events (events : List Api.Types.Event) :
    reported (events.map .reported) = events := by
  induction events with
  | nil => rfl
  | cons e events ih => exact congrArg (e :: ·) ih

theorem reported_notes {s : State} {a : Tasks.Action} (ha : ∀ events, a ≠ .dispatch events) :
    reported (notes s a) = [] := by
  cases a with
  | dispatch events => exact absurd rfl (ha events)
  | acceptConn waker =>
    unfold notes
    dsimp only
    split <;> rfl
  | acceptStream token waker =>
    unfold notes
    dsimp only
    split <;> rfl
  | _ => rfl

theorem pushes_conns (ns : List Note) : pushes (conns ns) = arrivals (reported ns) := by
  induction ns with
  | nil => rfl
  | cons n ns ih =>
    cases n with
    | reported e =>
      by_cases hkind : e.kind = .accept
      · simpa [conns, pushes, reported, arrivals, connDeed, hkind, Deed.pushed] using ih
      · simpa [conns, pushes, reported, arrivals, connDeed, hkind] using ih
    | acceptedConn token => exact ih
    | acceptedStream token streamId => exact ih

theorem delivered_records {g g' : Group} (h : Records g g') :
    deliveredIn g'.state.history = deliveredIn g.state.history := by
  obtain ⟨news, hhistory, hnone, -⟩ := h
  rw [hhistory, deliveredIn_append, hnone, List.append_nil]

theorem records_own {a : Mio.Loop.Action} (hother : ∀ b, a ≠ .other b)
    (hpoll : ∀ env, a ≠ .pollGroup env) : Records v.base.group (v.next a).base.group :=
  carries_own Poll.Chronicle.carries_records Poll.Chronicle.elementary_tells.steady hother hpoll

theorem inHand_handle (h : Steady v) {deadline : Option Instant} (event : Api.Types.Event)
    {todo events : List Api.Types.Event} :
    inHand (v.handle ⟨deadline, todo, events⟩ event).phase =
      events ++ (event :: todo).filter ForCaller := by
  unfold Mio.Loop.World.handle
  split
  next hkind =>
    obtain ⟨r, g', hconn, -⟩ :=
      h.sound.guarded.onConn_tryLock (show LocKind.recv ≠ .none by simp) event.token
    have hlock : Group.lock event.token .recv v.base.group = .ok (r.bind id) g' := bind_of_ok hconn
    have hnot : ¬ ForCaller event := fun hfor ↦ hfor.1 hkind
    simp only [Mio.Loop.World.run, hlock, List.filter_cons, hnot, decide_false,
      Bool.false_eq_true, if_false]
    cases r.bind id <;> rfl
  next hkind =>
    have hnot : ¬ ForCaller event := fun hfor ↦ hfor.2 hkind
    simp only [inHand, List.filter_cons, hnot, decide_false, Bool.false_eq_true, if_false]
  next hsend hrecv =>
    have hfor : ForCaller event := ⟨hsend, hrecv⟩
    simp only [inHand, List.filter_cons, hfor, decide_true, if_true, List.append_assoc,
      List.singleton_append]

theorem delivered_next (h : Steady v) {a : Mio.Loop.Action} (ha : Orderly v a)
    {before : List Api.Types.Event}
    (hbefore : (deliveredIn v.base.group.state.history).filter ForCaller =
      before ++ inHand v.phase) :
    (deliveredIn (v.next a).base.group.state.history).filter ForCaller =
      before ++ (returned v a ++ inHand (v.next a).phase) := by
  by_cases hother : ∃ b, a = .other b
  · obtain ⟨b, rfl⟩ := hother
    obtain ⟨hpoll, hlegal⟩ := ha.legal
    have hrecords : Records v.base.group (v.base.next b).group :=
      Poll.Chronicle.sectionwise_records.next hpoll fun _ _ _ ↦ trivial
    rw [show (v.next (.other b)).base.group = (v.base.next b).group from rfl,
      delivered_records hrecords, hbefore]
    rfl
  by_cases hpoll : ∃ env, a = .pollGroup env
  · obtain ⟨env, rfl⟩ := hpoll
    cases hphase : v.phase with
    | idle =>
      obtain ⟨more, deadline, rest, heq, -⟩ := Readiness.poll_eq v.base.group.state.readiness
        Poll.defaultReleaseTimerThreshold env
      rw [hphase] at hbefore
      simp only [Mio.Loop.World.next, hphase, Mio.Loop.World.run, Group.poll, heq,
        deliveredIn_append, deliveredIn_delivered, List.filter_append, hbefore]
      simp only [inHand, returned, List.nil_append, List.append_nil, List.filter_append]
    | _ =>
      rw [hphase] at hbefore
      simp only [Mio.Loop.World.next, hphase, returned, hbefore, List.nil_append]
  push Not at hother hpoll
  rw [delivered_records (records_own hother hpoll), hbefore, List.append_cancel_left_eq]
  cases a with
  | other b => exact absurd rfl (hother b)
  | pollGroup env => exact absurd rfl (hpoll env)
  | fail => exact absurd rfl ha.sends
  | handle =>
    cases hphase : v.phase with
    | handling i =>
      obtain ⟨deadline, todo, events⟩ := i
      cases todo with
      | nil => simp only [Mio.Loop.World.next, hphase, returned, List.nil_append]
      | cons event todo =>
        simp only [Mio.Loop.World.next, hphase, returned, List.nil_append]
        exact (inHand_handle h event).symm
    | _ => simp only [Mio.Loop.World.next, hphase, returned, List.nil_append]
  | transmit len now =>
    cases hphase : v.phase with
    | locked i guard =>
      obtain ⟨sendDone, g', hrun, -⟩ := h.locked hphase len now
      simp only [Mio.Loop.World.next, hphase, Mio.Loop.World.run, hrun, returned, inHand,
        List.nil_append]
    | _ => simp only [Mio.Loop.World.next, hphase, returned, List.nil_append]
  | unlock env =>
    cases hphase : v.phase with
    | sent i guard sendDone =>
      obtain ⟨closed, g', hrun, -⟩ := h.sent hphase env
      simp only [Mio.Loop.World.next, hphase, Mio.Loop.World.unlock, Mio.Loop.World.run, hrun,
        returned, inHand, List.nil_append]
    | _ => simp only [Mio.Loop.World.next, hphase, returned, List.nil_append]
  | finish =>
    cases hphase : v.phase with
    | handling i =>
      obtain ⟨deadline, todo, events⟩ := i
      cases todo with
      | nil =>
        have hfinish : inHand (v.finish ⟨deadline, [], events⟩).phase = [] := by
          unfold Mio.Loop.World.finish
          split <;> rfl
        simp only [Mio.Loop.World.next, hphase, returned, hfinish]
        rfl
      | cons event todo => simp only [Mio.Loop.World.next, hphase, returned, List.nil_append]
    | _ => simp only [Mio.Loop.World.next, hphase, returned, List.nil_append]
  | wake =>
    cases hphase : v.phase with
    | polling deadline => simp only [Mio.Loop.World.next, hphase, returned, inHand, List.nil_append]
    | _ => simp only [Mio.Loop.World.next, hphase, returned, List.nil_append]

/-- Every event for its caller that the loop took out of the group was reported to the tasks or is
on its way to them, and the group is in order. -/
structure Sound (w : World) : Prop where
  steady : Steady w.loop
  booked : Booked w.loop.base.group
  greeted : Greeted w.loop.base.group
  conveyed : (deliveredIn (history w)).filter ForCaller = reported w.above.notes ++ underway w
  moves : Moves .new w.above.world.state w.above.notes

theorem booked_loop (h : Booked v.base.group) (a : Mio.Loop.Action) :
    Booked (v.next a).base.group := by
  have htouches := touches_next v a
  generalize (v.next a).base.group = g at htouches ⊢
  cases htouches with
  | other b => exact h.next b
  | poll env hphase => exact h.poll env
  | own g hown =>
    exact h.records (hown Poll.Chronicle.carries_records Poll.Chronicle.elementary_tells.steady)

theorem greeted_loop (h : Greeted v.base.group) (a : Mio.Loop.Action) :
    Greeted (v.next a).base.group := by
  have htouches := touches_next v a
  generalize (v.next a).base.group = g at htouches ⊢
  cases htouches with
  | other b => exact h.next b
  | poll env hphase => exact h.voices (voices_poll env _) (modest_poll env _)
  | own g hown =>
    exact h.voices (hown carries_voices elementary_reports.steady)
      (hown carries_modest steady_modest)

theorem announced_loop (h : Announced v.base.group) {a : Mio.Loop.Action}
    (ha : ∀ b, a = .other b → ∀ q env, registers v.base b = some (q, env) →
      q.isEstablished = false) : Announced (v.next a).base.group := by
  have htouches := touches_next v a
  generalize (v.next a).base.group = g at htouches ⊢
  cases htouches with
  | other b => exact h.next (ha b rfl)
  | poll env hphase => exact h.voices (voices_poll env _) (modest_poll env _)
  | own g hown =>
    exact h.voices (hown carries_voices elementary_reports.steady)
      (hown carries_modest steady_modest)

theorem sound_initial : Sound .initial where
  steady := steady_initial
  booked := booked_new
  greeted := greeted_new
  conveyed := rfl
  moves := moves_of_eq rfl rfl

theorem sound_step (h : Sound w) {a : Action} (ha : Legal w a) (hstep : step w a = .ok w') :
    Sound w' := by
  cases a with
  | loop a =>
    cases hstep
    refine ⟨steady_next h.steady ha.1, booked_loop h.booked a, greeted_loop h.greeted a, ?_, h.moves⟩
    have hconveyed := h.conveyed
    rw [underway, ← List.append_assoc] at hconveyed
    have hnext := delivered_next h.steady ha.1 hconveyed
    rw [history, hnext]
    simp only [underway, List.append_assoc]
  | dispatch =>
    obtain ⟨r, hr, hstep⟩ := bind_ok hstep
    cases hstep
    obtain ⟨above, habove, hr⟩ := bind_ok hr
    cases hr
    refine ⟨h.steady, h.booked, h.greeted, ?_, h.moves.trans (moves_step habove)⟩
    have hnotes : notes w.above.world.state (.dispatch w.batch) = w.batch.map .reported := rfl
    rw [hnotes, reported_append, reported_events, List.append_assoc]
    exact h.conveyed
  | task a =>
    obtain ⟨r, hr, hstep⟩ := bind_ok hstep
    cases hstep
    obtain ⟨above, habove, hr⟩ := bind_ok hr
    cases hr
    refine ⟨h.steady, h.booked, h.greeted, ?_, h.moves.trans (moves_step habove)⟩
    rw [reported_append, reported_notes ha.2, List.append_nil]
    exact h.conveyed

theorem sound_of_run (h : Run step Legal .initial w) : Sound w :=
  h.invariant sound_initial fun _ _ _ hw ha hstep ↦ sound_step hw ha hstep

theorem announced_of_run (h : Run step (fun w a ↦ Legal w a ∧ Fresh w a) .initial w) :
    Announced w.loop.base.group := by
  refine h.invariant (P := fun w ↦ Announced w.loop.base.group) announced_new ?_
  intro w w' a hw ha hstep
  cases a with
  | loop a =>
    cases hstep
    refine announced_loop hw ?_
    rintro b rfl
    exact ha.2
  | dispatch =>
    obtain ⟨r, -, hstep⟩ := bind_ok hstep
    cases hstep
    exact hw
  | task a =>
    obtain ⟨r, -, hstep⟩ := bind_ok hstep
    cases hstep
    exact hw

/-- The tokens that tasks have accepted, those that wait for one, and those on their way. -/
def handed (w : World) : List Token :=
  pops (conns w.above.notes) ++ w.above.world.state.incomingConns ++ arrivals (underway w)

theorem arrivals_filter (events : List Api.Types.Event) :
    arrivals (events.filter ForCaller) = arrivals events := by
  induction events with
  | nil => rfl
  | cons e events ih =>
    by_cases hkind : e.kind = .accept
    · have hfor : ForCaller e := ⟨by simp [hkind], by simp [hkind]⟩
      simpa [arrivals, List.filter_cons, hfor, hkind] using ih
    · by_cases hfor : ForCaller e
      · simpa [arrivals, List.filter_cons, hfor, hkind] using ih
      · simpa [arrivals, List.filter_cons, hfor, hkind] using ih

theorem Sound.handed_eq (h : Sound w) : arrivals (deliveredIn (history w)) = handed w := by
  have hqueue := pushes_recent h.moves.conns
  rw [recent_eq_self clear_not_mem_conns, pushes_conns] at hqueue
  rw [← arrivals_filter, h.conveyed, arrivals_append, hqueue, handed]

/-- From mio's loop to the tasks that accept connections: the tasks get the tokens that the group
has reported, in this order, and none more often than a connection was registered under it. A
server connection that was registered before it was established, and is established now, is ready
to be reported, or it was handed over, accepted or on its way there after its registration. -/
theorem each_connection_accepted_once (h : Run step Legal .initial w) :
    arrivals (deliveredIn (history w)) = handed w ∧
    (∀ token, (handed w).count token ≤ (registrations (history w)).count token) ∧
    (Run step (fun w a ↦ Legal w a ∧ Fresh w a) .initial w → ∀ token c,
      w.loop.base.group.state.conns.lookup token = some c → c.wrapped.isServer = true →
      c.established = true → ∃ before since,
        history w = before ++ .registered token :: since ∧ token ∉ registrations since ∧
        (greeting token true ∈ w.loop.base.group.state.readiness.events ∨
          token ∈ (handed w).drop (arrivals (deliveredIn before)).length)) := by
  have hsound := sound_of_run h
  refine ⟨hsound.handed_eq, fun token ↦ ?_, fun hfresh token c hc hserver hestablished ↦ ?_⟩
  · rw [← hsound.handed_eq]
    exact hsound.greeted.count_le hsound.booked token
  · obtain ⟨before, since, hhistory, hsince, hreported⟩ :=
      (announced_of_run hfresh).reported hsound.booked hc hserver hestablished
    refine ⟨before, since, hhistory, hsince, hreported.imp_right fun hmem ↦ ?_⟩
    have hsplit : history w = before ++ .registered token :: since := hhistory
    rw [← hsound.handed_eq, hsplit, deliveredIn_append, arrivals_append, List.drop_left]
    exact hmem

end Conveying

section Examples

variable {w : World}

theorem allowed_own {a : Mio.Loop.Action} (hother : ∀ b, a ≠ .other b) (hfail : a ≠ .fail)
    (hbatch : w.batch = []) : Legal w (.loop a) ∧ Fresh w (.loop a) := by
  refine ⟨⟨orderly_own hother hfail, fun _ _ ↦ hbatch⟩, ?_⟩
  cases a with
  | other b => exact absurd rfl (hother b)
  | _ => trivial

theorem allowed_other {b : Poll.Interleaving.Action} (hpoll : ∀ env, b ≠ .poll env)
    (hlegal : Poll.Interleaving.Legal w.loop.base b) (htakes : takes w.loop.base b = none)
    (hregisters : ∀ q env, registers w.loop.base b = some (q, env) → q.isEstablished = false) :
    Legal w (.loop (.other b)) ∧ Fresh w (.loop (.other b)) := by
  refine ⟨⟨⟨⟨hpoll, hlegal⟩, ?_, by simp⟩, by simp⟩, hregisters⟩
  rintro b ⟨⟩ token conn htoken
  rw [htakes] at htoken
  cases htoken

def up : World := { World.initial with
  loop := (((Mio.Loop.World.initial.next (.other (.connect shaking .still))).next
    (.other (.lock ⟨0⟩ .recv))).next (.other (.call firstGuard .onTimeout))).next
    (.other (.unlock firstGuard false .still)) }

theorem run_up : Run step (fun w a ↦ Legal w a ∧ Fresh w a) .initial up := by
  have hconnect : Run step (fun w a ↦ Legal w a ∧ Fresh w a) .initial _ :=
    .one (i := .loop (.other (.connect shaking .still)))
      (allowed_other (by simp) trivial rfl fun q env hq ↦ by cases hq; rfl) rfl
  have hlock := hconnect.tail (i := .loop (.other (.lock ⟨0⟩ .recv)))
    (allowed_other (by simp) (by simp [Poll.Interleaving.Legal]) rfl fun q env hq ↦ by cases hq) rfl
  have hcall := hlock.tail (i := .loop (.other (.call firstGuard .onTimeout)))
    (allowed_other (by simp) (List.mem_cons_self ..) rfl fun q env hq ↦ by cases hq) rfl
  exact hcall.tail (i := .loop (.other (.unlock firstGuard false .still)))
    (allowed_other (by simp) (List.mem_cons_self ..) rfl fun q env hq ↦ by cases hq) rfl

def polled : World := { up with
  loop := (((((up.loop.next (.pollGroup ⟨0, HashSet.listed, Peek.first⟩)).next .handle).next
    .handle).next (.transmit 1200 0)).next (.unlock .still)).next .finish
  batch := [greeting ⟨0⟩ true] }

theorem run_polled : Run step (fun w a ↦ Legal w a ∧ Fresh w a) .initial polled := by
  have hpoll := run_up.tail (i := .loop (.pollGroup ⟨0, HashSet.listed, Peek.first⟩))
    (allowed_own (by simp) (by simp) rfl) rfl
  have haccept := hpoll.tail (i := .loop .handle) (allowed_own (by simp) (by simp) rfl) rfl
  have hlock := haccept.tail (i := .loop .handle) (allowed_own (by simp) (by simp) rfl) rfl
  have hsend := hlock.tail (i := .loop (.transmit 1200 0)) (allowed_own (by simp) (by simp) rfl) rfl
  have hunlock := hsend.tail (i := .loop (.unlock .still)) (allowed_own (by simp) (by simp) rfl) rfl
  exact hunlock.tail (i := .loop .finish) (allowed_own (by simp) (by simp) rfl) rfl

theorem each_connection_accepted_once_example :
    ∃ w c, Run step (fun w a ↦ Legal w a ∧ Fresh w a) .initial w ∧
      w.loop.base.group.state.conns.lookup ⟨0⟩ = some c ∧ c.established = true ∧
      pops (conns w.above.notes) = [⟨0⟩] ∧ arrivals (deliveredIn (history w)) = [⟨0⟩] ∧
      (handed w).count ⟨0⟩ ≤ 1 ∧ ∃ before since,
        history w = before ++ .registered ⟨0⟩ :: since ∧ ⟨0⟩ ∉ registrations since ∧
        (greeting ⟨0⟩ true ∈ w.loop.base.group.state.readiness.events ∨
          ⟨0⟩ ∈ (handed w).drop (arrivals (deliveredIn before)).length) := by
  have hdispatch := run_polled.tail (i := .dispatch) (by exact ⟨trivial, trivial⟩) rfl
  have haccept := hdispatch.tail (i := .task (.acceptConn ⟨7⟩))
    (by exact ⟨⟨fun f hf ↦ (by cases hf), by simp⟩, trivial⟩) rfl
  obtain ⟨-, hcount, hreported⟩ :=
    each_connection_accepted_once (haccept.mono fun _ _ ha ↦ ha.1)
  exact ⟨_, _, haccept, rfl, rfl, rfl, rfl, hcount ⟨0⟩, hreported haccept ⟨0⟩ _ rfl rfl rfl⟩

end Examples

end ZeroRtt.Futures.Arrivals
