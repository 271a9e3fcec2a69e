import ZeroRtt.Mio.Admission
import ZeroRtt.Poll.Sequential

namespace ZeroRtt.Mio.Sequential

open ZeroRtt.Lib.Panics ZeroRtt.Lib.Containers ZeroRtt.Lib.Runs
open ZeroRtt.Api.Types ZeroRtt.Api.Quiche ZeroRtt.Api.Handshakes
open ZeroRtt.Poll (Group)
open ZeroRtt.Poll.Conn (UnlockEnv)
open ZeroRtt.Poll.Interleaving (Pending)
open ZeroRtt.Poll.Locking (Guard)
open ZeroRtt.Poll.Accepting (openLibrary firstPacket)
open ZeroRtt.Poll.Operations (Op)
open ZeroRtt.Poll.Sections (section_bind_ok send_eq)
open ZeroRtt.Poll.Sequential
open ZeroRtt.Mio.Socket ZeroRtt.Mio.Receiving
open ZeroRtt.Mio.Addressing (address)
open ZeroRtt.Mio.Loop (Phase Iteration)
open ZeroRtt.Mio.Polling

variable {α Config : Type} {lib : Library Config} {fromSlice : Group.FromSlice}
variable {s s' t : State} {g g' : Group} {guards : List Guard} {pending : List Pending}
variable {b b' b'' : Poll.Interleaving.World} {phase phase' phase'' : Phase}

def Goes (b : Poll.Interleaving.World) (phase : Phase) (b' : Poll.Interleaving.World)
    (phase' : Phase) : Prop :=
  ∀ theirs, ∃ theirs', Run Loop.step Loop.Legal ⟨b, phase, theirs⟩ ⟨b', phase', theirs'⟩

theorem Goes.refl (b : Poll.Interleaving.World) (phase : Phase) : Goes b phase b phase :=
  fun theirs ↦ ⟨theirs, .refl _⟩

theorem Goes.trans (h : Goes b phase b' phase') (h' : Goes b' phase' b'' phase'') :
    Goes b phase b'' phase'' := by
  intro theirs
  obtain ⟨theirs', hrun⟩ := h theirs
  obtain ⟨theirs'', hrun'⟩ := h' theirs'
  exact ⟨theirs'', hrun.trans hrun'⟩

theorem goes_others (h : Leads b b') (phase : Phase) : Goes b phase b' phase := by
  intro theirs
  induction h with
  | refl => exact ⟨theirs, .refl _⟩
  | @tail c c' a hrun ha hstep ih =>
    obtain ⟨theirs', hrun'⟩ := ih
    cases hstep
    exact ⟨_, hrun'.tail (i := .other a) ha rfl⟩

theorem goes_step {a : Loop.Action} (hown : ∀ c, a ≠ .other c)
    (h : ∀ theirs, (Loop.World.next ⟨b, phase, theirs⟩ a).base = b' ∧
      (Loop.World.next ⟨b, phase, theirs⟩ a).phase = phase') : Goes b phase b' phase' := by
  intro theirs
  obtain ⟨rfl, rfl⟩ := h theirs
  have hlegal : Loop.Legal ⟨b, phase, theirs⟩ a := by
    cases a with
    | other c => exact absurd rfl (hown c)
    | _ => trivial
  exact ⟨_, .one hlegal rfl⟩

section Sends

variable {deadline : Option Instant} {event : Event} {todo kept : List Event}

theorem goes_unlock {i : Iteration} {guard : Guard} {sendDone : Bool} {env : UnlockEnv}
    (h : Group.unlock { guard.lock with sendDone } env g = .ok () g') :
    Goes ⟨g, guards, pending⟩ (.sent i guard sendDone) ⟨g', guards, pending⟩ (.handling i) := by
  obtain ⟨closed, g₁, hconn, h⟩ := section_bind_ok h
  have hdropped : Goes ⟨g, guards, pending⟩ (.sent i guard sendDone)
      (if closed then ⟨g₁, guards, .takeConn guard.lock.token :: pending⟩
        else ⟨g₁, guards, pending⟩) (.handling i) := by
    apply goes_step (a := .unlock env) (by simp)
    intro theirs
    simp only [Loop.World.next, Loop.World.unlock, Loop.World.run, hconn, and_true]
    cases closed <;> rfl
  cases closed with
  | false =>
    cases h
    exact hdropped
  | true =>
    obtain ⟨taken, g₂, hderegister, h⟩ := section_bind_ok h
    cases h
    exact hdropped.trans (goes_others (leads_close env hderegister) _)

theorem goes_send {len : ℕ} {now : Instant} {env : UnlockEnv} {r : Except Error (ℕ × SendInfo)}
    (hkind : event.kind = .send) (h : Group.send event.token len now env g = .ok r g') :
    Goes ⟨g, guards, pending⟩ (.handling ⟨deadline, event :: todo, kept⟩) ⟨g', guards, pending⟩
      (.handling ⟨deadline, todo, kept⟩) := by
  rw [send_eq] at h
  obtain ⟨locked, g₁, hlock, h⟩ := section_bind_ok h
  have hlocked : Goes ⟨g, guards, pending⟩ (.handling ⟨deadline, event :: todo, kept⟩)
      ⟨g₁, guards, pending⟩ (match locked with
        | .ok guard => .locked ⟨deadline, todo, kept⟩ guard
        | .error _ => .handling ⟨deadline, todo, kept⟩) := by
    apply goes_step (a := .handle) (by simp)
    intro theirs
    simp only [Loop.World.next, Loop.World.handle, hkind, Loop.World.run, hlock]
    cases locked <;> exact ⟨rfl, rfl⟩
  cases locked with
  | error err =>
    cases h
    exact hlocked
  | ok guard =>
    obtain ⟨⟨sendDone, answer⟩, g₂, htransmit, h⟩ := section_bind_ok h
    obtain ⟨_, g₃, hunlock, h⟩ := section_bind_ok h
    cases h
    have hsent : Goes ⟨g₁, guards, pending⟩ (.locked ⟨deadline, todo, kept⟩ guard)
        ⟨g₂, guards, pending⟩ (.sent ⟨deadline, todo, kept⟩ guard sendDone) := by
      apply goes_step (a := .transmit len now) (by simp)
      intro theirs
      simp only [Loop.World.next, Loop.World.run, htransmit, and_self]
    exact hlocked.trans (hsent.trans (goes_unlock hunlock))

end Sends

section Batches

variable {deadline : Option Instant} {batch : List (Event × Sending)} {kept kept' : List Event}

theorem send_of_onQuicSend {token : Token} {sending : Sending} {r : Except Io Unit}
    (h : onQuicSend token sending.now sending.env sending.written sending.os s = .ok (r, s')) :
    ∃ sent, Group.send token QuicBuf.capacity sending.now sending.env s.group = .ok sent s'.group := by
  cases onQuicSend_passes h with
  | keeps g hg hs =>
    subst hs
    exact hg
  | transmits g hg index buf target htransmit =>
    obtain ⟨sent, hsend⟩ := hg
    exact ⟨sent, by rw [transmit_group htransmit, hsend]⟩

theorem goes_onPolled {x : Event × Sending} {r : Except Io Unit}
    (h : onPolled x (kept, s) = .ok (r, kept', s')) (todo : List Event) :
    Goes ⟨s.group, guards, pending⟩ (.handling ⟨deadline, x.1 :: todo, kept⟩)
      ⟨s'.group, guards, pending⟩ (.handling ⟨deadline, todo, kept'⟩) := by
  obtain ⟨event, sending⟩ := x
  unfold onPolled at h
  dsimp only at h
  split at h
  next hkind =>
    obtain ⟨⟨r', t⟩, hrun, h⟩ := bind_ok h
    cases h
    obtain ⟨sent, hsend⟩ := send_of_onQuicSend hrun
    exact goes_send hkind hsend
  next hkind =>
    cases h
    apply goes_step (a := .handle) (by simp)
    intro theirs
    simp only [Loop.World.next, Loop.World.handle, hkind, and_self]
  next hsend hrecv =>
    cases h
    apply goes_step (a := .handle) (by simp)
    intro theirs
    simp only [Loop.World.next]
    unfold Loop.World.handle
    split
    next hkind => exact absurd hkind hsend
    next hkind => exact absurd hkind hrecv
    next => exact ⟨rfl, rfl⟩

theorem goes_batch (h : tryEach onPolled batch (kept, s) = .ok (.ok (), kept', s'))
    (todo : List Event) :
    Goes ⟨s.group, guards, pending⟩ (.handling ⟨deadline, batch.map Prod.fst ++ todo, kept⟩)
      ⟨s'.group, guards, pending⟩ (.handling ⟨deadline, todo, kept'⟩) := by
  induction batch generalizing kept s with
  | nil =>
    cases h
    exact .refl _ _
  | cons x batch ih =>
    obtain ⟨⟨kept₁, t⟩, hx, h⟩ := tryEach_cons_ok h
    exact (goes_onPolled hx _).trans (ih h)

theorem goes_batch_error {err : Io}
    (h : tryEach onPolled batch (kept, s) = .ok (.error err, kept', s')) :
    Goes ⟨s.group, guards, pending⟩ (.handling ⟨deadline, batch.map Prod.fst, kept⟩)
      ⟨s'.group, guards, pending⟩ .idle := by
  obtain ⟨before, x, after, ⟨kept₁, t⟩, rfl, hbefore, hx⟩ := tryEach_error h
  rw [List.map_append, List.map_cons]
  have hfailed : Goes ⟨s'.group, guards, pending⟩
      (.handling ⟨deadline, after.map Prod.fst, kept'⟩) ⟨s'.group, guards, pending⟩ .idle :=
    goes_step (a := .fail) (by simp) fun _ ↦ ⟨rfl, rfl⟩
  exact (goes_batch hbefore _).trans ((goes_onPolled hx _).trans hfailed)

end Batches

section Polls

variable {round : Round Config} {rounds : List (Round Config)} {r : Except Io Unit}
variable {out kept events events' : List Event} {deadline : Option Instant}

theorem leads_served (h : Served lib fromSlice g g') :
    Leads ⟨g, guards, pending⟩ ⟨g', guards, pending⟩ := by
  rcases h with rfl | ⟨_, _, _, _, _, answer, h⟩ | ⟨_, _, _, _, _, received, h⟩
  · exact Run.refl _
  · exact leads_recvWithAcceptor h
  · exact leads_recvWithConnectionId h

theorem leads_receive {index : ℕ} {d : Datagram Config}
    (h : receive lib fromSlice index d s = .ok (r, s')) :
    Leads ⟨s.group, guards, pending⟩ ⟨s'.group, guards, pending⟩ := by
  cases receive_passes h with
  | keeps g hg hs =>
    subst hs
    exact leads_served hg
  | transmits g hg index buf target htransmit =>
    rw [transmit_group htransmit]
    exact leads_served hg

theorem leads_mioPollOnce {polled : Except Io (List (IoEvent Config))}
    (h : mioPollOnce lib fromSlice polled s = .ok (r, s')) :
    Leads ⟨s.group, guards, pending⟩ ⟨s'.group, guards, pending⟩ := by
  cases polled with
  | error err =>
    cases h
    exact Run.refl _
  | ok ioEvents =>
    apply Admission.mioPollOnce_keeps
      (I := fun t ↦ Leads ⟨s.group, guards, pending⟩ ⟨t.group, guards, pending⟩) (Run.refl _) ?_ ?_ h
    · intro _ _ _ _ _ _ _ t r t' ht hreceive
      exact ht.trans (leads_receive hreceive)
    · intro index os t r t' ht hsend
      rwa [(Admission.addrs_onUdpSend hsend).1]

theorem goes_pollGroup (h : Group.poll [] round.polled g = .ok (out, deadline) g') :
    Goes ⟨g, guards, pending⟩ .idle ⟨g', guards, pending⟩ (.handling ⟨deadline, out, []⟩) := by
  apply goes_step (a := .pollGroup round.polled) (by simp)
  intro theirs
  simp only [Loop.World.next, Loop.World.run, h, and_self]

theorem goes_round (hpoll : Group.poll [] round.polled s.group = .ok (out, deadline) g)
    (hbatch : tryEach onPolled (round.batch out) ([], { s with group := g }) =
      .ok (.ok (), kept, t)) :
    Goes ⟨s.group, guards, pending⟩ .idle ⟨t.group, guards, pending⟩
      (if kept ≠ [] then .idle else .polling deadline) := by
  have hhandled : Goes ⟨g, guards, pending⟩ (.handling ⟨deadline, out, []⟩)
      ⟨t.group, guards, pending⟩ (.handling ⟨deadline, [], kept⟩) := by
    have hgoes : Goes ⟨g, guards, pending⟩
        (.handling ⟨deadline, (round.batch out).map Prod.fst ++ [], []⟩) ⟨t.group, guards, pending⟩
        (.handling ⟨deadline, [], kept⟩) := goes_batch hbatch []
    rwa [batch_map, List.append_nil] at hgoes
  have hfinished : Goes ⟨t.group, guards, pending⟩ (.handling ⟨deadline, [], kept⟩)
      ⟨t.group, guards, pending⟩ (if kept ≠ [] then .idle else .polling deadline) := by
    apply goes_step (a := .finish) (by simp)
    intro theirs
    simp only [Loop.World.next, Loop.World.finish]
    split <;> exact ⟨rfl, rfl⟩
  exact (goes_pollGroup hpoll).trans (hhandled.trans hfinished)

theorem goes_wake (deadline : Option Instant) : Goes b (.polling deadline) b .idle :=
  goes_step (a := .wake) (by simp) fun _ ↦ ⟨rfl, rfl⟩

theorem goes_mioPollOnce {polled : Except Io (List (IoEvent Config))}
    (h : mioPollOnce lib fromSlice polled s = .ok (r, s')) :
    Goes ⟨s.group, guards, pending⟩ (.polling deadline) ⟨s'.group, guards, pending⟩ .idle :=
  (goes_wake deadline).trans (goes_others (leads_mioPollOnce h) .idle)

theorem goes_turn {r : Option (Except Io (Option Instant))}
    (h : turn lib fromSlice round events s = .ok (r, events', s')) :
    Goes ⟨s.group, guards, pending⟩ .idle ⟨s'.group, guards, pending⟩ .idle := by
  obtain ⟨-, hturned⟩ := turned_of_ok h
  cases hturned with
  | @broken out deadline g err events' s' hpoll hbatch =>
    have hbroken : Goes ⟨g, guards, pending⟩
        (.handling ⟨deadline, (round.batch out).map Prod.fst, []⟩) ⟨s'.group, guards, pending⟩ .idle :=
      goes_batch_error hbatch
    rw [batch_map] at hbroken
    exact (goes_pollGroup hpoll).trans hbroken
  | @returned out deadline g kept s' hpoll hbatch =>
    have hround : Goes ⟨s.group, guards, pending⟩ .idle ⟨s'.group, guards, pending⟩ _ :=
      goes_round hpoll hbatch
    split at hround
    · exact hround
    · exact hround.trans (goes_wake deadline)
  | failed hpoll hbatch hio => exact (goes_round hpoll hbatch).trans (goes_mioPollOnce hio)
  | waited hpoll hbatch hio => exact (goes_round hpoll hbatch).trans (goes_mioPollOnce hio)

theorem goes_poll {r : Option (Except Io (Option Instant))}
    (h : poll lib fromSlice rounds events s = .ok (r, events', s')) :
    Goes ⟨s.group, guards, pending⟩ .idle ⟨s'.group, guards, pending⟩ .idle := by
  induction rounds generalizing events s with
  | nil =>
    cases h
    exact .refl _ _
  | cons round rounds ih =>
    obtain ⟨⟨r', kept, t⟩, hturn, h⟩ := bind_ok h
    cases r' with
    | none => exact (goes_turn hturn).trans (ih h)
    | some r' =>
      cases h
      exact goes_turn hturn

end Polls

section Runs

variable {laddrs : List SocketAddr}

/-- What a thread that has the group for itself does next: a call, or some rounds of `poll`. -/
inductive Action (Config : Type)
  | op (op : Op)
  | poll (rounds : List (Round Config))

def step (lib : Library Config) (fromSlice : Group.FromSlice) (s : State) :
    Action Config → Rust State
  | .op op => do
    let (_, s) ← s.run (attempt op)
    return s
  | .poll rounds => do
    let (_, _, s) ← poll lib fromSlice rounds [] s
    return s

def Allowed (_ : State) : Action Config → Prop
  | .op op => ∀ env, op ≠ .poll env
  | .poll _ => True

/-- After some rounds of `poll` another one gets to `mio_poll_once`, with this deadline. -/
def Waits (lib : Library Config) (fromSlice : Group.FromSlice) (rounds : List (Round Config))
    (round : Round Config) (s : State) (deadline : Option Instant) (t : State) : Prop :=
  ∃ u out g, poll lib fromSlice rounds [] s = .ok (none, [], u) ∧
    Group.poll [] round.polled u.group = .ok (out, deadline) g ∧
    tryEach onPolled (round.batch out) ([], { u with group := g }) = .ok (.ok (), [], t)

theorem goes_step_of_ok {a : Action Config} (ha : Allowed s a)
    (h : step lib fromSlice s a = .ok s') :
    Goes ⟨s.group, guards, pending⟩ .idle ⟨s'.group, guards, pending⟩ .idle := by
  cases a with
  | op op =>
    obtain ⟨⟨_, t⟩, hrun, h⟩ := bind_ok h
    obtain ⟨g, hattempt, rfl⟩ := run_ok hrun
    cases h
    exact goes_others (leads_attempt ha hattempt) .idle
  | poll rounds =>
    obtain ⟨⟨r, events, t⟩, hpoll, h⟩ := bind_ok h
    cases h
    exact goes_poll hpoll

/-- Whatever a single thread does with the calls of the group and with `poll`, with all the
datagrams that come in, is a run of the critical sections in which nobody interferes: the guards
are dropped and nothing is left half done whenever a call returns, and wherever `poll` waits for
mio, it does so there with the same deadline. -/
theorem single_thread_is_run (h : Run (step lib fromSlice) Allowed (.bind laddrs) s) :
    (∃ theirs, Run Loop.step Loop.Legal .initial ⟨⟨s.group, [], []⟩, .idle, theirs⟩) ∧
    ∀ rounds round deadline t, Waits lib fromSlice rounds round s deadline t →
      ∃ theirs, Run Loop.step Loop.Legal .initial ⟨⟨t.group, [], []⟩, .polling deadline, theirs⟩ := by
  have hgoes : Goes ⟨.new, [], []⟩ .idle ⟨s.group, [], []⟩ .idle := by
    apply h.invariant (P := fun s ↦ Goes ⟨.new, [], []⟩ .idle ⟨s.group, [], []⟩ .idle)
    · rw [State.bind, attaches_group]
      exact .refl _ _
    · intro s s' a hs ha hstep
      exact hs.trans (goes_step_of_ok ha hstep)
  refine ⟨hgoes [], fun rounds round deadline t hwaits ↦ ?_⟩
  obtain ⟨u, out, g, hpoll, hgroup, hbatch⟩ := hwaits
  exact hgoes.trans ((goes_poll hpoll).trans (goes_round hgroup hbatch)) []

def calm : Round Unit where
  polled := ⟨0, HashSet.listed, Peek.first⟩
  sends := fun _ ↦ ⟨0, .still, [], fun _ ↦ .ok ()⟩
  io := .ok []

def connected : State := { State.bind [address 1] with
  group := Poll.Operations.perform (State.bind [address 1]).group
    (.register (Script.connection ⟨false, [7], [], [], none⟩) .still) }

theorem single_thread_is_run_example :
    ∃ t theirs, Waits openLibrary firstPacket [calm] calm connected none t ∧
      .delivered sending ∈ t.group.state.history ∧
      Run Loop.step Loop.Legal .initial ⟨⟨t.group, [], []⟩, .polling none, theirs⟩ := by
  have hconnect : Run (step openLibrary firstPacket) Allowed (.bind [address 1]) connected :=
    .one (i := .op (.register (Script.connection ⟨false, [7], [], [], none⟩) .still))
      (fun _ h ↦ by cases h) rfl
  have hwaits : ∃ t, Waits openLibrary firstPacket [calm] calm connected none t ∧
      .delivered sending ∈ t.group.state.history := ⟨_, ⟨_, _, _, rfl, rfl, rfl⟩, by decide⟩
  obtain ⟨t, hwaits, hsent⟩ := hwaits
  obtain ⟨theirs, hrun⟩ := (single_thread_is_run hconnect).2 [calm] calm none t hwaits
  exact ⟨t, theirs, hwaits, hsent, hrun⟩

end Runs

end ZeroRtt.Mio.Sequential
