import ZeroRtt.Mio.Addressing
import ZeroRtt.Mio.Loop
import ZeroRtt.Poll.Recording

namespace ZeroRtt.Mio.Polling

open ZeroRtt.Lib.Panics ZeroRtt.Lib.Containers ZeroRtt.Lib.Runs
open ZeroRtt.Api.Types ZeroRtt.Api.Quiche ZeroRtt.Api.Handshakes
open ZeroRtt.Poll (Group Section)
open ZeroRtt.Poll.Conn (UnlockEnv)
open ZeroRtt.Poll.Schedule (PollEnv)
open ZeroRtt.Poll.ClosedOnce (DelaysSends accounted_new)
open ZeroRtt.Poll.Sections (leftBy)
open ZeroRtt.Poll.Accepting (openLibrary firstPacket)
open ZeroRtt.Poll.Chronicle (deliveredIn deliveredIn_append deliveredIn_delivered)
open ZeroRtt.Poll.Chronicle (Records carries_records)
open ZeroRtt.Poll.Recording
open ZeroRtt.Mio.Socket ZeroRtt.Mio.Receiving
open ZeroRtt.Mio.Addressing (address)
open ZeroRtt.Mio.Loop (insertedBetween insertedBetween_of_append)

variable {α Config : Type}

/-- What `on_quic_send` reads from outside. -/
structure Sending where
  now : Instant
  env : UnlockEnv
  written : Bytes
  os : System

/-- What a round of the loop of `poll` reads from outside: an answer for each event of its
batch that is a `Send`, and the one of the poller. -/
structure Round (Config : Type) where
  polled : PollEnv
  sends : ℕ → Sending
  io : Except Io (List (IoEvent Config))

def Round.batch (round : Round Config) (events : List Event) : List (Event × Sending) :=
  events.mapIdx fun i event ↦ (event, round.sends i)

def onQuicRecv (_ : Token) (s : State) : Rust (Except Io Unit × State) := return (.ok (), s)

/-- The body of the loop over the batch, with the events for the caller. -/
def onPolled (x : Event × Sending) (p : List Event × State) :
    Rust (Except Io Unit × List Event × State) := do
  let (event, sending) := x
  let (events, s) := p
  match event.kind with
  | .send =>
    let (r, s) ←
      onQuicSend event.token sending.now sending.env sending.written sending.os s
    return (r, events, s)
  | .recv =>
    let (r, s) ← onQuicRecv event.token s
    return (r, events, s)
  | _ => return (.ok (), events ++ [event], s)

/-- A round of the loop of `poll`, with what is returned if it is the last one. -/
def turn (lib : Library Config) (fromSlice : Group.FromSlice) (round : Round Config)
    (events : List Event) (s : State) :
    Rust (Option (Except Io (Option Instant)) × List Event × State) := do
  let ((events, _), s) ← s.run (Group.poll events round.polled)
  match ← tryEach onPolled (round.batch events) ([], s) with
  | (.error err, events, s) => return (some (.error err), events, s)
  | (.ok _, events, s) =>
    if events ≠ [] then
      return (some (.ok none), events, s)
    match ← mioPollOnce lib fromSlice round.io s with
    | (.error err, s) => return (some (.error err), events, s)
    | (.ok _, s) => return (none, events, s)

/-- `poll`, as far as some rounds take it. -/
def poll (lib : Library Config) (fromSlice : Group.FromSlice) :
    List (Round Config) → List Event → State →
      Rust (Option (Except Io (Option Instant)) × List Event × State)
  | [], events, s => return (none, events, s)
  | round :: rounds, events, s => do
    match ← turn lib fromSlice round events s with
    | (none, events, s) => poll lib fromSlice rounds events s
    | (some r, events, s) => return (some r, events, s)

/-- An event that `poll` hands to its caller. -/
def ForCaller (e : Event) : Prop := e.kind ≠ .send ∧ e.kind ≠ .recv

instance (e : Event) : Decidable (ForCaller e) := inferInstanceAs (Decidable (_ ∧ _))

def removedBetween (g g' : Group) : List Event :=
  deliveredIn (g'.state.history.drop g.state.history.length)

/-- On the way from one group to the other no event for the caller is taken out. -/
structure Quiet (g g' : Group) : Prop where
  delays : DelaysSends g.state.readiness → DelaysSends g'.state.readiness
  history : ∃ news, g'.state.history = g.state.history ++ news ∧
    ∀ e ∈ deliveredIn news, ¬ ForCaller e

/-- Every event for the caller that is taken out is in the caller's vector, or back in the
readiness, for the next `poll` to hand it out. -/
def Lossless (s : State) (events : List Event) (s' : State) : Prop :=
  ∀ e ∈ removedBetween s.group s'.group, ForCaller e →
    events.count e = 1 ∨ Redelivered s'.group e

variable {lib : Library Config} {fromSlice : Group.FromSlice} {s s' t : State}
variable {events events' : List Event}

section Records

theorem transmit_group {index : ℕ} {os : System} {buf : QuicBuf} {target : SocketAddr}
    {r : Except Io Unit} (h : transmit index os buf target s = .ok (r, s')) :
    s'.group = s.group := by
  obtain ⟨socket, -, h⟩ := bind_ok h
  obtain ⟨⟨sent, socket'⟩, -, h⟩ := bind_ok h
  rcases sent with (buf | err) | len
  · cases h
    rfl
  · cases h
    rfl
  · cases h
    rfl

theorem records_of_ok {x : Section α} {g g' : Group} (hx : ∀ g, Records g (leftBy (x g))) {a : α}
    (h : x g = .ok a g') : Records g g' := by
  have hg := hx g
  rwa [h] at hg

theorem records_passes {os : System} {S : Group → Prop} {r : Except Io Unit}
    (h : Passes os s S r s') (hS : ∀ g, S g → Records s.group g) : Records s.group s'.group := by
  cases h with
  | keeps g hg hs =>
    subst hs
    exact hS g hg
  | transmits g hg index buf target htransmit =>
    rw [transmit_group htransmit]
    exact hS g hg

theorem records_onQuicSend {token : Token} {now : Instant} {env : UnlockEnv} {written : Bytes}
    {os : System} {r : Except Io Unit}
    (h : onQuicSend token now env written os s = .ok (r, s')) : Records s.group s'.group := by
  apply records_passes (onQuicSend_passes h)
  rintro g ⟨sent, hsend⟩
  exact records_of_ok (operates_records.send token _ now env) hsend

theorem records_receive {index : ℕ} {d : Datagram Config} {r : Except Io Unit}
    (h : receive lib fromSlice index d s = .ok (r, s')) : Records s.group s'.group := by
  apply records_passes (receive_passes h)
  rintro g (rfl | ⟨buf, recvSize, info, unparker, env, answer, hserve⟩ |
    ⟨scid, buf, info, unparker, env, received, hrecv⟩)
  · exact carries_records.refl _
  · exact records_of_ok (records_recvWithAcceptor lib fromSlice buf recvSize info unparker env) hserve
  · exact records_of_ok (operates_records.recvWithConnectionId scid buf info unparker env) hrecv

theorem records_tryEach {ι : Type} {f : ι → State → Rust (Except Io Unit × State)}
    (hf : ∀ {i s r s'}, f i s = .ok (r, s') → Records s.group s'.group) {is : List ι}
    {r : Except Io Unit} (h : tryEach f is s = .ok (r, s')) : Records s.group s'.group :=
  tryEach_invariant (I := fun t ↦ Records s.group t.group) (carries_records.refl s.group)
    (fun _ _ _ _ _ ht hi ↦ ht.trans (hf hi)) h

theorem records_onUdpRecv {index : ℕ} {datagrams : List (Datagram Config)} {last : Io}
    {r : Except Io Unit} (h : onUdpRecv lib fromSlice index datagrams last s = .ok (r, s')) :
    Records s.group s'.group := by
  obtain ⟨socket, -, h⟩ := bind_ok h
  obtain ⟨⟨r', t⟩, hloop, h⟩ := bind_ok h
  have ht := records_tryEach records_receive hloop
  cases r' with
  | error err =>
    cases h
    exact ht
  | ok _ =>
    dsimp only at h
    split at h <;> cases h <;> exact ht

theorem records_onEvent {event : IoEvent Config} {r : Except Io Unit}
    (h : onEvent lib fromSlice event s = .ok (r, s')) : Records s.group s'.group := by
  unfold onEvent at h
  split at h
  · cases h
    exact carries_records.refl s.group
  · obtain ⟨⟨r', t⟩, hread, h⟩ := bind_ok h
    have ht : Records s.group t.group := by
      unfold onReadable at hread
      split at hread
      · exact records_onUdpRecv hread
      · cases hread
        exact carries_records.refl s.group
    cases r' with
    | error err =>
      cases h
      exact ht
    | ok _ =>
      dsimp only at h
      split at h
      · obtain ⟨socket, -, h⟩ := bind_ok h
        cases h
        exact ht
      · cases h
        exact ht

theorem records_mioPollOnce {polled : Except Io (List (IoEvent Config))} {r : Except Io Unit}
    (h : mioPollOnce lib fromSlice polled s = .ok (r, s')) : Records s.group s'.group := by
  cases polled with
  | error err =>
    cases h
    exact carries_records.refl s.group
  | ok events => exact records_tryEach records_onEvent h

end Records

section Batches

variable {batch : List (Event × Sending)} {x : Event × Sending} {p p' : List Event × State}

theorem onPolled_ok {r : Except Io Unit} (h : onPolled x p = .ok (r, p')) :
    Records p.2.group p'.2.group ∧ p'.1 = p.1 ++ [x.1].filter ForCaller := by
  obtain ⟨event, sending⟩ := x
  obtain ⟨events, s⟩ := p
  unfold onPolled at h
  dsimp only at h
  split at h
  next hkind =>
    obtain ⟨⟨r', t⟩, hsend, h⟩ := bind_ok h
    cases h
    exact ⟨records_onQuicSend hsend, by simp [ForCaller, hkind]⟩
  next hkind =>
    cases h
    exact ⟨carries_records.refl s.group, by simp [ForCaller, hkind]⟩
  next hsend hrecv =>
    cases h
    have hcaller : ForCaller event := ⟨hsend, hrecv⟩
    exact ⟨carries_records.refl s.group, by simp [hcaller]⟩

theorem onPolled_error {err : Io} (h : onPolled x p = .ok (.error err, p')) :
    x.1.kind = .send ∧ p'.1 = p.1 ∧ onQuicSend x.1.token x.2.now x.2.env x.2.written x.2.os p.2 =
      .ok (.error err, p'.2) := by
  obtain ⟨event, sending⟩ := x
  obtain ⟨events, s⟩ := p
  unfold onPolled at h
  dsimp only at h
  split at h
  next hkind =>
    obtain ⟨⟨r', t⟩, hsend, h⟩ := bind_ok h
    cases h
    exact ⟨hkind, rfl, hsend⟩
  · cases h
  · cases h

theorem onPolled_send {r : Except Io Unit} (hkind : x.1.kind = .send)
    (h : onQuicSend x.1.token x.2.now x.2.env x.2.written x.2.os p.2 = .ok (r, s')) :
    onPolled x p = .ok (r, p.1, s') := by
  obtain ⟨event, sending⟩ := x
  obtain ⟨events, s⟩ := p
  dsimp only at hkind h
  simp only [onPolled, hkind, h, ok_bind, pure_eq_ok]

theorem records_batch {r : Except Io Unit} (h : tryEach onPolled batch p = .ok (r, p')) :
    Records p.2.group p'.2.group :=
  tryEach_invariant (I := fun q ↦ Records p.2.group q.2.group) (carries_records.refl p.2.group)
    (fun _ _ _ _ _ hq hx ↦ hq.trans (onPolled_ok hx).1) h

theorem batch_kept (h : tryEach onPolled batch p = .ok (.ok (), p')) :
    p'.1 = p.1 ++ (batch.map Prod.fst).filter ForCaller := by
  induction batch generalizing p with
  | nil =>
    cases h
    exact (List.append_nil _).symm
  | cons x batch ih =>
    obtain ⟨q, hx, h⟩ := tryEach_cons_ok h
    rw [ih h, (onPolled_ok hx).2, List.append_assoc, ← List.filter_append]
    rfl

theorem batch_map (round : Round Config) (out : List Event) :
    (round.batch out).map Prod.fst = out := by
  apply List.ext_getElem?
  intro i
  simp [Round.batch, Function.comp_def]

end Batches

section Quietness

variable {g g' g'' : Group}

theorem Quiet.trans (h : Quiet g g') (h' : Quiet g' g'') : Quiet g g'' := by
  obtain ⟨xs, hhistory, hxs⟩ := h.history
  obtain ⟨ys, hhistory', hys⟩ := h'.history
  refine ⟨fun hdelays ↦ h'.delays (h.delays hdelays), xs ++ ys, ?_, fun e he ↦ ?_⟩
  · rw [hhistory', hhistory, List.append_assoc]
  · rw [deliveredIn_append] at he
    exact (List.mem_append.mp he).elim (hxs e) (hys e)

theorem quiet_of_records (h : Records g g') : Quiet g g' := by
  obtain ⟨news, hhistory, hnone, -⟩ := id h
  refine ⟨delays_of_records h, news, hhistory, fun e he ↦ ?_⟩
  rw [hnone] at he
  cases he

theorem quiet_of_poll {env : PollEnv} {out : List Event} {deadline : Option Instant}
    (hpoll : Group.poll [] env g = .ok (out, deadline) g') (hout : ∀ e ∈ out, ¬ ForCaller e) :
    Quiet g g' := by
  refine ⟨fun hdelays ↦ (emptied_of_poll hdelays hpoll).delays, out.map .delivered, ?_, ?_⟩
  · exact history_of_poll hpoll
  · rwa [deliveredIn_delivered]

theorem removedBetween_of_append {news : List Poll.Happening}
    (h : g'.state.history = g.state.history ++ news) : removedBetween g g' = deliveredIn news := by
  rw [removedBetween, h, List.drop_left]

theorem Quiet.lossless (h : Quiet s.group s'.group) : Lossless s events s' := by
  obtain ⟨news, hhistory, hnews⟩ := h.history
  intro e he hcaller
  rw [removedBetween_of_append hhistory] at he
  exact absurd hcaller (hnews e he)

theorem Quiet.lossless_iff (h : Quiet s.group t.group)
    (hmore : ∃ more, s'.group.state.history = t.group.state.history ++ more) :
    Lossless s events s' ↔ Lossless t events s' := by
  obtain ⟨news, hhistory, hnews⟩ := h.history
  obtain ⟨more, hmore⟩ := hmore
  have hwhole : s'.group.state.history = s.group.state.history ++ (news ++ more) := by
    rw [hmore, hhistory, List.append_assoc]
  unfold Lossless
  rw [removedBetween_of_append hwhole, removedBetween_of_append hmore, deliveredIn_append]
  constructor
  · intro hall e he
    exact hall e (List.mem_append_right _ he)
  · intro hall e he hcaller
    cases List.mem_append.mp he with
    | inl hnew => exact absurd hcaller (hnews e hnew)
    | inr he => exact hall e he hcaller

end Quietness

section Rounds

variable {round : Round Config} {rounds : List (Round Config)} {g : Group}
variable {r : Option (Except Io (Option Instant))} {out kept after : List Event}
variable {deadline : Option Instant} {err : Io}

inductive Turned (lib : Library Config) (fromSlice : Group.FromSlice) (round : Round Config)
    (s : State) : Option (Except Io (Option Instant)) → List Event → State → Prop
  | broken {out : List Event} {deadline : Option Instant} {g : Group} {err : Io}
      {events : List Event} {s' : State}
      (hpoll : Group.poll [] round.polled s.group = .ok (out, deadline) g)
      (hbatch : tryEach onPolled (round.batch out) ([], { s with group := g }) =
        .ok (.error err, events, s')) : Turned lib fromSlice round s (some (.error err)) events s'
  | returned {out : List Event} {deadline : Option Instant} {g : Group} {events : List Event}
      {s' : State} (hpoll : Group.poll [] round.polled s.group = .ok (out, deadline) g)
      (hbatch : tryEach onPolled (round.batch out) ([], { s with group := g }) =
        .ok (.ok (), events, s')) : Turned lib fromSlice round s (some (.ok none)) events s'
  | failed {out : List Event} {deadline : Option Instant} {g : Group} {err : Io} {t s' : State}
      (hpoll : Group.poll [] round.polled s.group = .ok (out, deadline) g)
      (hbatch : tryEach onPolled (round.batch out) ([], { s with group := g }) =
        .ok (.ok (), [], t)) (hio : mioPollOnce lib fromSlice round.io t = .ok (.error err, s')) :
      Turned lib fromSlice round s (some (.error err)) [] s'
  | waited {out : List Event} {deadline : Option Instant} {g : Group} {t s' : State}
      (hpoll : Group.poll [] round.polled s.group = .ok (out, deadline) g)
      (hbatch : tryEach onPolled (round.batch out) ([], { s with group := g }) =
        .ok (.ok (), [], t)) (hio : mioPollOnce lib fromSlice round.io t = .ok (.ok (), s')) :
      Turned lib fromSlice round s none [] s'

theorem turned_of_ok (hturn : turn lib fromSlice round events s = .ok (r, events', s')) :
    events = [] ∧ Turned lib fromSlice round s r events' s' := by
  obtain ⟨⟨⟨out, deadline⟩, t⟩, hrun, h⟩ := bind_ok hturn
  obtain ⟨g, hpoll, rfl⟩ := run_ok hrun
  obtain rfl := eq_nil_of_poll hpoll
  refine ⟨rfl, ?_⟩
  obtain ⟨⟨r', kept, t⟩, hbatch, h⟩ := bind_ok h
  cases r' with
  | error err =>
    cases h
    exact .broken hpoll hbatch
  | ok _ =>
    dsimp only at h
    split at h
    · cases h
      exact .returned hpoll hbatch
    next hkept =>
      obtain rfl := not_not.mp hkept
      obtain ⟨⟨r', u⟩, hio, h⟩ := bind_ok h
      cases r' with
      | error err =>
        cases h
        exact .failed hpoll hbatch hio
      | ok _ =>
        cases h
        exact .waited hpoll hbatch hio

theorem quiet_of_batch (hpoll : Group.poll [] round.polled s.group = .ok (out, deadline) g)
    (hbatch : tryEach onPolled (round.batch out) ([], { s with group := g }) = .ok (.ok (), [], t))
    (hio : Records t.group s'.group) : Quiet s.group s'.group := by
  have hkept := batch_kept hbatch
  rw [batch_map, List.nil_append] at hkept
  have hout : ∀ e ∈ out, ¬ ForCaller e := by simpa using List.filter_eq_nil_iff.mp hkept.symm
  exact (quiet_of_poll hpoll hout).trans (quiet_of_records ((records_batch hbatch).trans hio))

theorem turn_quiet (h : turn lib fromSlice round events s = .ok (none, events', s')) :
    events' = [] ∧ Quiet s.group s'.group := by
  obtain ⟨-, hturned⟩ := turned_of_ok h
  cases hturned with
  | waited hpoll hbatch hio => exact ⟨rfl, quiet_of_batch hpoll hbatch (records_mioPollOnce hio)⟩

theorem poll_cons (h : turn lib fromSlice round events s = .ok (none, events', t)) :
    poll lib fromSlice (round :: rounds) events s = poll lib fromSlice rounds events' t := by
  rw [poll, h, ok_bind]

theorem poll_append {rest : List (Round Config)}
    (h : poll lib fromSlice rounds events s = .ok (none, events', t)) :
    poll lib fromSlice (rounds ++ rest) events s = poll lib fromSlice rest events' t := by
  induction rounds generalizing events s with
  | nil =>
    cases h
    rfl
  | cons round rounds ih =>
    obtain ⟨⟨r, kept, u⟩, hturn, h⟩ := bind_ok h
    cases r with
    | some r => cases h
    | none => rw [List.cons_append, poll_cons hturn, ih h]

theorem poll_cons_some {r : Except Io (Option Instant)}
    (h : turn lib fromSlice round events s = .ok (some r, events', t)) (rest : List (Round Config)) :
    poll lib fromSlice (round :: rest) events s = .ok (some r, events', t) := by
  rw [poll, h, ok_bind]
  rfl

theorem poll_quiet (h : poll lib fromSlice rounds events s = .ok (none, events', t)) :
    Quiet s.group t.group := by
  induction rounds generalizing events s with
  | nil =>
    cases h
    exact quiet_of_records (carries_records.refl _)
  | cons round rounds ih =>
    obtain ⟨⟨r, kept, u⟩, hturn, h⟩ := bind_ok h
    cases r with
    | some r => cases h
    | none => exact (turn_quiet hturn).2.trans (ih h)

theorem poll_returned {r : Except Io (Option Instant)}
    (h : poll lib fromSlice rounds events s = .ok (some r, events', s')) :
    events = [] ∧ ∃ earlier round later t, rounds = earlier ++ round :: later ∧
      poll lib fromSlice earlier [] s = .ok (none, [], t) ∧
        turn lib fromSlice round [] t = .ok (some r, events', s') := by
  induction rounds generalizing events s with
  | nil => cases h
  | cons round rounds ih =>
    obtain ⟨⟨r', kept, u⟩, hturn, h⟩ := bind_ok h
    obtain ⟨rfl, -⟩ := turned_of_ok hturn
    refine ⟨rfl, ?_⟩
    cases r' with
    | some r' =>
      cases h
      exact ⟨[], round, rounds, s, rfl, rfl, hturn⟩
    | none =>
      obtain ⟨rfl, earlier, last, later, t, heq, hearlier, hlast⟩ := ih h
      refine ⟨round :: earlier, last, later, t, ?_, ?_, hlast⟩
      · rw [heq, List.cons_append]
      · rwa [poll_cons hturn]

end Rounds

section Breaking

variable {round : Round Config} {rounds : List (Round Config)} {g : Group}
variable {r : Option (Except Io (Option Instant))} {out kept after : List Event}
variable {deadline : Option Instant} {err : Io}

/-- A round that ends with an error of `on_quic_send`: the group from which the batch was
taken, the events of the batch that are kept, those that are not visited, and the state in
the end. -/
inductive Breaks (round : Round Config) (s : State) : Group → List Event → List Event → State → Prop
  | intro {out : List Event} {deadline : Option Instant} {g : Group}
      {before after : List (Event × Sending)} {event : Event} {sending : Sending}
      {kept : List Event} {t : State} {err : Io} {s' : State}
      (hpoll : Group.poll [] round.polled s.group = .ok (out, deadline) g)
      (hbatch : round.batch out = before ++ (event, sending) :: after)
      (hbefore : tryEach onPolled before ([], { s with group := g }) = .ok (.ok (), kept, t))
      (hkind : event.kind = .send)
      (hsend : onQuicSend event.token sending.now sending.env sending.written sending.os t =
        .ok (.error err, s')) : Breaks round s g kept (after.map Prod.fst) s'

/-- Behind a `Send` that fails there is nothing for the caller but what a connection has
inserted again since the batch was taken. -/
def Unlost (lib : Library Config) (fromSlice : Group.FromSlice) (rounds : List (Round Config))
    (s : State) : Prop :=
  ∀ earlier round later t g kept after s', rounds = earlier ++ round :: later →
    poll lib fromSlice earlier [] s = .ok (none, [], t) → Breaks round t g kept after s' →
      ∀ e ∈ after, ForCaller e → e ∈ insertedBetween g s'.group

theorem breaks_of_batch (hpoll : Group.poll [] round.polled s.group = .ok (out, deadline) g)
    (h : tryEach onPolled (round.batch out) ([], { s with group := g }) =
      .ok (.error err, events, s')) : ∃ after, Breaks round s g events after s' := by
  obtain ⟨before, ⟨event, sending⟩, after, ⟨kept, t⟩, hbatch, hbefore, hfails⟩ := tryEach_error h
  obtain ⟨hkind, rfl, hsend⟩ := onPolled_error hfails
  exact ⟨_, .intro hpoll hbatch hbefore hkind hsend⟩

theorem Breaks.turn_eq (h : Breaks round s g kept after s') (lib : Library Config)
    (fromSlice : Group.FromSlice) :
    ∃ err, turn lib fromSlice round [] s = .ok (some (.error err), kept, s') := by
  cases h with
  | @intro out deadline g before after event sending kept t err s' hpoll hbatch hbefore hkind hsend =>
    have hloop : tryEach onPolled (round.batch out) ([], { s with group := g }) =
        .ok (.error err, kept, s') := by
      rw [hbatch]
      exact tryEach_of_error hbefore (onPolled_send hkind hsend)
    exact ⟨err, by simp only [turn, run_of_ok hpoll, ok_bind, hloop, pure_eq_ok]⟩

section Emptied

variable {g₀ g' : Group} {e : Event} {before later : List Event} {event : Event}

theorem redelivered_iff_inserted (h : Emptied g₀ out g) (hrecords : Records g g')
    (hcaller : ForCaller e) : Redelivered g' e ↔ e ∈ insertedBetween g g' := by
  rw [redelivered_iff (delays_of_records hrecords h.delays) hcaller.1]
  obtain ⟨news, hhistory, -, hreadiness, hnews⟩ := hrecords
  rw [insertedBetween_of_append hhistory, hreadiness, mem_foldl_iff hnews hcaller.1, h.empty]
  simp

theorem removedBetween_of_emptied (h : Emptied g₀ out g) (hrecords : Records g g') :
    removedBetween g₀ g' = out := by
  obtain ⟨news, hhistory, hnone, -⟩ := hrecords
  rw [h.history, List.append_assoc] at hhistory
  rw [removedBetween_of_append hhistory, deliveredIn_append, deliveredIn_delivered, hnone,
    List.append_nil]

theorem count_around_send (h : Emptied g₀ (before ++ event :: later) g) (hkind : event.kind = .send)
    (he : e ∈ before ++ event :: later) (hcaller : ForCaller e) :
    before.count e + later.count e = 1 := by
  have hne : event ≠ e := by
    rintro rfl
    exact hcaller.1 hkind
  have hone := h.count e hcaller.1
  have hpos := List.count_pos_iff.mpr he
  rw [List.count_append, List.count_cons_of_ne hne] at hone hpos
  split at hone <;> omega

end Emptied

theorem Breaks.lossless_iff (h : Breaks round s g kept after s')
    (hdelays : DelaysSends s.group.state.readiness) :
    Lossless s kept s' ↔ ∀ e ∈ after, ForCaller e → e ∈ insertedBetween g s'.group := by
  cases h with
  | @intro out deadline g before after event sending kept t err s' hpoll hbatch hbefore hkind hsend =>
    have hout : out = before.map Prod.fst ++ event :: after.map Prod.fst := by
      rw [← batch_map round out, hbatch, List.map_append, List.map_cons]
    have hemptied := emptied_of_poll hdelays hpoll
    have hrecords : Records g s'.group := (records_batch hbefore).trans (records_onQuicSend hsend)
    have hkept : kept = (before.map Prod.fst).filter ForCaller := batch_kept hbefore
    have hvisited : ∀ e, ForCaller e → kept.count e = (before.map Prod.fst).count e := by
      intro e hcaller
      rw [hkept, List.count_filter (by simpa using hcaller)]
    unfold Lossless
    rw [removedBetween_of_emptied hemptied hrecords]
    rw [hout] at hemptied ⊢
    constructor
    · intro hall e he hcaller
      have hmem := List.mem_append_right (before.map Prod.fst) (List.mem_cons_of_mem event he)
      have hone := count_around_send hemptied hkind hmem hcaller
      have hpos := List.count_pos_iff.mpr he
      rcases hall e hmem hcaller with hin | hagain
      · rw [hvisited e hcaller] at hin
        omega
      · exact (redelivered_iff_inserted hemptied hrecords hcaller).mp hagain
    · intro hall e he hcaller
      by_cases hafter : e ∈ after.map Prod.fst
      · apply Or.inr
        exact (redelivered_iff_inserted hemptied hrecords hcaller).mpr (hall e hafter hcaller)
      · have hone := count_around_send hemptied hkind he hcaller
        rw [List.count_eq_zero.mpr hafter] at hone
        exact .inl ((hvisited e hcaller).trans hone)

theorem turn_history {r : Except Io (Option Instant)}
    (h : turn lib fromSlice round [] s = .ok (some r, events, s')) :
    ∃ more, s'.group.state.history = s.group.state.history ++ more := by
  obtain ⟨-, hturned⟩ := turned_of_ok h
  have hbatch : ∀ {out deadline g t}, Group.poll [] round.polled s.group = .ok (out, deadline) g →
      Records g t → ∃ more, t.state.history = s.group.state.history ++ more := by
    intro out deadline g t hpoll hrecords
    obtain ⟨news, hhistory, -⟩ := hrecords
    rw [history_of_poll hpoll, List.append_assoc] at hhistory
    exact ⟨_, hhistory⟩
  cases hturned with
  | broken hpoll hloop => exact hbatch hpoll (records_batch hloop)
  | returned hpoll hloop => exact hbatch hpoll (records_batch hloop)
  | failed hpoll hloop hio =>
    exact hbatch hpoll ((records_batch hloop).trans (records_mioPollOnce hio))

end Breaking

section Runs

theorem attaches_group (laddrs : List SocketAddr) (s : State) :
    (laddrs.foldl State.attach s).group = s.group := by
  induction laddrs generalizing s with
  | nil => rfl
  | cons laddr laddrs ih => exact ih (s.attach laddr)

theorem delays_of_run {laddrs : List SocketAddr}
    (h : Run (step lib fromSlice) Anything (.bind laddrs) s) :
    DelaysSends s.group.state.readiness := by
  refine h.invariant (P := fun s ↦ DelaysSends s.group.state.readiness) ?_ ?_
  · rw [State.bind, attaches_group]
    exact accounted_new.delays
  · intro s s' a hs _ hstep
    cases a with
    | op op =>
      cases hstep
      by_cases hpoll : ∃ env, op = .poll env
      · obtain ⟨env, rfl⟩ := hpoll
        obtain ⟨out, deadline, g, hpoll⟩ := poll_returns env s.group
        simp only [Poll.Operations.perform, hpoll, leftBy]
        exact (emptied_of_poll hs hpoll).delays
      · push Not at hpoll
        exact delays_of_records (records_perform hpoll s.group) hs
    | onQuicSend token now env written os =>
      obtain ⟨⟨r, t⟩, hrun, hstep⟩ := bind_ok hstep
      cases hstep
      exact delays_of_records (records_onQuicSend hrun) hs
    | mioPollOnce polled =>
      obtain ⟨⟨r, t⟩, hrun, hstep⟩ := bind_ok hstep
      cases hstep
      exact delays_of_records (records_mioPollOnce hrun) hs

/-- A poll that returns an error, from a state that the thread can reach, has lost no event
iff nothing for the caller stands behind the `Send` that fails, except what a connection
has inserted again. -/
theorem poll_lossless_iff (lib : Library Config) (fromSlice : Group.FromSlice)
    (laddrs : List SocketAddr) {s s' : State}
    (hrun : Run (step lib fromSlice) Anything (.bind laddrs) s) (rounds : List (Round Config))
    (events : List Event) {err : Io} {events' : List Event}
    (hpoll : poll lib fromSlice rounds events s = .ok (some (.error err), events', s')) :
    Lossless s events' s' ↔ Unlost lib fromSlice rounds s := by
  have hdelays := delays_of_run hrun
  obtain ⟨rfl, earlier, last, later, t, heq, hearlier, hlast⟩ := poll_returned hpoll
  constructor
  · intro hlossless before round rest u g kept after s'' heq' hbefore hbreaks
    obtain ⟨err', hturn⟩ := hbreaks.turn_eq lib fromSlice
    have hquiet := poll_quiet hbefore
    have hwhole : poll lib fromSlice rounds [] s = .ok (some (.error err'), kept, s'') := by
      rw [heq', poll_append hbefore, poll_cons_some hturn]
    cases hwhole.symm.trans hpoll
    apply (hbreaks.lossless_iff (hquiet.delays hdelays)).mp
    exact (hquiet.lossless_iff (turn_history hturn)).mp hlossless
  · intro hunlost
    have hquiet := poll_quiet hearlier
    rw [hquiet.lossless_iff (turn_history hlast)]
    obtain ⟨-, hturned⟩ := turned_of_ok hlast
    cases hturned with
    | broken hgroup hbatch =>
      obtain ⟨after, hbreaks⟩ := breaks_of_batch hgroup hbatch
      apply (hbreaks.lossless_iff (hquiet.delays hdelays)).mpr
      exact hunlost earlier last later t _ _ after s' heq hearlier hbreaks
    | failed hgroup hbatch hio =>
      exact (quiet_of_batch hgroup hbatch (records_mioPollOnce hio)).lossless

end Runs

section Examples

def opened : Connection :=
  let script := Script.connection ⟨false, [7], [1], [], none⟩
  { script with
    answer := fun h c ↦
      match c with
      | .send len =>
        if .send len ∈ h then .error .done else .ok (1200, ⟨address 2, address 9, 0⟩)
      | c => script.answer h c }

def streaming : State := { State.bind [address 1, address 2] with
  group := Poll.Operations.perform (State.bind [address 1, address 2]).group (.register opened .still) }

theorem run_streaming :
    Run (step openLibrary firstPacket) Anything (.bind [address 1, address 2]) streaming :=
  .one (i := .op (.register opened .still)) trivial rfl

def broken : Io := ⟨.other, .inl ""⟩

def refusing (order : HashSet.Order Event) : Round Unit where
  polled := ⟨0, order, Peek.first⟩
  sends := fun _ ↦ ⟨0, .still, [], fun _ ↦ .error broken⟩
  io := .ok []

def lastFirst : HashSet.Order Event := fun s ↦ ⟨s.toList.reverse, List.reverse_perm _⟩

def accepted : Event := ⟨⟨0⟩, .streamAccept, false, false, 1⟩

def sending : Event := ⟨⟨0⟩, .send, false, false, 0⟩

theorem poll_lossless_iff_example :
    Unlost openLibrary firstPacket [refusing lastFirst] streaming := by
  have hpoll : ∃ s', poll openLibrary firstPacket [refusing lastFirst] [] streaming =
      .ok (some (.error broken), [accepted], s') ∧
        removedBetween streaming.group s'.group = [accepted, sending] := ⟨_, rfl, rfl⟩
  obtain ⟨s', hpoll, hremoved⟩ := hpoll
  apply (poll_lossless_iff openLibrary firstPacket _ run_streaming _ [] hpoll).mp
  intro e he hcaller
  rw [hremoved] at he
  rcases List.mem_cons.mp he with rfl | he
  · exact .inl rfl
  · obtain rfl := List.mem_singleton.mp he
    exact absurd rfl hcaller.1

/-- With the stream behind the `Send`, nobody hears of it. -/
theorem poll_loses_stream :
    ∃ s', Run (step openLibrary firstPacket) Anything (.bind [address 1, address 2]) streaming ∧
      poll openLibrary firstPacket [refusing HashSet.listed] [] streaming =
        .ok (some (.error broken), [], s') ∧
      removedBetween streaming.group s'.group = [sending, accepted] ∧
      s'.group.state.readiness.events.toList = [sending] ∧ ¬ Lossless streaming [] s' := by
  refine ⟨_, run_streaming, rfl, rfl, rfl, fun hlossless ↦ ?_⟩
  rcases hlossless accepted (List.mem_cons_of_mem _ (List.mem_singleton_self _)) (by decide) with
    hkept | hagain
  · cases hkept
  · have hone := hagain ⟨0, HashSet.listed, Peek.first⟩ _ _ _ rfl
    cases hone

end Examples

end ZeroRtt.Mio.Polling
