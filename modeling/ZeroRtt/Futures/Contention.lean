import ZeroRtt.Futures.Layers

namespace ZeroRtt.Futures.Contention

open ZeroRtt.Lib.Panics ZeroRtt.Lib.Containers ZeroRtt.Lib.Runs ZeroRtt.Futures ZeroRtt.Futures.Layers
open ZeroRtt.Poll (Group Section)
open ZeroRtt.Poll.Conn (LocKind Ctx)
open ZeroRtt.Poll.Owing ZeroRtt.Poll.Minding
open ZeroRtt.Poll.Sections (Named leftBy leftBy_bind)
open ZeroRtt.Poll.Walks (Carries)
open ZeroRtt.Poll.Schedule (Readiness PollEnv)
open ZeroRtt.Api.Types (Token Poll StreamKind Error EventKind)
open ZeroRtt.Api.Quiche (Script)
open ZeroRtt.Futures.Tasks (Op Reply begun_eq)

variable {α : Type} {w : World} {g g' : Group} {x : Refusal} {p : Polling}

section Refusals

def Announces (x : Refusal) (e : Api.Types.Event) : Prop :=
  Reports x.poll.token e x.poll.request.kind ∨ e.kind = .closed ∧ e.token = x.poll.token

def Recorded (w : World) (x : Refusal) : Prop :=
  ∃ c, w.group.state.conns.lookup x.poll.token = some c ∧ x.poll.request.kind ∈ c.reties

def Announced (w : World) (x : Refusal) : Prop :=
  ∃ e, (e ∈ w.group.state.readiness.events ∨ e ∈ w.batch) ∧ Announces x e

/-- Since the refusal quiche has said that there is no room in the stream, and has
not reported it as writable. -/
def Owed (w : World) (x : Refusal) : Prop :=
  ∃ c, w.group.state.conns.lookup x.poll.token = some c ∧
    Owes x.mark c.wrapped x.poll.request.kind

def Woken (w : World) (x : Refusal) : Prop := x.poll.waker ∈ w.state.woken.drop x.poll.seen

def Minded (g : Group) (batch : List Api.Types.Event) (x : Refusal) : Prop :=
  (∃ c, g.state.conns.lookup x.poll.token = some c ∧ x.mark ≤ c.wrapped.history.length ∧
    (x.poll.request.kind ∈ c.reties ∨ Owes x.mark c.wrapped x.poll.request.kind)) ∨
  ∃ e, (e ∈ g.state.readiness.events ∨ e ∈ batch) ∧ Announces x e

theorem named_of_watches (h : Named g) (hwatches : Watches g g') : Named g' := by
  intro token c hc
  rcases hwatches.keyed token c hc with heq | ⟨c', hc', heq⟩
  · exact heq
  · exact heq.trans (h token c' hc')

theorem Announces.kind_ne {e : Api.Types.Event} (h : Announces x e) :
    e.kind ≠ .send ∧ e.kind ≠ .recv := by
  rcases h with h | ⟨hkind, -⟩
  · cases hreq : x.poll.request with
    | openStream kind nonBlocking =>
      rw [hreq] at h
      cases kind <;> simp [h.2, Ctx.streamOpenEvent]
    | send id buf fin =>
      rw [hreq] at h
      simp [h.2.1]
    | recv id len =>
      rw [hreq] at h
      simp [h.2.1]
  · simp [hkind]

theorem polled_kind (r : Request) : Polled r.kind := by
  cases r <;> trivial

theorem Minded.watches {batch : List Api.Types.Event} (h : Minded g batch x) (hnamed : Named g)
    (hwatches : Watches g g') : Minded g' batch x := by
  have hkeeps : ∀ e, (e ∈ g.state.readiness.events ∨ e ∈ batch) → Announces x e →
      e ∈ g'.state.readiness.events ∨ e ∈ batch := by
    intro e he hannounces
    exact he.imp_left (hwatches.keeps e hannounces.kind_ne.1)
  rcases h with ⟨c, hc, hmark, hcare⟩ | ⟨e, he, hannounces⟩
  · have htoken := hnamed _ c hc
    rcases hwatches.conns _ c hc with ⟨c', hc', hfollows⟩ | ⟨e, he, hclosed, hetoken⟩
    · obtain ⟨calls, hcalls⟩ := hfollows.wrapped
      have hle : c.wrapped.history.length ≤ c'.wrapped.history.length := by
        rw [show c'.wrapped = c.wrapped.after calls from hcalls]
        exact length_history_after _ _
      have hreported : (∃ e ∈ g'.state.readiness.events,
          Reports c.token e x.poll.request.kind) → Minded g' batch x := by
        rintro ⟨e, he, hreports⟩
        rw [htoken] at hreports
        exact .inr ⟨e, .inl he, .inl hreports⟩
      rcases hcare with hreties | howes
      · rcases hfollows.minded _ hreties (polled_kind _) with hreties | hreports | howes
        · exact .inl ⟨c', hc', hmark.trans hle, .inl hreties⟩
        · exact hreported hreports
        · exact .inl ⟨c', hc', hmark.trans hle, .inr (howes.mono hmark)⟩
      · rcases hfollows.owed _ _ howes with howes | hreports
        · exact .inl ⟨c', hc', hmark.trans hle, .inr howes⟩
        · exact hreported hreports
    · exact .inr ⟨e, .inl he, .inr ⟨hclosed, hetoken.trans htoken⟩⟩
  · exact .inr ⟨e, hkeeps e he hannounces, hannounces⟩

theorem concerns_of_announces {e : Api.Types.Event} (h : Announces x e) :
    State.Concerns e x.poll.key := by
  unfold State.Concerns Polling.key
  rcases h with h | ⟨hkind, htoken⟩
  · cases hreq : x.poll.request with
    | openStream kind nonBlocking =>
      rw [hreq] at h
      obtain ⟨htoken, hkind⟩ := h
      cases kind <;> rw [hkind, htoken] <;> rfl
    | send id buf fin =>
      rw [hreq] at h
      obtain ⟨htoken, hkind, hid⟩ := h
      rw [hkind, htoken, hid]
      rfl
    | recv id len =>
      rw [hreq] at h
      obtain ⟨htoken, hkind, hid⟩ := h
      rw [hkind, htoken, hid]
      rfl
  · rw [hkind, htoken]
    exact ⟨_, rfl⟩

end Refusals

section Soundness

def Expected (e : Api.Types.Event) : Prop :=
  e.kind ≠ .send ∧ e.kind ≠ .recv ∧ e.kind ≠ .readLock

/-- The wakers of the polls are in their places or were woken, and the refused
ones are woken or minded. -/
structure Sound (w : World) : Prop where
  named : Named w.group
  quiet : Quiet w.group
  batch : ∀ e ∈ w.batch, Expected e
  polls : ∀ k p, w.polls.lookup k = some p →
    k = p.key ∧ w.state.Attended k p.waker p.seen ∧ w.refused.lookup k = none
  refused : ∀ k x, w.refused.lookup k = some x →
    k = x.poll.key ∧ w.state.Attended k x.poll.waker x.poll.seen ∧
      (Woken w x ∨ Minded w.group w.batch x)

theorem sound_initial : Sound .initial := by
  refine ⟨?_, ⟨⟨?_, ?_⟩, ?_⟩, ?_, ?_, ?_⟩
  · intro token c hc
    cases hc
  · intro e he
    cases he
  · intro e d hd
    cases hd
  · intro token c hc
    cases hc
  · intro e he
    cases he
  · intro k p hp
    cases hp
  · intro k x hx
    cases hx

theorem Sound.group (h : Sound w) (hwatches : Watches w.group g) : Sound { w with group := g } := by
  refine ⟨named_of_watches h.named hwatches, hwatches.quiet h.quiet, h.batch, h.polls, ?_⟩
  intro k x hx
  obtain ⟨hk, hattended, hcare⟩ := h.refused k x hx
  exact ⟨hk, hattended, hcare.imp_right fun hminded ↦ hminded.watches h.named hwatches⟩

theorem Sound.state {key : Key} {s : State} (h : Sound w) (hspares : w.state.Spares key s)
    (hpolls : w.polls.lookup key = none) (hrefused : w.refused.lookup key = none) :
    Sound { w with state := s } := by
  refine ⟨h.named, h.quiet, h.batch, ?_, ?_⟩
  · intro k p hp
    obtain ⟨hk, hattended, hnone⟩ := h.polls k p hp
    refine ⟨hk, hattended.spares hspares ?_, hnone⟩
    rintro rfl
    rw [hpolls] at hp
    cases hp
  · intro k x hx
    obtain ⟨hk, hattended, hcare⟩ := h.refused k x hx
    refine ⟨hk, hattended.spares hspares ?_, hcare.imp_left ?_⟩
    · rintro rfl
      rw [hrefused] at hx
      cases hx
    · exact hspares.woken_mem hattended.seen_le

theorem Sound.lookup_none {key : Key} (h : Sound w) (hkey : ∀ p : Polling, p.key ≠ key) :
    w.polls.lookup key = none ∧ w.refused.lookup key = none := by
  refine ⟨?_, ?_⟩
  · by_contra hne
    obtain ⟨p, hp⟩ := Option.ne_none_iff_exists'.mp hne
    exact hkey p (h.polls key p hp).1.symm
  · by_contra hne
    obtain ⟨x, hx⟩ := Option.ne_none_iff_exists'.mp hne
    exact hkey x.poll (h.refused key x hx).1.symm

theorem Sound.elsewhere {key : Key} {s : State} (h : Sound w) (hspares : w.state.Spares key s)
    (hkey : ∀ p : Polling, p.key ≠ key) : Sound { w with state := s } := by
  obtain ⟨hpolls, hrefused⟩ := h.lookup_none hkey
  exact h.state hspares hpolls hrefused

theorem Sound.guards (h : Sound w) (guards : List _) : Sound { w with guards } :=
  ⟨h.named, h.quiet, h.batch, h.polls, h.refused⟩

theorem Sound.leave (h : Sound w) (p : Polling) : Sound (w.leave p) := by
  refine ⟨h.named, h.quiet, h.batch, ?_, h.refused⟩
  intro k p' hp'
  apply h.polls k p'
  by_cases hk : k = p.key
  · rw [hk, World.leave, AList.lookup_erase] at hp'
    cases hp'
  · rwa [World.leave, AList.lookup_erase_ne hk] at hp'

theorem Sound.advance (h : Sound w) (hattended : w.state.Attended p.key p.waker p.seen)
    (hnone : w.refused.lookup p.key = none) (stage : Stage) : Sound (w.advance p stage) := by
  refine ⟨h.named, h.quiet, h.batch, ?_, h.refused⟩
  intro k p' hp'
  by_cases hk : k = p.key
  · subst hk
    rw [World.advance, AList.lookup_insert] at hp'
    cases hp'
    exact ⟨rfl, hattended, hnone⟩
  · rw [World.advance, AList.lookup_insert_ne hk] at hp'
    exact h.polls k p' hp'

theorem finishPoll_busy {s t : State} {token : Token} {event : Event}
    {result : Poll (Except Io Reply)}
    (h : s.finishPoll token event ((.error .busy : Except Error Reply).mapError Io.ofError) =
      .ok (result, t)) : t = s := by
  cases h
  rfl

theorem Sound.conclude (h : Sound w) (hattended : w.state.Attended p.key p.waker p.seen)
    (hnone : w.refused.lookup p.key = none) {answer : Except Error Reply}
    (hbusy : answer = .error .busy → Minded w.group w.batch ⟨p, w.asked p.token⟩) :
    Sound (w.conclude p answer) := by
  have hleave := h.leave p
  unfold World.conclude
  split
  next state hfinish =>
    obtain rfl := finishPoll_busy hfinish
    refine ⟨h.named, h.quiet, h.batch, ?_, ?_⟩
    · intro k p' hp'
      obtain ⟨hk, hattended', hnone'⟩ := hleave.polls k p' hp'
      refine ⟨hk, hattended', ?_⟩
      have hne : k ≠ p.key := by
        rintro rfl
        rw [show (w.leave p).polls.lookup p.key = none from AList.lookup_erase _ _] at hp'
        cases hp'
      exact (AList.lookup_insert_ne hne).trans hnone'
    · intro k x hx
      by_cases hk : k = p.key
      · subst hk
        rw [AList.lookup_insert] at hx
        cases hx
        exact ⟨rfl, hattended, .inr (hbusy rfl)⟩
      · rw [AList.lookup_insert_ne hk] at hx
        exact h.refused k x hx
  next result state _ hfinish =>
    exact hleave.state (State.spares_finishPoll hfinish) (AList.lookup_erase _ _) hnone
  next => exact hleave

theorem Sound.answer (h : Sound w) (hattended : w.state.Attended p.key p.waker p.seen)
    (hnone : w.refused.lookup p.key = none) {answer : Except Error Reply}
    (hbusy : answer = .error .busy → Minded w.group w.batch ⟨p, w.asked p.token⟩) :
    Sound (w.answer p answer) := by
  cases answer with
  | ok reply => exact h.advance hattended hnone (.answered reply)
  | error err => exact h.conclude hattended hnone hbusy

theorem Sound.run {f : Section α} {k : World → α → World} {gone : World → World} (h : Sound w)
    (hf : Watches w.group (leftBy (f w.group)))
    (hk : ∀ a g, f w.group = .ok a g → Sound { w with group := g } → Sound (k { w with group := g } a))
    (hgone : ∀ g, Sound { w with group := g } → Sound (gone { w with group := g })) :
    Sound (w.run f k gone) := by
  unfold World.run
  cases hrun : f w.group with
  | ok a g =>
    rw [hrun] at hf
    exact hk a g hrun (h.group hf)
  | error panic g =>
    rw [hrun] at hf
    exact hgone g (h.group hf)

theorem Sound.other {f : Section α} (h : Sound w) (hf : Watches w.group (leftBy (f w.group))) :
    Sound (w.other f) :=
  h.run hf (fun _ _ _ hw ↦ hw) fun _ hw ↦ hw

theorem Sound.hold (h : Sound w) (r : Except Error _) : Sound (w.hold r) := by
  cases r with
  | ok guard => exact h.guards _
  | error err => exact h

theorem minded_of_recorded {c : ZeroRtt.Poll.Conn.QuicConn}
    (hc : w.group.state.conns.lookup p.token = some c) (hreties : p.request.kind ∈ c.reties) :
    Minded w.group w.batch ⟨p, w.asked p.token⟩ := by
  refine .inl ⟨c, hc, ?_, .inl hreties⟩
  simp [World.asked, hc]

end Soundness

section Steps

theorem Sound.begin (h : Sound w) (token : Token) (request : Request) (shutdown : Bool)
    (waker : Waker) (hfree : w.polls.lookup (.conn token request.event) = none) :
    Sound (w.begin token request shutdown waker) := by
  have hforget : Sound { w with refused := w.refused.erase (.conn token request.event) } := by
    have hsub : ∀ k x, (w.refused.erase (.conn token request.event)).lookup k = some x →
        w.refused.lookup k = some x := by
      intro k x hx
      by_cases hk : k = .conn token request.event
      · rw [hk, AList.lookup_erase] at hx
        cases hx
      · rwa [AList.lookup_erase_ne hk] at hx
    refine ⟨h.named, h.quiet, h.batch, ?_, fun k x hx ↦ h.refused k x (hsub k x hx)⟩
    intro k p hp
    obtain ⟨hk, hattended, hnone⟩ := h.polls k p hp
    refine ⟨hk, hattended, ?_⟩
    rw [Option.eq_none_iff_forall_ne_some] at hnone ⊢
    exact fun x hx ↦ hnone x (hsub k x hx)
  unfold World.begin
  dsimp only
  split
  · exact hforget
  next state hbegun =>
    have hevent : (request.op shutdown).event = request.event := by cases request <;> rfl
    have hstate := begun_eq hbegun
    rw [hevent] at hstate
    subst hstate
    refine (hforget.state (State.spares_register _ _ _ _) hfree (AList.lookup_erase _ _)).advance
      ⟨le_rfl, .inl ?_⟩ (AList.lookup_erase _ _) .registered
    exact State.slot_register.trans (if_pos rfl)

theorem Sound.attempt (h : Sound w) (hp : w.polls.lookup p.key = some p) (env : _) :
    Sound (w.attempt p env) := by
  obtain ⟨-, hattended, hnone⟩ := h.polls p.key p hp
  unfold World.attempt
  split
  next kind nonBlocking hrequest =>
    refine h.run (watches_streamOpen _ _ _ _ _) ?_ fun g hw ↦ hw.leave p
    intro r g hrun hw
    apply hw.answer hattended hnone
    intro hbusy
    cases r with
    | ok id => cases hbusy
    | error err =>
      cases hbusy
      obtain ⟨c, hc, hreties⟩ := mem_reties_of_streamOpen_busy hrun
      exact minded_of_recorded (w := { w with group := g }) hc (by rw [hrequest]; exact hreties)
  next hstream =>
    have hkind : p.request.kind ≠ .readLock ∧ p.request.kind.needRetry = true := by
      cases p.request <;> simp [Request.kind, LocKind.needRetry]
    refine h.run (watches_lock _ hkind.1 _) ?_ fun g hw ↦ hw.leave p
    intro r g hrun hw
    cases r with
    | ok guard => exact hw.advance hattended hnone _
    | error err =>
      apply hw.answer hattended hnone
      intro hbusy
      cases hbusy
      obtain ⟨c, hc, hreties⟩ := mem_reties_of_lock_busy hkind.2 hrun
      exact minded_of_recorded (w := { w with group := g }) hc hreties

theorem Sound.call (h : Sound w) (hp : w.polls.lookup p.key = some p) (guard : _) :
    Sound (w.call p guard) := by
  obtain ⟨-, hattended, hnone⟩ := h.polls p.key p hp
  unfold World.call
  split
  · exact h
  · exact h.run (watches_derefMut guard (by simp) _)
      (fun r g _ hw ↦ hw.advance hattended hnone _) fun g hw ↦ hw.leave p
  · refine h.run ?_ (fun r g _ hw ↦ hw.advance hattended hnone _) fun g hw ↦ hw.leave p
    rw [leftBy_bind fun r g ↦ ?_]
    · exact watches_derefMut guard (by simp) _
    · rw [leftBy_bind fun conn g ↦ rfl]
      exact Carries.leftBy_deref guard g

theorem Sound.poll (h : Sound w) (hbatch : w.batch = []) (env : PollEnv) :
    Sound (w.run (Group.poll [] env)
      (fun w (events, _) ↦
        { w with batch := events.filter fun e ↦ e.kind ≠ .send && e.kind ≠ .recv }) id) := by
  unfold World.run Group.poll
  cases hpoll : w.group.state.readiness.poll [] ZeroRtt.Poll.defaultReleaseTimerThreshold env with
  | error panic => exact h
  | ok r =>
    obtain ⟨out, deadline, readiness⟩ := r
    obtain ⟨more, hout, hmore, hempty, hdelayed⟩ :=
      Readiness.poll_spec hpoll h.quiet.readiness.delayed
    have hmem : ∀ e ∈ w.group.state.readiness.events, e ∈ out := by
      intro e he
      rw [hout]
      exact List.mem_append_left _ ((HashSet.mem_order env.order).mpr he)
    refine ⟨h.named, ⟨⟨?_, hdelayed⟩, h.quiet.conns⟩, ?_, h.polls, ?_⟩
    · intro e he
      rw [show readiness.events = .empty from hempty] at he
      exact absurd he (HashSet.not_mem_empty e)
    · intro e he
      obtain ⟨he, hkind⟩ := List.mem_filter.mp he
      have hplain : e.kind ≠ .readLock := by
        rw [hout] at he
        rcases List.mem_append.mp he with he | he
        · exact h.quiet.readiness.events e ((HashSet.mem_order env.order).mp he)
        · exact hmore e he
      simp only [ne_eq, Bool.and_eq_true, decide_eq_true_eq] at hkind
      exact ⟨hkind.1, hkind.2, hplain⟩
    · intro k x hx
      obtain ⟨hk, hattended, hcare⟩ := h.refused k x hx
      refine ⟨hk, hattended, hcare.imp_right ?_⟩
      rintro (hconn | ⟨e, he, hannounces⟩)
      · exact .inl hconn
      · refine .inr ⟨e, .inr (List.mem_filter.mpr ⟨?_, by simpa using hannounces.kind_ne⟩), hannounces⟩
        rw [hbatch] at he
        exact he.elim (hmem e) fun hnil ↦ absurd hnil List.not_mem_nil

theorem dispatch_returns {e : Api.Types.Event} (h : Expected e) (s : State) :
    ∃ t, s.dispatch e = .ok t := by
  obtain ⟨hsend, hrecv, hreadLock⟩ := h
  unfold State.dispatch
  cases hkind : e.kind with
  | send => exact absurd hkind hsend
  | recv => exact absurd hkind hrecv
  | readLock => exact absurd hkind hreadLock
  | _ => exact ⟨_, rfl⟩

theorem dispatchAll_returns {events : List Api.Types.Event} (h : ∀ e ∈ events, Expected e)
    (s : State) : ∃ t, s.dispatchAll events = .ok t := by
  induction events generalizing s with
  | nil => exact ⟨s, rfl⟩
  | cons e events ih =>
    obtain ⟨t, ht⟩ := dispatch_returns (h e (List.mem_cons_self ..)) s
    obtain ⟨u, hu⟩ := ih (fun e' he' ↦ h e' (List.mem_cons_of_mem _ he')) t
    refine ⟨u, ?_⟩
    rw [State.dispatchAll, List.foldlM_cons, ht, ok_bind]
    exact hu

theorem Sound.dispatch (h : Sound w) {s : State} (hdispatch : w.state.dispatchAll w.batch = .ok s) :
    Sound { w with state := s, batch := [] } := by
  obtain ⟨ws, hrouses, hnone⟩ := State.rouses_dispatchAll hdispatch
  obtain ⟨hnamed, hquiet, -, hpolls, hrefused⟩ :=
    h.elsewhere (hrouses.spares .accept) (by simp [Polling.key])
  refine ⟨hnamed, hquiet, by simp, hpolls, ?_⟩
  intro k x hx
  obtain ⟨hk, hattended, hcare⟩ := hrefused k x hx
  refine ⟨hk, hattended, ?_⟩
  rcases hcare with hwoken | hconn | ⟨e, he, hannounces⟩
  · exact .inl hwoken
  · exact .inr (.inl hconn)
  · rcases he with he | he
    · exact .inr (.inr ⟨e, .inl he, hannounces⟩)
    · left
      have hslot := hnone e he _ (concerns_of_announces hannounces)
      rw [← hk] at hslot
      rcases hattended.cared with hcared | hcared
      · rw [hslot] at hcared
        cases hcared
      · exact hcared

theorem returned_ne_busy (answer : Except _ Reply) : World.returned answer ≠ .error .busy := by
  unfold World.returned
  split <;> simp

theorem event_ne (r : Request) : r.event ≠ .connected ∧ r.event ≠ .streamAccept := by
  cases r with
  | openStream kind nonBlocking =>
    cases kind <;> simp [Request.event, Request.op, Op.event, State.openEvent]
  | _ => simp [Request.event, Request.op, Op.event]

theorem Sound.step {w' : World} {a : Action} (h : Sound w) (ha : Legal w a)
    (hstep : step w a = .ok w') : Sound w' := by
  cases a with
  | begin token request shutdown waker =>
    cases hstep
    exact h.begin token request shutdown waker ha
  | attempt key env =>
    simp only [Layers.step] at hstep
    split at hstep
    next hlookup =>
      obtain ⟨rfl, -⟩ := h.polls _ _ hlookup
      cases hstep
      exact h.attempt hlookup env
    next =>
      cases hstep
      exact h
  | call key =>
    simp only [Layers.step] at hstep
    split at hstep
    next hlookup =>
      obtain ⟨rfl, -⟩ := h.polls _ _ hlookup
      cases hstep
      exact h.call hlookup _
    next =>
      cases hstep
      exact h
  | release key env =>
    simp only [Layers.step] at hstep
    split at hstep
    next hlookup =>
      obtain ⟨rfl, hattended, hnone⟩ := h.polls _ _ hlookup
      cases hstep
      refine h.run (watches_unlock _ _ _) ?_ fun g hw ↦ hw.leave _
      intro _ g _ hw
      exact hw.answer hattended hnone fun hbusy ↦ absurd hbusy (returned_ne_busy _)
    next =>
      cases hstep
      exact h
  | finish key =>
    simp only [Layers.step] at hstep
    split at hstep
    next hlookup =>
      obtain ⟨rfl, hattended, hnone⟩ := h.polls _ _ hlookup
      cases hstep
      exact h.conclude hattended hnone (by simp)
    next =>
      cases hstep
      exact h
  | poll env =>
    cases hstep
    exact h.poll ha env
  | dispatch =>
    obtain ⟨s, hdispatch, hstep⟩ := bind_ok hstep
    cases hstep
    exact h.dispatch hdispatch
  | connect conn env =>
    cases hstep
    exact h.other (watches_register _ _ _)
  | lock token kind =>
    cases hstep
    exact h.run (watches_lock _ ha _) (fun r g _ hw ↦ hw.hold r) fun g hw ↦ hw
  | lockRecv token unparker =>
    cases hstep
    exact h.run (watches_lockRecv _ _ _) (fun r g _ hw ↦ hw.hold r) fun g hw ↦ hw
  | use guard c =>
    cases hstep
    exact h.other (watches_derefMut _ ha.2 _)
  | unlock guard sendDone env =>
    cases hstep
    exact (h.guards _).other (watches_unlock _ _ _)
  | close token app err reason env =>
    cases hstep
    exact h.other (watches_close _ _ _ _ _ _)
  | streamOpen token kind nonBlocking env =>
    cases hstep
    exact h.other (watches_streamOpen _ _ _ _ _)
  | streamShutdown token streamId err env =>
    cases hstep
    exact h.other (watches_streamShutdown _ _ _ _ _)
  | isEstablished token waker =>
    cases hstep
    exact h.elsewhere (State.spares_isEstablished _ _ _) fun p hp ↦
      (event_ne p.request).1 (Key.conn.inj hp).2
  | acceptStream token waker =>
    cases hstep
    exact h.elsewhere (State.spares_acceptStream _ _ _) fun p hp ↦
      (event_ne p.request).2 (Key.conn.inj hp).2
  | acceptConn waker =>
    cases hstep
    exact h.elsewhere (State.spares_acceptConn _ _) (by simp [Polling.key])
  | shutdown token streamId =>
    cases hstep
    obtain ⟨ws, hrouses⟩ := State.rouses_shutdown w.state token streamId
    exact h.elsewhere (hrouses.spares .accept) (by simp [Polling.key])
  | stop =>
    cases hstep
    obtain ⟨ws, hrouses, -⟩ := State.rouses_stop w.state
    exact h.elsewhere (hrouses.spares .accept) (by simp [Polling.key])

end Steps

theorem Sound.minded (h : Sound w) {k : Key} (hx : w.refused.lookup k = some x) :
    Recorded w x ∨ Announced w x ∨ Owed w x ∨ Woken w x := by
  obtain ⟨-, -, hwoken | ⟨c, hc, -, hreties | howes⟩ | hannounced⟩ := h.refused k x hx
  · exact .inr (.inr (.inr hwoken))
  · exact .inl ⟨c, hc, hreties⟩
  · exact .inr (.inr (.inl ⟨c, hc, howes⟩))
  · exact .inr (.inl hannounced)

/-- A poll that was refused because the connection was locked is minded until the
task polls again: the operation is recorded, it is announced, quiche owes a
report, or the waker was woken. And the dispatcher does not panic. -/
theorem refused_poll_minded (h : Run step Legal .initial w) :
    (∃ s, w.state.dispatchAll w.batch = .ok s) ∧
      ∀ k x, w.refused.lookup k = some x →
        Recorded w x ∨ Announced w x ∨ Owed w x ∨ Woken w x := by
  have hsound := h.invariant sound_initial fun _ _ _ hw ha hstep ↦ hw.step ha hstep
  exact ⟨dispatchAll_returns hsound.batch _, fun k x hx ↦ hsound.minded hx⟩

theorem refused_poll_minded_example :
    ∃ w x, Run step Legal .initial w ∧
      w.refused.lookup (.conn ⟨0⟩ (.streamRecv 4)) = some x ∧ x.poll.waker = ⟨7⟩ ∧
      (Recorded w x ∨ Announced w x ∨ Owed w x ∨ Woken w x) := by
  have hconnect : Run step Legal .initial _ :=
    .one (i := .connect (Script.connection ⟨false, [1], [], [], none⟩) .still)
      trivial rfl
  have hlock := hconnect.tail (i := .lock ⟨0⟩ .recv) (by simp [Legal]) rfl
  have hbegin := hlock.tail (show Legal _ (.begin ⟨0⟩ (.recv 4 16) false ⟨7⟩) from rfl) rfl
  have hattempt := hbegin.tail (show Legal _
    (.attempt (.conn ⟨0⟩ (.streamRecv 4)) .still) from trivial) rfl
  exact ⟨_, _, hattempt, rfl, rfl,
    (refused_poll_minded hattempt).2 (.conn ⟨0⟩ (.streamRecv 4)) _ rfl⟩

end ZeroRtt.Futures.Contention
