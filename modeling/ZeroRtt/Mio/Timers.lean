import ZeroRtt.Mio.Loop
import ZeroRtt.Poll.Deliveries
import ZeroRtt.Poll.Planning
import ZeroRtt.Poll.Tables

namespace ZeroRtt.Mio.Timers

open ZeroRtt.Lib.Panics ZeroRtt.Lib.Containers ZeroRtt.Lib.Runs
open ZeroRtt.Api.Types ZeroRtt.Api.Quiche ZeroRtt.Poll.Schedule ZeroRtt.Poll.Conn
open ZeroRtt.Poll (Group Section defaultReleaseTimerThreshold)
open ZeroRtt.Poll.Locking ZeroRtt.Poll.Sections ZeroRtt.Poll.Planning
open ZeroRtt.Poll.Agenda (agenda Apart Due)
open ZeroRtt.Poll.Deliveries (apart_foldl)
open ZeroRtt.Poll.Chronicle (Records)
open ZeroRtt.Poll.GuardLifetime
open ZeroRtt.Poll.Tables (GrowsUnguarded)
open ZeroRtt.Mio.Loop

section Sections

variable {g g' : Group} {token : Token} {guards : List Guard} {guard : Guard}

theorem tryLockPrv_locks {c c' : QuicConn} {kind : LocKind} {r : Except Error LockContext}
    (hkind : kind ≠ .none) (h : c.tryLockPrv kind = .ok (r, c')) : c'.locker ≠ .none := by
  intro hfree
  have hl := free_of_tryLockPrv h hfree
  simp only [QuicConn.tryLockPrv, hl] at h
  split at h
  · obtain ⟨_, -, h⟩ := bind_ok h
    cases h
    exact hkind hfree
  · cases h
    exact hkind hfree

theorem locked_of_lock {kind : LocKind} (hkind : kind ≠ .none) {r : Except Error Guard}
    (h : Group.lock token kind g = .ok r g') :
    (∀ c, g'.state.conns.lookup token = some c → c.locker ≠ .none) ∧
      ∀ guard, r = .ok guard → guard.kind = kind := by
  obtain ⟨r', g₁, hconn, h⟩ := section_bind_ok h
  cases h
  cases hc : g.state.conns.lookup token with
  | none =>
    rw [onConn_of_none hc] at hconn
    cases hconn
    refine ⟨fun c hc' ↦ ?_, fun guard hr ↦ by cases hr⟩
    rw [hc] at hc'
    cases hc'
  | some c =>
    unfold Group.onConn at hconn
    rw [hc] at hconn
    dsimp only at hconn
    split at hconn
    · cases hconn
    next a s hlock =>
      cases hconn
      obtain ⟨⟨lock, c'⟩, hprv, hlock⟩ := bind_ok hlock
      cases hlock
      refine ⟨fun d hd ↦ ?_, fun guard hr ↦ ?_⟩
      · rw [show (Poll.State.put g.state token _).conns.lookup token = some c' from
          AList.lookup_insert _] at hd
        cases hd
        exact tryLockPrv_locks hkind hprv
      · cases lock with
        | error err => cases hr
        | ok lock =>
          cases hr
          rfl

theorem eq_singleton {c : QuicConn} (h : Held c guards) (hguard : guard ∈ guards)
    (hkind : guard.kind = .recv) : guards = [guard] := by
  have hlocked : c.locker ≠ .none := fun hfree ↦ by
    rw [h.idle hfree] at hguard
    cases hguard
  have hread : c.locker ≠ .readLock := fun hread ↦ by
    have hshared := (h.shared hread).2 guard hguard
    rw [hkind] at hshared
    cases hshared
  obtain ⟨only, rfl, -⟩ := h.exclusive hlocked hread
  rw [List.mem_singleton.mp hguard]

theorem guardsOf_append (xs ys : List Guard) (token : Token) :
    guardsOf (xs ++ ys) token = guardsOf xs token ++ guardsOf ys token := List.filter_append ..

theorem guarded_comm (h : Guarded g (guard :: guards)) (hkind : guard.kind = .recv) :
    Guarded g (guards ++ [guard]) := by
  intro t
  by_cases ht : t = guard.lock.token
  · obtain ⟨c, -, -, hheld⟩ := h.live List.mem_cons_self
    have hsingle := eq_singleton hheld (mem_guardsOf List.mem_cons_self) hkind
    rw [guardsOf_cons_self rfl] at hsingle
    obtain ⟨-, hnil⟩ := List.cons_eq_cons.mp hsingle
    have hatt := h t
    rw [ht] at hatt ⊢
    rw [guardsOf_cons_self rfl, hnil] at hatt
    rw [guardsOf_append, hnil, guardsOf_cons_self rfl]
    exact hatt
  · have hatt := h t
    rw [guardsOf_cons_of_ne ht] at hatt
    rw [guardsOf_append, guardsOf_cons_of_ne ht]
    exact (List.append_nil (guardsOf guards t)).symm ▸ hatt

/-- The polling thread's view of a group: what its guards refer to is there, and nothing is
forgotten but what is at hand. -/
structure Sound (guards : List Guard) (hand : List Event) (g : Group) : Prop where
  guarded : Guarded g guards
  kept : Kept hand g
  apart : Apart g.state.readiness

theorem apart_of_records (h : Apart g.state.readiness) (hrecords : Records g g') :
    Apart g'.state.readiness := by
  obtain ⟨news, -, -, hreadiness, -⟩ := hrecords
  rw [hreadiness]
  exact apart_foldl h

variable {hand : List Event}

theorem Sound.derefMut (h : Sound guards hand g) (hguard : guard ∈ guards) (c : Call) :
    ∃ r g', Group.derefMut guard c g = .ok r g' ∧ Sound guards hand g' := by
  obtain ⟨r, g', hrun, hkept⟩ := kept_derefMut h.kept h.guarded hguard c
  have hsafe : Safe ⟨g, guards, []⟩ := h.guarded
  have hguarded := hsafe.call hguard c
  have hrecords := Poll.Chronicle.sectionwise_records.call guard c g
  rw [run_ignore] at hguarded
  have hguarded' : Guarded (leftBy (Group.derefMut guard c g)) guards := hguarded
  rw [hrun] at hguarded' hrecords
  exact ⟨r, g', hrun, hguarded', hkept, apart_of_records h.apart hrecords⟩

theorem Sound.transmits (h : Sound guards hand g) (hguard : guard ∈ guards) (len : ℕ)
    (now : Instant) : ∃ sent g', transmit guard len now g = .ok sent g' ∧ Sound guards hand g' := by
  obtain ⟨conn, -, -, hderef⟩ := deref_live h.guarded hguard
  unfold transmit
  rw [bind_of_ok hderef]
  split
  · exact ⟨_, g, rfl, h⟩
  · obtain ⟨r, g₁, htimeout, h₁⟩ := h.derefMut hguard .onTimeout
    obtain ⟨sent, g₂, hsend, h₂⟩ := h₁.derefMut hguard (.send len)
    rw [bind_of_ok htimeout, bind_of_ok hsend]
    split <;> exact ⟨_, g₂, rfl, h₂⟩

theorem Sound.unlock (h : Sound (guards ++ [guard]) hand g) (hkind : guard.kind = .recv)
    (sendDone : Bool) (env : UnlockEnv) :
    ∃ closed g', Group.unlockConn { guard.lock with sendDone } env g = .ok closed g' ∧
      Sound guards hand g' := by
  have hmem : guard ∈ guards ++ [guard] := List.mem_append_right _ (List.mem_singleton_self _)
  obtain ⟨closed, g', hrun, -, hguarded⟩ := h.guarded.unlockConn hmem sendDone env
  have hkept : Kept hand (leftBy (Group.unlockConn { guard.lock with sendDone } env g)) :=
    carries_kept.unlockConn (fun _ _ _ hs ↦ plans_unlock hs) g h.kept
  have hrecords := Poll.Chronicle.sectionwise_records.unlock { guard.lock with sendDone } env g
  rw [hrun] at hkept hrecords
  have hnil : guardsOf guards guard.lock.token = [] := by
    obtain ⟨c, -, -, hheld⟩ := h.guarded.live hmem
    have hsingle := eq_singleton hheld (mem_guardsOf hmem) hkind
    rw [guardsOf_append, guardsOf_cons_self rfl] at hsingle
    exact List.append_left_eq_self.mp hsingle
  have hnot : guard ∉ guards := fun hguard ↦ by
    have hguard := mem_guardsOf hguard
    rw [hnil] at hguard
    cases hguard
  rw [List.erase_append_right _ hnot, List.erase_cons_head, List.append_nil] at hguarded
  exact ⟨closed, g', hrun, hguarded, hkept, apart_of_records h.apart hrecords⟩

end Sections

section Others

open ZeroRtt.Poll.Interleaving (Pending)

variable {α : Type} {v : Poll.Interleaving.World} {more : List Guard}

def extend (v : Poll.Interleaving.World) (more : List Guard) : Poll.Interleaving.World :=
  { v with guards := v.guards ++ more }

theorem run_extend {x : Section α} {k : Poll.Interleaving.World → α → Poll.Interleaving.World}
    (hk : ∀ v a, k (extend v more) a = extend (k v a) more) :
    (extend v more).run x k = extend (v.run x k) more := by
  have hgroup : (extend v more).group = v.group := rfl
  unfold Poll.Interleaving.World.run
  rw [hgroup]
  cases x v.group with
  | ok a group => exact hk { v with group } a
  | error panic group => rfl

theorem takeConn_extend (v : Poll.Interleaving.World) (token : Token) :
    (extend v more).takeConn token = extend (v.takeConn token) more := by
  apply run_extend
  intro v r
  cases r <;> rfl

theorem hold_extend (v : Poll.Interleaving.World) (r : Except Error Guard) :
    (extend v more).hold r = extend (v.hold r) more := by
  cases r <;> rfl

theorem resume_extend (v : Poll.Interleaving.World) (unparker : Option Poll.Unparker)
    (accepted : Option Connection) (env : UnlockEnv) (p : Pending) :
    (extend v more).resume unparker accepted env p =
      extend (v.resume unparker accepted env p) more := by
  cases p with
  | takeConn token => exact takeConn_extend v token
  | takeScid token q => exact run_extend (k := fun v _ ↦ v) fun _ _ ↦ rfl
  | lockRecv dcid token =>
    unfold Poll.Interleaving.World.resume
    apply run_extend
    intro v r
    rcases r with err | guard
    · cases err <;> rfl
    · rfl
  | handshake dcid =>
    cases accepted with
    | none => rfl
    | some q => exact run_extend (k := fun v _ ↦ v) fun _ _ ↦ rfl

theorem next_extend {a : Poll.Interleaving.Action} (ha : Poll.Interleaving.Legal v a) :
    (extend v more).next a = extend (v.next a) more := by
  cases a with
  | connect q env => exact run_extend (k := fun v _ ↦ v) fun _ _ ↦ rfl
  | lock token kind => exact run_extend hold_extend
  | call guard c => exact run_extend (k := fun v _ ↦ v) fun _ _ ↦ rfl
  | unlock guard sendDone env =>
    have herase : { extend v more with guards := (extend v more).guards.erase guard } =
        extend { v with guards := v.guards.erase guard } more := by
      simp only [extend, List.erase_append_left _ ha]
    simp only [Poll.Interleaving.World.next, herase]
    apply run_extend
    intro v closed
    cases closed <;> rfl
  | deregister token => exact takeConn_extend v token
  | close token app err reason env => exact run_extend (k := fun v _ ↦ v) fun _ _ ↦ rfl
  | streamOpen token kind nonBlocking env => exact run_extend (k := fun v _ ↦ v) fun _ _ ↦ rfl
  | streamShutdown token streamId err env => exact run_extend (k := fun v _ ↦ v) fun _ _ ↦ rfl
  | poll env => exact run_extend (x := Group.poll [] env) (k := fun v _ ↦ v) fun _ _ ↦ rfl
  | lookupScid dcid =>
    unfold Poll.Interleaving.World.next
    apply run_extend
    intro v r
    cases r <;> rfl
  | resume i unparker accepted env =>
    simp only [Poll.Interleaving.World.next, extend]
    cases v.pending[i]? with
    | none => rfl
    | some p => exact resume_extend { v with pending := v.pending.eraseIdx i } unparker accepted env p

theorem legal_extend {a : Poll.Interleaving.Action} (ha : Poll.Interleaving.Legal v a) :
    Poll.Interleaving.Legal (extend v more) a := by
  cases a with
  | call guard c => exact List.mem_append_left _ ha
  | unlock guard sendDone env => exact List.mem_append_left _ ha
  | _ => exact ha

variable {hand : List Event}

theorem Sound.other (h : Sound (v.guards ++ more) hand v.group) {a : Poll.Interleaving.Action}
    (ha : Poll.Interleaving.Legal v a) (hunlocked : TakesUnlocked v a) (hpoll : ∀ env, a ≠ .poll env) :
    Sound ((v.next a).guards ++ more) hand (v.next a).group := by
  refine ⟨?_, ?_, ?_⟩
  · have hsafe : Safe (extend v more) := h.guarded
    have hnext := safe_next hsafe (legal_extend ha) hunlocked
    rw [next_extend ha] at hnext
    exact hnext
  · apply kept_next h.kept h.guarded hpoll
    rintro guard c rfl
    exact List.mem_append_left _ ha
  · exact apart_of_records h.apart
      (Poll.Chronicle.sectionwise_records.next hpoll fun _ _ _ ↦ trivial)

end Others

section Loop

variable {w w' : World}

def mine : Phase → List Guard
  | .locked _ guard | .sent _ guard _ => [guard]
  | .idle | .handling _ | .polling _ => []

def atHand : Phase → List Event
  | .handling i | .locked i _ | .sent i _ _ => i.todo
  | .idle | .polling _ => []

/-- The others keep to their guards, and no packet that is sent meets an error. -/
structure Orderly (w : World) (a : Action) : Prop where
  legal : Legal w a
  unlocked : ∀ b, a = .other b → TakesUnlocked w.base b
  sends : a ≠ .fail

structure Steady (w : World) : Prop where
  sound : Sound (w.base.guards ++ mine w.phase) (atHand w.phase) w.base.group
  exclusive : ∀ guard ∈ mine w.phase, guard.kind = .recv

theorem steady_initial : Steady .initial := by
  refine ⟨⟨?_, ⟨?_, ?_⟩, ?_⟩, ?_⟩
  · intro token
    rfl
  · intro token c hc
    cases hc
  · intro token c hc
    cases hc
  · exact fun e he ↦ absurd he (HashSet.not_mem_empty e)
  · intro guard hguard
    cases hguard

theorem Steady.pollGroup (h : Steady w) (hphase : w.phase = .idle) (env : PollEnv) :
    Steady (w.next (.pollGroup env)) := by
  obtain ⟨more, deadline, rest, heq, -⟩ :=
    Readiness.poll_eq w.base.group.state.readiness defaultReleaseTimerThreshold env
  have hpoll : ∃ out g', Group.poll [] env w.base.group = .ok (out, deadline) g' ∧
      g'.state.conns = w.base.group.state.conns ∧ g'.state.readiness = ⟨rest, .empty⟩ := by
    simp only [Group.poll, heq]
    exact ⟨_, _, rfl, rfl, rfl⟩
  obtain ⟨out, g', hpoll, hconns, hreadiness⟩ := hpoll
  have hsound := h.sound
  rw [hphase] at hsound
  have hkept := kept_poll hsound.kept hsound.apart hpoll
  simp only [World.next, hphase, World.run, hpoll]
  refine ⟨⟨hsound.guarded.congr hconns, hkept, ?_⟩, fun guard hguard ↦ by cases hguard⟩
  rw [hreadiness]
  exact fun e he ↦ absurd he (HashSet.not_mem_empty e)

theorem Steady.handle (h : Steady w) {deadline : Option Instant} {event : Event}
    {todo events : List Event} (hphase : w.phase = .handling ⟨deadline, event :: todo, events⟩) :
    Steady (w.handle ⟨deadline, todo, events⟩ event) := by
  have hsound := h.sound
  rw [hphase] at hsound
  have hguarded : Guarded w.base.group w.base.guards := by
    simpa only [mine, List.append_nil] using hsound.guarded
  have hskip : event.kind ≠ .send → Sound (w.base.guards ++ []) todo w.base.group := by
    intro hkind
    refine ⟨hsound.guarded, hsound.kept.mono fun token c _ _ hmem ↦ ?_, hsound.apart⟩
    rcases List.mem_cons.mp hmem with rfl | hmem
    · exact absurd rfl hkind
    · exact hmem
  unfold World.handle
  split
  next hkind =>
    obtain ⟨r, g', hconn, -, hg'⟩ :=
      hguarded.onConn_tryLock (show LocKind.recv ≠ .none by simp) event.token
    have hlock : Group.lock event.token .recv w.base.group = .ok (r.bind id) g' :=
      bind_of_ok hconn
    obtain ⟨hlocked, hguard⟩ := locked_of_lock (by simp) hlock
    have hkept := carries_kept.operation (f := Group.tryLock .recv)
      (fun _ _ _ hs ↦ plans_tryLock hs) event.token _ hsound.kept
    have hrecords := Poll.Chronicle.sectionwise_records.lock event.token .recv w.base.group trivial
    have hleft : leftBy (Group.lock event.token .recv w.base.group) = g' := by rw [hlock]; rfl
    rw [hleft] at hrecords
    have hkept' : Kept todo g' := by
      apply Kept.mono (hleft ▸ hkept)
      intro token c hc hfree hmem
      rcases List.mem_cons.mp hmem with hevent | hmem
      · have htoken : token = event.token := by
          rw [← hevent]
          exact ((hleft ▸ hkept : Kept (event :: todo) g').named token c hc).symm
        exact absurd hfree (hlocked c (htoken ▸ hc))
      · exact hmem
    have hapart := apart_of_records hsound.apart hrecords
    simp only [World.run, hlock]
    rcases r with err | err | guard
    · exact ⟨⟨(List.append_nil _).symm ▸ hg', hkept', hapart⟩, fun guard hguard ↦ by cases hguard⟩
    · exact ⟨⟨(List.append_nil _).symm ▸ hg', hkept', hapart⟩, fun guard hguard ↦ by cases hguard⟩
    · have hkind := hguard guard rfl
      refine ⟨⟨guarded_comm hg' hkind, hkept', hapart⟩, fun guard' hguard' ↦ ?_⟩
      rw [List.mem_singleton.mp hguard']
      exact hkind
  next hkind =>
    exact ⟨hskip (by rw [hkind]; simp), fun guard hguard ↦ by cases hguard⟩
  next hsend _ => exact ⟨hskip hsend, fun guard hguard ↦ by cases hguard⟩

theorem Steady.locked (h : Steady w) {i : Iteration} {guard : Guard}
    (hphase : w.phase = .locked i guard) (len : ℕ) (now : Instant) :
    ∃ sent g', transmit guard len now w.base.group = .ok sent g' ∧
      Sound (w.base.guards ++ [guard]) i.todo g' := by
  have hsound := h.sound
  rw [hphase] at hsound
  exact hsound.transmits (List.mem_append_right _ (List.mem_singleton_self _)) len now

theorem Steady.sent (h : Steady w) {i : Iteration} {guard : Guard} {sendDone : Bool}
    (hphase : w.phase = .sent i guard sendDone) (env : UnlockEnv) :
    ∃ closed g', Group.unlockConn { guard.lock with sendDone } env w.base.group = .ok closed g' ∧
      Sound w.base.guards i.todo g' := by
  have hsound := h.sound
  have hexclusive := h.exclusive guard (by rw [hphase]; exact List.mem_singleton_self _)
  rw [hphase] at hsound
  exact hsound.unlock hexclusive sendDone env

theorem steady_next (h : Steady w) {a : Action} (ha : Orderly w a) : Steady (w.next a) := by
  cases a with
  | other b =>
    obtain ⟨hpoll, hlegal⟩ := ha.legal
    exact ⟨h.sound.other hlegal (ha.unlocked b rfl) hpoll, h.exclusive⟩
  | pollGroup env =>
    cases hphase : w.phase with
    | idle => exact h.pollGroup hphase env
    | _ => simpa only [World.next, hphase] using h
  | handle =>
    cases hphase : w.phase with
    | handling i =>
      obtain ⟨deadline, todo, events⟩ := i
      cases todo with
      | nil => simpa only [World.next, hphase] using h
      | cons event todo =>
        simp only [World.next, hphase]
        exact h.handle hphase
    | _ => simpa only [World.next, hphase] using h
  | transmit len now =>
    cases hphase : w.phase with
    | locked i guard =>
      obtain ⟨sent, g', hrun, hsound⟩ := h.locked hphase len now
      have hexclusive := h.exclusive
      rw [hphase] at hexclusive
      simp only [World.next, hphase, World.run, hrun]
      exact ⟨hsound, hexclusive⟩
    | _ => simpa only [World.next, hphase] using h
  | unlock env =>
    cases hphase : w.phase with
    | sent i guard sendDone =>
      obtain ⟨closed, g', hrun, hsound⟩ := h.sent hphase env
      simp only [World.next, hphase, World.unlock, World.run, hrun]
      refine ⟨?_, fun guard hguard ↦ by cases hguard⟩
      cases closed <;> exact (List.append_nil w.base.guards).symm ▸ hsound
    | _ => simpa only [World.next, hphase] using h
  | finish =>
    cases hphase : w.phase with
    | handling i =>
      obtain ⟨deadline, todo, events⟩ := i
      cases todo with
      | nil =>
        have hsound := h.sound
        rw [hphase] at hsound
        simp only [World.next, hphase, World.finish]
        split <;> exact ⟨hsound, fun guard hguard ↦ by cases hguard⟩
      | cons event todo => simpa only [World.next, hphase] using h
    | _ => simpa only [World.next, hphase] using h
  | fail => exact absurd rfl ha.sends
  | wake =>
    cases hphase : w.phase with
    | polling deadline =>
      have hsound := h.sound
      rw [hphase] at hsound
      simp only [World.next, hphase]
      exact ⟨hsound, fun guard hguard ↦ by cases hguard⟩
    | _ => simpa only [World.next, hphase] using h

theorem steady_of_run (h : Run step Orderly .initial w) : Steady w := by
  refine h.invariant (P := Steady) steady_initial ?_
  intro w w' a hw ha hstep
  cases hstep
  exact steady_next hw ha

/-- The event is at hand, or it is scheduled for now or for no later than the time. -/
def ScheduledBy (r : Readiness) (hand : List Event) (e : Event) (time : Instant) : Prop :=
  e ∈ hand ∨ ∃ due, agenda r e = some due ∧ ∀ t, due = .later t → t ≤ time

theorem minOfSome_le (time : Instant) (other : Option Instant) :
    ∃ t, minOfSome (some time) other = some t ∧ t ≤ time := by
  cases other with
  | none => exact ⟨time, rfl, le_refl time⟩
  | some t => exact ⟨min time t, rfl, min_le_left time t⟩

theorem plan_timely {q : Connection} {time : Instant} (h : q.timeoutInstant = some time)
    (sendDone : Bool) (now : Instant) :
    ∃ due, plan q sendDone now = some due ∧ ∀ t, due = .later t → t ≤ time := by
  obtain ⟨t, ht, hle⟩ := minOfSome_le time (pacing q now)
  have hlater : ∀ t', Due.later t = .later t' → t' ≤ time := by
    intro t' heq
    cases heq
    exact hle
  cases sendDone with
  | true =>
    have hdelay : delaySend q now true = some t := by
      simp only [delaySend, h, if_true, ht]
    simp only [plan, hdelay]
    exact ⟨.later t, rfl, hlater⟩
  | false =>
    cases hpacing : (pacing q now).isSome with
    | true =>
      have hdelay : delaySend q now false = some t := by
        simp only [delaySend, h, Bool.false_eq_true, if_false, hpacing, if_true, ht]
      simp only [plan, hdelay]
      exact ⟨.later t, rfl, hlater⟩
    | false =>
      have hdelay : delaySend q now false = none := by
        simp only [delaySend, hpacing, Bool.false_eq_true, if_false]
      simp only [plan, hdelay]
      exact ⟨.now, rfl, fun t' heq ↦ by cases heq⟩

/-- Whatever the threads do beside the loop of `poll`, a connection that nobody has locked has its
next packet scheduled as the last unlock of it asked for, or the loop has still to handle it.
Where quiche has a timeout, it is not scheduled for later than that. -/
theorem next_packet_scheduled (h : Run step Orderly .initial w) (token : Token) (c : QuicConn)
    (hc : w.base.group.state.conns.lookup token = some c) (hfree : c.locker = .none) :
    (Planned w.base.group.state.readiness c ∨ sendOf c ∈ atHand w.phase) ∧
      ∀ time, c.wrapped.timeoutInstant = some time →
        ScheduledBy w.base.group.state.readiness (atHand w.phase) (sendOf c) time := by
  have hkept := (steady_of_run h).sound.kept.planned token c hc hfree
  refine ⟨hkept, fun time htime ↦ ?_⟩
  rcases hkept with ⟨sendDone, now, hagenda⟩ | hmem
  · obtain ⟨due, hplan, hle⟩ := plan_timely htime sendDone now
    exact .inr ⟨due, hagenda.trans hplan, hle⟩
  · exact .inl hmem

theorem orderly_own {a : Action} (hother : ∀ b, a ≠ .other b) (hfail : a ≠ .fail) : Orderly w a := by
  refine ⟨?_, fun b hb ↦ absurd hb (hother b), hfail⟩
  cases a with
  | other b => exact absurd rfl (hother b)
  | _ => trivial

/-- Nothing is registered while the polling thread or another one holds a guard. -/
structure Unguarded (w : World) (a : Action) : Prop extends Orderly w a where
  grows : ∀ b, a = .other b → GrowsUnguarded (extend w.base (mine w.phase)) b

theorem unguarded_own {a : Action} (hother : ∀ b, a ≠ .other b) (hfail : a ≠ .fail) :
    Unguarded w a :=
  ⟨orderly_own hother hfail, fun b hb ↦ absurd hb (hother b)⟩

def first : World :=
  ((World.initial.next (.other (.connect (Script.connection ⟨false, [1], [], [], some 9⟩)
    .still))).next (.pollGroup ⟨0, HashSet.listed, Peek.first⟩)).next .handle

theorem run_first : Run step Unguarded .initial first := by
  have horderly : Orderly .initial (.other (.connect (Script.connection ⟨false, [1], [], [], some 9⟩)
      .still)) :=
    ⟨⟨by simp, trivial⟩, fun b hb ↦ (by cases hb; intro _ _ ht; cases ht), by simp⟩
  have hconnect : Run step Unguarded .initial _ := .one ⟨horderly, fun b hb _ _ _ ↦ rfl⟩ rfl
  have hpoll := hconnect.tail (i := .pollGroup ⟨0, HashSet.listed, Peek.first⟩)
    (unguarded_own (by simp) (by simp)) rfl
  exact hpoll.tail (i := .handle) (unguarded_own (by simp) (by simp)) rfl

theorem next_packet_scheduled_example :
    ∃ w c, Run step Orderly .initial w ∧ w.phase = .handling ⟨none, [], []⟩ ∧
      w.base.group.state.conns.lookup ⟨0⟩ = some c ∧
      ScheduledBy w.base.group.state.readiness [] (sendOf c) 9 := by
  have hfirst := run_first.mono fun _ _ ha ↦ ha.toOrderly
  have hsent := hfirst.tail (i := .transmit 1 0) (orderly_own (by simp) (by simp)) rfl
  have hunlock := hsent.tail (i := .unlock .still)
    (orderly_own (by simp) (by simp)) rfl
  exact ⟨_, _, hunlock, rfl, rfl, (next_packet_scheduled hunlock ⟨0⟩ _ rfl rfl).2 9 rfl⟩

/-- The thread that polls does not panic on its way through a round. -/
theorem polling_thread_never_fails (h : Run step Unguarded .initial w) :
    (∀ env, ∃ r g', Group.poll [] env w.base.group = .ok r g') ∧
    (∀ token, ∃ r g', Group.lock token .recv w.base.group = .ok r g') ∧
    (∀ i guard, w.phase = .locked i guard → ∀ len now, ∃ sent g',
      transmit guard len now w.base.group = .ok sent g') ∧
    (∀ i guard sendDone, w.phase = .sent i guard sendDone → ∀ env, ∃ closed g',
      Group.unlockConn { guard.lock with sendDone } env w.base.group = .ok closed g') := by
  have hsteady := steady_of_run (h.mono fun _ _ ha ↦ ha.toOrderly)
  refine ⟨?_, ?_, ?_, ?_⟩
  · intro env
    obtain ⟨more, deadline, rest, heq, -⟩ :=
      Readiness.poll_eq w.base.group.state.readiness defaultReleaseTimerThreshold env
    simp only [Group.poll, heq]
    exact ⟨_, _, rfl⟩
  · intro token
    obtain ⟨r, g', hconn, -⟩ :=
      hsteady.sound.guarded.onConn_tryLock (show LocKind.recv ≠ .none by simp) token
    exact ⟨r.bind id, g', bind_of_ok hconn⟩
  · intro i guard hphase len now
    obtain ⟨sent, g', hrun, -⟩ := hsteady.locked hphase len now
    exact ⟨sent, g', hrun⟩
  · intro i guard sendDone hphase env
    obtain ⟨closed, g', hrun, -⟩ := hsteady.sent hphase env
    exact ⟨closed, g', hrun⟩

theorem polling_thread_never_fails_example :
    ∃ guard sent g', first.phase = .locked ⟨none, [], []⟩ guard ∧
      transmit guard 1 0 first.base.group = .ok sent g' := by
  obtain ⟨-, -, htransmit, -⟩ := polling_thread_never_fails run_first
  obtain ⟨sent, g', hrun⟩ := htransmit _ _ rfl 1 0
  exact ⟨_, sent, g', rfl, hrun⟩

end Loop

end ZeroRtt.Mio.Timers
