import ZeroRtt.Poll.Interleaving
import ZeroRtt.Poll.Walks

namespace ZeroRtt.Poll.Chronicle

open ZeroRtt.Lib.Panics ZeroRtt.Lib.Containers
open ZeroRtt.Api.Types ZeroRtt.Api.Quiche ZeroRtt.Poll.Schedule ZeroRtt.Poll.Conn
open ZeroRtt.Poll.Evolution ZeroRtt.Poll.Retries ZeroRtt.Poll.Unlock ZeroRtt.Poll.Locking
open ZeroRtt.Poll.Sections ZeroRtt.Poll.Walks ZeroRtt.Poll.Interleaving

section Inserting

def insertedBy (obs : List Obs) : List Event :=
  obs.filterMap fun o ↦
    match o with
    | .insert e _ => some e
    | _ => none

variable {r : Readiness} {e : Event}

theorem insertedBy_append (xs ys : List Obs) :
    insertedBy (xs ++ ys) = insertedBy xs ++ insertedBy ys := List.filterMap_append

theorem mem_insertedBy {obs : List Obs} {d : Option Instant} (h : .insert e d ∈ obs) :
    e ∈ insertedBy obs := List.mem_filterMap.mpr ⟨_, h, rfl⟩

theorem before_applyObs {o : Obs} (h : e ∉ insertedBy [o]) :
    (e ∈ (applyObs r o).events → e ∈ r.events) ∧
      ∀ d, (applyObs r o).delayed.lookup e = some d → r.delayed.lookup e = some d := by
  cases o with
  | readable id => exact ⟨fun he ↦ he, fun _ hd ↦ hd⟩
  | insert f delayTo =>
    have hne : e ≠ f := by
      rintro rfl
      exact h (mem_insertedBy (List.mem_cons_self ..))
    refine ⟨(Readiness.events_insert_of_ne hne delayTo).mp, fun d hd ↦ ?_⟩
    rwa [applyObs, Readiness.delayed_insert_of_ne hne] at hd
  | remove f =>
    refine ⟨fun he ↦ (Readiness.mem_events_remove.mp he).2, fun d hd ↦ ?_⟩
    by_cases hne : e = f
    · rw [hne, show (applyObs r (.remove f)).delayed.lookup f = none from AList.lookup_erase _ _] at hd
      cases hd
    · rwa [show (applyObs r (.remove f)).delayed.lookup e = r.delayed.lookup e from
        AList.lookup_erase_ne hne] at hd

theorem before_foldl {obs : List Obs} (h : e ∉ insertedBy obs) :
    (e ∈ (obs.foldl applyObs r).events → e ∈ r.events) ∧
      ∀ d, (obs.foldl applyObs r).delayed.lookup e = some d → r.delayed.lookup e = some d := by
  induction obs generalizing r with
  | nil => exact ⟨id, fun _ hd ↦ hd⟩
  | cons o obs ih =>
    rw [show o :: obs = [o] ++ obs from rfl, insertedBy_append, List.mem_append] at h
    obtain ⟨hevents, hdelayed⟩ := before_applyObs (r := r) fun he ↦ h (.inl he)
    obtain ⟨hevents', hdelayed'⟩ := ih (r := applyObs r o) fun he ↦ h (.inr he)
    exact ⟨fun he ↦ hevents (hevents' he), fun d hd ↦ hdelayed d (hdelayed' d hd)⟩

end Inserting

def SendsOnly : Obs → Prop
  | .readable _ => True
  | .insert e delayTo => delayTo ≠ none → e.kind = .send
  | .remove e => e.kind = .send

section Contexts

variable {s t u : Ctx}

def Tells (s t : Ctx) : Prop :=
  ∃ obs, t.trace = s.trace ++ obs ∧ t.readiness = obs.foldl applyObs s.readiness ∧
    ∀ o ∈ obs, SendsOnly o

theorem Tells.trans (h : Tells s t) (h' : Tells t u) : Tells s u := by
  obtain ⟨xs, htrace, hreadiness, hxs⟩ := h
  obtain ⟨ys, htrace', hreadiness', hys⟩ := h'
  refine ⟨xs ++ ys, ?_, ?_, fun o ho ↦ ?_⟩
  · rw [htrace', htrace, List.append_assoc]
  · rw [hreadiness', hreadiness, List.foldl_append]
  · exact (List.mem_append.mp ho).elim (hxs o) (hys o)

theorem tells_of_eq (htrace : t.trace = s.trace) (hreadiness : t.readiness = s.readiness) :
    Tells s t := ⟨[], by rw [htrace, List.append_nil], hreadiness, by simp⟩

theorem sendsOnly_insertions (events : List Event) : ∀ o ∈ insertions events, SendsOnly o := by
  intro o ho
  obtain ⟨e, -, rfl⟩ := List.mem_map.mp ho
  exact fun hne ↦ absurd rfl hne

theorem sendsOnly_of_streamObs {o : Obs} (h : StreamObs o) : SendsOnly o := by
  cases o with
  | readable id => trivial
  | insert e d => exact fun hne ↦ absurd h.1 hne
  | remove e => exact h.elim

theorem sendsOnly_sendObs (s : Ctx) (q : Connection) (sendDone : Bool) (now : Instant) :
    SendsOnly (sendObs s.event q sendDone now) := by
  unfold sendObs
  split
  · rfl
  · exact fun _ ↦ rfl

theorem tells_unlocked {sendDone closed : Bool} {env : UnlockEnv} {log : List Handled}
    (h : Unlocked s sendDone env closed t log) : Tells s t := by
  obtain ⟨nexts, streams, established, hevolves, -, hstreams⟩ := h.evolves
  refine ⟨_, hevolves.trace, hevolves.readiness, fun o ho ↦ ?_⟩
  rcases List.mem_append.mp ho with ho | ho
  · rcases List.mem_append.mp ho with ho | ho
    · exact sendsOnly_insertions _ o ho
    · exact sendsOnly_of_streamObs (hstreams o ho)
  · rcases List.mem_cons.mp ho with rfl | ho
    · exact sendsOnly_sendObs s _ _ _
    · exact sendsOnly_insertions _ o ho

theorem tells_unlock {n : ℕ} {sendDone closed : Bool} {env : UnlockEnv}
    (h : s.unlock n sendDone env = .ok (closed, t)) : Tells s t := by
  obtain ⟨m, b, k, log, hspec⟩ := unlocked_of_ok h
  have hrelock : Tells s { s with conn := relock s.conn m b k } := tells_of_eq rfl rfl
  exact hrelock.trans (tells_unlocked hspec)

theorem elementary_tells : Elementary Tells where
  trans := .trans
  lock _ _ := tells_of_eq rfl rfl
  calls _ := tells_of_eq rfl rfl
  opens s kind := by
    obtain ⟨hevolves, -⟩ := evolves_streamOpenPrv s kind
    exact tells_of_eq (hevolves.trace.trans (List.append_nil _)) hevolves.readiness
  later _ _ := tells_of_eq rfl rfl
  unlock := tells_unlock

theorem tells_tryLock {kind : LocKind} {r : Except Error Guard}
    (h : Group.tryLock kind s = .ok (r, t)) : Tells s t := by
  obtain ⟨⟨r', c⟩, -, h⟩ := bind_ok h
  cases h
  exact tells_of_eq rfl rfl

end Contexts

section Groups

variable {α : Type} {g g' g'' : Group}

def observations (news : List Happening) : List Obs :=
  news.filterMap fun x ↦
    match x with
    | .observed o => some o
    | _ => none

theorem observations_map (obs : List Obs) : observations (obs.map .observed) = obs := by
  induction obs with
  | nil => rfl
  | cons o obs ih => exact congrArg (o :: ·) ih

theorem observations_append (xs ys : List Happening) :
    observations (xs ++ ys) = observations xs ++ observations ys := List.filterMap_append

theorem observations_delivered (events : List Event) :
    observations (events.map .delivered) = [] := by
  simp [observations, List.filterMap_map]

def Chronicled (g g' : Group) : Prop :=
  ∃ news, g'.state.history = g.state.history ++ news ∧
    g'.state.readiness = (observations news).foldl applyObs g.state.readiness

def deliveredIn (history : List Happening) : List Event :=
  history.filterMap fun x ↦
    match x with
    | .delivered e => some e
    | _ => none

theorem deliveredIn_append (xs ys : List Happening) :
    deliveredIn (xs ++ ys) = deliveredIn xs ++ deliveredIn ys := List.filterMap_append

theorem deliveredIn_observed (obs : List Obs) : deliveredIn (obs.map .observed) = [] := by
  simp [deliveredIn, List.filterMap_map]

theorem deliveredIn_delivered (events : List Event) :
    deliveredIn (events.map .delivered) = events := by
  induction events with
  | nil => rfl
  | cons e events ih => exact congrArg (e :: ·) ih

/-- A step of a group that hands no event out, and tells the readiness what its history
says. -/
def Records (g g' : Group) : Prop :=
  ∃ news, g'.state.history = g.state.history ++ news ∧ deliveredIn news = [] ∧
    g'.state.readiness = (observations news).foldl applyObs g.state.readiness ∧
    ∀ o ∈ observations news, SendsOnly o

theorem Records.trans (h : Records g g') (h' : Records g' g'') : Records g g'' := by
  obtain ⟨xs, hhistory, hnone, hreadiness, hxs⟩ := h
  obtain ⟨ys, hhistory', hnone', hreadiness', hys⟩ := h'
  refine ⟨xs ++ ys, ?_, ?_, ?_, fun o ho ↦ ?_⟩
  · rw [hhistory', hhistory, List.append_assoc]
  · rw [deliveredIn_append, hnone, hnone', List.append_nil]
  · rw [hreadiness', hreadiness, observations_append, List.foldl_append]
  · rw [observations_append] at ho
    exact (List.mem_append.mp ho).elim (hxs o) (hys o)

theorem records_of_eq (hhistory : g'.state.history = g.state.history)
    (hreadiness : g'.state.readiness = g.state.readiness) : Records g g' :=
  ⟨[], by rw [hhistory, List.append_nil], rfl, hreadiness, by simp [observations]⟩

theorem records_put {token : Token} {c : QuicConn} {s : Ctx} (h : Tells (g.state.ctx c) s) :
    Records g { g with state := g.state.put token s } := by
  obtain ⟨obs, htrace, hreadiness, hobs⟩ := h
  obtain rfl : s.trace = obs := htrace
  refine ⟨s.trace.map .observed, rfl, deliveredIn_observed _, ?_, ?_⟩
  · rw [observations_map]
    exact hreadiness
  · rw [observations_map]
    exact hobs

theorem carries_records : Carries Tells Records where
  refl _ := records_of_eq rfl rfl
  trans := .trans
  unparked _ _ := records_of_eq rfl rfl
  put _ h := records_put h

theorem records_takeConn (token : Token) (g : Group) :
    Records g (leftBy (Group.takeConn token g)) := by
  unfold Group.takeConn
  split <;> exact records_of_eq rfl rfl

theorem records_takeScid (token : Token) (q : Connection) (g : Group) :
    Records g (leftBy (Group.takeScid token q g)) := by
  unfold Group.takeScid
  dsimp only
  split <;> exact records_of_eq rfl rfl

theorem Records.chronicled (h : Records g g') : Chronicled g g' := by
  obtain ⟨news, hhistory, -, hreadiness, -⟩ := h
  exact ⟨news, hhistory, hreadiness⟩

theorem records_register (q : Connection) (env : UnlockEnv) (g : Group) :
    Records g (leftBy (Group.register q env g)) := by
  have hcases := register_cases g q env
  generalize Group.register q env g = r at hcases ⊢
  cases hcases with
  | hangs => exact records_of_eq rfl rfl
  | taken token tokenNext hnone hscid => exact records_of_eq rfl rfl
  | @fresh token tokenNext n b k closed s log hnone hscid hunlocked hheld hcont =>
    obtain ⟨obs, htrace, hreadiness, hobs⟩ := tells_unlocked hunlocked
    obtain rfl : s.trace = obs := htrace
    have hobserved : observations (.registered token :: s.trace.map .observed) = s.trace :=
      observations_map s.trace
    refine ⟨.registered token :: s.trace.map .observed, List.append_assoc .., ?_, ?_, ?_⟩
    · exact deliveredIn_observed s.trace
    · rw [hobserved]
      exact hreadiness
    · rw [hobserved]
      exact hobs

end Groups

section Abiding

variable {P : QuicConn → Prop} {Q : Obs → Prop} {s t u : Ctx} {g g' : Group} {token : Token}

/-- Every connection is as `P` says, and every observation as `Q` says. -/
structure Abides (P : QuicConn → Prop) (Q : Obs → Prop) (g : Group) : Prop where
  conns : ∀ token c, g.state.conns.lookup token = some c → P c
  observed : ∀ o ∈ observations g.state.history, Q o

structure Heeds (P : QuicConn → Prop) (Q : Obs → Prop) (s t : Ctx) : Prop where
  conn : P s.conn → P t.conn
  trace : P s.conn → ∃ obs, t.trace = s.trace ++ obs ∧ ∀ o ∈ obs, Q o

theorem Heeds.trans (h : Heeds P Q s t) (h' : Heeds P Q t u) : Heeds P Q s u := by
  refine ⟨h'.conn ∘ h.conn, fun hs ↦ ?_⟩
  obtain ⟨xs, htrace, hxs⟩ := h.trace hs
  obtain ⟨ys, htrace', hys⟩ := h'.trace (h.conn hs)
  refine ⟨xs ++ ys, by rw [htrace', htrace, List.append_assoc], fun o ho ↦ ?_⟩
  exact (List.mem_append.mp ho).elim (hxs o) (hys o)

theorem heeds_of_trace_eq (h : P s.conn → P t.conn) (htrace : t.trace = s.trace) :
    Heeds P Q s t := ⟨h, fun _ ↦ ⟨[], by rw [htrace, List.append_nil], by simp⟩⟩

theorem Abides.of_eq (h : Abides P Q g) (hconns : g'.state.conns = g.state.conns)
    (hhistory : g'.state.history = g.state.history) : Abides P Q g' :=
  ⟨by rw [hconns]; exact h.conns, by rw [hhistory]; exact h.observed⟩

theorem Abides.put (h : Abides P Q g) (st : State) {s : Ctx} (hconns : st.conns = g.state.conns)
    (hhistory : observations st.history = observations g.state.history) (hs : P s.conn)
    (htrace : ∀ o ∈ s.trace, Q o) (token : Token) (scids : HashMap ConnectionId Token) :
    Abides P Q ⟨st.put token s, scids⟩ := by
  constructor
  · intro t c hc
    rw [show (st.put token s).conns = st.conns.insert token s.conn from rfl, hconns] at hc
    by_cases ht : t = token
    · rw [ht, AList.lookup_insert] at hc
      cases hc
      exact hs
    · rw [AList.lookup_insert_ne ht] at hc
      exact h.conns t c hc
  · intro o ho
    rw [show (st.put token s).history = st.history ++ s.trace.map .observed from rfl,
      observations_append, observations_map, hhistory] at ho
    exact (List.mem_append.mp ho).elim (h.observed o) (htrace o)

theorem carries_abides : Carries (Heeds P Q) fun g g' ↦ Abides P Q g → Abides P Q g' where
  refl _ := id
  trans h h' := h' ∘ h
  unparked _ _ h := h.of_eq rfl rfl
  put := by
    intro g token c s hc hs h
    have hconn := h.conns _ _ hc
    obtain ⟨obs, htrace, hobs⟩ := hs.trace hconn
    exact h.put g.state rfl rfl (hs.conn hconn) (htrace ▸ hobs) _ _

theorem abides_takeConn (token : Token) (g : Group) (h : Abides P Q g) :
    Abides P Q (leftBy (Group.takeConn token g)) := by
  unfold Group.takeConn
  split
  · exact h
  · refine ⟨fun t c hc ↦ ?_, h.observed⟩
    by_cases ht : t = token
    · rw [ht, show (leftBy _).state.conns.lookup token = none from AList.lookup_erase _ _] at hc
      cases hc
    · exact h.conns t c ((AList.lookup_erase_ne ht).symm.trans hc)

theorem abides_takeScid (token : Token) (q : Connection) (g : Group) (h : Abides P Q g) :
    Abides P Q (leftBy (Group.takeScid token q g)) := by
  unfold Group.takeScid
  dsimp only
  split <;> exact h.of_eq rfl rfl

theorem abides_register (q : Connection) (env : UnlockEnv)
    (hfresh : ∀ token s n b k closed log,
      Unlocked (g.state.ctx (relock (.new token q) n b k)) false env closed s log →
        P s.conn ∧ ∀ o ∈ s.trace, Q o)
    (h : Abides P Q g) : Abides P Q (leftBy (Group.register q env g)) := by
  have hcases := register_cases g q env
  generalize Group.register q env g = r at hcases ⊢
  cases hcases with
  | hangs => exact h
  | taken token tokenNext hnone hscid => exact h.of_eq rfl rfl
  | @fresh token tokenNext n b k closed s log hnone hscid hunlocked hheld hcont =>
    obtain ⟨hconn, htrace⟩ := hfresh _ _ _ _ _ _ _ hunlocked
    refine h.put { g.state with
      tokenNext, history := g.state.history ++ [Happening.registered token] } rfl ?_ hconn htrace _ _
    rw [observations_append]
    exact List.append_nil _

theorem abides_poll (env : PollEnv) (g : Group) (h : Abides P Q g) :
    Abides P Q (leftBy (Group.poll [] env g)) := by
  unfold Group.poll
  split
  · exact h
  next out deadline readiness hpoll =>
    refine ⟨h.conns, fun o ho ↦ h.observed o ?_⟩
    change o ∈ observations (g.state.history ++ out.map .delivered) at ho
    rwa [observations_append, observations_delivered, List.append_nil] at ho

end Abiding

section Worlds

variable {α : Type} {w : World} {S : Group → Group → Prop} {Allowed : LocKind → Prop}

/-- Every critical section of a thread that does not poll keeps to `S`. -/
structure Sectionwise (Allowed : LocKind → Prop) (S : Group → Group → Prop) : Prop where
  refl : ∀ g, S g g
  register : ∀ q env g, S g (leftBy (Group.register q env g))
  lock : ∀ token kind g, Allowed kind → S g (leftBy (Group.lock token kind g))
  lockRecv : ∀ token unparker g, S g (leftBy (Group.lockRecv token unparker g))
  call : ∀ guard c g, S g (leftBy (Group.derefMut guard c g))
  unlock : ∀ ctx env g, S g (leftBy (Group.unlockConn ctx env g))
  takeConn : ∀ token g, S g (leftBy (Group.takeConn token g))
  takeScid : ∀ token q g, S g (leftBy (Group.takeScid token q g))
  close : ∀ token app err reason env g, S g (leftBy (Group.close token app err reason env g))
  streamOpen : ∀ token kind nonBlocking env g,
    S g (leftBy (Group.streamOpen token kind nonBlocking env g))
  streamShutdown : ∀ token streamId err env g,
    S g (leftBy (Group.streamShutdown token streamId err env g))

theorem hold_group (w : World) (r : Except Error Guard) : (w.hold r).group = w.group := by
  cases r <;> rfl

inductive Acts (g : Group) : Action → Group → Prop
  | rests {a : Action} : Acts g a g
  | register {a : Action} (q : Connection) (env : UnlockEnv) :
      Acts g a (leftBy (Group.register q env g))
  | lock (token : Token) (kind : LocKind) :
      Acts g (.lock token kind) (leftBy (Group.lock token kind g))
  | lockRecv {i : ℕ} {accepted : Option Connection} {env : UnlockEnv} (token : Token)
      (unparker : Option Unparker) :
      Acts g (.resume i unparker accepted env) (leftBy (Group.lockRecv token unparker g))
  | call (guard : Guard) (c : Call) : Acts g (.call guard c) (leftBy (Group.derefMut guard c g))
  | unlock (guard : Guard) (sendDone : Bool) (env : UnlockEnv) :
      Acts g (.unlock guard sendDone env)
        (leftBy (Group.unlockConn { guard.lock with sendDone } env g))
  | takeConn {a : Action} (token : Token) : Acts g a (leftBy (Group.takeConn token g))
  | takeScid {a : Action} (token : Token) (q : Connection) :
      Acts g a (leftBy (Group.takeScid token q g))
  | close (token : Token) (app : Bool) (err : ℕ) (reason : Bytes) (env : UnlockEnv) :
      Acts g (.close token app err reason env) (leftBy (Group.close token app err reason env g))
  | streamOpen (token : Token) (kind : StreamKind) (nonBlocking : Bool) (env : UnlockEnv) :
      Acts g (.streamOpen token kind nonBlocking env)
        (leftBy (Group.streamOpen token kind nonBlocking env g))
  | streamShutdown (token : Token) (streamId err : ℕ) (env : UnlockEnv) :
      Acts g (.streamShutdown token streamId err env)
        (leftBy (Group.streamShutdown token streamId err env g))
  | poll (env : PollEnv) : Acts g (.poll env) (leftBy (Group.poll [] env g))

theorem acts_resume (w : World) (i : ℕ) (unparker : Option Unparker) (accepted : Option Connection)
    (env : UnlockEnv) (p : Pending) :
    Acts w.group (.resume i unparker accepted env) (w.resume unparker accepted env p).group := by
  cases p with
  | takeConn token =>
    rw [World.resume, takeConn_group]
    exact .takeConn token
  | takeScid token q =>
    rw [World.resume, run_group fun _ _ ↦ rfl]
    exact .takeScid token q
  | lockRecv dcid token =>
    rw [World.resume, run_group]
    · exact .lockRecv token unparker
    · intro w r
      rcases r with err | guard
      · cases err <;> rfl
      · rfl
  | handshake dcid =>
    cases accepted with
    | none => exact .rests
    | some q =>
      rw [World.resume, run_group fun _ _ ↦ rfl]
      exact .register q env

theorem acts_next (w : World) (a : Action) : Acts w.group a (w.next a).group := by
  cases a with
  | connect conn env =>
    rw [World.next, run_group fun _ _ ↦ rfl]
    exact .register conn env
  | lock token kind =>
    rw [World.next, run_group hold_group]
    exact .lock token kind
  | call guard c =>
    rw [World.next, run_group fun _ _ ↦ rfl]
    exact .call guard c
  | unlock guard sendDone env =>
    rw [World.next, run_group]
    · exact .unlock guard sendDone env
    · intro w closed
      cases closed <;> rfl
  | deregister token =>
    rw [World.next, takeConn_group]
    exact .takeConn token
  | close token app err reason env =>
    rw [World.next, run_group fun _ _ ↦ rfl]
    exact .close token app err reason env
  | streamOpen token kind nonBlocking env =>
    rw [World.next, run_group fun _ _ ↦ rfl]
    exact .streamOpen token kind nonBlocking env
  | streamShutdown token streamId err env =>
    rw [World.next, run_group fun _ _ ↦ rfl]
    exact .streamShutdown token streamId err env
  | poll env =>
    rw [World.next, run_group fun _ _ ↦ rfl]
    exact .poll env
  | lookupScid dcid =>
    rw [World.next, run_group]
    · unfold Group.lookupScid
      split <;> exact .rests
    · intro w r
      cases r <;> rfl
  | resume i unparker accepted env =>
    unfold World.next
    dsimp only
    split
    next p _ =>
      exact acts_resume { w with pending := w.pending.eraseIdx i } i unparker accepted env p
    next => exact .rests

/-- What every section does, every action of a thread does. -/
theorem Sectionwise.next (h : Sectionwise Allowed S) {a : Action} (hpoll : ∀ env, a ≠ .poll env)
    (hlock : ∀ token kind, a = .lock token kind → Allowed kind) :
    S w.group (w.next a).group := by
  have hacts := acts_next w a
  generalize (w.next a).group = g at hacts ⊢
  cases hacts with
  | rests => exact h.refl _
  | register q env => exact h.register q env _
  | lock token kind => exact h.lock token kind _ (hlock token kind rfl)
  | lockRecv token unparker => exact h.lockRecv token unparker _
  | call guard c => exact h.call guard c _
  | unlock guard sendDone env => exact h.unlock _ env _
  | takeConn token => exact h.takeConn token _
  | takeScid token q => exact h.takeScid token q _
  | close token app err reason env => exact h.close token app err reason env _
  | streamOpen token kind nonBlocking env => exact h.streamOpen token kind nonBlocking env _
  | streamShutdown token streamId err env => exact h.streamShutdown token streamId err env _
  | poll env => exact absurd rfl (hpoll env)

theorem sectionwise_records : Sectionwise (fun _ ↦ True) Records where
  refl := carries_records.refl
  register := records_register
  lock token _ g _ := carries_records.operation (fun _ _ _ h ↦ tells_tryLock h) token g
  lockRecv token unparker g :=
    carries_records.lockRecv (fun _ _ _ h ↦ tells_tryLock h) token unparker g
  call guard _ g := carries_records.derefMut (fun _ ↦ tells_of_eq rfl rfl) guard g
  unlock _ _ g := carries_records.unlockConn (fun _ _ _ h ↦ tells_unlock h) g
  takeConn := records_takeConn
  takeScid := records_takeScid
  close token _ _ _ _ g :=
    carries_records.operation (fun _ _ _ h ↦ elementary_tells.steady.close h) token g
  streamOpen token _ _ _ g :=
    carries_records.operation (fun _ _ _ h ↦ elementary_tells.streamOpen h) token g
  streamShutdown token _ _ _ g :=
    carries_records.operation (fun _ _ _ h ↦ elementary_tells.steady.streamClose h) token g

theorem chronicled_next {a : Action} (ha : ∀ env, a ≠ .poll env) :
    Chronicled w.group (w.next a).group :=
  (sectionwise_records.next ha fun _ _ _ ↦ trivial).chronicled

end Worlds

end ZeroRtt.Poll.Chronicle
