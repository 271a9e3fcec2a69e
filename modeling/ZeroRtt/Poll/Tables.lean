import ZeroRtt.Lib.TwoPhase
import ZeroRtt.Poll.Interleaving
import ZeroRtt.Poll.Walks

namespace ZeroRtt.Poll.Tables

open ZeroRtt.Lib.Panics ZeroRtt.Lib.Containers ZeroRtt.Lib.Runs ZeroRtt.Lib.TwoPhase
open ZeroRtt.Api.Types ZeroRtt.Api.Quiche ZeroRtt.Poll.Schedule ZeroRtt.Poll.Conn
open ZeroRtt.Poll.Evolution ZeroRtt.Poll.Retries ZeroRtt.Poll.Unlock ZeroRtt.Poll.Locking
open ZeroRtt.Poll.Sections ZeroRtt.Poll.Walks ZeroRtt.Poll.Interleaving

variable {α : Type} {s s' : Ctx} {c c' : QuicConn}

section Continuing

def Gentle (f : Ctx → Rust (α × Ctx)) : Prop :=
  ∀ s a s', f s = .ok (a, s') → Continues s.conn s'.conn

theorem continues_grants {kind : LocKind} {r : Except Error LockContext}
    (h : c.tryLockPrv kind = .ok (r, c')) : Continues c c' := by
  rcases tryLockPrv_cases h with ⟨_, n, b, k, -, rfl⟩ | ⟨-, rfl⟩
  · exact .of_wrapped_eq rfl rfl
  · exact continues_refuse c kind

theorem continues_release {n : ℕ} (h : c.release n = .ok c') : Continues c c' := by
  obtain ⟨m, b, k, rfl⟩ := release_cases h
  exact .of_wrapped_eq rfl rfl

theorem continues_retries {ks : List LocKind} (h : ks.foldlM Ctx.handleRetryEvent s = .ok s') :
    Continues s.conn s'.conn := by
  induction ks generalizing s with
  | nil =>
    cases h
    exact .of_wrapped_eq rfl rfl
  | cons k ks ih =>
    obtain ⟨t, ht, h⟩ := bind_ok h
    by_cases hk : k = .none
    · subst hk
      cases ht
    · obtain ⟨t', ht', hretried⟩ := handleRetryEvent_ok s hk
      rw [ht] at ht'
      cases ht'
      exact (continues_of_evolves hretried.evolves).trans (ih h)

theorem gentle_unlock (n : ℕ) (sendDone : Bool) (env : UnlockEnv) :
    Gentle fun s ↦ s.unlock n sendDone env := by
  intro s closed s' h
  obtain ⟨c, hc, h⟩ := bind_ok h
  obtain ⟨t, ht, h⟩ := bind_ok h
  have hclear : Continues c { c with reties := .empty } := .of_wrapped_eq rfl rfl
  have hretry := hclear.trans (continues_retries ht)
  obtain ⟨calls, obs, hdrain, -, -⟩ := (drained_handleStreamStateChanged t).evolves
  have hsend := evolves_handleSend t.handleStreamStateChanged sendDone env.now
  have hstate := (evolves_handleStateChanged
    (t.handleStreamStateChanged.handleSend sendDone env.now)).1
  obtain rfl : (t.handleStreamStateChanged.handleSend sendDone env.now).handleStateChanged.2 = s' :=
    congrArg Prod.snd (Except.ok.inj h)
  exact (continues_release hc).trans (hretry.trans
    (continues_of_evolves ((hdrain.trans hsend).trans hstate)))

theorem gentle_tryLock (kind : LocKind) : Gentle (Group.tryLock kind) := by
  intro s r s' h
  obtain ⟨⟨r₁, c₁⟩, hlock, h⟩ := bind_ok h
  cases h
  exact continues_grants hlock

theorem continues_call (c : Call) (s : Ctx) : Continues s.conn (s.call c).2.conn :=
  continues_of_evolves (evolves_call s c)

theorem elementary_continues : Elementary fun s t ↦ Continues s.conn t.conn where
  trans := .trans
  lock _ hlock := continues_grants hlock
  calls _ := continues_of_evolves (evolves_afterCalls _ _)
  opens s kind := continues_of_evolves (evolves_streamOpenPrv s kind).1
  later _ _ := .of_wrapped_eq rfl rfl
  unlock hrun := gentle_unlock _ _ _ _ _ _ hrun

theorem gentle_close (app : Bool) (err : ℕ) (reason : Bytes) (env : UnlockEnv) :
    Gentle fun s ↦ s.close app err reason env :=
  fun _ _ _ h ↦ elementary_continues.steady.close h

theorem gentle_streamClose (streamId err : ℕ) (env : UnlockEnv) :
    Gentle fun s ↦ s.streamClose streamId err env :=
  fun _ _ _ h ↦ elementary_continues.steady.streamClose h

theorem gentle_streamOpen (kind : StreamKind) (nonBlocking : Bool) (env : UnlockEnv) :
    Gentle fun s ↦ s.streamOpen kind nonBlocking env :=
  fun _ _ _ h ↦ elementary_continues.streamOpen h

end Continuing

variable {g g' : Group} {w : World} {token : Token}

def sources (g : Group) (token : Token) : Option ConnectionId :=
  (g.state.conns.lookup token).map fun conn ↦ conn.wrapped.sourceId

theorem sources_insert (h : g'.state.conns = g.state.conns.insert token c) :
    sources g' = Function.update (sources g) token (some c.wrapped.sourceId) := by
  funext t
  by_cases ht : t = token
  · subst ht
    simp only [sources, h, AList.lookup_insert, Option.map_some, Function.update_self]
  · simp only [sources, h, AList.lookup_insert_ne ht, Function.update_of_ne ht]

theorem sources_erase (h : g'.state.conns = g.state.conns.erase token) :
    sources g' = Function.update (sources g) token none := by
  funext t
  by_cases ht : t = token
  · subst ht
    simp only [sources, h, AList.lookup_erase, Option.map_none, Function.update_self]
  · simp only [sources, h, AList.lookup_erase_ne ht, Function.update_of_ne ht]

def Fixed (g : Group) : Prop :=
  ∀ token conn, g.state.conns.lookup token = some conn → conn.wrapped.FixedSourceId

section Touching

structure Touches (g g' : Group) : Prop where
  scids : g'.scids = g.scids
  conns : ∀ t, g.state.conns.lookup t = none ∧ g'.state.conns.lookup t = none ∨
    ∃ c c', g.state.conns.lookup t = some c ∧ g'.state.conns.lookup t = some c' ∧ Continues c c'

theorem Touches.of_conns_eq (hscids : g'.scids = g.scids) (h : g'.state.conns = g.state.conns) :
    Touches g g' := by
  refine ⟨hscids, ?_⟩
  intro t
  rw [h]
  cases hc : g.state.conns.lookup t with
  | none => exact .inl ⟨rfl, rfl⟩
  | some c => exact .inr ⟨c, c, rfl, rfl, .of_wrapped_eq rfl rfl⟩

theorem Touches.trans {g'' : Group} (h : Touches g g') (h' : Touches g' g'') : Touches g g'' := by
  refine ⟨h'.scids.trans h.scids, ?_⟩
  intro t
  rcases h.conns t with ⟨hc, hc'⟩ | ⟨c, c', hc, hc', hcont⟩
  · rcases h'.conns t with ⟨-, hc''⟩ | ⟨_, _, heq, -⟩
    · exact .inl ⟨hc, hc''⟩
    · rw [hc'] at heq
      cases heq
  · rcases h'.conns t with ⟨heq, -⟩ | ⟨_, c'', heq, hc'', hcont'⟩
    · rw [hc'] at heq
      cases heq
    · rw [hc'] at heq
      cases heq
      exact .inr ⟨c, c'', hc, hc'', hcont.trans hcont'⟩

theorem touches_put (hc : g.state.conns.lookup token = some c) (hcont : Continues c s.conn) :
    Touches g { g with state := g.state.put token s } := by
  refine ⟨rfl, ?_⟩
  intro t
  by_cases ht : t = token
  · subst ht
    exact .inr ⟨c, s.conn, hc, AList.lookup_insert _, hcont⟩
  · have hne : (g.state.put token s).conns.lookup t = g.state.conns.lookup t :=
      AList.lookup_insert_ne ht
    cases hct : g.state.conns.lookup t with
    | none => exact .inl ⟨rfl, hne.trans hct⟩
    | some c' => exact .inr ⟨c', c', rfl, hne.trans hct, .of_wrapped_eq rfl rfl⟩

theorem carries_touches : Carries (fun s t ↦ Continues s.conn t.conn) Touches where
  refl _ := .of_conns_eq rfl rfl
  trans := .trans
  unparked _ _ := .of_conns_eq rfl rfl
  put := touches_put

theorem sourceId_of_continues (h : Continues c c') (hfix : c.wrapped.FixedSourceId) :
    c'.wrapped.sourceId = c.wrapped.sourceId ∧ c'.wrapped.FixedSourceId := by
  obtain ⟨-, calls, hcalls⟩ := h
  rw [hcalls]
  exact ⟨hfix.sourceId_after calls, hfix.after calls⟩

theorem Touches.sources_eq (h : Touches g g') (hfix : Fixed g) : sources g' = sources g := by
  funext t
  rcases h.conns t with ⟨hc, hc'⟩ | ⟨c, c', hc, hc', hcont⟩
  · simp only [sources, hc, hc']
  · simp only [sources, hc, hc', Option.map_some]
    rw [(sourceId_of_continues hcont (hfix t c hc)).1]

theorem Touches.fixed (h : Touches g g') (hfix : Fixed g) : Fixed g' := by
  intro t c₁ hc₁
  rcases h.conns t with ⟨-, hc'⟩ | ⟨c, c', hc, hc', hcont⟩
  · rw [hc'] at hc₁
    cases hc₁
  · obtain rfl : c' = c₁ := by simpa [hc'] using hc₁
    exact (sourceId_of_continues hcont (hfix t c hc)).2

end Touching

section Consistency

def leavingOf : Pending → Option (Token × ConnectionId)
  | .takeScid token conn => some (token, conn.sourceId)
  | _ => none

/-- The connections that are out of `conns` and not yet out of `scids`. -/
def leaving (pending : List Pending) : List (Token × ConnectionId) := pending.filterMap leavingOf

structure Consistent (w : World) : Prop where
  fixed : Fixed w.group
  indexed : Indexed (sources w.group) (fun id ↦ w.group.scids.lookup id) (leaving w.pending)

theorem consistent_initial : Consistent .initial := by
  have hnone : ∀ token, World.initial.group.state.conns.lookup token = none :=
    fun token ↦ AList.lookup_empty token
  refine ⟨?_, ?_⟩
  · intro token conn h
    rw [hnone] at h
    cases h
  · have hsources : sources World.initial.group = fun _ ↦ none := by
      funext token
      simp only [sources, hnone, Option.map_none]
    rw [hsources]
    exact .empty

theorem Consistent.touch (h : Consistent w) {w' : World} (ht : Touches w.group w'.group)
    (hp : leaving w'.pending = leaving w.pending) : Consistent w' := by
  refine ⟨ht.fixed h.fixed, ?_⟩
  rw [ht.sources_eq h.fixed, ht.scids, hp]
  exact h.indexed

theorem Consistent.register (h : Consistent w) {q : Connection} {env : UnlockEnv}
    {r : EStateM.Result Panic Group (Except Error Token)} (hr : Registers w.group q env r)
    (hfix : q.FixedSourceId) (hfresh : w.group.scids.lookup q.sourceId = none) :
    Consistent { w with group := leftBy r } := by
  cases hr with
  | hangs => exact h
  | taken token tokenNext hnone hscid =>
    rw [hfresh] at hscid
    cases hscid
  | @fresh token tokenNext n b k closed s log hnone hscid hunlocked hheld hcont =>
    obtain ⟨hsource, hfix'⟩ := sourceId_of_continues hcont hfix
    have hlookup : ∀ t, t ≠ token →
        ((w.group.state.conns.insert token s.conn).lookup t) = w.group.state.conns.lookup t :=
      fun t ht ↦ AList.lookup_insert_ne ht
    refine ⟨?_, ?_⟩
    · intro t c hc
      by_cases ht : t = token
      · subst ht
        obtain rfl : s.conn = c := Option.some.inj ((AList.lookup_insert _).symm.trans hc)
        exact hfix'
      · exact h.fixed t c ((hlookup t ht).symm.trans hc)
    · have hconns : sources ⟨State.put { w.group.state with
          tokenNext, history := w.group.state.history ++ [Happening.registered token] } token s,
          w.group.scids.insert q.sourceId token⟩ = _ := sources_insert (g := w.group) (c := s.conn) rfl
      have hid : s.conn.wrapped.sourceId = q.sourceId := hsource
      have hins := h.indexed.insert (k := token) (x := q.sourceId)
        (by simp only [sources, hnone, Option.map_none]) hscid
      rw [← lookup_insert_eq_update, ← hid, ← hconns, hid] at hins
      exact hins

theorem Consistent.takeConn (h : Consistent w) (token : Token) :
    Consistent (w.takeConn token) := by
  unfold World.takeConn World.run
  cases hc : w.group.state.conns.lookup token with
  | none =>
    rw [takeConn_of_none hc]
    exact h
  | some c =>
    rw [takeConn_of_some hc]
    refine ⟨?_, ?_⟩
    · intro t c' hc'
      by_cases ht : t = token
      · subst ht
        have hnone : (w.group.state.conns.erase t).lookup t = none := AList.lookup_erase _ _
        cases hnone.symm.trans hc'
      · exact h.fixed t c' ((AList.lookup_erase_ne ht).symm.trans hc')
    · have hsource : sources w.group token = some c.wrapped.sourceId := by
        simp only [sources, hc, Option.map_some]
      have hdetach := h.indexed.detach hsource
      have herase : sources { w.group with state.conns := w.group.state.conns.erase token } =
          Function.update (sources w.group) token none := sources_erase rfl
      rwa [← herase] at hdetach

theorem eraseIdx_split {β : Type} {l : List β} {i : ℕ} {p : β} (h : l[i]? = some p) :
    ∃ before after, l = before ++ p :: after ∧ l.eraseIdx i = before ++ after := by
  obtain ⟨hi, rfl⟩ := List.getElem?_eq_some_iff.mp h
  refine ⟨l.take i, l.drop (i + 1), ?_, List.eraseIdx_eq_take_drop_succ ..⟩
  rw [← List.drop_eq_getElem_cons hi, List.take_append_drop]

theorem Consistent.takeScid {before after : List Pending} {conn : Connection} {guards : List Guard}
    (h : Consistent ⟨g, guards, before ++ .takeScid token conn :: after⟩) :
    Group.takeScid token conn g = .ok () { g with scids := g.scids.erase conn.sourceId } ∧
      Consistent ⟨{ g with scids := g.scids.erase conn.sourceId }, guards, before ++ after⟩ := by
  have hindexed := h.indexed
  have hsplit : leaving (before ++ .takeScid token conn :: after) =
      leaving before ++ (token, conn.sourceId) :: leaving after := by
    simp [leaving, leavingOf]
  rw [hsplit] at hindexed
  obtain ⟨hid, hrest⟩ := hindexed.discard
  refine ⟨?_, h.fixed, ?_⟩
  · simp only [Group.takeScid, hid, if_true]
  · have hleft : leaving (before ++ after) = leaving before ++ leaving after := by simp [leaving]
    rw [← lookup_erase_eq_update, ← hleft] at hrest
    exact hrest

end Consistency

section Interleavings

def registers (w : World) : Action → Option (Connection × UnlockEnv)
  | .connect conn env => some (conn, env)
  | .resume i _ (some conn) env =>
    match w.pending[i]? with
    | some (.handshake _) => some (conn, env)
    | _ => none
  | _ => none

/-- A guard points into the table of connections, whose entries move when a
registration makes it grow. So nothing is registered while a guard is held. -/
def GrowsUnguarded (w : World) (a : Action) : Prop :=
  ∀ conn env, registers w a = some (conn, env) → w.guards = []

/-- Source ids never change, `connect` uses fresh ones, and an accepted
connection has the one that its first packet was sent to. -/
def SourceIds (w : World) : Action → Prop
  | .connect conn _ => conn.FixedSourceId ∧ w.group.scids.lookup conn.sourceId = none
  | .resume i _ (some conn) _ => ∀ dcid, w.pending[i]? = some (.handshake dcid) →
      conn.FixedSourceId ∧ conn.sourceId = dcid
  | _ => True

/-- A packet is only taken for the first one of a connection as long as no
connection with its id is in the group or on its way out of it. -/
def AcceptsUnknown (w : World) : Action → Prop
  | .resume i _ (some _) _ => ∀ dcid, w.pending[i]? = some (.handshake dcid) →
      (∀ token conn, w.group.state.conns.lookup token = some conn →
        conn.wrapped.sourceId ≠ dcid) ∧
      ∀ token conn, .takeScid token conn ∈ w.pending → conn.sourceId ≠ dcid
  | _ => True

theorem Consistent.lookup_eq_none (h : Consistent w) {dcid : ConnectionId}
    (hlive : ∀ token conn, w.group.state.conns.lookup token = some conn →
      conn.wrapped.sourceId ≠ dcid)
    (hleaving : ∀ token conn, .takeScid token conn ∈ w.pending → conn.sourceId ≠ dcid) :
    w.group.scids.lookup dcid = none := by
  refine h.indexed.index_eq_none ?_ ?_
  · intro t ht
    obtain ⟨c, hc, hid⟩ := Option.map_eq_some_iff.mp ht
    exact hlive t c hc hid
  · intro t ht
    obtain ⟨p, hp, hpt⟩ := List.mem_filterMap.mp ht
    cases p with
    | takeScid token conn =>
      obtain ⟨rfl, hid⟩ : token = t ∧ conn.sourceId = dcid := by simpa [leavingOf] using hpt
      exact hleaving token conn hp hid
    | _ => cases hpt

theorem Consistent.registers_free (h : Consistent w) {a : Action} {conn : Connection}
    {env : UnlockEnv} (hs : SourceIds w a) (hu : AcceptsUnknown w a)
    (hr : registers w a = some (conn, env)) :
    conn.FixedSourceId ∧ w.group.scids.lookup conn.sourceId = none := by
  cases a with
  | connect q e =>
    cases hr
    exact hs
  | resume i unparker accepted e =>
    cases accepted with
    | none => cases hr
    | some q =>
      cases hp : w.pending[i]? with
      | none => simp [registers, hp] at hr
      | some p =>
        cases p with
        | handshake dcid =>
          obtain ⟨rfl, rfl⟩ : q = conn ∧ e = env := by simpa [registers, hp] using hr
          obtain ⟨hfix, rfl⟩ := hs dcid hp
          obtain ⟨hlive, hleaving⟩ := hu _ hp
          exact ⟨hfix, h.lookup_eq_none hlive hleaving⟩
        | _ => simp [registers, hp] at hr
  | _ => cases hr

theorem Consistent.run (h : Consistent w) {x : Section α} {k : World → α → World}
    (hx : Touches w.group (leftBy (x w.group)))
    (hk : ∀ w a, (k w a).group = w.group ∧ leaving (k w a).pending = leaving w.pending) :
    Consistent (w.run x k) := by
  unfold World.run
  cases hr : x w.group with
  | ok a g' =>
    rw [hr] at hx
    obtain ⟨hgroup, hpending⟩ := hk { w with group := g' } a
    exact h.touch (by rw [hgroup]; exact hx) hpending
  | error panic g' =>
    rw [hr] at hx
    exact h.touch hx rfl

theorem Consistent.operate (h : Consistent w) {f : Ctx → Rust (Except Error α × Ctx)}
    (hf : Gentle f) (token : Token) {k : World → Except Error α → World}
    (hk : ∀ w a, (k w a).group = w.group ∧ leaving (k w a).pending = leaving w.pending) :
    Consistent (w.run (do return (← Group.onConn token f).bind id) k) := by
  exact h.run (carries_touches.operation hf token w.group) hk

theorem consistent_resume {before after : List Pending} {p : Pending} {guards : List Guard}
    (h : Consistent ⟨g, guards, before ++ p :: after⟩) (unparker : Option Unparker)
    (accepted : Option Connection) (env : UnlockEnv)
    (hfree : ∀ dcid conn, p = .handshake dcid → accepted = some conn →
      conn.FixedSourceId ∧ g.scids.lookup conn.sourceId = none) :
    Consistent (World.resume ⟨g, guards, before ++ after⟩ unparker accepted env p) := by
  have hrest : leavingOf p = none → Consistent ⟨g, guards, before ++ after⟩ := by
    intro hp
    exact h.touch (.of_conns_eq rfl rfl) (by simp [leaving, hp])
  cases p with
  | takeConn token => exact (hrest rfl).takeConn token
  | takeScid token conn =>
    obtain ⟨hrun, hdone⟩ := h.takeScid
    simp only [World.resume, World.run, hrun]
    exact hdone
  | lockRecv dcid token =>
    simp only [World.resume]
    apply (hrest rfl).run (carries_touches.lockRecv (gentle_tryLock .recv) token unparker g)
    intro w r
    rcases r with err | guard
    · cases err <;> exact ⟨rfl, rfl⟩
    · exact ⟨rfl, rfl⟩
  | handshake dcid =>
    cases accepted with
    | none => exact hrest rfl
    | some conn =>
      obtain ⟨hfix, hnone⟩ := hfree dcid conn rfl rfl
      have hregister := (hrest rfl).register (register_cases g conn env) hfix hnone
      simp only [World.resume, World.run]
      cases hr : Group.register conn env g <;> rwa [hr] at hregister

theorem consistent_next (h : Consistent w) {a : Action} (hs : SourceIds w a)
    (hu : AcceptsUnknown w a) : Consistent (w.next a) := by
  have hfree : ∀ conn env, registers w a = some (conn, env) →
      conn.FixedSourceId ∧ w.group.scids.lookup conn.sourceId = none :=
    fun _ _ ↦ h.registers_free hs hu
  cases a with
  | connect conn env =>
    obtain ⟨hfix, hnone⟩ := hfree conn env rfl
    have hregister := h.register (register_cases w.group conn env) hfix hnone
    simp only [World.next, World.run]
    cases hr : Group.register conn env w.group <;> rwa [hr] at hregister
  | lock token kind =>
    apply h.operate (gentle_tryLock kind) token
    intro w r
    cases r <;> exact ⟨rfl, rfl⟩
  | call guard c => exact h.run (carries_touches.derefMut (continues_call c) guard w.group) fun _ _ ↦ ⟨rfl, rfl⟩
  | unlock guard sendDone env =>
    have hw : Consistent { w with guards := w.guards.erase guard } := ⟨h.fixed, h.indexed⟩
    simp only [World.next]
    apply hw.run (carries_touches.unlockConn (gentle_unlock _ _ env) w.group)
    intro w closed
    cases closed <;> exact ⟨rfl, rfl⟩
  | deregister token => exact h.takeConn token
  | close token app err reason env =>
    exact h.operate (gentle_close app err reason env) token fun _ _ ↦ ⟨rfl, rfl⟩
  | streamOpen token kind nonBlocking env =>
    exact h.operate (gentle_streamOpen kind nonBlocking env) token fun _ _ ↦ ⟨rfl, rfl⟩
  | streamShutdown token streamId err env =>
    exact h.operate (gentle_streamClose streamId err env) token fun _ _ ↦ ⟨rfl, rfl⟩
  | poll env =>
    simp only [World.next]
    refine h.run ?_ fun _ _ ↦ ⟨rfl, rfl⟩
    unfold Group.poll
    cases w.group.state.readiness.poll [] defaultReleaseTimerThreshold env <;>
      exact .of_conns_eq rfl rfl
  | lookupScid dcid =>
    simp only [World.next]
    refine h.run ?_ ?_
    · unfold Group.lookupScid
      cases w.group.scids.lookup dcid <;> exact .of_conns_eq rfl rfl
    · intro w r
      cases r <;> exact ⟨rfl, rfl⟩
  | resume i unparker accepted env =>
    simp only [World.next]
    cases hp : w.pending[i]? with
    | none => exact h
    | some p =>
      obtain ⟨before, after, hsplit, herase⟩ := eraseIdx_split hp
      have hw : Consistent ⟨w.group, w.guards, before ++ p :: after⟩ := by
        rw [← hsplit]
        exact ⟨h.fixed, h.indexed⟩
      simp only [herase]
      apply consistent_resume hw unparker accepted env
      rintro dcid conn rfl rfl
      exact hfree conn env (by simp only [registers, hp])

theorem run_consistent (h : Run step (fun w a ↦ SourceIds w a ∧ AcceptsUnknown w a) .initial w) :
    Consistent w := by
  apply h.invariant (P := Consistent) consistent_initial
  intro w w' a hw ha hstep
  cases hstep
  exact consistent_next hw ha.1 ha.2

/-- As long as no packet is taken for the first one of a connection that is
still known, the assertions of `register` and `deregister` hold, and the tables
are inverse to each other whenever no `deregister` is halfway through. -/
theorem tables_agree (h : Run step (fun w a ↦ SourceIds w a ∧ AcceptsUnknown w a) .initial w) :
    (∀ a conn env g', SourceIds w a → AcceptsUnknown w a → registers w a = some (conn, env) →
      Group.register conn env w.group ≠ .error .assertion g') ∧
    (∀ token conn, .takeScid token conn ∈ w.pending →
      ∃ g', Group.takeScid token conn w.group = .ok () g') ∧
    ((∀ token conn, .takeScid token conn ∉ w.pending) → ∀ id token,
      w.group.scids.lookup id = some token ↔
        ∃ conn, w.group.state.conns.lookup token = some conn ∧ conn.wrapped.sourceId = id) := by
  have hw := run_consistent h
  refine ⟨?_, ?_, ?_⟩
  · intro a conn env g' hs hu hr hassert
    obtain ⟨-, hnone⟩ := hw.registers_free hs hu hr
    have hcases := register_cases w.group conn env
    rw [hassert] at hcases
    cases hcases with
    | taken token tokenNext hfree hscid =>
      rw [hnone] at hscid
      cases hscid
  · intro token conn hmem
    obtain ⟨before, after, hsplit⟩ := List.append_of_mem hmem
    have hsplitted : Consistent ⟨w.group, w.guards, before ++ .takeScid token conn :: after⟩ := by
      rw [← hsplit]
      exact ⟨hw.fixed, hw.indexed⟩
    exact ⟨_, hsplitted.takeScid.1⟩
  · intro hnone id token
    have hnil : leaving w.pending = [] := by
      apply List.filterMap_eq_nil_iff.mpr
      intro p hp
      cases p with
      | takeScid token conn => exact absurd hp (hnone token conn)
      | _ => rfl
    have hindexed := hw.indexed
    rw [hnil] at hindexed
    rw [hindexed.inverse]
    exact Option.map_eq_some_iff

def accepted : Connection := Script.connection ⟨true, [7], [], [], none⟩

def serving : World :=
  (World.initial.next (.lookupScid [7])).next (.resume 0 none (some accepted) .still)

theorem accepted_sourceIds {w : World} {i : ℕ} {unparker : Option Unparker} {env : UnlockEnv}
    (h : ∀ dcid, w.pending[i]? = some (.handshake dcid) → dcid = [7]) :
    SourceIds w (.resume i unparker (some accepted) env) := by
  intro dcid hp
  exact ⟨fun _ _ ↦ rfl, (h dcid hp).symm⟩

theorem tables_agree_example :
    ∃ w w' conn, Run step (fun w a ↦ SourceIds w a ∧ AcceptsUnknown w a) .initial w ∧
      Run step (fun w a ↦ SourceIds w a ∧ AcceptsUnknown w a) w w' ∧
      .takeScid ⟨0⟩ conn ∈ w.pending ∧ w.group.scids.lookup [7] = some ⟨0⟩ ∧
      w.group.state.conns.lookup ⟨0⟩ = none ∧
      (∃ g', Group.takeScid ⟨0⟩ conn w.group = .ok () g') ∧
      ∀ id token, w'.group.scids.lookup id = some token ↔
        ∃ conn, w'.group.state.conns.lookup token = some conn ∧ conn.wrapped.sourceId = id := by
  have hlookup : Run step (fun w a ↦ SourceIds w a ∧ AcceptsUnknown w a) .initial _ :=
    .one (i := .lookupScid [7]) ⟨trivial, trivial⟩ rfl
  have haccept : Run step (fun w a ↦ SourceIds w a ∧ AcceptsUnknown w a) .initial serving := by
    refine hlookup.tail (i := .resume 0 none (some accepted) .still) ⟨?_, ?_⟩ rfl
    · refine accepted_sourceIds fun dcid hp ↦ ?_
      cases hp
      rfl
    · intro dcid hp
      refine ⟨fun token conn hc ↦ ?_, fun token conn hmem ↦ ?_⟩
      · cases hc
      · simp [World.next, World.run, World.spawn, Group.lookupScid, World.initial, Group.new] at hmem
  have hderegister := haccept.tail (i := .deregister ⟨0⟩) ⟨by trivial, by trivial⟩ rfl
  have hresume : Run step (fun w a ↦ SourceIds w a ∧ AcceptsUnknown w a)
      (serving.next (.deregister ⟨0⟩)) _ :=
    .one (i := .resume 0 none none .still) ⟨trivial, trivial⟩ rfl
  obtain ⟨-, htakes, -⟩ := tables_agree hderegister
  obtain ⟨-, -, hinverse⟩ := tables_agree (hderegister.trans hresume)
  refine ⟨_, _, _, hderegister, hresume, List.mem_cons_self .., rfl, rfl,
    htakes _ _ (List.mem_cons_self ..), hinverse ?_⟩
  intro token conn hmem
  cases hmem

/-- A packet finds its connection in `scids` and no longer in `conns`. The
connection that is accepted for it runs into the assertion of `register`. -/
theorem tables_disagree :
    ∃ w a conn env g', Run step (fun w a ↦ Legal w a ∧ SourceIds w a) .initial w ∧
      Legal w a ∧ SourceIds w a ∧ registers w a = some (conn, env) ∧
      Group.register conn env w.group = .error .assertion g' := by
  have hlookup : Run step (fun w a ↦ Legal w a ∧ SourceIds w a) .initial _ :=
    .one (i := .lookupScid [7]) ⟨trivial, trivial⟩ rfl
  have haccept : Run step (fun w a ↦ Legal w a ∧ SourceIds w a) .initial serving := by
    refine hlookup.tail (i := .resume 0 none (some accepted) .still) ⟨trivial, ?_⟩ rfl
    refine accepted_sourceIds fun dcid hp ↦ ?_
    cases hp
    rfl
  have hderegister := haccept.tail (i := .deregister ⟨0⟩) ⟨by trivial, by trivial⟩ rfl
  have hpacket := hderegister.tail (i := .lookupScid [7]) ⟨by trivial, by trivial⟩ rfl
  have hmissing := hpacket.tail (i := .resume 0 none none .still)
    ⟨by trivial, by trivial⟩ rfl
  refine ⟨_, .resume 0 none (some accepted) .still, accepted, .still, _,
    hmissing, trivial, accepted_sourceIds fun dcid hp ↦ ?_, rfl, rfl⟩
  cases hp
  rfl

end Interleavings

end ZeroRtt.Poll.Tables
