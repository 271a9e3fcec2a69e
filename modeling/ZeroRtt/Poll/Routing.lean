import ZeroRtt.Poll.Operations
import ZeroRtt.Poll.Tables

namespace ZeroRtt.Poll.Routing

open ZeroRtt.Lib.Panics ZeroRtt.Lib.Containers ZeroRtt.Lib.Runs ZeroRtt.Lib.TwoPhase
open ZeroRtt.Api.Types ZeroRtt.Api.Quiche ZeroRtt.Poll.Schedule ZeroRtt.Poll.Conn
open ZeroRtt.Poll.Unlock ZeroRtt.Poll.Locking ZeroRtt.Poll.Sections ZeroRtt.Poll.Walks
open ZeroRtt.Poll.Operations ZeroRtt.Poll.Tables

variable {α : Type} {g g' : Group} {token : Token} {c : QuicConn}

section Tokens

theorem mem_keys_of_freeToken {st : State} {n : ℕ} (h : st.freeToken n = none) :
    ∀ i < n, (⟨st.tokenNext + UInt32.ofNat i⟩ : Token) ∈ st.conns.keys := by
  induction n generalizing st with
  | zero => simp
  | succ n ih =>
    intro i hi
    simp only [State.freeToken] at h
    split at h
    next hsome =>
      cases i with
      | zero => simpa [AList.mem_keys, AList.lookup_isSome] using hsome
      | succ i =>
        have hnext := ih h i (Nat.lt_of_succ_lt_succ hi)
        have heq : st.tokenNext + 1 + UInt32.ofNat i = st.tokenNext + UInt32.ofNat (i + 1) := by
          rw [UInt32.ofNat_add, UInt32.add_assoc, UInt32.add_comm 1]
          rfl
        rwa [heq] at hnext
    next => cases h

/-- With fewer connections than tokens the search ends, wherever it starts. -/
theorem freeToken_ends {st : State} (h : st.conns.keys.length < 2 ^ 32) :
    ∃ token st', st.freeToken (2 ^ 32) = some (token, st') := by
  cases hfree : st.freeToken (2 ^ 32) with
  | some r => exact ⟨r.1, r.2, rfl⟩
  | none =>
    have hmem := mem_keys_of_freeToken hfree
    have hnodup : ((List.range (2 ^ 32)).map fun i ↦
        (⟨st.tokenNext + UInt32.ofNat i⟩ : Token)).Nodup := by
      refine List.Nodup.map_on ?_ List.nodup_range
      intro i hi j hj heq
      have hsum := (UInt32.add_right_inj st.tokenNext).mp (Token.mk.inj heq)
      have hi' := List.mem_range.mp hi
      have hj' := List.mem_range.mp hj
      have hnat := congrArg UInt32.toNat hsum
      rw [UInt32.toNat_ofNat', UInt32.toNat_ofNat', Nat.mod_eq_of_lt hi', Nat.mod_eq_of_lt hj'] at hnat
      exact hnat
    have hsub : ((List.range (2 ^ 32)).map fun i ↦
        (⟨st.tokenNext + UInt32.ofNat i⟩ : Token)) ⊆ st.conns.keys := by
      intro t ht
      obtain ⟨i, hi, rfl⟩ := List.mem_map.mp ht
      exact hmem i (List.mem_range.mp hi)
    have hle := (List.subperm_of_subset hnodup hsub).length_le
    rw [List.length_map, List.length_range] at hle
    exact absurd h (Nat.not_lt.mpr hle)

theorem freeToken_of_free {st : State} (h : st.conns.lookup token = none) :
    ∃ token st', st.freeToken (2 ^ 32) = some (token, st') := by
  cases hfree : st.freeToken (2 ^ 32) with
  | some r => exact ⟨r.1, r.2, rfl⟩
  | none =>
    have hmem := mem_keys_of_freeToken hfree _ (token.val - st.tokenNext).toNat_lt
    have htoken : (⟨st.tokenNext + UInt32.ofNat (token.val - st.tokenNext).toNat⟩ : Token) =
        token := by
      rw [UInt32.ofNat_toNat, UInt32.add_comm, UInt32.sub_add_cancel]
    rw [htoken, ← AList.mem_keys, ← AList.lookup_isSome, h] at hmem
    cases hmem

end Tokens

section Routes

/-- The tables of a group are inverse to each other, and stay so. -/
def Routed (g : Group) : Prop := Consistent ⟨g, [], []⟩

theorem Routed.lookup_iff (h : Routed g) {id : ConnectionId} :
    g.scids.lookup id = some token ↔
      ∃ c, g.state.conns.lookup token = some c ∧ c.wrapped.sourceId = id :=
  (h.indexed.inverse).trans Option.map_eq_some_iff

theorem Routed.touch (h : Routed g) (ht : Touches g g') : Routed g' := by
  have htouched : Consistent ⟨g', [], []⟩ := Consistent.touch h ht rfl
  exact htouched

theorem carries_routed : Carries (fun s t ↦ Continues s.conn t.conn) fun g g' ↦ Routed g → Routed g' where
  refl _ := id
  trans h h' := h' ∘ h
  unparked _ _ h := h.touch (.of_conns_eq rfl rfl)
  put hc hs h := h.touch (touches_put hc hs)

theorem Routed.deregister (h : Routed g) (hc : g.state.conns.lookup token = some c) :
    ∃ g', Group.deregister token g = .ok (.ok c.wrapped) g' ∧ Routed g' := by
  have htake := takeConn_of_some hc
  have hout := Consistent.takeConn h token
  simp only [Interleaving.World.takeConn, Interleaving.World.run, htake] at hout
  obtain ⟨hscid, hrouted⟩ := Consistent.takeScid
    (show Consistent ⟨_, [], [] ++ .takeScid token c.wrapped :: []⟩ from hout)
  refine ⟨_, ?_, hrouted⟩
  unfold Group.deregister
  rw [bind_of_ok htake]
  dsimp only
  rw [bind_of_ok hscid]
  rfl

theorem routed_deregister (token : Token) (g : Group) :
    Routed g → Routed (leftBy (Group.deregister token g)) := by
  intro h
  cases hc : g.state.conns.lookup token with
  | none =>
    rw [deregister_of_none hc]
    exact h
  | some c =>
    obtain ⟨g', hrun, hrouted⟩ := h.deregister hc
    rw [hrun]
    exact hrouted

theorem routed_poll (env : PollEnv) (g : Group) :
    Routed g → Routed (leftBy (Group.poll [] env g)) := by
  intro h
  unfold Group.poll
  split
  · exact h
  · exact h.touch (.of_conns_eq rfl rfl)

/-- What the elementary steps on a connection keep to `R`, and `deregister` to `S`, every
operation of a group keeps to `S`. -/
structure Operates (R : Ctx → Ctx → Prop) (S : Group → Group → Prop) : Prop where
  carries : Carries R S
  tryLock : ∀ {kind s r t}, Group.tryLock kind s = .ok (r, t) → R s t
  call : ∀ c s, R s (s.call c).2
  unlocks : ∀ {s n sendDone env closed t}, s.unlock n sendDone env = .ok (closed, t) → R s t
  deregister : ∀ token g, S g (leftBy (Group.deregister token g))

namespace Operates

variable {R : Ctx → Ctx → Prop} {S : Group → Group → Prop} (h : Operates R S)
include h

theorem unlock (ctx : LockContext) (env : UnlockEnv) (g : Group) :
    S g (leftBy (Group.unlock ctx env g)) := by
  refine h.carries.bind
    (h.carries.unlockConn fun _ _ _ ↦ h.unlocks) (fun closed g ↦ ?_) g
  cases closed with
  | false => exact h.carries.refl g
  | true =>
    refine h.carries.bind (h.deregister ctx.token) (fun _ g ↦ ?_) g
    exact h.carries.refl g

theorem lock (token : Token) (kind : LocKind) (g : Group) :
    S g (leftBy (Group.lock token kind g)) :=
  h.carries.operation (fun _ _ _ ↦ h.tryLock) token g

theorem derefMut (guard : Guard) (c : Call) (g : Group) :
    S g (leftBy (Group.derefMut guard c g)) :=
  h.carries.derefMut (h.call c) guard g

theorem streamSend (token : Token) (streamId : ℕ) (buf : Bytes) (fin : Bool) (env : UnlockEnv)
    (g : Group) : S g (leftBy (Group.streamSend token streamId buf fin env g)) := by
  refine h.carries.bind (h.lock token _) (fun r g ↦ ?_) g
  cases r with
  | error err => exact h.carries.refl g
  | ok guard =>
    refine h.carries.bind (h.derefMut guard _) (fun r g ↦ ?_) g
    refine h.carries.bind (h.unlock _ env) (fun _ g ↦ ?_) g
    rcases r with err | size
    · cases err <;> exact h.carries.refl g
    · exact h.carries.refl g

theorem streamRecv (token : Token) (streamId len : ℕ) (env : UnlockEnv) (g : Group) :
    S g (leftBy (Group.streamRecv token streamId len env g)) := by
  refine h.carries.bind (h.lock token _) (fun r g ↦ ?_) g
  cases r with
  | error err => exact h.carries.refl g
  | ok guard =>
    refine h.carries.bind (h.derefMut guard _) (fun r g ↦ ?_) g
    refine h.carries.bind (h.carries.deref guard) (fun conn g ↦ ?_) g
    refine h.carries.bind (h.unlock _ env) (fun _ g ↦ ?_) g
    rcases r with err | r
    · cases err <;> exact h.carries.refl g
    · exact h.carries.refl g

theorem send (token : Token) (len : ℕ) (now : Instant) (env : UnlockEnv) (g : Group) :
    S g (leftBy (Group.send token len now env g)) := by
  refine h.carries.bind (h.lock token _) (fun r g ↦ ?_) g
  cases r with
  | error err => exact h.carries.refl g
  | ok guard =>
    refine h.carries.bind (h.carries.deref guard) (fun conn g ↦ ?_) g
    split
    · refine h.carries.bind (h.unlock _ env) (fun _ g ↦ ?_) g
      exact h.carries.refl g
    · refine h.carries.bind (h.derefMut guard _) (fun _ g ↦ ?_) g
      refine h.carries.bind (h.derefMut guard _) (fun r g ↦ ?_) g
      rcases r with err | r
      · cases err <;>
          (refine h.carries.bind (h.unlock _ env) (fun _ g ↦ ?_) g; exact h.carries.refl g)
      · refine h.carries.bind (h.unlock _ env) (fun _ g ↦ ?_) g
        exact h.carries.refl g

theorem recvWithConnectionId (scid : ConnectionId) (buf : Bytes) (info : RecvInfo)
    (unparker : Option Unparker) (env : UnlockEnv) (g : Group) :
    S g (leftBy (Group.recvWithConnectionId scid buf info unparker env g)) := by
  refine h.carries.bind (fun g ↦ ?_) (fun r g ↦ ?_) g
  · unfold Group.lookupScid
    split <;> exact h.carries.refl g
  · cases r with
    | error err => exact h.carries.refl g
    | ok token =>
      refine h.carries.bind (h.carries.lockRecv (fun _ _ _ ↦ h.tryLock) token unparker) (fun r g ↦ ?_) g
      cases r with
      | error err => exact h.carries.refl g
      | ok guard =>
        refine h.carries.bind (h.derefMut guard _) (fun r g ↦ ?_) g
        refine h.carries.bind (h.unlock _ env) (fun _ g ↦ ?_) g
        cases r <;> exact h.carries.refl g

theorem recv (fromSlice : Group.FromSlice) (buf : Bytes) (info : RecvInfo) (env : UnlockEnv)
    (g : Group) : S g (leftBy (Group.recv fromSlice buf info env g)) := by
  unfold Group.recv
  cases fromSlice buf with
  | error err => exact h.carries.refl g
  | ok header =>
    refine h.carries.bind (h.recvWithConnectionId header.dcid buf info none env) (fun _ g ↦ ?_) g
    exact h.carries.refl g

theorem perform (hR : Elementary R) {op : Op} (hregister : ∀ conn env, op ≠ .register conn env)
    (hpoll : ∀ env, op ≠ .poll env) : S g (perform g op) := by
  cases op with
  | register conn env => exact absurd rfl (hregister conn env)
  | deregister token => exact h.deregister token g
  | close token app err reason env =>
    exact h.carries.operation (fun _ _ _ ↦ hR.steady.close) token g
  | streamOpen token kind nonBlocking env =>
    exact h.carries.operation (fun _ _ _ ↦ hR.streamOpen) token g
  | streamShutdown token streamId err env =>
    exact h.carries.operation (fun _ _ _ ↦ hR.steady.streamClose) token g
  | streamSend token streamId buf fin env => exact h.streamSend token streamId buf fin env g
  | streamRecv token streamId len env => exact h.streamRecv token streamId len env g
  | send token len now env => exact h.send token len now env g
  | recv fromSlice buf info env => exact h.recv fromSlice buf info env g
  | poll env => exact absurd rfl (hpoll env)

end Operates

/-- What goes on with the same quiche connections, and bears that one is taken out, is kept
by the operations of a group. -/
structure Persists (S : Group → Group → Prop) : Prop where
  carries : Carries (fun s t ↦ Continues s.conn t.conn) S
  deregister : ∀ token g, S g (leftBy (Group.deregister token g))
  poll : ∀ env g, S g (leftBy (Group.poll [] env g))

theorem persists_routed : Persists fun g g' ↦ Routed g → Routed g' :=
  ⟨carries_routed, routed_deregister, routed_poll⟩

namespace Persists

variable {S : Group → Group → Prop} (h : Persists S)
include h

theorem operates : Operates (fun s t ↦ Continues s.conn t.conn) S where
  carries := h.carries
  tryLock hlock := gentle_tryLock _ _ _ _ hlock
  call := continues_call
  unlocks hunlock := gentle_unlock _ _ _ _ _ _ hunlock
  deregister := h.deregister

theorem perform {op : Op} (hop : ∀ conn env, op ≠ .register conn env) : S g (perform g op) := by
  by_cases hpoll : ∃ env, op = .poll env
  · obtain ⟨env, rfl⟩ := hpoll
    exact h.poll env g
  · push Not at hpoll
    exact h.operates.perform elementary_continues hop hpoll

end Persists

end Routes

section Runs

/-- A connection is registered while no other one has its source id. -/
def Legal (g : Group) : Op → Prop
  | .register conn _ => conn.FixedSourceId ∧
    ∀ token c, g.state.conns.lookup token = some c → c.wrapped.sourceId ≠ conn.sourceId
  | _ => True

def step (g : Group) (op : Op) : Rust Group := .ok (perform g op)

theorem Routed.lookup_eq_none (h : Routed g) {id : ConnectionId}
    (hid : ∀ token c, g.state.conns.lookup token = some c → c.wrapped.sourceId ≠ id) :
    g.scids.lookup id = none := by
  cases hscid : g.scids.lookup id with
  | none => rfl
  | some token =>
    obtain ⟨c, hc, hsource⟩ := h.lookup_iff.mp hscid
    exact absurd hsource (hid token c hc)

theorem Routed.perform (h : Routed g) {op : Op} (hop : Legal g op) : Routed (perform g op) := by
  by_cases hregister : ∃ conn env, op = .register conn env
  · obtain ⟨conn, env, rfl⟩ := hregister
    exact Consistent.register h (register_cases g conn env) hop.1 (h.lookup_eq_none hop.2)
  · exact persists_routed.perform (fun conn env heq ↦ hregister ⟨conn, env, heq⟩) h

theorem idles_onConn {f : Ctx → Rust (Except Error α × Ctx)} {calls : QuicConn → List Call}
    (hf : ∀ c, Idle token c →
      ∃ a s closed, f (g.state.ctx c) = .ok (a, s) ∧
        Turn g.state.readiness token c (calls c) s closed) (h : Idles g) :
    Idles (leftBy ((do return (← Group.onConn token f).bind id : Section (Except Error α)) g)) := by
  rw [leftBy_bind fun _ _ ↦ rfl]
  cases hc : g.state.conns.lookup token with
  | none =>
    rw [onConn_of_none hc]
    exact h
  | some c =>
    obtain ⟨a, s, closed, hrun, hturn⟩ := hf c (h token c hc)
    rw [onConn_of_some hc hrun]
    intro t c' hc'
    by_cases ht : t = token
    · subst ht
      obtain rfl : s.conn = c' := Option.some.inj ((AList.lookup_insert _).symm.trans hc')
      exact hturn.idle
    · exact h t c' ((AList.lookup_insert_ne ht).symm.trans hc')

theorem idles_perform (h : Idles g) (op : Op) : Idles (perform g op) := by
  cases op with
  | register conn env =>
    unfold Operations.perform
    dsimp only
    have hcases := register_cases g conn env
    generalize Group.register conn env g = r at hcases ⊢
    cases hcases with
    | hangs => exact h
    | taken token tokenNext hfree hscid => exact h
    | @fresh token tokenNext n b k closed s log hfree hscid hspec hheld hcont =>
      have hturn : Turn g.state.readiness token (.new token conn) [] s closed :=
        turn_of_unlocked (s := g.state.ctx (relock (.new token conn) n b k)) rfl
          (idle_new token conn).waiting (Connection.after_nil _).symm rfl hspec hheld
      intro t c hc
      by_cases ht : t = token
      · subst ht
        obtain rfl : s.conn = c := Option.some.inj ((AList.lookup_insert _).symm.trans hc)
        exact hturn.idle
      · exact h t c ((AList.lookup_insert_ne ht).symm.trans hc)
  | deregister token => exact idles_effect h (effect_deregister token)
  | close token app err reason env =>
    exact idles_onConn (fun c hidle ↦ close_turn hidle g.state.readiness app err reason env) h
  | streamOpen token kind nonBlocking env =>
    exact idles_onConn (fun c hidle ↦ streamOpen_turn hidle g.state.readiness kind nonBlocking env) h
  | streamShutdown token streamId err env =>
    exact idles_onConn (fun c hidle ↦ streamClose_turn hidle g.state.readiness streamId err env) h
  | streamSend token streamId buf fin env =>
    exact idles_effect h (effect_streamSend h token streamId buf fin env)
  | streamRecv token streamId len env =>
    exact idles_effect h (effect_streamRecv h token streamId len env)
  | send token len now env => exact idles_effect h (effect_send h token len now env)
  | recv fromSlice buf info env => exact idles_effect h (effect_recv h fromSlice buf info env)
  | poll env => exact idles_effect h (effect_poll env)

theorem routed_of_run (h : Run step Legal .new g) : Routed g ∧ Idles g := by
  refine h.invariant (P := fun g ↦ Routed g ∧ Idles g) ⟨consistent_initial, ?_⟩ ?_
  · intro token c hc
    cases hc
  · rintro g g' op ⟨hrouted, hidles⟩ hop hstep
    cases hstep
    exact ⟨hrouted.perform hop, idles_perform hidles op⟩

end Runs

section Receiving

/-- The connection gets a token of its own and packets find it there, and nothing
changes for any other. -/
structure Arrives (g g' : Group) (token : Token) (q : Connection) : Prop where
  free : g.state.conns.lookup token = none
  here : ∃ c, g'.state.conns.lookup token = some c ∧ c.token = token ∧
    c.wrapped.sourceId = q.sourceId
  routed : g'.scids.lookup q.sourceId = some token
  conns : ∀ t, t ≠ token → g'.state.conns.lookup t = g.state.conns.lookup t
  scids : ∀ id, id ≠ q.sourceId → g'.scids.lookup id = g.scids.lookup id

def received (token : Token) : Except QuicheError ℕ → Except Error (Token × ℕ)
  | .ok recvSize => .ok (token, recvSize)
  | .error err => .error (.quiche err)

/-- A packet is received by the connection with this source id and by no other one, and
if there is none it is refused. -/
structure Reaches (g : Group) (scid : ConnectionId) (buf : Bytes) (info : RecvInfo)
    (unparker : Option Unparker) (env : UnlockEnv) : Prop where
  found : ∀ token c, g.state.conns.lookup token = some c → c.wrapped.sourceId = scid →
    ∃ g' s closed,
      Group.recvWithConnectionId scid buf info unparker env g =
        .ok (received token (c.wrapped.call (.recv buf info)).1) g' ∧
      Turn g.state.readiness token c [.recv buf info] s closed ∧ Ends g g' token s closed
  missing : (∃ g', Group.recvWithConnectionId scid buf info unparker env g =
      .ok (.error .notFound) g') ↔
    ∀ token c, g.state.conns.lookup token = some c → c.wrapped.sourceId ≠ scid

theorem Routed.arrives (h : Routed g) {q : Connection} (hq : q.FixedSourceId)
    (hid : ∀ token c, g.state.conns.lookup token = some c → c.wrapped.sourceId ≠ q.sourceId)
    (hlen : g.state.conns.keys.length < 2 ^ 32) (env : UnlockEnv) :
    ∃ token g', Group.register q env g = .ok (.ok token) g' ∧ Arrives g g' token q := by
  obtain ⟨token, st, hfree⟩ := freeToken_ends hlen
  obtain ⟨tokenNext, n, b, k, closed, s, log, -, -, hcont, hrun⟩ :=
    register_fresh env hfree (h.lookup_eq_none hid)
  refine ⟨token, _, hrun, (freeToken_spec hfree).1, ?_, AList.lookup_insert _, ?_, ?_⟩
  · exact ⟨s.conn, AList.lookup_insert _, hcont.token, (sourceId_of_continues hcont hq).1⟩
  · exact fun t ht ↦ AList.lookup_insert_ne ht
  · exact fun id hne ↦ AList.lookup_insert_ne hne

theorem Routed.unlock_returns (h : Routed g') {kind : LocKind} {calls : List Call}
    (hidle : Idle token c) (hk : kind ≠ .none) (hwork : Working g g' token (worked c kind calls))
    (sendDone : Bool) (env : UnlockEnv) :
    ∃ g'', Group.unlock { (guardOf c kind).lock with sendDone } env g' = .ok () g'' := by
  obtain ⟨s, closed, hturn, hsection⟩ := unlockConn_turn hidle hk hwork sendDone env
  have hrouted : Routed (leftBy (Group.unlockConn { (guardOf c kind).lock with sendDone } env g')) :=
    carries_routed.unlockConn (fun _ _ _ h ↦ gentle_unlock _ _ _ _ _ _ h) g' h
  rw [hsection] at hrouted
  have hhere : (unlockedGroup g' token s).state.conns.lookup c.token = some s.conn := by
    rw [hidle.token_eq]
    exact AList.lookup_insert _
  unfold Group.unlock
  rw [bind_of_ok hsection]
  cases closed with
  | false => exact ⟨_, rfl⟩
  | true =>
    obtain ⟨g'', hrun, -⟩ := Routed.deregister hrouted hhere
    have hrun : Group.deregister (guardOf c kind).lock.token (unlockedGroup g' token s) =
      .ok (.ok s.conn.wrapped) g'' := hrun
    exact ⟨g'', (bind_of_ok hrun).trans rfl⟩

theorem Routed.found (h : Routed g) (hidles : Idles g) (hc : g.state.conns.lookup token = some c)
    (buf : Bytes) (info : RecvInfo) (unparker : Option Unparker) (env : UnlockEnv) :
    ∃ g' s closed,
      Group.recvWithConnectionId c.wrapped.sourceId buf info unparker env g =
        .ok (received token (c.wrapped.call (.recv buf info)).1) g' ∧
      Turn g.state.readiness token c [.recv buf info] s closed ∧ Ends g g' token s closed := by
  have hidle := hidles token c hc
  have hlookup : Group.lookupScid c.wrapped.sourceId g = .ok (.ok token) g :=
    lookupScid_of_some (h.lookup_iff.mpr ⟨c, hc, rfl⟩)
  obtain ⟨g₁, hlock, hwork⟩ := lockRecv_working hc hidle unparker
  obtain ⟨g₂, hcall, hwork'⟩ := derefMut_working hidle hwork (.recv buf info)
  have hrouted₁ : Routed g₁ := by
    have hkept := carries_routed.lockRecv (fun s r t h ↦ gentle_tryLock .recv s r t h) token
      unparker g h
    rwa [hlock] at hkept
  have hrouted₂ : Routed g₂ := by
    have hkept := persists_routed.operates.derefMut (guardOf c .recv) (.recv buf info) g₁ hrouted₁
    rwa [hcall] at hkept
  obtain ⟨g', hunlock⟩ := hrouted₂.unlock_returns hidle (by simp) hwork' false env
  obtain ⟨s, closed, hturn, hends⟩ := unlock_ends hidle (by simp) hwork' false env
  rw [hunlock] at hends
  have hunlock : Group.unlock (guardOf c .recv).lock env g₂ = .ok () g' := hunlock
  refine ⟨g', s, closed, ?_, hturn, hends⟩
  unfold Group.recvWithConnectionId
  rw [bind_of_ok hlookup]
  dsimp only
  rw [bind_of_ok hlock]
  dsimp only
  rw [bind_of_ok hcall, bind_of_ok hunlock, Connection.after_nil]
  cases (c.wrapped.call (.recv buf info)).1 <;> rfl

theorem Routed.missing (h : Routed g) {scid : ConnectionId}
    (hid : ∀ token c, g.state.conns.lookup token = some c → c.wrapped.sourceId ≠ scid) (buf : Bytes)
    (info : RecvInfo) (unparker : Option Unparker) (env : UnlockEnv) :
    Group.recvWithConnectionId scid buf info unparker env g = .ok (.error .notFound) g :=
  recvWithConnectionId_of_none (h.lookup_eq_none hid) buf info unparker env

theorem Routed.reaches (h : Routed g) (hidles : Idles g) (scid : ConnectionId) (buf : Bytes)
    (info : RecvInfo) (unparker : Option Unparker) (env : UnlockEnv) :
    Reaches g scid buf info unparker env := by
  refine ⟨?_, ?_, ?_⟩
  · rintro token c hc rfl
    exact h.found hidles hc buf info unparker env
  · rintro ⟨g', hmissing⟩ token c hc rfl
    obtain ⟨g'', s, closed, hrun, -⟩ := h.found hidles hc buf info unparker env
    rw [hmissing] at hrun
    cases hanswer : (c.wrapped.call (.recv buf info)).1 <;> rw [hanswer] at hrun <;> cases hrun
  · intro hnone
    exact ⟨g, h.missing hnone buf info unparker env⟩

end Receiving

/-- After any operations one after the other, with fewer connections than tokens, a
connection that is registered gets a token that is free, tokens tell the connections apart,
and a packet reaches the connection with its destination as source id. -/
theorem registration_and_routing (h : Run step Legal .new g) :
    (∀ q env, q.FixedSourceId →
      (∀ token c, g.state.conns.lookup token = some c → c.wrapped.sourceId ≠ q.sourceId) →
      g.state.conns.keys.length < 2 ^ 32 →
      ∃ token g', Group.register q env g = .ok (.ok token) g' ∧ Arrives g g' token q) ∧
    (∀ token token' c c', g.state.conns.lookup token = some c →
      g.state.conns.lookup token' = some c' → c.token = c'.token → token = token') ∧
    ∀ scid buf info unparker env, Reaches g scid buf info unparker env := by
  obtain ⟨hrouted, hidles⟩ := routed_of_run h
  refine ⟨?_, ?_, hrouted.reaches hidles⟩
  · intro q env hq hid hlen
    exact hrouted.arrives hq hid hlen env
  · intro token token' c c' hc hc' htoken
    exact (hidles token c hc).token_eq.symm.trans (htoken.trans (hidles token' c' hc').token_eq)

theorem registration_and_routing_example :
    ∃ g, Run step Legal .new g ∧
      (∃ token g', Group.register (Script.connection ⟨true, [8], [], [], none⟩)
        .still g = .ok (.ok token) g' ∧
        Arrives g g' token (Script.connection ⟨true, [8], [], [], none⟩)) ∧
      ∀ scid buf info unparker env, Reaches g scid buf info unparker env := by
  have hserver : Run step Legal .new _ :=
    .one (i := .register (Script.connection ⟨true, [7], [], [], none⟩) .still)
      ⟨fun _ _ ↦ rfl, by rintro token c ⟨⟩⟩ rfl
  obtain ⟨hregister, -, hreaches⟩ := registration_and_routing hserver
  refine ⟨_, hserver, hregister _ _ (fun _ _ ↦ rfl) ?_ (by decide), hreaches⟩
  intro token c hc
  by_cases htoken : token = ⟨0⟩
  · subst htoken
    cases hc
    decide
  · have hnone : AList.lookup token (perform .new (.register
        (Script.connection ⟨true, [7], [], [], none⟩) .still)).state.conns = none :=
      AList.lookup_insert_ne htoken
    rw [hnone] at hc
    cases hc

end ZeroRtt.Poll.Routing
