import ZeroRtt.Poll.Accepting
import ZeroRtt.Poll.Routing

namespace ZeroRtt.Poll.Serving

open ZeroRtt.Lib.Panics ZeroRtt.Lib.Containers
open ZeroRtt.Api.Types ZeroRtt.Api.Quiche ZeroRtt.Api.Handshakes
open ZeroRtt.Poll.Schedule ZeroRtt.Poll.Conn ZeroRtt.Poll.Locking ZeroRtt.Poll.Sections
open ZeroRtt.Poll.Walks ZeroRtt.Poll.Operations ZeroRtt.Poll.Tables ZeroRtt.Poll.Routing
open ZeroRtt.Poll.Accepting (KeepsSourceId)

variable {α Config : Type}

/-- What a call of `recv_with_acceptor` reads from outside, with an unlock for each guard
that it drops, and what quiche makes of the buffer when it answers. -/
structure Env (Config : Type) where
  acceptor : Acceptor Config
  received : UnlockEnv
  registered : UnlockEnv
  first : UnlockEnv
  sent : UnlockEnv
  now : Instant
  written : Bytes → Bytes

def reply (info : RecvInfo) (now : Instant) : SendInfo := ⟨info.toAddr, info.fromAddr, now⟩

/-- `send` of a connection that has just received a packet. -/
def respond (token : Token) (buf : Bytes) (info : RecvInfo) (env : Env Config) :
    Section (Except Error (ℕ × SendInfo) × Bytes) := do
  match ← Group.send token buf.length env.now env.sent with
  | .error .busy | .error .retry => return (.ok (0, reply info env.now), env.written buf)
  | r => return (r, env.written buf)

/-- The arm of `recv_with_acceptor` for a packet of no connection. -/
def greet (lib : Library Config) (header : Header) (buf : Bytes) (recvSize : ℕ) (info : RecvInfo)
    (env : Env Config) : Section (Except Error (ℕ × SendInfo) × Bytes) := do
  match ← ofExcept (env.acceptor.handshake lib header buf recvSize info) with
  | (.ok (.accept conn), buf) =>
    match ← Group.register conn env.registered with
    | .error err => return (.error err, buf)
    | .ok token =>
      let packet ← ofExcept (slice buf 0 recvSize)
      match ← Group.recvWithConnectionId header.dcid packet info none env.first with
      | .ok _ => respond token buf info env
      | .error .busy | .error .retry =>
        throw (.unreachable "Newly registered connections should be idle")
      | .error err => return (.error err, buf)
  | (.ok (.handshake sendSize), buf) => return (.ok (sendSize, reply info env.now), buf)
  | (.error err, buf) => return (.error err, buf)

def recvWithAcceptor (lib : Library Config) (fromSlice : Group.FromSlice) (buf : Bytes)
    (recvSize : ℕ) (info : RecvInfo) (unparker : Option Unparker) (env : Env Config) :
    Section (Except Error (ℕ × SendInfo) × Bytes) := do
  let packet ← ofExcept (slice buf 0 recvSize)
  match fromSlice packet with
  | .error err => return (.error (.quiche err), buf)
  | .ok header =>
    match ← Group.recvWithConnectionId header.dcid packet info unparker env.received with
    | .ok (token, _) => respond token buf info env
    | .error .notFound => greet lib header buf recvSize info env
    | .error err => return (.error err, buf)

variable {g g' : Group} {token : Token} {c : QuicConn}

section Sanity

def Fits (q : Connection) : Prop :=
  ∀ h len n info, q.answer h (.send len) = .ok (n, info) → n ≤ len

/-- A group between two operations of a single thread. -/
structure Sane (g : Group) : Prop where
  routed : Routed g
  idles : Idles g
  fits : ∀ token c, g.state.conns.lookup token = some c → Fits c.wrapped

theorem fits_of_continues {c' : QuicConn} (h : Continues c c') (hfits : Fits c.wrapped) :
    Fits c'.wrapped := by
  obtain ⟨-, calls, hcalls⟩ := h
  rw [hcalls]
  exact hfits

def AllFit (g : Group) : Prop :=
  ∀ token c, g.state.conns.lookup token = some c → Fits c.wrapped

theorem AllFit.erase (h : AllFit g) (token : Token) :
    AllFit { g with state.conns := g.state.conns.erase token } := by
  intro t c hc
  by_cases ht : t = token
  · subst ht
    cases (AList.lookup_erase _ _).symm.trans hc
  · exact h t c ((AList.lookup_erase_ne ht).symm.trans hc)

theorem AllFit.insert {n : State} {s : Ctx} {scids : HashMap ConnectionId Token} (h : AllFit g)
    (hn : n.conns = g.state.conns) (hs : Fits s.conn.wrapped) : AllFit ⟨n.put token s, scids⟩ := by
  intro t c hc
  by_cases ht : t = token
  · subst ht
    obtain rfl : s.conn = c := Option.some.inj ((AList.lookup_insert _).symm.trans hc)
    exact hs
  · have hlookup := (AList.lookup_insert_ne ht).symm.trans hc
    rw [hn] at hlookup
    exact h t c hlookup

theorem persists_fits : Persists fun g g' ↦ AllFit g → AllFit g' where
  carries :=
    { refl _ := id
      trans h h' := h' ∘ h
      unparked _ _ h := h
      put hc hs h := h.insert rfl (fits_of_continues hs (h _ _ hc)) }
  deregister := by
    intro token g h
    cases hc : g.state.conns.lookup token with
    | none =>
      rw [deregister_of_none hc]
      exact h
    | some c =>
      have herased : AllFit (leftBy (Group.deregister token g)) := by
        unfold AllFit
        rw [deregister_of_some hc]
        exact h.erase token
      exact herased
  poll := by
    intro env g h
    unfold Group.poll
    split <;> exact h

theorem AllFit.register (h : AllFit g) {q : Connection} (hq : Fits q) {env : UnlockEnv}
    {r : EStateM.Result Panic Group (Except Error Token)} (hr : Registers g q env r) :
    AllFit (leftBy r) := by
  cases hr with
  | hangs => exact h
  | taken => exact h
  | @fresh token tokenNext n b k closed s log hnone hscid hunlocked hheld hcont =>
    have hs : Fits s.conn.wrapped := fits_of_continues hcont hq
    exact h.insert rfl hs

theorem Sane.of_persists (h : Sane g) (hg : ∀ {S : Group → Group → Prop}, Persists S → S g g')
    (hidles : Idles g') : Sane g' :=
  ⟨hg persists_routed h.routed, hidles, hg persists_fits h.fits⟩

theorem sane_new : Sane .new := by
  refine ⟨consistent_initial, ?_, ?_⟩
  · intro token c hc
    cases hc
  · intro token c hc
    cases hc

theorem Sane.perform (h : Sane g) {op : Op} (hop : Legal g op)
    (hfits : ∀ conn env, op = .register conn env → Fits conn) : Sane (perform g op) := by
  refine ⟨h.routed.perform hop, idles_perform h.idles op, ?_⟩
  by_cases hregister : ∃ conn env, op = .register conn env
  · obtain ⟨conn, env, rfl⟩ := hregister
    exact AllFit.register h.fits (hfits conn env rfl) (register_cases g conn env)
  · exact persists_fits.perform (fun conn env heq ↦ hregister ⟨conn, env, heq⟩) h.fits

theorem Sane.received (h : Sane g) (hc : g.state.conns.lookup token = some c) (buf : Bytes)
    (info : RecvInfo) (unparker : Option Unparker) (env : UnlockEnv) :
    ∃ g', Group.recvWithConnectionId c.wrapped.sourceId buf info unparker env g =
      .ok (received token (c.wrapped.call (.recv buf info)).1) g' ∧ Sane g' := by
  obtain ⟨g', s, closed, hrun, hturn, hends⟩ := h.routed.found h.idles hc buf info unparker env
  refine ⟨g', hrun, h.of_persists (fun {S} hS ↦ ?_) ?_⟩
  · have hg := hS.operates.recvWithConnectionId c.wrapped.sourceId buf info unparker env g
    rwa [hrun] at hg
  · exact idles_effect h.idles (.turn token c _ s closed hc hturn hends)

theorem Sane.send_returns (h : Sane g) (token : Token) (len : ℕ) (now : Instant)
    (env : UnlockEnv) :
    ∃ r g', Group.send token len now env g = .ok r g' ∧ ∀ n info, r = .ok (n, info) → n ≤ len := by
  unfold Group.send
  cases hc : g.state.conns.lookup token with
  | none =>
    rw [bind_of_ok (lock_of_none hc _)]
    exact ⟨_, g, rfl, by simp⟩
  | some c =>
    have hidle := h.idles token c hc
    have hk : LocKind.recv ≠ .none := by simp
    obtain ⟨g₁, hlock, hwork₁⟩ := lock_working hc hidle .recv
    have hrouted₁ : Routed g₁ := by
      have hkept := persists_routed.operates.lock token .recv g h.routed
      rwa [hlock] at hkept
    rw [bind_of_ok hlock]
    dsimp only
    rw [bind_of_ok (deref_working hidle hwork₁)]
    split
    · obtain ⟨g', hunlock⟩ := hrouted₁.unlock_returns hidle hk hwork₁ false env
      exact ⟨_, g', bind_of_ok hunlock, by simp⟩
    · obtain ⟨g₂, htimeout, hwork₂⟩ := derefMut_working hidle hwork₁ .onTimeout
      obtain ⟨g₃, hsend, hwork₃⟩ := derefMut_working hidle hwork₂ (.send len)
      have hrouted₃ : Routed g₃ := by
        have hkept₂ := persists_routed.operates.derefMut (guardOf c .recv) .onTimeout g₁ hrouted₁
        rw [htimeout] at hkept₂
        have hkept₃ := persists_routed.operates.derefMut (guardOf c .recv) (.send len) g₂ hkept₂
        rwa [hsend] at hkept₃
      rw [bind_of_ok htimeout, bind_of_ok hsend]
      have hfits : ∀ n info,
          ((c.wrapped.after ([] ++ [.onTimeout])).call (.send len)).1 = .ok (n, info) → n ≤ len :=
        fun n info ↦ h.fits token c hc _ len n info
      generalize ((c.wrapped.after ([] ++ [.onTimeout])).call (.send len)).1 = r at hfits
      rcases r with err | r
      · cases err with
        | done =>
          obtain ⟨g', hunlock⟩ := hrouted₃.unlock_returns hidle hk hwork₃ true env
          exact ⟨_, g', bind_of_ok hunlock, by simp⟩
        | other code =>
          obtain ⟨g', hunlock⟩ := hrouted₃.unlock_returns hidle hk hwork₃ false env
          exact ⟨_, g', bind_of_ok hunlock, by simp⟩
      · obtain ⟨g', hunlock⟩ := hrouted₃.unlock_returns hidle hk hwork₃ false env
        exact ⟨_, g', bind_of_ok hunlock, fun n info heq ↦ hfits n info (Except.ok.inj heq ▸ rfl)⟩

theorem Sane.sends (h : Sane g) (token : Token) (len : ℕ) (now : Instant) (env : UnlockEnv) :
    ∃ r g', Group.send token len now env g = .ok r g' ∧
      (∀ n info, r = .ok (n, info) → n ≤ len) ∧ Sane g' := by
  obtain ⟨r, g', hrun, hsize⟩ := h.send_returns token len now env
  have hidles := idles_effect h.idles (effect_send h.idles token len now env)
  rw [hrun] at hidles
  refine ⟨r, g', hrun, hsize, h.of_persists (fun {S} hS ↦ ?_) hidles⟩
  have hg := hS.operates.send token len now env g
  rwa [hrun] at hg

end Sanity

section Answers

variable {lib : Library Config} {fromSlice : Group.FromSlice} {header : Header} {buf out : Bytes}
variable {recvSize : ℕ} {info : RecvInfo} {unparker : Option Unparker} {env : Env Config}
variable {r : Except Error (ℕ × SendInfo)}

/-- The call returns with an answer for now, of a size that fits, and leaves the group
sane. -/
def Settles (x : Section (Except Error (ℕ × SendInfo) × Bytes)) (len : ℕ) (g : Group) : Prop :=
  ∃ r out g', x g = .ok (r, out) g' ∧ Settled r ∧ (∀ n info, r = .ok (n, info) → n ≤ len) ∧ Sane g'

theorem Sane.responds (h : Sane g) (token : Token) (buf : Bytes) (info : RecvInfo)
    (env : Env Config) : Settles (respond token buf info env) buf.length g := by
  obtain ⟨r, g', hrun, hsize, hsane⟩ := h.sends token buf.length env.now env.sent
  have hzero : ∀ n i, (Except.ok (0, reply info env.now) : Except Error (ℕ × SendInfo)) =
      .ok (n, i) → n ≤ buf.length := by
    rintro n i ⟨⟩
    exact Nat.zero_le _
  unfold Settles respond
  rw [bind_of_ok hrun]
  rcases r with err | r
  · cases err with
    | busy => exact ⟨_, _, g', rfl, settled_ok _, hzero, hsane⟩
    | retry => exact ⟨_, _, g', rfl, settled_ok _, hzero, hsane⟩
    | _ => exact ⟨_, _, g', rfl, ⟨by simp, by simp⟩, hsize, hsane⟩
  · exact ⟨_, _, g', rfl, settled_ok _, hsize, hsane⟩

def Unknown (g : Group) (id : ConnectionId) : Prop :=
  ∀ token c, g.state.conns.lookup token = some c → c.wrapped.sourceId ≠ id

theorem Sane.receives (h : Sane g) (scid : ConnectionId) (buf : Bytes) (info : RecvInfo)
    (unparker : Option Unparker) (env : UnlockEnv) :
    ∃ r g', Group.recvWithConnectionId scid buf info unparker env g = .ok r g' ∧ Settled r ∧
      Sane g' := by
  by_cases hid : Unknown g scid
  · exact ⟨_, g, h.routed.missing hid buf info unparker env, ⟨by simp, by simp⟩, h⟩
  · simp only [Unknown, not_forall, not_not] at hid
    obtain ⟨token, c, hc, rfl⟩ := hid
    obtain ⟨g', hrun, hsane⟩ := h.received hc buf info unparker env
    refine ⟨_, g', hrun, ?_, hsane⟩
    cases (c.wrapped.call (.recv buf info)).1 with
    | error err => exact settled_quiche err
    | ok n => exact settled_ok _

/-- What quiche promises of the packets that it writes for an acceptor, and of the
connections that it accepts. -/
structure Reliable (lib : Library Config) : Prop where
  negotiate : ∀ {scid dcid buf n out}, lib.negotiateVersion scid dcid buf = (.ok n, out) →
    n ≤ buf.length
  retry : ∀ {scid dcid newScid token version buf n out},
    lib.retry scid dcid newScid token version buf = (.ok n, out) → n ≤ buf.length
  keepsSourceId : KeepsSourceId lib
  accept : ∀ {scid odcid localAddr peer config conn},
    lib.accept scid odcid localAddr peer config = .ok conn → conn.FixedSourceId ∧ Fits conn

/-- The acceptor has an answer to the packet, and a token for its connection if it accepts
one. -/
structure Welcome (lib : Library Config) (a : Acceptor Config) (g : Group) (header : Header)
    (buf : Bytes) (recvSize : ℕ) (info : RecvInfo) : Prop where
  answerable : Answerable lib a header info
  room : ∀ conn out, a.handshake lib header buf recvSize info = .ok (.ok (.accept conn), out) →
    ∃ token, g.state.conns.lookup token = none

theorem Sane.registers (h : Sane g) {q : Connection} (hq : q.FixedSourceId) (hfits : Fits q)
    (hid : Unknown g q.sourceId) (hfree : ∃ token, g.state.conns.lookup token = none)
    (env : UnlockEnv) :
    ∃ token g' c, Group.register q env g = .ok (.ok token) g' ∧ Sane g' ∧
      g'.state.conns.lookup token = some c ∧ c.wrapped.sourceId = q.sourceId := by
  obtain ⟨free, hfree⟩ := hfree
  obtain ⟨token, st, hsearch⟩ := freeToken_of_free hfree
  obtain ⟨tokenNext, n, b, k, closed, s, log, -, -, hcont, hrun⟩ :=
    register_fresh env hsearch (h.routed.lookup_eq_none hid)
  have hsane : Sane (Operations.perform g (.register q env)) := by
    refine h.perform ⟨hq, hid⟩ ?_
    rintro conn env ⟨⟩
    exact hfits
  simp only [Operations.perform, hrun, leftBy] at hsane
  exact ⟨token, _, s.conn, hrun, hsane, AList.lookup_insert _, (sourceId_of_continues hcont hq).1⟩

theorem ofExcept_of_ok {x : Rust α} {a : α} (h : x = .ok a) :
    (ofExcept x : Section α) g = .ok a g := by
  subst h
  rfl

theorem slice_packet (h : recvSize ≤ buf.length) :
    (ofExcept (slice buf 0 recvSize) : Section Bytes) g = .ok (buf.take recvSize) g :=
  ofExcept_of_ok (slice_of_le (Nat.zero_le _) h)

theorem Sane.greets (h : Sane g) (hlib : Reliable lib) (hlen : recvSize ≤ buf.length)
    (hid : Unknown g header.dcid) (hw : Welcome lib env.acceptor g header buf recvSize info) :
    Settles (greet lib header buf recvSize info env) buf.length g := by
  obtain ⟨r, out, hrun, hsettled⟩ :=
    (handshake_settles_iff lib env.acceptor header buf recvSize info).mpr hw.answerable
  unfold Settles greet
  rw [bind_of_ok (ofExcept_of_ok hrun)]
  cases handshake_answers hrun with
  | negotiates _ hpacket =>
    refine ⟨_, _, g, rfl, settled_ok _, ?_, h⟩
    rintro n i ⟨⟩
    exact hlib.negotiate hpacket
  | retries _ _ hpacket =>
    refine ⟨_, _, g, rfl, settled_ok _, ?_, h⟩
    rintro n i ⟨⟩
    exact hlib.retry hpacket
  | fails err out => exact ⟨_, _, g, rfl, settled_quiche err, by simp, h⟩
  | invalid => exact ⟨_, _, g, rfl, ⟨by simp, by simp⟩, by simp, h⟩
  | unminted hmint => exact ⟨_, _, g, rfl, hsettled.error, by simp, h⟩
  | @accepts odcid conn haccept =>
    obtain ⟨hq, hfits⟩ := hlib.accept haccept
    have hsource : conn.sourceId = header.dcid := hlib.keepsSourceId haccept
    obtain ⟨token, g₁, c, hregister, hsane₁, hc, hcsource⟩ :=
      h.registers hq hfits (hsource.symm ▸ hid) (hw.room _ _ hrun) env.registered
    obtain ⟨g₂, hrecv, hsane₂⟩ := hsane₁.received hc (buf.take recvSize) info none env.first
    rw [hcsource, hsource] at hrecv
    dsimp only
    rw [bind_of_ok hregister]
    dsimp only
    rw [bind_of_ok (slice_packet hlen), bind_of_ok hrecv]
    cases (c.wrapped.call (.recv (buf.take recvSize) info)).1 with
    | error err => exact ⟨_, _, g₂, rfl, settled_quiche err, by simp, hsane₂⟩
    | ok n => exact hsane₂.responds token buf info env

theorem hangs_of_full {q : Connection} {env : UnlockEnv}
    (h : ∀ token, g.state.conns.lookup token ≠ none) :
    Group.register q env g = .error .hangs g := by
  unfold Group.register
  cases hsearch : g.state.freeToken (2 ^ 32) with
  | none => rfl
  | some found => exact absurd (freeToken_spec hsearch).1 (h found.1)

theorem welcome_of_greets {g' : Group}
    (hrun : greet lib header buf recvSize info env g = .ok (r, out) g') (hsettled : Settled r) :
    Welcome lib env.acceptor g header buf recvSize info := by
  unfold greet at hrun
  cases hanswer : env.acceptor.handshake lib header buf recvSize info with
  | error panic =>
    rw [hanswer] at hrun
    cases hrun
  | ok answer =>
    obtain ⟨answer, out'⟩ := answer
    rw [bind_of_ok (ofExcept_of_ok hanswer)] at hrun
    refine ⟨(handshake_settles_iff lib env.acceptor header buf recvSize info).mp
      ⟨answer, out', hanswer, ?_⟩, ?_⟩
    · cases answer with
      | error err =>
        cases hrun
        exact hsettled.error
      | ok _ => exact settled_ok _
    · rintro conn out heq
      rw [hanswer] at heq
      cases heq
      by_contra hfull
      dsimp only at hrun
      simp only [bind, EStateM.bind, hangs_of_full (not_exists.mp hfull)] at hrun
      cases hrun

/-- A packet that does not parse, that is for a connection of the group, or that the
acceptor welcomes. -/
def Servable (lib : Library Config) (fromSlice : Group.FromSlice) (a : Acceptor Config) (g : Group)
    (buf : Bytes) (recvSize : ℕ) (info : RecvInfo) : Prop :=
  ∀ header, fromSlice (buf.take recvSize) = .ok header → Unknown g header.dcid →
    Welcome lib a g header buf recvSize info

theorem recvWithAcceptor_of_header (hlen : recvSize ≤ buf.length)
    (hheader : fromSlice (buf.take recvSize) = .ok header) :
    recvWithAcceptor lib fromSlice buf recvSize info unparker env g =
      (do
        match ← Group.recvWithConnectionId header.dcid (buf.take recvSize) info unparker
          env.received with
        | .ok (token, _) => respond token buf info env
        | .error .notFound => greet lib header buf recvSize info env
        | .error err => return (.error err, buf) :
          Section (Except Error (ℕ × SendInfo) × Bytes)) g := by
  unfold recvWithAcceptor
  rw [bind_of_ok (slice_packet hlen), hheader]

theorem Sane.recvWithAcceptor_unknown (h : Sane g) (hlen : recvSize ≤ buf.length)
    (hheader : fromSlice (buf.take recvSize) = .ok header) (hid : Unknown g header.dcid) :
    recvWithAcceptor lib fromSlice buf recvSize info unparker env g =
      greet lib header buf recvSize info env g := by
  rw [recvWithAcceptor_of_header hlen hheader, bind_of_ok (h.routed.missing hid _ _ _ _)]

theorem Sane.settles (h : Sane g) (hlib : Reliable lib) (hlen : recvSize ≤ buf.length)
    (hservable : Servable lib fromSlice env.acceptor g buf recvSize info)
    (unparker : Option Unparker) :
    Settles (recvWithAcceptor lib fromSlice buf recvSize info unparker env) buf.length g := by
  cases hheader : fromSlice (buf.take recvSize) with
  | error err =>
    refine ⟨.error (.quiche err), buf, g, ?_, settled_quiche err, by simp, h⟩
    unfold recvWithAcceptor
    rw [bind_of_ok (slice_packet hlen), hheader]
    rfl
  | ok header =>
    unfold Settles
    by_cases hid : Unknown g header.dcid
    · rw [h.recvWithAcceptor_unknown hlen hheader hid]
      exact h.greets hlib hlen hid (hservable header hheader hid)
    · simp only [Unknown, not_forall, not_not] at hid
      obtain ⟨token, c, hc, hsource⟩ := hid
      obtain ⟨g₁, hrecv, hsane₁⟩ :=
        h.received hc (buf.take recvSize) info unparker env.received
      rw [hsource] at hrecv
      rw [recvWithAcceptor_of_header hlen hheader, bind_of_ok hrecv]
      cases (c.wrapped.call (.recv (buf.take recvSize) info)).1 with
      | error err => exact ⟨_, _, g₁, rfl, settled_quiche err, by simp, hsane₁⟩
      | ok n => exact hsane₁.responds token buf info env

theorem Sane.settles_iff (h : Sane g) (hlib : Reliable lib) (hlen : recvSize ≤ buf.length) :
    (∃ r out g', recvWithAcceptor lib fromSlice buf recvSize info unparker env g =
      .ok (r, out) g' ∧ Settled r) ↔
      Servable lib fromSlice env.acceptor g buf recvSize info := by
  constructor
  · rintro ⟨r, out, g', hrun, hsettled⟩ header hheader hid
    rw [h.recvWithAcceptor_unknown hlen hheader hid] at hrun
    exact welcome_of_greets hrun hsettled
  · intro hservable
    obtain ⟨r, out, g', hrun, hsettled, -⟩ := h.settles hlib hlen hservable unparker
    exact ⟨r, out, g', hrun, hsettled⟩

end Answers

end ZeroRtt.Poll.Serving
