import ZeroRtt.Poll.Conn

namespace ZeroRtt.Poll.Evolution

open ZeroRtt.Lib.Panics ZeroRtt.Lib.Containers
open ZeroRtt.Api.Types ZeroRtt.Api.Quiche ZeroRtt.Poll.Schedule ZeroRtt.Poll.Conn

structure Seen where
  bidi : Option ℕ
  uni : Option ℕ

def Seen.get (seen : Seen) (id : ℕ) : Option ℕ := if isBidi id then seen.bidi else seen.uni

def Seen.set (seen : Seen) (id : ℕ) : Seen :=
  if isBidi id then { seen with bidi := some id } else { seen with uni := some id }

def Seen.classify (seen : Seen) (id : ℕ) : EventKind :=
  match seen.get id with
  | some max => if id > max then .streamAccept else .streamRecv
  | none => .streamAccept

def Seen.observe (isServer : Bool) (seen : Seen) (id : ℕ) : Seen :=
  if !isLocal id isServer && seen.classify id = .streamAccept then seen.set id else seen

def seenOf (c : QuicConn) : Seen := ⟨c.remoteStreamBidiSeen, c.remoteStreamUniSeen⟩

def reportEvent (token : Token) (isServer : Bool) (seen : Seen) (id : ℕ) : Event where
  token := token
  kind := if !isLocal id isServer then seen.classify id else .streamRecv
  isServer := isServer
  isError := false
  streamId := id

def applyObs (r : Readiness) : Obs → Readiness
  | .readable _ => r
  | .insert e delayTo => r.insert e delayTo
  | .remove e => r.remove e

/-- The observations of a connection from one state of its counters to
another: every report is followed by its event, and nothing else announces a
stream. -/
inductive Announces (token : Token) (isServer : Bool) : Seen → List Obs → Seen → Prop
  | nil (seen : Seen) : Announces token isServer seen [] seen
  | report {seen seen' : Seen} {obs : List Obs} (id : ℕ) :
      Announces token isServer (seen.observe isServer id) obs seen' →
      Announces token isServer seen
        (.readable id :: .insert (reportEvent token isServer seen id) none :: obs) seen'
  | insert {seen seen' : Seen} {obs : List Obs} (e : Event) (delayTo : Option Instant) :
      e.kind ≠ .streamAccept → Announces token isServer seen obs seen' →
      Announces token isServer seen (.insert e delayTo :: obs) seen'
  | remove {seen seen' : Seen} {obs : List Obs} (e : Event) :
      Announces token isServer seen obs seen' →
      Announces token isServer seen (.remove e :: obs) seen'

theorem Announces.trans {token : Token} {isServer : Bool} {a b c : Seen} {xs ys : List Obs}
    (h : Announces token isServer a xs b) (h' : Announces token isServer b ys c) :
    Announces token isServer a (xs ++ ys) c := by
  induction h with
  | nil => exact h'
  | report id _ ih => exact .report id (ih h')
  | insert e d hk _ ih => exact .insert e d hk (ih h')
  | remove e _ ih => exact .remove e (ih h')

/-- Everything a handler can do to a connection and to the readiness events,
apart from the set of operations to retry: some calls of quiche and some
observations. The lock is not touched. -/
structure Evolves (s s' : Ctx) (calls : List Call) (obs : List Obs) : Prop where
  token : s'.conn.token = s.conn.token
  locker : s'.conn.locker = s.conn.locker
  lockCount : s'.conn.lockCount = s.conn.lockCount
  readLockCount : s'.conn.readLockCount = s.conn.readLockCount
  wrapped : s'.conn.wrapped = s.conn.wrapped.after calls
  trace : s'.trace = s.trace ++ obs
  readiness : s'.readiness = obs.foldl applyObs s.readiness
  announces : Announces s.conn.token s.conn.wrapped.isServer (seenOf s.conn) obs (seenOf s'.conn)

theorem Evolves.refl (s : Ctx) : Evolves s s [] [] :=
  ⟨rfl, rfl, rfl, rfl, by simp, by simp, rfl, .nil _⟩

theorem Evolves.isServer {s s' : Ctx} {calls : List Call} {obs : List Obs}
    (h : Evolves s s' calls obs) : s'.conn.wrapped.isServer = s.conn.wrapped.isServer := by
  rw [h.wrapped, Connection.after_isServer]

theorem Evolves.event {s s' : Ctx} {calls : List Call} {obs : List Obs}
    (h : Evolves s s' calls obs) : s'.event = s.event := by
  funext kind isError streamId
  simp only [Ctx.event, h.token, h.isServer]

theorem Evolves.trans {s t u : Ctx} {xs ys : List Call} {os ps : List Obs}
    (h : Evolves s t xs os) (h' : Evolves t u ys ps) : Evolves s u (xs ++ ys) (os ++ ps) where
  token := h'.token.trans h.token
  locker := h'.locker.trans h.locker
  lockCount := h'.lockCount.trans h.lockCount
  readLockCount := h'.readLockCount.trans h.readLockCount
  wrapped := by rw [h'.wrapped, h.wrapped, Connection.after_after]
  trace := by rw [h'.trace, h.trace, List.append_assoc]
  readiness := by rw [h'.readiness, h.readiness, List.foldl_append]
  announces := h.announces.trans (by simpa only [h.token, h.isServer] using h'.announces)

def afterCalls (s : Ctx) (calls : List Call) : Ctx :=
  { s with conn.wrapped := s.conn.wrapped.after calls }

theorem afterCalls_afterCalls (s : Ctx) (xs ys : List Call) :
    afterCalls (afterCalls s xs) ys = afterCalls s (xs ++ ys) := by
  simp only [afterCalls, Connection.after_after]

theorem evolves_afterCalls (s : Ctx) (calls : List Call) : Evolves s (afterCalls s calls) calls [] :=
  ⟨rfl, rfl, rfl, rfl, rfl, by simp [afterCalls], rfl, .nil _⟩

theorem call_snd (s : Ctx) (c : Call) : (s.call c).2 = afterCalls s [c] := rfl

theorem evolves_call (s : Ctx) (c : Call) : Evolves s (s.call c).2 [c] [] :=
  evolves_afterCalls s [c]

theorem evolves_insert (s : Ctx) {e : Event} (d : Option Instant) (h : e.kind ≠ .streamAccept) :
    Evolves s (s.insert e d) [] [.insert e d] :=
  ⟨rfl, rfl, rfl, rfl, by simp [Ctx.insert], rfl, rfl, .insert e d h (.nil _)⟩

theorem evolves_remove (s : Ctx) (e : Event) : Evolves s (s.remove e) [] [.remove e] :=
  ⟨rfl, rfl, rfl, rfl, by simp [Ctx.remove], rfl, rfl, .remove e (.nil _)⟩

theorem evolves_retryLater (s : Ctx) (k : LocKind) : Evolves s (s.retryLater k) [] [] :=
  ⟨rfl, rfl, rfl, rfl, by simp [Ctx.retryLater], by simp [Ctx.retryLater], rfl, .nil _⟩

theorem evolves_takeStreamId (s : Ctx) (kind : StreamKind) :
    Evolves s (s.takeStreamId kind).2 [] [] := by
  cases kind
  · exact ⟨rfl, rfl, rfl, rfl, (Connection.after_nil _).symm, (List.append_nil _).symm, rfl, .nil _⟩
  · exact ⟨rfl, rfl, rfl, rfl, (Connection.after_nil _).symm, (List.append_nil _).symm, rfl, .nil _⟩

def nextStreamId (c : QuicConn) : StreamKind → ℕ
  | .uni => c.localStreamUniNext
  | .bidi => c.localStreamBidiNext

def openCalls (c : QuicConn) (kind : StreamKind) : List Call :=
  if c.wrapped.peerStreamsLeft kind = 0 then []
  else [.streamPriority (nextStreamId c kind) 255 true]

theorem evolves_streamOpenPrv (s : Ctx) (kind : StreamKind) :
    Evolves s (s.streamOpenPrv kind).2 (openCalls s.conn kind) [] ∧
      (s.streamOpenPrv kind).2.conn.reties = s.conn.reties := by
  unfold Ctx.streamOpenPrv openCalls
  by_cases h : s.conn.wrapped.peerStreamsLeft kind = 0
  · simp only [h, if_true]
    exact ⟨Evolves.refl s, trivial⟩
  · have htake := evolves_takeStreamId s kind
    have hid : (s.takeStreamId kind).1 = nextStreamId s.conn kind := by cases kind <;> rfl
    have hreties : (s.takeStreamId kind).2.conn.reties = s.conn.reties := by cases kind <;> rfl
    rcases hs : s.takeStreamId kind with ⟨id, t⟩
    rw [hs] at htake hreties hid
    obtain rfl : id = nextStreamId s.conn kind := hid
    have hcall := htake.trans (evolves_call t (.streamPriority (nextStreamId s.conn kind) 255 true))
    simp only [h, if_false]
    cases ha : (t.conn.wrapped.call (.streamPriority (nextStreamId s.conn kind) 255 true)).1 with
    | error err =>
      simp only [Ctx.call, ha]
      exact ⟨hcall, hreties⟩
    | ok u =>
      simp only [Ctx.call, ha]
      exact ⟨hcall, hreties⟩

end ZeroRtt.Poll.Evolution
