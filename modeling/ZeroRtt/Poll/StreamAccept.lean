import ZeroRtt.Poll.LockProtocol

namespace ZeroRtt.Poll.StreamAccept

open ZeroRtt.Lib.Panics ZeroRtt.Lib.Containers ZeroRtt.Lib.Runs
open ZeroRtt.Api.Types ZeroRtt.Api.Quiche ZeroRtt.Poll.Schedule ZeroRtt.Poll.Conn
open ZeroRtt.Poll.Evolution ZeroRtt.Poll.Retries ZeroRtt.Poll.Unlock
open ZeroRtt.Poll.Locking ZeroRtt.Poll.LockProtocol

variable {token : Token} {isServer : Bool} {seen seen' : Seen} {obs before after : List Obs}
variable {past : List ℕ} {id : ℕ}

/-- The remote stream id is larger than all those of its direction in the past. -/
def Newest (isServer : Bool) (past : List ℕ) (id : ℕ) : Prop :=
  ∀ j ∈ past, isLocal j isServer = false → isBidi j = isBidi id → j < id

instance : Decidable (Newest isServer past id) :=
  inferInstanceAs (Decidable (∀ j ∈ past, isLocal j isServer = false → isBidi j = isBidi id → j < id))

section Counters

def Tracks (isServer : Bool) (seen : Seen) (past : List ℕ) : Prop :=
  ∀ id, seen.classify id = if Newest isServer past id then .streamAccept else .streamRecv

theorem tracks_nil : Tracks isServer ⟨none, none⟩ [] := by
  intro id
  simp [Seen.classify, Seen.get, Newest]

theorem newest_append_of_local (h : isLocal id isServer = true) (x : ℕ) :
    Newest isServer (past ++ [id]) x ↔ Newest isServer past x := by
  simp [Newest, or_imp, forall_and, h]

theorem newest_append_of_remote (h : isLocal id isServer = false) (x : ℕ) :
    Newest isServer (past ++ [id]) x ↔
      Newest isServer past x ∧ (isBidi id = isBidi x → id < x) := by
  simp [Newest, or_imp, forall_and, h]

theorem classify_set (seen : Seen) (id x : ℕ) :
    (seen.set id).classify x =
      if isBidi id = isBidi x then (if x > id then .streamAccept else .streamRecv)
      else seen.classify x := by
  unfold Seen.classify Seen.get Seen.set
  cases isBidi id <;> cases isBidi x <;> simp

theorem Tracks.observe (h : Tracks isServer seen past) (id : ℕ) :
    Tracks isServer (seen.observe isServer id) (past ++ [id]) := by
  intro x
  unfold Seen.observe
  cases hl : isLocal id isServer with
  | true =>
    rw [if_congr (newest_append_of_local hl x) rfl rfl]
    simpa using h x
  | false =>
    rw [if_congr (newest_append_of_remote hl x) rfl rfl, h id]
    by_cases hn : Newest isServer past id
    · simp only [hn, if_true, Bool.not_false, decide_true, Bool.and_self, classify_set, h x]
      by_cases hd : isBidi id = isBidi x
      · have hx : id < x → Newest isServer past x :=
          fun hlt j hj hjl hjd ↦ (hn j hj hjl (hjd.trans hd.symm)).trans hlt
        by_cases hlt : id < x
        · simp [hd, hlt, hx hlt]
        · simp [hd, hlt]
      · simp [hd]
    · have hx : Newest isServer past x → isBidi id = isBidi x → id < x := by
        intro hnx hd
        unfold Newest at hn
        push Not at hn
        obtain ⟨j, hj, hjl, hjd, hle⟩ := hn
        exact lt_of_le_of_lt hle (hnx j hj hjl (hjd.trans hd))
      have hand : (Newest isServer past x ∧ (isBidi id = isBidi x → id < x)) ↔
          Newest isServer past x := ⟨And.left, fun hnx ↦ ⟨hnx, hx hnx⟩⟩
      rw [if_congr hand rfl rfl]
      simpa [hn] using h x

end Counters

section Reports

def reports (obs : List Obs) : List ℕ :=
  obs.filterMap fun
    | .readable id => some id
    | _ => none

def accepts (id : ℕ) : Obs → Bool
  | .insert e _ => e.kind = .streamAccept && e.streamId = id
  | _ => false

/-- Remote streams are first reported in increasing order, in each direction. -/
def Increasing (isServer : Bool) (ids : List ℕ) : Prop :=
  ∀ past id rest, ids = past ++ id :: rest → isLocal id isServer = false → id ∉ past →
    Newest isServer past id

/-- Every remote stream is announced at its first report, and only there. -/
structure AnnouncedOnce (token : Token) (isServer : Bool) (obs : List Obs) : Prop where
  event : ∀ before id after, obs = before ++ .readable id :: after → isLocal id isServer = false →
    ∃ rest, after = .insert ⟨token, if id ∈ reports before then .streamRecv else .streamAccept,
      isServer, false, id⟩ none :: rest
  once : ∀ id, isLocal id isServer = false →
    obs.countP (accepts id) = if id ∈ reports obs then 1 else 0

theorem reports_split {ids rest : List ℕ} (h : reports obs = ids ++ id :: rest) :
    ∃ before after, obs = before ++ .readable id :: after ∧ reports before = ids := by
  induction obs generalizing ids with
  | nil => simp [reports] at h
  | cons o obs ih =>
    cases o with
    | readable j =>
      have hcons : reports (.readable j :: obs) = j :: reports obs := rfl
      rw [hcons] at h
      cases ids with
      | nil =>
        obtain ⟨rfl, -⟩ := List.cons.inj h
        exact ⟨[], obs, rfl, rfl⟩
      | cons k ids =>
        obtain ⟨rfl, htail⟩ := List.cons.inj h
        obtain ⟨before, after, rfl, rfl⟩ := ih htail
        exact ⟨.readable j :: before, after, rfl, rfl⟩
    | insert e d =>
      obtain ⟨before, after, rfl, rfl⟩ := ih h
      exact ⟨.insert e d :: before, after, rfl, rfl⟩
    | remove e =>
      obtain ⟨before, after, rfl, rfl⟩ := ih h
      exact ⟨.remove e :: before, after, rfl, rfl⟩

theorem Announces.event (h : Announces token isServer seen obs seen')
    (ht : Tracks isServer seen past) (hsplit : obs = before ++ .readable id :: after)
    (hl : isLocal id isServer = false) :
    ∃ rest, after = .insert ⟨token, if Newest isServer (past ++ reports before) id
      then .streamAccept else .streamRecv, isServer, false, id⟩ none :: rest := by
  induction h generalizing past before with
  | nil => simp at hsplit
  | report j _ ih =>
    rcases before with _ | ⟨o, _ | ⟨o', before⟩⟩
    · obtain ⟨rfl, rfl⟩ : j = id ∧ _ := by simpa using hsplit
      refine ⟨_, congrArg₂ List.cons ?_ rfl⟩
      simp [reportEvent, hl, ht j, reports]
    · simp at hsplit
    · obtain ⟨rfl, rfl, hrest⟩ : _ = o ∧ _ = o' ∧ _ = before ++ .readable id :: after := by
        simpa using hsplit
      have hev := ih (ht.observe j) hrest
      rwa [List.append_assoc] at hev
  | insert e d hk _ ih =>
    rcases before with _ | ⟨o, before⟩
    · simp at hsplit
    · obtain ⟨rfl, hrest⟩ : _ = o ∧ _ = before ++ .readable id :: after := by simpa using hsplit
      have hev := ih ht hrest
      exact hev
  | remove e _ ih =>
    rcases before with _ | ⟨o, before⟩
    · simp at hsplit
    · obtain ⟨rfl, hrest⟩ : _ = o ∧ _ = before ++ .readable id :: after := by simpa using hsplit
      have hev := ih ht hrest
      exact hev

theorem newest_self (hl : isLocal id isServer = false) (h : id ∈ past) :
    ¬ Newest isServer past id :=
  fun hn ↦ lt_irrefl id (hn id h hl rfl)

theorem Announces.count (h : Announces token isServer seen obs seen')
    (ht : Tracks isServer seen past) (hinc : Increasing isServer (past ++ reports obs))
    (hl : isLocal id isServer = false) :
    obs.countP (accepts id) = if id ∈ past then 0 else if id ∈ reports obs then 1 else 0 := by
  induction h generalizing past with
  | nil => simp [reports]
  | @report seen seen' obs j _ ih =>
    have hreports : reports (.readable j :: .insert (reportEvent token isServer seen j) none :: obs) =
        j :: reports obs := rfl
    rw [hreports] at hinc ⊢
    have hcount := ih (ht.observe j) (by simpa using hinc)
    have hj : accepts id (.readable j) = false := rfl
    rw [List.countP_cons, List.countP_cons, hcount, hj]
    by_cases hid : j = id
    · subst hid
      by_cases hmem : j ∈ past
      · simp [accepts, reportEvent, hl, ht j, newest_self hl hmem, hmem]
      · simp [accepts, reportEvent, hl, ht j, hinc past j _ rfl hl hmem, hmem]
    · simp [accepts, reportEvent, hid, Ne.symm hid]
  | insert e d hk _ ih =>
    have hcount := ih ht hinc
    simpa [accepts, hk, reports] using hcount
  | remove e _ ih =>
    have hcount := ih ht hinc
    simpa [accepts, reports] using hcount

theorem announcedOnce_iff (h : Announces token isServer ⟨none, none⟩ obs seen') :
    AnnouncedOnce token isServer obs ↔ Increasing isServer (reports obs) := by
  constructor
  · intro honce past id rest hsplit hl hnew
    obtain ⟨before, after, hobs, rfl⟩ := reports_split hsplit
    obtain ⟨rest₁, h₁⟩ := honce.event before id after hobs hl
    obtain ⟨rest₂, h₂⟩ := Announces.event h tracks_nil hobs hl
    by_contra hn
    rw [h₁] at h₂
    simp [hnew, hn] at h₂
  · intro hinc
    refine ⟨?_, ?_⟩
    · intro before id after hobs hl
      obtain ⟨rest, hrest⟩ := Announces.event h tracks_nil hobs hl
      have hnew : Newest isServer (reports before) id ↔ id ∉ reports before := by
        constructor
        · exact fun hn hmem ↦ newest_self hl hmem hn
        · exact hinc _ id (reports after) (by simp [hobs, reports]) hl
      refine ⟨rest, ?_⟩
      rw [hrest]
      by_cases hmem : id ∈ reports before <;> simp [hnew, hmem]
    · intro id hl
      simpa using Announces.count h tracks_nil hinc hl

end Reports

section Running

variable {w w' : Machine} {q : Connection} {r : Readiness}

structure Traced (token : Token) (isServer : Bool) (s : Ctx) : Prop where
  token_eq : s.conn.token = token
  isServer_eq : s.conn.wrapped.isServer = isServer
  announces : Announces token isServer ⟨none, none⟩ s.trace (seenOf s.conn)

theorem Traced.evolves {s s' : Ctx} {calls : List Call} (h : Traced token isServer s)
    (he : Evolves s s' calls obs) : Traced token isServer s' where
  token_eq := he.token.trans h.token_eq
  isServer_eq := he.isServer.trans h.isServer_eq
  announces := by
    rw [he.trace]
    exact h.announces.trans (by simpa only [h.token_eq, h.isServer_eq] using he.announces)

theorem Traced.congr {s s' : Ctx} (h : Traced token isServer s) (htoken : s'.conn.token = s.conn.token)
    (hwrapped : s'.conn.wrapped = s.conn.wrapped) (htrace : s'.trace = s.trace)
    (hseen : seenOf s'.conn = seenOf s.conn) : Traced token isServer s' where
  token_eq := htoken.trans h.token_eq
  isServer_eq := hwrapped ▸ h.isServer_eq
  announces := by
    rw [htrace, hseen]
    exact h.announces

theorem step_traced (hheld : Held w.ctx.conn w.guards) (h : Traced token isServer w.ctx)
    {a : Action} (ha : Enabled w a) (hstep : step w a = .ok w') : Traced token isServer w'.ctx := by
  cases a with
  | tryLock kind =>
    by_cases hg : Grants w.ctx.conn kind
    · rw [step_tryLock_grants hheld hg] at hstep
      cases hstep
      exact h.congr rfl rfl rfl rfl
    · rw [step_tryLock_refuses hg] at hstep
      cases hstep
      unfold QuicConn.refuse
      cases kind.needRetry <;> exact h.congr rfl rfl rfl rfl
  | call c =>
    cases hstep
    exact h.evolves (evolves_call w.ctx c)
  | openStream kind =>
    obtain ⟨s, calls, hs, hev, -⟩ := step_openStream w kind
    rw [hs] at hstep
    cases hstep
    exact h.evolves hev
  | release g sendDone env =>
    obtain ⟨n, b, k, closed, s', log, hrun, hspec, -⟩ := unlock_held hheld ha sendDone env
    obtain ⟨nexts, streams, established, hev, -, -⟩ := hspec.evolves
    simp only [step, hrun, ok_bind, pure_eq_ok] at hstep
    cases hstep
    have hreleased : Traced token isServer { w.ctx with conn := relock w.ctx.conn n b k } :=
      h.congr rfl rfl rfl rfl
    exact hreleased.evolves hev

theorem run_traced (h : Run step Enabled (initial token q r) w) :
    Traced token q.isServer w.ctx := by
  have hboth : Held w.ctx.conn w.guards ∧ Traced token q.isServer w.ctx := by
    refine h.invariant (P := fun w ↦ Held w.ctx.conn w.guards ∧ Traced token q.isServer w.ctx)
      ⟨held_new token q, rfl, rfl, .nil _⟩ ?_
    intro a b i ha hi hstep
    exact ⟨(held_run (.one hi hstep) ha.1).1, step_traced ha.1 ha.2 hi hstep⟩
  exact hboth.2

/-- Remote streams are announced exactly once if and only if quiche first
reports them in increasing order, in each direction. -/
theorem streams_announced_once_iff (h : Run step Enabled (initial token q r) w) :
    AnnouncedOnce token q.isServer w.ctx.trace ↔ Increasing q.isServer (reports w.ctx.trace) :=
  announcedOnce_iff (run_traced h).announces

def serving (reports : List ℕ) : Machine :=
  initial ⟨7⟩ (Script.connection ⟨true, [], reports, [], none⟩) .empty

theorem streams_announced_once_example :
    ∃ w, Run step Enabled (serving [0, 4]) w ∧ reports w.ctx.trace = [0, 4] ∧
      AnnouncedOnce ⟨7⟩ true w.ctx.trace := by
  have hlock : Run step Enabled (serving [0, 4]) _ :=
    .one (i := .tryLock .readLock) (by simp [Enabled]) rfl
  have hrelease := hlock.tail (i := .release ⟨⟨⟨7⟩, 0, false⟩, .readLock, 0⟩ false
    .still) (List.mem_cons_self ..) rfl
  have hinc : Increasing true [0, 4] := by
    intro past id rest hsplit hl hnew
    rcases past with _ | ⟨a, _ | ⟨b, past⟩⟩
    · simp [Newest]
    · obtain ⟨rfl, rfl, -⟩ : 0 = a ∧ 4 = id ∧ [] = rest := by simpa using hsplit
      decide
    · simp at hsplit
  exact ⟨_, hrelease, rfl, (streams_announced_once_iff hrelease).mpr hinc⟩

/-- The second of two streams arrives first, and the first is never announced. -/
theorem stream_not_announced :
    ∃ w, Run step Enabled (serving [4, 0]) w ∧ reports w.ctx.trace = [4, 0] ∧
      ¬ AnnouncedOnce ⟨7⟩ true w.ctx.trace := by
  have hlock : Run step Enabled (serving [4, 0]) _ :=
    .one (i := .tryLock .readLock) (by simp [Enabled]) rfl
  have hrelease := hlock.tail (i := .release ⟨⟨⟨7⟩, 0, false⟩, .readLock, 0⟩ false
    .still) (List.mem_cons_self ..) rfl
  refine ⟨_, hrelease, rfl, ?_⟩
  intro honce
  have hcount := honce.once 0 rfl
  exact absurd hcount (by decide)

end Running

end ZeroRtt.Poll.StreamAccept
