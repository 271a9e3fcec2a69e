import ZeroRtt.Poll.Walks

namespace ZeroRtt.Poll.Owing

open ZeroRtt.Lib.Panics ZeroRtt.Lib.Containers ZeroRtt.Lib.Interface
open ZeroRtt.Api.Types ZeroRtt.Api.Quiche ZeroRtt.Poll.Schedule ZeroRtt.Poll.Conn
open ZeroRtt.Poll.Evolution ZeroRtt.Poll.Retries ZeroRtt.Poll.Unlock ZeroRtt.Poll.Locking
open ZeroRtt.Poll.RetryProtocol ZeroRtt.Poll.Walks

section Reporting

variable {m n id : ℕ} {q : Connection} {calls : List Call}

theorem history_after (q : Connection) (calls : List Call) :
    (q.after calls).history = q.history ++ calls := rfl

def Unreported (n : ℕ) (q : Connection) (id : ℕ) : Prop :=
  ∀ before after, q.history = before ++ .streamWritableNext :: after → n ≤ before.length →
    q.answer before .streamWritableNext ≠ some id

theorem Unreported.mono (h : Unreported n q id) (hnm : n ≤ m) : Unreported m q id :=
  fun before after hhistory hm ↦ h before after hhistory (hnm.trans hm)

theorem unreported_length (q : Connection) (id : ℕ) : Unreported q.history.length q id := by
  intro before after hhistory hle
  rw [hhistory, List.length_append, List.length_cons] at hle
  omega

theorem Unreported.after (h : Unreported n q id)
    (hcalls : Unreported q.history.length (q.after calls) id) : Unreported n (q.after calls) id := by
  intro before after hhistory hn
  by_cases hle : q.history.length ≤ before.length
  · exact hcalls before after hhistory hle
  · rw [history_after] at hhistory
    rcases List.append_eq_append_iff.mp hhistory with ⟨mid, hbefore, -⟩ | ⟨mid, hq, hmid⟩
    · rw [hbefore, List.length_append] at hle
      omega
    · cases mid with
      | nil =>
        rw [hq, List.append_nil] at hle
        exact absurd le_rfl hle
      | cons c mid =>
        cases hmid
        exact h before mid hq hn

theorem unreported_of_notMem (q : Connection) (h : .streamWritableNext ∉ calls) (id : ℕ) :
    Unreported q.history.length (q.after calls) id := by
  intro before after hhistory hle
  rw [history_after] at hhistory
  rcases List.append_eq_append_iff.mp hhistory with ⟨mid, -, hcalls⟩ | ⟨mid, hq, hmid⟩
  · exact absurd (hcalls ▸ by simp) h
  · cases mid with
    | nil =>
      rw [List.nil_append] at hmid
      exact absurd (hmid ▸ List.mem_cons_self ..) h
    | cons c mid =>
      rw [hq, List.length_append, List.length_cons] at hle
      omega

theorem unreported_next (q : Connection) (h : (q.call .streamWritableNext).1 ≠ some id) :
    Unreported q.history.length (q.after [.streamWritableNext]) id := by
  intro before after hhistory hle
  have hlength := congrArg List.length hhistory
  simp only [history_after, List.length_append, List.length_cons, List.length_nil] at hlength
  have hbefore : before = q.history := by
    refine (List.append_inj hhistory ?_).1.symm
    omega
  rw [hbefore]
  exact h

/-- After the first `n` calls quiche was asked whether there is room in the stream
and said no, and it has not reported the stream as writable since. -/
def Owes (n : ℕ) (q : Connection) : LocKind → Prop
  | .streamSend id len => ∃ before after, q.history = before ++ .streamWritable id len :: after ∧
      n ≤ before.length ∧ q.answer before (.streamWritable id len) = .ok false ∧
      Unreported before.length q id
  | _ => False

theorem Owes.mono {k : LocKind} (h : Owes n q k) (hmn : m ≤ n) : Owes m q k := by
  cases k with
  | streamSend id len =>
    obtain ⟨xs, ys, hhistory, hn, hanswer, hunreported⟩ := h
    exact ⟨xs, ys, hhistory, hmn.trans hn, hanswer, hunreported⟩
  | _ => exact h.elim

theorem Owes.after {k : LocKind} (h : Owes n q k)
    (hcalls : ∀ id len, k = .streamSend id len → Unreported q.history.length (q.after calls) id) :
    Owes n (q.after calls) k := by
  cases k with
  | streamSend id len =>
    obtain ⟨xs, ys, hhistory, hn, hanswer, hunreported⟩ := h
    refine ⟨xs, ys ++ calls, ?_, hn, hanswer, hunreported.after (hcalls id len rfl)⟩
    rw [history_after, hhistory, List.append_assoc, List.cons_append]
  | _ => exact h.elim

end Reporting

section Unlocking

variable {s t : Ctx} {id : ℕ}

theorem keeps_drained {e : Event} (h : Drained s t) (he : e ∈ s.readiness.events) :
    e ∈ t.readiness.events := by
  obtain ⟨calls, obs, hevolves, -, hobs⟩ := h.evolves
  rw [hevolves.readiness]
  exact keeps_foldl (fun o ho ↦ keeps_streamObs (hobs o ho)) he

theorem unreported_writableLoop (n : ℕ) (s : Ctx) (id : ℕ) :
    Unreported s.conn.wrapped.history.length (Ctx.writableLoop n s).conn.wrapped id ∨
      s.event .streamSend false id ∈ (Ctx.writableLoop n s).readiness.events := by
  induction n generalizing s with
  | zero => exact .inl (unreported_length _ id)
  | succ n ih =>
    unfold Ctx.writableLoop
    cases hanswer : (s.conn.wrapped.call .streamWritableNext).1 with
    | none =>
      simp only [Ctx.call, hanswer]
      exact .inl (unreported_next _ (by simp [hanswer]))
    | some id' =>
      simp only [Ctx.call, hanswer]
      generalize ht : Ctx.insert _ _ _ = t
      have hwrapped : t.conn.wrapped = s.conn.wrapped.after [.streamWritableNext] := by
        rw [← ht]
        rfl
      by_cases hid : id' = id
      · refine .inr (keeps_drained (drained_writableLoop n t) ?_)
        rw [← ht, hid]
        exact Readiness.mem_events_insert_none.mpr (.inl rfl)
      · have hnext : Unreported _ _ id :=
          unreported_next s.conn.wrapped (by simpa [hanswer] using hid)
        rcases ih t with hloop | hevent
        · rw [writableLoop_wrapped, hwrapped] at hloop ⊢
          exact .inl (hnext.after hloop)
        · refine .inr ?_
          rw [← ht] at hevent ⊢
          exact hevent

theorem notMem_readableCalls (n : ℕ) (q : Connection) :
    .streamWritableNext ∉ readableCalls n q := by
  induction n generalizing q with
  | zero => simp [readableCalls]
  | succ n ih =>
    unfold readableCalls
    cases (q.call .streamReadableNext).1 with
    | none => simp
    | some id => simpa using ih _

theorem unreported_handleStreamStateChanged (s : Ctx) (id : ℕ) :
    Unreported s.conn.wrapped.history.length s.handleStreamStateChanged.conn.wrapped id ∨
      s.event .streamSend false id ∈ s.handleStreamStateChanged.readiness.events := by
  unfold Ctx.handleStreamStateChanged
  dsimp only
  rcases unreported_writableLoop s.rounds s id with hloop | hevent
  · rw [readableLoop_wrapped]
    exact .inl (hloop.after (unreported_of_notMem _ (notMem_readableCalls _ _) id))
  · exact .inr (keeps_drained (drained_readableLoop _ _) hevent)

theorem notMem_logCalls (log : List Handled) : .streamWritableNext ∉ logCalls log := by
  intro hmem
  obtain ⟨⟨k, q⟩, -, hc⟩ := List.mem_flatMap.mp hmem
  cases k with
  | streamClose id err => rcases mem_streamCloseCalls hc with hc | hc <;> cases hc
  | close app err reason => simp [retryCalls] at hc
  | streamSend id len => simp [retryCalls] at hc
  | _ => cases hc

/-- Every stream that quiche reports as writable during an unlock is reported. -/
theorem unreported_unlock {n : ℕ} {sendDone closed : Bool} {env : UnlockEnv}
    (h : s.unlock n sendDone env = .ok (closed, t)) (id : ℕ) :
    Unreported s.conn.wrapped.history.length t.conn.wrapped id ∨
      s.event .streamSend false id ∈ t.readiness.events := by
  obtain ⟨m, b, k, u, -, hretry, ht⟩ := unlock_parts h
  have hsend := evolves_handleSend u.handleStreamStateChanged sendDone env.now
  obtain ⟨hstate, -⟩ :=
    evolves_handleStateChanged (u.handleStreamStateChanged.handleSend sendDone env.now)
  rw [ht] at hstate
  have hwrapped : u.conn.wrapped = s.conn.wrapped.after (logCalls _) := hretry.wrapped
  rcases unreported_handleStreamStateChanged u id with hstreams | hevent
  · left
    obtain ⟨calls, obs, hevolves, -, -⟩ := (drained_handleStreamStateChanged u).evolves
    rw [hevolves.wrapped, hwrapped] at hstreams
    rw [hstate.wrapped, hsend.wrapped, hevolves.wrapped, hwrapped, Connection.after_nil,
      Connection.after_nil]
    exact (unreported_of_notMem _ (notMem_logCalls _) id).after hstreams
  · right
    have hkind : (u.event .streamSend false id).kind ≠ .send := by simp [Ctx.event]
    rw [hstate.readiness, hsend.readiness,
      show s.event .streamSend false id = u.event .streamSend false id by rw [hretry.event]; rfl]
    refine keeps_foldl (keeps_insertions _) (keeps_foldl ?_ hevent)
    intro o ho
    rw [List.mem_singleton.mp ho]
    exact keeps_sendObs hkind

end Unlocking

end ZeroRtt.Poll.Owing
