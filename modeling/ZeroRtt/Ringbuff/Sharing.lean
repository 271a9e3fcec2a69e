import ZeroRtt.Lib.SpinLock
import ZeroRtt.Ringbuff.Wakeups
import ZeroRtt.Ringbuff.ZeroLength

namespace ZeroRtt.Ringbuff.Sharing

open ZeroRtt.Lib.Panics ZeroRtt.Lib.Runs ZeroRtt.Lib.SpinLock ZeroRtt.Ringbuff.Pipe
open ZeroRtt.Api.Types (Poll)
open ZeroRtt.Ringbuff.Delivery (acceptedBytes deliveredBytes sound_of_pipe)
open ZeroRtt.Ringbuff.Wakeups (Attended attended_of_run)
open ZeroRtt.Ringbuff.ZeroLength (Conserved)

abbrev Answer := Poll (Except (IoError Empty) ℕ)

structure Vars where
  buf : Bytes
  size : ℕ
  result : Option Answer

abbrev Access := Vars × RawRingBufPipe → Rust (Vars × RawRingBufPipe)

section Accesses

/-- An access that comes after a `return`. -/
def unreturned (f : Access) : Access := fun s ↦
  match s.1.result with
  | none => f s
  | some _ => .ok s

def ringRead : Access := fun s ↦ do
  let (result, buf, ringBuf) ← s.2.ringBuf.read s.1.buf
  match result with
  | .error err => return ({ s.1 with buf, result := some (.ready (.error err)) }, { s.2 with ringBuf })
  | .ok size => return ({ s.1 with buf, size }, { s.2 with ringBuf })

def ringWrite : Access := fun s ↦ do
  let (result, ringBuf) ← s.2.ringBuf.write s.1.buf
  match result with
  | .error err => return ({ s.1 with result := some (.ready (.error err)) }, { s.2 with ringBuf })
  | .ok size => return ({ s.1 with size }, { s.2 with ringBuf })

def takeReader : Access := fun s ↦ .ok (s.1, s.2.wakeReader)

def takeWriter : Access := fun s ↦ .ok (s.1, s.2.wakeWriter)

def setClosed : Access := fun s ↦ .ok (s.1, { s.2 with closed := true })

/-- `if this.closed { return result; }`. -/
def returnClosed (result : Answer) : Access := fun s ↦
  if s.2.closed then .ok ({ s.1 with result := some result }, s.2) else .ok s

def whenNothing (f : Access) : Access := fun s ↦
  if s.1.size = 0 then f s else .ok s

def parkReader (waker : Waker) : Access := fun s ↦
  .ok ({ s.1 with result := some .pending }, { s.2 with reader := some waker })

def parkWriter (waker : Waker) : Access := fun s ↦
  .ok ({ s.1 with result := some .pending }, { s.2 with writer := some waker })

def returnSize : Access := fun s ↦
  .ok ({ s.1 with result := some (.ready (.ok s.1.size)) }, s.2)

/-- The history of the pipe is written where the call returns. -/
def record (a : Pipe.Action) : Access := fun s ↦
  .ok (s.1, s.2.record <|
    match a, s.1.result with
    | .read _, some (.ready result) => bytesRead s.1.buf result
    | .write _, some (.ready result) => bytesWritten s.1.buf result
    | .pollRead waker _, some answer => bytesPolled waker s.1.buf answer
    | .pollWrite waker _, some answer => writePolled waker s.1.buf answer
    | .close, _ => [.closed]
    | _, _ => [])

end Accesses

def given : Pipe.Action → Bytes
  | .read buf | .write buf | .pollRead _ buf | .pollWrite _ buf => buf
  | .close => []

def accesses : Pipe.Action → List Access
  | .read _ =>
    [ringRead, unreturned takeWriter,
      unreturned (whenNothing (returnClosed (.ready (.error brokenPipe)))), unreturned returnSize]
  | .write _ =>
    [returnClosed (.ready (.error brokenPipe)), unreturned ringWrite, unreturned takeReader,
      unreturned returnSize]
  | .pollRead waker _ =>
    [ringRead, unreturned takeWriter, unreturned (whenNothing (returnClosed (.ready (.ok 0)))),
      unreturned (whenNothing (parkReader waker)), unreturned returnSize]
  | .pollWrite waker _ =>
    [returnClosed (.ready (.ok 0)), unreturned ringWrite, unreturned takeReader,
      unreturned (whenNothing (parkWriter waker)), unreturned returnSize]
  | .close => [setClosed, takeWriter, takeReader]

/-- The calls of the two ends as sections under the spin lock, access by access. -/
def code : Code Pipe.Action Vars (Option Answer × Bytes) RawRingBufPipe Panic where
  enter a := ⟨given a, 0, none⟩
  accesses a := accesses a ++ [record a]
  leave v := (v.result, v.buf)

/-- The calls of the two ends in one go, with what they return and what is in the buffer then. -/
def outcome (p : RawRingBufPipe) :
    Pipe.Action → Rust ((Option Answer × Bytes) × RawRingBufPipe)
  | .read buf => do
    let (result, buf, p) ← p.read buf
    return ((some (.ready result), buf), p.record (bytesRead buf result))
  | .write buf => do
    let (result, p) ← p.write buf
    return ((some (.ready result), buf), p.record (bytesWritten buf result))
  | .pollRead waker buf => do
    let (result, buf, p) ← p.pollRead waker buf
    return ((some result, buf), p.record (bytesPolled waker buf result))
  | .pollWrite waker buf => do
    let (result, p) ← p.pollWrite waker buf
    return ((some result, buf), p.record (writePolled waker buf result))
  | .close => return ((none, []), p.close.record [.closed])

section Whole

variable {p p' : RawRingBufPipe} {a : Pipe.Action} {r : Option Answer × Bytes}

theorem whole_read (p : RawRingBufPipe) (buf : Bytes) :
    code.whole p (.read buf) = outcome p (.read buf) := by
  simp only [Code.whole, code, accesses, given, List.cons_append, List.nil_append, perform,
    outcome, RawRingBufPipe.read, ringRead]
  cases p.ringBuf.read buf with
  | error err => rfl
  | ok read =>
    obtain ⟨result, buf, ringBuf⟩ := read
    cases result with
    | error err => rfl
    | ok size =>
      by_cases hsize : size = 0
      · cases hclosed : ({ p with ringBuf } : RawRingBufPipe).wakeWriter.closed <;>
          simp [hsize, hclosed, unreturned, takeWriter, whenNothing, returnClosed, returnSize,
            record, Except.map, pure_eq_ok, ok_bind]
      · simp [hsize, unreturned, takeWriter, whenNothing, returnSize, record, Except.map,
          pure_eq_ok, ok_bind]

theorem whole_pollRead (p : RawRingBufPipe) (waker : Waker) (buf : Bytes) :
    code.whole p (.pollRead waker buf) = outcome p (.pollRead waker buf) := by
  simp only [Code.whole, code, accesses, given, List.cons_append, List.nil_append, perform,
    outcome, RawRingBufPipe.pollRead, ringRead]
  cases p.ringBuf.read buf with
  | error err => rfl
  | ok read =>
    obtain ⟨result, buf, ringBuf⟩ := read
    cases result with
    | error err => rfl
    | ok size =>
      by_cases hsize : size = 0
      · cases hclosed : ({ p with ringBuf } : RawRingBufPipe).wakeWriter.closed <;>
          simp [hsize, hclosed, unreturned, takeWriter, whenNothing, returnClosed, parkReader,
            returnSize, record, Except.map, pure_eq_ok, ok_bind]
      · simp [hsize, unreturned, takeWriter, whenNothing, returnSize, record, Except.map,
          pure_eq_ok, ok_bind]

theorem whole_write (p : RawRingBufPipe) (buf : Bytes) :
    code.whole p (.write buf) = outcome p (.write buf) := by
  simp only [Code.whole, code, accesses, given, List.cons_append, List.nil_append, perform,
    outcome, RawRingBufPipe.write, returnClosed]
  cases hclosed : p.closed with
  | true => rfl
  | false =>
    simp only [hclosed, Bool.false_eq_true, if_false, ok_bind, unreturned, ringWrite]
    cases p.ringBuf.write buf with
    | error err => rfl
    | ok written =>
      obtain ⟨result, ringBuf⟩ := written
      cases result with
      | error err => simp [record, Except.map, pure_eq_ok, ok_bind]
      | ok size =>
        by_cases hsize : size = 0 <;>
          simp [hsize, takeReader, returnSize, record, Except.map, pure_eq_ok, ok_bind]

theorem whole_pollWrite (p : RawRingBufPipe) (waker : Waker) (buf : Bytes) :
    code.whole p (.pollWrite waker buf) = outcome p (.pollWrite waker buf) := by
  simp only [Code.whole, code, accesses, given, List.cons_append, List.nil_append, perform,
    outcome, RawRingBufPipe.pollWrite, returnClosed]
  cases hclosed : p.closed with
  | true => rfl
  | false =>
    simp only [hclosed, Bool.false_eq_true, if_false, ok_bind, unreturned, ringWrite]
    cases p.ringBuf.write buf with
    | error err => rfl
    | ok written =>
      obtain ⟨result, ringBuf⟩ := written
      cases result with
      | error err => simp [record, Except.map, pure_eq_ok, ok_bind]
      | ok size =>
        by_cases hsize : size = 0 <;>
          simp [hsize, takeReader, whenNothing, parkWriter, returnSize, record, Except.map,
            pure_eq_ok, ok_bind]

theorem whole_eq (p : RawRingBufPipe) (a : Pipe.Action) : code.whole p a = outcome p a := by
  cases a with
  | read buf => exact whole_read p buf
  | write buf => exact whole_write p buf
  | pollRead waker buf => exact whole_pollRead p waker buf
  | pollWrite waker buf => exact whole_pollWrite p waker buf
  | close => rfl

theorem step_of_outcome (h : outcome p a = .ok (r, p')) : Pipe.step p a = .ok p' := by
  cases a with
  | read buf =>
    obtain ⟨⟨result, buf', q⟩, hread, hp⟩ := bind_ok h
    cases hp
    simp only [Pipe.step, hread, ok_bind, pure_eq_ok]
  | write buf =>
    obtain ⟨⟨result, q⟩, hwrite, hp⟩ := bind_ok h
    cases hp
    simp only [Pipe.step, hwrite, ok_bind, pure_eq_ok]
  | pollRead waker buf =>
    obtain ⟨⟨result, buf', q⟩, hread, hp⟩ := bind_ok h
    cases hp
    simp only [Pipe.step, hread, ok_bind, pure_eq_ok]
  | pollWrite waker buf =>
    obtain ⟨⟨result, q⟩, hwrite, hp⟩ := bind_ok h
    cases hp
    simp only [Pipe.step, hwrite, ok_bind, pure_eq_ok]
  | close =>
    cases h
    rfl

theorem writes_or_overflows {c : ℕ} {q : Bytes} (h : Conserved c p q) (waker : Waker) (buf : Bytes) :
    ((∃ r, p.write buf = .ok r) ∧ ∃ r, p.pollWrite waker buf = .ok r) ∨
      p.closed = false ∧ 2 ^ 64 ≤ p.ringBuf.readPos + c ∧ p.write buf = .error .integerOverflow ∧
        p.pollWrite waker buf = .error .integerOverflow := by
  cases hclosed : p.closed with
  | true =>
    obtain ⟨hwrite, hpoll⟩ : p.write buf = .ok (.error brokenPipe, p) ∧
        ∀ waker, p.pollWrite waker buf = .ok (.ready (.ok 0), p) := Delivery.writes_of_closed hclosed
    exact .inl ⟨⟨_, hwrite⟩, ⟨_, hpoll waker⟩⟩
  | false =>
    by_cases hroom : p.ringBuf.readPos + c < 2 ^ 64
    · obtain ⟨r, hwrite, -⟩ := RingBuf.write_eq h.holds hroom buf
      refine .inl ⟨?_, ?_⟩
      · simp only [RawRingBufPipe.write, hclosed, Bool.false_eq_true, if_false, hwrite, ok_bind]
        split <;> exact ⟨_, rfl⟩
      · simp only [RawRingBufPipe.pollWrite, hclosed, Bool.false_eq_true, if_false, hwrite, ok_bind]
        split <;> exact ⟨_, rfl⟩
    · have hpanics := RingBuf.write_panics h.holds hroom buf
      refine .inr ⟨rfl, by omega, ?_, ?_⟩
      · simp only [RawRingBufPipe.write, hclosed, Bool.false_eq_true, if_false, hpanics, error_bind]
      · simp only [RawRingBufPipe.pollWrite, hclosed, Bool.false_eq_true, if_false, hpanics,
          error_bind]

theorem outcome_error {c : ℕ} {q : Bytes} {err : Panic} (h : Conserved c p q)
    (herr : outcome p a = .error err) :
    err = .integerOverflow ∧ p.closed = false ∧ 2 ^ 64 ≤ p.ringBuf.readPos + c := by
  cases a with
  | read buf =>
    obtain ⟨r, hread, -⟩ := RingBuf.read_eq h.holds buf
    simp only [outcome, RawRingBufPipe.read, hread, ok_bind] at herr
    split at herr
    · split at herr <;> cases herr
    · cases herr
  | pollRead waker buf =>
    obtain ⟨r, hread, -⟩ := RingBuf.read_eq h.holds buf
    simp only [outcome, RawRingBufPipe.pollRead, hread, ok_bind] at herr
    split at herr
    · split at herr <;> cases herr
    · cases herr
  | write buf =>
    rcases writes_or_overflows h ⟨0⟩ buf with ⟨⟨r, hwrite⟩, -⟩ | ⟨hclosed, hroom, hwrite, -⟩
    · simp only [outcome, hwrite, ok_bind] at herr
      cases herr
    · simp only [outcome, hwrite, error_bind] at herr
      cases herr
      exact ⟨rfl, hclosed, hroom⟩
  | pollWrite waker buf =>
    rcases writes_or_overflows h waker buf with ⟨-, ⟨r, hpoll⟩⟩ | ⟨hclosed, hroom, -, hpoll⟩
    · simp only [outcome, hpoll, ok_bind] at herr
      cases herr
    · simp only [outcome, hpoll, error_bind] at herr
      cases herr
      exact ⟨rfl, hclosed, hroom⟩
  | close => cases herr

end Whole

section Shared

variable {τ : Type} [DecidableEq τ] {c : ℕ} {allowed : Pipe.Action → Prop}
  {p₀ p : RawRingBufPipe}

abbrev SharedPipe (τ : Type) :=
  World τ Pipe.Action Vars (Option Answer × Bytes) RawRingBufPipe Panic

def sequential (s : RawRingBufPipe × List (τ × Pipe.Action × (Option Answer × Bytes)))
    (call : τ × Pipe.Action) :
    Rust (RawRingBufPipe × List (τ × Pipe.Action × (Option Answer × Bytes))) := do
  let (r, p) ← outcome s.1 call.2
  return (p, s.2 ++ [(call.1, call.2, r)])

omit [DecidableEq τ] in
theorem serve_eq : code.serve (τ := τ) = sequential := by
  funext s call
  rw [Code.serve, whole_eq, sequential]
  cases outcome s.1 call.2 with
  | error err => rfl
  | ok r => rfl

omit [DecidableEq τ] in
theorem run_of_sequential {returned : List (τ × Pipe.Action × (Option Answer × Bytes))}
    (hrun : Run sequential (fun _ call ↦ allowed call.2) (p₀, []) (p, returned)) :
    Run Pipe.step (fun _ a ↦ allowed a) p₀ p := by
  have hpipe := hrun.invariant (P := fun s ↦ Run Pipe.step (fun _ a ↦ allowed a) p₀ s.1) (.refl p₀) ?_
  · exact hpipe
  · intro s s' call h hallowed hstep
    obtain ⟨⟨r, q⟩, houtcome, hs⟩ := bind_ok hstep
    cases hs
    exact h.tail hallowed (step_of_outcome houtcome)

theorem conserved_of_run (hnew : pipe c = .ok p₀)
    (hrun : Run Pipe.step (fun _ a ↦ allowed a) p₀ p) : ∃ q, Conserved c p q := by
  obtain ⟨h, -⟩ := sound_of_pipe hnew
  exact ZeroLength.Conserved.run ⟨h.holds, h.conserved⟩ (hrun.mono fun _ _ _ ↦ trivial)

/-- However the threads that share a pipe take turns, at most one of them is behind the spin lock,
and their calls return what they would if each was made in one go. So the bytes come out in the
order in which they went in, and no task that waits is forgotten. -/
theorem calls_serialize (c : ℕ) (allowed : Pipe.Action → Prop) (p₀ : RawRingBufPipe)
    (w : SharedPipe τ) (hnew : pipe c = .ok p₀)
    (hrun : Run (step code) (Calls allowed) (.initial p₀) w) :
    (∀ t t', (w.stages t).Holds → (w.stages t').Holds → t' = t) ∧
      ∃ p, Run sequential (fun _ call ↦ allowed call.2) (p₀, []) (p, w.returned) ∧
        (w.locked = false → w.data = p) ∧
        deliveredBytes p.history <+: acceptedBytes p.history ∧
        ((∀ p a, allowed a → Enabled p a) → Attended p) := by
  obtain ⟨p, h⟩ := serial_of_run hrun
  have hsequential := h.run
  rw [serve_eq] at hsequential
  have hpipe := run_of_sequential hsequential
  obtain ⟨q, hconserved⟩ := conserved_of_run hnew hpipe
  refine ⟨fun t t' ht ht' ↦ h.exclusive ht ht', p, hsequential, fun hfree ↦ (h.free hfree).1,
    ⟨q, hconserved.conserved.symm⟩, ?_⟩
  intro hallowed
  exact (attended_of_run hnew (hpipe.mono fun p a ha ↦ hallowed p a ha)).2

theorem calls_serialize_example :
    ∃ (w : SharedPipe Bool) (p : RawRingBufPipe),
      w.returned = [(true, .write [7], (some (.ready (.ok 1)), [7]))] ∧ w.locked = true ∧
        (∀ t, (w.stages t).Holds → t = false) ∧ deliveredBytes p.history <+: acceptedBytes p.history ∧
        Attended p := by
  have hrun : Run (step code) (Calls fun a ↦ ∀ p, Enabled p a)
      (.initial ⟨⟨[0], 0, 0⟩, none, none, false, []⟩ : SharedPipe Bool) _ :=
    run_foldl [.call true (.write [7]), .compareExchange true false, .call false (.read [0]),
      .access true, .compareExchange false false, .access true, .access true, .access true,
      .access true, .release true, .compareExchange false false] (by simp [Calls, Enabled])
  obtain ⟨honly, p, -, -, hbytes, hwaits⟩ := calls_serialize 1 _ _ _ rfl hrun
  exact ⟨_, p, rfl, rfl, fun t ht ↦ honly false t trivial ht, hbytes, hwaits fun p a ha ↦ ha p⟩

/-- Whoever is behind the spin lock needs nobody else to get to its release, unless the counters
of the ring have run out: the panic leaves the lock taken, and no call returns any more. -/
theorem lock_released_unless_panicked (c : ℕ) (allowed : Pipe.Action → Prop) (p₀ : RawRingBufPipe)
    (w : SharedPipe τ) (t : τ) (hnew : pipe c = .ok p₀)
    (hrun : Run (step code) (Calls allowed) (.initial p₀) w) (ht : (w.stages t).Holds) :
    ∃ w', Run (step code) (Finishes t) w w' ∧
      ((w'.locked = false ∧ w'.stages t = .idle) ∨
        ∃ a p, w'.stages t = .failed a .integerOverflow ∧
          Run sequential (fun _ call ↦ allowed call.2) (p₀, []) (p, w'.returned) ∧
          p.closed = false ∧ 2 ^ 64 ≤ p.ringBuf.readPos + c ∧
          ∀ w'', Run (step code) (Calls allowed) w' w'' →
            w''.locked = true ∧ w''.returned = w'.returned) := by
  have hends : ∃ w', Run (step code) (Finishes t) w w' ∧
      ((w'.locked = false ∧ w'.stages t = .idle) ∨ ∃ a err, w'.stages t = .failed a err) := by
    cases hstage : w.stages t with
    | idle => exact absurd ht (by rw [hstage]; exact id)
    | spinning a => exact absurd ht (by rw [hstage]; exact id)
    | failed a err => exact ⟨w, .refl w, .inr ⟨a, err, hstage⟩⟩
    | inside a rest vars =>
      obtain ⟨w', hown, hend⟩ := finishes (C := code) hstage
      exact ⟨w', hown, hend.imp_right fun hfailed ↦ ⟨a, hfailed⟩⟩
  obtain ⟨w', hown, hend⟩ := hends
  refine ⟨w', hown, hend.imp_right ?_⟩
  intro ⟨a, err, hfailed⟩
  have hcalls : Run (step code) (Calls allowed) w w' := by
    apply hown.mono
    intro v i hi
    cases i with
    | call t' a => exact hi.elim
    | compareExchange t' spurious => trivial
    | access t' => trivial
    | release t' => trivial
  obtain ⟨p, h⟩ := serial_of_run (hrun.trans hcalls)
  have hsequential := h.run
  rw [serve_eq] at hsequential
  obtain ⟨q, hconserved⟩ := conserved_of_run hnew (run_of_sequential hsequential)
  obtain ⟨-, hwithin, -⟩ := h.holder (t := t) (by rw [hfailed]; trivial)
  rw [hfailed] at hwithin
  have herr : outcome p a = .error err := (whole_eq p a).symm.trans hwithin
  obtain ⟨rfl, hclosed, hoverflow⟩ := outcome_error hconserved herr
  refine ⟨a, p, hfailed, hsequential, hclosed, hoverflow, ?_⟩
  intro w'' hrun'
  obtain ⟨hfailed', -, hreturned⟩ := h.failed_run hfailed hrun'
  obtain ⟨p', h'⟩ := serial_of_run ((hrun.trans hcalls).trans hrun')
  exact ⟨(h'.holder (t := t) (by rw [hfailed']; trivial)).1, hreturned⟩

theorem lock_released_unless_panicked_example :
    ∃ w w' : SharedPipe Unit, Run (step code) (Finishes ()) w w' ∧ w.locked = true ∧
      (w'.locked = false ∨ ∃ a, w'.stages () = .failed a .integerOverflow) := by
  have hrun : Run (step code) (Calls (τ := Unit) fun _ ↦ True)
      (.initial ⟨⟨[0], 0, 0⟩, none, none, false, []⟩) _ :=
    .tail (i := .compareExchange () false) (.one (i := .call () (.write [7])) trivial rfl) trivial
      rfl
  obtain ⟨w', hown, hend⟩ := lock_released_unless_panicked 1 _ _ _ () rfl hrun trivial
  refine ⟨_, w', hown, rfl, ?_⟩
  rcases hend with ⟨hfree, -⟩ | ⟨a, -, hfailed, -⟩
  · exact .inl hfree
  · exact .inr ⟨a, hfailed⟩

end Shared

end ZeroRtt.Ringbuff.Sharing
