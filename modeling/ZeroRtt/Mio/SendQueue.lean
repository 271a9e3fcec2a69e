import ZeroRtt.Lib.Runs
import ZeroRtt.Mio.Socket

namespace ZeroRtt.Mio.SendQueue

open ZeroRtt.Lib.Panics ZeroRtt.Lib.Runs ZeroRtt.Api.Types ZeroRtt.Mio.Socket

abbrev Packet := QuicBuf × SocketAddr

abbrev Offer := Packet × Except Io Unit

inductive Call
  | sendTo (buf : QuicBuf) (target : SocketAddr)
  | flush

inductive Outcome
  | sent (result : Except QuicSocketError ℕ)
  | flushed (result : Except QuicSocketError Unit)

def Outcome.Reports (err : Io) : Outcome → Prop
  | .sent result => result = .error (.io err)
  | .flushed result => result = .error (.io err)

def perform (os : System) (s : QuicSocket) : Call → Rust (Outcome × QuicSocket)
  | .sendTo buf target => do
    let (result, s) ← s.sendTo os buf target
    return (.sent result, s)
  | .flush =>
    let (result, s) := s.flush os
    return (.flushed result, s)

section Ghosts

/-- The packets that a flush offers, from the attempt `n` on. -/
def offers (os : System) : ℕ → List Packet → List Offer
  | _, [] => []
  | n, packet :: rest =>
    (packet, os n) ::
      match os n with
      | .ok _ => offers os (n + 1) rest
      | .error _ => []

def flushOffers (os : System) (s : QuicSocket) : List Offer := offers os s.attempts s.sending

def pushOffers (os : System) (s : QuicSocket) (packet : Packet) : List Offer :=
  if s.isFull then [] else flushOffers os { s with sending := s.sending ++ [packet] }

def callOffers (os : System) (s : QuicSocket) : Call → List Offer
  | .sendTo buf target =>
    if s.isFull then
      flushOffers os s ++
        match s.tryFlush os with
        | (.error _, _) => []
        | (.ok _, s) => pushOffers os s (buf, target)
    else pushOffers os s (buf, target)
  | .flush => flushOffers os s

def pushEnqueues (s : QuicSocket) (packet : Packet) : List Packet :=
  if s.isFull then [] else [packet]

def callEnqueues (os : System) (s : QuicSocket) : Call → List Packet
  | .sendTo buf target =>
    if s.isFull then
      match s.tryFlush os with
      | (.error _, _) => []
      | (.ok _, s) => pushEnqueues s (buf, target)
    else pushEnqueues s (buf, target)
  | .flush => []

end Ghosts

section Flushing

variable {os : System} {s s' : QuicSocket} {err : Io}

def Last (os : System) (s : QuicSocket) (err : Io) : Prop :=
  ∃ n, s.attempts = n + 1 ∧ os n = .error err

/-- The last attempt was one to send the packet at the front of the queue, and the
system refused it. -/
def Stuck (os : System) (log : List Offer) (s : QuicSocket) (err : Io) : Prop :=
  (∃ packet rest, s.sending = packet :: rest ∧ (packet, .error err) ∈ log) ∧ Last os s err

/-- What a flush does to the queue `packets` of a socket: it empties it, or it stops
at the first packet that is refused. -/
structure Flushed (os : System) (packets : List Packet) (s : QuicSocket)
    (r : Except QuicSocketError Unit) (s' : QuicSocket) : Prop where
  limits : s'.sendingBufferLimits = s.sendingBufferLimits
  addr : s'.localAddr = s.localAddr
  attempts : s'.attempts = s.attempts + (offers os s.attempts packets).length
  length_le : s'.sending.length ≤ packets.length
  line : s'.taken ++ s'.sending = s.taken ++ packets
  ends : (r = .ok () ∧ s'.sending = [] ∧
      ∀ packet err, (packet, .error err) ∉ offers os s.attempts packets) ∨
    ∃ err, r = .error (.io err) ∧ Stuck os (offers os s.attempts packets) s' err ∧
      ∀ packet err', (packet, .error err') ∈ offers os s.attempts packets →
        err' = err ∧ packet ∈ s'.sending

theorem flushLoop_flushed (os : System) (packets : List Packet) (s : QuicSocket) :
    ∃ r s', QuicSocket.flushLoop os packets s = (r, s') ∧ Flushed os packets s r s' := by
  induction packets generalizing s with
  | nil => exact ⟨_, _, rfl, rfl, rfl, rfl, le_rfl, rfl, .inl ⟨rfl, rfl, by simp [offers]⟩⟩
  | cons packet rest ih =>
    cases hos : os s.attempts with
    | ok _ =>
      obtain ⟨r, s', hrun, h⟩ :=
        ih { s with taken := s.taken ++ [packet], attempts := s.attempts + 1 }
      have hoffers : offers os s.attempts (packet :: rest) =
          (packet, .ok ()) :: offers os (s.attempts + 1) rest := by
        rw [offers, hos]
      have hmem : ∀ p err, (p, .error err) ∈ offers os s.attempts (packet :: rest) →
          (p, .error err) ∈ offers os (s.attempts + 1) rest := by
        intro p err hmem
        rw [hoffers] at hmem
        simpa using hmem
      refine ⟨r, s', ?_, h.limits, h.addr, ?_, Nat.le_succ_of_le h.length_le, ?_, ?_⟩
      · rw [QuicSocket.flushLoop, hos]
        exact hrun
      · rw [h.attempts, hoffers, List.length_cons]
        dsimp only
        omega
      · rw [h.line, List.append_assoc]
        rfl
      · cases h.ends with
        | inl hall =>
          obtain ⟨hr, hempty, hnone⟩ := hall
          exact .inl ⟨hr, hempty, fun p err hp ↦ hnone p err (hmem p err hp)⟩
        | inr hstuck =>
          obtain ⟨err, hr, ⟨⟨p, tail, hsending, hp⟩, hlast⟩, honly⟩ := hstuck
          refine .inr ⟨err, hr, ⟨⟨p, tail, hsending, ?_⟩, hlast⟩,
            fun p err' hp ↦ honly p err' (hmem p err' hp)⟩
          rw [hoffers]
          exact List.mem_cons_of_mem _ hp
    | error err =>
      have hoffers : offers os s.attempts (packet :: rest) = [(packet, .error err)] := by
        rw [offers, hos]
      refine ⟨.error (.io err),
        { s with sending := packet :: rest, attempts := s.attempts + 1 }, ?_, rfl, rfl, ?_, le_rfl,
        rfl, ?_⟩
      · rw [QuicSocket.flushLoop, hos]
      · rw [hoffers, List.length_singleton]
      · rw [hoffers]
        refine .inr ⟨err, rfl, ⟨⟨packet, rest, rfl, by simp⟩, s.attempts, rfl, hos⟩, ?_⟩
        intro p err' hp
        simp only [List.mem_singleton, Prod.mk.injEq, Except.error.injEq] at hp
        obtain ⟨rfl, rfl⟩ := hp
        exact ⟨rfl, List.mem_cons_self ..⟩

/-- What a caller makes of the error: it goes on if the socket would block. -/
def goesOn (err : Io) : Except Io Unit := if err.kind = .wouldBlock then .ok () else .error err

/-- What `tryFlush` does: as a flush, but with an error only if a packet was refused
for good. -/
structure Tried (os : System) (s : QuicSocket) (r : Except Io Unit) (s' : QuicSocket) : Prop where
  limits : s'.sendingBufferLimits = s.sendingBufferLimits
  addr : s'.localAddr = s.localAddr
  attempts : s'.attempts = s.attempts + (flushOffers os s).length
  length_le : s'.sending.length ≤ s.sending.length
  line : s'.taken ++ s'.sending = s.taken ++ s.sending
  ends : (r = .ok () ∧ s'.sending = [] ∧ ∀ packet err, (packet, .error err) ∉ flushOffers os s) ∨
    ∃ err, r = goesOn err ∧ Stuck os (flushOffers os s) s' err ∧
      ∀ packet err', (packet, .error err') ∈ flushOffers os s → err' = err ∧ packet ∈ s'.sending

theorem tryFlush_tried (os : System) (s : QuicSocket) :
    ∃ r s', s.tryFlush os = (r, s') ∧ Tried os s r s' := by
  obtain ⟨r, s', hrun, h⟩ := flushLoop_flushed os s.sending s
  cases h.ends with
  | inl hall =>
    obtain ⟨rfl, hempty, hnone⟩ := hall
    refine ⟨.ok (), s', ?_, h.limits, h.addr, h.attempts, h.length_le, h.line,
      .inl ⟨rfl, hempty, hnone⟩⟩
    simp [QuicSocket.tryFlush, QuicSocket.flush, hrun, ioWouldBlock, Except.mapError]
  | inr hstuck =>
    obtain ⟨err, rfl, hstuck⟩ := hstuck
    refine ⟨goesOn err, s', ?_, h.limits, h.addr, h.attempts, h.length_le, h.line,
      .inr ⟨err, rfl, hstuck⟩⟩
    by_cases hkind : err.kind = .wouldBlock <;>
      simp [QuicSocket.tryFlush, QuicSocket.flush, hrun, ioWouldBlock, Except.mapError,
        QuicSocketError.toIo, goesOn, hkind]

end Flushing

section Calls

variable {os : System} {s s' : QuicSocket} {err : Io} {log first : List Offer}

/-- How a call leaves the queue, after the offers of `log`: packets are left only if
the last offer was refused, a packet that was refused for good is left, and what the
call reports is an error for good. -/
structure Settled (os : System) (log : List Offer) (s' : QuicSocket) (reported : Io → Prop) :
    Prop where
  left : s'.sending ≠ [] → ∃ err, Stuck os log s' err ∧ (err.kind = .wouldBlock ∨ reported err)
  refused : ∀ packet err, (packet, .error err) ∈ log → err.kind ≠ .wouldBlock →
    packet ∈ s'.sending ∧ Last os s' err
  failed : ∀ err, reported err → err.kind ≠ .wouldBlock ∧ ∃ packet, (packet, .error err) ∈ log

theorem goesOn_eq_ok_iff : goesOn err = .ok () ↔ err.kind = .wouldBlock := by
  unfold goesOn
  split <;> simp [*]

theorem goesOn_eq_error_iff {err' : Io} :
    goesOn err = .error err' ↔ err.kind ≠ .wouldBlock ∧ err = err' := by
  unfold goesOn
  split <;> simp [*]

theorem Tried.settled {r : Except Io Unit} (h : Tried os s r s') :
    Settled os (flushOffers os s) s' (r = .error ·) := by
  cases h.ends with
  | inl hall =>
    obtain ⟨rfl, hempty, hnone⟩ := hall
    refine ⟨fun hne ↦ absurd hempty hne, ?_, ?_⟩
    · exact fun packet err hmem ↦ absurd hmem (hnone packet err)
    · intro err herr
      cases herr
  | inr hstuck =>
    obtain ⟨err, rfl, hstuck, honly⟩ := hstuck
    refine ⟨fun _ ↦ ⟨err, hstuck, ?_⟩, ?_, ?_⟩
    · rw [goesOn_eq_error_iff]
      tauto
    · intro packet err' hmem _
      obtain ⟨rfl, hpacket⟩ := honly packet err' hmem
      exact ⟨hpacket, hstuck.2⟩
    · intro err' herr
      obtain ⟨hkind, rfl⟩ := goesOn_eq_error_iff.mp herr
      obtain ⟨⟨packet, -, -, hmem⟩, -⟩ := hstuck
      exact ⟨hkind, packet, hmem⟩

def Soft (log : List Offer) : Prop :=
  ∀ packet err, (packet, .error err) ∈ log → err.kind = .wouldBlock

theorem Tried.soft (h : Tried os s (.ok ()) s') : Soft (flushOffers os s) := by
  intro packet err hmem
  cases h.ends with
  | inl hall => exact absurd hmem (hall.2.2 packet err)
  | inr hstuck =>
    obtain ⟨err', hr, -, honly⟩ := hstuck
    obtain ⟨rfl, -⟩ := honly packet err hmem
    exact goesOn_eq_ok_iff.mp hr.symm

theorem Stuck.mono (h : Stuck os log s err) {log' : List Offer} (hle : ∀ o ∈ log, o ∈ log') :
    Stuck os log' s err := by
  obtain ⟨⟨packet, rest, hsending, hmem⟩, hlast⟩ := h
  exact ⟨⟨packet, rest, hsending, hle _ hmem⟩, hlast⟩

theorem Settled.after {reported : Io → Prop} (h : Settled os log s' reported) (hfirst : Soft first) :
    Settled os (first ++ log) s' reported := by
  refine ⟨?_, ?_, ?_⟩
  · intro hne
    obtain ⟨err, hstuck, hor⟩ := h.left hne
    exact ⟨err, hstuck.mono fun o ho ↦ List.mem_append_right _ ho, hor⟩
  · intro packet err hmem hkind
    cases List.mem_append.mp hmem with
    | inl hmem => exact absurd (hfirst packet err hmem) hkind
    | inr hmem => exact h.refused packet err hmem hkind
  · intro err herr
    obtain ⟨hkind, packet, hmem⟩ := h.failed err herr
    exact ⟨hkind, packet, List.mem_append_right _ hmem⟩

structure Pushed (os : System) (s : QuicSocket) (packet : Packet)
    (result : Except QuicSocketError ℕ) (s' : QuicSocket) : Prop where
  limits : s'.sendingBufferLimits = s.sendingBufferLimits
  addr : s'.localAddr = s.localAddr
  attempts : s'.attempts = s.attempts + (pushOffers os s packet).length
  bounded : Bounded s'
  line : s'.taken ++ s'.sending = s.taken ++ s.sending ++ pushEnqueues s packet
  full : ∀ buf, result = .error (.isFull buf) → buf = packet.1 ∧ pushEnqueues s packet = []
  settled : s.isFull = false →
    Settled os (pushOffers os s packet) s' (fun err ↦ result = .error (.io err))
  same : s.isFull = true → s' = s ∧ ∀ err, result ≠ .error (.io err)

theorem push_pushed (os : System) (hs : Bounded s) (buf : QuicBuf) (target : SocketAddr) :
    ∃ result s', s.push os buf target = .ok (result, s') ∧ Pushed os s (buf, target) result s' := by
  by_cases hfull : s.isFull = true
  · refine ⟨.error (.isFull buf), s, ?_, rfl, rfl, ?_, hs, ?_, ?_, ?_, ?_⟩
    · simp only [QuicSocket.push, hfull, if_true, pure_eq_ok]
    · rw [pushOffers, if_pos hfull, List.length_nil, Nat.add_zero]
    · rw [pushEnqueues, if_pos hfull, List.append_nil]
    · intro buf' heq
      cases heq
      exact ⟨rfl, if_pos hfull⟩
    · intro hnot
      rw [hfull] at hnot
      cases hnot
    · exact fun _ ↦ ⟨rfl, fun err heq ↦ by cases heq⟩
  · have hlt : s.sending.length < s.sendingBufferLimits := by
      apply Nat.lt_of_le_of_ne hs
      simpa [QuicSocket.isFull] using hfull
    have hle : (s.sending ++ [(buf, target)]).length ≤ s.sendingBufferLimits := by
      rw [List.length_append]
      exact hlt
    obtain ⟨r, s', htry, h⟩ := tryFlush_tried os { s with sending := s.sending ++ [(buf, target)] }
    have hbounded : Bounded s' := by
      unfold Bounded
      rw [h.limits]
      exact le_trans h.length_le hle
    have hline : s'.taken ++ s'.sending = s.taken ++ s.sending ++ pushEnqueues s (buf, target) := by
      rw [h.line, pushEnqueues, if_neg hfull, List.append_assoc]
    have hoffers : pushOffers os s (buf, target) =
        flushOffers os { s with sending := s.sending ++ [(buf, target)] } := if_neg hfull
    have hattempts : s'.attempts = s.attempts + (pushOffers os s (buf, target)).length := by
      rw [hoffers]
      exact h.attempts
    cases r with
    | ok _ =>
      refine ⟨.ok s'.sending.length, s', ?_, h.limits, h.addr, hattempts, hbounded, hline, ?_, ?_, ?_⟩
      · simp only [QuicSocket.push, hfull, Bool.false_eq_true, if_false,
          assert_of (Nat.not_lt.mpr hle), ok_bind, htry, pure_eq_ok]
      · intro buf' heq
        cases heq
      · intro _
        rw [hoffers]
        simpa using h.settled
      · exact fun hnot ↦ absurd hnot hfull
    | error err =>
      refine ⟨.error (.io err), s', ?_, h.limits, h.addr, hattempts, hbounded, hline, ?_, ?_, ?_⟩
      · simp only [QuicSocket.push, hfull, Bool.false_eq_true, if_false,
          assert_of (Nat.not_lt.mpr hle), ok_bind, htry, pure_eq_ok]
      · intro buf' heq
        cases heq
      · intro _
        rw [hoffers]
        simpa using h.settled
      · exact fun hnot ↦ absurd hnot hfull

theorem Settled.congr {reported reported' : Io → Prop} (h : Settled os log s' reported)
    (heq : ∀ err, err.kind ≠ .wouldBlock → (reported err ↔ reported' err))
    (hhard : ∀ err, reported' err → err.kind ≠ .wouldBlock) : Settled os log s' reported' := by
  refine ⟨?_, h.refused, ?_⟩
  · intro hne
    obtain ⟨err, hstuck, hor⟩ := h.left hne
    refine ⟨err, hstuck, hor.imp_right fun hreported ↦ ?_⟩
    exact (heq err (h.failed err hreported).1).mp hreported
  · intro err hreported
    exact h.failed err ((heq err (hhard err hreported)).mpr hreported)

structure Called (os : System) (s : QuicSocket) (call : Call) (outcome : Outcome)
    (s' : QuicSocket) : Prop where
  limits : s'.sendingBufferLimits = s.sendingBufferLimits
  addr : s'.localAddr = s.localAddr
  attempts : s'.attempts = s.attempts + (callOffers os s call).length
  bounded : Bounded s'
  line : s'.taken ++ s'.sending = s.taken ++ s.sending ++ callEnqueues os s call
  full : ∀ buf, outcome = .sent (.error (.isFull buf)) →
    (∃ target, call = .sendTo buf target) ∧ callEnqueues os s call = []
  settled : Settled os (callOffers os s call) s'
    fun err ↦ outcome.Reports err ∧ err.kind ≠ .wouldBlock
  failed : ∀ err, outcome = .sent (.error (.io err)) → err.kind ≠ .wouldBlock

theorem flush_called (os : System) (hs : Bounded s) :
    ∃ outcome s', perform os s .flush = .ok (outcome, s') ∧ Called os s .flush outcome s' := by
  obtain ⟨r, s', hrun, h⟩ := flushLoop_flushed os s.sending s
  have hbounded : Bounded s' := by
    unfold Bounded
    rw [h.limits]
    exact le_trans h.length_le hs
  refine ⟨.flushed r, s', ?_, h.limits, h.addr, h.attempts, hbounded, ?_, by simp, ?_, by simp⟩
  · simp only [perform, QuicSocket.flush, hrun, pure_eq_ok]
  · rw [h.line, callEnqueues, List.append_nil]
  · cases h.ends with
    | inl hall =>
      obtain ⟨rfl, hempty, hnone⟩ := hall
      refine ⟨fun hne ↦ absurd hempty hne, ?_, ?_⟩
      · exact fun packet err hmem ↦ absurd hmem (hnone packet err)
      · intro err herr
        cases herr.1
    | inr hstuck =>
      obtain ⟨err, rfl, hstuck, honly⟩ := hstuck
      refine ⟨fun _ ↦ ⟨err, hstuck, ?_⟩, ?_, ?_⟩
      · by_cases hkind : err.kind = .wouldBlock
        · exact .inl hkind
        · exact .inr ⟨rfl, hkind⟩
      · intro packet err' hmem _
        obtain ⟨rfl, hpacket⟩ := honly packet err' hmem
        exact ⟨hpacket, hstuck.2⟩
      · intro err' herr
        obtain ⟨hreports, hkind⟩ := herr
        cases hreports
        obtain ⟨⟨packet, -, -, hmem⟩, -⟩ := hstuck
        exact ⟨hkind, packet, hmem⟩

theorem Settled.sent {result : Except QuicSocketError ℕ}
    (h : Settled os log s' fun err ↦ result = .error (.io err)) :
    Settled os log s' fun err ↦ (Outcome.sent result).Reports err ∧ err.kind ≠ .wouldBlock :=
  h.congr (fun _ hkind ↦ (and_iff_left hkind).symm) fun _ hreported ↦ hreported.2

theorem sendTo_called (os : System) (hs : Bounded s) (buf : QuicBuf) (target : SocketAddr) :
    ∃ result s', s.sendTo os buf target = .ok (result, s') ∧
      Called os s (.sendTo buf target) (.sent result) s' := by
  by_cases hfull : s.isFull = true
  · obtain ⟨r, s₁, htry, h⟩ := tryFlush_tried os s
    have hbounded : Bounded s₁ := by
      unfold Bounded
      rw [h.limits]
      exact le_trans h.length_le hs
    cases r with
    | error err =>
      have hoffers : callOffers os s (.sendTo buf target) = flushOffers os s := by
        simp only [callOffers, hfull, if_true, htry, List.append_nil]
      have henqueues : callEnqueues os s (.sendTo buf target) = [] := by
        simp only [callEnqueues, hfull, if_true, htry]
      have hsettled : Settled os (callOffers os s (.sendTo buf target)) s₁ fun err' ↦
          (Except.error (.io err) : Except QuicSocketError ℕ) = .error (.io err') := by
        rw [hoffers]
        simpa using h.settled
      refine ⟨.error (.io err), s₁, ?_, h.limits, h.addr, ?_, hbounded, ?_, by simp,
        hsettled.sent, ?_⟩
      · simp only [QuicSocket.sendTo, hfull, if_true, htry, pure_eq_ok]
      · rw [h.attempts, hoffers]
      · rw [h.line, henqueues, List.append_nil]
      · intro err' heq
        cases heq
        exact (hsettled.failed err rfl).1
    | ok _ =>
      obtain ⟨result, s', hpush, hpushed⟩ := push_pushed os hbounded buf target
      have hoffers : callOffers os s (.sendTo buf target) =
          flushOffers os s ++ pushOffers os s₁ (buf, target) := by
        simp only [callOffers, hfull, if_true, htry]
      have henqueues : callEnqueues os s (.sendTo buf target) = pushEnqueues s₁ (buf, target) := by
        simp only [callEnqueues, hfull, if_true, htry]
      have hsettled : Settled os (callOffers os s (.sendTo buf target)) s' fun err ↦
          result = .error (.io err) := by
        rw [hoffers]
        cases hfull₁ : s₁.isFull with
        | true =>
          obtain ⟨rfl, hne⟩ := hpushed.same hfull₁
          have hnone : pushOffers os s' (buf, target) = [] := if_pos hfull₁
          rw [hnone, List.append_nil]
          refine h.settled.congr (fun err _ ↦ iff_of_false ?_ (hne err)) ?_
          · intro herr
            cases herr
          · exact fun err herr ↦ absurd herr (hne err)
        | false => exact (hpushed.settled hfull₁).after h.soft
      refine ⟨result, s', ?_, hpushed.limits.trans h.limits, hpushed.addr.trans h.addr, ?_,
        hpushed.bounded, ?_, ?_, hsettled.sent, ?_⟩
      · simp only [QuicSocket.sendTo, hfull, if_true, htry, hpush]
      · rw [hpushed.attempts, h.attempts, hoffers, List.length_append, Nat.add_assoc]
      · rw [hpushed.line, h.line, henqueues]
      · intro buf' heq
        cases heq
        obtain ⟨rfl, hnone⟩ := hpushed.full buf' rfl
        exact ⟨⟨target, rfl⟩, henqueues.trans hnone⟩
      · intro err heq
        cases heq
        exact (hsettled.failed err rfl).1
  · obtain ⟨result, s', hpush, hpushed⟩ := push_pushed os hs buf target
    have hoffers : callOffers os s (.sendTo buf target) = pushOffers os s (buf, target) := by
      simp only [callOffers, hfull, Bool.false_eq_true, if_false]
    have henqueues : callEnqueues os s (.sendTo buf target) = pushEnqueues s (buf, target) := by
      simp only [callEnqueues, hfull, Bool.false_eq_true, if_false]
    have hsettled : Settled os (callOffers os s (.sendTo buf target)) s' fun err ↦
        result = .error (.io err) := by
      rw [hoffers]
      exact hpushed.settled (by simpa using hfull)
    refine ⟨result, s', ?_, hpushed.limits, hpushed.addr, ?_, hpushed.bounded, ?_, ?_,
      hsettled.sent, ?_⟩
    · simp only [QuicSocket.sendTo, hfull, Bool.false_eq_true, if_false, hpush]
    · rw [hpushed.attempts, hoffers]
    · rw [hpushed.line, henqueues]
    · intro buf' heq
      cases heq
      obtain ⟨rfl, hnone⟩ := hpushed.full buf' rfl
      exact ⟨⟨target, rfl⟩, henqueues.trans hnone⟩
    · intro err heq
      cases heq
      exact (hsettled.failed err rfl).1

theorem perform_called (os : System) (hs : Bounded s) (call : Call) :
    ∃ outcome s', perform os s call = .ok (outcome, s') ∧ Called os s call outcome s' := by
  cases call with
  | sendTo buf target =>
    obtain ⟨result, s', hsend, hcalled⟩ := sendTo_called os hs buf target
    refine ⟨.sent result, s', ?_, hcalled⟩
    simp only [perform, hsend, ok_bind, pure_eq_ok]
  | flush => exact flush_called os hs

theorem offers_ne_nil {packets : List Packet} (h : packets ≠ []) (n : ℕ) : offers os n packets ≠ [] := by
  cases packets with
  | nil => exact absurd rfl h
  | cons packet rest => exact List.cons_ne_nil _ _

theorem sendTo_offers (h : 0 < s.sendingBufferLimits) (buf : QuicBuf) (target : SocketAddr) :
    callOffers os s (.sendTo buf target) ≠ [] := by
  by_cases hfull : s.isFull = true
  · have hne : s.sending ≠ [] := by
      have hlength : s.sending.length = s.sendingBufferLimits := by
        simpa [QuicSocket.isFull] using hfull
      rw [← List.length_pos_iff]
      omega
    simp only [callOffers, hfull, if_true]
    exact List.append_ne_nil_of_left_ne_nil (offers_ne_nil hne _) _
  · simp only [callOffers, pushOffers, hfull, Bool.false_eq_true, if_false]
    exact offers_ne_nil (List.append_ne_nil_of_right_ne_nil _ (List.cons_ne_nil _ _)) _

end Calls

section Runs

variable {os : System}

/-- A socket with the packets that were put into its queue, and the offers that were
made to the system. -/
structure Trace where
  socket : QuicSocket
  enqueued : List Packet
  log : List Offer

def step (os : System) (t : Trace) (call : Call) : Rust Trace := do
  let (_, socket) ← perform os t.socket call
  return ⟨socket, t.enqueued ++ callEnqueues os t.socket call, t.log ++ callOffers os t.socket call⟩

/-- What the runs keep: the packets stand in line as they were put in, and the last
attempt was refused if any of them are left. -/
structure InLine (os : System) (limit : ℕ) (t : Trace) : Prop where
  limits : t.socket.sendingBufferLimits = limit
  bounded : Bounded t.socket
  line : t.socket.taken ++ t.socket.sending = t.enqueued
  owed : t.socket.sending ≠ [] → ∃ err, Stuck os t.log t.socket err

theorem InLine.step {limit : ℕ} {t t' : Trace} (h : InLine os limit t) {call : Call}
    (hstep : step os t call = .ok t') : InLine os limit t' := by
  obtain ⟨outcome, s', hperform, hcalled⟩ := perform_called os h.bounded call
  simp only [SendQueue.step, hperform, ok_bind, pure_eq_ok, Except.ok.injEq] at hstep
  subst hstep
  refine ⟨hcalled.limits.trans h.limits, hcalled.bounded, ?_, ?_⟩
  · rw [hcalled.line, h.line]
  · intro hne
    obtain ⟨err, hstuck, -⟩ := hcalled.settled.left hne
    exact ⟨err, hstuck.mono fun o ho ↦ List.mem_append_right _ ho⟩

theorem InLine.run {limit : ℕ} {t t' : Trace} (h : InLine os limit t)
    (hrun : Run (SendQueue.step os) Anything t t') : InLine os limit t' := by
  induction hrun with
  | refl => exact h
  | tail _ _ hstep ih => exact ih.step hstep

/-- A writable notification is owed for what is left: the last attempt found a socket
that would block. -/
def Owed (os : System) (s : QuicSocket) : Prop :=
  s.sending ≠ [] → ∃ err, Last os s err ∧ err.kind = .wouldBlock

theorem Stuck.owed {s : QuicSocket} {err : Io} {log : List Offer} (h : Stuck os log s err)
    (hlog : Soft log) : Owed os s := by
  obtain ⟨⟨packet, -, -, hmem⟩, hlast⟩ := h
  exact fun _ ↦ ⟨err, hlast, hlog packet err hmem⟩

theorem Last.unique {s : QuicSocket} {err err' : Io} (h : Last os s err) (h' : Last os s err') :
    err = err' := by
  obtain ⟨n, hn, hos⟩ := h
  obtain ⟨n', hn', hos'⟩ := h'
  obtain rfl : n = n' := by omega
  rw [hos] at hos'
  exact Except.error.inj hos'

theorem Settled.owed_iff {log : List Offer} {s : QuicSocket} {reported : Io → Prop}
    (h : Settled os log s reported) : Owed os s ↔ Soft log := by
  constructor
  · intro howed packet err hmem
    by_contra hkind
    obtain ⟨hpacket, hlast⟩ := h.refused packet err hmem hkind
    obtain ⟨err', hlast', hkind'⟩ := howed (List.ne_nil_of_mem hpacket)
    exact hkind (hlast.unique hlast' ▸ hkind')
  · intro hsoft hne
    obtain ⟨err, hstuck, -⟩ := h.left hne
    exact hstuck.owed hsoft hne

/-- The packets that the system has taken and those of the queue stand in the line in
which they were put in, and the queue keeps to its limit. Packets are left behind a call
only by an attempt that was refused, because the socket would block or with an error
that the call reports; a writable notification is owed for them exactly if no packet
that the call offered was refused for good. -/
theorem send_queue_in_line (os : System) (addr : SocketAddr) (limit : ℕ) (t : Trace)
    (hrun : Run (step os) Anything ⟨.new addr limit, [], []⟩ t) :
    t.socket.taken ++ t.socket.sending = t.enqueued ∧
      t.socket.sending.length ≤ limit ∧
      (t.socket.sending ≠ [] → ∃ err, Last os t.socket err) ∧
      (Soft t.log → Owed os t.socket) ∧
      ∀ call, ∃ outcome s', perform os t.socket call = .ok (outcome, s') ∧
        (∀ buf, outcome = .sent (.error (.isFull buf)) →
          (∃ target, call = .sendTo buf target) ∧ callEnqueues os t.socket call = []) ∧
        (s'.sending ≠ [] → ∃ err, Last os s' err ∧
          (err.kind = .wouldBlock ∨ outcome.Reports err)) ∧
        (Owed os s' ↔ Soft (callOffers os t.socket call)) := by
  have hnew : InLine os limit ⟨.new addr limit, [], []⟩ :=
    ⟨rfl, Nat.zero_le _, rfl, fun hne ↦ absurd rfl hne⟩
  have h := hnew.run hrun
  refine ⟨h.line, ?_, ?_, ?_, ?_⟩
  · rw [← h.limits]
    exact h.bounded
  · intro hne
    obtain ⟨err, -, hlast⟩ := h.owed hne
    exact ⟨err, hlast⟩
  · intro hsoft hne
    obtain ⟨err, hstuck⟩ := h.owed hne
    exact hstuck.owed hsoft hne
  · intro call
    obtain ⟨outcome, s', hperform, hcalled⟩ := perform_called os h.bounded call
    refine ⟨outcome, s', hperform, hcalled.full, ?_, hcalled.settled.owed_iff⟩
    intro hne
    obtain ⟨err, ⟨-, hlast⟩, hor⟩ := hcalled.settled.left hne
    exact ⟨err, hlast, hor.imp_right And.left⟩

def port (n : UInt16) : SocketAddr := ⟨.localhost, n⟩

def packet (b : UInt8) (n : UInt16) : Packet := (⟨[b], 1⟩, port n)

theorem send_queue_in_line_example :
    ∃ os t, Run (step os) Anything ⟨.new (port 1) 1, [], []⟩ t ∧
      t.enqueued = [packet 1 2, packet 3 2] ∧ t.socket.taken = [packet 1 2] ∧
      t.socket.taken ++ t.socket.sending = t.enqueued ∧
      ∃ err, Last os t.socket err ∧ err.kind = .wouldBlock := by
  obtain ⟨os, hos⟩ : ∃ os : System, os =
      fun n ↦ if n = 2 then .ok () else .error ⟨.wouldBlock, .inl ""⟩ := ⟨_, rfl⟩
  obtain ⟨t, ht⟩ : ∃ t : Trace, t = ⟨⟨1, [packet 3 2], port 1, [packet 1 2], 4⟩,
      [packet 1 2, packet 3 2],
      [(packet 1 2, .error ⟨.wouldBlock, .inl ""⟩), (packet 1 2, .error ⟨.wouldBlock, .inl ""⟩),
        (packet 1 2, .ok ()), (packet 3 2, .error ⟨.wouldBlock, .inl ""⟩)]⟩ := ⟨_, rfl⟩
  have hrun : Run (step os) Anything ⟨.new (port 1) 1, [], []⟩ t := by
    rw [hos, ht]
    exact .tail (.tail (.tail (.refl _) (i := .sendTo ⟨[1], 1⟩ (port 2)) trivial rfl)
      (i := .sendTo ⟨[2], 1⟩ (port 2)) trivial rfl) (i := .sendTo ⟨[3], 1⟩ (port 2)) trivial rfl
  have hsoft : Soft t.log := by
    intro p err hmem
    simp only [ht, List.mem_cons, Prod.mk.injEq, Except.error.injEq, reduceCtorEq, and_false,
      false_or, List.not_mem_nil, or_false] at hmem
    obtain ⟨-, rfl⟩ | ⟨-, rfl⟩ | ⟨-, rfl⟩ := hmem <;> rfl
  obtain ⟨hline, -, -, howed, -⟩ := send_queue_in_line os (port 1) 1 _ hrun
  refine ⟨os, t, hrun, by rw [ht], by rw [ht], hline, howed hsoft ?_⟩
  rw [ht]
  exact List.cons_ne_nil _ _

/-- A packet that is refused for good is left in the queue, and nothing is owed for it. -/
theorem send_queue_not_owed :
    ∃ os t, (∀ n, os n = .error ⟨.other, .inl ""⟩) ∧
      Run (step os) Anything ⟨.new (port 1) 2, [], []⟩ t ∧
      t.socket.sending = [packet 1 2] ∧ t.socket.attempts = 1 ∧ ¬ Owed os t.socket := by
  refine ⟨fun _ ↦ .error ⟨.other, .inl ""⟩, _, fun _ ↦ rfl,
    .one (i := .sendTo ⟨[1], 1⟩ (port 2)) trivial rfl, rfl, rfl, ?_⟩
  intro howed
  obtain ⟨err, ⟨n, -, hos⟩, hkind⟩ := howed (List.cons_ne_nil _ _)
  cases hos
  cases hkind

end Runs

section Caching

variable {os : System} {s : QuicSocket}

/-- A packet is kept exactly because the socket would block: one that is refused for
good is not in the queue, a call that fails puts none into it, and only a socket that
would block ends a flush. -/
def Caches (os : System) (s : QuicSocket) (call : Call) : Prop :=
  ∃ outcome s', perform os s call = .ok (outcome, s') ∧
    (∀ packet err, (packet, .error err) ∈ callOffers os s call → err.kind ≠ .wouldBlock →
      packet ∉ s'.sending) ∧
    (∀ err, outcome = .sent (.error err) →
      (s'.taken ++ s'.sending).Sublist (s.taken ++ s.sending)) ∧
    Owed os s'

theorem caches_iff_soft (hs : Bounded s) (call : Call) :
    Caches os s call ↔ Soft (callOffers os s call) := by
  obtain ⟨outcome, s', hperform, h⟩ := perform_called os hs call
  constructor
  · intro hcaches packet err hmem
    obtain ⟨outcome', s₁, hperform', hrefused, -⟩ := hcaches
    cases hperform.symm.trans hperform'
    by_contra hkind
    exact hrefused packet err hmem hkind (h.settled.refused packet err hmem hkind).1
  · intro hsoft
    refine ⟨outcome, s', hperform, ?_, ?_, h.settled.owed_iff.mpr hsoft⟩
    · exact fun packet err hmem hkind ↦ absurd (hsoft packet err hmem) hkind
    · intro err houtcome
      -- an error of the system would be one for good
      cases err with
      | isFull buf =>
        obtain ⟨-, hnone⟩ := h.full buf houtcome
        rw [h.line, hnone, List.append_nil]
      | io err =>
        have hkind := h.failed err houtcome
        have hreports : outcome.Reports err := by
          rw [houtcome]
          rfl
        obtain ⟨-, packet, hmem⟩ := h.settled.failed err ⟨hreports, hkind⟩
        exact absurd (hsoft packet err hmem) hkind

/-- As long as no packet is refused for good, packets are kept exactly because the
socket would block, and no packet is offered again after it was refused for good. -/
theorem cached_iff_would_block (os : System) (s₀ : QuicSocket) (t : Trace) (hs₀ : Bounded s₀)
    (hrun : Run (step os) (fun t call ↦ Soft (callOffers os t.socket call)) ⟨s₀, [], []⟩ t) :
    (∀ before packet err after, t.log = before ++ (packet, .error err) :: after →
        err.kind ≠ .wouldBlock → ∀ offer ∈ after, offer.1 ≠ packet) ∧
      ∀ call, Caches os t.socket call ↔ Soft (callOffers os t.socket call) := by
  have h : Bounded t.socket ∧ Soft t.log := by
    refine hrun.invariant (P := fun t ↦ Bounded t.socket ∧ Soft t.log) ⟨hs₀, by simp [Soft]⟩ ?_
    intro t t' call ht hsoft hstep
    obtain ⟨outcome, s', hperform, hcalled⟩ := perform_called os ht.1 call
    simp only [step, hperform, ok_bind, pure_eq_ok, Except.ok.injEq] at hstep
    subst hstep
    refine ⟨hcalled.bounded, fun packet err hmem ↦ ?_⟩
    cases List.mem_append.mp hmem with
    | inl hmem => exact ht.2 packet err hmem
    | inr hmem => exact hsoft packet err hmem
  refine ⟨?_, fun call ↦ caches_iff_soft h.1 call⟩
  intro before packet err after heq hkind
  have hmem : (packet, .error err) ∈ t.log := by
    rw [heq]
    simp
  exact absurd (h.2 packet err hmem) hkind

theorem cached_iff_would_block_example :
    ∃ os t, Run (step os) (fun t call ↦ Soft (callOffers os t.socket call))
        ⟨.new (port 1) 1, [], []⟩ t ∧
      t.socket.sending = [packet 1 2] ∧ Caches os t.socket .flush := by
  obtain ⟨os, hos⟩ : ∃ os : System, os =
      fun n ↦ if n = 0 then .error ⟨.wouldBlock, .inl ""⟩ else .ok () := ⟨_, rfl⟩
  have hsoft : ∀ log, (∀ o ∈ log, ∃ n, o.2 = os n) → Soft log := by
    intro log hlog p err hmem
    obtain ⟨n, hn⟩ := hlog _ hmem
    by_cases hzero : n = 0
    · simp only [hos, hzero, if_true, Except.error.injEq] at hn
      rw [hn]
    · simp [hos, hzero] at hn
  obtain ⟨t, ht⟩ : ∃ t : Trace, t = ⟨⟨1, [packet 1 2], port 1, [], 1⟩, [packet 1 2],
      [(packet 1 2, .error ⟨.wouldBlock, .inl ""⟩)]⟩ := ⟨_, rfl⟩
  have hrun : Run (step os) (fun t call ↦ Soft (callOffers os t.socket call))
      ⟨.new (port 1) 1, [], []⟩ t := by
    rw [ht]
    refine .tail (.refl _) (i := .sendTo ⟨[1], 1⟩ (port 2)) ?_ (by rw [hos]; rfl)
    refine hsoft _ fun o ho ↦ ⟨0, ?_⟩
    simp only [hos] at ho ⊢
    exact congrArg Prod.snd (List.mem_singleton.mp ho)
  refine ⟨os, t, hrun, by rw [ht], ?_⟩
  apply ((cached_iff_would_block os _ t (Nat.zero_le _) hrun).2 .flush).mpr
  refine hsoft _ fun o ho ↦ ⟨1, ?_⟩
  simp only [hos, ht] at ho ⊢
  exact congrArg Prod.snd (List.mem_singleton.mp ho)

/-- A packet that is refused for good stays at the front of the queue. The next call
offers it again, fails with it, and leaves its own packet behind. -/
theorem refused_packet_stays :
    ∃ os t t' s, (∀ n, os n = if n < 2 then .error ⟨.other, .inl ""⟩ else .ok ()) ∧
      Run (step os) Anything ⟨.new (port 1) 2, [], []⟩ t ∧ t.socket.sending = [packet 1 2] ∧
      perform os t.socket (.sendTo ⟨[2], 1⟩ (port 3)) =
        .ok (.sent (.error (.io ⟨.other, .inl ""⟩)), s) ∧
      s.sending = [packet 1 2, packet 2 3] ∧
      step os t (.sendTo ⟨[2], 1⟩ (port 3)) = .ok t' ∧
      t'.log = [(packet 1 2, .error ⟨.other, .inl ""⟩), (packet 1 2, .error ⟨.other, .inl ""⟩)] :=
  ⟨fun n ↦ if n < 2 then .error ⟨.other, .inl ""⟩ else .ok (), _, _, _, fun _ ↦ rfl,
    .one (i := .sendTo ⟨[1], 1⟩ (port 2)) trivial rfl, rfl, rfl, rfl, rfl, rfl⟩

end Caching

end ZeroRtt.Mio.SendQueue
