import ZeroRtt.Mio.Parking

namespace ZeroRtt.Mio.Intake

open ZeroRtt.Lib.Panics ZeroRtt.Lib.Containers ZeroRtt.Lib.Runs
open ZeroRtt.Api.Types ZeroRtt.Api.Quiche ZeroRtt.Api.Handshakes
open ZeroRtt.Poll ZeroRtt.Poll.Locking
open ZeroRtt.Poll.Accepting (Datagram Job Stage Result Env Moves moves_advance)
open ZeroRtt.Mio.Parking (Action Blocked Between)

variable {Config : Type}

structure Feed where
  token : Token
  packet : Bytes
  info : RecvInfo

def feeds (w : Accepting.World) : List Feed :=
  match w.stage with
  | .receiving job _ _ guard =>
    match Group.derefMut guard (.recv (job.buf.take job.recvSize) job.info) w.base.group with
    | .ok _ _ => [⟨guard.lock.token, job.buf.take job.recvSize, job.info⟩]
    | .error _ _ => []
  | _ => []

/-- The thread in `on_udp_recv`, with the packet that it has read last and the calls of `recv`
since then. These are history variables: nothing reads them. -/
structure Trace where
  world : Parking.World
  packet : Option (Bytes × RecvInfo)
  fed : List Feed

def Trace.initial : Trace := ⟨.initial, none, []⟩

def Trace.next (lib : Library Config) (fromSlice : Group.FromSlice) (t : Trace)
    (a : Action Config) : Trace :=
  let world := t.world.next lib fromSlice a
  match a with
  | .receive buf readSize info _ =>
    if Between t.world.thread.stage then ⟨world, some (buf.take readSize, info), []⟩
    else { t with world }
  | .step _ => ⟨world, t.packet, t.fed ++ feeds t.world.thread⟩
  | _ => { t with world }

def step (lib : Library Config) (fromSlice : Group.FromSlice) (t : Trace) (a : Action Config) :
    Rust Trace := .ok (t.next lib fromSlice a)

/-- The datagram that the thread has in hand and quiche has not seen. -/
def unfed : Stage → Option Datagram
  | .finding job _ | .locking job _ _ | .receiving job _ _ _ | .handshaking job
  | .registering job _ => some job.toDatagram
  | .returned d r => if Blocked r then some d else none
  | _ => none

def Seen : Stage → Prop
  | .dropping .. | .takingConn .. | .takingScid .. | .sending .. | .transmitting .. => True
  | .returned d (.ok _) => d.serving = false
  | _ => False

def Serves : Stage → Prop
  | .handshaking job => job.serving = true
  | _ => True

/-- The stage agrees with the packet that was read and the calls of `recv` since then. -/
structure Agrees (stage : Stage) (packet : Option (Bytes × RecvInfo)) (fed : List Feed) :
    Prop where
  once : fed.length ≤ 1
  same : ∀ f ∈ fed, packet = some (f.packet, f.info)
  held : ∀ d, unfed stage = some d → fed = [] ∧ packet = some (d.buf.take d.recvSize, d.info)
  gone : Seen stage → fed.length = 1
  serves : Serves stage

section Stages

variable {lib : Library Config} {env : Env Config} {g g' : Group} {stage stage' : Stage} {job : Job}
variable {packet : Option (Bytes × RecvInfo)} {fed : List Feed} {again : Option Token} {err : Error}

theorem agrees_silent (h : Agrees stage packet fed) (hunfed : unfed stage' = none)
    (hseen : ¬ Seen stage') (hserves : Serves stage') : Agrees stage' packet fed :=
  ⟨h.once, h.same, fun d hd ↦ (by rw [hunfed] at hd; cases hd), fun hs ↦ absurd hs hseen, hserves⟩

theorem Agrees.keeps (h : Agrees stage packet fed) (hstage : unfed stage = some job.toDatagram)
    (hunfed : ∀ d, unfed stage' = some d → d = job.toDatagram) (hseen : ¬ Seen stage')
    (hserves : Serves stage') : Agrees stage' packet fed := by
  refine ⟨h.once, h.same, fun d hd ↦ ?_, fun hs ↦ absurd hs hseen, hserves⟩
  rw [hunfed d hd]
  exact h.held _ hstage

theorem Agrees.goes (h : Agrees stage packet fed) (hstage : Seen stage)
    (hunfed : unfed stage' = none) (hserves : Serves stage') : Agrees stage' packet fed :=
  ⟨h.once, h.same, fun d hd ↦ (by rw [hunfed] at hd; cases hd), fun _ ↦ h.gone hstage, hserves⟩

theorem Agrees.fail (h : Agrees stage packet fed) (hstage : unfed stage = some job.toDatagram) :
    Agrees (.fail job again err) packet fed := by
  unfold Stage.fail
  split
  · split
    next hserving =>
      exact h.keeps hstage (fun d hd ↦ (Option.some.inj hd).symm) id hserving
    next => exact agrees_silent h rfl id trivial
  · exact agrees_silent h rfl id trivial
  · exact agrees_silent h rfl id trivial
  · refine h.keeps hstage (fun d hd ↦ ?_) id trivial
    simp only [unfed] at hd
    split at hd
    · exact (Option.some.inj hd).symm
    · cases hd

theorem Agrees.proceed {now : Instant} {r : Result} (h : Agrees stage packet fed)
    (hstage : Seen stage) : Agrees (.proceed job now r) packet fed := by
  unfold Stage.proceed
  split
  · split
    · exact h.goes hstage rfl trivial
    · exact h.goes hstage rfl trivial
  · unfold Stage.fail
    split
    next heq => cases heq
    · exact h.goes hstage rfl trivial
    · exact h.goes hstage rfl trivial
    · exact h.goes hstage rfl trivial
  · exact h.goes hstage rfl trivial
  · exact h.goes hstage rfl trivial
  next r hbusy hretry =>
    refine h.goes hstage ?_ trivial
    cases r with
    | ok sent => rfl
    | error err =>
      cases err with
      | busy => exact absurd rfl hbusy
      | retry => exact absurd rfl hretry
      | _ => rfl

theorem Agrees.handshake (h : Agrees (.handshaking job) packet fed) :
    Agrees (Accepting.World.handshake lib env job) packet fed := by
  unfold Accepting.World.handshake
  split
  · exact agrees_silent h rfl id trivial
  next err buf hrun =>
    refine h.keeps rfl (fun d hd ↦ ?_) id trivial
    simp only [unfed] at hd
    split at hd
    next hblocked =>
      cases hd
      cases handshake_answers hrun with
      | fails err => cases hblocked
      | invalid => cases hblocked
      | unminted hmint => rfl
    next => cases hd
  next sendSize buf hrun =>
    refine agrees_silent h rfl (fun hseen ↦ ?_) trivial
    have hserving : job.serving = true := h.serves
    rw [show job.serving = false from hseen] at hserving
    cases hserving
  next conn buf hrun =>
    refine h.keeps rfl (fun d hd ↦ ?_) id trivial
    cases handshake_answers hrun with
    | accepts haccept => exact (Option.some.inj hd).symm

theorem Agrees.moves (h : Agrees stage packet fed) (hmoves : Moves lib env g stage g' stage')
    (hstage : ∀ job again token guard, stage ≠ .receiving job again token guard) :
    Agrees stage' packet fed := by
  cases hmoves with
  | found => exact h.keeps rfl (fun d hd ↦ (Option.some.inj hd).symm) id trivial
  | unknown => exact h.fail rfl
  | locked => exact h.keeps rfl (fun d hd ↦ (Option.some.inj hd).symm) id trivial
  | refused => exact h.fail rfl
  | received => exact absurd rfl (hstage _ _ _ _)
  | closed => exact h.goes trivial rfl trivial
  | dropped => exact h.proceed trivial
  | took => exact h.goes trivial rfl trivial
  | gone => exact h.proceed trivial
  | forgot => exact h.proceed trivial
  | answered hrun =>
    subst hrun
    exact h.handshake
  | registered => exact h.keeps rfl (fun d hd ↦ (Option.some.inj hd).symm) id trivial
  | sends => exact h.goes trivial rfl trivial
  | skips => exact h.proceed trivial
  | transmitted => exact h.goes trivial rfl trivial
  | panics => exact agrees_silent h rfl id trivial
  | rests => exact h

theorem agrees_start {fromSlice : Group.FromSlice} {d : Datagram}
    (hpacket : packet = some (d.buf.take d.recvSize, d.info)) :
    Agrees (.start fromSlice d) packet [] := by
  have hstart : ∀ stage, (∀ d', unfed stage = some d' → d' = d) → ¬ Seen stage → Serves stage →
      Agrees stage packet [] := by
    intro stage hunfed hseen hserves
    refine ⟨Nat.zero_le 1, fun f hf ↦ (by cases hf), fun d' hd' ↦ ?_, fun hs ↦ absurd hs hseen,
      hserves⟩
    rw [hunfed d' hd']
    exact ⟨rfl, hpacket⟩
  unfold Stage.start
  split
  · exact hstart _ (fun d' hd' ↦ by cases hd') id trivial
  · split
    · exact hstart _ (fun d' hd' ↦ by cases hd') id trivial
    · exact hstart _ (fun d' hd' ↦ (Option.some.inj hd').symm) id trivial

end Stages

section Runs

variable {lib : Library Config} {fromSlice : Group.FromSlice} {t t' : Trace}

def Sound (t : Trace) : Prop := Agrees t.world.thread.stage t.packet t.fed

theorem Sound.advance (h : Sound t) (env : Env Config) :
    Agrees (t.world.thread.advance lib env).stage t.packet (t.fed ++ feeds t.world.thread) := by
  have hmoves : Moves lib env _ _ _ _ := moves_advance t.world.thread env
  unfold Sound at h
  by_cases hstage : ∃ job again token guard, t.world.thread.stage = .receiving job again token guard
  · obtain ⟨job, again, token, guard, hstage⟩ := hstage
    rw [hstage] at h
    obtain ⟨hfed, hpacket⟩ := h.held _ rfl
    cases hrun : Group.derefMut guard (.recv (job.buf.take job.recvSize) job.info)
      t.world.thread.base.group with
    | ok r g =>
      have hfeeds : feeds t.world.thread =
          [⟨guard.lock.token, job.buf.take job.recvSize, job.info⟩] := by
        simp only [feeds, hstage, hrun]
      simp only [Accepting.World.advance, hstage, Accepting.World.run, hrun]
      rw [hfeeds, hfed]
      refine ⟨Nat.le_refl 1, fun f hf ↦ ?_, fun d hd ↦ (by cases hd), fun _ ↦ rfl, trivial⟩
      rw [List.mem_singleton.mp hf]
      exact hpacket
    | error panic g =>
      have hfeeds : feeds t.world.thread = [] := by
        simp only [feeds, hstage, hrun]
      simp only [Accepting.World.advance, hstage, Accepting.World.run, hrun]
      rw [hfeeds, List.append_nil]
      exact agrees_silent h rfl id trivial
  · push Not at hstage
    have hfeeds : feeds t.world.thread = [] := by
      unfold feeds
      split
      next hreceiving => exact absurd hreceiving (hstage _ _ _ _)
      next => rfl
    rw [hfeeds, List.append_nil]
    exact h.moves hmoves hstage

theorem Sound.next (h : Sound t) (a : Action Config) : Sound (t.next lib fromSlice a) := by
  cases a with
  | other a =>
    unfold Sound Trace.next
    simp only [Parking.World.next, Parking.World.other, Parking.wake_thread]
    exact h
  | enter unparker =>
    unfold Sound Trace.next
    simp only [Parking.World.next]
    split
    · exact agrees_silent h rfl id trivial
    · exact h
  | receive buf readSize info serving =>
    unfold Trace.next
    dsimp only
    split
    next hbetween =>
      unfold Sound
      simp only [Parking.World.next, hbetween, if_true]
      exact agrees_start rfl
    next hbetween =>
      unfold Sound
      simp only [Parking.World.next, hbetween, Bool.false_eq_true, if_false]
      exact h
  | step env =>
    unfold Sound Trace.next
    dsimp only
    rw [show (t.world.next lib fromSlice (.step env)).thread = t.world.thread.advance lib env from
      (Parking.advance_thread t.world env).1]
    exact h.advance env
  | park =>
    unfold Sound Trace.next
    simp only [Parking.World.next, Parking.World.park]
    split
    next d r hstage =>
      split
      next hpermit =>
        unfold Sound at h
        rw [hstage] at h
        have hblocked : Blocked r = true := by simpa using (Bool.and_eq_true _ _ ▸ hpermit).1
        obtain ⟨hfed, hpacket⟩ := h.held d (by simp only [unfed, hblocked, if_true])
        rw [hfed]
        exact agrees_start hpacket
      next => exact h
    next => exact h

theorem sound_of_run (h : Run (step lib fromSlice) Anything .initial t) : Sound t := by
  refine h.invariant (P := Sound) ?_ ?_
  · exact ⟨Nat.zero_le 1, fun f hf ↦ (by cases hf), fun d hd ↦ (by cases hd), False.elim, trivial⟩
  · intro t t' a ht _ hstep
    cases hstep
    exact ht.next a

end Runs

end ZeroRtt.Mio.Intake
