import ZeroRtt.Poll.Serving

namespace ZeroRtt.Poll.Sequential

open ZeroRtt.Lib.Panics ZeroRtt.Lib.Containers ZeroRtt.Lib.Runs
open ZeroRtt.Api.Types ZeroRtt.Api.Quiche ZeroRtt.Api.Handshakes
open ZeroRtt.Poll.Conn ZeroRtt.Poll.Locking ZeroRtt.Poll.Interleaving
open ZeroRtt.Poll.Operations (Op)
open ZeroRtt.Poll.Sections (section_bind_ok send_eq transmit)

variable {α Config : Type} {w w' w'' : World} {g g' : Group} {guards : List Guard}
variable {pending : List Pending} {guard : Guard} {token : Token} {env : UnlockEnv}

def Allowed (w : World) (a : Action) : Prop := (∀ env, a ≠ .poll env) ∧ Legal w a

def Leads (w w' : World) : Prop := Run step Allowed w w'

theorem Leads.trans (h : Leads w w') (h' : Leads w' w'') : Leads w w'' := Run.trans h h'

theorem leads_step {a : Action} (hpoll : ∀ env, a ≠ .poll env) (hlegal : Legal w a)
    (h : w.next a = w') : Leads w w' :=
  .one ⟨hpoll, hlegal⟩ (congrArg Except.ok h)

theorem leads_resume (unparker : Option Unparker) (accepted : Option Connection) (env : UnlockEnv)
    {p : Pending} (h : World.resume ⟨g, guards, pending⟩ unparker accepted env p = w') :
    Leads ⟨g, guards, p :: pending⟩ w' :=
  leads_step (a := .resume 0 unparker accepted env) (by simp) trivial h

section Guards

theorem leads_takeScid (env : UnlockEnv) {conn : Connection}
    (h : Group.takeScid token conn g = .ok () g') :
    Leads ⟨g, guards, .takeScid token conn :: pending⟩ ⟨g', guards, pending⟩ := by
  apply leads_resume none none env
  simp only [World.resume, World.run, h]

theorem leads_deregister_of (env : UnlockEnv) {taken : Except Error Connection}
    (hfirst : ∀ {w'}, World.takeConn ⟨g, guards, pending⟩ token = w' → Leads w w')
    (h : Group.deregister token g = .ok taken g') : Leads w ⟨g', guards, pending⟩ := by
  obtain ⟨conn, g₁, htake, h⟩ := section_bind_ok h
  cases conn with
  | error err =>
    cases h
    apply hfirst
    simp only [World.takeConn, World.run, htake]
  | ok conn =>
    obtain ⟨_, g₂, hscid, h⟩ := section_bind_ok h
    cases h
    have htaken : Leads w ⟨g₁, guards, .takeScid token conn :: pending⟩ := by
      apply hfirst
      simp only [World.takeConn, World.run, htake, World.spawn]
    exact htaken.trans (leads_takeScid env hscid)

theorem leads_deregister (env : UnlockEnv) {taken : Except Error Connection}
    (h : Group.deregister token g = .ok taken g') :
    Leads ⟨g, guards, pending⟩ ⟨g', guards, pending⟩ :=
  leads_deregister_of env (leads_step (a := .deregister token) (by simp) trivial) h

theorem leads_close (env : UnlockEnv) {taken : Except Error Connection}
    (h : Group.deregister token g = .ok taken g') :
    Leads ⟨g, guards, .takeConn token :: pending⟩ ⟨g', guards, pending⟩ :=
  leads_deregister_of env (fun hfirst ↦ leads_resume none none env hfirst) h

theorem leads_unlock {sendDone : Bool}
    (h : Group.unlock { guard.lock with sendDone } env g = .ok () g') :
    Leads ⟨g, guard :: guards, pending⟩ ⟨g', guards, pending⟩ := by
  obtain ⟨closed, g₁, hconn, h⟩ := section_bind_ok h
  have hdropped : Leads ⟨g, guard :: guards, pending⟩
      (if closed then ⟨g₁, guards, .takeConn guard.lock.token :: pending⟩
        else ⟨g₁, guards, pending⟩) := by
    apply leads_step (a := .unlock guard sendDone env) (by simp) (List.mem_cons_self ..)
    simp only [World.next, World.run, List.erase_cons_head, hconn, World.spawn]
  cases closed with
  | false =>
    cases h
    exact hdropped
  | true =>
    obtain ⟨taken, g₂, hderegister, h⟩ := section_bind_ok h
    cases h
    exact hdropped.trans (leads_close env hderegister)

theorem leads_lock {kind : LocKind} {r : Except Error Guard} (hk : kind ≠ .none)
    (h : Group.lock token kind g = .ok r g') :
    Leads ⟨g, guards, pending⟩ (World.hold ⟨g', guards, pending⟩ r) := by
  apply leads_step (a := .lock token kind) (by simp) hk
  simp only [World.next, World.run, h]

theorem leads_derefMut {c : Call} {answer : Answer c}
    (h : Group.derefMut guard c g = .ok answer g') :
    Leads ⟨g, guard :: guards, pending⟩ ⟨g', guard :: guards, pending⟩ := by
  apply leads_step (a := .call guard c) (by simp) (List.mem_cons_self ..)
  simp only [World.next, World.run, h]

theorem deref_ok {conn : Connection} (h : Group.deref guard g = .ok conn g') : g' = g := by
  unfold Group.deref at h
  split at h
  · cases h
  · split at h
    · cases h
      rfl
    · cases h

theorem leads_transmit {len : ℕ} {now : Instant} {sent : Bool × Except Error (ℕ × SendInfo)}
    (h : transmit guard len now g = .ok sent g') :
    Leads ⟨g, guard :: guards, pending⟩ ⟨g', guard :: guards, pending⟩ := by
  obtain ⟨conn, g₁, hderef, h⟩ := section_bind_ok h
  rw [deref_ok hderef] at h
  split at h
  · cases h
    exact Run.refl _
  · obtain ⟨_, g₂, htimeout, h⟩ := section_bind_ok h
    obtain ⟨answer, g₃, hsend, h⟩ := section_bind_ok h
    have hcalled : Leads ⟨g, guard :: guards, pending⟩ ⟨g₃, guard :: guards, pending⟩ :=
      (leads_derefMut htimeout).trans (leads_derefMut hsend)
    split at h <;> cases h <;> exact hcalled

theorem leads_send {len : ℕ} {now : Instant} {r : Except Error (ℕ × SendInfo)}
    (h : Group.send token len now env g = .ok r g') :
    Leads ⟨g, guards, pending⟩ ⟨g', guards, pending⟩ := by
  rw [send_eq] at h
  obtain ⟨locked, g₁, hlock, h⟩ := section_bind_ok h
  have hlocked : Leads ⟨g, guards, pending⟩ _ := leads_lock (by simp) hlock
  cases locked with
  | error err =>
    cases h
    exact hlocked
  | ok guard =>
    obtain ⟨⟨sendDone, answer⟩, g₂, htransmit, h⟩ := section_bind_ok h
    obtain ⟨_, g₃, hunlock, h⟩ := section_bind_ok h
    cases h
    exact hlocked.trans ((leads_transmit htransmit).trans (leads_unlock hunlock))

end Guards

section Receiving

variable {lib : Library Config} {fromSlice : Group.FromSlice} {senv : Serving.Env Config}
variable {info : RecvInfo} {unparker : Option Unparker} {out : Bytes}
variable {answer : Except Error (ℕ × SendInfo)}

theorem ofExcept_ok {x : Rust α} {a : α} (h : (ofExcept x : Section α) g = .ok a g') :
    x = .ok a ∧ g' = g := by
  cases x with
  | error panic => cases h
  | ok a =>
    cases h
    exact ⟨rfl, rfl⟩

theorem slice_ok {buf packet : Bytes} {n : ℕ}
    (h : (ofExcept (slice buf 0 n) : Section Bytes) g = .ok packet g') :
    packet = buf.take n ∧ g' = g := by
  obtain ⟨hslice, hg⟩ := ofExcept_ok h
  refine ⟨?_, hg⟩
  unfold slice at hslice
  split at hslice
  · cases hslice
    rfl
  · cases hslice

/-- A packet for no connection is taken for the first one of a connection. -/
def missed (w : World) (dcid : ConnectionId) : Except Error α → World
  | .error .notFound => w.spawn (.handshake dcid)
  | _ => w

theorem lookupScid_error {scid : ConnectionId} {err : Error}
    (h : Group.lookupScid scid g = .ok (.error err) g') : err = .notFound := by
  unfold Group.lookupScid at h
  split at h <;> cases h
  rfl

theorem leads_find {scid : ConnectionId} {buf : Bytes} {r : Except Error (Token × ℕ)}
    (h : Group.recvWithConnectionId scid buf info unparker env g = .ok r g') :
    Leads ⟨g, guards, pending⟩ (missed ⟨g', guards, pending⟩ scid r) := by
  obtain ⟨found, g₁, hlookup, h⟩ := section_bind_ok h
  cases found with
  | error err =>
    cases h
    obtain rfl := lookupScid_error hlookup
    apply leads_step (a := .lookupScid scid) (by simp) trivial
    simp only [World.next, World.run, hlookup, missed]
  | ok token =>
    have hfound : Leads ⟨g, guards, pending⟩ ⟨g₁, guards, .lockRecv scid token :: pending⟩ := by
      apply leads_step (a := .lookupScid scid) (by simp) trivial
      simp only [World.next, World.run, hlookup, World.spawn]
    obtain ⟨locked, g₂, hlock, h⟩ := section_bind_ok h
    cases locked with
    | error err =>
      cases h
      apply hfound.trans
      apply leads_resume unparker none env
      simp only [World.resume, World.run, hlock]
      cases err <;> rfl
    | ok guard =>
      obtain ⟨received, g₃, hcall, h⟩ := section_bind_ok h
      obtain ⟨_, g₄, hunlock, h⟩ := section_bind_ok h
      have hlocked : Leads ⟨g₁, guards, .lockRecv scid token :: pending⟩
          ⟨g₂, guard :: guards, pending⟩ := by
        apply leads_resume unparker none env
        simp only [World.resume, World.run, hlock, World.hold]
      have hdone := hfound.trans (hlocked.trans ((leads_derefMut hcall).trans (leads_unlock hunlock)))
      cases received with
      | error err =>
        cases h
        exact hdone
      | ok recvSize =>
        cases h
        exact hdone

theorem leads_drop (env : UnlockEnv) (dcid : ConnectionId) :
    Leads ⟨g, guards, .handshake dcid :: pending⟩ ⟨g, guards, pending⟩ :=
  leads_resume none none env rfl

theorem leads_recvWithConnectionId {scid : ConnectionId} {buf : Bytes}
    {r : Except Error (Token × ℕ)}
    (h : Group.recvWithConnectionId scid buf info unparker env g = .ok r g') :
    Leads ⟨g, guards, pending⟩ ⟨g', guards, pending⟩ := by
  have hfind : Leads ⟨g, guards, pending⟩ _ := leads_find h
  rcases r with err | r
  · cases err with
    | notFound => exact hfind.trans (leads_drop env scid)
    | _ => exact hfind
  · exact hfind

theorem leads_respond {buf : Bytes}
    (h : Serving.respond token buf info senv g = .ok (answer, out) g') :
    Leads ⟨g, guards, pending⟩ ⟨g', guards, pending⟩ := by
  obtain ⟨sent, g₁, hsend, h⟩ := section_bind_ok h
  have hsent : Leads ⟨g, guards, pending⟩ ⟨g₁, guards, pending⟩ := leads_send hsend
  rcases sent with err | sent
  · cases err <;> cases h <;> exact hsent
  · cases h
    exact hsent

theorem leads_greet {header : Header} {buf : Bytes} {recvSize : ℕ}
    (h : Serving.greet lib header buf recvSize info senv g = .ok (answer, out) g') :
    Leads ⟨g, guards, .handshake header.dcid :: pending⟩ ⟨g', guards, pending⟩ := by
  obtain ⟨⟨r, buf⟩, g₁, hcalled, h⟩ := section_bind_ok h
  obtain ⟨-, rfl⟩ := ofExcept_ok hcalled
  rcases r with err | sendSize | conn
  · cases h
    exact leads_drop senv.registered header.dcid
  · cases h
    exact leads_drop senv.registered header.dcid
  · obtain ⟨registered, g₂, hregister, h⟩ := section_bind_ok h
    have hregistered : Leads ⟨g₁, guards, .handshake header.dcid :: pending⟩
        ⟨g₂, guards, pending⟩ := by
      apply leads_resume none (some conn) senv.registered
      simp only [World.resume, World.run, hregister]
    cases registered with
    | error err =>
      cases h
      exact hregistered
    | ok token =>
      obtain ⟨packet, g₃, hsliced, hrest⟩ := section_bind_ok h
      obtain ⟨-, rfl⟩ := slice_ok hsliced
      obtain ⟨received, g₄, hrecv, h⟩ := section_bind_ok hrest
      have hreceived := hregistered.trans (leads_recvWithConnectionId hrecv)
      rcases received with err | received
      · cases err <;> cases h <;> exact hreceived
      · exact hreceived.trans (leads_respond h)

theorem leads_recvWithAcceptor {buf : Bytes} {recvSize : ℕ}
    (h : Serving.recvWithAcceptor lib fromSlice buf recvSize info unparker senv g =
      .ok (answer, out) g') : Leads ⟨g, guards, pending⟩ ⟨g', guards, pending⟩ := by
  obtain ⟨packet, g₁, hsliced, hrest⟩ := section_bind_ok h
  obtain ⟨rfl, rfl⟩ := slice_ok hsliced
  cases hheader : fromSlice (buf.take recvSize) with
  | error err =>
    rw [hheader] at hrest
    cases hrest
    exact Run.refl _
  | ok header =>
    rw [hheader] at hrest
    obtain ⟨received, g₂, hrecv, h⟩ := section_bind_ok hrest
    have hfind : Leads ⟨g₁, guards, pending⟩ _ := leads_find hrecv
    rcases received with err | ⟨token, n⟩
    · cases err with
      | notFound => exact hfind.trans (leads_greet h)
      | _ =>
        cases h
        exact hfind
    · exact hfind.trans (leads_respond h)

end Receiving

section Operations

def attempt : Op → Section Unit
  | .register conn env => do let _ ← Group.register conn env
  | .deregister token => do let _ ← Group.deregister token
  | .close token app err reason env => do let _ ← Group.close token app err reason env
  | .streamOpen token kind nonBlocking env => do let _ ← Group.streamOpen token kind nonBlocking env
  | .streamShutdown token streamId err env => do let _ ← Group.streamShutdown token streamId err env
  | .streamSend token streamId buf fin env => do let _ ← Group.streamSend token streamId buf fin env
  | .streamRecv token streamId len env => do let _ ← Group.streamRecv token streamId len env
  | .send token len now env => do let _ ← Group.send token len now env
  | .recv fromSlice buf info env => do let _ ← Group.recv fromSlice buf info env
  | .poll env => do let _ ← Group.poll [] env

theorem attempt_ok {x : Section α} (h : (do let _ ← x; return () : Section Unit) g = .ok () g') :
    ∃ a, x g = .ok a g' := by
  obtain ⟨a, g₁, hx, h⟩ := section_bind_ok h
  cases h
  exact ⟨a, hx⟩

theorem leads_streamSend {streamId : ℕ} {buf : Bytes} {fin : Bool} {r : Except Error ℕ}
    (h : Group.streamSend token streamId buf fin env g = .ok r g') :
    Leads ⟨g, guards, pending⟩ ⟨g', guards, pending⟩ := by
  obtain ⟨locked, g₁, hlock, h⟩ := section_bind_ok h
  have hlocked : Leads ⟨g, guards, pending⟩ _ := leads_lock (by simp) hlock
  cases locked with
  | error err =>
    cases h
    exact hlocked
  | ok guard =>
    obtain ⟨sent, g₂, hcall, h⟩ := section_bind_ok h
    obtain ⟨_, g₃, hunlock, h⟩ := section_bind_ok h
    have hsent := hlocked.trans ((leads_derefMut hcall).trans (leads_unlock hunlock))
    split at h <;> cases h <;> exact hsent

theorem leads_streamRecv {streamId len : ℕ} {r : Except Error (ℕ × Bool)}
    (h : Group.streamRecv token streamId len env g = .ok r g') :
    Leads ⟨g, guards, pending⟩ ⟨g', guards, pending⟩ := by
  obtain ⟨locked, g₁, hlock, h⟩ := section_bind_ok h
  have hlocked : Leads ⟨g, guards, pending⟩ _ := leads_lock (by simp) hlock
  cases locked with
  | error err =>
    cases h
    exact hlocked
  | ok guard =>
    obtain ⟨received, g₂, hcall, h⟩ := section_bind_ok h
    obtain ⟨conn, g₃, hderef, h⟩ := section_bind_ok h
    rw [deref_ok hderef] at h
    obtain ⟨_, g₄, hunlock, h⟩ := section_bind_ok h
    have hreceived := hlocked.trans ((leads_derefMut hcall).trans (leads_unlock hunlock))
    split at h <;> cases h <;> exact hreceived

/-- A call that returns is a run of critical sections, after which the thread holds no more than
before and nothing is half done. -/
theorem leads_attempt {op : Op} (hpoll : ∀ env, op ≠ .poll env) (h : attempt op g = .ok () g') :
    Leads ⟨g, guards, pending⟩ ⟨g', guards, pending⟩ := by
  cases op with
  | register conn env =>
    obtain ⟨r, h⟩ := attempt_ok h
    apply leads_step (a := .connect conn env) (by simp) trivial
    simp only [World.next, World.run, h]
  | deregister token =>
    obtain ⟨taken, h⟩ := attempt_ok h
    exact leads_deregister .still h
  | close token app err reason env =>
    obtain ⟨r, h⟩ := attempt_ok h
    apply leads_step (a := .close token app err reason env) (by simp) trivial
    simp only [World.next, World.run, h]
  | streamOpen token kind nonBlocking env =>
    obtain ⟨r, h⟩ := attempt_ok h
    apply leads_step (a := .streamOpen token kind nonBlocking env) (by simp) trivial
    simp only [World.next, World.run, h]
  | streamShutdown token streamId err env =>
    obtain ⟨r, h⟩ := attempt_ok h
    apply leads_step (a := .streamShutdown token streamId err env) (by simp) trivial
    simp only [World.next, World.run, h]
  | streamSend token streamId buf fin env =>
    obtain ⟨r, h⟩ := attempt_ok h
    exact leads_streamSend h
  | streamRecv token streamId len env =>
    obtain ⟨r, h⟩ := attempt_ok h
    exact leads_streamRecv h
  | send token len now env =>
    obtain ⟨r, h⟩ := attempt_ok h
    exact leads_send h
  | recv fromSlice buf info env =>
    obtain ⟨r, h⟩ := attempt_ok h
    simp only [Group.recv] at h
    cases hheader : fromSlice buf with
    | error err =>
      rw [hheader] at h
      cases h
      exact Run.refl _
    | ok header =>
      rw [hheader] at h
      obtain ⟨received, g₁, hrecv, h⟩ := section_bind_ok h
      cases h
      exact leads_recvWithConnectionId hrecv
  | poll env => exact absurd rfl (hpoll env)

end Operations

end ZeroRtt.Poll.Sequential
