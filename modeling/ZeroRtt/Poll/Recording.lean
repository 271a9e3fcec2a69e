import ZeroRtt.Poll.Chronicle
import ZeroRtt.Poll.ClosedOnce
import ZeroRtt.Poll.Serving

namespace ZeroRtt.Poll.Recording

open ZeroRtt.Lib.Panics ZeroRtt.Lib.Containers
open ZeroRtt.Api.Types ZeroRtt.Api.Quiche ZeroRtt.Api.Handshakes
open ZeroRtt.Poll.Schedule ZeroRtt.Poll.Conn ZeroRtt.Poll.Evolution ZeroRtt.Poll.Sections
open ZeroRtt.Poll.Walks ZeroRtt.Poll.Operations ZeroRtt.Poll.Routing ZeroRtt.Poll.Chronicle
open ZeroRtt.Poll.ClosedOnce ZeroRtt.Poll.Serving

section Readiness

variable {r : Readiness} {e : Event}

theorem mem_applyObs_iff {o : Obs} (ho : SendsOnly o) (he : e.kind ≠ .send) :
    e ∈ (applyObs r o).events ↔ e ∈ r.events ∨ e ∈ insertedBy [o] := by
  cases o with
  | readable id => simp [applyObs, insertedBy]
  | remove f =>
    have hne : e ≠ f := by
      rintro rfl
      exact he ho
    simp [applyObs, insertedBy, hne]
  | insert f delayTo =>
    cases delayTo with
    | none => simp [applyObs, insertedBy, or_comm]
    | some d =>
      have hne : e ≠ f := by
        rintro rfl
        exact he (ho (by simp))
      simp [applyObs, insertedBy, hne]

theorem mem_foldl_iff {obs : List Obs} (hobs : ∀ o ∈ obs, SendsOnly o) (he : e.kind ≠ .send) :
    e ∈ (obs.foldl applyObs r).events ↔ e ∈ r.events ∨ e ∈ insertedBy obs := by
  induction obs generalizing r with
  | nil => simp [insertedBy]
  | cons o obs ih =>
    rw [List.foldl_cons, ih fun o' ho' ↦ hobs o' (List.mem_cons_of_mem _ ho'),
      mem_applyObs_iff (hobs o (List.mem_cons_self ..)) he,
      show o :: obs = [o] ++ obs from rfl, insertedBy_append, List.mem_append, or_assoc]

end Readiness

section Groups

variable {α Config : Type} {g g' : Group}

theorem records_deregister (token : Token) (g : Group) :
    Records g (leftBy (Group.deregister token g)) := by
  refine carries_records.bind (records_takeConn token) (fun r g ↦ ?_) g
  cases r with
  | error err => exact carries_records.refl g
  | ok q =>
    refine carries_records.bind (records_takeScid token q) (fun _ g ↦ ?_) g
    exact carries_records.refl g

theorem operates_records : Operates Tells Records where
  carries := carries_records
  tryLock := tells_tryLock
  call _ _ := tells_of_eq rfl rfl
  unlocks := tells_unlock
  deregister := records_deregister

theorem records_perform {op : Op} (hop : ∀ env, op ≠ .poll env) (g : Group) :
    Records g (perform g op) := by
  by_cases hregister : ∃ conn env, op = .register conn env
  · obtain ⟨conn, env, rfl⟩ := hregister
    exact records_register conn env g
  · push Not at hregister
    exact operates_records.perform elementary_tells hregister hop

theorem records_ofExcept (r : Rust α) (g : Group) :
    Records g (leftBy ((ofExcept r : Section α) g)) := by
  cases r <;> exact carries_records.refl g

theorem records_respond (token : Token) (buf : Bytes) (info : RecvInfo) (env : Env Config)
    (g : Group) : Records g (leftBy (respond token buf info env g)) := by
  refine carries_records.bind (operates_records.send token _ _ _) (fun r g ↦ ?_) g
  rcases r with err | r
  · cases err <;> exact carries_records.refl g
  · exact carries_records.refl g

theorem records_greet (lib : Library Config) (header : Header) (buf : Bytes) (recvSize : ℕ)
    (info : RecvInfo) (env : Env Config) (g : Group) :
    Records g (leftBy (greet lib header buf recvSize info env g)) := by
  refine carries_records.bind (records_ofExcept _) (fun r g ↦ ?_) g
  obtain ⟨r, out⟩ := r
  rcases r with err | size | conn
  · exact carries_records.refl g
  · exact carries_records.refl g
  · refine carries_records.bind (records_register conn env.registered) (fun r g ↦ ?_) g
    cases r with
    | error err => exact carries_records.refl g
    | ok token =>
      refine carries_records.bind (records_ofExcept _) (fun packet g ↦ ?_) g
      refine carries_records.bind
        (operates_records.recvWithConnectionId header.dcid packet info none env.first)
        (fun r g ↦ ?_) g
      rcases r with err | r
      · cases err <;> exact carries_records.refl g
      · exact records_respond token out info env g

theorem records_recvWithAcceptor (lib : Library Config) (fromSlice : Group.FromSlice) (buf : Bytes)
    (recvSize : ℕ) (info : RecvInfo) (unparker : Option Unparker) (env : Env Config) (g : Group) :
    Records g (leftBy (recvWithAcceptor lib fromSlice buf recvSize info unparker env g)) := by
  refine carries_records.bind (records_ofExcept _) (fun packet g ↦ ?_) g
  cases fromSlice packet with
  | error err => exact carries_records.refl g
  | ok header =>
    refine carries_records.bind
      (operates_records.recvWithConnectionId header.dcid packet info unparker env.received)
      (fun r g ↦ ?_) g
    rcases r with err | ⟨token, size⟩
    · cases err with
      | notFound => exact records_greet lib header buf recvSize info env g
      | _ => exact carries_records.refl g
    · exact records_respond token buf info env g

theorem delays_of_records (h : Records g g') (hdelays : DelaysSends g.state.readiness) :
    DelaysSends g'.state.readiness := by
  obtain ⟨news, -, -, hreadiness, hnews⟩ := h
  rw [hreadiness]
  apply hdelays.foldl_applyObs
  intro e d hmem
  exact hnews _ hmem (by simp)

end Groups

section Polling

variable {g g' : Group} {events out : List Event} {env : PollEnv} {deadline : Option Instant}

structure Emptied (g : Group) (out : List Event) (g' : Group) : Prop where
  history : g'.state.history = g.state.history ++ out.map .delivered
  empty : g'.state.readiness.events = .empty
  delays : DelaysSends g'.state.readiness
  count : ∀ e, e.kind ≠ .send → out.count e = if e ∈ g.state.readiness.events then 1 else 0

theorem eq_nil_of_poll {r : List Event × Option Instant}
    (h : Group.poll events env g = .ok r g') : events = [] := by
  by_contra hne
  have hpanic : g.state.readiness.poll events defaultReleaseTimerThreshold env =
      .error .assertion := by
    unfold Readiness.poll
    rw [assert, if_neg hne]
    rfl
  unfold Group.poll at h
  rw [hpanic] at h
  cases h

theorem history_of_poll (h : Group.poll events env g = .ok (out, deadline) g') :
    g'.state.history = g.state.history ++ out.map .delivered := by
  unfold Group.poll at h
  split at h <;> cases h
  rfl

theorem emptied_of_poll (hdelays : DelaysSends g.state.readiness)
    (h : Group.poll [] env g = .ok (out, deadline) g') : Emptied g out g' := by
  unfold Group.poll at h
  split at h
  · cases h
  next out' deadline' readiness hpoll =>
    cases h
    obtain ⟨more, rfl, hmore, hempty, hrest⟩ := Readiness.poll_spec hpoll hdelays
    refine ⟨rfl, hempty, hrest, fun e he ↦ ?_⟩
    have hnone : more.count e = 0 := List.count_eq_zero.mpr fun hmem ↦ he (hmore e hmem)
    rw [List.count_append, hnone, Nat.add_zero]
    split
    next hmem =>
      exact List.count_eq_one_of_mem (HashSet.order_nodup env.order _)
        ((HashSet.mem_order env.order).mpr hmem)
    next hmem =>
      exact List.count_eq_zero.mpr fun hin ↦ hmem ((HashSet.mem_order env.order).mp hin)

theorem poll_returns (env : PollEnv) (g : Group) :
    ∃ out deadline g', Group.poll [] env g = .ok (out, deadline) g' := by
  obtain ⟨more, deadline, rest, heq, -⟩ :=
    Readiness.poll_eq g.state.readiness defaultReleaseTimerThreshold env
  unfold Group.poll
  rw [heq]
  exact ⟨_, _, _, rfl⟩

/-- Every `poll` of the group hands the event out once. -/
def Redelivered (g : Group) (e : Event) : Prop :=
  ∀ env out deadline g', Group.poll [] env g = .ok (out, deadline) g' → out.count e = 1

theorem redelivered_iff (hdelays : DelaysSends g.state.readiness) {e : Event}
    (he : e.kind ≠ .send) : Redelivered g e ↔ e ∈ g.state.readiness.events := by
  constructor
  · intro h
    obtain ⟨out, deadline, g', hpoll⟩ := poll_returns ⟨0, HashSet.listed, Peek.first⟩ g
    have hone := h _ out deadline g' hpoll
    rw [(emptied_of_poll hdelays hpoll).count e he] at hone
    by_contra hmem
    rw [if_neg hmem] at hone
    cases hone
  · intro hmem env out deadline g' hpoll
    rw [(emptied_of_poll hdelays hpoll).count e he, if_pos hmem]

end Polling

end ZeroRtt.Poll.Recording
