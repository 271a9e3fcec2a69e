import ZeroRtt.Poll.Operations

namespace ZeroRtt.Poll.ClosedOnce

open ZeroRtt.Lib.Panics ZeroRtt.Lib.Containers ZeroRtt.Lib.Runs
open ZeroRtt.Api.Types ZeroRtt.Api.Quiche ZeroRtt.Poll.Schedule ZeroRtt.Poll.Conn
open ZeroRtt.Poll.Evolution ZeroRtt.Poll.Sections ZeroRtt.Poll.Operations

variable {g g' : Group} {t : Token} {r : Readiness} {trace : List Obs} {history : List Happening}

def reports (t : Token) : Happening → Bool
  | .observed obs => closes t obs
  | _ => false

def delivers (t : Token) : Happening → Bool
  | .delivered e => closedOf t e
  | _ => false

def deliveries (t : Token) (history : List Happening) : ℕ := history.countP (delivers t)

/-- Whether `Closed` is reported for the token, after one more happening. A
registration gives the token to another connection. -/
def reportedAfter (t : Token) (reported : Bool) (h : Happening) : Bool :=
  if h = .registered t then false else reported || reports t h

def reportedClosed (t : Token) (history : List Happening) : Bool :=
  history.foldl (reportedAfter t) false

section Histories

variable (t : Token) (history more : List Happening) (trace : List Obs) (out : List Event)

@[simp] theorem deliveries_append :
    deliveries t (history ++ more) = deliveries t history + deliveries t more :=
  List.countP_append

@[simp] theorem deliveries_observed : deliveries t (trace.map .observed) = 0 := by
  simp [deliveries, List.countP_eq_zero, delivers]

@[simp] theorem deliveries_delivered :
    deliveries t (out.map .delivered) = out.countP (closedOf t) := by
  rw [deliveries, List.countP_map]
  rfl

variable {t history more trace}

theorem reportedClosed_registered : reportedClosed t (history ++ [.registered t]) = false := by
  simp [reportedClosed, reportedAfter]

theorem reportedClosed_append (h : reportedClosed t history = false)
    (hmore : ∀ x ∈ more, reports t x = false) : reportedClosed t (history ++ more) = false := by
  induction more generalizing history with
  | nil => simpa using h
  | cons x more ih =>
    have hx : reportedClosed t (history ++ [x]) = reportedAfter t (reportedClosed t history) x := by
      simp only [reportedClosed, List.foldl_append, List.foldl_cons, List.foldl_nil]
    have hstep : reportedClosed t (history ++ [x]) = false := by
      rw [hx, h, reportedAfter, hmore x (List.mem_cons_self ..)]
      split <;> rfl
    rw [List.append_cons]
    exact ih hstep fun y hy ↦ hmore y (List.mem_cons_of_mem _ hy)

theorem reports_observed (h : trace.countP (closes t) = 0) :
    ∀ x ∈ trace.map Happening.observed, reports t x = false := by
  intro x hx
  obtain ⟨o, ho, rfl⟩ := List.mem_map.mp hx
  simpa [reports] using List.countP_eq_zero.mp h o ho

end Histories

section Pending

def pendingClosed (t : Token) (r : Readiness) : ℕ := r.events.toList.countP (closedOf t)

theorem pendingClosed_applyObs (t : Token) (r : Readiness) (o : Obs) :
    pendingClosed t (applyObs r o) ≤ pendingClosed t r + if closes t o then 1 else 0 := by
  cases o with
  | readable id => exact Nat.le_add_right ..
  | remove e => exact Nat.le_add_right_of_le ((List.erase_sublist (a := e)).countP_le)
  | insert e d =>
    cases d with
    | some d => exact Nat.le_add_right_of_le ((List.erase_sublist (a := e)).countP_le)
    | none =>
      have hle : (r.events.toList.insert e).countP (closedOf t) ≤
          (e :: r.events.toList).countP (closedOf t) := by
        by_cases he : e ∈ r.events.toList
        · rw [List.insert_of_mem he]
          exact (List.sublist_cons_self ..).countP_le
        · rw [List.insert_of_not_mem he]
      rwa [List.countP_cons] at hle

theorem pendingClosed_trace (t : Token) (r : Readiness) (trace : List Obs) :
    pendingClosed t (trace.foldl applyObs r) ≤ pendingClosed t r + trace.countP (closes t) := by
  induction trace generalizing r with
  | nil => exact le_rfl
  | cons o trace ih =>
    have hstep := pendingClosed_applyObs t r o
    have hrest := ih (applyObs r o)
    rw [List.foldl_cons, List.countP_cons]
    omega

/-- Nothing but `Send` is ever put off. -/
def DelaysSends (r : Readiness) : Prop := ∀ e d, r.delayed.lookup e = some d → e.kind = .send

theorem DelaysSends.erase (h : DelaysSends r) (e : Event) (events : HashSet Event) :
    DelaysSends ⟨r.delayed.erase e, events⟩ := by
  intro f d hd
  by_cases hf : f = e
  · subst hf
    rw [AList.lookup_erase] at hd
    cases hd
  · exact h f d (AList.lookup_erase_ne hf ▸ hd)

theorem DelaysSends.applyObs (h : DelaysSends r) {o : Obs}
    (ho : ∀ e d, o = .insert e (some d) → e.kind = .send) : DelaysSends (applyObs r o) := by
  cases o with
  | readable id => exact h
  | remove e => exact h.erase e _
  | insert e d =>
    cases d with
    | none => exact h.erase e _
    | some d =>
      intro f d' hd
      by_cases hf : f = e
      · subst hf
        exact ho f d rfl
      · exact h f d' (AList.lookup_insert_ne hf ▸ hd)

theorem DelaysSends.foldl_applyObs (h : DelaysSends r)
    (htrace : ∀ e d, .insert e (some d) ∈ trace → e.kind = .send) :
    DelaysSends (trace.foldl Evolution.applyObs r) := by
  induction trace generalizing r with
  | nil => exact h
  | cons o trace ih =>
    refine ih (h.applyObs ?_) ?_
    · rintro e d rfl
      exact htrace e d (List.mem_cons_self ..)
    · exact fun e d hmem ↦ htrace e d (List.mem_cons_of_mem _ hmem)

end Pending

section Accounts

def members (g : Group) (t : Token) : ℕ := if (g.state.conns.lookup t).isSome then 1 else 0

theorem members_congr (h : g'.state.conns.lookup t = g.state.conns.lookup t) :
    members g' t = members g t := by
  rw [members, members, h]

theorem members_of_none (h : g.state.conns.lookup t = none) : members g t = 0 := by
  simp [members, h]

theorem members_of_some {c : QuicConn} (h : g.state.conns.lookup t = some c) :
    members g t = 1 := by
  simp [members, h]

structure Accounted (g : Group) : Prop where
  idles : Idles g
  delays : DelaysSends g.state.readiness
  silent : ∀ t c, g.state.conns.lookup t = some c → reportedClosed t g.state.history = false
  bounded : ∀ t, deliveries t g.state.history + pendingClosed t g.state.readiness + members g t ≤
    (registrations g.state.history).count t

theorem accounted_new : Accounted .new where
  idles _ _ hc := by cases hc
  delays _ _ hd := by cases hd
  silent _ _ hc := by cases hc
  bounded _ := le_rfl

theorem Accounted.effect_silent (h : Accounted g) (he : Effect g g') {c : QuicConn}
    (hc : g'.state.conns.lookup t = some c) : reportedClosed t g'.state.history = false := by
  cases he with
  | none hconns _ hhistory =>
    rw [hhistory]
    exact h.silent t c (hconns t ▸ hc)
  | turn token d calls s closed hd hturn hends =>
    have hreports := hturn.reports t
    rw [hends.history]
    by_cases ht : t = token
    · subst ht
      cases closed with
      | true =>
        rw [hends.here] at hc
        cases hc
      | false => exact reportedClosed_append (h.silent t d hd) (reports_observed (by simpa using hreports))
    · exact reportedClosed_append (h.silent t c (hends.others t ht ▸ hc))
        (reports_observed (by simpa [ht] using hreports))
  | arrive token q s hfree hturn hhere hothers _ hhistory =>
    have hreports : s.trace.countP (closes t) = 0 := by simpa using hturn.reports t
    rw [hhistory, List.append_cons]
    by_cases ht : t = token
    · subst ht
      exact reportedClosed_append reportedClosed_registered (reports_observed hreports)
    · have hother := h.silent t c (hothers t ht ▸ hc)
      refine reportedClosed_append (reportedClosed_append hother ?_) (reports_observed hreports)
      intro x hx
      rw [List.mem_singleton.mp hx]
      rfl
  | leave token hhere hothers _ hhistory =>
    rw [hhistory]
    by_cases ht : t = token
    · subst ht
      rw [hhere] at hc
      cases hc
    · exact h.silent t c (hothers t ht ▸ hc)
  | poll env out deadline hconns _ hhistory =>
    rw [hhistory]
    apply reportedClosed_append (h.silent t c (hconns t ▸ hc))
    intro x hx
    obtain ⟨e, -, rfl⟩ := List.mem_map.mp hx
    rfl

theorem countP_closedOf_eq_zero {out : List Event} (h : ∀ e ∈ out, e.kind = .send) :
    out.countP (closedOf t) = 0 := by
  apply List.countP_eq_zero.mpr
  intro e he hclosed
  simp [closedOf, h e he] at hclosed

theorem pendingClosed_turn {token : Token} {c : QuicConn} {calls : List Call} {s : Ctx}
    {closed : Bool} (h : Turn r token c calls s closed) (t : Token) :
    pendingClosed t s.readiness ≤
      pendingClosed t r + if t = token ∧ closed = true then 1 else 0 := by
  rw [← h.reports t, h.readiness]
  exact pendingClosed_trace t r s.trace

theorem members_turn {token : Token} {c : QuicConn} {s : Ctx} {closed : Bool}
    (hc : g.state.conns.lookup token = some c) (h : Ends g g' token s closed) (t : Token) :
    members g' t + (if t = token ∧ closed = true then 1 else 0) = members g t := by
  by_cases ht : t = token
  · subst ht
    cases closed with
    | true => simp [members_of_some hc, members_of_none h.here]
    | false => simp [members_of_some hc, members_of_some h.here]
  · simp [members_congr (h.others t ht), ht]

theorem Accounted.pendingClosed_poll (h : Accounted g) {env : PollEnv} {out : List Event}
    {deadline : Option Instant}
    (hpoll : g.state.readiness.poll [] defaultReleaseTimerThreshold env =
      .ok (out, deadline, g'.state.readiness)) (t : Token) :
    out.countP (closedOf t) + pendingClosed t g'.state.readiness =
      pendingClosed t g.state.readiness := by
  obtain ⟨more, rfl, hmore, hempty, -⟩ := Readiness.poll_spec hpoll h.delays
  have hdrained : pendingClosed t g'.state.readiness = 0 := by
    rw [pendingClosed, hempty]
    rfl
  have hordered : (env.order g.state.readiness.events).1.countP (closedOf t) =
      pendingClosed t g.state.readiness := (env.order _).2.countP_eq _
  rw [List.countP_append, countP_closedOf_eq_zero hmore, hordered, hdrained, Nat.add_zero]

theorem Accounted.effect_bounded (h : Accounted g) (he : Effect g g') (t : Token) :
    deliveries t g'.state.history + pendingClosed t g'.state.readiness + members g' t ≤
      (registrations g'.state.history).count t := by
  have hbounded := h.bounded t
  cases he with
  | none hconns hreadiness hhistory =>
    rw [hhistory, hreadiness, members_congr (hconns t)]
    exact hbounded
  | turn token d calls s closed hd hturn hends =>
    have hpending := pendingClosed_turn hturn t
    have hmembers := members_turn hd hends t
    rw [hends.history, hends.readiness]
    simp only [deliveries_append, deliveries_observed, registrations_append, registrations_observed,
      List.append_nil]
    omega
  | arrive token q s hfree hturn hhere hothers hreadiness hhistory =>
    have hpending := pendingClosed_turn hturn t
    have hzero : deliveries t [.registered token] = 0 := rfl
    rw [hhistory, hreadiness, List.append_cons]
    simp only [Bool.false_eq_true, and_false, if_false] at hpending
    simp only [deliveries_append, deliveries_observed, registrations_append, registrations_observed,
      List.append_nil, List.count_append, hzero]
    by_cases ht : t = token
    · subst ht
      have hone : (registrations [.registered t]).count t = 1 := List.count_singleton_self
      rw [members_of_none hfree] at hbounded
      rw [members_of_some hhere, hone]
      omega
    · rw [members_congr (hothers t ht)]
      omega
  | leave token hhere hothers hreadiness hhistory =>
    rw [hhistory, hreadiness]
    by_cases ht : t = token
    · subst ht
      rw [members_of_none hhere]
      omega
    · rw [members_congr (hothers t ht)]
      exact hbounded
  | poll env out deadline hconns hpoll hhistory =>
    have hpending := h.pendingClosed_poll hpoll t
    rw [hhistory, members_congr (hconns t)]
    simp only [deliveries_append, deliveries_delivered, registrations_append,
      registrations_delivered, List.append_nil]
    omega

theorem Accounted.effect (h : Accounted g) (he : Effect g g') : Accounted g' where
  idles := idles_effect h.idles he
  silent _ _ hc := h.effect_silent he hc
  bounded := h.effect_bounded he
  delays := by
    have hdelays := h.delays
    cases he with
    | none _ hreadiness => rwa [hreadiness]
    | turn token d calls s closed hd hturn hends =>
      rw [hends.readiness, hturn.readiness]
      exact hdelays.foldl_applyObs hturn.delays
    | arrive token q s hfree hturn hhere hothers hreadiness =>
      rw [hreadiness, hturn.readiness]
      exact hdelays.foldl_applyObs hturn.delays
    | leave token hhere hothers hreadiness => rwa [hreadiness]
    | poll env out deadline hconns hpoll =>
      obtain ⟨-, -, -, -, hrest⟩ := Readiness.poll_spec hpoll hdelays
      exact hrest

theorem effect_reports (he : Effect g g') :
    ∃ new, g'.state.history = g.state.history ++ new ∧
      ∀ t x, x ∈ new → reports t x = true → g'.state.conns.lookup t = none := by
  have hcount : ∀ {trace : List Obs} {t : Token} {x : Happening},
      x ∈ trace.map Happening.observed → reports t x = true → trace.countP (closes t) ≠ 0 := by
    intro trace t x hx hreport hzero
    rw [reports_observed hzero x hx] at hreport
    cases hreport
  cases he with
  | none _ _ hhistory => exact ⟨[], by rw [hhistory, List.append_nil], fun _ _ hx ↦ by cases hx⟩
  | turn token d calls s closed hd hturn hends =>
    refine ⟨_, hends.history, fun t x hx hreport ↦ ?_⟩
    have hone := hcount hx hreport
    rw [hturn.reports t] at hone
    obtain ⟨rfl, rfl⟩ : t = token ∧ closed = true := by
      by_contra hnot
      exact hone (if_neg hnot)
    exact hends.here
  | arrive token q s hfree hturn hhere hothers hreadiness hhistory =>
    refine ⟨_, hhistory, fun t x hx hreport ↦ ?_⟩
    rcases List.mem_cons.mp hx with rfl | hx
    · cases hreport
    · exact absurd (by simpa using hturn.reports t) (hcount hx hreport)
  | leave token _ _ _ hhistory => exact ⟨[], by rw [hhistory, List.append_nil], fun _ _ hx ↦ by cases hx⟩
  | poll env out deadline _ _ hhistory =>
    refine ⟨_, hhistory, fun t x hx hreport ↦ ?_⟩
    obtain ⟨e, -, rfl⟩ := List.mem_map.mp hx
    cases hreport

end Accounts

section Runs

def step (g : Group) (op : Op) : Rust Group := .ok (perform g op)

theorem accounted_run (h : Run step LeavesOpen .new g) : Accounted g := by
  apply h.invariant accounted_new
  intro a b op ha hop hstep
  cases hstep
  exact ha.effect (perform_effect ha.idles hop)

/-- As long as none of the operations that ignore the result of their unlock
leaves its connection closed, `Closed` is reported by the operation that takes
the connection out, it is delivered at most once for every registration, and it
is not reported for any connection of the group. -/
theorem closed_once (h : Run step LeavesOpen .new g) :
    (∀ op, LeavesOpen g op → ∃ new, (perform g op).state.history = g.state.history ++ new ∧
      ∀ t x, x ∈ new → reports t x = true → (perform g op).state.conns.lookup t = none) ∧
    (∀ t, deliveries t g.state.history ≤ (registrations g.state.history).count t) ∧
    ∀ t ∈ g.state.conns.keys, reportedClosed t g.state.history = false := by
  have hg := accounted_run h
  refine ⟨?_, ?_, ?_⟩
  · intro op hop
    exact effect_reports (perform_effect hg.idles hop)
  · intro t
    have hbounded := hg.bounded t
    omega
  · intro t ht
    obtain ⟨c, hc⟩ := Option.isSome_iff_exists.mp (AList.lookup_isSome.mpr ht)
    exact hg.silent t c hc

def expiring : Connection := Script.connection ⟨false, [1], [], [.onTimeout], none⟩

theorem closed_once_example :
    ∃ g, Run step LeavesOpen .new g ∧ deliveries ⟨0⟩ g.state.history = 1 ∧
      (registrations g.state.history).count ⟨0⟩ = 1 ∧
      deliveries ⟨0⟩ g.state.history ≤ (registrations g.state.history).count ⟨0⟩ := by
  have hregister : Run step LeavesOpen .new (perform .new (.register expiring .still)) :=
    .one (i := .register expiring .still) (fun _ ↦ rfl) rfl
  have hsend := hregister.tail (i := .send ⟨0⟩ 1200 0 .still) (by trivial) rfl
  have hpoll := hsend.tail (i := .poll ⟨0, HashSet.listed, Peek.first⟩) (by trivial) rfl
  exact ⟨_, hpoll, by decide, by decide, (closed_once hpoll).2.1 ⟨0⟩⟩

def unused : Connection := Script.connection ⟨false, [1], [], [.close true 0 []], none⟩

/-- `close` reports the connection as closed and leaves it in the group. The
next operation on it reports it again. -/
theorem closed_twice :
    ∃ g op g', Run step (fun _ _ ↦ True) .new g ∧
      (∃ new, (perform g op).state.history = g.state.history ++ new ∧
        .observed (.insert ⟨⟨0⟩, .closed, false, false, 0⟩ none) ∈ new) ∧
      ⟨0⟩ ∈ (perform g op).state.conns.keys ∧
      reportedClosed ⟨0⟩ (perform g op).state.history = true ∧
      Run step (fun _ _ ↦ True) (perform g op) g' ∧
      (registrations g'.state.history).count ⟨0⟩ = 1 ∧ deliveries ⟨0⟩ g'.state.history = 2 := by
  let poll : Op := .poll ⟨0, HashSet.listed, Peek.first⟩
  have hregister : Run step (fun _ _ ↦ True) .new (perform .new (.register unused .still)) :=
    .one (i := .register unused .still) trivial rfl
  have hfirst : Run step (fun _ _ ↦ True) (perform (perform .new (.register unused .still))
      (.close ⟨0⟩ true 0 [] .still)) _ := .one (i := poll) trivial rfl
  have hsend := hfirst.tail (i := .send ⟨0⟩ 1200 0 .still) trivial rfl
  have hsecond := hsend.tail (i := poll) trivial rfl
  exact ⟨_, .close ⟨0⟩ true 0 [] .still, _, hregister, ⟨_, rfl, by decide⟩, by decide, by decide,
    hsecond, by decide, by decide⟩

end Runs

end ZeroRtt.Poll.ClosedOnce
