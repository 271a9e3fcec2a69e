import ZeroRtt.Futures.Tasks

namespace ZeroRtt.Futures.Entries

open ZeroRtt.Lib.Panics ZeroRtt.Lib.Containers ZeroRtt.Lib.Runs ZeroRtt.Futures ZeroRtt.Futures.Tasks
open ZeroRtt.Api.Types (Token Poll StreamKind)

section Having

variable {s s' : State} {token t : Token} {event : Event} {waker : Waker}

def Has (s : State) (token : Token) : Prop := (s.wakers.lookup token).isSome = true

theorem has_insert {conn : HashMap Event Waker} (h : s'.wakers = s.wakers.insert token conn) :
    Has s' t ↔ t = token ∨ Has s t := by
  by_cases ht : t = token
  · subst ht
    simp [Has, h]
  · simp [Has, h, ht, AList.lookup_insert_ne ht]

theorem has_erase (h : s'.wakers = s.wakers.erase token) : Has s' t ↔ t ≠ token ∧ Has s t := by
  by_cases ht : t = token
  · subst ht
    simp [Has, h]
  · simp [Has, h, ht, AList.lookup_erase_ne ht]

theorem has_of_wakers_eq (h : s'.wakers = s.wakers) : Has s' t ↔ Has s t := by rw [Has, Has, h]

theorem has_register : Has (s.register token event waker) t ↔ t = token ∨ Has s t := has_insert rfl

theorem has_reinsert {conn conn' : HashMap Event Waker} (hconn : s.wakers.lookup token = some conn)
    (h : s'.wakers = s.wakers.insert token conn') : Has s' t ↔ Has s t := by
  rw [has_insert h, or_iff_right_iff_imp]
  rintro rfl
  simp [Has, hconn]

theorem has_wake : Has (s.wake token event) t ↔ Has s t := by
  cases hconn : s.wakers.lookup token with
  | none => simp only [State.wake, hconn]
  | some conn =>
    cases hw : conn.lookup event with
    | none => simp only [State.wake, hconn, hw]
    | some waker =>
      simp only [State.wake, hconn, hw]
      exact has_reinsert hconn rfl

theorem has_onClosed : Has (s.onClosed token) t ↔ t ≠ token ∧ Has s t := by
  unfold State.onClosed
  cases hconn : s.wakers.lookup token with
  | none =>
    refine (has_of_wakers_eq rfl).trans ⟨fun h ↦ ⟨?_, h⟩, And.right⟩
    rintro rfl
    simp [Has, hconn] at h
  | some conn => exact has_erase rfl

theorem has_onAccept : Has (s.onAccept token) t ↔ Has s t := by
  unfold State.onAccept
  dsimp only
  cases s.accept with
  | none => rfl
  | some waker => rfl

def Closes (token : Token) (e : Api.Types.Event) : Prop := e.kind = .closed ∧ e.token = token

theorem has_dispatch {e : Api.Types.Event} (h : s.dispatch e = .ok s') :
    Has s' t ↔ ¬ Closes t e ∧ Has s t := by
  unfold State.dispatch at h
  cases hkind : e.kind with
  | connected | streamOpenBidi | streamOpenUni | streamAccept | streamSend | streamRecv =>
    rw [hkind] at h
    cases h
    simp only [Closes, hkind, reduceCtorEq, false_and, not_false_eq_true, true_and]
    exact has_wake.trans (has_of_wakers_eq rfl)
  | accept =>
    rw [hkind] at h
    cases h
    simp only [Closes, hkind, reduceCtorEq, false_and, not_false_eq_true, true_and]
    exact has_onAccept
  | closed =>
    rw [hkind] at h
    cases h
    simp only [Closes, hkind, true_and]
    rw [has_onClosed, ne_comm]
  | send | recv | readLock =>
    rw [hkind] at h
    cases h

theorem has_dispatchAll {events : List Api.Types.Event} (h : s.dispatchAll events = .ok s') :
    Has s' t ↔ (∀ e ∈ events, ¬ Closes t e) ∧ Has s t := by
  induction events generalizing s with
  | nil =>
    cases h
    simp
  | cons e events ih =>
    obtain ⟨u, hu, hrest⟩ := bind_ok h
    rw [ih hrest, has_dispatch hu, List.forall_mem_cons]
    tauto

theorem not_has_stop : ¬ Has s.stop t := by simp [Has, State.stop]

theorem has_shutdown {streamId : ℕ} : Has (s.shutdown token streamId).2 t ↔ Has s t := by
  unfold State.shutdown
  dsimp only
  split
  · exact has_wake.trans has_wake
  · exact has_wake.trans has_wake

theorem finishPoll_ok_iff {α : Type} (event : Event) (a : α) :
    (∃ r, s.finishPoll token event (.ok a) = .ok r) ↔ Has s token := by
  cases hconn : s.wakers.lookup token with
  | none => simp [State.finishPoll, Has, hconn, unwrapOption]
  | some conn => simp [State.finishPoll, Has, hconn, unwrapOption]

theorem has_finishPoll {α : Type} {answer : Except Io α} {result : Poll (Except Io α)}
    (h : s.finishPoll token event answer = .ok (result, s')) : Has s' t ↔ Has s t := by
  cases answer with
  | error err =>
    simp only [State.finishPoll] at h
    split at h
    · cases h
      rfl
    · cases h
      rfl
  | ok a =>
    obtain ⟨conn, hconn, h⟩ := bind_ok h
    cases h
    cases hlookup : s.wakers.lookup token with
    | none =>
      rw [hlookup] at hconn
      cases hconn
    | some conn' => exact has_reinsert hlookup rfl

end Having

section Runs

variable {w w' : World}

/-- Every poll that is under way would find the entry of its token if the group
answered with success. -/
def Finds (w : World) : Prop :=
  ∀ f ∈ w.flights, ∀ reply, ∃ w', step w (.finish f (.ok reply)) = .ok w'

/-- No connection is reported closed, and the group is not stopped, while a poll
on that connection, or any poll, is under way. -/
def Undisturbed (w : World) : Action → Prop
  | .dispatch events => ∀ f ∈ w.flights, ∀ e ∈ events, ¬ Closes f.token e
  | .stop => w.flights = []
  | _ => True

theorem finds_iff : Finds w ↔ ∀ f ∈ w.flights, Has w.state f.token := by
  have hstep : ∀ f reply, (∃ w', step w (.finish f (.ok reply)) = .ok w') ↔ Has w.state f.token := by
    intro f reply
    rw [← finishPoll_ok_iff f.event reply]
    simp only [step]
    cases hfinish : w.state.finishPoll f.token f.event (.ok reply) with
    | error panic => simp
    | ok r =>
      obtain ⟨result, state⟩ := r
      cases result <;> simp
  simp only [Finds, hstep]
  refine ⟨fun h f hf ↦ h f hf (.sent 0), fun h f hf _ ↦ h f hf⟩

theorem has_polled {α : Type} {r : Poll α × State} {key : Key} {waker : Waker} {t : Token}
    (h : ∀ t, Has w.state t → Has r.2 t) (ht : Has w.state t) :
    Has (w.polled key waker r).state t := by
  obtain ⟨result, state⟩ := r
  cases result <;> exact h t ht

theorem flights_polled {α : Type} {r : Poll α × State} {key : Key} {waker : Waker} :
    (w.polled key waker r).flights = w.flights := by
  obtain ⟨result, state⟩ := r
  cases result <;> rfl

theorem has_isEstablished {s : State} {token t : Token} {waker : Waker} (ht : Has s t) :
    Has (s.isEstablished token waker).2 t := by
  unfold State.isEstablished
  split
  · exact ht
  · exact has_register.mpr (.inr ht)

theorem has_acceptStream {s : State} {token t : Token} {waker : Waker} (ht : Has s t) :
    Has (s.acceptStream token waker).2 t := by
  unfold State.acceptStream
  split
  · exact ht
  · dsimp only
    split
    · exact ht
    · exact has_register.mpr (.inr ht)

theorem has_acceptConn {s : State} {t : Token} {waker : Waker} (ht : Has s t) :
    Has (s.acceptConn waker).2 t := by
  unfold State.acceptConn
  split
  · exact ht
  · split
    · exact ht
    · exact ht

theorem finds_step (h : Finds w) {a : Action} (hstep : step w a = .ok w') (ha : Undisturbed w a) :
    Finds w' := by
  rw [finds_iff] at h ⊢
  cases a with
  | isEstablished token waker =>
    cases hstep
    intro f hf
    rw [flights_polled] at hf
    exact has_polled (fun t ht ↦ has_isEstablished ht) (h f hf)
  | acceptStream token waker =>
    cases hstep
    intro f hf
    rw [flights_polled] at hf
    exact has_polled (fun t ht ↦ has_acceptStream ht) (h f hf)
  | acceptConn waker =>
    cases hstep
    intro f hf
    rw [flights_polled] at hf
    exact has_polled (fun t ht ↦ has_acceptConn ht) (h f hf)
  | begin token op waker =>
    simp only [step] at hstep
    split at hstep
    next =>
      cases hstep
      exact h
    next state hbegun =>
      cases hstep
      obtain rfl := begun_eq hbegun
      intro f hf
      rcases List.mem_cons.mp hf with rfl | hf
      · exact has_register.mpr (.inl rfl)
      · exact has_register.mpr (.inr (h f hf))
  | finish flight answer =>
    obtain ⟨⟨result, state⟩, hfinish, hstep⟩ := bind_ok hstep
    have hstate : w'.state = state ∧ w'.flights = w.flights.erase flight := by
      cases result <;> cases hstep <;> exact ⟨rfl, rfl⟩
    intro f hf
    rw [hstate.2] at hf
    rw [hstate.1, has_finishPoll hfinish]
    exact h f (List.mem_of_mem_erase hf)
  | dispatch events =>
    obtain ⟨state, hdispatch, hstep⟩ := bind_ok hstep
    cases hstep
    intro f hf
    exact (has_dispatchAll hdispatch).mpr ⟨ha f hf, h f hf⟩
  | stop =>
    cases hstep
    intro f hf
    have hnil : w.flights = [] := ha
    rw [show (w.rouse w.state.stop).flights = [] from hnil] at hf
    cases hf
  | shutdown token streamId =>
    cases hstep
    intro f hf
    exact has_shutdown.mpr (h f hf)
  | cancel key waker =>
    cases hstep
    exact h

theorem undisturbed_of_finds (h : Finds w') {a : Action} (hstep : step w a = .ok w') :
    Undisturbed w a := by
  rw [finds_iff] at h
  cases a with
  | dispatch events =>
    obtain ⟨state, hdispatch, hstep⟩ := bind_ok hstep
    cases hstep
    intro f hf
    exact ((has_dispatchAll hdispatch).mp (h f hf)).1
  | stop =>
    cases hstep
    apply List.eq_nil_iff_forall_not_mem.mpr
    intro f hf
    exact not_has_stop (h f hf)
  | isEstablished | acceptStream | acceptConn | begin | finish | shutdown | cancel => trivial

/-- As long as no poll is disturbed, success finds the entry of its token, and
the step that disturbs a poll is the one after which it does not. -/
theorem success_finds_entry
    (h : Run step (fun w a ↦ Legal w a ∧ Undisturbed w a) .initial w) :
    Finds w ∧ ∀ a w', Legal w a → step w a = .ok w' → (Finds w' ↔ Undisturbed w a) := by
  have hfinds : Finds w := by
    refine h.invariant (P := Finds) ?_ ?_
    · intro f hf
      cases hf
    · intro a b i ha hi hstep
      exact finds_step ha hstep hi.2
  refine ⟨hfinds, ?_⟩
  intro a w' _ hstep
  exact ⟨fun h' ↦ undisturbed_of_finds h' hstep, finds_step hfinds hstep⟩

theorem success_finds_entry_example :
    ∃ w w', Run step (fun w a ↦ Legal w a ∧ Undisturbed w a) .initial w ∧
      ⟨⟨1⟩, .streamSend 4, ⟨0⟩⟩ ∈ w.flights ∧
      step w (.finish ⟨⟨1⟩, .streamSend 4, ⟨0⟩⟩ (.ok (.sent 3))) = .ok w' := by
  have hbegin : Run step (fun w a ↦ Legal w a ∧ Undisturbed w a) .initial _ :=
    .one (i := .begin ⟨1⟩ (.send 4 false) ⟨0⟩) ⟨by simp [Legal, World.initial], trivial⟩ rfl
  -- another connection is closed between the two sections of the poll
  have hrun : Run step (fun w a ↦ Legal w a ∧ Undisturbed w a) .initial _ :=
    hbegin.tail (i := .dispatch [⟨⟨2⟩, .closed, false, false, 0⟩]) ⟨trivial, by
      intro f hf e he hcloses
      obtain rfl := List.mem_singleton.mp hf
      obtain rfl := List.mem_singleton.mp he
      cases hcloses.2⟩ rfl
  obtain ⟨w', hstep⟩ := (success_finds_entry hrun).1 ⟨⟨1⟩, .streamSend 4, ⟨0⟩⟩
    (List.mem_cons_self ..) (.sent 3)
  exact ⟨_, w', hrun, List.mem_cons_self .., hstep⟩

/-- The connection is reported closed while a `send` on it is under way, and then
the group answers that it succeeded. -/
theorem success_panics :
    ∃ w, Run step Legal .initial w ∧ ⟨⟨1⟩, .streamSend 4, ⟨0⟩⟩ ∈ w.flights ∧
      step w (.finish ⟨⟨1⟩, .streamSend 4, ⟨0⟩⟩ (.ok (.sent 3))) = .error .unwrapNone := by
  have hbegin : Run step Legal .initial _ :=
    .one (i := .begin ⟨1⟩ (.send 4 false) ⟨0⟩) (by simp [Legal, World.initial]) rfl
  have hclosed : Run step Legal .initial _ :=
    .tail hbegin (i := .dispatch [⟨⟨1⟩, .closed, false, false, 0⟩]) trivial rfl
  exact ⟨_, hclosed, by decide, rfl⟩

end Runs

end ZeroRtt.Futures.Entries
