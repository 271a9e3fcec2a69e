import ZeroRtt.Futures.Residue

namespace ZeroRtt.Futures.Establishment

open ZeroRtt.Lib.Panics ZeroRtt.Lib.Containers ZeroRtt.Futures ZeroRtt.Futures.Tasks
open ZeroRtt.Futures.Entries ZeroRtt.Futures.Residue
open ZeroRtt.Api.Types (Token Poll)

def ComesIn (t : Token) (e : Api.Types.Event) : Prop := e.kind = .accept ∧ e.token = t

def dispatched (actions : List Action) : List Api.Types.Event :=
  actions.flatMap fun
    | .dispatch events => events
    | _ => []

/-- The connection was established by either of the two events, and is not closed
since. -/
def Established (t : Token) (actions : List Action) : Prop :=
  ∃ before e after, dispatched actions = before ++ e :: after ∧ (Connects t e ∨ ComesIn t e) ∧
    ∀ e' ∈ after, ¬ Closes t e'

/-- A `Connected` event was dispatched since the last poll of `is_established` on
the token. -/
def Fresh (t : Token) (actions : List Action) : Prop :=
  ∃ before events after, actions = before ++ .dispatch events :: after ∧
    (∃ e ∈ events, Connects t e) ∧ ∀ waker, .isEstablished t waker ∉ after

section Marks

variable {t : Token} {m : Bool} {a : Action} {actions : List Action}

def Reports (t : Token) (a : Action) : Prop :=
  ∃ events, a = .dispatch events ∧ ∃ e ∈ events, Connects t e

theorem mark_iff : mark t m a = true ↔ Reports t a ∨ m = true ∧ ∀ waker, a ≠ .isEstablished t waker := by
  cases a with
  | dispatch events => simp [mark, Reports, or_comm]
  | isEstablished token waker => simp [mark, Reports]
  | acceptStream | acceptConn | begin | finish | stop | shutdown | cancel => simp [mark, Reports]

theorem fresh_nil : ¬ Fresh t [] := by
  rintro ⟨before, events, after, heq, -⟩
  simp at heq

theorem fresh_append : Fresh t (actions ++ [a]) ↔
    Reports t a ∨ Fresh t actions ∧ ∀ waker, a ≠ .isEstablished t waker := by
  constructor
  · intro h
    obtain ⟨before, events, after, heq, hconnects, hnone⟩ := h
    obtain hafter | ⟨after', last, hafter⟩ := List.eq_nil_or_concat after
    · rw [hafter] at heq
      obtain ⟨-, ha⟩ := List.append_inj' heq rfl
      exact .inl ⟨events, List.singleton_inj.mp ha, hconnects⟩
    · rw [List.concat_eq_append] at hafter
      rw [hafter, ← List.cons_append, ← List.append_assoc] at heq
      obtain ⟨hbefore, ha⟩ := List.append_inj' heq rfl
      rw [hafter] at hnone
      refine .inr ⟨⟨before, events, after', hbefore, hconnects, ?_⟩, ?_⟩
      · exact fun waker hmem ↦ hnone waker (List.mem_append_left _ hmem)
      · intro waker hpoll
        apply hnone waker
        rw [← ha, hpoll]
        simp
  · intro h
    cases h with
    | inl hreports =>
      obtain ⟨events, rfl, hconnects⟩ := hreports
      exact ⟨actions, events, [], rfl, hconnects, by simp⟩
    | inr hfresh =>
      obtain ⟨⟨before, events, after, rfl, hconnects, hnone⟩, hne⟩ := hfresh
      refine ⟨before, events, after ++ [a], by simp, hconnects, ?_⟩
      intro waker hmem
      cases List.mem_append.mp hmem with
      | inl hmem => exact hnone waker hmem
      | inr hmem => exact hne waker (List.mem_singleton.mp hmem).symm

theorem marked_iff (t : Token) (actions : List Action) : marked t actions = true ↔ Fresh t actions := by
  induction actions using List.reverseRecOn with
  | nil => simp [marked, fresh_nil]
  | append_singleton actions a ih =>
    have hlast : marked t (actions ++ [a]) = mark t (marked t actions) a := List.foldl_concat ..
    rw [hlast, mark_iff, fresh_append, ih]

end Marks

theorem isEstablished_ready_iff {t : Token} {actions : List Action} {w : World}
    (hrun : runAll .initial actions = .ok w) (waker : Waker) :
    (w.state.isEstablished t waker).1 = .ready (.ok ()) ↔ Fresh t actions := by
  have hstart : Tracks t .initial false := ⟨rfl, by simp [World.initial, State.new]⟩
  have htracks : Tracks t w (marked t actions) := hstart.runAll hrun
  rw [← marked_iff, ← htracks.marks]
  by_cases hmem : t ∈ w.state.establishedConns <;> simp [State.isEstablished, hmem]

/-- The polls of a run on a connection that is established are all ready exactly if
each of them has a `Connected` event of its own. -/
theorem establishment_stable_iff (t : Token) (actions : List Action) (w : World)
    (hrun : runAll .initial actions = .ok w) :
    (∀ before waker after w', actions = before ++ .isEstablished t waker :: after →
        runAll .initial before = .ok w' → Established t before →
        (w'.state.isEstablished t waker).1 = .ready (.ok ())) ↔
      ∀ before waker after, actions = before ++ .isEstablished t waker :: after →
        Established t before → Fresh t before := by
  constructor
  · intro h before waker after heq hestablished
    rw [heq, runAll_append] at hrun
    obtain ⟨w', hbefore, -⟩ := bind_ok hrun
    exact (isEstablished_ready_iff hbefore waker).mp (h before waker after w' heq hbefore hestablished)
  · intro h before waker after w' heq hbefore hestablished
    exact (isEstablished_ready_iff hbefore waker).mpr (h before waker after heq hestablished)

theorem establishment_stable_iff_example :
    ∃ w w', runAll .initial [.dispatch [⟨⟨1⟩, .connected, false, false, 0⟩]] = .ok w' ∧
      runAll .initial [.dispatch [⟨⟨1⟩, .connected, false, false, 0⟩], .isEstablished ⟨1⟩ ⟨0⟩] = .ok w ∧
      (w'.state.isEstablished ⟨1⟩ ⟨0⟩).1 = .ready (.ok ()) := by
  obtain ⟨e, he⟩ : ∃ e : Api.Types.Event, e = ⟨⟨1⟩, .connected, false, false, 0⟩ := ⟨_, rfl⟩
  have hconnects : Connects ⟨1⟩ e := by
    rw [he]
    exact ⟨rfl, rfl⟩
  have hestablished : Established ⟨1⟩ [.dispatch [e]] :=
    ⟨[], e, [], rfl, .inl hconnects, by simp⟩
  rw [← he]
  obtain ⟨w, hrun⟩ : ∃ w, runAll .initial [.dispatch [e], .isEstablished ⟨1⟩ ⟨0⟩] = .ok w := by
    rw [he]
    exact ⟨_, rfl⟩
  obtain ⟨w', hbefore, -⟩ := bind_ok ((runAll_append .initial [.dispatch [e]] _).symm.trans hrun)
  refine ⟨w, w', hbefore, hrun, ?_⟩
  refine (establishment_stable_iff ⟨1⟩ _ w hrun).mpr ?_ [.dispatch [e]] ⟨0⟩ [] w' rfl hbefore
    hestablished
  intro before waker after heq _
  have hlength := congrArg List.length heq
  simp only [List.length_append, List.length_cons, List.length_nil] at hlength
  match before, heq with
  | [], heq => cases heq
  | [a], heq =>
    cases heq
    exact ⟨[], [e], [], rfl, ⟨e, by simp, hconnects⟩, by simp⟩
  | _ :: _ :: _, _ =>
    simp only [List.length_cons] at hlength
    omega

/-- The second poll of a client waits, and so does the first poll on a connection
that came in. -/
theorem establishment_not_stable :
    (∃ w, runAll .initial [.dispatch [⟨⟨1⟩, .connected, false, false, 0⟩], .isEstablished ⟨1⟩ ⟨0⟩] = .ok w ∧
      Established ⟨1⟩ [.dispatch [⟨⟨1⟩, .connected, false, false, 0⟩], .isEstablished ⟨1⟩ ⟨0⟩] ∧
      (w.state.isEstablished ⟨1⟩ ⟨0⟩).1 = .pending) ∧
    ∃ w, runAll .initial [.dispatch [⟨⟨1⟩, .accept, true, false, 0⟩]] = .ok w ∧
      Established ⟨1⟩ [.dispatch [⟨⟨1⟩, .accept, true, false, 0⟩]] ∧
      (w.state.isEstablished ⟨1⟩ ⟨0⟩).1 = .pending := by
  refine ⟨⟨_, rfl, ?_, rfl⟩, _, rfl, ?_, rfl⟩
  · exact ⟨[], _, [], rfl, .inl ⟨rfl, rfl⟩, by simp⟩
  · exact ⟨[], _, [], rfl, .inr ⟨rfl, rfl⟩, by simp⟩

end ZeroRtt.Futures.Establishment
