import ZeroRtt.Futures.State

namespace ZeroRtt.Futures

open ZeroRtt.Lib.Panics ZeroRtt.Lib.Containers
open ZeroRtt.Api.Types (Token Poll StreamKind EventKind)

inductive Key
  | accept
  | conn (token : Token) (event : Event)
deriving DecidableEq

namespace State

variable {s t u : State} {token : Token} {event : Event} {waker : Waker} {k : Key}
  {ws vs : List Waker}

def slot (s : State) : Key → Option Waker
  | .accept => s.accept
  | .conn token event => (s.wakers.lookup token).bind fun conn ↦ conn.lookup event

section Slots

theorem slot_of_wakers_eq (haccept : t.accept = s.accept) (hwakers : t.wakers = s.wakers) :
    t.slot k = s.slot k := by
  cases k with
  | accept => exact haccept
  | conn token event => simp only [slot, hwakers]

theorem slot_conn_insert {conn : HashMap Event Waker} (hwakers : t.wakers = s.wakers.insert token conn)
    (e : Event) : t.slot (.conn token e) = conn.lookup e := by
  simp only [slot, hwakers, AList.lookup_insert, Option.bind_some]

theorem slot_conn_insert_ne {conn : HashMap Event Waker} {token' : Token}
    (hwakers : t.wakers = s.wakers.insert token conn) (hne : token' ≠ token) (e : Event) :
    t.slot (.conn token' e) = s.slot (.conn token' e) := by
  simp only [slot, hwakers, AList.lookup_insert_ne hne]

theorem slot_register : (s.register token event waker).slot k =
    if k = .conn token event then some waker else s.slot k := by
  cases k with
  | accept => simp [slot, register]
  | conn token' event' =>
    by_cases htoken : token' = token
    · subst htoken
      rw [slot_conn_insert rfl]
      by_cases hevent : event' = event
      · subst hevent
        simp [AList.lookup_insert]
      · rw [AList.lookup_insert_ne hevent, if_neg (by simp [hevent])]
        cases hconn : s.wakers.lookup token' <;> simp [slot, hconn]
    · rw [slot_conn_insert_ne rfl htoken, if_neg (by simp [htoken])]

theorem slot_conn_erase {conn : HashMap Event Waker} (hconn : s.wakers.lookup token = some conn)
    (haccept : t.accept = s.accept)
    (hwakers : t.wakers = s.wakers.insert token (conn.erase event)) :
    t.slot k = if k = .conn token event then none else s.slot k := by
  cases k with
  | accept => simpa [slot] using haccept
  | conn token' event' =>
    by_cases htoken : token' = token
    · subst htoken
      rw [slot_conn_insert hwakers]
      by_cases hevent : event' = event
      · subst hevent
        simp
      · rw [AList.lookup_erase_ne hevent, if_neg (by simp [hevent])]
        simp [slot, hconn]
    · rw [slot_conn_insert_ne hwakers htoken, if_neg (by simp [htoken])]

end Slots

section Rousing

/-- Wakers are only taken out of their places, and then they are woken. -/
structure Rouses (s t : State) (ws : List Waker) : Prop where
  woken : t.woken = s.woken ++ ws
  slot : ∀ k, t.slot k = s.slot k ∨ t.slot k = none ∧ ∀ w, s.slot k = some w → w ∈ ws

theorem Rouses.of_eq (haccept : t.accept = s.accept) (hwakers : t.wakers = s.wakers)
    (hwoken : t.woken = s.woken) : Rouses s t [] := by
  refine ⟨by rw [hwoken, List.append_nil], ?_⟩
  intro k
  exact .inl (slot_of_wakers_eq haccept hwakers)

theorem Rouses.trans (h : Rouses s t ws) (h' : Rouses t u vs) : Rouses s u (ws ++ vs) := by
  refine ⟨by rw [h'.woken, h.woken, List.append_assoc], ?_⟩
  intro k
  rcases h.slot k with heq | ⟨hnone, hws⟩
  · rcases h'.slot k with heq' | ⟨hnone', hvs⟩
    · exact .inl (heq'.trans heq)
    · refine .inr ⟨hnone', fun w hw ↦ List.mem_append_right _ (hvs w ?_)⟩
      rw [heq, hw]
  · have hnone' : u.slot k = none := (h'.slot k).elim (fun heq ↦ heq.trans hnone) And.left
    exact .inr ⟨hnone', fun w hw ↦ List.mem_append_left _ (hws w hw)⟩

theorem Rouses.slot_eq_none (h : Rouses s t ws) (hk : s.slot k = none) : t.slot k = none :=
  (h.slot k).elim (fun heq ↦ heq.trans hk) And.left

theorem slot_wake (s : State) (token : Token) (event : Event) (k : Key) :
    (s.wake token event).slot k = if k = .conn token event then none else s.slot k := by
  cases hconn : s.wakers.lookup token with
  | none =>
    simp only [wake, hconn]
    split
    next hk => simp [hk, slot, hconn]
    next => rfl
  | some conn =>
    cases hw : conn.lookup event with
    | none =>
      simp only [wake, hconn, hw]
      split
      next hk => simp [hk, slot, hconn, hw]
      next => rfl
    | some waker =>
      simp only [wake, hconn, hw]
      exact slot_conn_erase hconn rfl rfl

theorem woken_wake (s : State) (token : Token) (event : Event) :
    (s.wake token event).woken = s.woken ++ (s.slot (.conn token event)).toList := by
  cases hconn : s.wakers.lookup token with
  | none => simp [wake, slot, hconn]
  | some conn => cases hw : conn.lookup event <;> simp [wake, slot, hconn, hw]

theorem rouses_wake (s : State) (token : Token) (event : Event) :
    Rouses s (s.wake token event) (s.slot (.conn token event)).toList := by
  refine ⟨woken_wake s token event, ?_⟩
  intro k
  rw [slot_wake]
  split
  next hk =>
    subst hk
    exact .inr ⟨rfl, fun w hw ↦ by simpa using hw⟩
  next => exact .inl rfl

theorem mem_values_of_lookup {κ : Type} [DecidableEq κ] {m : HashMap κ Waker} {a : κ}
    (h : m.lookup a = some waker) : waker ∈ m.entries.map Sigma.snd :=
  List.mem_map.mpr ⟨⟨a, waker⟩, AList.mem_lookup_iff.mp h, rfl⟩

theorem rouses_onClosed (s : State) (token : Token) :
    ∃ ws, Rouses s (s.onClosed token) ws ∧ ∀ e, (s.onClosed token).slot (.conn token e) = none := by
  cases hconn : s.wakers.lookup token with
  | none =>
    simp only [onClosed, hconn]
    exact ⟨[], .of_eq rfl rfl rfl, by simp [slot, hconn]⟩
  | some conn =>
    simp only [onClosed, hconn]
    refine ⟨_, ⟨rfl, ?_⟩, by simp [slot]⟩
    intro k
    cases k with
    | accept => exact .inl rfl
    | conn token' event =>
      by_cases htoken : token' = token
      · subst htoken
        refine .inr ⟨by simp [slot], ?_⟩
        intro w hw
        simp only [slot, hconn, Option.bind_some] at hw
        exact mem_values_of_lookup hw
      · exact .inl (by simp only [slot, AList.lookup_erase_ne htoken])

theorem rouses_onAccept (s : State) (token : Token) :
    ∃ ws, Rouses s (s.onAccept token) ws ∧ (s.onAccept token).slot .accept = none := by
  cases haccept : s.accept with
  | none =>
    simp only [onAccept, haccept]
    exact ⟨[], .of_eq haccept.symm rfl rfl, rfl⟩
  | some waker =>
    simp only [onAccept, haccept]
    refine ⟨[waker], ⟨rfl, ?_⟩, rfl⟩
    intro k
    cases k with
    | accept => exact .inr ⟨rfl, fun w hw ↦ by simpa [slot, haccept, eq_comm] using hw⟩
    | conn token' event => exact .inl rfl

theorem rouses_stop (s : State) : ∃ ws, Rouses s s.stop ws ∧ ∀ k, s.stop.slot k = none := by
  have hnone : ∀ k, s.stop.slot k = none := by
    intro k
    cases k with
    | accept => rfl
    | conn token event => simp [slot, stop]
  refine ⟨_, ⟨List.append_assoc .., fun k ↦ .inr ⟨hnone k, ?_⟩⟩, hnone⟩
  intro w hw
  cases k with
  | accept => exact List.mem_append_left _ (by simpa [slot] using hw)
  | conn token event =>
    obtain ⟨conn, hconn, hlookup⟩ := Option.bind_eq_some_iff.mp hw
    refine List.mem_append_right _ (List.mem_flatMap.mpr ⟨⟨token, conn⟩, ?_, ?_⟩)
    · exact AList.mem_lookup_iff.mp hconn
    · exact mem_values_of_lookup hlookup

theorem rouses_shutdown (s : State) (token : Token) (streamId : ℕ) :
    ∃ ws, Rouses s (s.shutdown token streamId).2 ws := by
  have h := rouses_wake s token (.streamSend streamId)
  have h' := rouses_wake (s.wake token (.streamSend streamId)) token (.streamRecv streamId)
  unfold shutdown
  dsimp only
  split
  · exact ⟨_, h.trans h'⟩
  · exact ⟨_, h.trans h'⟩

def Concerns (event : Api.Types.Event) (k : Key) : Prop :=
  match event.kind with
  | .connected => k = .conn event.token .connected
  | .accept => k = .accept
  | .closed => ∃ e, k = .conn event.token e
  | .streamOpenBidi => k = .conn event.token .streamOpenBidi
  | .streamOpenUni => k = .conn event.token .streamOpenUni
  | .streamAccept => k = .conn event.token .streamAccept
  | .streamSend => k = .conn event.token (.streamSend event.streamId)
  | .streamRecv => k = .conn event.token (.streamRecv event.streamId)
  | _ => False

theorem rouses_after_eq (haccept : t.accept = s.accept) (hwakers : t.wakers = s.wakers)
    (hwoken : t.woken = s.woken) (token : Token) (event : Event) :
    ∃ ws, Rouses s (t.wake token event) ws ∧
      ∀ k, k = .conn token event → (t.wake token event).slot k = none := by
  refine ⟨_, (Rouses.of_eq haccept hwakers hwoken).trans (rouses_wake t token event), ?_⟩
  rintro k rfl
  rw [slot_wake, if_pos rfl]

theorem rouses_dispatch {e : Api.Types.Event} (h : s.dispatch e = .ok t) :
    ∃ ws, Rouses s t ws ∧ ∀ k, Concerns e k → t.slot k = none := by
  unfold dispatch at h
  cases hkind : e.kind with
  | connected =>
    rw [hkind] at h
    cases h
    simp only [Concerns, hkind]
    exact rouses_after_eq (s := s)
      (t := { s with establishedConns := s.establishedConns.insert e.token }) rfl rfl rfl _ _
  | streamAccept =>
    rw [hkind] at h
    cases h
    simp only [Concerns, hkind]
    exact rouses_after_eq (s := s)
      (t := { s with incomingStreams := s.incomingStreams.insert e.token _ }) rfl rfl rfl _ _
  | streamOpenBidi | streamOpenUni | streamSend | streamRecv =>
    rw [hkind] at h
    cases h
    simp only [Concerns, hkind]
    exact rouses_after_eq rfl rfl rfl _ _
  | accept =>
    rw [hkind] at h
    cases h
    obtain ⟨ws, hrouses, hnone⟩ := rouses_onAccept s e.token
    refine ⟨ws, hrouses, ?_⟩
    simp only [Concerns, hkind]
    rintro k rfl
    exact hnone
  | closed =>
    rw [hkind] at h
    cases h
    obtain ⟨ws, hrouses, hnone⟩ := rouses_onClosed s e.token
    refine ⟨ws, hrouses, ?_⟩
    simp only [Concerns, hkind]
    rintro k ⟨event, rfl⟩
    exact hnone event
  | send | recv | readLock =>
    rw [hkind] at h
    cases h

theorem rouses_dispatchAll {events : List Api.Types.Event} (h : s.dispatchAll events = .ok t) :
    ∃ ws, Rouses s t ws ∧ ∀ e ∈ events, ∀ k, Concerns e k → t.slot k = none := by
  induction events generalizing s with
  | nil =>
    cases h
    exact ⟨[], .of_eq rfl rfl rfl, by simp⟩
  | cons e events ih =>
    obtain ⟨u, hu, hrest⟩ := bind_ok h
    obtain ⟨ws, hrouses, hnone⟩ := rouses_dispatch hu
    obtain ⟨vs, hrouses', hnone'⟩ := ih hrest
    refine ⟨ws ++ vs, hrouses.trans hrouses', ?_⟩
    intro e' he' k hk
    rcases List.mem_cons.mp he' with rfl | he'
    · exact hrouses'.slot_eq_none (hnone k hk)
    · exact hnone' e' he' k hk

end Rousing

section Sparing

/-- A step that takes no waker out of a place other than `key` without waking it. -/
def Spares (key : Key) (s t : State) : Prop :=
  ∃ ws, t.woken = s.woken ++ ws ∧
    ∀ k, k ≠ key → t.slot k = s.slot k ∨ ∀ w, s.slot k = some w → w ∈ ws

theorem Rouses.spares (h : Rouses s t ws) (key : Key) : Spares key s t :=
  ⟨ws, h.woken, fun k _ ↦ (h.slot k).imp id And.right⟩

theorem spares_of_slot {key : Key} (hwoken : t.woken = s.woken)
    (hslot : ∀ k, k ≠ key → t.slot k = s.slot k) : Spares key s t :=
  ⟨[], by rw [hwoken, List.append_nil], fun k hk ↦ .inl (hslot k hk)⟩

theorem spares_register (s : State) (token : Token) (event : Event) (waker : Waker) :
    Spares (.conn token event) s (s.register token event waker) := by
  refine spares_of_slot rfl ?_
  intro k hk
  rw [slot_register, if_neg hk]

theorem spares_isEstablished (s : State) (token : Token) (waker : Waker) :
    Spares (.conn token .connected) s (s.isEstablished token waker).2 := by
  unfold isEstablished
  split
  · exact spares_of_slot rfl fun k _ ↦ slot_of_wakers_eq rfl rfl
  · exact spares_register s token .connected waker

theorem spares_acceptStream (s : State) (token : Token) (waker : Waker) :
    Spares (.conn token .streamAccept) s (s.acceptStream token waker).2 := by
  unfold acceptStream
  dsimp only
  split
  · exact spares_of_slot rfl fun k _ ↦ rfl
  · split
    · exact spares_of_slot rfl fun k _ ↦ slot_of_wakers_eq rfl rfl
    · refine spares_of_slot rfl fun k hk ↦ ?_
      rw [slot_register, if_neg hk]
      exact slot_of_wakers_eq rfl rfl

theorem spares_acceptConn (s : State) (waker : Waker) :
    Spares .accept s (s.acceptConn waker).2 := by
  unfold acceptConn
  split
  · exact spares_of_slot rfl fun k _ ↦ rfl
  · split
    · exact spares_of_slot rfl fun k _ ↦ slot_of_wakers_eq rfl rfl
    · refine spares_of_slot rfl fun k hk ↦ ?_
      cases k with
      | accept => exact absurd rfl hk
      | conn token event => rfl

theorem spares_finishPoll {α : Type} {answer : Except Io α} {result : Poll (Except Io α)}
    (h : s.finishPoll token event answer = .ok (result, t)) : Spares (.conn token event) s t := by
  cases answer with
  | error err =>
    simp only [finishPoll] at h
    split at h
    · cases h
      exact spares_of_slot rfl fun k _ ↦ rfl
    · cases h
      exact spares_of_slot rfl fun k _ ↦ rfl
  | ok a =>
    obtain ⟨conn, hconn, h⟩ := bind_ok h
    cases h
    cases hlookup : s.wakers.lookup token with
    | none =>
      rw [hlookup] at hconn
      cases hconn
    | some conn' =>
      rw [hlookup] at hconn
      cases hconn
      refine spares_of_slot rfl fun k hk ↦ Eq.trans (slot_conn_erase hlookup ?_ ?_) (if_neg hk)
      · rfl
      · rfl

/-- The waker is in its place, or it was woken after the first `seen` ones. -/
structure Attended (s : State) (k : Key) (waker : Waker) (seen : ℕ) : Prop where
  seen_le : seen ≤ s.woken.length
  cared : s.slot k = some waker ∨ waker ∈ s.woken.drop seen

theorem Attended.spares {key : Key} {seen : ℕ} (h : Attended s k waker seen)
    (hspares : Spares key s t) (hk : k ≠ key) : Attended t k waker seen := by
  obtain ⟨ws, hwoken, hslot⟩ := hspares
  refine ⟨?_, ?_⟩
  · rw [hwoken, List.length_append]
    exact h.seen_le.trans (Nat.le_add_right _ _)
  · rw [hwoken, List.drop_append_of_le_length h.seen_le]
    rcases h.cared with hcared | hcared
    · rcases hslot k hk with heq | hws
      · exact .inl (heq.trans hcared)
      · exact .inr (List.mem_append_right _ (hws waker hcared))
    · exact .inr (List.mem_append_left _ hcared)

theorem Spares.woken_mem {key : Key} {seen : ℕ} (h : Spares key s t)
    (hseen : seen ≤ s.woken.length) (hmem : waker ∈ s.woken.drop seen) :
    waker ∈ t.woken.drop seen := by
  obtain ⟨ws, hwoken, -⟩ := h
  rw [hwoken, List.drop_append_of_le_length hseen]
  exact List.mem_append_left _ hmem

end Sparing

end State

end ZeroRtt.Futures
