import ZeroRtt.Poll.Serving

namespace ZeroRtt.Poll.Admission

open ZeroRtt.Lib.Panics ZeroRtt.Lib.Containers
open ZeroRtt.Api.Types ZeroRtt.Api.Quiche ZeroRtt.Api.Handshakes
open ZeroRtt.Poll.Conn ZeroRtt.Poll.Locking ZeroRtt.Poll.Sections ZeroRtt.Poll.Walks
open ZeroRtt.Poll.Operations ZeroRtt.Poll.Routing ZeroRtt.Poll.Serving

variable {α Config : Type}

def Descends (q q' : Connection) : Prop := ∃ calls, q' = q.after calls

/-- Every connection of the second group was in the first one under the same token, or goes
back to one that `P` holds of. -/
def Stems (P : Connection → Prop) (g g' : Group) : Prop :=
  ∀ token c', g'.state.conns.lookup token = some c' →
    (∃ c, g.state.conns.lookup token = some c ∧ Descends c.wrapped c'.wrapped) ∨
      ∃ q, P q ∧ Descends q c'.wrapped

/-- The packet carries a token that the acceptor takes from its sender, and quiche accepts a
connection for it. -/
structure Admits (lib : Library Config) (a : Acceptor Config) (header : Header) (info : RecvInfo)
    (q : Connection) : Prop where
  supported : lib.versionIsSupported header.version = true
  validated : ∃ token odcid, header.token = some token ∧ token ≠ [] ∧
    a.addressValidator.validateAddress header.scid header.dcid info.fromAddr token =
      .ok (some odcid) ∧
    lib.accept header.dcid (some odcid) info.toAddr info.fromAddr a.config = .ok q

section Lineage

variable {P Q : Connection → Prop} {q q' q'' : Connection} {g g' g'' : Group}

theorem descends_refl (q : Connection) : Descends q q := ⟨[], q.after_nil.symm⟩

theorem Descends.trans (h : Descends q q') (h' : Descends q' q'') : Descends q q'' := by
  obtain ⟨calls, rfl⟩ := h
  obtain ⟨calls', rfl⟩ := h'
  exact ⟨calls ++ calls', q.after_after calls calls'⟩

theorem descends_of_continues {c c' : QuicConn} (h : Continues c c') :
    Descends c.wrapped c'.wrapped := h.wrapped

theorem stems_of_conns_eq (h : g'.state.conns = g.state.conns) : Stems P g g' := by
  intro token c' hc'
  rw [h] at hc'
  exact .inl ⟨c', hc', descends_refl _⟩

theorem Stems.trans (h : Stems P g g') (h' : Stems P g' g'') : Stems P g g'' := by
  intro token c'' hc''
  rcases h' token c'' hc'' with ⟨c', hc', hdescends⟩ | hadmitted
  · rcases h token c' hc' with ⟨c, hc, hbefore⟩ | ⟨q, hq, hbefore⟩
    · exact .inl ⟨c, hc, hbefore.trans hdescends⟩
    · exact .inr ⟨q, hq, hbefore.trans hdescends⟩
  · exact .inr hadmitted

theorem Stems.mono (h : Stems P g g') (hP : ∀ q, P q → Q q) : Stems Q g g' := by
  intro token c' hc'
  exact (h token c' hc').imp_right fun ⟨q, hq, hdescends⟩ ↦ ⟨q, hP q hq, hdescends⟩

theorem persists_stems : Persists (Stems P) where
  carries :=
    { refl g := stems_of_conns_eq rfl
      trans h h' := h.trans h'
      unparked g unparkers := stems_of_conns_eq rfl
      put := by
        intro g token c s hc hs t c' hc'
        by_cases ht : t = token
        · subst ht
          obtain rfl := Option.some.inj ((AList.lookup_insert _).symm.trans hc')
          exact .inl ⟨c, hc, descends_of_continues hs⟩
        · exact .inl ⟨c', (AList.lookup_insert_ne ht).symm.trans hc', descends_refl _⟩ }
  deregister := by
    intro token g
    cases hc : g.state.conns.lookup token with
    | none =>
      rw [deregister_of_none hc]
      exact stems_of_conns_eq rfl
    | some c =>
      intro t c' hc'
      rw [deregister_of_some hc] at hc'
      by_cases ht : t = token
      · subst ht
        cases (AList.lookup_erase _ _).symm.trans hc'
      · exact .inl ⟨c', (AList.lookup_erase_ne ht).symm.trans hc', descends_refl _⟩
  poll := by
    intro env g
    unfold Group.poll
    split <;> exact stems_of_conns_eq rfl

theorem stems_register (hq : P q) (env : UnlockEnv) (g : Group) :
    Stems P g (leftBy (Group.register q env g)) := by
  have hr := register_cases g q env
  generalize Group.register q env g = r at hr
  cases hr with
  | hangs => exact stems_of_conns_eq rfl
  | taken => exact stems_of_conns_eq rfl
  | @fresh token tokenNext n b k closed s log hnone hscid hunlocked hheld hcont =>
    intro t c' hc'
    by_cases ht : t = token
    · subst ht
      obtain rfl := Option.some.inj ((AList.lookup_insert _).symm.trans hc')
      exact .inr ⟨q, hq, descends_of_continues hcont⟩
    · exact .inl ⟨c', (AList.lookup_insert_ne ht).symm.trans hc', descends_refl _⟩

theorem stems_ofExcept (r : Rust α) (g : Group) : Stems P g (leftBy ((ofExcept r : Section α) g)) := by
  cases r <;> exact stems_of_conns_eq rfl

end Lineage

section Serving

variable {lib : Library Config} {fromSlice : Group.FromSlice} {a : Acceptor Config} {header : Header}
variable {buf out : Bytes} {recvSize : ℕ} {info : RecvInfo} {unparker : Option Unparker}
variable {env : Env Config} {q : Connection} {g g' : Group}

theorem retry_ne_accept :
    a.retry lib header buf recvSize info ≠ .ok (.ok (.accept q), out) := by
  intro h
  obtain ⟨newScid, -, h⟩ := bind_ok h
  obtain ⟨minted, -, h⟩ := bind_ok h
  cases minted with
  | error err => cases h
  | ok token =>
    dsimp only at h
    split at h <;> cases h

theorem admits_of_handshake
    (h : a.handshake lib header buf recvSize info = .ok (.ok (.accept q), out)) :
    Admits lib a header info q := by
  cases hs : lib.versionIsSupported header.version with
  | false =>
    rw [handshake_of_unsupported _ _ _ _ _ _ hs] at h
    unfold Acceptor.negotiateVersion at h
    rcases hpacket : lib.negotiateVersion header.scid header.dcid buf with ⟨err | n, out'⟩
    · rw [hpacket] at h
      cases h
    · rw [hpacket] at h
      cases h
  | true =>
    cases htoken : header.token with
    | none =>
      rw [handshake_of_token_none _ _ _ _ _ _ hs htoken] at h
      cases h
    | some token =>
      simp only [Acceptor.handshake, hs, htoken, unwrapOption, ok_bind, Bool.not_true,
        Bool.false_eq_true, if_false] at h
      cases token with
      | nil =>
        have hretry : a.retry lib header buf recvSize info = .ok (.ok (.accept q), out) := h
        exact absurd hretry retry_ne_accept
      | cons b token =>
        obtain ⟨odcid, hvalid, h⟩ := bind_ok h
        cases odcid with
        | none => cases h
        | some odcid =>
          dsimp only at h
          split at h
          next conn haccept =>
            cases h
            exact ⟨hs, b :: token, odcid, htoken, by simp, hvalid, haccept⟩
          · cases h

theorem stems_respond {P : Connection → Prop} (token : Token) (buf : Bytes) (info : RecvInfo)
    (env : Env Config) (g : Group) : Stems P g (leftBy (respond token buf info env g)) := by
  apply persists_stems.carries.bind (persists_stems.operates.send token _ _ _)
  intro r g
  rcases r with err | r
  · cases err <;> exact stems_of_conns_eq rfl
  · exact stems_of_conns_eq rfl

theorem stems_greet (lib : Library Config) (header : Header) (buf : Bytes) (recvSize : ℕ)
    (info : RecvInfo) (env : Env Config) (g : Group) :
    Stems (Admits lib env.acceptor header info) g
      (leftBy (greet lib header buf recvSize info env g)) := by
  unfold greet
  cases hanswer : env.acceptor.handshake lib header buf recvSize info with
  | error panic => exact stems_of_conns_eq rfl
  | ok answer =>
    obtain ⟨r, out⟩ := answer
    rw [bind_of_ok (ofExcept_of_ok rfl)]
    rcases r with err | size | conn
    · exact stems_of_conns_eq rfl
    · exact stems_of_conns_eq rfl
    · have hcarries := (persists_stems (P := Admits lib env.acceptor header info)).carries
      apply hcarries.bind (stems_register (admits_of_handshake hanswer) env.registered)
      intro r g
      cases r with
      | error err => exact stems_of_conns_eq rfl
      | ok token =>
        apply hcarries.bind (stems_ofExcept _)
        intro packet g
        apply hcarries.bind (persists_stems.operates.recvWithConnectionId _ packet info none _)
        intro r g
        rcases r with err | r
        · cases err <;> exact stems_of_conns_eq rfl
        · exact stems_respond token out info env g

theorem slice_eq {packet : Bytes} (h : (slice buf 0 recvSize : Rust Bytes) = .ok packet) :
    packet = buf.take recvSize := by
  unfold slice at h
  split at h
  · cases h
    exact List.drop_zero
  · cases h

theorem stems_recvWithAcceptor (lib : Library Config) (fromSlice : Group.FromSlice) (buf : Bytes)
    (recvSize : ℕ) (info : RecvInfo) (unparker : Option Unparker) (env : Env Config) (g : Group) :
    Stems (fun q ↦ ∃ header, fromSlice (buf.take recvSize) = .ok header ∧
        Admits lib env.acceptor header info q) g
      (leftBy (recvWithAcceptor lib fromSlice buf recvSize info unparker env g)) := by
  unfold recvWithAcceptor
  cases hslice : (slice buf 0 recvSize : Rust Bytes) with
  | error panic => exact stems_of_conns_eq rfl
  | ok packet =>
    obtain rfl := slice_eq hslice
    rw [bind_of_ok (ofExcept_of_ok rfl)]
    cases hheader : fromSlice (buf.take recvSize) with
    | error err => exact stems_of_conns_eq rfl
    | ok header =>
      apply persists_stems.carries.bind
        (persists_stems.operates.recvWithConnectionId header.dcid _ info unparker env.received)
      intro r g
      rcases r with err | ⟨token, size⟩
      · cases err with
        | notFound =>
          apply (stems_greet lib header buf recvSize info env g).mono
          intro q hq
          exact ⟨header, rfl, hq⟩
        | _ => exact stems_of_conns_eq rfl
      · exact stems_respond token buf info env g

end Serving

end ZeroRtt.Poll.Admission
