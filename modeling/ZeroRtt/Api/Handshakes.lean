import ZeroRtt.Api.Quiche
import ZeroRtt.Api.RetryToken

namespace ZeroRtt.Api.Handshakes

open ZeroRtt.Lib.Panics ZeroRtt.Api.Types ZeroRtt.Api.Quiche ZeroRtt.Api.RetryToken

inductive PacketType
  | initial
  | retry
  | handshake
  | zeroRtt
  | versionNegotiation
  | short
deriving DecidableEq, Repr

/-- A header that `quiche::Header::from_slice` can return. -/
structure Header where
  ty : PacketType
  version : ℕ
  dcid : ConnectionId
  scid : ConnectionId
  token : Option Bytes
  token_ty : token.isSome → ty = .initial ∨ ty = .retry
  version_eq_zero : ty = .short ∨ ty = .versionNegotiation → version = 0

/-- The free functions of `quiche` and `boring` that an acceptor calls. Those
that write a packet return the buffer with it. -/
structure Library (Config : Type) where
  versionIsSupported : ℕ → Bool
  negotiateVersion (scid dcid : ConnectionId) (buf : Bytes) : Except QuicheError ℕ × Bytes
  retry (scid dcid newScid : ConnectionId) (token : Bytes) (version : ℕ) (buf : Bytes) :
    Except QuicheError ℕ × Bytes
  accept (scid : ConnectionId) (odcid : Option ConnectionId) (localAddr peer : SocketAddr)
    (config : Config) : Except QuicheError Connection
  randBytes : ℕ → Except Unit Bytes

variable {Config : Type}

def Library.randomConnId (lib : Library Config) : Rust ConnectionId :=
  unwrapResult (lib.randBytes 20)

inductive Handshake
  | handshake (sendSize : ℕ)
  | accept (conn : Connection)

structure Acceptor (Config : Type) where
  config : Config
  addressValidator : AddressValidator

namespace Acceptor

variable (lib : Library Config) (a : Acceptor Config)

def retry (header : Header) (buf : Bytes) (_recvSize : ℕ) (recvInfo : RecvInfo) :
    Rust (Except Error Handshake × Bytes) := do
  let newScid ← lib.randomConnId
  match ← a.addressValidator.mintRetryToken header.scid header.dcid newScid recvInfo.fromAddr with
  | .error err => return (.error err, buf)
  | .ok token =>
    match lib.retry header.scid header.dcid newScid token header.version buf with
    | (.ok sendSize, buf) => return (.ok (.handshake sendSize), buf)
    | (.error err, buf) => return (.error (.quiche err), buf)

def negotiateVersion (header : Header) (buf : Bytes) (_recvSize : ℕ) (_recvInfo : RecvInfo) :
    Except Error Handshake × Bytes :=
  match lib.negotiateVersion header.scid header.dcid buf with
  | (.ok sendSize, buf) => (.ok (.handshake sendSize), buf)
  | (.error err, buf) => (.error (.quiche err), buf)

def handshake (header : Header) (buf : Bytes) (readSize : ℕ) (recvInfo : RecvInfo) :
    Rust (Except Error Handshake × Bytes) := do
  if !lib.versionIsSupported header.version then
    return negotiateVersion lib header buf readSize recvInfo
  let token ← unwrapOption header.token
  if token.isEmpty then
    return ← a.retry lib header buf readSize recvInfo
  match ← a.addressValidator.validateAddress header.scid header.dcid recvInfo.fromAddr token with
  | none => return (.error .validateAddress, buf)
  | some odcid =>
    match lib.accept header.dcid (some odcid) recvInfo.toAddr recvInfo.fromAddr a.config with
    | .ok conn => return (.ok (.accept conn), buf)
    | .error err => return (.error (.quiche err), buf)

end Acceptor

structure Total (v : AddressValidator) : Prop where
  mint : ∀ scid dcid newScid src, ∃ r, v.mintRetryToken scid dcid newScid src = .ok r
  validate : ∀ scid dcid src token, ∃ r, v.validateAddress scid dcid src token = .ok r

variable (lib : Library Config) (a : Acceptor Config)
variable (header : Header) (buf : Bytes) (readSize : ℕ) (recvInfo : RecvInfo)

theorem retry_returns (hv : Total a.addressValidator) (hrand : ∃ id, lib.randBytes 20 = .ok id) :
    ∃ r, a.retry lib header buf readSize recvInfo = .ok r := by
  obtain ⟨id, hid⟩ := hrand
  obtain ⟨r, hr⟩ := hv.mint header.scid header.dcid id recvInfo.fromAddr
  simp only [Acceptor.retry, Library.randomConnId, hid, unwrapResult, ok_bind, hr]
  cases r with
  | error err => exact ⟨_, rfl⟩
  | ok token =>
    dsimp only
    rcases lib.retry header.scid header.dcid id token header.version buf with ⟨err | size, buf'⟩
    · exact ⟨_, rfl⟩
    · exact ⟨_, rfl⟩

theorem handshake_of_unsupported (h : lib.versionIsSupported header.version = false) :
    a.handshake lib header buf readSize recvInfo =
      .ok (Acceptor.negotiateVersion lib header buf readSize recvInfo) := by
  simp [Acceptor.handshake, h]

theorem handshake_of_token_none (h : lib.versionIsSupported header.version = true)
    (ht : header.token = none) :
    a.handshake lib header buf readSize recvInfo = .error .unwrapNone := by
  simp [Acceptor.handshake, h, ht, unwrapOption]

theorem handshake_of_token_some (hv : Total a.addressValidator)
    (hrand : ∃ id, lib.randBytes 20 = .ok id) (h : lib.versionIsSupported header.version = true)
    {token : Bytes} (ht : header.token = some token) :
    ∃ r, a.handshake lib header buf readSize recvInfo = .ok r := by
  simp only [Acceptor.handshake, h, ht, unwrapOption, ok_bind, Bool.not_true, Bool.false_eq_true,
    if_false]
  cases token with
  | nil =>
    obtain ⟨r, hr⟩ := retry_returns lib a header buf readSize recvInfo hv hrand
    exact ⟨r, by simp [hr]⟩
  | cons b token =>
    obtain ⟨r, hr⟩ := hv.validate header.scid header.dcid recvInfo.fromAddr (b :: token)
    simp only [List.isEmpty_cons, Bool.false_eq_true, if_false, hr, ok_bind]
    cases r with
    | none => exact ⟨_, rfl⟩
    | some odcid =>
      dsimp only
      cases lib.accept header.dcid (some odcid) recvInfo.toAddr recvInfo.fromAddr a.config with
      | error err => exact ⟨_, rfl⟩
      | ok conn => exact ⟨_, rfl⟩

/-- The acceptor returns on exactly the packets that it answers with a version
negotiation or that carry a token. Every unknown connection id is routed here,
so the others are not only a matter of form. -/
theorem handshake_returns_iff (hv : Total a.addressValidator)
    (hrand : ∃ id, lib.randBytes 20 = .ok id) :
    (∃ r, a.handshake lib header buf readSize recvInfo = .ok r) ↔
      lib.versionIsSupported header.version = false ∨ header.token.isSome := by
  cases hs : lib.versionIsSupported header.version with
  | false => exact ⟨fun _ ↦ .inl rfl, fun _ ↦
      ⟨_, handshake_of_unsupported lib a header buf readSize recvInfo hs⟩⟩
  | true =>
    cases ht : header.token with
    | none =>
      rw [handshake_of_token_none lib a header buf readSize recvInfo hs ht]
      simp
    | some token =>
      have h := handshake_of_token_some lib a header buf readSize recvInfo hv hrand hs ht
      exact ⟨fun _ ↦ .inr rfl, fun _ ↦ h⟩

inductive Answers : Except Error Handshake → Bytes → Prop
  | negotiates {n : ℕ} {out : Bytes} : lib.versionIsSupported header.version = false →
      lib.negotiateVersion header.scid header.dcid buf = (.ok n, out) →
      Answers (.ok (.handshake n)) out
  | retries {newScid : ConnectionId} {token : Bytes} {n : ℕ} {out : Bytes} :
      header.token = some [] →
      a.addressValidator.mintRetryToken header.scid header.dcid newScid recvInfo.fromAddr =
        .ok (.ok token) →
      lib.retry header.scid header.dcid newScid token header.version buf = (.ok n, out) →
      Answers (.ok (.handshake n)) out
  | accepts {odcid : ConnectionId} {conn : Connection} :
      lib.accept header.dcid (some odcid) recvInfo.toAddr recvInfo.fromAddr a.config = .ok conn →
      Answers (.ok (.accept conn)) buf
  | fails (err : QuicheError) (out : Bytes) : Answers (.error (.quiche err)) out
  | invalid : Answers (.error .validateAddress) buf
  | unminted {newScid : ConnectionId} {err : Error} :
      a.addressValidator.mintRetryToken header.scid header.dcid newScid recvInfo.fromAddr =
        .ok (.error err) → Answers (.error err) buf

variable {lib a header buf readSize recvInfo}

theorem retry_answers (htoken : header.token = some []) {r : Except Error Handshake} {out : Bytes}
    (h : a.retry lib header buf readSize recvInfo = .ok (r, out)) :
    Answers lib a header buf recvInfo r out := by
  obtain ⟨newScid, -, h⟩ := bind_ok h
  obtain ⟨minted, hmint, h⟩ := bind_ok h
  cases minted with
  | error err =>
    cases h
    exact .unminted hmint
  | ok token =>
    dsimp only at h
    rcases hpacket : lib.retry header.scid header.dcid newScid token header.version buf with
      ⟨err | n, out'⟩
    · rw [hpacket] at h
      cases h
      exact .fails ..
    · rw [hpacket] at h
      cases h
      exact .retries htoken hmint hpacket

theorem handshake_answers {r : Except Error Handshake} {out : Bytes}
    (h : a.handshake lib header buf readSize recvInfo = .ok (r, out)) :
    Answers lib a header buf recvInfo r out := by
  cases hs : lib.versionIsSupported header.version with
  | false =>
    rw [handshake_of_unsupported _ _ _ _ _ _ hs] at h
    unfold Acceptor.negotiateVersion at h
    rcases hpacket : lib.negotiateVersion header.scid header.dcid buf with ⟨err | n, out'⟩
    · rw [hpacket] at h
      cases h
      exact .fails ..
    · rw [hpacket] at h
      cases h
      exact .negotiates hs hpacket
  | true =>
    cases htoken : header.token with
    | none =>
      rw [handshake_of_token_none _ _ _ _ _ _ hs htoken] at h
      cases h
    | some token =>
      simp only [Acceptor.handshake, hs, htoken, unwrapOption, ok_bind, Bool.not_true,
        Bool.false_eq_true, if_false] at h
      cases token with
      | nil =>
        have hretry : a.retry lib header buf readSize recvInfo = .ok (r, out) := h
        exact retry_answers htoken hretry
      | cons b token =>
        obtain ⟨odcid, -, h⟩ := bind_ok h
        cases odcid with
        | none =>
          cases h
          exact .invalid
        | some odcid =>
          dsimp only at h
          cases haccept : lib.accept header.dcid (some odcid) recvInfo.toAddr recvInfo.fromAddr
              a.config with
          | error err =>
            rw [haccept] at h
            cases h
            exact .fails ..
          | ok conn =>
            rw [haccept] at h
            cases h
            exact .accepts haccept

section Answerable

variable (lib a header buf readSize recvInfo)

/-- The acceptor has an answer to the packet: it negotiates the version, or there is a
token, and neither the source of random bytes nor the validator fails on it. -/
def Answerable : Prop :=
  lib.versionIsSupported header.version = false ∨
  (header.token = some [] ∧ ∃ newScid r, lib.randBytes 20 = .ok newScid ∧
    a.addressValidator.mintRetryToken header.scid header.dcid newScid recvInfo.fromAddr = .ok r ∧
    Settled r) ∨
  ∃ b token r, header.token = some (b :: token) ∧
    a.addressValidator.validateAddress header.scid header.dcid recvInfo.fromAddr (b :: token) = .ok r

theorem settled_negotiateVersion :
    Settled (Acceptor.negotiateVersion lib header buf readSize recvInfo).1 := by
  unfold Acceptor.negotiateVersion
  rcases lib.negotiateVersion header.scid header.dcid buf with ⟨err | n, out⟩
  · exact settled_quiche err
  · exact settled_ok _

theorem retry_settles_iff :
    (∃ r out, a.retry lib header buf readSize recvInfo = .ok (r, out) ∧ Settled r) ↔
      ∃ newScid r, lib.randBytes 20 = .ok newScid ∧
        a.addressValidator.mintRetryToken header.scid header.dcid newScid recvInfo.fromAddr = .ok r ∧
        Settled r := by
  constructor
  · rintro ⟨r, out, hrun, hsettled⟩
    obtain ⟨newScid, hrand, hrun⟩ := bind_ok hrun
    obtain ⟨minted, hmint, hrun⟩ := bind_ok hrun
    cases hbytes : lib.randBytes 20 with
    | error err =>
      rw [Library.randomConnId, hbytes] at hrand
      cases hrand
    | ok id =>
      rw [Library.randomConnId, hbytes] at hrand
      cases hrand
      refine ⟨newScid, minted, rfl, hmint, ?_⟩
      cases minted with
      | error err =>
        cases hrun
        exact hsettled.error
      | ok token => exact settled_ok token
  · rintro ⟨newScid, minted, hrand, hmint, hsettled⟩
    simp only [Acceptor.retry, Library.randomConnId, hrand, unwrapResult, ok_bind, hmint]
    cases minted with
    | error err => exact ⟨_, _, rfl, hsettled.error⟩
    | ok token =>
      dsimp only
      rcases lib.retry header.scid header.dcid newScid token header.version buf with ⟨err | n, out⟩
      · exact ⟨_, _, rfl, settled_quiche err⟩
      · exact ⟨_, _, rfl, settled_ok _⟩

theorem handshake_settles_iff :
    (∃ r out, a.handshake lib header buf readSize recvInfo = .ok (r, out) ∧ Settled r) ↔
      Answerable lib a header recvInfo := by
  unfold Answerable
  cases hs : lib.versionIsSupported header.version with
  | false =>
    rw [handshake_of_unsupported _ _ _ _ _ _ hs]
    exact ⟨fun _ ↦ .inl rfl, fun _ ↦
      ⟨_, _, rfl, settled_negotiateVersion lib header buf readSize recvInfo⟩⟩
  | true =>
    cases ht : header.token with
    | none =>
      rw [handshake_of_token_none _ _ _ _ _ _ hs ht]
      simp
    | some token =>
      cases token with
      | nil =>
        have hretry : a.handshake lib header buf readSize recvInfo =
            a.retry lib header buf readSize recvInfo := by
          simp [Acceptor.handshake, hs, ht, unwrapOption]
        rw [hretry, retry_settles_iff]
        simp
      | cons b token =>
        simp only [Acceptor.handshake, hs, ht, unwrapOption, ok_bind, Bool.not_true,
          Bool.false_eq_true, if_false, List.isEmpty_cons]
        cases hvalid : a.addressValidator.validateAddress header.scid header.dcid recvInfo.fromAddr
            (b :: token) with
        | error panic => simp [hvalid]
        | ok odcid =>
          refine ⟨fun _ ↦ .inr (.inr ⟨b, token, odcid, rfl, hvalid⟩), fun _ ↦ ?_⟩
          rw [ok_bind]
          cases odcid with
          | none => exact ⟨_, _, rfl, by simp, by simp⟩
          | some odcid =>
            dsimp only
            cases lib.accept header.dcid (some odcid) recvInfo.toAddr recvInfo.fromAddr a.config with
            | error err => exact ⟨_, _, rfl, settled_quiche err⟩
            | ok conn => exact ⟨_, _, rfl, settled_ok _⟩

end Answerable

def exampleLibrary : Library Unit where
  versionIsSupported version := version == 1
  negotiateVersion _ _ buf := (.error (.other (-2)), buf)
  retry _ _ _ _ _ buf := (.error (.other (-2)), buf)
  accept _ _ _ _ _ := .error (.other (-7))
  randBytes n := .ok (List.replicate n 0)

def exampleAcceptor : Acceptor Unit where
  config := ()
  addressValidator :=
    { mintRetryToken := fun _ _ _ _ ↦ .ok (.ok [])
      validateAddress := fun _ _ _ _ ↦ .ok none }

def exampleRecvInfo : RecvInfo := ⟨⟨.localhost, 2⟩, ⟨.localhost, 1⟩⟩

theorem handshake_returns_example :
    ∃ r, exampleAcceptor.handshake exampleLibrary
      ⟨.initial, 1, List.replicate 20 7, [], some [0], by decide, by decide⟩ [] 0
      exampleRecvInfo = .ok r :=
  (handshake_returns_iff _ _ _ _ _ _
    ⟨fun _ _ _ _ ↦ ⟨_, rfl⟩, fun _ _ _ _ ↦ ⟨_, rfl⟩⟩ ⟨_, rfl⟩).mpr (.inr rfl)

/-- A Handshake packet of version 1 for a connection that is not registered,
for example one that was deregistered a moment ago. -/
theorem handshake_panics_example :
    ¬ ∃ r, exampleAcceptor.handshake exampleLibrary
      ⟨.handshake, 1, List.replicate 20 7, [], none, by decide, by decide⟩ [] 0
      exampleRecvInfo = .ok r := by
  rw [handshake_of_token_none _ _ _ _ _ _ rfl rfl]
  rintro ⟨r, hr⟩
  cases hr

end ZeroRtt.Api.Handshakes
