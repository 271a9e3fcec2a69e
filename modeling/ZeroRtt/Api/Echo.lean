import ZeroRtt.Api.Handshakes

namespace ZeroRtt.Api.Echo

open ZeroRtt.Lib.Panics ZeroRtt.Api.Types ZeroRtt.Api.Quiche
open ZeroRtt.Api.RetryToken ZeroRtt.Api.Handshakes

variable {Config : Type} {lib : Library Config} {fromSlice : Bytes → Except QuicheError Header}

/-- How the packets that quiche writes for an acceptor are read again: a version
negotiation has the version 0 and no token, and a retry has a supported version and the
token that was put into it. A version negotiation fails only for lack of room. -/
structure Wire (lib : Library Config) (fromSlice : Bytes → Except QuicheError Header) : Prop where
  unsupported : lib.versionIsSupported 0 = false
  negotiated : ∀ {scid dcid buf n out}, lib.negotiateVersion scid dcid buf = (.ok n, out) →
    ∃ header, fromSlice (out.take n) = .ok header ∧ header.version = 0 ∧ header.token = none
  retried : ∀ {scid dcid newScid token version buf n out},
    lib.retry scid dcid newScid token version buf = (.ok n, out) → token ≠ [] →
    lib.versionIsSupported version = true →
    ∃ header, fromSlice (out.take n) = .ok header ∧ lib.versionIsSupported header.version = true ∧
      header.token = some token
  room : ∀ scid dcid, ∃ len, ∀ buf : Bytes, len ≤ buf.length →
    ∃ n out, lib.negotiateVersion scid dcid buf = (.ok n, out)

def Simple (a : Acceptor Config) : Prop :=
  ∃ sha256 v now, a.addressValidator = SimpleAddressValidator.toAddressValidator sha256 v now

def Generates (lib : Library Config) (a : Acceptor Config) (header : Header) (buf : Bytes)
    (readSize : ℕ) (recvInfo : RecvInfo) (packet : Bytes) : Prop :=
  ∃ n out, a.handshake lib header buf readSize recvInfo = .ok (.ok (.handshake n), out) ∧
    packet = out.take n

/-- A packet is delivered to an acceptor, in whose group nobody knows its destination, and
the two acceptors send the given packets back and forth. -/
inductive Exchange (lib : Library Config) (fromSlice : Bytes → Except QuicheError Header) :
    Acceptor Config → Acceptor Config → Bytes → List Bytes → Prop
  | nil (a b : Acceptor Config) (packet : Bytes) : Exchange lib fromSlice a b packet []
  | cons {a b : Acceptor Config} {packet packet' : Bytes} {packets : List Bytes} {header : Header}
      {buf : Bytes} {recvInfo : RecvInfo} (hparse : fromSlice packet = .ok header)
      (hbuf : buf.take packet.length = packet)
      (hgenerates : Generates lib a header buf packet.length recvInfo packet')
      (h : Exchange lib fromSlice b a packet' packets) :
    Exchange lib fromSlice a b packet (packet' :: packets)

/-- No other acceptor answers the packet with one of its own. -/
def EchoFree (lib : Library Config) (fromSlice : Bytes → Except QuicheError Header)
    (a : Acceptor Config) (packet : Bytes) : Prop :=
  ∀ b, Simple b → ∀ packets, Exchange lib fromSlice b a packet packets → packets = []

section Answers

variable {a : Acceptor Config} {header : Header} {buf : Bytes} {readSize : ℕ} {recvInfo : RecvInfo}
  {packet : Bytes}

theorem mintRetryToken_ne_nil {sha256 : Sha256} {v : SimpleAddressValidator} {now : SystemTime}
    (scid : ConnectionId) {dcid newScid : ConnectionId} {src : SocketAddr} {token : Bytes}
    (h : v.mintRetryToken sha256 now scid dcid newScid src = .ok (.ok token)) : token ≠ [] := by
  obtain ⟨t, -, h⟩ := bind_ok h
  cases h
  intro hnil
  have hlen := congrArg List.length (List.append_eq_nil_iff.mp hnil).2
  rw [FixedBytes.length_eq] at hlen
  cases hlen

theorem generates_of_unsupported (h : lib.versionIsSupported header.version = false) :
    Generates lib a header buf readSize recvInfo packet ↔
      ∃ n out, lib.negotiateVersion header.scid header.dcid buf = (.ok n, out) ∧
        packet = out.take n := by
  unfold Generates
  rw [handshake_of_unsupported _ _ _ _ _ _ h]
  unfold Acceptor.negotiateVersion
  rcases lib.negotiateVersion header.scid header.dcid buf with ⟨err | n, out⟩
  · simp
  · simp

/-- Behind the test of the version only a retry is an answer, and only to an empty token. -/
theorem generates_of_supported (h : lib.versionIsSupported header.version = true)
    (hgenerates : Generates lib a header buf readSize recvInfo packet) :
    header.token = some [] ∧ ∃ newScid token n out,
      a.addressValidator.mintRetryToken header.scid header.dcid newScid recvInfo.fromAddr =
        .ok (.ok token) ∧
      lib.retry header.scid header.dcid newScid token header.version buf = (.ok n, out) ∧
      packet = out.take n := by
  obtain ⟨n, out, hrun, rfl⟩ := hgenerates
  cases handshake_answers hrun with
  | negotiates hversion =>
    rw [h] at hversion
    cases hversion
  | retries htoken hmint hpacket => exact ⟨htoken, _, _, n, out, hmint, hpacket, rfl⟩

theorem generates_retry (h : lib.versionIsSupported header.version = true)
    (htoken : header.token = some []) {newScid : ConnectionId} {token : Bytes} {n : ℕ} {out : Bytes}
    (hrand : lib.randBytes 20 = .ok newScid)
    (hmint : a.addressValidator.mintRetryToken header.scid header.dcid newScid recvInfo.fromAddr =
      .ok (.ok token))
    (hpacket : lib.retry header.scid header.dcid newScid token header.version buf = (.ok n, out)) :
    Generates lib a header buf readSize recvInfo (out.take n) := by
  refine ⟨n, out, ?_, rfl⟩
  simp only [Acceptor.handshake, h, htoken, unwrapOption, ok_bind, Bool.not_true,
    Bool.false_eq_true, if_false, List.isEmpty_nil, if_true, Acceptor.retry, Library.randomConnId,
    hrand, unwrapResult, hmint, hpacket, pure_eq_ok]

theorem Wire.negotiation_read (hwire : Wire lib fromSlice)
    (h : lib.versionIsSupported header.version = false)
    (hgenerates : Generates lib a header buf readSize recvInfo packet) :
    ∃ header', fromSlice packet = .ok header' ∧
      lib.versionIsSupported header'.version = false := by
  obtain ⟨n, out, hpacket, rfl⟩ := (generates_of_unsupported h).mp hgenerates
  obtain ⟨header', hparse, hversion, -⟩ := hwire.negotiated hpacket
  exact ⟨header', hparse, by rw [hversion]; exact hwire.unsupported⟩

theorem Wire.retry_read (hwire : Wire lib fromSlice) (ha : Simple a)
    (h : lib.versionIsSupported header.version = true)
    (hgenerates : Generates lib a header buf readSize recvInfo packet) :
    ∃ header', fromSlice packet = .ok header' ∧ lib.versionIsSupported header'.version = true ∧
      header'.token ≠ some [] := by
  obtain ⟨-, newScid, token, n, out, hmint, hpacket, rfl⟩ := generates_of_supported h hgenerates
  obtain ⟨sha256, v, now, hv⟩ := ha
  rw [hv] at hmint
  have htoken := mintRetryToken_ne_nil header.scid hmint
  obtain ⟨header', hparse, hversion, htoken'⟩ := hwire.retried hpacket htoken h
  refine ⟨header', hparse, hversion, ?_⟩
  rw [htoken']
  exact fun hnil ↦ htoken (Option.some.inj hnil)

end Answers

section Exchanges

variable {a b : Acceptor Config} {header : Header} {packet : Bytes}

theorem Exchange.eq_nil (hparse : fromSlice packet = .ok header)
    (hversion : lib.versionIsSupported header.version = true) (htoken : header.token ≠ some [])
    {packets : List Bytes} (h : Exchange lib fromSlice a b packet packets) : packets = [] := by
  cases h with
  | nil => rfl
  | cons hparse' hbuf hgenerates h =>
    rw [hparse] at hparse'
    cases hparse'
    exact absurd (generates_of_supported hversion hgenerates).1 htoken

theorem Wire.exchange_endless (hwire : Wire lib fromSlice) (hparse : fromSlice packet = .ok header)
    (hversion : lib.versionIsSupported header.version = false) (recvInfo : RecvInfo) (n : ℕ) :
    ∃ packets, packets.length = n ∧ Exchange lib fromSlice a b packet packets := by
  induction n generalizing a b packet header with
  | zero => exact ⟨[], rfl, .nil a b packet⟩
  | succ n ih =>
    obtain ⟨len, hroom⟩ := hwire.room header.scid header.dcid
    obtain ⟨m, out, hpacket⟩ := hroom (packet ++ List.replicate len 0) (by simp)
    have hgenerates : Generates lib a header (packet ++ List.replicate len 0) packet.length recvInfo
        (out.take m) := (generates_of_unsupported hversion).mpr ⟨m, out, hpacket, rfl⟩
    obtain ⟨header', hparse', hversion'⟩ := hwire.negotiation_read hversion hgenerates
    obtain ⟨packets, hlength, hexchange⟩ := ih (a := b) (b := a) hparse' hversion'
    refine ⟨out.take m :: packets, by rw [List.length_cons, hlength], ?_⟩
    exact .cons hparse (List.take_left) hgenerates hexchange

end Exchanges

/-- The answer of an acceptor is not answered by another one exactly if it was asked in a
version that it supports. Otherwise it answers with a version negotiation, and so does the
other one, without end. -/
theorem echo_free_iff (hwire : Wire lib fromSlice) {a : Acceptor Config} (ha : Simple a)
    {header : Header} {buf : Bytes} {readSize : ℕ} {recvInfo : RecvInfo} {packet : Bytes}
    (h : Generates lib a header buf readSize recvInfo packet) :
    EchoFree lib fromSlice a packet ↔ lib.versionIsSupported header.version = true := by
  constructor
  · intro hfree
    by_contra hversion
    obtain ⟨header', hparse, hversion'⟩ :=
      hwire.negotiation_read (eq_false_of_ne_true hversion) h
    obtain ⟨packets, hlength, hexchange⟩ :=
      hwire.exchange_endless (a := a) (b := a) hparse hversion' recvInfo 1
    rw [hfree a ha packets hexchange] at hlength
    cases hlength
  · intro hversion b hb packets hexchange
    obtain ⟨header', hparse, hversion', htoken⟩ := hwire.retry_read ha hversion h
    exact hexchange.eq_nil hparse hversion' htoken

section Examples

def field (id : ConnectionId) : Bytes := UInt8.ofNat id.length :: id

def readField : Bytes → ConnectionId × Bytes
  | [] => ([], [])
  | n :: rest => (rest.take n.toNat, rest.drop n.toNat)

def write (packet buf : Bytes) : Except QuicheError ℕ × Bytes :=
  if packet.length ≤ buf.length then (.ok packet.length, packet ++ buf.drop packet.length)
  else (.error (.other (-2)), buf)

/-- The layout of quiche's packets, with a blank integrity tag. -/
def wireLibrary : Library Unit where
  versionIsSupported version := version == 1
  negotiateVersion scid dcid buf :=
    write ([0x80, 0, 0, 0, 0] ++ (field scid ++ (field dcid ++ [0, 0, 0, 1]))) buf
  retry scid _ newScid token _ buf :=
    if scid.length ≤ 20 ∧ newScid.length ≤ 20 then
      write ([0xf0, 0, 0, 0, 1] ++ (field scid ++ (field newScid ++ (token ++ List.replicate 16 0)))) buf
    else (.error (.other (-2)), buf)
  accept _ _ _ _ _ := .error (.other (-7))
  randBytes n := .ok (List.replicate n 0)

def wireFromSlice (bytes : Bytes) : Except QuicheError Header :=
  let (dcid, rest) := readField (bytes.drop 5)
  let (scid, rest) := readField rest
  if bytes.take 5 = [0x80, 0, 0, 0, 0] then
    .ok ⟨.versionNegotiation, 0, dcid, scid, none, by decide, fun _ ↦ rfl⟩
  else if bytes.take 5 = [0xf0, 0, 0, 0, 1] then
    .ok ⟨.retry, 1, dcid, scid, some (rest.take (rest.length - 16)), fun _ ↦ .inr rfl, by decide⟩
  else .error (.other (-3))

theorem readField_field {id : ConnectionId} (h : id.length ≤ 20) (rest : Bytes) :
    readField (field id ++ rest) = (id, rest) := by
  have hlen : (UInt8.ofNat id.length).toNat = id.length := by
    rw [UInt8.toNat_ofNat']
    omega
  simp [readField, field, hlen]

theorem write_of_le {packet buf : Bytes} (h : packet.length ≤ buf.length) :
    write packet buf = (.ok packet.length, packet ++ buf.drop packet.length) := if_pos h

theorem write_eq {packet buf out : Bytes} {n : ℕ} (h : write packet buf = (.ok n, out)) :
    out.take n = packet := by
  unfold write at h
  split at h
  · cases h
    exact List.take_left
  · cases h

theorem wireFromSlice_retry {scid newScid : ConnectionId} (hscid : scid.length ≤ 20)
    (hnew : newScid.length ≤ 20) (token : Bytes) :
    wireFromSlice ([0xf0, 0, 0, 0, 1] ++
        (field scid ++ (field newScid ++ (token ++ List.replicate 16 0)))) =
      .ok ⟨.retry, 1, scid, newScid, some token, fun _ ↦ .inr rfl, by decide⟩ := by
  simp [wireFromSlice, readField_field hscid, readField_field hnew]

theorem wireLibrary_negotiates {scid dcid : ConnectionId} {buf : Bytes}
    (h : scid.length + dcid.length + 11 ≤ buf.length) :
    ∃ n out, wireLibrary.negotiateVersion scid dcid buf = (.ok n, out) :=
  ⟨_, _, write_of_le (by simp [field]; omega)⟩

theorem wireLibrary_retries {scid dcid newScid : ConnectionId} {token buf : Bytes} {version : ℕ}
    (hscid : scid.length ≤ 20) (hnew : newScid.length ≤ 20)
    (h : scid.length + newScid.length + token.length + 23 ≤ buf.length) :
    ∃ n out, wireLibrary.retry scid dcid newScid token version buf = (.ok n, out) :=
  ⟨_, _, (if_pos ⟨hscid, hnew⟩).trans (write_of_le (by simp [field]; omega))⟩

theorem wire_wireLibrary : Wire wireLibrary wireFromSlice where
  unsupported := rfl
  negotiated := by
    intro scid dcid buf n out h
    rw [write_eq h]
    exact ⟨_, rfl, rfl, rfl⟩
  retried := by
    intro scid dcid newScid token version buf n out h _ _
    simp only [wireLibrary] at h
    split at h
    next hle =>
      rw [write_eq h]
      exact ⟨_, wireFromSlice_retry hle.1 hle.2 token, rfl, rfl⟩
    · cases h
  room := by
    intro scid dcid
    exact ⟨scid.length + dcid.length + 11, fun buf hlen ↦ wireLibrary_negotiates hlen⟩

def simpleAcceptor : Acceptor Unit where
  config := ()
  addressValidator := SimpleAddressValidator.toAddressValidator
    (fun _ ↦ .zero 32) ⟨.zero 20, Duration.fromSecs 60⟩
    SimpleAddressValidator.exampleClock

theorem simple_simpleAcceptor : Simple simpleAcceptor := ⟨_, _, _, rfl⟩

theorem echo_free_example :
    ∃ packet, Generates wireLibrary simpleAcceptor
        ⟨.initial, 1, List.replicate 20 7, [], some [], by decide, by decide⟩
        (List.replicate 1600 0) 1200 exampleRecvInfo packet ∧
      EchoFree wireLibrary wireFromSlice simpleAcceptor packet := by
  obtain ⟨token, hmint, hlength⟩ : ∃ token, SimpleAddressValidator.mintRetryToken
      (fun _ ↦ .zero 32) ⟨.zero 20, Duration.fromSecs 60⟩ SimpleAddressValidator.exampleClock []
      (List.replicate 20 7) (List.replicate 20 0) exampleRecvInfo.fromAddr = .ok (.ok token) ∧
      token.length = 64 := by
    refine ⟨_, SimpleAddressValidator.mintRetryToken_eq _ _ _ _ _
      SimpleAddressValidator.exampleClock_secs _ _, ?_⟩
    simp only [List.length_append, toBeBytes_length, List.length_replicate, FixedBytes.length_eq]
    rfl
  have hroom : ([] : ConnectionId).length + (List.replicate 20 (0 : UInt8)).length + token.length +
      23 ≤ (List.replicate 1600 (0 : UInt8)).length := by
    simp only [List.length_replicate, List.length_nil, hlength]
    decide
  obtain ⟨n, out, hretry⟩ := wireLibrary_retries (by decide) (by decide) hroom
  have hpacket : Generates wireLibrary simpleAcceptor
      ⟨.initial, 1, List.replicate 20 7, [], some [], by decide, by decide⟩
      (List.replicate 1600 0) 1200 exampleRecvInfo (out.take n) :=
    generates_retry rfl rfl rfl hmint hretry
  exact ⟨_, hpacket, (echo_free_iff wire_wireLibrary simple_simpleAcceptor hpacket).mpr rfl⟩

/-- A packet in a version that neither of them knows, with the address of the one server
as that of its sender, keeps two servers busy for ever. -/
theorem echo_endless_example :
    ∃ packet, Generates wireLibrary simpleAcceptor
        ⟨.initial, 0xbabababa, List.replicate 20 7, [], some [], by decide, by decide⟩
        (List.replicate 1600 0) 1200 exampleRecvInfo packet ∧
      ¬ EchoFree wireLibrary wireFromSlice simpleAcceptor packet ∧
      ∀ n, ∃ packets, packets.length = n ∧
        Exchange wireLibrary wireFromSlice simpleAcceptor simpleAcceptor packet packets := by
  have hroom : ([] : ConnectionId).length + (List.replicate 20 (7 : UInt8)).length + 11 ≤
      (List.replicate 1600 (0 : UInt8)).length := by
    simp only [List.length_replicate, List.length_nil]
    decide
  obtain ⟨n, out, hnegotiated⟩ := wireLibrary_negotiates hroom
  have hpacket : Generates wireLibrary simpleAcceptor
      ⟨.initial, 0xbabababa, List.replicate 20 7, [], some [], by decide, by decide⟩
      (List.replicate 1600 0) 1200 exampleRecvInfo (out.take n) :=
    (generates_of_unsupported rfl).mpr ⟨n, out, hnegotiated, rfl⟩
  obtain ⟨header, hparse, hversion⟩ := wire_wireLibrary.negotiation_read rfl hpacket
  have hendless := fun n ↦ wire_wireLibrary.exchange_endless (a := simpleAcceptor)
    (b := simpleAcceptor) hparse hversion exampleRecvInfo n
  refine ⟨_, hpacket, fun hfree ↦ ?_, hendless⟩
  obtain ⟨packets, hlength, hexchange⟩ := hendless 1
  rw [hfree _ simple_simpleAcceptor packets hexchange] at hlength
  cases hlength

end Examples

end ZeroRtt.Api.Echo
