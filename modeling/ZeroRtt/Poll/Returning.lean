import ZeroRtt.Poll.Admission

namespace ZeroRtt.Poll.Returning

open ZeroRtt.Lib.Panics ZeroRtt.Lib.Containers
open ZeroRtt.Api.Types ZeroRtt.Api.Quiche ZeroRtt.Api.Handshakes ZeroRtt.Api.RetryToken
open ZeroRtt.Api.RetryToken.SimpleAddressValidator
open ZeroRtt.Poll.Conn ZeroRtt.Poll.Sections ZeroRtt.Poll.Routing ZeroRtt.Poll.Serving
open ZeroRtt.Poll.Admission

variable {Config : Type}

def simple (sha256 : Sha256) (v : SimpleAddressValidator) (config : Config) (now : SystemTime) :
    Acceptor Config :=
  ⟨config, v.toAddressValidator sha256 now⟩

/-- A packet that asks for a connection with this token, none if it is empty. -/
structure Hello (lib : Library Config) (fromSlice : Group.FromSlice) (buf : Bytes) (recvSize : ℕ)
    (header : Header) (token : Bytes) : Prop where
  size : recvSize ≤ buf.length
  parsed : fromSlice (buf.take recvSize) = .ok header
  supported : lib.versionIsSupported header.version = true
  token : header.token = some token

def retried (lib : Library Config) (header : Header) (newScid : ConnectionId) (token buf : Bytes)
    (info : RecvInfo) (now : Instant) : Except Error (ℕ × SendInfo) × Bytes :=
  match lib.retry header.scid header.dcid newScid token header.version buf with
  | (.ok n, out) => (.ok (n, reply info now), out)
  | (.error err, out) => (.error (.quiche err), out)

def answered (lib : Library Config) (dcid : ConnectionId) (info : RecvInfo) (config : Config) :
    Option ConnectionId → Except Error Handshake
  | none => .error .validateAddress
  | some odcid =>
    match lib.accept dcid (some odcid) info.toAddr info.fromAddr config with
    | .ok conn => .ok (.accept conn)
    | .error err => .error (.quiche err)

/-- The connection gets a token of its own, packets find it there, and the first one is handed to
it before anything is sent for it. -/
def Enters (lib : Library Config) (fromSlice : Group.FromSlice) (buf : Bytes) (recvSize : ℕ)
    (info : RecvInfo) (unparker : Option Unparker) (env : Env Config) (g : Group) (q : Connection) :
    Prop :=
  ∃ token g₁ g₂ c, Group.register q env.registered g = .ok (.ok token) g₁ ∧ Arrives g g₁ token q ∧
    g₁.state.conns.lookup token = some c ∧ Descends q c.wrapped ∧
    Group.recvWithConnectionId q.sourceId (buf.take recvSize) info none env.first g₁ =
      .ok (received token (c.wrapped.call (.recv (buf.take recvSize) info)).1) g₂ ∧
    recvWithAcceptor lib fromSlice buf recvSize info unparker env g =
      match (c.wrapped.call (.recv (buf.take recvSize) info)).1 with
      | .ok _ => respond token buf info env g₂
      | .error err => .ok (.error (.quiche err), buf) g₂

section Validation

variable (sha256 : Sha256) (v : SimpleAddressValidator)

def minted (ip : IpAddr) (secs : ℕ) (odcid newScid : ConnectionId) : Bytes :=
  let body := ip.octets ++ toBeBytes secs ++ odcid
  body ++ (sha256 (v.seed.bytes ++ body ++ newScid)).bytes

variable {sha256 v} {odcid newScid : ConnectionId} {src src' : SocketAddr}
variable {mintedAt now : SystemTime} {t n : Duration}

theorem mint_eq (scid : ConnectionId) (ht : mintedAt.durationSinceEpoch = .ok t) :
    v.mintRetryToken sha256 mintedAt scid odcid newScid src =
      .ok (.ok (minted sha256 v src.ip t.asSecs odcid newScid)) := by
  rw [mintRetryToken_eq sha256 v mintedAt scid src ht odcid newScid, message, minted]
  simp only [List.append_assoc]

theorem minted_ne_nil {ip : IpAddr} {secs : ℕ} : minted sha256 v ip secs odcid newScid ≠ [] := by
  intro h
  have hlen := congrArg List.length h
  simp only [minted, List.length_append, toBeBytes_length, List.length_nil] at hlen
  omega

theorem validate_minted (scid : ConnectionId) (ht : mintedAt.durationSinceEpoch = .ok t)
    (hn : now.durationSinceEpoch = .ok n) (hle : t ≤ n) (hip : src'.ip = src.ip) :
    v.validateAddress sha256 now scid newScid src' (minted sha256 v src.ip t.asSecs odcid newScid) =
      .ok (if n - Duration.fromSecs t.asSecs ≤ v.expirationInterval then some odcid else none) := by
  have hsecs : t.asSecs < 2 ^ 64 := Nat.lt_trans (SystemTime.asSecs_lt ht) (by decide)
  have hstamp := timestamp_minted hsecs src'.ip odcid
  have hearly : timestamp src'.ip (src'.ip.octets ++ toBeBytes t.asSecs ++ odcid) ≤ n := by
    rw [hstamp]
    exact Nat.le_trans (Duration.fromSecs_asSecs_le t) hle
  have hsigned := validateAddress_signed sha256 v now scid newScid src' (by simp)
    ⟨toBeBytes t.asSecs ++ odcid, by rw [List.append_assoc]⟩ hn hearly
  rw [hstamp, List.drop_left' (by simp), hip] at hsigned
  exact hsigned

end Validation

section Serving

variable {lib : Library Config} {fromSlice : Group.FromSlice} {header : Header} {buf token : Bytes}
variable {recvSize : ℕ} {info : RecvInfo} {unparker : Option Unparker} {env : Env Config}
variable {newScid : ConnectionId} {g g' : Group} {q : Connection}

theorem recvWithAcceptor_hello (h : Hello lib fromSlice buf recvSize header token)
    (hunknown : g.scids.lookup header.dcid = none) :
    recvWithAcceptor lib fromSlice buf recvSize info unparker env g =
      greet lib header buf recvSize info env g := by
  rw [recvWithAcceptor_of_header h.size h.parsed,
    bind_of_ok (recvWithConnectionId_of_none hunknown _ _ _ _)]

theorem greet_retries (h : Hello lib fromSlice buf recvSize header [])
    (hrand : lib.randBytes 20 = .ok newScid)
    (hmint : env.acceptor.addressValidator.mintRetryToken header.scid header.dcid newScid
      info.fromAddr = .ok (.ok token)) :
    greet lib header buf recvSize info env g =
      .ok (retried lib header newScid token buf info env.now) g := by
  have hanswer : env.acceptor.handshake lib header buf recvSize info =
      env.acceptor.retry lib header buf recvSize info := by
    simp [Acceptor.handshake, h.supported, h.token, unwrapOption]
  unfold greet retried
  rw [hanswer]
  simp only [Acceptor.retry, Library.randomConnId, hrand, unwrapResult, ok_bind, hmint]
  rcases lib.retry header.scid header.dcid newScid token header.version buf with ⟨err | n, out⟩
  · rfl
  · rfl

theorem handshake_of_token (h : Hello lib fromSlice buf recvSize header token) (hne : token ≠ [])
    {odcid : Option ConnectionId}
    (hvalid : env.acceptor.addressValidator.validateAddress header.scid header.dcid info.fromAddr
      token = .ok odcid) :
    env.acceptor.handshake lib header buf recvSize info =
      .ok (answered lib header.dcid info env.acceptor.config odcid, buf) := by
  have hempty : token.isEmpty = false := by simpa using hne
  simp only [Acceptor.handshake, h.supported, h.token, unwrapOption, ok_bind, hempty, hvalid,
    Bool.not_true, Bool.false_eq_true, if_false]
  cases odcid with
  | none => rfl
  | some odcid =>
    dsimp only [answered]
    cases lib.accept header.dcid (some odcid) info.toAddr info.fromAddr env.acceptor.config <;> rfl

theorem arrives_of_register {token : Token} (hq : q.FixedSourceId)
    (hrun : Group.register q env.registered g = .ok (.ok token) g') :
    Arrives g g' token q ∧ ∃ c, g'.state.conns.lookup token = some c ∧ Descends q c.wrapped := by
  have hr := register_cases g q env.registered
  rw [hrun] at hr
  cases hr with
  | @fresh token tokenNext n b k closed s log hnone hscid hunlocked hheld hcont =>
    refine ⟨⟨hnone, ?_, AList.lookup_insert _, ?_, ?_⟩, s.conn, AList.lookup_insert _, hcont.wrapped⟩
    · exact ⟨s.conn, AList.lookup_insert _, hcont.token, (Tables.sourceId_of_continues hcont hq).1⟩
    · exact fun t ht ↦ AList.lookup_insert_ne ht
    · exact fun id hne ↦ AList.lookup_insert_ne hne

theorem enters_of_accepted (h : Hello lib fromSlice buf recvSize header token) (hg : Sane g)
    (hlib : Reliable lib) (hunknown : Unknown g header.dcid)
    (hfree : ∃ token, g.state.conns.lookup token = none) {odcid : Option ConnectionId}
    (haccept : lib.accept header.dcid odcid info.toAddr info.fromAddr env.acceptor.config = .ok q)
    (hanswer : env.acceptor.handshake lib header buf recvSize info = .ok (.ok (.accept q), buf)) :
    Enters lib fromSlice buf recvSize info unparker env g q := by
  obtain ⟨hfixed, hfits⟩ := hlib.accept haccept
  have hsource : q.sourceId = header.dcid := hlib.keepsSourceId haccept
  obtain ⟨token, g₁, c, hregister, hsane, hc, hcsource⟩ :=
    hg.registers hfixed hfits (hsource.symm ▸ hunknown) hfree env.registered
  obtain ⟨harrives, c', hc', hdescends⟩ := arrives_of_register hfixed hregister
  obtain rfl : c = c' := Option.some.inj (hc.symm.trans hc')
  obtain ⟨g₂, hrecv, -⟩ := hsane.received hc (buf.take recvSize) info none env.first
  rw [hcsource] at hrecv
  refine ⟨token, g₁, g₂, c, hregister, harrives, hc, hdescends, hrecv, ?_⟩
  rw [recvWithAcceptor_hello h (hg.routed.lookup_eq_none hunknown)]
  unfold greet
  rw [bind_of_ok (ofExcept_of_ok hanswer)]
  dsimp only
  rw [bind_of_ok hregister]
  dsimp only
  rw [hsource] at hrecv
  rw [bind_of_ok (slice_packet h.size), bind_of_ok hrecv]
  cases (c.wrapped.call (.recv (buf.take recvSize) info)).1 <;> rfl

end Serving

section Lifetime

variable {lib : Library Config} {fromSlice : Group.FromSlice} {header : Header} {buf : Bytes}
variable {recvSize : ℕ} {info : RecvInfo} {unparker : Option Unparker} {env : Env Config}
variable {odcid newScid : ConnectionId} {g : Group} {q : Connection} {config : Config}
variable {sha256 : Sha256} {v : SimpleAddressValidator} {mintedAt now : SystemTime} {t n : Duration}
variable {src : SocketAddr}

theorem hello_retried (h : Hello lib fromSlice buf recvSize header [])
    (hunknown : g.scids.lookup header.dcid = none) (hrand : lib.randBytes 20 = .ok newScid)
    (hacceptor : env.acceptor = simple sha256 v config mintedAt)
    (ht : mintedAt.durationSinceEpoch = .ok t) :
    recvWithAcceptor lib fromSlice buf recvSize info unparker env g =
      .ok (retried lib header newScid
        (minted sha256 v info.fromAddr.ip t.asSecs header.dcid newScid) buf info env.now) g := by
  rw [recvWithAcceptor_hello h hunknown]
  apply greet_retries h hrand
  rw [hacceptor]
  exact mint_eq header.scid ht

/-- The second packet of a client, with the token of its retry. -/
structure Returns (lib : Library Config) (fromSlice : Group.FromSlice) (sha256 : Sha256)
    (v : SimpleAddressValidator) (config : Config) (src : SocketAddr) (t : Duration)
    (odcid newScid : ConnectionId) (buf : Bytes) (recvSize : ℕ) (header : Header) (info : RecvInfo)
    (env : Env Config) (n : Duration) : Prop where
  hello : Hello lib fromSlice buf recvSize header
    (minted sha256 v src.ip t.asSecs odcid newScid)
  dcid : header.dcid = newScid
  ip : info.fromAddr.ip = src.ip
  acceptor : ∃ now, env.acceptor = simple sha256 v config now ∧ now.durationSinceEpoch = .ok n
  later : t ≤ n

theorem Returns.handshake (ht : mintedAt.durationSinceEpoch = .ok t)
    (h : Returns lib fromSlice sha256 v config src t odcid newScid buf recvSize header info env n) :
    env.acceptor.handshake lib header buf recvSize info =
      .ok (answered lib header.dcid info config
        (if n - Duration.fromSecs t.asSecs ≤ v.expirationInterval then some odcid else none), buf) := by
  obtain ⟨now, hacceptor, hn⟩ := h.acceptor
  have hvalid : env.acceptor.addressValidator.validateAddress header.scid header.dcid info.fromAddr
      (minted sha256 v src.ip t.asSecs odcid newScid) =
        .ok (if n - Duration.fromSecs t.asSecs ≤ v.expirationInterval then some odcid else none) := by
    rw [hacceptor, h.dcid]
    exact validate_minted header.scid ht hn h.later h.ip
  rw [handshake_of_token h.hello minted_ne_nil hvalid, hacceptor]
  rfl

theorem Returns.enters (ht : mintedAt.durationSinceEpoch = .ok t)
    (h : Returns lib fromSlice sha256 v config src t odcid newScid buf recvSize header info env n)
    (hg : Sane g) (hlib : Reliable lib) (hunknown : Unknown g newScid)
    (hfree : ∃ token, g.state.conns.lookup token = none)
    (halive : n - Duration.fromSecs t.asSecs ≤ v.expirationInterval)
    (haccept : lib.accept newScid (some odcid) info.toAddr info.fromAddr config = .ok q) :
    Enters lib fromSlice buf recvSize info unparker env g q := by
  have hanswer := h.handshake ht
  obtain ⟨now, hacceptor, -⟩ := h.acceptor
  have hconfig : env.acceptor.config = config := by rw [hacceptor]; rfl
  rw [if_pos halive, answered, h.dcid, haccept] at hanswer
  apply enters_of_accepted h.hello hg hlib (h.dcid.symm ▸ hunknown) hfree ?_ hanswer
  · exact some odcid
  · rw [h.dcid, hconfig, haccept]

theorem Returns.refused (ht : mintedAt.durationSinceEpoch = .ok t)
    (h : Returns lib fromSlice sha256 v config src t odcid newScid buf recvSize header info env n)
    (hg : Sane g) (hunknown : Unknown g newScid)
    (hexpired : v.expirationInterval < n - Duration.fromSecs t.asSecs) :
    recvWithAcceptor lib fromSlice buf recvSize info unparker env g =
      .ok (.error .validateAddress, buf) g := by
  have hanswer := h.handshake ht
  rw [if_neg (Nat.not_le.mpr hexpired), answered] at hanswer
  rw [recvWithAcceptor_hello h.hello (hg.routed.lookup_eq_none (h.dcid.symm ▸ hunknown))]
  unfold greet
  rw [bind_of_ok (ofExcept_of_ok hanswer)]
  rfl

end Lifetime

end ZeroRtt.Poll.Returning
