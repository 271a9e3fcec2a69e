import ZeroRtt.Mio.Addressing
import ZeroRtt.Mio.Polling
import ZeroRtt.Poll.Returning

namespace ZeroRtt.Mio.Admission

open ZeroRtt.Lib.Panics ZeroRtt.Lib.Containers ZeroRtt.Lib.Runs
open ZeroRtt.Api.Types ZeroRtt.Api.Quiche ZeroRtt.Api.Handshakes ZeroRtt.Api.RetryToken
open ZeroRtt.Poll (Unparker)
open ZeroRtt.Poll (Group Section)
open ZeroRtt.Poll.Conn (UnlockEnv)
open ZeroRtt.Poll.Operations (perform)
open ZeroRtt.Poll.Sections (leftBy bind_of_ok recvWithConnectionId_of_none)
open ZeroRtt.Poll.Serving ZeroRtt.Poll.Admission ZeroRtt.Poll.Returning
open ZeroRtt.Mio.Socket ZeroRtt.Mio.Receiving
open ZeroRtt.Mio.Addressing (Attached attached_of_run socket_ok)
open ZeroRtt.Mio.Polling (attaches_group transmit_group)

variable {Config : Type} {lib : Library Config} {fromSlice : Group.FromSlice}
variable {s s' t : State} {index : ℕ} {d : Datagram Config} {os : System} {r : Except Io Unit}

def addrs (s : State) : List SocketAddr := s.sockets.map QuicSocket.localAddr

def Offered (polled : Except Io (List (IoEvent Config))) (s : State) (d : Datagram Config)
    (laddr : SocketAddr) : Prop :=
  ∃ events event datagrams last, polled = .ok events ∧ event ∈ events ∧
    event.readable = some (datagrams, last) ∧ d ∈ datagrams ∧ (addrs s)[event.index]? = some laddr

def packetOf (d : Datagram Config) : Bytes := d.bytes.take QuicBuf.capacity

section Frames

variable {S : Group → Prop} {socket socket' : QuicSocket}

theorem addrs_put (h : s.sockets[index]? = some socket) (haddr : socket'.localAddr = socket.localAddr) :
    addrs (s.put index socket') = addrs s := by
  apply List.ext_getElem?
  intro i
  simp only [addrs, State.put, List.getElem?_map, List.getElem?_set]
  split
  next hi =>
    subst hi
    rw [if_pos (List.getElem?_eq_some_iff.mp h).1, h, Option.map_some, Option.map_some, haddr]
  next => rfl

theorem addrs_transmit (h : Attached s) {buf : QuicBuf} {target : SocketAddr}
    (hrun : transmit index os buf target s = .ok (r, s')) : addrs s' = addrs s := by
  obtain ⟨socket, hsocket, hrun⟩ := bind_ok hrun
  have hget := socket_ok hsocket
  obtain ⟨result, socket', hsend, hcalled⟩ :=
    SendQueue.sendTo_called os (h.socket_eq hget).2.1 buf target
  rw [hsend, ok_bind] at hrun
  rcases result with (buf | err) | len
  · cases hrun
    exact addrs_put hget hcalled.addr
  · cases hrun
    exact addrs_put hget hcalled.addr
  · cases hrun
    exact addrs_put hget hcalled.addr

theorem addrs_onUdpSend (h : onUdpSend index os s = .ok (r, s')) :
    s'.group = s.group ∧ addrs s' = addrs s := by
  obtain ⟨socket, hsocket, h⟩ := bind_ok h
  obtain ⟨r', socket', htry, htried⟩ := SendQueue.tryFlush_tried os socket
  rw [htry] at h
  cases h
  exact ⟨rfl, addrs_put (socket_ok hsocket) htried.addr⟩

/-- The sockets stay at their addresses, and the group ends as `S` says. -/
structure Kept (S : Group → Prop) (s s' : State) : Prop where
  group : S s'.group
  addrs : addrs s' = addrs s
  attached : Attached s'

theorem kept_of_passes (h : Attached s) (hpasses : Passes os s S r s') : Kept S s s' := by
  have hattached := h.passes hpasses
  cases hpasses with
  | keeps g hg hs =>
    subst hs
    exact ⟨hg, rfl, hattached⟩
  | transmits g hg index buf target htransmit =>
    have haddrs := addrs_transmit (h.regroup g) htransmit
    refine ⟨?_, haddrs, hattached⟩
    rw [transmit_group htransmit]
    exact hg

theorem receive_passes_of (h : receive lib fromSlice index d s = .ok (r, s')) (hself : S s.group)
    (hserver : ∀ env laddr, d.side = .server env → (addrs s)[index]? = some laddr →
      S (leftBy (recvWithAcceptor lib fromSlice (QuicBuf.received d.bytes).buf
        (QuicBuf.received d.bytes).len ⟨d.source, laddr⟩ (some d.unparker) env s.group)))
    (hclient : ∀ env header info, d.side = .client env → fromSlice (packetOf d) = .ok header →
      S (leftBy (Group.recvWithConnectionId header.dcid (packetOf d) info (some d.unparker) env
        s.group))) : Passes d.os s S r s' := by
  obtain ⟨socket, hsocket, -⟩ := bind_ok h
  have haddr : (addrs s)[index]? = some socket.localAddr := by
    rw [addrs, List.getElem?_map, socket_ok hsocket, Option.map_some]
  simp only [receive, hsocket, ok_bind, recvFrom_new] at h
  cases hside : d.side with
  | server env =>
    rw [hside] at h
    obtain ⟨⟨⟨answer, out⟩, t⟩, hserve, h⟩ := bind_ok h
    obtain ⟨g, hleft, rfl⟩ := run_ok hserve
    have hg := hserver env socket.localAddr hside haddr
    rw [hleft] at hg
    rcases answer with err | ⟨sendSize, sendInfo⟩
    · cases err <;> cases h <;> exact .keeps g hg rfl
    · dsimp only at h
      split at h
      · cases h
        exact .keeps g hg rfl
      · obtain ⟨buf, -, h⟩ := bind_ok h
        exact .transmits g hg _ _ _ h
  | client env =>
    rw [hside] at h
    dsimp only at h
    rw [readableBuf_received] at h
    split at h
    · cases h
      exact .keeps s.group hself rfl
    next header hheader =>
      obtain ⟨⟨received, t⟩, hrecv, h⟩ := bind_ok h
      obtain ⟨g, hleft, rfl⟩ := run_ok hrecv
      have hg := hclient env header ⟨d.source, socket.localAddr⟩ hside hheader
      rw [packetOf, hleft] at hg
      rcases received with err | n
      · cases err <;> cases h <;> exact .keeps g hg rfl
      · cases h
        exact .keeps g hg rfl

theorem mioPollOnce_keeps {I : State → Prop} {events : List (IoEvent Config)} (hs : I s)
    (hreceive : ∀ event ∈ events, ∀ datagrams last, event.readable = some (datagrams, last) →
      ∀ d ∈ datagrams, ∀ t r t', I t → receive lib fromSlice event.index d t = .ok (r, t') → I t')
    (hsend : ∀ index os t r t', I t → onUdpSend index os t = .ok (r, t') → I t')
    (h : mioPollOnce lib fromSlice (.ok events) s = .ok (r, s')) : I s' := by
  refine tryEach_invariant hs (fun event hevent t r t' ht hrun ↦ ?_) h
  unfold onEvent at hrun
  split at hrun
  · cases hrun
    exact ht
  · obtain ⟨⟨r', u⟩, hread, hrun⟩ := bind_ok hrun
    have hu : I u := by
      unfold onReadable at hread
      split at hread
      next datagrams last hreadable =>
        obtain ⟨socket, -, hread⟩ := bind_ok hread
        obtain ⟨⟨r'', v⟩, hloop, hread⟩ := bind_ok hread
        have hv := tryEach_invariant ht
          (fun d hd t r t' ↦ hreceive event hevent datagrams last hreadable d hd t r t') hloop
        cases r'' with
        | error err =>
          cases hread
          exact hv
        | ok _ =>
          dsimp only at hread
          split at hread <;> cases hread <;> exact hv
      · cases hread
        exact ht
    cases r' with
    | error err =>
      cases hrun
      exact hu
    | ok _ =>
      dsimp only at hrun
      split at hrun
      · exact hsend _ _ _ _ _ hu hrun
      · cases hrun
        exact hu

variable {polled : Except Io (List (IoEvent Config))}

theorem received_packet : (QuicBuf.received d.bytes).buf.take (QuicBuf.received d.bytes).len =
    packetOf d := readableBuf_received d.bytes

theorem kept_mioPollOnce (h : Attached s) (hs : S s.group)
    (hserver : ∀ d laddr env g, Offered polled s d laddr → d.side = .server env → S g →
      S (leftBy (recvWithAcceptor lib fromSlice (QuicBuf.received d.bytes).buf
        (QuicBuf.received d.bytes).len ⟨d.source, laddr⟩ (some d.unparker) env g)))
    (hclient : ∀ d laddr env header info g, Offered polled s d laddr → d.side = .client env →
      fromSlice (packetOf d) = .ok header → S g →
      S (leftBy (Group.recvWithConnectionId header.dcid (packetOf d) info (some d.unparker) env g)))
    (hrun : mioPollOnce lib fromSlice polled s = .ok (r, s')) : Kept S s s' := by
  have hself : Kept S s s := ⟨hs, rfl, h⟩
  cases polled with
  | error err =>
    cases hrun
    exact hself
  | ok events =>
    apply mioPollOnce_keeps (I := Kept S s) hself ?_ ?_ hrun
    · intro event hevent datagrams last hreadable d hd t r t' ht hreceive
      have hoffered : ∀ laddr, (addrs t)[event.index]? = some laddr →
          Offered (.ok events) s d laddr := by
        intro laddr hladdr
        rw [ht.addrs] at hladdr
        exact ⟨events, event, datagrams, last, rfl, hevent, hreadable, hd, hladdr⟩
      obtain ⟨socket, hsocket, -⟩ := bind_ok hreceive
      have haddr : (addrs t)[event.index]? = some socket.localAddr := by
        rw [addrs, List.getElem?_map, socket_ok hsocket, Option.map_some]
      have hpasses : Passes d.os t S r t' := by
        apply receive_passes_of hreceive ht.group
        · intro env laddr hside hladdr
          exact hserver d laddr env t.group (hoffered laddr hladdr) hside ht.group
        · intro env header info hside hheader
          exact hclient d _ env header info t.group (hoffered _ haddr) hside hheader ht.group
      have hkept := kept_of_passes ht.attached hpasses
      exact ⟨hkept.group, hkept.addrs.trans ht.addrs, hkept.attached⟩
    · intro index os t r t' ht hsend
      obtain ⟨hgroup, haddrs⟩ := addrs_onUdpSend hsend
      exact ⟨hgroup ▸ ht.group, haddrs.trans ht.addrs, ht.attached.onUdpSend_ok hsend⟩

end Frames

section Runs

variable {laddrs : List SocketAddr} {polled : Except Io (List (IoEvent Config))}

theorem attached_step {a : Action Config} (h : Attached s)
    (hstep : step lib fromSlice s a = .ok s') : Attached s' := by
  cases a with
  | op op =>
    cases hstep
    exact h.regroup _
  | onQuicSend token now env written os =>
    obtain ⟨⟨r, t⟩, hrun, hstep⟩ := bind_ok hstep
    cases hstep
    exact h.passes (onQuicSend_passes hrun)
  | mioPollOnce polled =>
    obtain ⟨⟨r, t⟩, hrun, hstep⟩ := bind_ok hstep
    cases hstep
    exact (kept_mioPollOnce (S := fun _ ↦ True) h trivial (fun _ _ _ _ _ _ _ ↦ trivial)
      (fun _ _ _ _ _ _ _ _ _ _ ↦ trivial) hrun).attached

/-- The connections that a step brings in: one that is registered, and those that an offered
datagram admits. -/
inductive Brings (lib : Library Config) (fromSlice : Group.FromSlice) (s : State) :
    Action Config → Connection → Prop
  | registered (q : Connection) (env : UnlockEnv) : Brings lib fromSlice s (.op (.register q env)) q
  | admitted {polled : Except Io (List (IoEvent Config))} {d : Datagram Config}
      {laddr : SocketAddr} {env : Env Config} {header : Header} {q : Connection} :
      Offered polled s d laddr → d.side = .server env → fromSlice (packetOf d) = .ok header →
      Admits lib env.acceptor header ⟨d.source, laddr⟩ q →
      Brings lib fromSlice s (.mioPollOnce polled) q

theorem stems_step (h : Attached s) {a : Action Config} (hstep : step lib fromSlice s a = .ok s') :
    Stems (Brings lib fromSlice s a) s.group s'.group := by
  cases a with
  | op op =>
    cases hstep
    by_cases hregister : ∃ q env, op = .register q env
    · obtain ⟨q, env, rfl⟩ := hregister
      exact stems_register (.registered q env) env s.group
    · push Not at hregister
      exact persists_stems.perform hregister
  | onQuicSend token now env written os =>
    obtain ⟨⟨r, t⟩, hrun, hstep⟩ := bind_ok hstep
    cases hstep
    have hkept := kept_of_passes h (onQuicSend_passes hrun)
    obtain ⟨sent, hsent⟩ := hkept.group
    have hstems := (persists_stems (P := Brings lib fromSlice s (.onQuicSend token now env written os))).operates.send
      token QuicBuf.capacity now env s.group
    rwa [hsent] at hstems
  | mioPollOnce polled =>
    obtain ⟨⟨r, t⟩, hrun, hstep⟩ := bind_ok hstep
    cases hstep
    refine (kept_mioPollOnce (S := Stems (Brings lib fromSlice s (.mioPollOnce polled)) s.group) h
      (stems_of_conns_eq rfl) ?_ ?_ hrun).group
    · intro d laddr env g hoffered hside hg
      apply hg.trans
      apply (stems_recvWithAcceptor lib fromSlice _ _ _ _ env g).mono
      rintro q ⟨header, hheader, hadmits⟩
      rw [received_packet] at hheader
      exact .admitted hoffered hside hheader hadmits
    · intro d laddr env header info g hoffered hside hheader hg
      exact hg.trans (persists_stems.operates.recvWithConnectionId _ _ _ _ _ g)

/-- Every connection of a group goes back to one that was registered, or that quiche accepted for
a datagram with a token which the acceptor took from its sender. -/
theorem connections_admitted (h : Run (step lib fromSlice) Anything (.bind laddrs) s) {token : Token}
    {c : Poll.Conn.QuicConn} (hc : s.group.state.conns.lookup token = some c) :
    ∃ s₀ s₁ a q, Run (step lib fromSlice) Anything (.bind laddrs) s₀ ∧ step lib fromSlice s₀ a = .ok s₁ ∧
      Run (step lib fromSlice) Anything s₁ s ∧ Brings lib fromSlice s₀ a q ∧ Descends q c.wrapped := by
  have horigin := h.origin (B := Brings lib fromSlice)
    (P := fun s q ↦ ∃ token c, s.group.state.conns.lookup token = some c ∧ c.wrapped = q)
    descends_refl (fun _ _ _ hxy hyz ↦ hxy.trans hyz) ?_ ⟨token, c, hc, rfl⟩
  · rcases horigin with ⟨q, ⟨token', c', hc', -⟩, -⟩ | ⟨s₀, s₁, a, q, hbefore, -, hstep, hafter, hq⟩
    · rw [State.bind, attaches_group] at hc'
      cases hc'
    · exact ⟨s₀, s₁, a, q, hbefore, hstep, hafter, hq⟩
  · rintro t t' a q hrun - hstep ⟨token', c', hc', rfl⟩
    rcases stems_step (attached_of_run (fun _ _ _ ↦ attached_step) hrun) hstep token' c' hc' with ⟨c'', hc'', hdescends⟩ | hbrings
    · exact .inl ⟨c''.wrapped, ⟨token', c'', hc'', rfl⟩, hdescends⟩
    · exact .inr hbrings

/-- A client without a token is sent one, and nothing is kept of it. Whatever happens until it
comes back from the same address, it enters the group as long as the token is alive, with the
connection id of its first packet as the original one, and is turned away afterwards. -/
theorem returning_client_enters {header : Header} {buf : Bytes} {recvSize : ℕ} (info : RecvInfo)
    (unparker : Option Unparker) (env : Env Config) {newScid : ConnectionId} {config : Config}
    {sha256 : Sha256} {v : SimpleAddressValidator} {mintedAt : SystemTime} {t : Duration}
    (hlib : Reliable lib) (hrun : Run (step lib fromSlice) Allowed (.bind laddrs) s)
    (hello : Hello lib fromSlice buf recvSize header []) (hunknown : Unknown s.group header.dcid)
    (hrand : lib.randBytes 20 = .ok newScid)
    (hacceptor : env.acceptor = simple sha256 v config mintedAt)
    (ht : mintedAt.durationSinceEpoch = .ok t) :
    recvWithAcceptor lib fromSlice buf recvSize info unparker env s.group =
      .ok (retried lib header newScid
        (minted sha256 v info.fromAddr.ip t.asSecs header.dcid newScid) buf info env.now) s.group ∧
    ∀ s' buf' recvSize' header' info' unparker' env' n,
      Run (step lib fromSlice) Allowed s s' → Unknown s'.group newScid →
      Returns lib fromSlice sha256 v config info.fromAddr t header.dcid newScid buf' recvSize' header'
        info' env' n →
      (n - Duration.fromSecs t.asSecs ≤ v.expirationInterval →
        (∃ token, s'.group.state.conns.lookup token = none) → ∀ q,
        lib.accept newScid (some header.dcid) info'.toAddr info'.fromAddr config = .ok q →
        Enters lib fromSlice buf' recvSize' info' unparker' env' s'.group q) ∧
      (v.expirationInterval < n - Duration.fromSecs t.asSecs →
        recvWithAcceptor lib fromSlice buf' recvSize' info' unparker' env' s'.group =
          .ok (.error .validateAddress, buf') s'.group) := by
  have hsane := (healthy_of_run hlib hrun).sane
  refine ⟨hello_retried hello (hsane.routed.lookup_eq_none hunknown) hrand hacceptor ht, ?_⟩
  intro s' buf' recvSize' header' info' unparker' env' n hrun' hunknown' hreturns
  have hsane' := (healthy_of_run hlib (hrun.trans hrun')).sane
  constructor
  · intro halive hfree q haccept
    exact hreturns.enters ht hsane' hlib hunknown' hfree halive haccept
  · intro hexpired
    exact hreturns.refused ht hsane' hunknown' hexpired

end Runs

section Examples

open ZeroRtt.Poll.Accepting (openLibrary firstPacket)

def visit : IoEvent Unit := ⟨0, some ([sentTo (.server serving) [0]], blocked), none⟩

def initial (version : ℕ) (dcid : ConnectionId) (token : Bytes) : Header :=
  ⟨.initial, version, dcid, [], some token, fun _ ↦ .inl rfl,
    fun h ↦ by rcases h with h | h <;> cases h⟩

theorem healthy_bound : Healthy 1 bound := healthy_bind [exampleRecvInfo.toAddr]

theorem mioPollOnce_visit {fromSlice : Group.FromSlice}
    (h : receive openLibrary fromSlice 0 (sentTo (.server serving) [0]) bound = .ok (.ok (), s)) :
    mioPollOnce openLibrary fromSlice (.ok [visit]) bound = .ok (.ok (), s) := by
  have hrecv : onUdpRecv openLibrary fromSlice 0 [sentTo (.server serving) [0]] blocked bound =
      .ok (.ok (), s) := by
    rw [healthy_bound.onUdpRecv_eq Nat.zero_lt_one rfl, tryEach, h]
    rfl
  have hevent : onEvent openLibrary fromSlice visit bound = .ok (.ok (), s) := by
    unfold onEvent
    rw [healthy_bound.length, if_neg (show visit.index ≠ 1 by decide), onReadable, visit]
    dsimp only
    rw [hrecv]
    rfl
  rw [mioPollOnce, tryEach, hevent]
  rfl

def opened : Connection := Script.connection ⟨true, [7], [], [], none⟩

theorem serves_first {buf : Bytes} {n : ℕ} (hsize : n ≤ buf.length) (info : RecvInfo)
    (unparker : Option Unparker) :
    ∃ sendInfo g c, recvWithAcceptor openLibrary firstPacket buf n info unparker serving
        bound.group = .ok (.ok (0, sendInfo), buf) g ∧ g.state.conns.lookup ⟨0⟩ = some c := by
  have hello : Hello openLibrary firstPacket buf n
      ⟨.initial, 1, [7], [], some [0], by decide, by decide⟩ [0] := ⟨hsize, rfl, rfl, rfl⟩
  have hanswer : serving.acceptor.handshake openLibrary
      ⟨.initial, 1, [7], [], some [0], by decide, by decide⟩ buf n info =
        .ok (.ok (.accept opened), buf) := rfl
  have hregister : Group.register opened serving.registered bound.group = .ok (.ok ⟨0⟩) _ := rfl
  rw [recvWithAcceptor_hello hello rfl]
  unfold greet
  rw [bind_of_ok (ofExcept_of_ok hanswer)]
  dsimp only
  rw [bind_of_ok hregister]
  dsimp only
  rw [bind_of_ok (slice_packet hsize)]
  exact ⟨_, _, _, rfl, rfl⟩

theorem receive_first :
    ∃ s c, receive openLibrary firstPacket 0 (sentTo (.server serving) [0]) bound =
        .ok (.ok (), s) ∧ s.group.state.conns.lookup ⟨0⟩ = some c := by
  obtain ⟨socket, -, hsocket, -⟩ := healthy_bound.socket Nat.zero_lt_one
  obtain ⟨sendInfo, g, c, hserve, hc⟩ := serves_first (received_len_le [0])
    ⟨exampleRecvInfo.fromAddr, socket.localAddr⟩ (some ⟨0⟩)
  refine ⟨{ bound with group := g }, c, ?_, hc⟩
  simp only [receive, hsocket, ok_bind, sentTo, recvFrom_new, run_of_ok hserve, pure_eq_ok]
  rfl

theorem connections_admitted_example :
    ∃ s c s₀ a q, Run (step openLibrary firstPacket) Anything (.bind [exampleRecvInfo.toAddr]) s ∧
      s.group.state.conns.lookup ⟨0⟩ = some c ∧ Brings openLibrary firstPacket s₀ a q ∧
      Descends q c.wrapped := by
  obtain ⟨s, c, hreceive, hc⟩ := receive_first
  have hstep : step openLibrary firstPacket bound (.mioPollOnce (.ok [visit])) = .ok s := by
    rw [step, mioPollOnce_visit hreceive]
    rfl
  have hrun : Run (step openLibrary firstPacket) Anything (.bind [exampleRecvInfo.toAddr]) s :=
    .one trivial hstep
  obtain ⟨s₀, s₁, a, q, -, -, -, hbrings, hdescends⟩ := connections_admitted hrun hc
  exact ⟨s, c, s₀, a, q, hrun, hc, hbrings, hdescends⟩

def retrying : Library Unit := { openLibrary with retry := fun _ _ _ _ _ buf ↦ (.ok buf.length, buf) }

theorem reliable_retrying : Reliable retrying where
  negotiate h := by cases h
  retry h := by
    cases h
    exact Nat.le_refl _
  keepsSourceId h := by
    cases h
    rfl
  accept h := by
    cases h
    exact ⟨fun _ _ ↦ rfl, fun _ _ _ _ hsend ↦ by cases hsend⟩

def shortLived : SimpleAddressValidator := ⟨.zero 20, Duration.fromSecs 60⟩

def hashed : Sha256 := fun _ ↦ .zero 32

def hellos : Group.FromSlice := fun packet ↦
  if packet = [0] then .ok (initial 1 [7] [])
  else .ok (initial 1 (List.replicate 20 0)
    (minted hashed shortLived .localhost 1700000000 [7] (List.replicate 20 0)))

def timed : Env Unit :=
  { serving with acceptor := simple hashed shortLived () SimpleAddressValidator.exampleClock }

theorem returning_client_enters_example :
    ∃ q, Enters retrying hellos [1] 1 exampleRecvInfo none timed bound.group q := by
  have hbound : Run (step retrying hellos) Allowed (.bind [exampleRecvInfo.toAddr]) bound := .refl _
  have hello : Hello retrying hellos [0] 1 _ [] := ⟨Nat.le_refl 1, rfl, rfl, rfl⟩
  have hunknown : ∀ id, Unknown bound.group id := fun id token c hc ↦ by cases hc
  have hclock := SimpleAddressValidator.exampleClock_secs
  obtain ⟨-, hreturning⟩ := returning_client_enters exampleRecvInfo none timed reliable_retrying
    hbound hello (hunknown _) rfl rfl hclock
  obtain ⟨henters, -⟩ := hreturning bound [1] 1 _ exampleRecvInfo none timed _ (.refl _) (hunknown _)
    ⟨⟨Nat.le_refl 1, rfl, rfl, rfl⟩, rfl, rfl, ⟨_, rfl, hclock⟩, Nat.le_refl _⟩
  exact ⟨_, henters (by decide) ⟨⟨0⟩, rfl⟩ _ rfl⟩

end Examples

end ZeroRtt.Mio.Admission
