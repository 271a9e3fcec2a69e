import ZeroRtt.Api.Types

namespace ZeroRtt.Api.RetryToken

open ZeroRtt.Lib.Panics ZeroRtt.Api.Types

structure AddressValidator where
  mintRetryToken (scid dcid newScid : ConnectionId) (src : SocketAddr) : Rust (Except Error Bytes)
  validateAddress (scid dcid : ConnectionId) (src : SocketAddr) (token : Bytes) :
    Rust (Option ConnectionId)

/-- A hash of the concatenated updates, in 32 bytes. -/
abbrev Sha256 := Bytes → FixedBytes 32

structure SimpleAddressValidator where
  seed : FixedBytes 20
  expirationInterval : Duration

namespace SimpleAddressValidator

def mintRetryToken (sha256 : Sha256) (v : SimpleAddressValidator) (now : SystemTime)
    (_scid dcid newScid : ConnectionId) (src : SocketAddr) : Rust (Except Error Bytes) := do
  let token := src.ip.octets
  let timestamp := (← unwrapResult now.durationSinceEpoch).asSecs
  let token := token ++ toBeBytes timestamp
  let token := token ++ dcid
  let hash := sha256 (v.seed.bytes ++ token ++ newScid)
  return .ok (token ++ hash.bytes)

def validateAddress (sha256 : Sha256) (v : SimpleAddressValidator) (now : SystemTime)
    (_scid dcid : ConnectionId) (src : SocketAddr) (token : Bytes) :
    Rust (Option ConnectionId) := do
  let addr := src.ip.octets
  if addr.length + 40 > token.length then
    return none
  if addr ≠ (← slice token 0 addr.length) then
    return none
  let field ← slice token addr.length (addr.length + 8)
  let timestamp := Duration.fromSecs (fromBeBytes (← unwrapResult (tryIntoArray field)))
  let now ← unwrapResult now.durationSinceEpoch
  if (← Duration.sub now timestamp) > v.expirationInterval then
    return none
  let body := (← checkedSub token.length 32)
  let hash ← slice token body token.length
  let signed ← slice token 0 body
  if hash ≠ (sha256 (v.seed.bytes ++ signed ++ dcid)).bytes then
    return none
  return some (← slice token (addr.length + 8) body)

def toAddressValidator (sha256 : Sha256) (v : SimpleAddressValidator) (now : SystemTime) :
    AddressValidator where
  mintRetryToken := v.mintRetryToken sha256 now
  validateAddress := v.validateAddress sha256 now

/-- The unauthenticated timestamp that follows the address in a token. -/
def timestamp (ip : IpAddr) (token : Bytes) : Duration :=
  Duration.fromSecs (beValue ((token.drop ip.octets.length).take 8))

/-- The tests that come before the clock is read. -/
def Readable (ip : IpAddr) (token : Bytes) : Prop :=
  ip.octets.length + 40 ≤ token.length ∧ ip.octets = token.take ip.octets.length

instance (ip : IpAddr) (token : Bytes) : Decidable (Readable ip token) :=
  inferInstanceAs (Decidable (_ ∧ _))

variable (sha256 : Sha256) (v : SimpleAddressValidator) (now : SystemTime)
variable (scid dcid : ConnectionId) (src : SocketAddr) (token : Bytes)

theorem validateAddress_unreadable (h : ¬ Readable src.ip token) :
    v.validateAddress sha256 now scid dcid src token = .ok none := by
  unfold validateAddress
  by_cases hl : src.ip.octets.length + 40 > token.length
  · simp [hl]
  · have ha : src.ip.octets ≠ token.take src.ip.octets.length := fun he ↦ h ⟨by omega, he⟩
    have hs := slice_of_le (l := token) (Nat.zero_le src.ip.octets.length) (by omega)
    simp [hl, hs, ha]

theorem validateAddress_readable (h : Readable src.ip token) :
    v.validateAddress sha256 now scid dcid src token =
      (do
        let now ← unwrapResult now.durationSinceEpoch
        if (← Duration.sub now (timestamp src.ip token)) > v.expirationInterval then
          return none
        if token.drop (token.length - 32) ≠
            (sha256 (v.seed.bytes ++ token.take (token.length - 32) ++ dcid)).bytes then
          return none
        return some ((token.take (token.length - 32)).drop (src.ip.octets.length + 8))) := by
  obtain ⟨hl, ha⟩ := h
  have haddr : slice token 0 src.ip.octets.length = .ok src.ip.octets := by
    rw [slice_of_le (Nat.zero_le _) (by omega), List.drop_zero, ← ha]
  have hfield : slice token src.ip.octets.length (src.ip.octets.length + 8) =
      .ok ((token.drop src.ip.octets.length).take 8) := by
    rw [slice_of_le (by omega) (by omega), List.drop_take, Nat.add_sub_cancel_left]
  have hlen : ((token.drop src.ip.octets.length).take 8).length = 8 := by
    simp only [List.length_take, List.length_drop]
    omega
  have hhash : slice token (token.length - 32) token.length =
      .ok (token.drop (token.length - 32)) := by
    rw [slice_of_le (Nat.sub_le _ _) le_rfl, List.take_length]
  have hsigned : slice token 0 (token.length - 32) = .ok (token.take (token.length - 32)) := by
    rw [slice_of_le (Nat.zero_le _) (Nat.sub_le _ _), List.drop_zero]
  have hodcid : slice token (src.ip.octets.length + 8) (token.length - 32) =
      .ok ((token.take (token.length - 32)).drop (src.ip.octets.length + 8)) :=
    slice_of_le (by omega) (Nat.sub_le _ _)
  unfold validateAddress
  simp only [haddr, hfield, hhash, hsigned, hodcid, tryIntoArray_of_length hlen,
    checkedSub_of_le (show 32 ≤ token.length by omega), unwrapResult, fromBeBytes, timestamp, ok_bind,
    ne_eq, not_true_eq_false, if_false, gt_iff_lt,
    show ¬ token.length < src.ip.octets.length + 40 by omega]

def Alive (ip : IpAddr) (token : Bytes) : Prop :=
  ∃ n, now.durationSinceEpoch = .ok n ∧ timestamp ip token ≤ n ∧
    n - timestamp ip token ≤ v.expirationInterval

theorem validateAddress_accepts_iff (odcid : ConnectionId) :
    v.validateAddress sha256 now scid dcid src token = .ok (some odcid) ↔
      Readable src.ip token ∧ v.Alive now src.ip token ∧
      token.drop (token.length - 32) =
        (sha256 (v.seed.bytes ++ token.take (token.length - 32) ++ dcid)).bytes ∧
      odcid = (token.take (token.length - 32)).drop (src.ip.octets.length + 8) := by
  by_cases hr : Readable src.ip token
  · rw [validateAddress_readable sha256 v now scid dcid src token hr]
    unfold Alive
    cases hn : now.durationSinceEpoch with
    | error e => simp [unwrapResult]
    | ok n =>
      by_cases ht : timestamp src.ip token ≤ n
      · simp only [unwrapResult, ok_bind, Duration.sub, ht, if_true, pure_eq_ok]
        split_ifs with he hh
        · simp only [Except.ok.injEq, reduceCtorEq, false_iff]
          rintro ⟨-, ⟨m, hm, -, hle⟩, -⟩
          cases hm
          exact absurd hle (Nat.not_le.mpr he)
        · simp only [Except.ok.injEq, reduceCtorEq, false_iff]
          exact fun h ↦ hh h.2.2.1
        · simp only [Except.ok.injEq, Option.some.injEq, hr, true_and, not_not.mp hh]
          exact ⟨fun h ↦ ⟨⟨n, rfl, ht, Nat.not_lt.mp he⟩, h.symm⟩, fun h ↦ h.2.symm⟩
      · simp [unwrapResult, Duration.sub, ht]
  · simp [validateAddress_unreadable sha256 v now scid dcid src token hr, hr]

theorem validateAddress_early (hr : Readable src.ip token) {n : Duration}
    (hn : now.durationSinceEpoch = .ok n) (ht : n < timestamp src.ip token) :
    v.validateAddress sha256 now scid dcid src token = .error .durationUnderflow := by
  rw [validateAddress_readable sha256 v now scid dcid src token hr]
  simp only [hn, unwrapResult, ok_bind, Duration.sub, Nat.not_le.mpr ht, if_false, error_bind]

/-- Validation returns exactly when it stops before it reads the clock, or the
clock is not before the epoch and has reached the timestamp in the token. -/
theorem validateAddress_returns_iff :
    (∃ r, v.validateAddress sha256 now scid dcid src token = .ok r) ↔
      ¬ Readable src.ip token ∨
        ∃ n, now.durationSinceEpoch = .ok n ∧ timestamp src.ip token ≤ n := by
  by_cases hr : Readable src.ip token
  · rw [validateAddress_readable sha256 v now scid dcid src token hr]
    cases hn : now.durationSinceEpoch with
    | error e => simp [unwrapResult, hr]
    | ok n =>
      by_cases ht : timestamp src.ip token ≤ n
      · simp only [unwrapResult, ok_bind, Duration.sub, ht, if_true, pure_eq_ok]
        split_ifs <;> simp [ht]
      · simp [unwrapResult, Duration.sub, ht, hr]
  · simp [validateAddress_unreadable sha256 v now scid dcid src token hr, hr]

/-- A client at 127.0.0.1 sends its own address, the largest timestamp and
any 32 bytes. -/
theorem validateAddress_future_timestamp :
    ¬ ∃ r, validateAddress (fun _ ↦ ⟨List.replicate 32 0, rfl⟩)
      ⟨⟨List.replicate 20 0, rfl⟩, Duration.fromSecs 100⟩
      ⟨1700000000, 0, by decide, by decide⟩ [] [] ⟨.v4 ⟨[127, 0, 0, 1], rfl⟩, 1234⟩
      ([127, 0, 0, 1] ++ List.replicate 8 255 ++ List.replicate 32 0) = .ok r := by
  rw [validateAddress_early _ _ _ _ _ _ _ (by decide) rfl (by decide)]
  rintro ⟨r, hr⟩
  cases hr

section Binding

def message (ip : IpAddr) (secs : ℕ) (odcid newScid : ConnectionId) : Bytes :=
  ip.octets ++ toBeBytes secs ++ odcid ++ newScid

def CollisionFree (m : Bytes) : Prop := ∀ m', sha256 m' = sha256 m → m' = m

theorem mintRetryToken_eq {t : Duration} (ht : now.durationSinceEpoch = .ok t)
    (odcid newScid : ConnectionId) :
    v.mintRetryToken sha256 now scid odcid newScid src =
      .ok (.ok (src.ip.octets ++ toBeBytes t.asSecs ++ odcid ++
        (sha256 (v.seed.bytes ++ message src.ip t.asSecs odcid newScid)).bytes)) := by
  simp only [mintRetryToken, ht, unwrapResult, ok_bind, pure_eq_ok, message, List.append_assoc]

/-- A token that ends in the hash of this mint is accepted only for the
address and the connection id it was minted for, and gives back the original
connection id. -/
def Authentic (minted : Bytes) (src : SocketAddr) (odcid newScid : ConnectionId)
    (src' : SocketAddr) (dcid : ConnectionId) : Prop :=
  ∀ scid token odcid', 32 ≤ token.length →
    token.drop (token.length - 32) = minted.drop (minted.length - 32) →
    v.validateAddress sha256 now scid dcid src' token = .ok (some odcid') →
    src'.ip = src.ip ∧ dcid = newScid ∧ odcid' = odcid

/-- The hashed bytes of a mint can be read a second way: another address as
their beginning, or a shorter connection id as their end, with eight bytes
after that address that pass for a timestamp within the expiration interval. -/
def Resplits (secs : ℕ) (src : SocketAddr) (odcid newScid : ConnectionId)
    (src' : SocketAddr) (dcid : ConnectionId) : Prop :=
  (src'.ip ≠ src.ip ∨ dcid ≠ newScid) ∧ dcid <:+ newScid ∧
    src'.ip.octets <+: message src.ip secs odcid newScid ∧
    src'.ip.octets.length + 8 + dcid.length ≤ (message src.ip secs odcid newScid).length ∧
    v.Alive now src'.ip (message src.ip secs odcid newScid)

theorem timestamp_append {ip : IpAddr} {a : Bytes} (b : Bytes)
    (h : ip.octets.length + 8 ≤ a.length) : timestamp ip (a ++ b) = timestamp ip a := by
  unfold timestamp
  rw [List.drop_append_of_le_length (by omega), List.take_append_of_le_length]
  simp only [List.length_drop]
  omega

theorem readable_append_iff (ip : IpAddr) (body : Bytes) (hash : FixedBytes 32) :
    Readable ip (body ++ hash.bytes) ↔
      ip.octets.length + 8 ≤ body.length ∧ ip.octets <+: body := by
  unfold Readable
  rw [List.length_append, hash.length_eq, List.prefix_iff_eq_take]
  constructor
  · rintro ⟨hl, ha⟩
    have hb : ip.octets.length ≤ body.length := by omega
    exact ⟨by omega, by rwa [List.take_append_of_le_length hb] at ha⟩
  · rintro ⟨hl, ha⟩
    have hb : ip.octets.length ≤ body.length := by omega
    exact ⟨by omega, by rwa [List.take_append_of_le_length hb]⟩

theorem validateAddress_append_iff (body : Bytes) (hash : FixedBytes 32) (odcid : ConnectionId) :
    v.validateAddress sha256 now scid dcid src (body ++ hash.bytes) = .ok (some odcid) ↔
      src.ip.octets.length + 8 ≤ body.length ∧ src.ip.octets <+: body ∧ v.Alive now src.ip body ∧
      hash = sha256 (v.seed.bytes ++ body ++ dcid) ∧
      odcid = body.drop (src.ip.octets.length + 8) := by
  have hlen : (body ++ hash.bytes).length - 32 = body.length := by
    rw [List.length_append, hash.length_eq, Nat.add_sub_cancel]
  rw [validateAddress_accepts_iff, readable_append_iff, hlen, List.drop_left, List.take_left,
    ← FixedBytes.ext_iff, and_assoc]
  refine and_congr_right fun hl ↦ and_congr_right fun _ ↦ and_congr_left fun _ ↦ ?_
  unfold Alive
  rw [timestamp_append _ hl]

theorem message_suffix (ip : IpAddr) (secs : ℕ) (odcid newScid : ConnectionId) :
    newScid <:+ message ip secs odcid newScid := List.suffix_append _ _

variable {sha256 v now}
variable {src' : SocketAddr} {odcid newScid minted : Bytes} {secs : ℕ}

variable (sha256) in
theorem Resplits.accepted (h : v.Resplits now secs src odcid newScid src' dcid) :
    ∃ body, body ++ dcid = message src.ip secs odcid newScid ∧
      v.validateAddress sha256 now scid dcid src'
        (body ++ (sha256 (v.seed.bytes ++ message src.ip secs odcid newScid)).bytes) =
          .ok (some (body.drop (src'.ip.octets.length + 8))) := by
  obtain ⟨-, hd, hp, hl, n, hn, ht, he⟩ := h
  obtain ⟨body, hbody⟩ := hd.trans (message_suffix src.ip secs odcid newScid)
  have hlen := congrArg List.length hbody
  simp only [List.length_append] at hlen
  have hb : src'.ip.octets.length + 8 ≤ body.length := by omega
  have hts := timestamp_append dcid hb
  rw [hbody] at hts
  refine ⟨body, hbody, (validateAddress_append_iff _ _ _ _ _ _ _ _ _).mpr ⟨hb, ?_, ?_, ?_, rfl⟩⟩
  · exact List.prefix_of_prefix_length_le hp ⟨dcid, hbody⟩ (by omega)
  · exact ⟨n, hn, hts ▸ ht, hts ▸ he⟩
  · rw [List.append_assoc, hbody]

theorem accepted_reading (hfree : CollisionFree sha256
      (v.seed.bytes ++ message src.ip secs odcid newScid)) {body odcid' : Bytes}
    (h : v.validateAddress sha256 now scid dcid src'
      (body ++ (sha256 (v.seed.bytes ++ message src.ip secs odcid newScid)).bytes) =
        .ok (some odcid')) :
    body ++ dcid = message src.ip secs odcid newScid ∧
      src'.ip.octets.length + 8 ≤ body.length ∧ src'.ip.octets <+: body ∧
      v.Alive now src'.ip body ∧ odcid' = body.drop (src'.ip.octets.length + 8) := by
  obtain ⟨hb, hp, ha, hh, ho⟩ := (validateAddress_append_iff _ _ _ _ _ _ _ _ _).mp h
  have hm := hfree _ hh.symm
  rw [List.append_assoc] at hm
  exact ⟨List.append_cancel_left hm, hb, hp, ha, ho⟩

/-- A minted token is bound to its address and connection ids exactly when its
hashed bytes cannot be read a second way. The four fields are concatenated
without their lengths, so such readings do exist. -/
theorem authentic_iff {mintedAt : SystemTime} {t : Duration}
    (ht : mintedAt.durationSinceEpoch = .ok t)
    (hmint : v.mintRetryToken sha256 mintedAt scid odcid newScid src = .ok (.ok minted))
    (hfree : CollisionFree sha256 (v.seed.bytes ++ message src.ip t.asSecs odcid newScid))
    (hnew : newScid.length = 20) (hdcid : dcid.length ≤ 20) :
    v.Authentic sha256 now minted src odcid newScid src' dcid ↔
      ¬ v.Resplits now t.asSecs src odcid newScid src' dcid := by
  rw [mintRetryToken_eq sha256 v mintedAt scid src ht odcid newScid] at hmint
  have hhash : minted.drop (minted.length - 32) =
      (sha256 (v.seed.bytes ++ message src.ip t.asSecs odcid newScid)).bytes := by
    cases hmint
    rw [List.length_append, FixedBytes.length_eq, Nat.add_sub_cancel, List.drop_left]
  constructor
  · intro hauth hre
    obtain ⟨body, hbody, haccept⟩ := hre.accepted sha256 scid dcid src
    have h := hauth scid _ _ (by simp [FixedBytes.length_eq])
      (by rw [hhash, List.length_append, FixedBytes.length_eq, Nat.add_sub_cancel, List.drop_left])
      haccept
    exact hre.1.elim (fun hne ↦ hne h.1) (fun hne ↦ hne h.2.1)
  · intro hre scid' token odcid' hlen hlast haccept
    have htoken := List.take_append_drop (token.length - 32) token
    rw [hlast, hhash] at htoken
    rw [← htoken] at haccept
    obtain ⟨hbody, hb, hp, ⟨n, hn, hle, hexp⟩, hodcid⟩ := accepted_reading _ _ _ hfree haccept
    generalize token.take (token.length - 32) = body at *
    have hts := timestamp_append dcid hb
    rw [hbody] at hts
    have hsuffix : dcid <:+ newScid := List.suffix_of_suffix_length_le ⟨body, hbody⟩
      (message_suffix src.ip t.asSecs odcid newScid) (by omega)
    have hsame : src'.ip = src.ip ∧ dcid = newScid := by
      by_contra hne
      refine hre ⟨not_and_or.mp hne, hsuffix, hp.trans ⟨dcid, hbody⟩, ?_, n, hn, hts ▸ hle,
        hts ▸ hexp⟩
      rw [← hbody, List.length_append]
      omega
    refine ⟨hsame.1, hsame.2, ?_⟩
    rw [hsame.2] at hbody
    rw [hodcid, List.append_cancel_right hbody, hsame.1, ← toBeBytes_length t.asSecs,
      ← List.length_append, List.drop_left]

def exampleValidator : SimpleAddressValidator :=
  ⟨⟨(List.range 20).map UInt8.ofNat, rfl⟩, Duration.fromSecs 100⟩

def exampleClient : SocketAddr := ⟨.localhost, 1234⟩

def exampleOdcid : ConnectionId := [1, 2, 3, 4, 5, 6, 7, 8]

def exampleNewScid : ConnectionId := (List.range 20).map fun i ↦ UInt8.ofNat (100 + i)

def exampleClock : SystemTime := ⟨1700000000, 0, by decide, by decide⟩

def exampleMessage : Bytes :=
  exampleValidator.seed.bytes ++ message exampleClient.ip 1700000000 exampleOdcid exampleNewScid

/-- The value of SHA-256 at the example, where nothing else is mapped to it. -/
def exampleSha256 : Sha256 := fun m ↦
  if m = exampleMessage then
    ⟨[230, 245, 238, 187, 130, 73, 54, 197, 25, 90, 26, 10, 123, 13, 215, 145,
      110, 5, 103, 197, 201, 49, 8, 110, 31, 251, 253, 176, 2, 216, 139, 21], rfl⟩
  else ⟨List.replicate 32 0, rfl⟩

def exampleMinted : Bytes :=
  exampleClient.ip.octets ++ toBeBytes 1700000000 ++ exampleOdcid ++
    (exampleSha256 exampleMessage).bytes

theorem exampleSha256_collisionFree : CollisionFree exampleSha256 exampleMessage := by
  intro m h
  by_contra hne
  simp [exampleSha256, hne] at h

theorem exampleClock_secs : exampleClock.durationSinceEpoch = .ok (1000000000 * 1700000000) := rfl

theorem exampleMinted_eq :
    exampleValidator.mintRetryToken exampleSha256 exampleClock [] exampleOdcid exampleNewScid
      exampleClient = .ok (.ok exampleMinted) := by
  rw [mintRetryToken_eq _ _ _ _ _ exampleClock_secs, Duration.asSecs,
    Nat.mul_div_cancel_left _ (by decide)]
  rfl

theorem authentic_example :
    exampleValidator.Authentic exampleSha256 exampleClock exampleMinted exampleClient exampleOdcid
      exampleNewScid ⟨exampleClient.ip, 4321⟩ exampleNewScid := by
  refine (authentic_iff [] exampleNewScid exampleClient exampleClock_secs exampleMinted_eq ?_ rfl
    (by decide)).mpr ?_
  · rw [Duration.asSecs, Nat.mul_div_cancel_left _ (by decide)]
    exact exampleSha256_collisionFree
  · exact fun h ↦ h.1.elim (fun hne ↦ hne rfl) (fun hne ↦ hne rfl)

/-- The last eight bytes of the minted connection id are accepted in its
place, with its first twelve bytes appended to the original one. -/
theorem not_authentic_example :
    ¬ exampleValidator.Authentic exampleSha256 exampleClock exampleMinted exampleClient
      exampleOdcid exampleNewScid exampleClient (exampleNewScid.drop 12) := by
  have hre : exampleValidator.Resplits exampleClock 1700000000 exampleClient exampleOdcid
      exampleNewScid exampleClient (exampleNewScid.drop 12) := by
    refine ⟨.inr (by decide), List.drop_suffix _ _, ?_, by decide, _, exampleClock_secs,
      by decide, by decide⟩
    simp only [message, List.append_assoc, List.prefix_append]
  obtain ⟨body, -, haccept⟩ := hre.accepted exampleSha256 []
  intro h
  have hlast : exampleMinted.drop (exampleMinted.length - 32) =
      (exampleSha256 exampleMessage).bytes := by
    rw [exampleMinted, List.length_append, FixedBytes.length_eq, Nat.add_sub_cancel, List.drop_left]
  have hne := (h [] (body ++ (exampleSha256 exampleMessage).bytes) _
    (by simp [FixedBytes.length_eq]) (by
      rw [hlast, List.length_append, FixedBytes.length_eq, Nat.add_sub_cancel, List.drop_left])
    haccept).2.1
  exact absurd hne (by decide)

end Binding

section Lifetime

variable {t n : Duration} {mintedAt : SystemTime}

theorem validateAddress_signed {body : Bytes} (hlen : src.ip.octets.length + 8 ≤ body.length)
    (haddr : src.ip.octets <+: body) (hn : now.durationSinceEpoch = .ok n)
    (ht : timestamp src.ip body ≤ n) :
    v.validateAddress sha256 now scid dcid src
        (body ++ (sha256 (v.seed.bytes ++ body ++ dcid)).bytes) =
      .ok (if n - timestamp src.ip body ≤ v.expirationInterval then
        some (body.drop (src.ip.octets.length + 8)) else none) := by
  have hbody : (body ++ (sha256 (v.seed.bytes ++ body ++ dcid)).bytes).length - 32 =
      body.length := by
    rw [List.length_append, FixedBytes.length_eq, Nat.add_sub_cancel]
  have hreadable := (readable_append_iff src.ip body
    (sha256 (v.seed.bytes ++ body ++ dcid))).mpr ⟨hlen, haddr⟩
  rw [validateAddress_readable _ _ _ _ _ _ _ hreadable, hbody, List.take_left, List.drop_left,
    timestamp_append _ hlen]
  simp only [hn, unwrapResult, ok_bind, Duration.sub, ht, if_true, ne_eq, not_true_eq_false,
    if_false, pure_eq_ok]
  by_cases hexpired : n - timestamp src.ip body ≤ v.expirationInterval
  · rw [if_neg (Nat.not_lt.mpr hexpired), if_pos hexpired]
  · rw [if_pos (Nat.lt_of_not_le hexpired), if_neg hexpired]

theorem timestamp_minted {secs : ℕ} (hsecs : secs < 2 ^ 64) (ip : IpAddr) (odcid : ConnectionId) :
    timestamp ip (ip.octets ++ toBeBytes secs ++ odcid) = Duration.fromSecs secs := by
  rw [timestamp, List.append_assoc, List.drop_left, List.take_left' (toBeBytes_length secs),
    beValue_toBeBytes hsecs]

/-- A minted token is accepted for its connection id and address, with any port,
as long as the interval has not passed since the second of the mint, and
gives back the original connection id. -/
theorem minted_token_validates {odcid newScid scid' : ConnectionId} {src' : SocketAddr}
    (ht : mintedAt.durationSinceEpoch = .ok t) (hn : now.durationSinceEpoch = .ok n) (hle : t ≤ n)
    (hip : src'.ip = src.ip) :
    ∃ token, v.mintRetryToken sha256 mintedAt scid odcid newScid src = .ok (.ok token) ∧
      v.validateAddress sha256 now scid' newScid src' token =
        .ok (if n - Duration.fromSecs t.asSecs ≤ v.expirationInterval then some odcid else none) := by
  have hsecs : t.asSecs < 2 ^ 64 := Nat.lt_trans (SystemTime.asSecs_lt ht) (by decide)
  have hstamp := timestamp_minted hsecs src.ip odcid
  have hlen : src'.ip.octets.length + 8 ≤
      (src'.ip.octets ++ toBeBytes t.asSecs ++ odcid).length := by
    simp only [List.length_append, toBeBytes_length]
    omega
  have haddr : src'.ip.octets <+: src'.ip.octets ++ toBeBytes t.asSecs ++ odcid := by
    rw [List.append_assoc]
    exact List.prefix_append _ _
  rw [← hip] at hstamp
  have hearly : timestamp src'.ip (src'.ip.octets ++ toBeBytes t.asSecs ++ odcid) ≤ n := by
    rw [hstamp]
    exact Nat.le_trans (Duration.fromSecs_asSecs_le t) hle
  have hsigned := validateAddress_signed sha256 v now scid' newScid src' hlen haddr hn hearly
  rw [hstamp] at hsigned
  refine ⟨_, mintRetryToken_eq sha256 v mintedAt scid src ht odcid newScid, ?_⟩
  have hdrop : (src'.ip.octets ++ toBeBytes t.asSecs ++ odcid).drop (src'.ip.octets.length + 8) =
      odcid := List.drop_left' (by simp)
  rw [hdrop] at hsigned
  rw [message, ← hip]
  simp only [List.append_assoc] at hsigned ⊢
  exact hsigned

theorem minted_token_validates_example :
    ∃ token, exampleValidator.mintRetryToken exampleSha256
        ⟨1700000000, 500000000, by decide, by decide⟩ [] exampleOdcid exampleNewScid
        exampleClient = .ok (.ok token) ∧
      exampleValidator.validateAddress exampleSha256 ⟨1700000100, 0, by decide, by decide⟩ []
        exampleNewScid ⟨exampleClient.ip, 4321⟩ token = .ok (some exampleOdcid) ∧
      exampleValidator.validateAddress exampleSha256 ⟨1700000100, 1, by decide, by decide⟩ []
        exampleNewScid exampleClient token = .ok none := by
  have hmint : SystemTime.durationSinceEpoch ⟨1700000000, 500000000, by decide, by decide⟩ =
      .ok 1700000000500000000 := rfl
  obtain ⟨token, htoken, hlast⟩ := minted_token_validates exampleSha256 exampleValidator
    ⟨1700000100, 0, by decide, by decide⟩ [] exampleClient hmint rfl (by decide)
    (rfl : (⟨exampleClient.ip, 4321⟩ : SocketAddr).ip = exampleClient.ip)
  obtain ⟨token', htoken', hafter⟩ := minted_token_validates exampleSha256 exampleValidator
    ⟨1700000100, 1, by decide, by decide⟩ [] exampleClient hmint rfl (by decide)
    (rfl : exampleClient.ip = exampleClient.ip)
  rw [htoken] at htoken'
  cases htoken'
  exact ⟨token, htoken, hlast, hafter⟩

end Lifetime

end SimpleAddressValidator

end ZeroRtt.Api.RetryToken
