import Mathlib.Algebra.Group.Int.Defs
import Mathlib.Algebra.Group.Nat.Defs
import Mathlib.Data.Int.Basic
import Mathlib.Data.List.Basic

namespace ZeroRtt.Lib.Panics

abbrev Bytes := List UInt8

/-- `[u8; n]`. -/
@[ext] structure FixedBytes (n : ℕ) where
  bytes : Bytes
  length_eq : bytes.length = n
deriving DecidableEq

def FixedBytes.zero (n : ℕ) : FixedBytes n := ⟨List.replicate n 0, List.length_replicate⟩

/-- The ways in which a modelled function can fail to return: it unwinds, it
never leaves a loop, or it follows a reference to something that is gone. -/
inductive Panic
  | unwrapNone
  | unwrapErr
  | expect (msg : String)
  | assertion
  | unreachable (msg : String)
  | sliceIndex
  | sliceLength
  | integerUnderflow
  | integerOverflow
  | remainderByZero
  | durationUnderflow
  | hangs
  | dangling
deriving DecidableEq, Repr

abbrev Rust := Except Panic

section Checked

variable {α β ε : Type}

def unwrapOption : Option α → Rust α
  | none => .error .unwrapNone
  | some a => .ok a

def unwrapResult : Except ε α → Rust α
  | .error _ => .error .unwrapErr
  | .ok a => .ok a

def assert (p : Prop) [Decidable p] : Rust Unit :=
  if p then .ok () else .error .assertion

/-- `a - b` on unsigned integers. -/
def checkedSub (a b : ℕ) : Rust ℕ :=
  if b ≤ a then .ok (a - b) else .error .integerUnderflow

/-- `a + b` on `u64`. -/
def checkedAdd (a b : ℕ) : Rust ℕ :=
  if a + b < 2 ^ 64 then .ok (a + b) else .error .integerOverflow

/-- The two ways in which arithmetic on `u64` is compiled: it panics when it
overflows, or it wraps around. -/
inductive Build
  | debug
  | release
deriving DecidableEq

def Build.add : Build → ℕ → ℕ → Rust ℕ
  | .debug, a, b => checkedAdd a b
  | .release, a, b => .ok ((a + b) % 2 ^ 64)

def Build.sub : Build → ℕ → ℕ → Rust ℕ
  | .debug, a, b => checkedSub a b
  | .release, a, b => .ok ((a + (2 ^ 64 - b)) % 2 ^ 64)

/-- `a % b` on unsigned integers. -/
def checkedRem (a b : ℕ) : Rust ℕ :=
  if b = 0 then .error .remainderByZero else .ok (a % b)

/-- `&l[a..b]`. -/
def slice (l : List α) (a b : ℕ) : Rust (List α) :=
  if a ≤ b ∧ b ≤ l.length then .ok ((l.take b).drop a) else .error .sliceIndex

/-- `dst[a..b].copy_from_slice(src)`. -/
def copyFromSlice (dst : List α) (a b : ℕ) (src : List α) : Rust (List α) :=
  if a ≤ b ∧ b ≤ dst.length then
    if src.length = b - a then .ok (dst.take a ++ src ++ dst.drop b) else .error .sliceLength
  else .error .sliceIndex

theorem bind_ok {x : Rust α} {f : α → Rust β} {b : β} (h : x >>= f = .ok b) :
    ∃ a, x = .ok a ∧ f a = .ok b := by
  cases x with
  | error e => cases h
  | ok a => exact ⟨a, rfl, h⟩

@[simp] theorem ok_bind (a : α) (f : α → Rust β) : (Except.ok a >>= f : Rust β) = f a := rfl

@[simp] theorem error_bind (e : Panic) (f : α → Rust β) :
    ((Except.error e : Rust α) >>= f : Rust β) = .error e := rfl

@[simp] theorem pure_eq_ok (a : α) : (pure a : Rust α) = .ok a := rfl

@[simp] theorem assert_true [Decidable True] : assert True = .ok () := if_pos trivial

theorem assert_of {p : Prop} [Decidable p] (h : p) : assert p = .ok () := if_pos h

theorem slice_of_le {l : List α} {a b : ℕ} (hab : a ≤ b) (hb : b ≤ l.length) :
    slice l a b = .ok ((l.take b).drop a) := if_pos ⟨hab, hb⟩

theorem checkedSub_of_le {a b : ℕ} (h : b ≤ a) : checkedSub a b = .ok (a - b) := if_pos h

theorem checkedAdd_of_lt {a b : ℕ} (h : a + b < 2 ^ 64) : checkedAdd a b = .ok (a + b) := if_pos h

theorem Build.add_of_lt (build : Build) {a b : ℕ} (h : a + b < 2 ^ 64) :
    build.add a b = .ok (a + b) := by
  cases build with
  | debug => exact checkedAdd_of_lt h
  | release => rw [Build.add, Nat.mod_eq_of_lt h]

theorem Build.sub_of_le (build : Build) {a b : ℕ} (h : b ≤ a) (ha : a < 2 ^ 64) :
    build.sub a b = .ok (a - b) := by
  cases build with
  | debug => exact checkedSub_of_le h
  | release =>
    have hdiff : a + (2 ^ 64 - b) = a - b + 2 ^ 64 := by omega
    rw [Build.sub, hdiff, Nat.add_mod_right, Nat.mod_eq_of_lt (by omega)]

theorem checkedRem_of_pos {a b : ℕ} (h : 0 < b) : checkedRem a b = .ok (a % b) :=
  if_neg (Nat.pos_iff_ne_zero.mp h)

theorem copyFromSlice_length {dst dst' src : List α} {a b : ℕ}
    (h : copyFromSlice dst a b src = .ok dst') : dst'.length = dst.length := by
  unfold copyFromSlice at h
  split_ifs at h with hrange hsrc
  cases h
  simp only [List.length_append, List.length_take, List.length_drop]
  omega

end Checked

section Loops

variable {σ ι ε : Type} {f : ι → σ → Rust (Except ε Unit × σ)} {I : σ → Prop} {s s' : σ}

/-- A loop that is left with the first error of its body. -/
def tryEach (f : ι → σ → Rust (Except ε Unit × σ)) : List ι → σ → Rust (Except ε Unit × σ)
  | [], s => .ok (.ok (), s)
  | i :: is, s => do
    match ← f i s with
    | (.error err, s) => return (.error err, s)
    | (.ok _, s) => tryEach f is s

theorem tryEach_cons_of_ok {i : ι} (h : f i s = .ok (.ok (), s')) (is : List ι) :
    tryEach f (i :: is) s = tryEach f is s' := by
  rw [tryEach, h, ok_bind]

theorem tryEach_cons_ok {i : ι} {is : List ι} (h : tryEach f (i :: is) s = .ok (.ok (), s')) :
    ∃ t, f i s = .ok (.ok (), t) ∧ tryEach f is t = .ok (.ok (), s') := by
  obtain ⟨⟨r, t⟩, hf, h⟩ := bind_ok h
  cases r with
  | error err => cases h
  | ok _ => exact ⟨t, hf, h⟩

theorem tryEach_of_error {before after : List ι} {i : ι} {t : σ} {err : ε}
    (hbefore : tryEach f before s = .ok (.ok (), t)) (hi : f i t = .ok (.error err, s')) :
    tryEach f (before ++ i :: after) s = .ok (.error err, s') := by
  induction before generalizing s with
  | nil =>
    cases hbefore
    rw [List.nil_append, tryEach, hi]
    rfl
  | cons j before ih =>
    obtain ⟨u, hj, hbefore⟩ := tryEach_cons_ok hbefore
    rw [List.cons_append, tryEach_cons_of_ok hj]
    exact ih hbefore

theorem tryEach_error {is : List ι} {err : ε} (h : tryEach f is s = .ok (.error err, s')) :
    ∃ before i after t, is = before ++ i :: after ∧ tryEach f before s = .ok (.ok (), t) ∧
      f i t = .ok (.error err, s') := by
  induction is generalizing s with
  | nil => cases h
  | cons i is ih =>
    obtain ⟨⟨r, t⟩, hi, h⟩ := bind_ok h
    cases r with
    | error err' =>
      cases h
      exact ⟨[], i, is, s, rfl, rfl, hi⟩
    | ok _ =>
      obtain ⟨before, j, after, u, heq, hbefore, hj⟩ := ih h
      refine ⟨i :: before, j, after, u, by rw [heq, List.cons_append], ?_, hj⟩
      rwa [tryEach_cons_of_ok hi]

theorem tryEach_invariant {is : List ι} {r : Except ε Unit} (hs : I s)
    (hf : ∀ i ∈ is, ∀ s r s', I s → f i s = .ok (r, s') → I s')
    (h : tryEach f is s = .ok (r, s')) : I s' := by
  induction is generalizing s with
  | nil =>
    cases h
    exact hs
  | cons i is ih =>
    obtain ⟨⟨r₁, t⟩, hi, h⟩ := bind_ok h
    have ht := hf i (List.mem_cons_self ..) s r₁ t hs hi
    cases r₁ with
    | error err =>
      cases h
      exact ht
    | ok _ => exact ih ht (fun j hj ↦ hf j (List.mem_cons_of_mem _ hj)) h

/-- The loop comes to its end iff none of its turns fails in the state in which it is
taken. -/
theorem tryEach_ok_iff {H : ι → σ → Prop} {is : List ι} (hs : I s)
    (hf : ∀ i ∈ is, ∀ s, I s → ((∃ s', f i s = .ok (.ok (), s')) ↔ H i s))
    (hI : ∀ i ∈ is, ∀ s s', I s → f i s = .ok (.ok (), s') → I s') :
    (∃ s', tryEach f is s = .ok (.ok (), s')) ↔
      ∀ before i after t, is = before ++ i :: after →
        tryEach f before s = .ok (.ok (), t) → H i t := by
  induction is generalizing s with
  | nil =>
    refine ⟨fun _ before i after t heq ↦ ?_, fun _ ↦ ⟨s, rfl⟩⟩
    simp at heq
  | cons i is ih =>
    have hmem : ∀ j ∈ is, j ∈ i :: is := fun j hj ↦ List.mem_cons_of_mem _ hj
    have hi := hf i (List.mem_cons_self ..) s hs
    have hrest : ∀ t, f i s = .ok (.ok (), t) → _ := fun t ht ↦
      ih (hI i (List.mem_cons_self ..) s t hs ht) (fun j hj ↦ hf j (hmem j hj))
        (fun j hj ↦ hI j (hmem j hj))
    constructor
    · rintro ⟨s', h⟩ before j after t heq hbefore
      obtain ⟨s₁, hrun, h⟩ := tryEach_cons_ok h
      cases before with
      | nil =>
        cases heq
        cases hbefore
        exact hi.mp ⟨s₁, hrun⟩
      | cons k before =>
        cases heq
        rw [tryEach_cons_of_ok hrun] at hbefore
        exact (hrest s₁ hrun).mp ⟨s', h⟩ before j after t rfl hbefore
    · intro hH
      obtain ⟨s₁, hrun⟩ := hi.mpr (hH [] i is s rfl rfl)
      rw [tryEach_cons_of_ok hrun]
      refine (hrest s₁ hrun).mpr fun before j after t heq hbefore ↦ ?_
      refine hH (i :: before) j after t (by rw [heq]; rfl) ?_
      rwa [tryEach_cons_of_ok hrun]

end Loops

section InputOutput

/-- The values of `std::io::ErrorKind` that the code names. -/
inductive ErrorKind
  | wouldBlock
  | notFound
  | brokenPipe
  | other
deriving DecidableEq, Repr

/-- `std::io::Error`, with a text or an error of another type in it. -/
structure IoError (ε : Type) where
  kind : ErrorKind
  payload : String ⊕ ε
deriving DecidableEq, Repr

/-- `std::task::Waker`; each poll of a task comes with a waker of its own. -/
structure Waker where
  id : ℕ
deriving DecidableEq, Repr

end InputOutput

section Time

/-- A `Duration`, in nanoseconds. -/
abbrev Duration := ℕ

/-- A reading of the monotonic clock, in nanoseconds. -/
abbrev Instant := ℕ

def Duration.fromSecs (secs : ℕ) : Duration := 1000000000 * secs

def Duration.asSecs (d : Duration) : ℕ := d / 1000000000

def Duration.sub (a b : Duration) : Rust Duration :=
  if b ≤ a then .ok (a - b) else .error .durationUnderflow

def Instant.checkedDurationSince (time earlier : Instant) : Option Duration :=
  if earlier ≤ time then some (time - earlier) else none

/-- A reading of the wall clock: whole seconds from the epoch, possibly
negative, and the nanoseconds after them. -/
structure SystemTime where
  secs : ℤ
  nanos : ℕ
  secs_lt : secs < 2 ^ 63
  nanos_lt : nanos < 1000000000

/-- `time.duration_since(UNIX_EPOCH)`, an error before the epoch. -/
def SystemTime.durationSinceEpoch (t : SystemTime) : Except Unit Duration :=
  if 0 ≤ t.secs then .ok (1000000000 * t.secs.toNat + t.nanos) else .error ()

theorem Duration.fromSecs_asSecs_le (d : Duration) : Duration.fromSecs d.asSecs ≤ d :=
  Nat.mul_div_le d _

theorem SystemTime.asSecs_lt {t : SystemTime} {d : Duration} (h : t.durationSinceEpoch = .ok d) :
    d.asSecs < 2 ^ 63 := by
  obtain ⟨secs, nanos, hsecs, hnanos⟩ := t
  simp only [SystemTime.durationSinceEpoch] at h
  split at h
  · cases h
    unfold Duration.asSecs
    omega
  · cases h

end Time

section BigEndian

def toBeBytes (n : ℕ) : Bytes :=
  [7, 6, 5, 4, 3, 2, 1, 0].map fun i ↦ UInt8.ofNat (n / 256 ^ i)

def beValue (bytes : Bytes) : ℕ := bytes.foldl (fun n b ↦ n * 256 + b.toNat) 0

def fromBeBytes (bytes : FixedBytes 8) : ℕ := beValue bytes.bytes

/-- `slice.try_into()` for an array of eight bytes. -/
def tryIntoArray (bytes : Bytes) : Except Unit (FixedBytes 8) :=
  if h : bytes.length = 8 then .ok ⟨bytes, h⟩ else .error ()

@[simp] theorem toBeBytes_length (n : ℕ) : (toBeBytes n).length = 8 := rfl

theorem tryIntoArray_of_length {bytes : Bytes} (h : bytes.length = 8) :
    tryIntoArray bytes = .ok ⟨bytes, h⟩ := dif_pos h

theorem beValue_toBeBytes {n : ℕ} (h : n < 2 ^ 64) : beValue (toBeBytes n) = n := by
  simp only [beValue, toBeBytes, List.map_cons, List.map_nil, List.foldl_cons, List.foldl_nil,
    UInt8.toNat_ofNat']
  omega

end BigEndian

end ZeroRtt.Lib.Panics
