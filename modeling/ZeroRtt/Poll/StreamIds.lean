import ZeroRtt.Poll.Opening

namespace ZeroRtt.Poll.StreamIds

open ZeroRtt.Lib.Panics ZeroRtt.Lib.Containers ZeroRtt.Lib.Runs ZeroRtt.Lib.Counters
open ZeroRtt.Api.Types ZeroRtt.Api.Quiche ZeroRtt.Poll.Schedule ZeroRtt.Poll.Conn
open ZeroRtt.Poll.Evolution ZeroRtt.Poll.Sections ZeroRtt.Poll.Interleaving
open ZeroRtt.Poll.Chronicle ZeroRtt.Poll.Opening

variable {token : Token} {m m' : Machine} {c c' : QuicConn} {kind : StreamKind} {a : Action}

section Lists

def idsOf (kind : StreamKind) (opened : List Opened) : List ℕ :=
  (opened.filter fun o ↦ o.kind = kind).map fun o ↦ o.id

def streams (kind : StreamKind) (created : List (StreamKind × ℕ)) : ℕ :=
  created.countP fun o ↦ o.1 = kind

theorem idsOf_append (kind : StreamKind) (xs ys : List Opened) :
    idsOf kind (xs ++ ys) = idsOf kind xs ++ idsOf kind ys := by
  simp [idsOf]

theorem idsOf_self (kind : StreamKind) (id left : ℕ) : idsOf kind [⟨kind, id, left⟩] = [id] := by
  simp [idsOf]

theorem idsOf_of_ne {kind' : StreamKind} (h : kind' ≠ kind) (id left : ℕ) :
    idsOf kind' [⟨kind, id, left⟩] = [] := by
  simp [idsOf, h.symm]

theorem streams_append (kind : StreamKind) (xs ys : List (StreamKind × ℕ)) :
    streams kind (xs ++ ys) = streams kind xs + streams kind ys := List.countP_append

theorem streams_self (kind : StreamKind) (id : ℕ) : streams kind [(kind, id)] = 1 := by
  simp [streams]

theorem streams_of_ne {kind' : StreamKind} (h : kind' ≠ kind) (id : ℕ) :
    streams kind' [(kind, id)] = 0 := by
  simp [streams, h.symm]

end Lists

section Examples

/-- A connection for examples: the peer allows many streams, and quiche refuses to create
those of the given ids. -/
def openable (isServer : Bool) (refused : List ℕ) : Connection where
  answer h
    | .streamPriority id .. => if id ∈ refused then .error (.other (-12)) else .ok ()
    | c => Script.answer ⟨isServer, [1], [], [], none⟩ h c
  value h
    | .peerStreamsLeftUni => 8
    | .peerStreamsLeftBidi => 8
    | q => Script.value ⟨isServer, [1], [], [], none⟩ h q
  history := []
  label := 0
  isServer := isServer
  streamsLeft _ := 0
  writable_ends h id hid := by cases hid
  readable_ends h id hid := by cases hid

end Examples

section Counting

/-- The connection is not locked, and quiche refuses to create the next stream of the kind
although it has some left. -/
def Refused (g : Group) (token : Token) (kind : StreamKind) : Prop :=
  ∃ c err, g.state.conns.lookup token = some c ∧ c.locker = .none ∧
    c.wrapped.peerStreamsLeft kind ≠ 0 ∧ creation c kind = .error err

/-- What can be said of a counter, its first id and the ids it has given out. -/
structure Account (I : ℕ → ℕ → List ℕ → Prop) : Prop where
  nil : ∀ base, I base base []
  issue : ∀ {base next ids}, I base next ids → I base (next + 4) (ids ++ [next])

theorem account_issued : Account fun base next ids ↦ Issued base 4 next ids :=
  ⟨fun _ ↦ issued_nil, fun h ↦ h.issue (by omega)⟩

theorem account_gapless : Account fun base next ids ↦ Gapless base 4 next ids :=
  ⟨fun _ ↦ gapless_nil, fun h ↦ h.issue⟩

structure Counts (I : ℕ → ℕ → List ℕ → Prop) (token : Token) (m : Machine) : Prop where
  tidy : Tidy m.world.group
  gone : m.lookup token = none → m.opened = [] ∧ m.created = []
  ids : ∀ c, m.lookup token = some c → ∀ kind,
    I (firstStreamId c.wrapped.isServer kind) (nextStreamId c kind) (idsOf kind m.opened)
  created : ∀ kind, streams kind m.created = (idsOf kind m.opened).length
  left : ∀ o ∈ m.opened, o.left ≠ 0

variable {I : ℕ → ℕ → List ℕ → Prop}

theorem Counts.of_none (htidy : Tidy m.world.group) (hnone : m.lookup token = none)
    (hopened : m.opened = []) (hcreated : m.created = []) : Counts I token m := by
  refine ⟨htidy, fun _ ↦ ⟨hopened, hcreated⟩, fun c hc ↦ ?_, fun kind ↦ ?_, ?_⟩
  · rw [hnone] at hc
    cases hc
  · rw [hopened, hcreated]
    rfl
  · simp [hopened]

theorem Counts.of_some (htidy : Tidy m.world.group) (hc : m.lookup token = some c)
    (hids : ∀ kind,
      I (firstStreamId c.wrapped.isServer kind) (nextStreamId c kind) (idsOf kind m.opened))
    (hcreated : ∀ kind, streams kind m.created = (idsOf kind m.opened).length)
    (hleft : ∀ o ∈ m.opened, o.left ≠ 0) : Counts I token m := by
  refine ⟨htidy, fun hnone ↦ ?_, fun c' hc' ↦ ?_, hcreated, hleft⟩
  · rw [hc] at hnone
    cases hnone
  · rw [hc] at hc'
    cases hc'
    exact hids

theorem tidy_machine (h : Tidy m.world.group) (token : Token) (a : Action) :
    Tidy (m.next token a).world.group := by
  have hnext := h.next a
  unfold Machine.next
  dsimp only
  split <;> exact hnext

theorem Counts.next (hI : Account I) (h : Counts I token m)
    (hskip : ∀ kind nonBlocking env, a = .streamOpen token kind nonBlocking env →
      Refused m.world.group token kind → ∀ {base next ids}, I base next ids → I base (next + 4) ids) :
    Counts I token (m.next token a) := by
  have htidy := tidy_machine h.tidy token a
  have hmoves := h.tidy.moves token a
  generalize m.next token a = m' at htidy hmoves ⊢
  cases hmoves with
  | gone hnone hopened hcreated => exact .of_none htidy hnone hopened hcreated
  | fresh c hnone hc hfirst hopened hcreated =>
    obtain ⟨hnil, hnil'⟩ := h.gone hnone
    refine .of_some htidy hc (fun kind ↦ ?_) (by rw [hopened, hcreated]; exact h.created) ?_
    · rw [hopened, hnil, hfirst]
      exact hI.nil _
    · rw [hopened]
      exact h.left
  | stays c c' hc hc' hstays hopened hcreated =>
    refine .of_some htidy hc' (fun kind ↦ ?_) (by rw [hopened, hcreated]; exact h.created) ?_
    · rw [hstays.isServer, hstays.ids, hopened]
      exact h.ids c hc kind
    · rw [hopened]
      exact h.left
  | skips c c' kind nonBlocking env err ha hc hc' hfree hleft hcreation hadvances hopened hcreated =>
    refine .of_some htidy hc' (fun kind' ↦ ?_) (by rw [hopened, hcreated]; exact h.created) ?_
    · rw [hadvances.isServer, hopened]
      by_cases hkind : kind' = kind
      · subst hkind
        rw [hadvances.next]
        exact hskip kind' nonBlocking env ha ⟨c, err, hc, hfree, hleft, hcreation⟩ (h.ids c hc kind')
      · rw [hadvances.other kind' hkind]
        exact h.ids c hc kind'
    · rw [hopened]
      exact h.left
  | opens c c' kind hc hc' hleft hadvances hopened hcreated =>
    refine .of_some htidy hc' (fun kind' ↦ ?_) (fun kind' ↦ ?_) fun o ho ↦ ?_
    · rw [hadvances.isServer, hopened, idsOf_append]
      by_cases hkind : kind' = kind
      · subst hkind
        rw [hadvances.next, idsOf_self]
        exact hI.issue (h.ids c hc kind')
      · rw [hadvances.other kind' hkind, idsOf_of_ne hkind, List.append_nil]
        exact h.ids c hc kind'
    · rw [hopened, hcreated, idsOf_append, List.length_append, ← h.created kind', streams_append]
      by_cases hkind : kind' = kind
      · subst hkind
        rw [idsOf_self, streams_self]
        rfl
      · rw [idsOf_of_ne hkind, streams_of_ne hkind]
        rfl
    · rw [hopened] at ho
      rcases List.mem_append.mp ho with ho | ho
      · exact h.left o ho
      · rw [List.mem_singleton.mp ho]
        exact hleft

theorem counts_initial : Counts I token .initial := by
  refine .of_none ⟨fun t c hc ↦ ?_, fun o ho ↦ absurd ho List.not_mem_nil⟩ ?_ rfl rfl
  · rw [show Machine.initial.world.group.state.conns.lookup t = none from AList.lookup_empty t] at hc
    cases hc
  · exact AList.lookup_empty token

theorem run_issued
    (h : Run (Machine.step token) (fun m a ↦ Legal m.world a) .initial m) :
    Counts (fun base next ids ↦ Issued base 4 next ids) token m := by
  refine h.invariant counts_initial fun m m' a hm _ hstep ↦ ?_
  cases hstep
  exact hm.next account_issued fun _ _ _ _ _ ↦ Issued.skip

/-- The ids that `stream_open` returns for a connection are all different, go up in each kind,
and are of the kind that was asked for and of the role of the connection. -/
structure WellTyped (token : Token) (m : Machine) : Prop where
  distinct : (m.opened.map fun o ↦ o.id).Nodup
  increasing : ∀ kind, (idsOf kind m.opened).Pairwise (· < ·)
  typed : ∀ o ∈ m.opened, ∃ c, m.lookup token = some c ∧ isLocal o.id c.wrapped.isServer = true ∧
    StreamKind.ofId o.id = o.kind ∧
    ∀ e ∈ insertedBy (observations m.world.group.state.history), e.kind = .streamAccept →
      e.isServer = c.wrapped.isServer → e.streamId ≠ o.id
  left : ∀ o ∈ m.opened, o.left ≠ 0

theorem mem_idsOf {o : Opened} {opened : List Opened} (h : o ∈ opened) :
    o.id ∈ idsOf o.kind opened := by
  apply List.mem_map_of_mem
  rw [List.mem_filter]
  exact ⟨h, by simp⟩

theorem nodup_of_increasing {opened : List Opened}
    (hkind : ∀ o ∈ opened, StreamKind.ofId o.id = o.kind)
    (h : ∀ kind, (idsOf kind opened).Pairwise (· < ·)) : (opened.map fun o ↦ o.id).Nodup := by
  induction opened with
  | nil => exact List.nodup_nil
  | cons o opened ih =>
    rw [List.map_cons, List.nodup_cons]
    constructor
    · intro hmem
      obtain ⟨o', ho', hid⟩ := List.mem_map.mp hmem
      have hsame : o'.kind = o.kind := by
        rw [← hkind o' (List.mem_cons_of_mem _ ho'), ← hkind o (List.mem_cons_self ..), hid]
      have hcons : idsOf o.kind (o :: opened) = o.id :: idsOf o.kind opened := by
        simp [idsOf]
      have hlt := h o.kind
      rw [hcons, List.pairwise_cons] at hlt
      have hbelow := hlt.1 o'.id (hsame ▸ mem_idsOf ho')
      omega
    · refine ih (fun o' ho' ↦ hkind o' (List.mem_cons_of_mem _ ho')) fun kind ↦ ?_
      have hkind := h kind
      rw [show o :: opened = [o] ++ opened from rfl, idsOf_append, List.pairwise_append] at hkind
      exact hkind.2.1

/-- Ids of locally opened streams are unique and well typed. -/
theorem opened_ids_well_typed
    (h : Run (Machine.step token) (fun m a ↦ Legal m.world a) .initial m) :
    WellTyped token m := by
  have hcounts := run_issued h
  have hincreasing : ∀ kind, (idsOf kind m.opened).Pairwise (· < ·) := by
    intro kind
    cases hc : m.lookup token with
    | none =>
      rw [(hcounts.gone hc).1]
      exact .nil
    | some c => exact (hcounts.ids c hc kind).increasing
  have htyped : ∀ o ∈ m.opened, ∃ c, m.lookup token = some c ∧
      isLocal o.id c.wrapped.isServer = true ∧ StreamKind.ofId o.id = o.kind := by
    intro o ho
    cases hc : m.lookup token with
    | none =>
      rw [(hcounts.gone hc).1] at ho
      cases ho
    | some c =>
      have hmod := (hcounts.ids c hc o.kind).mod_eq (mem_idsOf ho)
      exact ⟨c, rfl, isLocal_of_mod hmod⟩
  refine ⟨?_, hincreasing, ?_, hcounts.left⟩
  · refine nodup_of_increasing (fun o ho ↦ ?_) hincreasing
    obtain ⟨c, -, -, hkind⟩ := htyped o ho
    exact hkind
  · intro o ho
    obtain ⟨c, hc, hlocal, hkind⟩ := htyped o ho
    refine ⟨c, hc, hlocal, hkind, fun e he haccept hrole hid ↦ ?_⟩
    obtain ⟨obs, hobs, hinsert⟩ := List.mem_filterMap.mp he
    have hremote := hcounts.tidy.observed obs hobs
    cases obs with
    | insert e' d =>
      cases hinsert
      have hforeign : isLocal e.streamId e.isServer = false := hremote haccept
      rw [hid, hrole, hlocal] at hforeign
      cases hforeign
    | _ => cases hinsert

theorem opened_ids_well_typed_example :
    ∃ m, Run (Machine.step ⟨0⟩) (fun m a ↦ Legal m.world a) .initial m ∧
      m.opened = [⟨.bidi, 1, 8⟩, ⟨.uni, 3, 8⟩, ⟨.bidi, 5, 8⟩] ∧ WellTyped ⟨0⟩ m := by
  have hconnect : Run (Machine.step ⟨0⟩) (fun m a ↦ Legal m.world a) .initial _ :=
    .one (i := .connect (openable true []) .still) (by trivial) rfl
  have hbidi := hconnect.tail (i := .streamOpen ⟨0⟩ .bidi false .still) (by trivial) rfl
  have huni := hbidi.tail (i := .streamOpen ⟨0⟩ .uni true .still) (by trivial) rfl
  have hagain := huni.tail (i := .streamOpen ⟨0⟩ .bidi true .still) (by trivial) rfl
  exact ⟨_, hagain, rfl, opened_ids_well_typed hagain⟩

end Counting

section Failing

/-- A `stream_open` that does not return an id leaves both counters as they are. -/
def FailureKeeps (g : Group) (token : Token) (kind : StreamKind) (nonBlocking : Bool)
    (env : UnlockEnv) : Prop :=
  ∀ r g', Group.streamOpen token kind nonBlocking env g = .ok r g' → (∀ id, r ≠ .ok (some id)) →
    ∀ c, g.state.conns.lookup token = some c → ∃ c', g'.state.conns.lookup token = some c' ∧
      c'.localStreamBidiNext = c.localStreamBidiNext ∧ c'.localStreamUniNext = c.localStreamUniNext

theorem failureKeeps_iff {g : Group} (h : Tidy g) (token : Token) (kind : StreamKind)
    (nonBlocking : Bool) (env : UnlockEnv) :
    FailureKeeps g token kind nonBlocking env ↔ ¬ Refused g token kind := by
  constructor
  · rintro hkeeps ⟨c, err, hc, hfree, hleft, hcreation⟩
    obtain ⟨r, s, hrun, hopens⟩ := streamOpen_some h hc kind nonBlocking env
    have hlookup : (g.state.put token s).conns.lookup token = some s.conn := AList.lookup_insert _
    generalize hr : s.conn = c' at hopens hlookup
    cases hopens with
    | busy hlocked _ => exact hlocked hfree
    | waits _ hnone _ _ => exact hleft hnone
    | opens _ _ hok _ =>
      rw [hcreation] at hok
      cases hok
    | fails _ _ _ hadvances =>
      obtain ⟨c'', hc'', hbidi, huni⟩ := hkeeps _ _ hrun (by simp) c hc
      rw [hlookup] at hc''
      cases hc''
      have hsame : nextStreamId c' = nextStreamId c := nextStreamId_congr hbidi huni
      have hnext := hadvances.next
      rw [hsame] at hnext
      omega
  · intro hrefused r g' hrun hnone c hc
    obtain ⟨r', s, hrun', hopens⟩ := streamOpen_some h hc kind nonBlocking env
    rw [hrun] at hrun'
    cases hrun'
    refine ⟨s.conn, AList.lookup_insert _, ?_⟩
    generalize hr : s.conn = c' at hopens
    cases hopens with
    | busy _ hstays => exact ⟨congrFun hstays.ids .bidi, congrFun hstays.ids .uni⟩
    | waits _ _ _ hstays => exact ⟨congrFun hstays.ids .bidi, congrFun hstays.ids .uni⟩
    | fails hfree hleft hcreation _ => exact absurd ⟨c, _, hc, hfree, hleft, hcreation⟩ hrefused
    | opens _ _ _ _ => exact absurd rfl (hnone _)

/-- The ids of each kind are those of its counter without a gap, one for every stream that
quiche has created. -/
structure InStep (token : Token) (m : Machine) : Prop where
  ids : ∀ c, m.lookup token = some c → ∀ kind, idsOf kind m.opened =
    (List.range (streams kind m.created)).map fun n ↦ firstStreamId c.wrapped.isServer kind + 4 * n
  next : ∀ c, m.lookup token = some c → ∀ kind,
    nextStreamId c kind = firstStreamId c.wrapped.isServer kind + 4 * streams kind m.created

def Unrefused (token : Token) (m : Machine) (a : Action) : Prop :=
  ∀ kind nonBlocking env, a = .streamOpen token kind nonBlocking env →
    ¬ Refused m.world.group token kind

theorem run_gapless
    (h : Run (Machine.step token) (fun m a ↦ Legal m.world a ∧ Unrefused token m a) .initial m) :
    Counts (fun base next ids ↦ Gapless base 4 next ids) token m := by
  refine h.invariant counts_initial fun m m' a hm ha hstep ↦ ?_
  cases hstep
  refine hm.next account_gapless fun kind nonBlocking env heq hrefused ↦ ?_
  exact absurd hrefused (ha.2 kind nonBlocking env heq)

theorem inStep_of_gapless (h : Counts (fun base next ids ↦ Gapless base 4 next ids) token m) :
    InStep token m := by
  constructor
  · intro c hc kind
    rw [h.created]
    exact (h.ids c hc kind).ids_eq
  · intro c hc kind
    rw [h.created]
    exact (h.ids c hc kind).next_eq

/-- An open that fails uses no id up if and only if it is not quiche that fails it, and where
this never happens the ids have no gaps. -/
theorem failed_open_keeps_ids_iff
    (h : Run (Machine.step token) (fun m a ↦ Legal m.world a) .initial m) :
    (∀ kind nonBlocking env, FailureKeeps m.world.group token kind nonBlocking env ↔
      ¬ Refused m.world.group token kind) ∧
    (Run (Machine.step token) (fun m a ↦ Legal m.world a ∧ Unrefused token m a) .initial m →
      InStep token m) := by
  refine ⟨fun kind nonBlocking env ↦ ?_, fun hrun ↦ inStep_of_gapless (run_gapless hrun)⟩
  exact failureKeeps_iff (run_issued h).tidy token kind nonBlocking env

theorem unrefused_of_creation
    (h : ∀ c, m.lookup token = some c → ∀ kind, creation c kind = .ok ()) (a : Action) :
    Unrefused token m a := by
  rintro kind nonBlocking env - ⟨c, err, hc, -, -, hrefused⟩
  rw [h c hc] at hrefused
  cases hrefused

theorem failed_open_keeps_ids_example :
    ∃ m, Run (Machine.step ⟨0⟩) (fun m a ↦ Legal m.world a) .initial m ∧
      m.opened = [⟨.bidi, 0, 8⟩, ⟨.bidi, 4, 8⟩] ∧ InStep ⟨0⟩ m ∧
      ∀ kind nonBlocking env, FailureKeeps m.world.group ⟨0⟩ kind nonBlocking env ↔
        ¬ Refused m.world.group ⟨0⟩ kind := by
  have hconnect : Run (Machine.step ⟨0⟩) (fun m a ↦ Legal m.world a ∧ Unrefused ⟨0⟩ m a) .initial _ :=
    .one (i := .connect (openable false []) .still)
      ⟨trivial, fun _ _ _ heq ↦ by cases heq⟩ rfl
  have hfirst := hconnect.tail (i := .streamOpen ⟨0⟩ .bidi false .still)
    ⟨by trivial, unrefused_of_creation (fun c hc kind ↦ by cases hc; cases kind <;> rfl) _⟩ rfl
  have hsecond := hfirst.tail (i := .streamOpen ⟨0⟩ .bidi true .still)
    ⟨by trivial, unrefused_of_creation (fun c hc kind ↦ by cases hc; cases kind <;> rfl) _⟩ rfl
  obtain ⟨hiff, hsteps⟩ := failed_open_keeps_ids_iff (hsecond.mono fun _ _ h ↦ h.1)
  exact ⟨_, hsecond.mono fun _ _ h ↦ h.1, rfl, hsteps hsecond, hiff⟩

/-- Quiche fails to create the first stream, and the next one does not get its id. -/
theorem failed_open_uses_id :
    ∃ m m', Run (Machine.step ⟨0⟩) (fun m a ↦ Legal m.world a) .initial m ∧
      (∃ g', Group.streamOpen ⟨0⟩ .bidi false .still m.world.group =
        .ok (.error (.quiche (.other (-12)))) g') ∧
      ¬ FailureKeeps m.world.group ⟨0⟩ .bidi false .still ∧
      Run (Machine.step ⟨0⟩) (fun m a ↦ Legal m.world a) m m' ∧
      m'.opened = [⟨.bidi, 4, 8⟩] ∧ ¬ InStep ⟨0⟩ m' := by
  have hconnect : Run (Machine.step ⟨0⟩) (fun m a ↦ Legal m.world a) .initial _ :=
    .one (i := .connect (openable false [0]) .still) trivial rfl
  have hfails : Run (Machine.step ⟨0⟩) (fun m a ↦ Legal m.world a)
      (Machine.initial.next ⟨0⟩ (.connect (openable false [0]) .still)) _ :=
    .one (i := .streamOpen ⟨0⟩ .bidi false .still) (by trivial) rfl
  have hopens := hfails.tail (i := .streamOpen ⟨0⟩ .bidi false .still) (by trivial) rfl
  refine ⟨_, _, hconnect, ⟨_, rfl⟩, ?_, hopens, rfl, ?_⟩
  · intro hkeeps
    obtain ⟨c', hc', hbidi, -⟩ := hkeeps _ _ rfl (fun id hid ↦ by cases hid) _ rfl
    cases hc'
    exact absurd hbidi (by decide)
  · intro hstep
    have hids := hstep.ids _ rfl .bidi
    exact absurd hids (by decide)

end Failing

end ZeroRtt.Poll.StreamIds
