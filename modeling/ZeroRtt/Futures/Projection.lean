import Mathlib.Data.List.Flatten
import ZeroRtt.Futures.Contention
import ZeroRtt.Poll.Deliveries

namespace ZeroRtt.Futures.Projection

open ZeroRtt.Lib.Panics ZeroRtt.Lib.Containers ZeroRtt.Lib.Runs
open ZeroRtt.Futures ZeroRtt.Futures.Layers
open ZeroRtt.Poll (Group Section Unparker)
open ZeroRtt.Poll.Conn (LocKind UnlockEnv)
open ZeroRtt.Poll.Deliveries (Booked booked_of_run)
open ZeroRtt.Poll.Interleaving (Pending run_group)
open ZeroRtt.Poll.Locking (Guard)
open ZeroRtt.Poll.Schedule (PollEnv)
open ZeroRtt.Poll.Sections
  (leftBy leftBy_bind bind_of_ok takeConn_of_none takeConn_of_some deregister_of_none
    lockRecv_of_none)
open ZeroRtt.Poll.Walks (Carries)
open ZeroRtt.Api.Types (Token Error ConnectionId)
open ZeroRtt.Futures.Contention (sound_initial)
open ZeroRtt.Futures.Tasks (Reply)

variable {α : Type} {w w' : Layers.World} {b b' : Poll.Interleaving.World} {g : Group}
variable {guard : Guard} {p : Polling}

def inHand : Stage → List Guard
  | .registered => []
  | .holding guard => [guard]
  | .called guard _ => [guard]
  | .answered _ => []

def pollGuards (polls : HashMap Key Polling) : List Guard :=
  polls.entries.flatMap fun e ↦ inHand e.2.stage

/-- The guards that are out, besides the one of the poll at the key. -/
def besides (w : Layers.World) (key : Key) : List Guard :=
  pollGuards (w.polls.erase key) ++ w.guards

/-- The critical sections of a shared group have led to the group of the layers, and every
guard that is out there is out. -/
structure Shown (w : Layers.World) (b : Poll.Interleaving.World) : Prop where
  group : b.group = w.group
  guards : (pollGuards w.polls ++ w.guards).Subperm b.guards

def Sharing (b b' : Poll.Interleaving.World) : Prop :=
  Run Poll.Interleaving.step Poll.Interleaving.Legal b b'

/-- A lock is asked for under a kind of its own, and packets go to connections that some
connection id stands for. -/
def Located (w : Layers.World) : Action → Prop
  | .lock _ kind => kind ≠ .none
  | .lockRecv token _ => ∀ c, w.group.state.conns.lookup token = some c →
      ∃ dcid, w.group.scids.lookup dcid = some token
  | _ => True

section Guards

theorem pollGuards_perm {polls : HashMap Key Polling} {key : Key}
    (h : polls.lookup key = some p) :
    (pollGuards polls).Perm (inHand p.stage ++ pollGuards (polls.erase key)) := by
  have hmem : key ∈ polls.entries.keys :=
    List.dlookup_isSome.mp (Option.isSome_iff_exists.mpr ⟨p, h⟩)
  obtain ⟨q, before, after, hbefore, hentries, herase⟩ := List.exists_of_kerase hmem
  obtain rfl : q = p := by
    have hq : polls.lookup key = some q := by
      rw [AList.lookup, hentries, List.dlookup_append, List.dlookup_eq_none.mpr hbefore,
        List.dlookup_cons_eq]
      rfl
    exact Option.some.inj (hq.symm.trans h)
  rw [pollGuards, pollGuards, hentries, show (polls.erase key).entries = before ++ after from herase,
    List.flatMap_append, List.flatMap_append, List.flatMap_cons, ← List.append_assoc,
    ← List.append_assoc]
  exact (List.perm_append_comm).append_right _

theorem pollGuards_advance (w : Layers.World) (p : Polling) (stage : Stage) :
    pollGuards (w.advance p stage).polls ++ (w.advance p stage).guards =
      inHand stage ++ besides w p.key := by
  rw [besides, ← List.append_assoc]
  rfl

theorem besides_subperm (w : Layers.World) (key : Key) :
    (besides w key).Subperm (pollGuards w.polls ++ w.guards) := by
  refine List.Sublist.subperm (List.Sublist.append_right ?_ _)
  exact (List.kerase_sublist key w.polls.entries).flatMap _

theorem Shown.subperm_besides (h : Shown w b) (key : Key) : (besides w key).Subperm b.guards :=
  (besides_subperm w key).trans h.guards

theorem Shown.subperm_inHand (h : Shown w b) (hp : w.polls.lookup p.key = some p) :
    (inHand p.stage ++ besides w p.key).Subperm b.guards := by
  rw [besides, ← List.append_assoc]
  exact ((pollGuards_perm hp).append_right _).symm.subperm.trans h.guards

theorem shown_leave (hgroup : b.group = w.group) (h : (besides w p.key).Subperm b.guards) :
    Shown (w.leave p) b := ⟨hgroup, h⟩

theorem shown_conclude (hgroup : b.group = w.group) (h : (besides w p.key).Subperm b.guards)
    (answer : Except Error Reply) : Shown (w.conclude p answer) b := by
  unfold Layers.World.conclude
  split <;> exact ⟨hgroup, h⟩

theorem shown_answer (hgroup : b.group = w.group) (h : (besides w p.key).Subperm b.guards)
    (answer : Except Error Reply) : Shown (w.answer p answer) b := by
  cases answer with
  | ok reply => exact ⟨hgroup, h⟩
  | error err => exact shown_conclude hgroup h _

theorem shown_advance (hgroup : b.group = w.group) {stage : Stage}
    (h : (inHand stage ++ besides w p.key).Subperm b.guards) : Shown (w.advance p stage) b :=
  ⟨hgroup, pollGuards_advance w p stage ▸ h⟩

end Guards

section Sections

variable {f : Section α} {k : Layers.World → α → Layers.World}
variable {gone : Layers.World → Layers.World}

theorem shown_run (hgroup : b'.group = leftBy (f w.group))
    (hk : ∀ a g, b'.group = g → Shown (k { w with group := g } a) b')
    (hgone : ∀ g, b'.group = g → Shown (gone { w with group := g }) b') :
    Shown (w.run f k gone) b' := by
  unfold Layers.World.run
  cases hrun : f w.group with
  | ok a g =>
    rw [hrun] at hgroup
    exact hk a g hgroup
  | error panic g =>
    rw [hrun] at hgroup
    exact hgone g hgroup

theorem Shown.other (h : Shown w b) (hgroup : b'.group = leftBy (f w.group))
    (hguards : b'.guards = b.guards) : Shown (w.other f) b' := by
  have hout : (pollGuards w.polls ++ w.guards).Subperm b'.guards := hguards ▸ h.guards
  exact shown_run hgroup (fun _ _ hg ↦ ⟨hg, hout⟩) fun _ hg ↦ ⟨hg, hout⟩

theorem run_guards_eq {w : Poll.Interleaving.World}
    {k : Poll.Interleaving.World → α → Poll.Interleaving.World}
    (hk : ∀ w a, (k w a).guards = w.guards) : (w.run f k).guards = w.guards := by
  unfold Poll.Interleaving.World.run
  cases f w.group with
  | ok a g => exact hk _ a
  | error panic g => rfl

theorem sharing_run (a : Poll.Interleaving.Action) (f : Section α) (ha : Poll.Interleaving.Legal b a)
    (hnext : b.next a = b.run f fun w _ ↦ w) :
    ∃ b', Sharing b b' ∧ b'.group = leftBy (f b.group) ∧ b'.guards = b.guards :=
  ⟨_, .one ha (congrArg Except.ok hnext), run_group fun _ _ ↦ rfl, run_guards_eq fun _ _ ↦ rfl⟩

theorem sharing_deregister (g : Group) (guards : List Guard) (pending : List Pending)
    (token : Token) :
    ∃ b', Sharing ⟨g, guards, .takeConn token :: pending⟩ b' ∧
      b'.group = leftBy (Group.deregister token g) ∧ b'.guards = guards := by
  have hfirst : Sharing ⟨g, guards, .takeConn token :: pending⟩
      (Poll.Interleaving.World.takeConn ⟨g, guards, pending⟩ token) :=
    .one (i := .resume 0 none none .still) trivial rfl
  cases hc : g.state.conns.lookup token with
  | none =>
    have htake := takeConn_of_none hc
    rw [deregister_of_none hc]
    simp only [Poll.Interleaving.World.takeConn, Poll.Interleaving.World.run, htake] at hfirst
    exact ⟨_, hfirst, rfl, rfl⟩
  | some c =>
    have htake := takeConn_of_some hc
    unfold Group.deregister
    rw [bind_of_ok htake]
    simp only [Poll.Interleaving.World.takeConn, Poll.Interleaving.World.run, htake] at hfirst
    refine ⟨_, hfirst.tail (i := .resume 0 none none .still) trivial rfl, ?_, ?_⟩
    · dsimp only
      rw [leftBy_bind fun _ _ ↦ rfl]
      exact run_group fun _ _ ↦ rfl
    · exact run_guards_eq fun _ _ ↦ rfl

/-- An `unlock` is a step of the thread that drops its guard, and if that has closed the
connection, the two by which it is taken out. -/
theorem sharing_unlock (sendDone : Bool) (env : UnlockEnv) (h : guard ∈ b.guards) :
    ∃ b', Sharing b b' ∧
      b'.group = leftBy (Group.unlock { guard.lock with sendDone } env b.group) ∧
      b'.guards = b.guards.erase guard := by
  have hfirst : Sharing b (b.next (.unlock guard sendDone env)) :=
    .one (i := .unlock guard sendDone env) h rfl
  unfold Group.unlock
  simp only [Poll.Interleaving.World.next, Poll.Interleaving.World.run] at hfirst
  cases hconn : Group.unlockConn { guard.lock with sendDone } env b.group with
  | error panic g =>
    rw [hconn] at hfirst
    refine ⟨_, hfirst, ?_, rfl⟩
    simp only [bind, EStateM.bind, hconn]
    rfl
  | ok closed g =>
    rw [hconn] at hfirst
    rw [bind_of_ok hconn]
    cases closed with
    | false => exact ⟨_, hfirst, rfl, rfl⟩
    | true =>
      obtain ⟨b', hrest, hgroup, hguards⟩ :=
        sharing_deregister g (b.guards.erase guard) b.pending guard.lock.token
      refine ⟨b', hfirst.trans hrest, ?_, hguards⟩
      rw [if_pos rfl, leftBy_bind fun _ _ ↦ rfl]
      exact hgroup

def granted : EStateM.Result Panic Group (Except Error Guard) → List Guard
  | .ok (.ok guard) _ => [guard]
  | _ => []

theorem guards_hold (w : Poll.Interleaving.World) (x : Section (Except Error Guard)) :
    (w.run x Poll.Interleaving.World.hold).guards = granted (x w.group) ++ w.guards := by
  unfold Poll.Interleaving.World.run
  rcases x w.group with ⟨_ | guard, g⟩ | ⟨panic, g⟩ <;> rfl

theorem group_hold (w : Poll.Interleaving.World) (x : Section (Except Error Guard)) :
    (w.run x Poll.Interleaving.World.hold).group = leftBy (x w.group) :=
  run_group fun _ r ↦ by cases r <;> rfl

theorem Shown.hold {x : Section (Except Error Guard)} (h : Shown w b)
    (hgroup : b'.group = leftBy (x w.group))
    (hguards : b'.guards = granted (x w.group) ++ b.guards) :
    Shown (w.run x Layers.World.hold id) b' := by
  unfold Layers.World.run
  rcases hrun : x w.group with ⟨_ | guard, g⟩ | ⟨panic, g⟩
  · rw [hrun] at hgroup hguards
    exact ⟨hgroup, hguards ▸ h.guards⟩
  · rw [hrun] at hgroup hguards
    refine ⟨hgroup, ?_⟩
    rw [hguards]
    exact List.perm_middle.subperm.trans ((List.subperm_cons guard).mpr h.guards)
  · rw [hrun] at hgroup hguards
    exact ⟨hgroup, hguards ▸ h.guards⟩

theorem sharing_lockRecv {token : Token} {dcid : ConnectionId} (unparker : Option Unparker)
    (hscid : b.group.scids.lookup dcid = some token) :
    ∃ b', Sharing b b' ∧ b'.group = leftBy (Group.lockRecv token unparker b.group) ∧
      b'.guards = granted (Group.lockRecv token unparker b.group) ++ b.guards := by
  have hlookup : Sharing b (b.spawn (.lockRecv dcid token)) := by
    refine .one (i := .lookupScid dcid) trivial ?_
    simp only [Poll.Interleaving.step, Poll.Interleaving.World.next, Poll.Interleaving.World.run,
      Group.lookupScid, hscid]
  refine ⟨_, hlookup.tail (i := .resume 0 unparker none .still) trivial rfl, ?_, ?_⟩
  · refine run_group fun w r ↦ ?_
    split
    · rfl
    · cases r <;> rfl
  · change (Poll.Interleaving.World.run _ _ _).guards = _
    unfold Poll.Interleaving.World.run
    rcases hrun : Group.lockRecv token unparker b.group with ⟨err | guard, g⟩ | ⟨panic, g⟩
    · simp only [Poll.Interleaving.World.spawn, List.eraseIdx_cons_zero, hrun]
      cases err <;> rfl
    · simp only [Poll.Interleaving.World.spawn, hrun]
      rfl
    · simp only [Poll.Interleaving.World.spawn, hrun]
      rfl

end Sections

section Steps

def Reaches (b : Poll.Interleaving.World) (w : Layers.World) : Prop :=
  ∃ b', Sharing b b' ∧ Shown w b'

theorem Shown.stays (h : Shown w b) : Reaches b w := ⟨b, .refl b, h⟩

theorem subperm_erase {l guards : List Guard} (h : (guard :: l).Subperm guards) :
    l.Subperm (guards.erase guard) := by
  simpa only [List.erase_cons_head] using h.erase guard

theorem Shown.begin (h : Shown w b) (token : Token) (request : Request) (shutdown : Bool)
    (waker : Waker) : Shown (w.begin token request shutdown waker) b := by
  unfold Layers.World.begin
  dsimp only
  split
  · exact ⟨h.group, h.guards⟩
  next state hbegun =>
    refine ⟨h.group, ?_⟩
    rw [pollGuards_advance]
    exact h.subperm_besides _

theorem sharing_lock (token : Token) {kind : LocKind} (hk : kind ≠ .none) :
    ∃ b', Sharing b b' ∧ b'.group = leftBy (Group.lock token kind b.group) ∧
      b'.guards = granted (Group.lock token kind b.group) ++ b.guards :=
  ⟨_, .one (i := .lock token kind) hk rfl, group_hold b _, guards_hold b _⟩

theorem Shown.attempt (h : Shown w b) (p : Polling) (env : UnlockEnv) :
    Reaches b (w.attempt p env) := by
  unfold Layers.World.attempt
  split
  next kind nonBlocking hrequest =>
    obtain ⟨b', hb, hgroup, hguards⟩ := sharing_run (b := b)
      (.streamOpen p.token kind nonBlocking env) (Group.streamOpen p.token kind nonBlocking env)
      trivial rfl
    have hout := hguards ▸ h.subperm_besides p.key
    rw [h.group] at hgroup
    refine ⟨b', hb, shown_run hgroup ?_ ?_⟩
    · intro r g hg
      refine shown_answer hg ?_ _
      exact hout
    · intro g hg
      refine shown_leave hg ?_
      exact hout
  next hstream =>
    have hkind : p.request.kind ≠ .none := by cases p.request <;> simp [Request.kind]
    obtain ⟨b', hb, hgroup, hguards⟩ := sharing_lock (b := b) p.token hkind
    refine ⟨b', hb, ?_⟩
    rw [h.group] at hgroup hguards
    unfold Layers.World.run
    rcases hrun : Group.lock p.token p.request.kind w.group with ⟨err | guard, g⟩ | ⟨panic, g⟩
    · rw [hrun] at hgroup hguards
      exact shown_answer hgroup (hguards ▸ h.subperm_besides p.key) _
    · rw [hrun] at hgroup hguards
      refine shown_advance hgroup ?_
      rw [hguards]
      exact (List.subperm_cons guard).mpr (h.subperm_besides p.key)
    · rw [hrun] at hgroup hguards
      exact shown_leave hgroup (hguards ▸ h.subperm_besides p.key)

theorem Shown.calls (h : Shown w b) (hp : w.polls.lookup p.key = some p)
    (hstage : p.stage = .holding guard) {c : Api.Quiche.Call} {f : Section α}
    (hf : leftBy (f w.group) = leftBy (Group.derefMut guard c w.group))
    (answer : α → Except Api.Types.QuicheError Reply) :
    Reaches b (w.run f (fun w r ↦ w.advance p (.called guard (answer r))) fun w ↦ w.leave p) := by
  have hout := h.subperm_inHand hp
  rw [hstage] at hout
  obtain ⟨b', hb, hgroup, hguards⟩ := sharing_run (b := b) (.call guard c) (Group.derefMut guard c)
    (hout.subset (List.mem_cons_self ..)) rfl
  rw [h.group, ← hf] at hgroup
  rw [← hguards] at hout
  refine ⟨b', hb, shown_run hgroup ?_ ?_⟩
  · intro r g hg
    exact shown_advance hg hout
  · intro g hg
    exact shown_leave hg ((List.sublist_cons_self ..).subperm.trans hout)

theorem Shown.call (h : Shown w b) (hp : w.polls.lookup p.key = some p)
    (hstage : p.stage = .holding guard) : Reaches b (w.call p guard) := by
  unfold Layers.World.call
  split
  · exact h.stays
  next streamId buf fin hrequest =>
    exact h.calls hp hstage (c := .streamSend streamId buf fin) rfl _
  next streamId len hrequest =>
    refine h.calls hp hstage (c := .streamRecv streamId len) ?_ _
    rw [leftBy_bind fun r g ↦ ?_]
    rw [leftBy_bind fun conn g ↦ rfl]
    exact Carries.leftBy_deref guard g

theorem Shown.release (h : Shown w b) (hp : w.polls.lookup p.key = some p)
    {answer : Except Api.Types.QuicheError Reply} (hstage : p.stage = .called guard answer)
    (env : UnlockEnv) :
    Reaches b (w.run (Group.unlock guard.lock env)
      (fun w _ ↦ w.answer p (Layers.World.returned answer)) fun w ↦ w.leave p) := by
  have hout := h.subperm_inHand hp
  rw [hstage] at hout
  obtain ⟨b', hb, hgroup, hguards⟩ :=
    sharing_unlock guard.lock.sendDone env (hout.subset (List.mem_cons_self ..))
  have hrest := hguards ▸ subperm_erase hout
  rw [h.group] at hgroup
  refine ⟨b', hb, shown_run hgroup ?_ ?_⟩
  · intro r g hg
    refine shown_answer hg ?_ _
    exact hrest
  · intro g hg
    exact shown_leave hg hrest

theorem Shown.others (h : Shown w b) (a : Poll.Interleaving.Action) (f : Section α)
    (ha : Poll.Interleaving.Legal b a) (hnext : b.next a = b.run f fun w _ ↦ w) :
    Reaches b (w.other f) := by
  obtain ⟨b', hb, hgroup, hguards⟩ := sharing_run a f ha hnext
  exact ⟨b', hb, h.other (h.group ▸ hgroup) hguards⟩

theorem Shown.poll (h : Shown w b) (env : PollEnv) :
    Reaches b (w.run (Group.poll [] env)
      (fun w (events, _) ↦
        { w with batch := events.filter fun e ↦ e.kind ≠ .send && e.kind ≠ .recv }) id) := by
  obtain ⟨b', hb, hgroup, hguards⟩ :=
    sharing_run (b := b) (.poll env) (Group.poll [] env) trivial rfl
  have hout := hguards ▸ h.guards
  rw [h.group] at hgroup
  refine ⟨b', hb, shown_run hgroup ?_ ?_⟩
  · rintro ⟨events, deadline⟩ g hg
    exact ⟨hg, hout⟩
  · intro g hg
    exact ⟨hg, hout⟩

theorem Shown.lockRecv (h : Shown w b) {token : Token} (unparker : Option Unparker)
    (hlocated : Located w (.lockRecv token unparker)) :
    Reaches b (w.run (Group.lockRecv token unparker) Layers.World.hold id) := by
  cases hc : w.group.state.conns.lookup token with
  | none =>
    apply Shown.stays
    rw [Layers.World.run, lockRecv_of_none hc]
    exact h
  | some c =>
    obtain ⟨dcid, hdcid⟩ := hlocated c hc
    rw [← h.group] at hdcid
    obtain ⟨b', hb, hgroup, hguards⟩ := sharing_lockRecv unparker hdcid
    rw [h.group] at hgroup hguards
    exact ⟨b', hb, h.hold hgroup hguards⟩

theorem Shown.unlock (h : Shown w b) (hmem : guard ∈ w.guards) (sendDone : Bool)
    (env : UnlockEnv) :
    Reaches b ({ w with guards := w.guards.erase guard }.other
      (Group.unlock { guard.lock with sendDone } env)) := by
  have hsplit : (pollGuards w.polls ++ w.guards).Perm
      (guard :: (pollGuards w.polls ++ w.guards.erase guard)) :=
    ((List.perm_cons_erase hmem).append_left _).trans List.perm_middle
  have hout := hsplit.symm.subperm.trans h.guards
  obtain ⟨b', hb, hgroup, hguards⟩ :=
    sharing_unlock sendDone env (hout.subset (List.mem_cons_self ..))
  rw [h.group] at hgroup
  have hrest := hguards ▸ subperm_erase hout
  refine ⟨b', hb, shown_run hgroup ?_ ?_⟩
  · intro r g hg
    exact ⟨hg, hrest⟩
  · intro g hg
    exact ⟨hg, hrest⟩

theorem Shown.step {a : Action} (h : Shown w b) (hsound : Contention.Sound w) (ha : Legal w a)
    (hlocated : Located w a) (hstep : Layers.step w a = .ok w') : Reaches b w' := by
  cases a with
  | begin token request shutdown waker =>
    cases hstep
    exact (h.begin token request shutdown waker).stays
  | attempt key env =>
    simp only [Layers.step] at hstep
    split at hstep <;> cases hstep
    · exact h.attempt _ env
    · exact h.stays
  | call key =>
    simp only [Layers.step] at hstep
    split at hstep
    next hlookup =>
      obtain ⟨rfl, -⟩ := hsound.polls _ _ hlookup
      cases hstep
      exact h.call hlookup rfl
    next =>
      cases hstep
      exact h.stays
  | release key env =>
    simp only [Layers.step] at hstep
    split at hstep
    next hlookup =>
      obtain ⟨rfl, -⟩ := hsound.polls _ _ hlookup
      cases hstep
      exact h.release hlookup rfl env
    next =>
      cases hstep
      exact h.stays
  | finish key =>
    simp only [Layers.step] at hstep
    split at hstep <;> cases hstep
    · exact (shown_conclude h.group (h.subperm_besides _) _).stays
    · exact h.stays
  | poll env =>
    cases hstep
    exact h.poll env
  | dispatch =>
    obtain ⟨s, -, hstep⟩ := bind_ok hstep
    cases hstep
    exact Shown.stays ⟨h.group, h.guards⟩
  | connect conn env =>
    cases hstep
    exact h.others (.connect conn env) _ trivial rfl
  | lock token kind =>
    cases hstep
    obtain ⟨b', hb, hgroup, hguards⟩ := sharing_lock (b := b) token hlocated
    rw [h.group] at hgroup hguards
    exact ⟨b', hb, h.hold hgroup hguards⟩
  | lockRecv token unparker =>
    cases hstep
    exact h.lockRecv unparker hlocated
  | use guard c =>
    cases hstep
    have hmem : guard ∈ b.guards := h.guards.subset (List.mem_append_right _ ha.1)
    exact h.others (.call guard c) _ hmem rfl
  | unlock guard sendDone env =>
    cases hstep
    exact h.unlock ha sendDone env
  | close token app err reason env =>
    cases hstep
    exact h.others (.close token app err reason env) _ trivial rfl
  | streamOpen token kind nonBlocking env =>
    cases hstep
    exact h.others (.streamOpen token kind nonBlocking env) _ trivial rfl
  | streamShutdown token streamId err env =>
    cases hstep
    exact h.others (.streamShutdown token streamId err env) _ trivial rfl
  | isEstablished token waker =>
    cases hstep
    exact Shown.stays ⟨h.group, h.guards⟩
  | acceptStream token waker =>
    cases hstep
    exact Shown.stays ⟨h.group, h.guards⟩
  | acceptConn waker =>
    cases hstep
    exact Shown.stays ⟨h.group, h.guards⟩
  | shutdown token streamId =>
    cases hstep
    exact Shown.stays ⟨h.group, h.guards⟩
  | stop =>
    cases hstep
    exact Shown.stays ⟨h.group, h.guards⟩

end Steps

/-- Under the futures the group is one that is shared by threads: whatever the layers do to it,
critical sections of such threads do, and the guards of the polls are among theirs. -/
theorem layers_share_group
    (h : Run Layers.step (fun w a ↦ Legal w a ∧ Located w a) .initial w) :
    ∃ b, Run Poll.Interleaving.step Poll.Interleaving.Legal .initial b ∧ Shown w b := by
  suffices hinv : Contention.Sound w ∧ Reaches .initial w from hinv.2
  apply h.invariant (P := fun w ↦ Contention.Sound w ∧ Reaches .initial w)
  · exact ⟨sound_initial, Shown.stays ⟨rfl, List.Subperm.refl _⟩⟩
  · rintro w w' a ⟨hsound, b, hb, hshown⟩ ⟨ha, hlocated⟩ hstep
    obtain ⟨b', hb', hshown'⟩ := hshown.step hsound ha hlocated hstep
    exact ⟨hsound.step ha hstep, b', hb.trans hb', hshown'⟩

/-- So no event that a poll or another thread has inserted gets lost on its way to `run_once`. -/
theorem layers_booked (h : Run Layers.step (fun w a ↦ Legal w a ∧ Located w a) .initial w) :
    Booked w.group := by
  obtain ⟨b, hb, hshown⟩ := layers_share_group h
  rw [← hshown.group]
  exact booked_of_run hb

end ZeroRtt.Futures.Projection
