import ZeroRtt.Poll.Reporting

namespace ZeroRtt.Poll.Greetings

open ZeroRtt.Lib.Panics ZeroRtt.Lib.Containers
open ZeroRtt.Api.Types ZeroRtt.Api.Quiche ZeroRtt.Poll.Schedule ZeroRtt.Poll.Conn
open ZeroRtt.Poll.Sections ZeroRtt.Poll.Walks ZeroRtt.Poll.Interleaving ZeroRtt.Poll.Chronicle
open ZeroRtt.Poll.Steps ZeroRtt.Poll.Reporting
open ZeroRtt.Poll.Deliveries (Booked)
open ZeroRtt.Poll.Tables (registers)

variable {g g' : Group} {token : Token} {news : List Happening} {w : World}

structure Modest (g g' : Group) : Prop where
  history : ∃ news, g'.state.history = g.state.history ++ news ∧ registrations news = []
  conns : ∀ token, g.state.conns.lookup token = none → g'.state.conns.lookup token = none

theorem modest_of_eq (hhistory : g'.state.history = g.state.history)
    (hconns : g'.state.conns = g.state.conns) : Modest g g' :=
  ⟨⟨[], by rw [hhistory, List.append_nil], rfl⟩, fun _ hnone ↦ hconns ▸ hnone⟩

theorem carries_modest : Carries (fun _ _ ↦ True) Modest where
  refl _ := modest_of_eq rfl rfl
  trans h h' := by
    obtain ⟨news, hhistory, hnone⟩ := h.history
    obtain ⟨news', hhistory', hnone'⟩ := h'.history
    refine ⟨⟨news ++ news', ?_, ?_⟩, fun token hc ↦ h'.conns token (h.conns token hc)⟩
    · rw [hhistory', hhistory, List.append_assoc]
    · rw [registrations_append, hnone, hnone', List.append_nil]
  unparked _ _ := modest_of_eq rfl rfl
  put := by
    intro g token c s hc _
    refine ⟨⟨s.trace.map .observed, rfl, registrations_observed _⟩, fun t ht ↦ ?_⟩
    have hne : t ≠ token := by
      rintro rfl
      rw [hc] at ht
      cases ht
    exact (AList.lookup_insert_ne hne).trans ht

theorem steady_modest : Steady fun _ _ ↦ True where
  trans _ _ := trivial
  lock _ _ := trivial
  calls _ := trivial
  unlock _ := trivial

theorem modest_poll (env : PollEnv) (g : Group) : Modest g (leftBy (Group.poll [] env g)) := by
  unfold Group.poll
  split
  · exact modest_of_eq rfl rfl
  next out deadline readiness hpoll =>
    exact ⟨⟨out.map .delivered, rfl, registrations_delivered out⟩, fun _ hnone ↦ hnone⟩

/-- Whether a connection of the token may still be reported as established. -/
def owed (g : Group) (token : Token) : ℕ :=
  match g.state.conns.lookup token with
  | some c => if c.established then 0 else 1
  | none => 0

/-- No connection is reported as established more often than it was registered. -/
structure Greeted (g : Group) : Prop where
  named : Named g
  proper : ∀ e ∈ insertedBy (observations g.state.history), Proper e
  once : ∀ token, (greetingsOf token g.state.history).length + owed g token ≤
    (registrations g.state.history).count token

/-- Since its registration a connection was reported as established iff it is. -/
structure Announced (g : Group) : Prop where
  named : Named g
  told : ∀ token c, g.state.conns.lookup token = some c → ∃ before since,
    g.state.history = before ++ .registered token :: since ∧ token ∉ registrations since ∧
    greetingsOf token since = greets token c.wrapped.isServer false c.established

theorem greeted_new : Greeted .new where
  named token c hc := by cases hc
  proper e he := by cases he
  once token := Nat.le_refl 0

theorem announced_new : Announced .new where
  named token c hc := by cases hc
  told token c hc := by cases hc

section Groups

theorem owed_of_none (h : g.state.conns.lookup token = none) : owed g token = 0 := by
  simp only [owed, h]

theorem owed_of_some {c : QuicConn} (h : g.state.conns.lookup token = some c) :
    owed g token = if c.established then 0 else 1 := by
  simp only [owed, h]

theorem length_greets (token : Token) (isServer : Bool) {before after : Bool}
    (h : before = true → after = true) :
    (greets token isServer before after).length + (if after then 0 else 1) =
      if before then 0 else 1 := by
  cases before <;> cases after <;> simp [greets] at h ⊢

theorem greetingsOf_absent (hfollows : Follows g g' news)
    (hnone : g'.state.conns.lookup token = none) : greetingsOf token news = [] := by
  apply List.filter_eq_nil_iff.mpr
  intro e he
  obtain ⟨c, hc, -⟩ := hfollows.heard e (List.mem_filter.mp he).1
  have hne : e.token ≠ token := by
    rintro rfl
    rw [hnone] at hc
    cases hc
  simpa using hne

theorem owed_follows (token : Token) (hfollows : Follows g g' news)
    (hnone : g.state.conns.lookup token = none → g'.state.conns.lookup token = none) :
    (greetingsOf token news).length + owed g' token = owed g token := by
  cases hc : g.state.conns.lookup token with
  | none =>
    rw [greetingsOf_absent hfollows (hnone hc), owed_of_none hc, owed_of_none (hnone hc)]
    rfl
  | some c =>
    obtain ⟨c', hc', hlives⟩ := hfollows.lives token c hc
    rw [hlives.greets, owed_of_some hc, owed_of_some hc']
    exact length_greets _ _ hlives.established

theorem proper_follows (h : ∀ e ∈ insertedBy (observations g.state.history), Proper e)
    (hfollows : Follows g g' news) :
    ∀ e ∈ insertedBy (observations g'.state.history), Proper e := by
  intro e he
  rw [hfollows.history, observations_append, insertedBy_append] at he
  cases List.mem_append.mp he with
  | inl he => exact h e he
  | inr he =>
    obtain ⟨c, -, hof⟩ := hfollows.heard e he
    exact hof.proper

theorem Greeted.voices (h : Greeted g) (hvoices : Voices g g') (hmodest : Modest g g') :
    Greeted g' := by
  obtain ⟨news, hfollows⟩ := hvoices h.named
  obtain ⟨news', hhistory, hnone⟩ := hmodest.history
  obtain rfl : news = news' := List.append_cancel_left (hfollows.history.symm.trans hhistory)
  refine ⟨hfollows.named, proper_follows h.proper hfollows, fun token ↦ ?_⟩
  have howed := owed_follows token hfollows (hmodest.conns token)
  have honce := h.once token
  rw [hfollows.history, greetingsOf_append, List.length_append, registrations_append, hnone,
    List.append_nil]
  omega

theorem Greeted.takeConn (h : Greeted g) (token : Token) :
    Greeted (leftBy (Group.takeConn token g)) := by
  obtain ⟨hnamed, hhistory, hlookup⟩ := named_takeConn h.named token
  refine ⟨hnamed, by rw [hhistory]; exact h.proper, fun t ↦ ?_⟩
  have honce := h.once t
  rw [hhistory]
  by_cases ht : t = token
  · subst ht
    rw [owed_of_none (lookup_takeConn t g)]
    omega
  · have howed : owed (leftBy (Group.takeConn token g)) t = owed g t := by
      simp only [owed, hlookup t ht]
    rw [howed]
    exact honce

theorem register_adds (hnamed : Named g) {q : Connection} {env : UnlockEnv}
    (h : Group.register q env g = .ok (.ok token) g') :
    ∃ news c, Follows g g' (.registered token :: news) ∧ registrations news = [] ∧
      g.state.conns.lookup token = none ∧ g'.state.conns.lookup token = some c ∧
      (∀ t, t ≠ token → g'.state.conns.lookup t = g.state.conns.lookup t) ∧
      Lives token (.registered token :: news) (.new token q) c := by
  obtain ⟨tokenNext, s, hnone, hreports, -, rfl⟩ := register_reports h
  have hnew : ∀ d, g.state.conns.lookup token = some d → d = .new token q := by
    intro d hd
    rw [hnone] at hd
    cases hd
  obtain ⟨hfollows, hlives⟩ := follows_put hnamed { g.state with
      tokenNext, history := g.state.history ++ [Happening.registered token] } [.registered token]
    (c := .new token q) rfl rfl rfl rfl hreports hnew (g.scids.insert q.sourceId token)
  exact ⟨s.trace.map .observed, s.conn, hfollows, registrations_observed _, hnone,
    AList.lookup_insert _, fun t ht ↦ AList.lookup_insert_ne ht, hlives⟩

theorem greetingsOf_registered (t : Token) :
    greetingsOf t (.registered token :: news) = greetingsOf t news := rfl

theorem register_panics {q : Connection} {env : UnlockEnv} {panic : Panic}
    (h : Group.register q env g = .error panic g') : Voices g g' ∧ Modest g g' := by
  have hcases := register_cases g q env
  rw [h] at hcases
  cases hcases with
  | hangs => exact ⟨voices_of_eq rfl rfl, modest_of_eq rfl rfl⟩
  | taken token tokenNext hnone hscid => exact ⟨voices_of_eq rfl rfl, modest_of_eq rfl rfl⟩

theorem register_ok {q : Connection} {env : UnlockEnv} {r : Except Error Token}
    (h : Group.register q env g = .ok r g') : ∃ token, r = .ok token := by
  have hcases := register_cases g q env
  rw [h] at hcases
  cases hcases with
  | fresh token => exact ⟨token, rfl⟩

theorem Greeted.register (h : Greeted g) (q : Connection) (env : UnlockEnv) :
    Greeted (leftBy (Group.register q env g)) := by
  cases hr : Group.register q env g with
  | error panic g' =>
    obtain ⟨hvoices, hmodest⟩ := register_panics hr
    exact h.voices hvoices hmodest
  | ok r g' =>
    obtain ⟨token, rfl⟩ := register_ok hr
    obtain ⟨news, c, hfollows, hnone, hfree, hc, hother, hlives⟩ := register_adds h.named hr
    refine ⟨hfollows.named, proper_follows h.proper hfollows, fun t ↦ ?_⟩
    have honce := h.once t
    rw [show leftBy (.ok (.ok token) g' : EStateM.Result Panic Group (Except Error Token)) = g' from
      rfl, hfollows.history, greetingsOf_append, List.length_append, registrations_append,
      List.count_append]
    by_cases ht : t = token
    · subst ht
      have hlength := length_greets t q.isServer hlives.established
      have hgreets : greetingsOf t (.registered t :: news) = greets t q.isServer _ c.established :=
        hlives.greets
      have hcount : (registrations (.registered t :: news)).count t = 1 := by
        rw [show registrations (.registered t :: news) = t :: registrations news from rfl, hnone]
        exact List.count_singleton_self
      rw [hgreets, hcount, owed_of_some hc]
      rw [owed_of_none hfree] at honce
      have hone : (if (QuicConn.new t q).established then 0 else 1) ≤ 1 := by split <;> omega
      omega
    · have howed := owed_follows t hfollows fun hnone ↦ (hother t ht).trans hnone
      omega

theorem Announced.follows (h : Announced g) (hfollows : Follows g g' news) {c c' : QuicConn}
    (hc : g.state.conns.lookup token = some c) (hc' : g'.state.conns.lookup token = some c')
    (hnews : token ∉ registrations news) : ∃ before since,
      g'.state.history = before ++ .registered token :: since ∧ token ∉ registrations since ∧
      greetingsOf token since = greets token c'.wrapped.isServer false c'.established := by
  obtain ⟨before, since, hhistory, hsince, hgreets⟩ := h.told token c hc
  obtain ⟨d, hd, hlives⟩ := hfollows.lives token c hc
  obtain rfl : c' = d := Option.some.inj (hc'.symm.trans hd)
  refine ⟨before, since ++ news, ?_, ?_, ?_⟩
  · rw [hfollows.history, hhistory, List.append_assoc, List.cons_append]
  · rw [registrations_append, List.mem_append, not_or]
    exact ⟨hsince, hnews⟩
  · rw [greetingsOf_append, hgreets, hlives.greets, hlives.isServer_eq]
    exact greets_trans (fun hfalse ↦ by cases hfalse) hlives.established

theorem Announced.voices (h : Announced g) (hvoices : Voices g g') (hmodest : Modest g g') :
    Announced g' := by
  obtain ⟨news, hfollows⟩ := hvoices h.named
  obtain ⟨news', hhistory, hnone⟩ := hmodest.history
  obtain rfl : news = news' := List.append_cancel_left (hfollows.history.symm.trans hhistory)
  refine ⟨hfollows.named, fun token c' hc' ↦ ?_⟩
  cases hc : g.state.conns.lookup token with
  | none =>
    rw [hmodest.conns token hc] at hc'
    cases hc'
  | some c => exact h.follows hfollows hc hc' (by rw [hnone]; exact List.not_mem_nil)

theorem Announced.takeConn (h : Announced g) (token : Token) :
    Announced (leftBy (Group.takeConn token g)) := by
  obtain ⟨hnamed, hhistory, hlookup⟩ := named_takeConn h.named token
  refine ⟨hnamed, fun t c hc ↦ ?_⟩
  rw [hhistory]
  by_cases ht : t = token
  · rw [ht, lookup_takeConn] at hc
    cases hc
  · rw [hlookup t ht] at hc
    exact h.told t c hc

theorem Announced.register (h : Announced g) {q : Connection} (hq : q.isEstablished = false)
    (env : UnlockEnv) : Announced (leftBy (Group.register q env g)) := by
  cases hr : Group.register q env g with
  | error panic g' =>
    obtain ⟨hvoices, hmodest⟩ := register_panics hr
    exact h.voices hvoices hmodest
  | ok r g' =>
    obtain ⟨token, rfl⟩ := register_ok hr
    obtain ⟨news, c, hfollows, hnone, -, hc, hother, hlives⟩ := register_adds h.named hr
    refine ⟨hfollows.named, fun t c' hc' ↦ ?_⟩
    have hc' : g'.state.conns.lookup t = some c' := hc'
    by_cases ht : t = token
    · subst ht
      obtain rfl : c = c' := Option.some.inj (hc.symm.trans hc')
      refine ⟨g.state.history, news, hfollows.history, by rw [hnone]; exact List.not_mem_nil, ?_⟩
      have hgreets := hlives.greets
      rw [greetingsOf_registered, show (QuicConn.new t q).established = false from hq] at hgreets
      rw [hgreets, hlives.isServer_eq]
    · refine h.follows hfollows ((hother t ht).symm.trans hc') hc' ?_
      rw [show registrations (.registered token :: news) = token :: registrations news from rfl,
        hnone]
      simpa using ht

theorem modest_takeConn (token : Token) (g : Group) :
    Modest g (leftBy (Group.takeConn token g)) := by
  unfold Group.takeConn
  split
  · exact modest_of_eq rfl rfl
  · refine ⟨⟨[], (List.append_nil _).symm, rfl⟩, fun t ht ↦ ?_⟩
    by_cases htoken : t = token
    · rw [htoken]
      exact AList.lookup_erase _ _
    · exact (AList.lookup_erase_ne htoken).trans ht

theorem registers_or_modest (w : World) (a : Action) :
    (∃ q env, registers w a = some (q, env) ∧
      (w.next a).group = leftBy (Group.register q env w.group)) ∨
    Modest w.group (w.next a).group := by
  have hperforms := performs_next w a
  generalize (w.next a).group = g at hperforms ⊢
  cases hperforms with
  | rests => exact .inr (modest_of_eq rfl rfl)
  | register q env hregisters => exact .inl ⟨q, env, hregisters, rfl⟩
  | lock token kind => exact .inr (carries_modest.operation (fun _ _ _ _ ↦ trivial) token _)
  | lockRecv token unparker =>
    exact .inr (carries_modest.lockRecv (fun _ _ _ _ ↦ trivial) token unparker _)
  | call guard c => exact .inr (carries_modest.derefMut (fun _ ↦ trivial) guard _)
  | unlock guard sendDone env => exact .inr (carries_modest.unlockConn (fun _ _ _ _ ↦ trivial) _)
  | takeConn token => exact .inr (modest_takeConn token _)
  | takeScid token q =>
    apply Or.inr
    unfold Group.takeScid
    dsimp only
    split <;> exact modest_of_eq rfl rfl
  | close token app err reason env =>
    exact .inr (carries_modest.operation (fun _ _ _ _ ↦ trivial) token _)
  | streamOpen token kind nonBlocking env =>
    exact .inr (carries_modest.operation (fun _ _ _ _ ↦ trivial) token _)
  | streamShutdown token streamId err env =>
    exact .inr (carries_modest.operation (fun _ _ _ _ ↦ trivial) token _)
  | poll env => exact .inr (modest_poll env _)

theorem Greeted.next (h : Greeted w.group) (a : Action) : Greeted (w.next a).group := by
  rcases takes_or_voices w a with ⟨token, -, hgroup⟩ | hvoices
  · rw [hgroup]
    exact h.takeConn token
  · rcases registers_or_modest w a with ⟨q, env, -, hgroup⟩ | hmodest
    · rw [hgroup]
      exact h.register q env
    · exact h.voices hvoices hmodest

theorem Announced.next (h : Announced w.group) {a : Action}
    (ha : ∀ q env, registers w a = some (q, env) → q.isEstablished = false) :
    Announced (w.next a).group := by
  rcases takes_or_voices w a with ⟨token, -, hgroup⟩ | hvoices
  · rw [hgroup]
    exact h.takeConn token
  · rcases registers_or_modest w a with ⟨q, env, hregisters, hgroup⟩ | hmodest
    · rw [hgroup]
      exact h.register (ha q env hregisters) env
    · exact h.voices hvoices hmodest

end Groups

section Arrivals

variable {e : Event} {events : List Event}

def arrivals (events : List Event) : List Token :=
  events.filterMap fun e ↦ if e.kind = .accept then some e.token else none

theorem arrivals_append (xs ys : List Event) : arrivals (xs ++ ys) = arrivals xs ++ arrivals ys :=
  List.filterMap_append

theorem mem_arrivals (h : greeting token true ∈ events) : token ∈ arrivals events :=
  List.mem_filterMap.mpr ⟨_, h, by simp [greeting]⟩

theorem eq_greeting (h : Proper e) (hkind : e.kind = .accept) : e = greeting e.token true := by
  have herror : e.isError = false := by
    cases hflag : e.isError with
    | false => rfl
    | true =>
      have hor := h.error hflag
      rw [hkind] at hor
      simp at hor
  have hstream : e.streamId = 0 := by
    by_contra hne
    have hor := h.stream hne
    rw [hkind] at hor
    simp at hor
  have hserver := h.accept hkind
  obtain ⟨token, kind, isServer, isError, streamId⟩ := e
  simp only at hkind herror hstream hserver
  rw [hkind, herror, hstream, hserver]
  rfl

theorem count_arrivals (h : ∀ e ∈ events, Proper e) (token : Token) :
    (arrivals events).count token = events.count (greeting token true) := by
  induction events with
  | nil => rfl
  | cons e events ih =>
    have ih := ih fun f hf ↦ h f (List.mem_cons_of_mem _ hf)
    by_cases hkind : e.kind = .accept
    · have he := eq_greeting (h e (List.mem_cons_self ..)) hkind
      rw [show arrivals (e :: events) = e.token :: arrivals events by simp [arrivals, hkind],
        List.count_cons, List.count_cons, ih]
      congr 1
      by_cases htoken : e.token = token
      · rw [htoken] at he
        rw [if_pos (beq_iff_eq.mpr htoken), if_pos (beq_iff_eq.mpr he)]
      · have hne : e ≠ greeting token true := by
          rintro rfl
          exact htoken rfl
        simp [htoken, hne]
    · have hne : e ≠ greeting token true := by
        rintro rfl
        exact hkind rfl
      rw [show arrivals (e :: events) = arrivals events by simp [arrivals, hkind], ih,
        List.count_cons_of_ne hne]

/-- No token is handed out to a listener more often than a connection was registered under it. -/
theorem Greeted.count_le (h : Greeted g) (hbooked : Booked g) (token : Token) :
    (arrivals (deliveredIn g.state.history)).count token ≤
      (registrations g.state.history).count token := by
  have hproper : ∀ e ∈ deliveredIn g.state.history, Proper e :=
    fun e he ↦ h.proper e (hbooked.inserted he)
  have hgreeting : (insertedBy (observations g.state.history)).count (greeting token true) ≤
      (greetingsOf token g.state.history).length := by
    rw [greetingsOf, greetings, ← List.count_filter (p := fun e ↦ decide (Greeting e))
      (by simp [Greeting, greeting]), ← List.count_filter (p := fun e ↦ decide (e.token = token))
      (by simp [greeting])]
    exact List.count_le_length
  calc (arrivals (deliveredIn g.state.history)).count token
      = (deliveredIn g.state.history).count (greeting token true) := count_arrivals hproper token
    _ ≤ (insertedBy (observations g.state.history)).count (greeting token true) :=
      hbooked.count_le _
    _ ≤ (greetingsOf token g.state.history).length := hgreeting
    _ ≤ (registrations g.state.history).count token := (Nat.le_add_right _ _).trans (h.once token)

theorem Announced.reported (h : Announced g) (hbooked : Booked g) {c : QuicConn}
    (hc : g.state.conns.lookup token = some c) (hserver : c.wrapped.isServer = true)
    (hestablished : c.established = true) : ∃ before since,
      g.state.history = before ++ .registered token :: since ∧ token ∉ registrations since ∧
      (greeting token true ∈ g.state.readiness.events ∨ token ∈ arrivals (deliveredIn since)) := by
  obtain ⟨before, since, hhistory, hsince, hgreets⟩ := h.told token c hc
  refine ⟨before, since, hhistory, hsince, ?_⟩
  have hmem : greeting token true ∈ greetingsOf token since := by
    rw [hgreets, hserver, hestablished]
    exact List.mem_singleton_self _
  have hinserted := (List.mem_filter.mp (List.mem_filter.mp hmem).1).1
  obtain ⟨o, ho, hoe⟩ := List.mem_filterMap.mp hinserted
  obtain ⟨x, hx, hxo⟩ := List.mem_filterMap.mp ho
  obtain ⟨before', after, rfl⟩ := List.append_of_mem hx
  cases x with
  | registered t => cases hxo
  | delivered f => cases hxo
  | observed o' =>
    cases hxo
    cases o with
    | readable id => cases hoe
    | remove f => cases hoe
    | insert f d =>
      cases hoe
      have hsplit : g.state.history =
          (before ++ .registered token :: before') ++ .observed (.insert (greeting token true) d) ::
            after := by
        rw [hhistory, List.append_assoc, List.cons_append]
      rcases hbooked.kept hsplit (by simp [greeting]) with hdelivered | hready
      · refine .inr (mem_arrivals ?_)
        rw [deliveredIn_append]
        apply List.mem_append_right
        exact List.mem_filterMap.mpr ⟨_, List.mem_cons_of_mem _ hdelivered, rfl⟩
      · exact .inl hready

end Arrivals

end ZeroRtt.Poll.Greetings
