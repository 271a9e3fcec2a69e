import Mathlib.Logic.Function.Basic
import ZeroRtt.Lib.Runs

namespace ZeroRtt.Lib.SpinLock

open Function ZeroRtt.Lib.Runs

variable {τ ω κ ο δ ε : Type}

/-- What a critical section does, one after the other, to its own variables and to the data. -/
abbrev Accesses (κ δ ε : Type) := List (κ × δ → Except ε (κ × δ))

def perform : Accesses κ δ ε → κ × δ → Except ε (κ × δ)
  | [], s => .ok s
  | f :: fs, s => f s >>= perform fs

theorem perform_append (fs gs : Accesses κ δ ε) (s : κ × δ) :
    perform (fs ++ gs) s = perform fs s >>= perform gs := by
  induction fs generalizing s with
  | nil => rfl
  | cons f fs ih =>
    simp only [List.cons_append, perform]
    cases f s with
    | error err => rfl
    | ok s' => exact ih s'

/-- The operations on the data behind a lock: the variables that each starts with, its accesses
and what it returns. -/
structure Code (ω κ ο δ ε : Type) where
  enter : ω → κ
  accesses : ω → Accesses κ δ ε
  leave : κ → ο

variable (C : Code ω κ ο δ ε)

def Code.whole (d : δ) (op : ω) : Except ε (ο × δ) :=
  (perform (C.accesses op) (C.enter op, d)).map (Prod.map C.leave id)

def Code.serve (s : δ × List (τ × ω × ο)) (c : τ × ω) : Except ε (δ × List (τ × ω × ο)) :=
  (C.whole s.1 c.2).map fun r ↦ (r.2, s.2 ++ [(c.1, c.2, r.1)])

/-- Where a thread is. One whose section failed never gets to the release. -/
inductive Stage (ω κ δ ε : Type)
  | idle
  | spinning (op : ω)
  | inside (op : ω) (rest : Accesses κ δ ε) (vars : κ)
  | failed (op : ω) (err : ε)

namespace Stage

def Holds : Stage ω κ δ ε → Prop
  | .idle | .spinning _ => False
  | .inside .. | .failed .. => True

def Asks (allowed : ω → Prop) : Stage ω κ δ ε → Prop
  | .idle => True
  | .spinning op | .inside op _ _ | .failed op _ => allowed op

def Within (d data : δ) : Stage ω κ δ ε → Prop
  | .idle | .spinning _ => False
  | .inside op rest vars =>
    ∃ done, done ++ rest = C.accesses op ∧ perform done (C.enter op, d) = .ok (vars, data)
  | .failed op err => C.whole d op = .error err

end Stage

structure World (τ ω κ ο δ ε : Type) where
  locked : Bool
  data : δ
  stages : τ → Stage ω κ δ ε
  returned : List (τ × ω × ο)

def World.initial (d : δ) : World τ ω κ ο δ ε := ⟨false, d, fun _ ↦ .idle, []⟩

inductive Action (τ ω : Type)
  | call (t : τ) (op : ω)
  | compareExchange (t : τ) (spurious : Bool)
  | access (t : τ)
  | release (t : τ)

variable [DecidableEq τ]

def World.put (w : World τ ω κ ο δ ε) (t : τ) (stage : Stage ω κ δ ε) : World τ ω κ ο δ ε :=
  { w with stages := update w.stages t stage }

/-- One atomic action of one thread; one that is not at this point of its code does nothing. -/
def next (w : World τ ω κ ο δ ε) : Action τ ω → World τ ω κ ο δ ε
  | .call t op =>
    match w.stages t with
    | .idle => w.put t (.spinning op)
    | _ => w
  | .compareExchange t spurious =>
    match w.stages t with
    | .spinning op =>
      if w.locked || spurious then w
      else { w.put t (.inside op (C.accesses op) (C.enter op)) with locked := true }
    | _ => w
  | .access t =>
    match w.stages t with
    | .inside op (f :: rest) vars =>
      match f (vars, w.data) with
      | .ok (vars, data) => { w.put t (.inside op rest vars) with data }
      | .error err => w.put t (.failed op err)
    | _ => w
  | .release t =>
    match w.stages t with
    | .inside op [] vars =>
      { w.put t .idle with
        locked := false
        returned := w.returned ++ [(t, op, C.leave vars)] }
    | _ => w

def step (w : World τ ω κ ο δ ε) (a : Action τ ω) : Except Empty (World τ ω κ ο δ ε) :=
  .ok (next C w a)

def Calls (allowed : ω → Prop) (_ : World τ ω κ ο δ ε) : Action τ ω → Prop
  | .call _ op => allowed op
  | _ => True

section Moves

variable {C} {allowed : ω → Prop} {w w' : World τ ω κ ο δ ε} {t : τ} {op : ω}

theorem put_self (stage : Stage ω κ δ ε) : (w.put t stage).stages t = stage := update_self ..

theorem put_of_ne {t' : τ} (h : t' ≠ t) (stage : Stage ω κ δ ε) :
    (w.put t stage).stages t' = w.stages t' := update_of_ne h ..

inductive Moves (C : Code ω κ ο δ ε) (allowed : ω → Prop) (w : World τ ω κ ο δ ε) :
    World τ ω κ ο δ ε → Prop
  | stays : Moves C allowed w w
  | calls {t : τ} {op : ω} (hstage : w.stages t = .idle) (hallowed : allowed op) :
      Moves C allowed w (w.put t (.spinning op))
  | enters {t : τ} {op : ω} (hstage : w.stages t = .spinning op) (hfree : w.locked = false) :
      Moves C allowed w
        { w.put t (.inside op (C.accesses op) (C.enter op)) with locked := true }
  | accesses {t : τ} {op : ω} {f : κ × δ → Except ε (κ × δ)} {rest : Accesses κ δ ε}
      {vars vars' : κ} {data : δ} (hstage : w.stages t = .inside op (f :: rest) vars)
      (hf : f (vars, w.data) = .ok (vars', data)) :
      Moves C allowed w { w.put t (.inside op rest vars') with data }
  | fails {t : τ} {op : ω} {f : κ × δ → Except ε (κ × δ)} {rest : Accesses κ δ ε} {vars : κ}
      {err : ε} (hstage : w.stages t = .inside op (f :: rest) vars)
      (hf : f (vars, w.data) = .error err) : Moves C allowed w (w.put t (.failed op err))
  | releases {t : τ} {op : ω} {vars : κ} (hstage : w.stages t = .inside op [] vars) :
      Moves C allowed w
        { w.put t .idle with
          locked := false
          returned := w.returned ++ [(t, op, C.leave vars)] }

theorem next_moves {a : Action τ ω} (ha : Calls allowed w a) : Moves C allowed w (next C w a) := by
  cases a with
  | call t op =>
    simp only [next]
    split
    case h_1 hstage => exact .calls hstage ha
    case h_2 => exact .stays
  | compareExchange t spurious =>
    simp only [next]
    split
    case h_1 op hstage =>
      cases hlocked : w.locked with
      | true => exact .stays
      | false =>
        cases spurious with
        | true => exact .stays
        | false => exact .enters hstage hlocked
    case h_2 => exact .stays
  | access t =>
    simp only [next]
    split
    case h_1 op f rest vars hstage =>
      split
      case h_1 vars' data hf => exact .accesses hstage hf
      case h_2 err hf => exact .fails hstage hf
    case h_2 => exact .stays
  | release t =>
    simp only [next]
    split
    case h_1 op vars hstage => exact .releases hstage
    case h_2 => exact .stays

theorem step_moves {a : Action τ ω} (ha : Calls allowed w a) (hstep : step C w a = .ok w') :
    Moves C allowed w w' := by
  cases hstep
  exact next_moves ha

theorem run_foldl (actions : List (Action τ ω)) (h : ∀ a ∈ actions, Calls allowed w a) :
    Run (step C) (Calls allowed) w (actions.foldl (next C) w) := by
  induction actions generalizing w with
  | nil => exact .refl w
  | cons a actions ih =>
    have hone : Run (step C) (Calls allowed) w (next C w a) := .one (h a List.mem_cons_self) rfl
    exact hone.trans (ih fun b hb ↦ h b (List.mem_cons_of_mem a hb))

end Moves

/-- The operations that have returned are a run of the operations in one go, and the data is what
this run left, but for what the one thread that holds the lock has done since. -/
structure Serial (allowed : ω → Prop) (start : δ) (w : World τ ω κ ο δ ε) (d : δ) : Prop where
  run : Run C.serve (fun _ c ↦ allowed c.2) (start, []) (d, w.returned)
  asks : ∀ t, (w.stages t).Asks allowed
  free : w.locked = false → w.data = d ∧ ∀ t, ¬ (w.stages t).Holds
  held : w.locked = true →
    ∃ t, (w.stages t).Within C d w.data ∧ ∀ t', (w.stages t').Holds → t' = t

section Serial

variable {C} {allowed : ω → Prop} {start d : δ} {w w' : World τ ω κ ο δ ε}

theorem Stage.Within.holds {stage : Stage ω κ δ ε} {data : δ} (h : stage.Within C d data) :
    stage.Holds := by
  cases stage with
  | idle => exact h
  | spinning op => exact h
  | inside op rest vars => trivial
  | failed op err => trivial

omit [DecidableEq τ] in
theorem serial_initial (d : δ) :
    Serial C allowed d (World.initial d : World τ ω κ ο δ ε) d where
  run := .refl _
  asks _ := trivial
  free _ := ⟨rfl, fun _ h ↦ h⟩
  held h := by cases h

omit [DecidableEq τ] in
theorem Serial.holder (h : Serial C allowed start w d) {t : τ} (ht : (w.stages t).Holds) :
    w.locked = true ∧ (w.stages t).Within C d w.data ∧ ∀ t', (w.stages t').Holds → t' = t := by
  cases hlocked : w.locked with
  | false => exact absurd ht ((h.free hlocked).2 t)
  | true =>
    obtain ⟨t', hwithin, honly⟩ := h.held hlocked
    obtain rfl := honly t ht
    exact ⟨rfl, hwithin, honly⟩

omit [DecidableEq τ] in
theorem Serial.exclusive (h : Serial C allowed start w d) {t t' : τ} (ht : (w.stages t).Holds)
    (ht' : (w.stages t').Holds) : t' = t :=
  (h.holder ht).2.2 t' ht'

theorem asks_put {t : τ} {stage : Stage ω κ δ ε} (h : ∀ t, (w.stages t).Asks allowed)
    (hstage : stage.Asks allowed) (t' : τ) : ((w.put t stage).stages t').Asks allowed := by
  by_cases heq : t' = t
  · rw [heq, put_self]
    exact hstage
  · rw [put_of_ne heq]
    exact h t'

theorem not_holds_put {t : τ} {stage : Stage ω κ δ ε} (h : ∀ t', t' ≠ t → ¬ (w.stages t').Holds)
    (hstage : ¬ stage.Holds) (t' : τ) : ¬ ((w.put t stage).stages t').Holds := by
  by_cases heq : t' = t
  · rw [heq, put_self]
    exact hstage
  · rw [put_of_ne heq]
    exact h t' heq

theorem holds_put {t t' : τ} {stage : Stage ω κ δ ε} (h : ∀ t', t' ≠ t → ¬ (w.stages t').Holds)
    (ht' : ((w.put t stage).stages t').Holds) : t' = t := by
  by_contra hne
  rw [put_of_ne hne] at ht'
  exact h t' hne ht'

theorem Serial.moves (h : Serial C allowed start w d) (hmoves : Moves C allowed w w') :
    ∃ d', Serial C allowed start w' d' := by
  cases hmoves with
  | stays => exact ⟨d, h⟩
  | @calls t op hstage hallowed =>
    -- The thread held nothing before, so whoever holds the lock is another one.
    have hnot : ¬ (w.stages t).Holds := by
      rw [hstage]
      exact id
    refine ⟨d, h.run, asks_put h.asks hallowed, ?_, ?_⟩
    · intro hfree
      obtain ⟨hdata, hnone⟩ := h.free hfree
      exact ⟨hdata, not_holds_put (fun t' _ ↦ hnone t') id⟩
    · intro hlocked
      obtain ⟨t', hwithin, honly⟩ := h.held hlocked
      have hne : t' ≠ t := fun heq ↦ hnot (heq ▸ hwithin.holds)
      refine ⟨t', ?_, ?_⟩
      · rw [put_of_ne hne]
        exact hwithin
      · intro t'' ht''
        by_cases heq : t'' = t
        · rw [heq, put_self] at ht''
          exact ht''.elim
        · rw [put_of_ne heq] at ht''
          exact honly t'' ht''
  | @enters t op hstage hfree =>
    obtain ⟨hdata, hnone⟩ := h.free hfree
    have hasks := h.asks t
    rw [hstage] at hasks
    refine ⟨d, h.run, asks_put h.asks hasks, fun hnot ↦ (by cases hnot), fun _ ↦ ⟨t, ?_, ?_⟩⟩
    · change ((w.put t _).stages t).Within C d w.data
      rw [put_self, hdata]
      exact ⟨[], rfl, rfl⟩
    · exact fun t' ht' ↦ holds_put (fun t'' _ ↦ hnone t'') ht'
  | @accesses t op f rest vars vars' data hstage hf =>
    have hasks := h.asks t
    obtain ⟨hlocked, hwithin, honly⟩ := h.holder (t := t) (by rw [hstage]; trivial)
    rw [hstage] at hasks hwithin
    obtain ⟨done, hdone, hperform⟩ := hwithin
    refine ⟨d, h.run, asks_put h.asks hasks, ?_, fun _ ↦ ⟨t, ?_, ?_⟩⟩
    · intro hfree
      cases hlocked.symm.trans hfree
    · change ((w.put t _).stages t).Within C d data
      rw [put_self]
      refine ⟨done ++ [f], by rw [List.append_assoc, List.singleton_append, hdone], ?_⟩
      rw [perform_append, hperform]
      change f (vars, w.data) >>= perform [] = _
      rw [hf]
      rfl
    · exact fun t' ht' ↦ holds_put (fun t'' hne hh ↦ hne (honly t'' hh)) ht'
  | @fails t op f rest vars err hstage hf =>
    have hasks := h.asks t
    obtain ⟨hlocked, hwithin, honly⟩ := h.holder (t := t) (by rw [hstage]; trivial)
    rw [hstage] at hasks hwithin
    obtain ⟨done, hdone, hperform⟩ := hwithin
    refine ⟨d, h.run, asks_put h.asks hasks, ?_, fun _ ↦ ⟨t, ?_, ?_⟩⟩
    · intro hfree
      cases hlocked.symm.trans hfree
    · change ((w.put t _).stages t).Within C d w.data
      rw [put_self]
      change C.whole d op = .error err
      have hfails : perform (f :: rest) (vars, w.data) = .error err := by
        change f (vars, w.data) >>= perform rest = _
        rw [hf]
        rfl
      have hall : perform (C.accesses op) (C.enter op, d) = .error err := by
        rw [← hdone, perform_append, hperform]
        exact hfails
      rw [Code.whole, hall]
      rfl
    · exact fun t' ht' ↦ holds_put (fun t'' hne hh ↦ hne (honly t'' hh)) ht'
  | @releases t op vars hstage =>
    have hasks := h.asks t
    obtain ⟨-, hwithin, honly⟩ := h.holder (t := t) (by rw [hstage]; trivial)
    rw [hstage] at hasks hwithin
    obtain ⟨done, hdone, hperform⟩ := hwithin
    rw [List.append_nil] at hdone
    rw [hdone] at hperform
    have hserve : C.serve (d, w.returned) (t, op) =
        .ok (w.data, w.returned ++ [(t, op, C.leave vars)]) := by
      simp only [Code.serve, Code.whole, hperform]
      rfl
    refine ⟨w.data, h.run.tail (i := (t, op)) hasks hserve, asks_put h.asks trivial, fun _ ↦ ⟨rfl, ?_⟩, ?_⟩
    · exact not_holds_put (fun t' hne hh ↦ hne (honly t' hh)) id
    · exact fun hlocked ↦ (by cases hlocked)

/-- Whatever the order of the threads' actions is, the operations happen one after the other. -/
theorem serial_of_run (hrun : Run (step C) (Calls allowed) (World.initial start) w) :
    ∃ d, Serial C allowed start w d := by
  refine hrun.invariant (P := fun w ↦ ∃ d, Serial C allowed start w d)
    ⟨start, serial_initial start⟩ ?_
  intro a b i ⟨d, h⟩ hi hstep
  exact h.moves (step_moves hi hstep)

end Serial

section Progress

variable {C} {allowed : ω → Prop} {start d : δ} {w w' : World τ ω κ ο δ ε} {t : τ} {op : ω}

def Finishes (t : τ) (_ : World τ ω κ ο δ ε) : Action τ ω → Prop
  | .access t' | .release t' => t' = t
  | .call .. | .compareExchange .. => False

/-- A thread in its section needs nobody else to get to the end of it. -/
theorem finishes {rest : Accesses κ δ ε} {vars : κ} (h : w.stages t = .inside op rest vars) :
    ∃ w', Run (step C) (Finishes t) w w' ∧
      ((w'.locked = false ∧ w'.stages t = .idle) ∨ ∃ err, w'.stages t = .failed op err) := by
  induction rest generalizing w vars with
  | nil =>
    refine ⟨next C w (.release t), .one (i := .release t) rfl rfl, .inl ?_⟩
    simp only [next, h]
    exact ⟨trivial, put_self _⟩
  | cons f rest ih =>
    have hone : Run (step C) (Finishes t) w (next C w (.access t)) :=
      .one (i := .access t) rfl rfl
    cases hf : f (vars, w.data) with
    | error err =>
      refine ⟨next C w (.access t), hone, .inr ⟨err, ?_⟩⟩
      simp only [next, h, hf]
      exact put_self _
    | ok r =>
      have hinside : (next C w (.access t)).stages t = .inside op rest r.1 := by
        simp only [next, h, hf]
        exact put_self _
      obtain ⟨w', hrun, hend⟩ := ih hinside
      exact ⟨w', hone.trans hrun, hend⟩

theorem Serial.failed_step (h : Serial C allowed start w d) {err : ε}
    (hfailed : w.stages t = .failed op err) (hmoves : Moves C allowed w w') :
    w'.stages t = .failed op err ∧ w'.data = w.data ∧ w'.returned = w.returned := by
  obtain ⟨hlocked, -, honly⟩ := h.holder (t := t) (by rw [hfailed]; trivial)
  have hother : ∀ {t' stage}, w.stages t' = stage → (∀ err, stage ≠ .failed op err) → t ≠ t' := by
    intro t' stage hstage hne heq
    rw [← hstage, ← heq] at hne
    exact hne err hfailed
  have hholder : ∀ {t' op' rest vars}, w.stages t' ≠ .inside op' rest vars := by
    intro t' op' rest vars hstage
    obtain rfl := honly t' (by rw [hstage]; trivial)
    rw [hfailed] at hstage
    cases hstage
  cases hmoves with
  | stays => exact ⟨hfailed, rfl, rfl⟩
  | @calls t' op' hstage =>
    refine ⟨?_, rfl, rfl⟩
    rw [put_of_ne (hother hstage fun _ heq ↦ by cases heq)]
    exact hfailed
  | enters hstage hfree => cases hlocked.symm.trans hfree
  | accesses hstage => exact absurd hstage hholder
  | fails hstage => exact absurd hstage hholder
  | releases hstage => exact absurd hstage hholder

theorem Serial.failed_run (h : Serial C allowed start w d) {err : ε}
    (hfailed : w.stages t = .failed op err) (hrun : Run (step C) (Calls allowed) w w') :
    w'.stages t = .failed op err ∧ w'.data = w.data ∧ w'.returned = w.returned := by
  have hkept := hrun.invariant
    (P := fun v ↦ (∃ d, Serial C allowed start v d) ∧ v.stages t = .failed op err ∧
      v.data = w.data ∧ v.returned = w.returned) ⟨⟨d, h⟩, hfailed, rfl, rfl⟩ ?_
  · exact hkept.2
  · intro a b i ⟨⟨da, ha⟩, hfailed, hdata, hreturned⟩ hi hstep
    have hmoves := step_moves hi hstep
    obtain ⟨hfailed', hdata', hreturned'⟩ := ha.failed_step hfailed hmoves
    exact ⟨ha.moves hmoves, hfailed', hdata'.trans hdata, hreturned'.trans hreturned⟩

end Progress

end ZeroRtt.Lib.SpinLock
