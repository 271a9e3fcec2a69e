import Mathlib.Data.List.Basic

namespace ZeroRtt.Lib.Interface

variable {Call Query : Type} {Answer : Call → Type} {Value : Query → Type}

/-- An object known only through its interface. Whatever its state is, it is
determined by the calls made so far, so the object is an arbitrary answer to
every call and every query after every history of calls. -/
structure BlackBox (Answer : Call → Type) (Value : Query → Type) where
  answer : List Call → ∀ c, Answer c
  value : List Call → ∀ q, Value q
  history : List Call

namespace BlackBox

def after (b : BlackBox Answer Value) (calls : List Call) : BlackBox Answer Value :=
  { b with history := b.history ++ calls }

def call (b : BlackBox Answer Value) (c : Call) : Answer c × BlackBox Answer Value :=
  (b.answer b.history c, b.after [c])

def ask (b : BlackBox Answer Value) (q : Query) : Value q := b.value b.history q

@[simp] theorem after_nil (b : BlackBox Answer Value) : b.after [] = b := by simp [after]

@[simp] theorem after_after (b : BlackBox Answer Value) (xs ys : List Call) :
    (b.after xs).after ys = b.after (xs ++ ys) := by simp [after]

def Constant (b : BlackBox Answer Value) (q : Query) : Prop :=
  ∀ h h', b.value h q = b.value h' q

theorem Constant.ask_after {b : BlackBox Answer Value} {q : Query} (h : b.Constant q)
    (calls : List Call) : (b.after calls).ask q = b.ask q := h _ _

end BlackBox

end ZeroRtt.Lib.Interface
