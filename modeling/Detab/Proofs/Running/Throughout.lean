import Detab.Proofs.Running.Faults

set_option relaxedAutoImplicit false
set_option autoImplicit false

/-!
# What holds throughout a run

A statement about every run of a script is proved along the script: `Script.Throughout` says that,
whatever faults there are, something holds at every moment and something else at the end. There is
one rule for each way to put scripts and actions together.

## Main definitions

* `Detab.Script.Throughout` — what holds at every moment of every run, and at its end.
* `Detab.Action.Throughout` — the same for an action, with one end for success and one for failure.

## Main results

* `Detab.Script.Throughout.runUnder`, `Detab.Script.Throughout.cutOff`,
  `Detab.Script.Throughout.run` — **what is proved along a script is so in its runs.**
* `Detab.Script.throughout_bind`, `Detab.Action.throughout_bind`,
  `Detab.Action.throughout_tryCatch` — the rules.
-/

namespace Detab

namespace Script

variable {α β : Type} {always : Moment → Prop} {atEnd : α → Moment → Prop} {moment : Moment}

/-- **What holds throughout:** in every run of the script from a moment, `always` at every moment and
`atEnd` for the result. -/
def Throughout (always : Moment → Prop) (atEnd : α → Moment → Prop) : Script α → Moment → Prop
  | done a, moment => always moment ∧ atEnd a moment
  | ask request next, moment =>
    always moment ∧ ∀ fault,
      Throughout always atEnd (next (moment.after fault request).1) (moment.after fault request).2

namespace Throughout

/-- What holds throughout holds at the beginning. -/
lemma now {script : Script α} (h : script.Throughout always atEnd moment) : always moment := by
  cases script <;> exact h.1

/-- The end can say less. What holds throughout is at hand for that, as the end is a moment too. -/
lemma mono {script : Script α} (h : script.Throughout always atEnd moment)
    {atEnd' : α → Moment → Prop}
    (himp : ∀ a moment, always moment → atEnd a moment → atEnd' a moment) :
    script.Throughout always atEnd' moment := by
  induction script generalizing moment with
  | done a => exact ⟨h.1, himp a moment h.1 h.2⟩
  | ask request next ih => exact ⟨h.1, fun fault => ih _ (h.2 fault)⟩

/-- What holds throughout can say less. -/
lemma weaken {script : Script α} (h : script.Throughout always atEnd moment)
    {always' : Moment → Prop} (himp : ∀ moment, always moment → always' moment) :
    script.Throughout always' atEnd moment := by
  induction script generalizing moment with
  | done a => exact ⟨himp moment h.1, h.2⟩
  | ask request next ih => exact ⟨himp moment h.1, fun fault => ih _ (h.2 fault)⟩

/-- What is proved along a script is so at the end of its runs. -/
lemma runUnder {script : Script α} (h : script.Throughout always atEnd moment) (faults : Faults) :
    atEnd (script.runUnder faults moment).1 (script.runUnder faults moment).2 := by
  induction script generalizing moment with
  | done a => exact h.2
  | ask request next ih => exact ih _ (h.2 (faults moment.asked.length))

/-- What is proved along a script is so wherever it is cut off. -/
lemma cutOff {script : Script α} (h : script.Throughout always atEnd moment) (faults : Faults)
    (n : Nat) : always (cutOff faults n script moment) := by
  induction n generalizing script moment with
  | zero => exact h.now
  | succ n ih =>
    cases script with
    | done a => exact h.1
    | ask request next => exact ih (h.2 (faults moment.asked.length))

/-- What is proved along a script is so in the world that the model leaves. -/
lemma run {script : Script α} (h : script.Throughout always atEnd moment) :
    ∃ asked, atEnd (script.run moment.world).1 ⟨asked, (script.run moment.world).2⟩ := by
  refine ⟨(script.runUnder (fun _ => none) moment).2.asked, ?_⟩
  rw [run_eq_runUnder]
  exact h.runUnder fun _ => none

end Throughout

/-! ## Rules for scripts -/

/-- No request is made, so the moment is the only one. -/
lemma throughout_pure {a : α} (halways : always moment) (hend : atEnd a moment) :
    (pure a : Script α).Throughout always atEnd moment :=
  ⟨halways, hend⟩

/-- A single request: what holds throughout has to hold before it and after it, whether a fault
meets it or not. -/
lemma throughout_request (request : Request) {atEnd : request.Answer → Moment → Prop}
    (halways : always moment)
    (h : ∀ fault, always (moment.after fault request).2 ∧
      atEnd (moment.after fault request).1 (moment.after fault request).2) :
    (Script.request request).Throughout always atEnd moment :=
  ⟨halways, h⟩

/-- **The rule for one script after another.** -/
lemma throughout_bind {script : Script α} {f : α → Script β} {atEnd : β → Moment → Prop}
    (h : script.Throughout always (fun a => (f a).Throughout always atEnd) moment) :
    (script >>= f).Throughout always atEnd moment := by
  induction script generalizing moment with
  | done a => exact h.2
  | ask request next ih => exact ⟨h.1, fun fault => ih _ (h.2 fault)⟩

/-- What is done with the result does not change the moment. -/
lemma throughout_map {script : Script α} {f : α → β} {atEnd : β → Moment → Prop}
    (h : script.Throughout always (fun a => atEnd (f a)) moment) :
    (f <$> script).Throughout always atEnd moment :=
  throughout_bind (h.mono fun _ _ halways hend => throughout_pure halways hend)

end Script

/-! ## Rules for actions -/

namespace Action

variable {α β ε δ : Type} {always : Moment → Prop} {atOk : α → Moment → Prop}
  {atError : ε → Moment → Prop} {moment : Moment}

/-- What holds at the end of an action, of its success or of its failure. -/
def AtEnd (atOk : α → Moment → Prop) (atError : ε → Moment → Prop) :
    Except ε α → Moment → Prop
  | .ok a => atOk a
  | .error e => atError e

/-- **What holds throughout an action.** -/
def Throughout (always : Moment → Prop) (atOk : α → Moment → Prop) (atError : ε → Moment → Prop)
    (action : Action ε α) (moment : Moment) : Prop :=
  Script.Throughout always (AtEnd atOk atError) action.run moment

/-- The ends, of success and of failure, can say less. -/
lemma Throughout.mono {action : Action ε α} (h : action.Throughout always atOk atError moment)
    {atOk' : α → Moment → Prop} {atError' : ε → Moment → Prop}
    (hok : ∀ a moment, always moment → atOk a moment → atOk' a moment)
    (herror : ∀ e moment, always moment → atError e moment → atError' e moment) :
    action.Throughout always atOk' atError' moment := by
  refine Script.Throughout.mono h fun result moment halways hend => ?_
  cases result with
  | ok a => exact hok a moment halways hend
  | error e => exact herror e moment halways hend

/-- An action that has its result is at its end. -/
lemma throughout_pure {a : α} (halways : always moment) (hok : atOk a moment) :
    (pure a : Action ε α).Throughout always atOk atError moment :=
  ⟨halways, hok⟩

/-- An action that fails is at its end, with this error. -/
lemma throughout_throw {e : ε} (halways : always moment) (herror : atError e moment) :
    (throw e : Action ε α).Throughout always atOk atError moment :=
  ⟨halways, herror⟩

/-- **The rule for one action after another:** a failure of the first is a failure of both. -/
lemma throughout_bind {action : Action ε α} {f : α → Action ε β} {atOk : β → Moment → Prop}
    (h : action.Throughout always (fun a => (f a).Throughout always atOk atError) atError moment) :
    (action >>= f).Throughout always atOk atError moment := by
  refine Script.throughout_bind (Script.Throughout.mono h fun result moment halways hend => ?_)
  cases result with
  | ok a => exact hend
  | error e => exact ⟨halways, hend⟩

/-- The rule for a failure that is caught. -/
lemma throughout_tryCatch {action : Action ε α} {handler : ε → Action ε α}
    (h : action.Throughout always atOk (fun e => (handler e).Throughout always atOk atError)
      moment) :
    (tryCatch action handler).Throughout always atOk atError moment := by
  refine Script.throughout_bind (Script.Throughout.mono h fun result moment halways hend => ?_)
  cases result with
  | ok a => exact ⟨halways, hend⟩
  | error e => exact hend

/-- The rule for a script that cannot fail. -/
lemma throughout_lift {script : Script α} (h : script.Throughout always atOk moment) :
    (liftM script : Action ε α).Throughout always atOk atError moment :=
  Script.throughout_map (h.mono fun _ _ _ hend => hend)

/-- The rule for a request whose failures are given a context. -/
lemma throughout_ofScript {context : δ → ε} {script : Script (Except δ α)}
    (h : script.Throughout always (AtEnd atOk fun e => atError (context e)) moment) :
    (Action.ofScript context script).Throughout always atOk atError moment := by
  refine Script.throughout_map (h.mono fun result moment halways hend => ?_)
  cases result <;> exact hend

end Action

end Detab
