import Detab.Proofs.FileSystem.Reading
import Detab.Proofs.Running.Silence
import Detab.Proofs.Running.Throughout

set_option relaxedAutoImplicit false
set_option autoImplicit false

/-!
# What is asked of which tree

A run asks one request after the other, each of the tree as it is by then. These pairs are the
*trace* of the run. Some statements about a run rely on how its trace looks, for instance on that new
files are made only where nothing exists: `Detab.Script.Provided` says that, as long as every request
meets such an assumption, it meets something else as well, and so does the end.

## Main definitions

* `Detab.Script.trace` — the requests of a run under faults, each with the tree in which it is made.
* `Detab.Script.Provided`, `Detab.Action.Provided` — what holds along every run whose requests meet an
  assumption.
* `Detab.Request.Still` — requests that leave the tree alone.
* `Detab.Request.OfDraft` — requests about a file that was made before.
* `Detab.Request.LooksInto` — the files whose contents or modes are asked for.
* `Detab.Script.Maintains` — scripts that maintain an invariant of the tree, provided that.

## Main results

* `Detab.Script.trace_bind` — the trace of one script after another.
* `Detab.Script.Provided.runUnder` — **what is proved along a script is so in its runs,** if their
  traces meet the assumption.
* `Detab.Script.provided_bind`, `Detab.Action.provided_bind` — the rules.
* `Detab.Script.Throughout.provided` — what holds throughout holds provided anything.
-/

namespace Detab

/-! ## Kinds of requests -/

namespace Request

/-- A request that leaves the tree alone, also when a fault meets it. -/
def Still : Request → Prop
  | .createNew _ | .append .. | .setMode .. | .rename .. | .remove _ => False
  | _ => True

/-- The files whose contents or modes a request asks for. -/
def LooksInto : Request → FileSystem → FileId → Prop
  | .read path, fs, id => fs.Names .toFile path id
  | .modeOf path, fs, id => fs.Names .toFile path id
  | _, _, _ => False

/-- A request about a file that was made before: to fill it, to name it, or to remove it. -/
def OfDraft : Request → Prop
  | .append .. | .sync _ | .setMode .. | .rename .. | .remove _ => True
  | _ => False

/-- A request about a draft neither prints nor logs. -/
lemma OfDraft.quiet {request : Request} (h : request.OfDraft) : request.Quiet := by
  cases request <;> first | exact h.elim | trivial

/-- A request about a draft asks neither for contents nor for modes, so it looks into no file. -/
lemma OfDraft.not_looksInto {request : Request} (h : request.OfDraft) (fs : FileSystem)
    (id : FileId) : ¬ request.LooksInto fs id := by
  cases request <;> first | exact h.elim | exact fun hlooks => hlooks

/-- A request that leaves the tree alone also does so when a fault meets it. -/
lemma Still.fs_after {request : Request} (h : request.Still) (fault : Option Fault)
    (moment : Moment) : (moment.after fault request).2.world.fs = moment.world.fs := by
  cases request <;> first | exact h.elim | (cases fault <;> rfl)

end Request

namespace Script

variable {α β : Type} {assumed assumed' always always' : Request → FileSystem → Prop}
  {atEnd atEnd' : α → Moment → Prop} {moment : Moment} {faults : Faults}

/-! ## Traces -/

/-- **The trace of a run under faults:** its requests, each with the tree in which it is made. -/
def trace (faults : Faults) : Script α → Moment → List (Request × FileSystem)
  | done _, _ => []
  | ask request next, moment =>
    let (result, moment') := moment.after (faults moment.asked.length) request
    (request, moment.world.fs) :: (next result).trace faults moment'

/-- The trace of one script after another is one trace after the other. -/
lemma trace_bind (faults : Faults) (script : Script α) (f : α → Script β) (moment : Moment) :
    (script >>= f).trace faults moment =
      script.trace faults moment ++
        (f (script.runUnder faults moment).1).trace faults (script.runUnder faults moment).2 := by
  induction script generalizing moment with
  | done a => rfl
  | ask request next ih => exact congrArg _ (ih _ _)

/-! ## Provided that -/

/-- **Provided that** every request meets `assumed`, in the tree in which it is made, it meets
`always` as well, and the end of every run meets `atEnd`. -/
def Provided (assumed always : Request → FileSystem → Prop) (atEnd : α → Moment → Prop) :
    Script α → Moment → Prop
  | done a, moment => atEnd a moment
  | ask request next, moment =>
    assumed request moment.world.fs →
      always request moment.world.fs ∧ ∀ fault,
        Provided assumed always atEnd (next (moment.after fault request).1)
          (moment.after fault request).2

/-- **What is proved along a script is so in its runs,** if their traces meet the assumption.

**Proof sketch.** Induction on the script. The trace begins with the first request, which meets the
assumption; what is proved of the rest is proved of its run. -/
lemma Provided.runUnder {script : Script α} (h : script.Provided assumed always atEnd moment)
    (hassumed : ∀ request fs, (request, fs) ∈ script.trace faults moment → assumed request fs) :
    (∀ request fs, (request, fs) ∈ script.trace faults moment → always request fs) ∧
      atEnd (script.runUnder faults moment).1 (script.runUnder faults moment).2 := by
  induction script generalizing moment with
  | done a => exact ⟨fun _ _ hmem => absurd hmem List.not_mem_nil, h⟩
  | ask request next ih =>
    obtain ⟨hnow, hnext⟩ := h (hassumed request moment.world.fs List.mem_cons_self)
    obtain ⟨hlater, hend⟩ := ih _ (hnext (faults moment.asked.length)) fun request fs hmem =>
      hassumed request fs (List.mem_cons_of_mem _ hmem)
    refine ⟨fun request' fs hmem => ?_, hend⟩
    rcases List.mem_cons.mp hmem with heq | hmem
    · obtain ⟨rfl, rfl⟩ := Prod.mk.inj heq
      exact hnow
    · exact hlater request' fs hmem

/-- What is said of the requests, and of the end, can be less. -/
lemma Provided.mono {script : Script α} (h : script.Provided assumed always atEnd moment)
    (halways : ∀ request fs, always request fs → always' request fs)
    (hend : ∀ a moment, atEnd a moment → atEnd' a moment) :
    script.Provided assumed always' atEnd' moment := by
  induction script generalizing moment with
  | done a => exact hend a moment h
  | ask request next ih =>
    intro hassumed
    obtain ⟨hnow, hnext⟩ := h hassumed
    exact ⟨halways _ _ hnow, fun fault => ih _ (hnext fault)⟩

/-- **What holds throughout holds provided anything,** of requests of the kinds that are made. -/
lemma Throughout.provided {script : Script α} {during : Moment → Prop} {allowed : Request → Prop}
    (h : script.Throughout during atEnd moment) (hasks : script.Asks allowed)
    (halways : ∀ request moment, allowed request → during moment →
      always request moment.world.fs) :
    script.Provided assumed always atEnd moment := by
  induction script generalizing moment with
  | done a => exact h.2
  | ask request next ih =>
    exact fun _ => ⟨halways _ _ hasks.1 h.1, fun fault => ih _ (h.2 fault) (hasks.2 _)⟩

/-! ## Rules for scripts -/

/-- A single request: it has to meet what is said of it, and the end has to be met whether a fault
meets it or not. -/
lemma provided_request (request : Request) {atEnd : request.Answer → Moment → Prop}
    (halways : always request moment.world.fs)
    (h : ∀ fault, atEnd (moment.after fault request).1 (moment.after fault request).2) :
    (Script.request request).Provided assumed always atEnd moment :=
  fun _ => ⟨halways, h⟩

/-- **The rule for one script after another.** -/
lemma provided_bind {script : Script α} {f : α → Script β} {atEnd : β → Moment → Prop}
    (h : script.Provided assumed always
      (fun a => (f a).Provided assumed always atEnd) moment) :
    (script >>= f).Provided assumed always atEnd moment := by
  induction script generalizing moment with
  | done a => exact h
  | ask request next ih =>
    intro hassumed
    obtain ⟨hnow, hnext⟩ := h hassumed
    exact ⟨hnow, fun fault => ih _ (hnext fault)⟩

/-- What is done with the result makes no request. -/
lemma provided_map {script : Script α} {f : α → β} {atEnd : β → Moment → Prop}
    (h : script.Provided assumed always (fun a => atEnd (f a)) moment) :
    (f <$> script).Provided assumed always atEnd moment :=
  provided_bind h

end Script

/-! ## Invariants of the tree -/

namespace Script

variable {α β : Type} {assumed always : Request → FileSystem → Prop} {inv : FileSystem → Prop}

/-- **A script that maintains an invariant of the tree,** and whose requests meet `always`, provided
that they meet `assumed`. -/
def Maintains (assumed always : Request → FileSystem → Prop) (inv : FileSystem → Prop)
    (script : Script α) : Prop :=
  ∀ moment : Moment, inv moment.world.fs →
    script.Provided assumed always (fun _ moment => inv moment.world.fs) moment

/-- A script without requests maintains every invariant. -/
lemma maintains_pure (a : α) : (pure a : Script α).Maintains assumed always inv :=
  fun _ hinv => hinv

/-- Two scripts one after the other maintain an invariant, when both of them do. -/
lemma maintains_bind {script : Script α} {f : α → Script β}
    (h : script.Maintains assumed always inv) (hf : ∀ a, (f a).Maintains assumed always inv) :
    (script >>= f).Maintains assumed always inv := by
  intro moment hinv
  refine provided_bind ((h moment hinv).mono (fun _ _ hnow => hnow) ?_)
  exact fun a moment hend => hf a moment hend

/-- What is done with the result does not touch the tree. -/
lemma maintains_map {script : Script α} {f : α → β} (h : script.Maintains assumed always inv) :
    (f <$> script).Maintains assumed always inv :=
  maintains_bind h fun a => maintains_pure (f a)

/-- A request that leaves the tree alone. -/
lemma maintains_request {request : Request} (h : request.Still)
    (halways : ∀ fs, inv fs → always request fs) :
    (Script.request request).Maintains assumed always inv := by
  intro moment hinv
  refine provided_request request (halways _ hinv) fun fault => ?_
  rw [h.fs_after]
  exact hinv

end Script

/-! ## Rules for actions -/

namespace Action

variable {α β ε δ : Type} {assumed always always' : Request → FileSystem → Prop}
  {atOk atOk' : α → Moment → Prop} {atError atError' : ε → Moment → Prop} {moment : Moment}

/-- What holds along every run of an action whose requests meet an assumption. -/
def Provided (assumed always : Request → FileSystem → Prop) (atOk : α → Moment → Prop)
    (atError : ε → Moment → Prop) (action : Action ε α) (moment : Moment) : Prop :=
  Script.Provided assumed always (AtEnd atOk atError) action.run moment

/-- What is said of the requests, and of both ends, can be less. -/
lemma Provided.mono {action : Action ε α}
    (h : action.Provided assumed always atOk atError moment)
    (halways : ∀ request fs, always request fs → always' request fs)
    (hok : ∀ a moment, atOk a moment → atOk' a moment)
    (herror : ∀ e moment, atError e moment → atError' e moment) :
    action.Provided assumed always' atOk' atError' moment := by
  refine Script.Provided.mono h halways fun result moment hend => ?_
  cases result with
  | ok a => exact hok a moment hend
  | error e => exact herror e moment hend

/-- **The rule for one action after another:** a failure of the first is a failure of both. -/
lemma provided_bind {action : Action ε α} {f : α → Action ε β} {atOk : β → Moment → Prop}
    (h : action.Provided assumed always
      (fun a => (f a).Provided assumed always atOk atError) atError moment) :
    (action >>= f).Provided assumed always atOk atError moment := by
  refine Script.provided_bind (Script.Provided.mono h (fun _ _ hnow => hnow) ?_)
  intro result moment hend
  cases result with
  | ok a => exact hend
  | error e => exact hend

/-- The rule for a script that cannot fail. -/
lemma provided_lift {script : Script α} (h : script.Provided assumed always atOk moment) :
    (liftM script : Action ε α).Provided assumed always atOk atError moment :=
  Script.provided_map h

/-- The rule for a script whose failures are given a context. -/
lemma provided_ofScript {context : δ → ε} {script : Script (Except δ α)}
    (h : script.Provided assumed always (AtEnd atOk fun e => atError (context e)) moment) :
    (Action.ofScript context script).Provided assumed always atOk atError moment := by
  refine Script.provided_map (h.mono (fun _ _ hnow => hnow) fun result moment hend => ?_)
  cases result <;> exact hend

section Maintains

variable {inv : FileSystem → Prop}

/-- Two actions one after the other maintain an invariant, when both of them do; the second one is
not run when the first one fails. -/
lemma maintains_bind {action : Action ε α} {f : α → Action ε β}
    (h : Script.Maintains assumed always inv action.run)
    (hf : ∀ a, Script.Maintains assumed always inv (f a).run) :
    Script.Maintains assumed always inv (action >>= f).run := by
  refine Script.maintains_bind h fun result => ?_
  cases result with
  | ok a => exact hf a
  | error e => exact Script.maintains_pure _

/-- An action that is made of a script maintains what the script maintains. -/
lemma maintains_ofScript {context : δ → ε} {script : Script (Except δ α)}
    (h : script.Maintains assumed always inv) :
    Script.Maintains assumed always inv (Action.ofScript context script).run :=
  Script.maintains_map h

/-- A script inside an action maintains what it maintains by itself. -/
lemma maintains_lift {script : Script α} (h : script.Maintains assumed always inv) :
    Script.Maintains assumed always inv (liftM script : Action ε α).run :=
  Script.maintains_map h

end Maintains

end Action

end Detab
