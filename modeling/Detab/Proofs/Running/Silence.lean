import Detab.World
import Mathlib.Tactic.Common

set_option relaxedAutoImplicit false
set_option autoImplicit false

/-!
# Scripts that do not print

What was written to the output, and how much more it accepts, is nothing to a script that does not
print: in two worlds that are alike otherwise it does the same.

## Main definitions

* `Detab.Script.Asks`, `Detab.Action.Asks` — whatever is answered, only such requests are made.
* `Detab.Request.Silent`, `Detab.Request.Quiet` — requests that do not print, and those that do not
  log either.
* `Detab.World.Alike` — worlds that only output and log tell apart.
* `Detab.World.withLog` — a world with another log.

## Main results

* `Detab.World.Alike.answer`, `Detab.World.Alike.run` — **alike worlds stay alike,** and give the same
  answers and results.
* `Detab.Script.Asks.written_run`, `Detab.Script.Asks.log_run` — a script that does not print leaves
  the output alone, and one that does not log leaves the log alone.
* `Detab.Script.exists_run_withLog` — **what is in the log makes no difference.**
-/

namespace Detab

/-! ## What is asked -/

namespace Script

variable {α β : Type} {allowed allowed' : Request → Prop}

/-- **Whatever is answered,** only allowed requests are made. -/
def Asks (allowed : Request → Prop) : Script α → Prop
  | done _ => True
  | ask request next => allowed request ∧ ∀ answer, Asks allowed (next answer)

/-- What makes only allowed requests makes only requests that a wider rule allows. -/
lemma Asks.mono {script : Script α} (h : script.Asks allowed)
    (himp : ∀ request, allowed request → allowed' request) : script.Asks allowed' := by
  induction script with
  | done a => trivial
  | ask request next ih => exact ⟨himp request h.1, fun answer => ih answer (h.2 answer)⟩

/-- No request is made. -/
lemma asks_pure (a : α) : (pure a : Script α).Asks allowed :=
  trivial

/-- A single request, if it is allowed. -/
lemma asks_request {r : Request} (h : allowed r) : (request r).Asks allowed :=
  ⟨h, fun _ => trivial⟩

/-- The requests of two scripts one after the other are those of both, whatever the first one has
given. -/
lemma asks_bind {script : Script α} {f : α → Script β} (h : script.Asks allowed)
    (hf : ∀ a, (f a).Asks allowed) : (script >>= f).Asks allowed := by
  induction script with
  | done a => exact hf a
  | ask request next ih => exact ⟨h.1, fun answer => ih answer (h.2 answer)⟩

/-- What is done with the result makes no request. -/
lemma asks_map {script : Script α} {f : α → β} (h : script.Asks allowed) :
    (f <$> script).Asks allowed :=
  asks_bind h fun _ => asks_pure _

end Script

namespace Action

variable {α β ε δ : Type} {allowed : Request → Prop}

/-- Whatever is answered, only allowed requests are made. -/
def Asks (allowed : Request → Prop) (action : Action ε α) : Prop :=
  Script.Asks allowed action.run

/-- No request is made by an action that has its result. -/
lemma asks_pure (a : α) : (pure a : Action ε α).Asks allowed :=
  trivial

/-- No request is made by an action that fails. -/
lemma asks_throw (e : ε) : (throw e : Action ε α).Asks allowed :=
  trivial

/-- The requests of two actions one after the other are those of the first one, and of the second
one if the first one succeeds. -/
lemma asks_bind {action : Action ε α} {f : α → Action ε β} (h : action.Asks allowed)
    (hf : ∀ a, (f a).Asks allowed) : (action >>= f).Asks allowed := by
  refine Script.asks_bind h fun result => ?_
  cases result with
  | ok a => exact hf a
  | error e => exact Script.asks_pure _

/-- A handler adds its requests to those of the action that it is for. -/
lemma asks_tryCatch {action : Action ε α} {handler : ε → Action ε α} (h : action.Asks allowed)
    (hhandler : ∀ e, (handler e).Asks allowed) : (tryCatch action handler).Asks allowed := by
  refine Script.asks_bind h fun result => ?_
  cases result with
  | ok a => exact Script.asks_pure _
  | error e => exact hhandler e

/-- An action that is made of a script makes the requests of the script. -/
lemma asks_ofScript {context : δ → ε} {script : Script (Except δ α)} (h : script.Asks allowed) :
    (Action.ofScript context script).Asks allowed :=
  Script.asks_map h

/-- A script inside an action makes the requests that it makes by itself. -/
lemma asks_lift {script : Script α} (h : script.Asks allowed) :
    (liftM script : Action ε α).Asks allowed :=
  Script.asks_map h

end Action

/-! ## Silence -/

/-- A request that does not print. -/
def Request.Silent : Request → Prop
  | .print _ => False
  | _ => True

/-- A request that neither prints nor logs. -/
def Request.Quiet : Request → Prop
  | .print _ | .log _ => False
  | _ => True

/-- What neither prints nor logs does not print. -/
lemma Request.Quiet.silent {request : Request} (h : request.Quiet) : request.Silent := by
  cases request <;> first | exact h.elim | trivial

/-- **Worlds that only output and log tell apart:** they have the same tree, and the processes are
the same and have looked at the clock as often. -/
structure World.Alike (world world' : World) : Prop where
  fs : world'.fs = world.fs
  process : world'.session.process = world.session.process
  clock : world'.session.clock = world.session.clock
  looks : world'.session.looks = world.session.looks

namespace World.Alike

variable {α : Type} {world world' world'' : World}

/-- A request that does not print is answered alike in alike worlds. -/
lemma answer (h : world.Alike world') {request : Request} (hsilent : request.Silent) :
    (world'.answer request).1 = (world.answer request).1 ∧
      (world.answer request).2.Alike (world'.answer request).2 := by
  obtain ⟨fs, process, clock, looks, written, limit, log⟩ := world
  obtain ⟨fs', process', clock', looks', written', limit', log'⟩ := world'
  obtain ⟨rfl, rfl, rfl, rfl⟩ := h
  cases request with
  | print bytes => exact hsilent.elim
  | createNew path =>
    simp only [World.answer, Detab.answer]
    cases fs'.createNew path <;> exact ⟨rfl, rfl, rfl, rfl, rfl⟩
  | _ => exact ⟨rfl, rfl, rfl, rfl, rfl⟩

/-- **A script that does not print does the same in alike worlds.** -/
lemma run (h : world.Alike world') {script : Script α} (hsilent : script.Asks Request.Silent) :
    (script.run world').1 = (script.run world).1 ∧
      (script.run world).2.Alike (script.run world').2 := by
  induction script generalizing world world' with
  | done a => exact ⟨rfl, h⟩
  | ask request next ih =>
    obtain ⟨hresult, hafter⟩ := h.answer hsilent.1
    rw [Script.run, Script.run]
    dsimp only
    rw [hresult]
    exact ih _ hafter (hsilent.2 _)

end World.Alike

/-- A request that does not print leaves the output alone. -/
lemma World.written_answer (world : World) {request : Request} (hsilent : request.Silent) :
    (world.answer request).2.session.written = world.session.written ∧
      (world.answer request).2.session.limit = world.session.limit := by
  cases request with
  | print bytes => exact hsilent.elim
  | createNew path =>
    simp only [World.answer, Detab.answer]
    cases world.fs.createNew path <;> exact ⟨rfl, rfl⟩
  | _ => exact ⟨rfl, rfl⟩

/-- **A script that does not print leaves the output alone.** -/
lemma Script.Asks.written_run {α : Type} {script : Script α}
    (hsilent : script.Asks Request.Silent) (world : World) :
    (script.run world).2.session.written = world.session.written ∧
      (script.run world).2.session.limit = world.session.limit := by
  induction script generalizing world with
  | done a => exact ⟨rfl, rfl⟩
  | ask request next ih =>
    obtain ⟨hwritten, hlimit⟩ := world.written_answer hsilent.1
    obtain ⟨hwritten', hlimit'⟩ := ih _ (hsilent.2 _) (world.answer request).2
    exact ⟨hwritten'.trans hwritten, hlimit'.trans hlimit⟩

/-- A request that does not log leaves the log alone. -/
lemma World.log_answer (world : World) {request : Request} (hquiet : request.Quiet) :
    (world.answer request).2.session.log = world.session.log := by
  cases request with
  | print bytes => exact hquiet.elim
  | log line => exact hquiet.elim
  | createNew path =>
    simp only [World.answer, Detab.answer]
    cases world.fs.createNew path <;> rfl
  | _ => rfl

/-- **A script that does not log leaves the log alone.** -/
lemma Script.Asks.log_run {α : Type} {script : Script α} (hquiet : script.Asks Request.Quiet)
    (world : World) : (script.run world).2.session.log = world.session.log := by
  induction script generalizing world with
  | done a => rfl
  | ask request next ih =>
    exact (ih _ (hquiet.2 _) (world.answer request).2).trans (world.log_answer hquiet.1)

/-! ## The log -/

/-- The same world with another log. -/
def World.withLog (world : World) (log : List LogLine) : World :=
  ⟨world.fs, { world.session with log := log }⟩

/-- No request asks for the log. -/
lemma World.exists_answer_withLog (world : World) (log : List LogLine) (request : Request) :
    ∃ log', (world.withLog log).answer request =
      ((world.answer request).1, (world.answer request).2.withLog log') := by
  cases request with
  | createNew path =>
    simp only [World.answer, Detab.answer, World.withLog]
    cases world.fs.createNew path <;> exact ⟨log, rfl⟩
  | print bytes =>
    refine ⟨log, ?_⟩
    simp only [World.answer, Detab.answer, World.withLog, Session.print]
    split <;> rfl
  | log line => exact ⟨log ++ [line], rfl⟩
  | _ => exact ⟨log, rfl⟩

/-- **What is in the log makes no difference** to anything but the log. -/
lemma Script.exists_run_withLog {α : Type} (script : Script α) (world : World)
    (log : List LogLine) :
    ∃ log', script.run (world.withLog log) =
      ((script.run world).1, (script.run world).2.withLog log') := by
  induction script generalizing world log with
  | done a => exact ⟨log, rfl⟩
  | ask request next ih =>
    obtain ⟨log₁, hanswer⟩ := world.exists_answer_withLog log request
    obtain ⟨log', hrest⟩ := ih (world.answer request).1 (world.answer request).2 log₁
    refine ⟨log', ?_⟩
    rw [Script.run, Script.run, hanswer]
    exact hrest

end Detab
