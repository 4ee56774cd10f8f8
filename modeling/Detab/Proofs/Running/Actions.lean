import Detab.World
import Mathlib.Tactic.Common

set_option relaxedAutoImplicit false
set_option autoImplicit false

/-!
# Running actions

An action is run by running its script. The run of two actions, one after the other, goes on with the
second one where the first one succeeds, and ends where the first one fails.

## Main results

* `Detab.Action.run_bind_of_ok`, `Detab.Action.run_bind_of_error`, `Detab.Action.run_bind_eq_ok` —
  **running one action after another.**
* `Detab.Action.run_tryCatch` — running an action whose failure is caught.
* `Detab.Action.run_ofScript`, `Detab.Action.run_read`, `Detab.Action.run_lift` — running a script as an
  action.
-/

namespace Detab.Action

variable {α β ε δ : Type} {action : Action ε α} {f : α → Action ε β} {a : α} {b : β} {e : ε}
  {world world' world'' : World}

/-- The run of two actions, by how the first one ends. -/
lemma run_bind (action : Action ε α) (f : α → Action ε β) (world : World) :
    (action >>= f).run.run world =
      match action.run.run world with
      | (.ok a, world') => (f a).run.run world'
      | (.error e, world') => (.error e, world') := by
  rw [ExceptT.run_bind, Script.run_bind]
  rcases action.run.run world with ⟨_ | _, _⟩ <;> rfl

/-- When the first action succeeds, the second one goes on with its result in the world that it has
left. -/
lemma run_bind_of_ok (h : action.run.run world = (.ok a, world')) :
    (action >>= f).run.run world = (f a).run.run world' := by
  rw [run_bind, h]

/-- When the first action fails, the second one is not run. -/
lemma run_bind_of_error (h : action.run.run world = (.error e, world')) :
    (action >>= f).run.run world = (.error e, world') := by
  rw [run_bind, h]

/-- **Where both actions succeed,** the second one starts where the first one has ended. -/
lemma run_bind_eq_ok (h : (action >>= f).run.run world = (.ok b, world'')) :
    ∃ a world', action.run.run world = (.ok a, world') ∧
      (f a).run.run world' = (.ok b, world'') := by
  rw [run_bind] at h
  rcases hfirst : action.run.run world with ⟨e | a, world'⟩
  · simp [hfirst] at h
  · rw [hfirst] at h
    exact ⟨a, world', rfl, h⟩

/-- The run of an action whose failure is caught. -/
lemma run_tryCatch (action : Action ε α) (handler : ε → Action ε α) (world : World) :
    (tryCatch action handler).run.run world =
      match action.run.run world with
      | (.ok a, world') => (.ok a, world')
      | (.error e, world') => (handler e).run.run world' := by
  change (Script.bind action.run _).run world = _
  refine (Script.run_bind action.run _ world).trans ?_
  rcases action.run.run world with ⟨_ | _, _⟩ <;> rfl

/-- A context says what failed, and changes nothing about a success. -/
lemma mapError_eq_ok_iff {context : δ → ε} {result : Except δ α} :
    result.mapError context = .ok a ↔ result = .ok a := by
  cases result <;> simp [Except.mapError]

/-- A script inside an action runs as it does by itself; only its error is put into a context. -/
lemma run_ofScript (context : δ → ε) (script : Script (Except δ α)) (world : World) :
    (Action.ofScript context script).run.run world =
      ((script.run world).1.mapError context, (script.run world).2) :=
  Script.run_map _ _ _

/-- The same for a run that is known. -/
lemma run_ofScript_of_run {context : δ → ε} {script : Script (Except δ α)} {result : Except δ α}
    (h : script.run world = (result, world')) :
    (Action.ofScript context script).run.run world = (result.mapError context, world') := by
  rw [run_ofScript, h]

/-- Reading a file finds what the tree holds under the path, and changes nothing. -/
lemma run_read (context : IoError → ε) (path : Path) (world : World) :
    (Action.ofScript context (.request (.read path)) : Action ε ByteArray).run.run world =
      ((world.fs.read path).mapError context, world) :=
  run_ofScript_of_run rfl

/-- A script that cannot fail, inside an action, gives its result. -/
lemma run_lift (script : Script α) (world : World) :
    (liftM script : Action ε α).run.run world =
      (.ok (script.run world).1, (script.run world).2) :=
  Script.run_map _ _ _

end Detab.Action
