import Detab.World
import Mathlib.Tactic.Common
import Mathlib.Logic.Function.Basic

set_option relaxedAutoImplicit false
set_option autoImplicit false

/-!
# Two scripts on one file system

Between two requests of a script the other one may have changed the tree. So what a script does is
told against an *invariant* that both of them keep: it speaks of the tree and of the *stage* that
either side has come to. A script proceeds if each of its requests, in any tree and for any stage of
the other side that meet the invariant, leads to a stage of its own with which the invariant is met
again.

## Main definitions

* `Detab.Script.Proceeds` — a script that keeps an invariant, and is over after so many requests.
* `Detab.Action.Proceeds` — the same for an action that succeeds.

## Main results

* `Detab.Script.proceeds_bind`, `Detab.Action.proceeds_bind`, `Detab.Action.proceeds_tryCatch` — the
  rules.
* `Detab.Race.proceeds_step`, `Detab.Race.proceeds_run` — **two scripts that proceed keep the
  invariant, in any interleaving.**
* `Detab.Race.exists_run_inTurn` — one script after the other is one of the interleavings.

## Design

The sides are the truth values by which a race tells them apart. A side may be given more requests
than it needs, so bounds for the parts of a script are simply added.
-/

namespace Detab

variable {γ : Type}

/-! ## One side -/

namespace Script

variable {α β : Type} {inv : (Bool → γ) → FileSystem → Prop} {side : Bool} {n m : Nat}
  {session : Session} {own : γ}

/-- **A script that keeps an invariant** as one of two sides, from a stage of its own on, and is over
after at most so many requests, when `atEnd` is met. -/
def Proceeds (inv : (Bool → γ) → FileSystem → Prop) (side : Bool) (atEnd : α → Session → γ → Prop) :
    (n : Nat) → Script α → Session → γ → Prop
  | _, done a, session, own => atEnd a session own
  | 0, ask _ _, _, _ => False
  | n + 1, ask request next, session, own => ∀ stages fs, stages side = own → inv stages fs →
    ∃ own', inv (Function.update stages side own') (World.answer ⟨fs, session⟩ request).2.fs ∧
      Proceeds inv side atEnd n (next (World.answer ⟨fs, session⟩ request).1)
        (World.answer ⟨fs, session⟩ request).2.session own'

variable {atEnd atEnd' : α → Session → γ → Prop}

/-- A side that proceeds for some requests proceeds for more, and to an end that says less. -/
lemma Proceeds.mono {script : Script α} (h : script.Proceeds inv side atEnd n session own)
    (hle : n ≤ m) (himp : ∀ a session own, atEnd a session own → atEnd' a session own) :
    script.Proceeds inv side atEnd' m session own := by
  induction n generalizing script session own m with
  | zero =>
    cases script with
    | done a =>
      cases m <;> exact himp a session own h
    | ask request next => exact h.elim
  | succ n ih =>
    cases script with
    | done a =>
      cases m <;> exact himp a session own h
    | ask request next =>
      obtain ⟨m, rfl⟩ : ∃ k, m = k + 1 := ⟨m - 1, by omega⟩
      intro stages fs hown hinv
      obtain ⟨own', hinv', hnext⟩ := h stages fs hown hinv
      exact ⟨own', hinv', ih hnext (by omega)⟩

/-- A script without requests is over. -/
lemma proceeds_pure {a : α} (h : atEnd a session own) :
    (pure a : Script α).Proceeds inv side atEnd n session own := by
  cases n <;> exact h

/-- One request: the invariant holds again after it, with the side's own stage moved on. -/
lemma proceeds_request {request : Request} {atEnd : request.Answer → Session → γ → Prop}
    (h : ∀ stages fs, stages side = own → inv stages fs →
      ∃ own', inv (Function.update stages side own') (World.answer ⟨fs, session⟩ request).2.fs ∧
        atEnd (World.answer ⟨fs, session⟩ request).1
          (World.answer ⟨fs, session⟩ request).2.session own') :
    (Script.request request).Proceeds inv side atEnd 1 session own :=
  h

/-- A request that changes nothing in the tree, and whose answer does not depend on what the other
side has done. -/
lemma proceeds_request_of_answer {request : Request} {atEnd : request.Answer → Session → γ → Prop}
    {a : request.Answer} {session' : Session}
    (h : ∀ stages fs, stages side = own → inv stages fs →
      World.answer ⟨fs, session⟩ request = (a, ⟨fs, session'⟩))
    (hend : atEnd a session' own) :
    (Script.request request).Proceeds inv side atEnd 1 session own := by
  refine proceeds_request fun stages fs hown hinv => ⟨own, ?_⟩
  rw [h stages fs hown hinv, ← hown, Function.update_eq_self]
  exact ⟨hinv, hown ▸ hend⟩

/-- A line of the log is nothing to the tree. -/
lemma proceeds_log {level : Level} {text : String} {atEnd : Unit → Session → γ → Prop}
    (hend : atEnd () (session.addLine ⟨level, text⟩) own) :
    (log level text).Proceeds inv side atEnd 1 session own := by
  have hanswer : ∀ stages fs, stages side = own → inv stages fs →
      World.answer ⟨fs, session⟩ (.log ⟨level, text⟩) =
        ((), ⟨fs, session.addLine ⟨level, text⟩⟩) :=
    fun _ _ _ _ => rfl
  exact proceeds_request_of_answer hanswer hend

/-- **The rule for one script after another.**

**Proof sketch.** Induction on the number of requests that the first script makes at most. -/
lemma proceeds_bind {script : Script α} {f : α → Script β} {atEnd : β → Session → γ → Prop}
    (h : script.Proceeds inv side
      (fun a session own => (f a).Proceeds inv side atEnd m session own) n session own) :
    (script >>= f).Proceeds inv side atEnd (n + m) session own := by
  induction n generalizing script session own with
  | zero =>
    cases script with
    | done a => exact Proceeds.mono h (by omega) fun _ _ _ hend => hend
    | ask request next => exact h.elim
  | succ n ih =>
    cases script with
    | done a => exact Proceeds.mono h (by omega) fun _ _ _ hend => hend
    | ask request next =>
      rw [show n + 1 + m = n + m + 1 by omega]
      intro stages fs hown hinv
      obtain ⟨own', hinv', hnext⟩ := h stages fs hown hinv
      exact ⟨own', hinv', ih hnext⟩

/-- What is done with the result is no request. -/
lemma proceeds_map {script : Script α} {f : α → β} {atEnd : β → Session → γ → Prop}
    (h : script.Proceeds inv side (fun a => atEnd (f a)) n session own) :
    (f <$> script).Proceeds inv side atEnd n session own :=
  proceeds_bind (m := 0) (h.mono (Nat.le_refl _) fun _ _ _ hend => proceeds_pure hend)

/-- A script for which no request is left is done. -/
lemma Proceeds.exists_done {script : Script α}
    (h : script.Proceeds inv side atEnd 0 session own) :
    ∃ a, script = .done a ∧ atEnd a session own := by
  cases script with
  | done a => exact ⟨a, rfl, h⟩
  | ask request next => exact h.elim

/-- When nothing is left to be done, the end has been met. -/
lemma Proceeds.of_done {a : α} (h : (Script.done a).Proceeds inv side atEnd n session own) :
    atEnd a session own := by
  cases n <;> exact h

end Script

namespace Action

variable {α β ε δ : Type} {inv : (Bool → γ) → FileSystem → Prop} {side : Bool} {n m : Nat}
  {session : Session} {own : γ} {atOk : α → Session → γ → Prop}

/-- **An action that keeps an invariant** as one of two sides, and succeeds after at most so many
requests. -/
def Proceeds (inv : (Bool → γ) → FileSystem → Prop) (side : Bool) (atOk : α → Session → γ → Prop)
    (n : Nat) (action : Action ε α) (session : Session) (own : γ) : Prop :=
  Script.Proceeds inv side
    (fun result session own => ∃ a, result = .ok a ∧ atOk a session own) n action.run session own

/-- An action that proceeds for some requests proceeds for more, and to an end that says less. -/
lemma Proceeds.mono {action : Action ε α} {atOk' : α → Session → γ → Prop}
    (h : action.Proceeds inv side atOk n session own) (hle : n ≤ m)
    (himp : ∀ a session own, atOk a session own → atOk' a session own) :
    action.Proceeds inv side atOk' m session own := by
  refine Script.Proceeds.mono h hle ?_
  rintro _ session own ⟨a, rfl, hend⟩
  exact ⟨a, rfl, himp a session own hend⟩

/-- An action without requests is over, and has succeeded. -/
lemma proceeds_pure {a : α} (h : atOk a session own) :
    (pure a : Action ε α).Proceeds inv side atOk n session own :=
  Script.proceeds_pure ⟨a, rfl, h⟩

/-- **The rule for one action after another.** -/
lemma proceeds_bind {action : Action ε α} {f : α → Action ε β} {atOk : β → Session → γ → Prop}
    (h : action.Proceeds inv side
      (fun a session own => (f a).Proceeds inv side atOk m session own) n session own) :
    (action >>= f).Proceeds inv side atOk (n + m) session own := by
  refine Script.proceeds_bind (Script.Proceeds.mono h (Nat.le_refl _) ?_)
  rintro _ session own ⟨a, rfl, hend⟩
  exact hend

/-- What is done after a failure is of no concern. -/
lemma proceeds_tryCatch {action : Action ε α} {handler : ε → Action ε α}
    (h : action.Proceeds inv side atOk n session own) :
    (tryCatch action handler).Proceeds inv side atOk n session own := by
  refine Script.proceeds_bind (m := 0) (Script.Proceeds.mono h (Nat.le_refl _) ?_)
  rintro _ session own ⟨a, rfl, hend⟩
  exact Script.proceeds_pure ⟨a, rfl, hend⟩

/-- A script inside an action proceeds as it does by itself. -/
lemma proceeds_lift {script : Script α} (h : script.Proceeds inv side atOk n session own) :
    (liftM script : Action ε α).Proceeds inv side atOk n session own :=
  Script.proceeds_map (h.mono (Nat.le_refl _) fun a _ _ hend => ⟨a, rfl, hend⟩)

/-- A script that may fail proceeds inside an action, if it succeeds. -/
lemma proceeds_ofScript {context : δ → ε} {script : Script (Except δ α)}
    (h : script.Proceeds inv side
      (fun result session own => ∃ a, result = .ok a ∧ atOk a session own) n session own) :
    (Action.ofScript context script).Proceeds inv side atOk n session own := by
  refine Script.proceeds_map (h.mono (Nat.le_refl _) ?_)
  rintro _ session own ⟨a, rfl, hend⟩
  exact ⟨a, rfl, hend⟩

end Action

/-! ## Both sides -/

namespace Race

variable {α β : Type} {inv : (Bool → γ) → FileSystem → Prop} {atLeft : α → Session → γ → Prop}
  {atRight : β → Session → γ → Prop} {n m : Nat} {race : Race α β}

/-- **Both sides proceed** from stages that meet the invariant: the left one for at most `n` requests
and the right one for at most `m`. -/
def Proceeds (inv : (Bool → γ) → FileSystem → Prop) (atLeft : α → Session → γ → Prop)
    (atRight : β → Session → γ → Prop) (n m : Nat) (race : Race α β) : Prop :=
  ∃ stages, inv stages race.fs ∧
    race.left.Proceeds inv true atLeft n race.leftSession (stages true) ∧
    race.right.Proceeds inv false atRight m race.rightSession (stages false)

/-- **One turn.** The side whose turn it is has one request less before it, and the other side is at
the stage at which it was.

**Proof sketch.** By the side whose turn it is, and by whether it has a request left. If so, its
request keeps the invariant with its own stage moved on, and the other side's promise is for any
stage of this one. -/
lemma proceeds_step (h : race.Proceeds inv atLeft atRight n m) (leftSide : Bool) :
    (race.step leftSide).Proceeds inv atLeft atRight (n - if leftSide then 1 else 0)
      (m - if leftSide then 0 else 1) := by
  obtain ⟨fs, left, leftSession, right, rightSession⟩ := race
  obtain ⟨stages, hinv, hleft, hright⟩ := h
  cases leftSide with
  | true =>
    cases left with
    | done a => exact ⟨stages, hinv, Script.proceeds_pure hleft.of_done, hright⟩
    | ask request next =>
      cases n with
      | zero => exact hleft.elim
      | succ n =>
        obtain ⟨own, hinv', hnext⟩ := hleft stages fs rfl hinv
        refine ⟨Function.update stages true own, hinv', ?_, ?_⟩
        · rw [Function.update_self]
          exact hnext
        · rw [Function.update_of_ne (by simp)]
          exact hright
  | false =>
    cases right with
    | done a => exact ⟨stages, hinv, hleft, Script.proceeds_pure hright.of_done⟩
    | ask request next =>
      cases m with
      | zero => exact hright.elim
      | succ m =>
        obtain ⟨own, hinv', hnext⟩ := hright stages fs rfl hinv
        refine ⟨Function.update stages false own, hinv', ?_, ?_⟩
        · rw [Function.update_of_ne (by simp)]
          exact hleft
        · rw [Function.update_self]
          exact hnext

/-- **Two scripts that proceed keep the invariant, in any interleaving,** and each of them is over when
it has had enough turns. -/
lemma proceeds_run (h : race.Proceeds inv atLeft atRight n m) (turns : List Bool) :
    (race.run turns).Proceeds inv atLeft atRight (n - turns.count true) (m - turns.count false) := by
  induction turns generalizing race n m with
  | nil => exact h
  | cons leftSide turns ih =>
    have hrest := ih (proceeds_step h leftSide)
    rw [Nat.sub_sub, Nat.sub_sub] at hrest
    have hcount : ∀ b, (leftSide :: turns).count b =
        (if leftSide = b then 1 else 0) + turns.count b := by
      intro b
      rw [List.count_cons, Nat.add_comm]
      simp
    rw [hcount, hcount]
    cases leftSide <;> exact hrest

/-! ### One side after the other -/

/-- The left side may have all turns until it is through. -/
lemma exists_run_left (fs : FileSystem) (left : Script α) (leftSession : Session) (right : Script β)
    (rightSession : Session) : ∃ turns, run ⟨fs, left, leftSession, right, rightSession⟩ turns =
      ⟨(left.run ⟨fs, leftSession⟩).2.fs, .done (left.run ⟨fs, leftSession⟩).1,
        (left.run ⟨fs, leftSession⟩).2.session, right, rightSession⟩ := by
  induction left generalizing fs leftSession with
  | done a => exact ⟨[], rfl⟩
  | ask request next ih =>
    obtain ⟨turns, hturns⟩ := ih (World.answer ⟨fs, leftSession⟩ request).1
      (World.answer ⟨fs, leftSession⟩ request).2.fs (World.answer ⟨fs, leftSession⟩ request).2.session
    exact ⟨true :: turns, hturns⟩

/-- And so may the right side. -/
lemma exists_run_right (fs : FileSystem) (left : Script α) (leftSession : Session) (right : Script β)
    (rightSession : Session) : ∃ turns, run ⟨fs, left, leftSession, right, rightSession⟩ turns =
      ⟨(right.run ⟨fs, rightSession⟩).2.fs, left, leftSession, .done (right.run ⟨fs, rightSession⟩).1,
        (right.run ⟨fs, rightSession⟩).2.session⟩ := by
  induction right generalizing fs rightSession with
  | done a => exact ⟨[], rfl⟩
  | ask request next ih =>
    obtain ⟨turns, hturns⟩ := ih (World.answer ⟨fs, rightSession⟩ request).1
      (World.answer ⟨fs, rightSession⟩ request).2.fs
      (World.answer ⟨fs, rightSession⟩ request).2.session
    exact ⟨false :: turns, hturns⟩

/-- Turns that are taken after others. -/
lemma run_append (race : Race α β) (turns rest : List Bool) :
    race.run (turns ++ rest) = (race.run turns).run rest := by
  induction turns generalizing race with
  | nil => rfl
  | cons leftSide turns ih => exact ih (race.step leftSide)

/-- **To run one script after the other is one of the interleavings.** -/
lemma exists_run_inTurn (race : Race α β) :
    ∃ turns, let left := race.left.run ⟨race.fs, race.leftSession⟩
      let right := race.right.run ⟨left.2.fs, race.rightSession⟩
      (race.run turns).left = .done left.1 ∧ (race.run turns).right = .done right.1 := by
  obtain ⟨fs, left, leftSession, right, rightSession⟩ := race
  obtain ⟨turns, hleft⟩ := exists_run_left fs left leftSession right rightSession
  obtain ⟨rest, hright⟩ := exists_run_right (left.run ⟨fs, leftSession⟩).2.fs
    (.done (left.run ⟨fs, leftSession⟩).1) (left.run ⟨fs, leftSession⟩).2.session right rightSession
  refine ⟨turns ++ rest, ?_⟩
  rw [run_append, hleft, hright]
  exact ⟨rfl, rfl⟩

end Race

end Detab
