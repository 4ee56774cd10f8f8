import Detab.World
import Mathlib.Tactic.Common

set_option relaxedAutoImplicit false
set_option autoImplicit false

/-!
# Runs that are disturbed or cut off

On a real machine any request to the file system may fail, whatever the tree looks like, and a
process may be gone after any request. A *fault* makes one request fail. A run under faults is a run
in which some of the requests are met by one, and it may be cut off after any number of requests.

## Main definitions

* `Detab.Fault`, `Detab.World.answerUnder` — what goes wrong with a request.
* `Detab.Moment` — what has been asked in a run, and the world as it is.
* `Detab.Script.runUnder`, `Detab.Script.cutOff` — runs under faults, and their beginnings.

## Main results

* `Detab.Script.run_eq_runUnder` — without faults these are the runs of the model.

## Design

A request that is met by a fault changes nothing, but a write to a file may have got through in part.
Making the file, setting its mode and giving it its name are single steps of the file system. Not
disturbed are the look at a target, the clock, the removal of a file, the output, which has a limit
of its own, and the log.
-/

namespace Detab

/-- **What goes wrong with a request:** the error that is answered, and how many of the bytes that
were to be written to a file have got through. -/
structure Fault where
  cause : IoError
  through : Nat
  deriving DecidableEq, Repr

/-- The faults of a run, by the numbers of the requests that they meet. -/
abbrev Faults := Nat → Option Fault

namespace World

/-- How a request is answered that is met by a fault. -/
def disturbed (world : World) (fault : Fault) : (request : Request) → request.Answer × World
  | .read _ => (.error fault.cause, world)
  | .isLink _ => (.error fault.cause, world)
  | .canonicalPath _ => (.error fault.cause, world)
  | .modeOf _ => (.error fault.cause, world)
  | .createNew _ => (.error fault.cause, world)
  | .append file bytes =>
    (.error fault.cause,
      { world with fs := world.fs.append file (bytes.extract 0 fault.through) })
  | .sync _ => (.error fault.cause, world)
  | .setMode .. => (.error fault.cause, world)
  | .rename .. => (.error fault.cause, world)
  | .survey path => world.answer (.survey path)
  | .stamp => world.answer .stamp
  | .remove path => world.answer (.remove path)
  | .print bytes => world.answer (.print bytes)
  | .log line => world.answer (.log line)

/-- How a request is answered that may be met by a fault. -/
def answerUnder (world : World) : Option Fault → (request : Request) → request.Answer × World
  | none, request => world.answer request
  | some fault, request => world.disturbed fault request

end World

/-- **A moment of a run:** what has been asked, and the world as it is. -/
structure Moment where
  asked : List Request
  world : World

namespace Moment

/-- The moment at which nothing has been asked. -/
def start (world : World) : Moment :=
  ⟨[], world⟩

/-- The answer to one more request, and the moment after it. -/
def after (moment : Moment) (fault : Option Fault) (request : Request) :
    request.Answer × Moment :=
  let (result, world) := moment.world.answerUnder fault request
  (result, ⟨moment.asked ++ [request], world⟩)

end Moment

namespace Script

variable {α : Type}

/-- **Runs a script to its end under faults:** its result, and the moment at which it ends. -/
def runUnder (faults : Faults) : Script α → Moment → α × Moment
  | done a, moment => (a, moment)
  | ask request next, moment =>
    let (result, moment') := moment.after (faults moment.asked.length) request
    (next result).runUnder faults moment'

/-- **The moment at which a script is cut off** after at most `n` requests. -/
def cutOff (faults : Faults) : (n : Nat) → Script α → Moment → Moment
  | 0, _, moment => moment
  | _ + 1, done _, moment => moment
  | n + 1, ask request next, moment =>
    let (result, moment') := moment.after (faults moment.asked.length) request
    cutOff faults n (next result) moment'

/-- Without faults a run is the run of the model. -/
lemma run_eq_runUnder (script : Script α) (moment : Moment) :
    script.run moment.world =
      ((script.runUnder (fun _ => none) moment).1,
        (script.runUnder (fun _ => none) moment).2.world) := by
  induction script generalizing moment with
  | done a => rfl
  | ask request next ih =>
    rw [run, runUnder]
    exact ih (moment.after none request).1 (moment.after none request).2

end Script

end Detab
