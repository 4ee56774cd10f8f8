import Detab.FileSystem.Survey
import Detab.Script

set_option relaxedAutoImplicit false
set_option autoImplicit false

/-!
# A world to run scripts in

A model of the machine: a file system that processes share, and for each process a *session* with
its output, its log and its clock. Scripts are run in it as a whole, or request by request, when two of
them take turns.

## Main definitions

* `Detab.Session` — what belongs to one process.
* `Detab.answer` — how the model answers a request.
* `Detab.World`, `Detab.Script.run` — running a script to its end.
* `Detab.Script.step` — running one request of a script.
* `Detab.Race` — two scripts that take turns on one file system.

## Main results

* `Detab.Script.run_pure`, `Detab.Script.run_request`, `Detab.Script.run_bind`,
  `Detab.Script.run_map` — running the parts of a script.
-/

namespace Detab

/-- **What belongs to one process.** -/
structure Session where
  /-- The number of the process. -/
  process : Nat
  /-- What the clock shows when it is looked at for the n-th time. -/
  clock : Nat → Nat
  /-- How often the clock was looked at. -/
  looks : Nat
  /-- What was written to the standard output. -/
  written : Bytes
  /-- How many bytes the standard output accepts, if there is a limit. -/
  limit : Option Nat
  /-- The lines of the log. -/
  log : List LogLine

namespace Session

/-- A process that has done nothing yet. -/
def start (process : Nat) (clock : Nat → Nat) (limit : Option Nat) : Session :=
  ⟨process, clock, 0, [], limit, []⟩

/-- Looks at the clock. -/
def stamp (session : Session) : Stamp × Session :=
  (⟨session.process, session.clock session.looks⟩, { session with looks := session.looks + 1 })

/-- **Writes to the standard output.** What does not fit under the limit is cut off, and then the
request fails. -/
def print (session : Session) (bytes : Bytes) : Except IoError Unit × Session :=
  match session.limit with
  | none => (.ok (), { session with written := session.written ++ bytes })
  | some limit =>
    let room := limit - session.written.length
    let session := { session with written := session.written ++ bytes.take room }
    (if bytes.length ≤ room then .ok () else .error .outputFull, session)

/-- Adds a line to the log. -/
def addLine (session : Session) (line : LogLine) : Session :=
  { session with log := session.log ++ [line] }

end Session

/-- A change of the file system that may fail, as an answer and what it leaves behind. -/
def answerChange (fs : FileSystem) (change : Except IoError FileSystem) :
    Except IoError Unit × FileSystem :=
  match change with
  | .ok fs => (.ok (), fs)
  | .error e => (.error e, fs)

/-- **How the model answers a request,** and what it leaves behind. -/
def answer (fs : FileSystem) (session : Session) :
    (request : Request) → request.Answer × FileSystem × Session
  | .survey path => (fs.survey path, fs, session)
  | .read path => (fs.read path, fs, session)
  | .isLink path => (fs.isLink path, fs, session)
  | .canonicalPath path => (fs.canonicalPath path, fs, session)
  | .modeOf path => (fs.modeOf path, fs, session)
  | .stamp =>
    let (stamp, session) := session.stamp
    (stamp, fs, session)
  | .createNew path =>
    match fs.createNew path with
    | .ok (id, fs) => (.ok id, fs, session)
    | .error e => (.error e, fs, session)
  | .append id bytes => (.ok (), fs.append id bytes, session)
  | .sync _ => (.ok (), fs, session)
  | .setMode path mode =>
    let (result, fs) := answerChange fs (fs.setMode path mode)
    (result, fs, session)
  | .rename source target =>
    let (result, fs) := answerChange fs (fs.rename source target)
    (result, fs, session)
  | .remove path =>
    let (result, fs) := answerChange fs (fs.remove path)
    (result, fs, session)
  | .print bytes =>
    let (result, session) := session.print bytes
    (result, fs, session)
  | .log line => ((), fs, session.addLine line)

/-- A file system and one process. -/
structure World where
  fs : FileSystem
  session : Session

namespace World

/-- How the model answers a request of its process. -/
def answer (world : World) (request : Request) : request.Answer × World :=
  let (result, fs, session) := Detab.answer world.fs world.session request
  (result, ⟨fs, session⟩)

end World

namespace Script

variable {α : Type}

/-- **Runs a script to its end:** its result, and the world that it leaves. -/
def run : Script α → World → α × World
  | done a, world => (a, world)
  | ask request next, world =>
    let (result, world) := world.answer request
    (next result).run world

/-- A result needs nothing of the world. -/
@[simp]
theorem run_pure (a : α) (world : World) : (pure a : Script α).run world = (a, world) := rfl

/-- A single request is answered by the world. -/
@[simp]
theorem run_request (r : Request) (world : World) : (request r).run world = world.answer r := rfl

/-- One script after another runs in the world that the first one leaves. -/
@[simp]
theorem run_bind {β : Type} (script : Script α) (f : α → Script β) (world : World) :
    (script >>= f).run world = (f (script.run world).1).run (script.run world).2 := by
  induction script generalizing world with
  | done a => rfl
  | ask request next ih => exact ih _ _

/-- A function of a script's result leaves the world alone. -/
@[simp]
theorem run_map {β : Type} (f : α → β) (script : Script α) (world : World) :
    (f <$> script).run world = (f (script.run world).1, (script.run world).2) :=
  run_bind script (fun a => pure (f a)) world

/-- Runs one request of a script: what is left of it, and the world. -/
def step : Script α → World → Script α × World
  | done a, world => (done a, world)
  | ask request next, world =>
    let (result, world) := world.answer request
    (next result, world)

end Script

/-- **Two scripts on one file system,** each with a session of its own. -/
structure Race (α β : Type) where
  fs : FileSystem
  left : Script α
  leftSession : Session
  right : Script β
  rightSession : Session

namespace Race

variable {α β : Type}

/-- Runs one request of one side. -/
def step (race : Race α β) (leftSide : Bool) : Race α β :=
  if leftSide then
    let (script, world) := race.left.step ⟨race.fs, race.leftSession⟩
    { race with fs := world.fs, left := script, leftSession := world.session }
  else
    let (script, world) := race.right.step ⟨race.fs, race.rightSession⟩
    { race with fs := world.fs, right := script, rightSession := world.session }

/-- Runs one request for each turn, of the side whose turn it is. -/
def run (race : Race α β) : (turns : List Bool) → Race α β
  | [] => race
  | leftSide :: rest => (race.step leftSide).run rest

end Race

end Detab
