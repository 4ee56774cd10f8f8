import Detab.Proofs.Conversion.AllFiles
import Detab.Proofs.Replacement.Requests

set_option relaxedAutoImplicit false
set_option autoImplicit false

/-!
# Conversions that announce their files

Each file is announced before it is converted. As long as the output has room, announcing makes no
difference to converting, and neither does adding to the log: a process that announces its files goes
through the same trees as one that only converts them, it ends where that one ends, and it has
announced the files up to there.

## Main definitions

* `Detab.Session.Accepts` — the output has room for so much.
* `Detab.Conversion.convertEach` — the conversion of some files without announcing them.
* `Detab.Conversion.FirstFailure` — the first of some files that cannot be converted.
* `Detab.Conversion.Abreast` — a world that has come as far as another one, and what was written on
  the way.
* `Detab.Conversion.Follows` — how conversions that announce files follow conversions that do not.

## Main results

* `Detab.Conversion.silent_convertFile` — converting a file prints nothing, so it does the same
  whatever was announced.
* `Detab.Conversion.run_convertAll_append`, `Detab.Conversion.run_convertAll_of_firstFailure` — **what
  is announced and converted** before some others, and up to the first failure.
* `Detab.Conversion.Follows.append` — following some conversions and then others is following all of
  them.
* `Detab.Conversion.follows_convert` — **the conversion of a target follows** the conversion of the
  files that it stands for, if the output has no limit.
-/

namespace Detab

/-! ## The output -/

/-- The output has room for some more bytes. -/
def Session.Accepts (session : Session) (bytes : Bytes) : Prop :=
  ∀ limit, session.limit = some limit → (session.written ++ bytes).length ≤ limit

/-- An output without a limit has room for everything. -/
lemma Session.accepts_of_limit_none {session : Session} (h : session.limit = none) (bytes : Bytes) :
    session.Accepts bytes := by
  intro limit hlimit
  simp [h] at hlimit

/-- What the output has room for is written behind what was written before, and nothing fails. -/
lemma Session.print_of_accepts {session : Session} {bytes : Bytes} (h : session.Accepts bytes) :
    session.print bytes = (.ok (), { session with written := session.written ++ bytes }) := by
  unfold Session.print
  split
  · rfl
  · rename_i limit hlimit
    have hroom := h limit hlimit
    rw [List.length_append] at hroom
    have hfits : bytes.length ≤ limit - session.written.length := by omega
    simp only [hfits, if_true, List.take_of_length_le hfits]

/-- An output that has room for two texts together has room for the first one. -/
lemma Session.Accepts.left {session : Session} {bytes bytes' : Bytes}
    (h : session.Accepts (bytes ++ bytes')) : session.Accepts bytes := by
  intro limit hlimit
  have hroom := h limit hlimit
  simp only [List.length_append] at hroom ⊢
  omega

namespace Conversion

open FileSystem Replacement

variable {platform : Platform} {width : Width} {path : Path} {first before paths : List Path}
  {w w₁ w' world world₁ world' : World} {sent sent' : Bytes} {e : Error}

/-! ## Silence -/

/-- A replacement prints nothing, whatever it is answered. -/
lemma silent_replace (path : Path) (chunks : List ByteArray) :
    (replace path chunks).Asks Request.Silent :=
  Script.Asks.mono (quiet_replace path chunks) fun _ hquiet => hquiet.silent

/-- **Converting a file prints nothing.** -/
lemma silent_convertFile (platform : Platform) (path : Path) (width : Width) :
    (convertFile platform path width).Asks Request.Silent := by
  refine Action.asks_bind (Action.asks_ofScript (Script.asks_request trivial)) fun contents => ?_
  rcases Expansion.expand platform.canReserve contents width with cause | _ | expanded
  · exact Action.asks_throw _
  · exact Action.asks_bind (Action.asks_lift (Script.asks_request trivial)) fun _ =>
      Action.asks_pure false
  · exact Action.asks_bind (Action.asks_ofScript (silent_replace path _)) fun _ =>
      Action.asks_pure true

/-- Converting a file leaves the output alone. -/
lemma written_of_run {result : Except Error Bool}
    (h : (convertFile platform path width).run.run world = (result, world')) :
    world'.session.written = world.session.written ∧
      world'.session.limit = world.session.limit := by
  have hsilent : (convertFile platform path width).run.Asks Request.Silent :=
    silent_convertFile platform path width
  have hsame := hsilent.written_run world
  rwa [h] at hsame

/-! ## Without announcements -/

/-- The conversion of some files, one after the other, without announcing them. -/
def convertEach (platform : Platform) (width : Width) : List Path → Action Error Unit
  | [] => pure ()
  | path :: rest => do
    let _ ← convertFile platform path width
    convertEach platform width rest

/-- Converting two lists of files one after the other is converting them as one list. -/
lemma convertEach_append (platform : Platform) (width : Width) (first paths : List Path) :
    convertEach platform width (first ++ paths) =
      (convertEach platform width first >>= fun _ => convertEach platform width paths) := by
  induction first with
  | nil => simp [convertEach]
  | cons path first ih => simp [convertEach, ih]

/-- **The first of some files that cannot be converted:** those before it lead to a world in which
its conversion fails. -/
structure FirstFailure (platform : Platform) (width : Width) (start : World) (paths before : List Path)
    (path : Path) (world : World) (e : Error) : Prop where
  place : ∃ after, paths = before ++ path :: after
  before_ok : (convertEach platform width before).run.run start = (.ok (), world)
  fails : ((convertFile platform path width).run.run world).1 = .error e

/-- All files can be converted, or there is a first one that cannot.

**Proof sketch.** Induction on the paths. Either the first one fails, or what is so of the rest is
so of all. -/
lemma ok_or_exists_firstFailure (platform : Platform) (width : Width) (paths : List Path)
    (start : World) :
    (∃ world, (convertEach platform width paths).run.run start = (.ok (), world)) ∨
      ∃ before path world e, FirstFailure platform width start paths before path world e := by
  induction paths generalizing start with
  | nil => exact .inl ⟨start, rfl⟩
  | cons path rest ih =>
    rcases hfile : (convertFile platform path width).run.run start with ⟨e | modified, world⟩
    · exact .inr ⟨[], path, start, e, ⟨rest, rfl⟩, rfl, by rw [hfile]⟩
    · have hgo : ∀ paths, (convertEach platform width (path :: paths)).run.run start =
          (convertEach platform width paths).run.run world :=
        fun paths => Action.run_bind_of_ok hfile
      rcases ih world with ⟨world', hrest⟩ | ⟨before, path', world', e, ⟨after, hafter⟩, hok, hfails⟩
      · exact .inl ⟨world', by rw [hgo, hrest]⟩
      · exact .inr ⟨path :: before, path', world', e, ⟨after, by rw [hafter]; rfl⟩,
          by rw [hgo, hok], hfails⟩

/-- The files before the first failure are converted one behind the other, too. -/
lemma FirstFailure.append {before : List Path} {w' : World}
    (hfirst : (convertEach platform width first).run.run w = (.ok (), w₁))
    (h : FirstFailure platform width w₁ paths before path w' e) :
    FirstFailure platform width w (first ++ paths) (first ++ before) path w' e := by
  obtain ⟨⟨after, rfl⟩, hbefore, hfails⟩ := h
  refine ⟨⟨after, by simp⟩, ?_, hfails⟩
  rw [convertEach_append, Action.run_bind_of_ok hfirst, hbefore]

/-- There is one first failure at most.

**Proof sketch.** Induction on the files before it. If one list of such files ended where the other
goes on, the next file could be converted and could not. -/
lemma FirstFailure.unique {before before' : List Path} {path' : Path} {w' w'' : World} {e' : Error}
    (h : FirstFailure platform width w paths before path w' e)
    (h' : FirstFailure platform width w paths before' path' w'' e') :
    before = before' ∧ path = path' ∧ w' = w'' ∧ e = e' := by
  obtain ⟨⟨after, rfl⟩, hbefore, hfails⟩ := h
  obtain ⟨⟨after', hcut⟩, hbefore', hfails'⟩ := h'
  induction before generalizing w before' with
  | nil =>
    obtain ⟨-, rfl⟩ := Prod.mk.inj hbefore
    cases before' with
    | nil =>
      obtain ⟨-, rfl⟩ := Prod.mk.inj hbefore'
      obtain ⟨rfl, -⟩ := List.cons.inj hcut
      exact ⟨rfl, rfl, rfl, Except.error.inj (hfails.symm.trans hfails')⟩
    | cons first before' =>
      obtain ⟨rfl, -⟩ := List.cons.inj hcut
      obtain ⟨modified, w₁, hfile, -⟩ := Action.run_bind_eq_ok hbefore'
      simp [hfile] at hfails
  | cons first before ih =>
    obtain ⟨modified, w₁, hfile, hbefore⟩ := Action.run_bind_eq_ok hbefore
    cases before' with
    | nil =>
      obtain ⟨-, rfl⟩ := Prod.mk.inj hbefore'
      obtain ⟨rfl, -⟩ := List.cons.inj hcut
      simp [hfile] at hfails'
    | cons first' before' =>
      obtain ⟨rfl, htail⟩ := List.cons.inj hcut
      have hrest := (Action.run_bind_of_ok hfile).symm.trans hbefore'
      obtain ⟨rfl, hsame⟩ := ih hbefore hrest htail
      exact ⟨rfl, hsame⟩

/-- Conversions that succeed leave a tree that can exist. -/
lemma wellFormed_of_convertEach {paths : List Path} (wf : world.fs.WellFormed)
    (h : (convertEach platform width paths).run.run world = (.ok (), world')) :
    world'.fs.WellFormed := by
  induction paths generalizing world with
  | nil =>
    obtain ⟨-, rfl⟩ := Prod.mk.inj h
    exact wf
  | cons path rest ih =>
    obtain ⟨modified, world₁, hfile, h⟩ := Action.run_bind_eq_ok h
    exact ih ((converted_of_run wf hfile).expands wf).wellFormed h

/-! ## With announcements -/

/-- The same with another count of files that had tabs. -/
def addCount (count : Nat) (ended : Except Error Nat × World) : Except Error Nat × World :=
  (ended.1.map (· + count), ended.2)

/-- Counts that are added one after the other are added together. -/
lemma addCount_addCount (a b : Nat) (ended : Except Error Nat × World) :
    addCount a (addCount b ended) = addCount (b + a) ended := by
  obtain ⟨result, world⟩ := ended
  cases result with
  | error e => rfl
  | ok count => simp [addCount, Except.map, Nat.add_assoc]

/-- **A world that has come as far as another one:** it is alike, and `sent` is what it has written
since it was `world`. -/
structure Abreast (sent : Bytes) (world w' world' : World) : Prop where
  alike : w'.Alike world'
  written : world'.session.written = world.session.written ++ sent
  limit : world'.session.limit = world.session.limit

namespace Abreast

/-- What was sent on two stretches of a run, one after the other, is sent on both together. -/
lemma trans (h : Abreast sent world w₁ world₁) (h' : Abreast sent' world₁ w' world') :
    Abreast (sent ++ sent') world w' world' :=
  ⟨h'.alike, by rw [h'.written, h.written, List.append_assoc], h'.limit.trans h.limit⟩

/-- The output has room for what is left. -/
lemma accepts (h : Abreast sent world w₁ world₁) (haccepts : world.session.Accepts (sent ++ sent')) :
    world₁.session.Accepts sent' := by
  intro limit hlimit
  rw [h.written, List.append_assoc]
  exact haccepts limit (h.limit.symm.trans hlimit)

/-- What is in the log makes no difference. -/
lemma withLog {log log' : List LogLine}
    (h : Abreast sent ⟨world.fs, { world.session with log := log }⟩ w' world') :
    Abreast sent world w' ⟨world'.fs, { world'.session with log := log' }⟩ :=
  ⟨⟨h.alike.fs, h.alike.process, h.alike.clock, h.alike.looks⟩, h.written, h.limit⟩

end Abreast

/-- A file that is announced and converted.

**Proof sketch.** The output has room for the announcement, so it is written and nothing else
changes. The conversion of the file prints nothing, so it runs as it does without the announcement;
then the rest is converted, or the error ends the loop. -/
lemma run_convertAll_cons (platform : Platform) (width : Width) (halike : w.Alike world)
    (haccepts : world.session.Accepts (notice path)) :
    ∃ world', Abreast (notice path) world ((convertFile platform path width).run.run w).2 world' ∧
      ∀ rest, (convertAll platform width (path :: rest)).run.run world =
        match ((convertFile platform path width).run.run w).1 with
        | .ok modified => addCount modified.toNat ((convertAll platform width rest).run.run world')
        | .error e => (.error e, world') := by
  have hprint := run_print path world
  rw [Session.print_of_accepts haccepts] at hprint
  have halike' : w.Alike (announced world path) :=
    ⟨halike.fs, halike.process, halike.clock, halike.looks⟩
  obtain ⟨hresult, hafter⟩ := halike'.run (silent_convertFile platform path width)
  rcases hended : (convertFile platform path width).run.run (announced world path) with
    ⟨result, world'⟩
  rw [hended] at hresult hafter
  obtain ⟨hwritten, hlimit⟩ := written_of_run hended
  refine ⟨world', ⟨hafter, hwritten, hlimit⟩, fun rest => ?_⟩
  rw [convertAll, Action.run_bind_of_ok hprint, ← hresult]
  cases result with
  | error e => exact Action.run_bind_of_error hended
  | ok modified =>
    refine (Action.run_bind_of_ok hended).trans ?_
    rw [Action.run_bind]
    rcases (convertAll platform width rest).run.run world' with ⟨e | others, world''⟩ <;> rfl

/-- **What is announced and converted before some others.**

**Proof sketch.** Induction on the files that come first: the first of them is announced and
converted, and then the others are. -/
lemma run_convertAll_append (halike : w.Alike world)
    (haccepts : world.session.Accepts (before.flatMap notice))
    (hbefore : (convertEach platform width before).run.run w = (.ok (), w')) :
    ∃ count world', Abreast (before.flatMap notice) world w' world' ∧ ∀ rest,
      (convertAll platform width (before ++ rest)).run.run world =
        addCount count ((convertAll platform width rest).run.run world') := by
  induction before generalizing w world with
  | nil =>
    obtain ⟨-, rfl⟩ := Prod.mk.inj hbefore
    refine ⟨0, world, ⟨halike, (List.append_nil _).symm, rfl⟩, fun rest => ?_⟩
    rw [List.nil_append]
    rcases (convertAll platform width rest).run.run world with ⟨e | count, world'⟩ <;> rfl
  | cons path before ih =>
    obtain ⟨modified, w₁, hfile, hbefore⟩ := Action.run_bind_eq_ok hbefore
    rw [List.flatMap_cons] at haccepts
    obtain ⟨world₁, hfirst, hcons⟩ := run_convertAll_cons platform width halike haccepts.left
    rw [hfile] at hfirst hcons
    obtain ⟨count, world', hrest, happend⟩ := ih hfirst.alike (hfirst.accepts haccepts) hbefore
    refine ⟨count + modified.toNat, world', hfirst.trans hrest, fun rest => ?_⟩
    rw [List.cons_append, hcons, happend]
    exact addCount_addCount _ _ _

/-- **What is announced and converted up to the first failure.**

**Proof sketch.** The files before are announced and converted by `run_convertAll_append`. There is
room for one announcement more, and then the conversion fails as it does without it. -/
lemma run_convertAll_of_firstFailure (halike : w.Alike world)
    (haccepts : world.session.Accepts ((before ++ [path]).flatMap notice))
    (hfirst : FirstFailure platform width w paths before path w' e) :
    ∃ failed world', (convertFile platform path width).run.run w' = (.error e, failed) ∧
      (convertAll platform width paths).run.run world = (.error e, world') ∧
      Abreast ((before ++ [path]).flatMap notice) world failed world' := by
  obtain ⟨⟨after, rfl⟩, hbefore, hfails⟩ := hfirst
  rw [List.flatMap_append] at haccepts ⊢
  obtain ⟨count, world₁, habreast, happend⟩ := run_convertAll_append halike haccepts.left hbefore
  have hroom : world₁.session.Accepts (notice path) := by
    simpa using habreast.accepts haccepts
  obtain ⟨world', hlast, hcons⟩ := run_convertAll_cons platform width habreast.alike hroom
  rcases hfile : (convertFile platform path width).run.run w' with ⟨result, failed⟩
  obtain rfl : result = .error e := by rw [hfile] at hfails; exact hfails
  rw [hfile] at hlast hcons
  refine ⟨failed, world', rfl, ?_, habreast.trans (by simpa using hlast)⟩
  rw [happend, hcons]
  rfl

/-! ## Following conversions -/

/-- **How conversions that announce their files follow conversions that do not:** they end alike, and
have announced the files up to the first one that cannot be converted. -/
inductive Follows (platform : Platform) (width : Width) (paths : List Path) (w world : World) :
    Except Error Unit → World → Prop
  | done {w' world' : World} : (convertEach platform width paths).run.run w = (.ok (), w') →
      Abreast (paths.flatMap notice) world w' world' →
        Follows platform width paths w world (.ok ()) world'
  | failed {before : List Path} {path : Path} {w' failed world' : World} {e : Error} :
      FirstFailure platform width w paths before path w' e →
        (convertFile platform path width).run.run w' = (.error e, failed) →
          Abreast ((before ++ [path]).flatMap notice) world failed world' →
            Follows platform width paths w world (.error e) world'

namespace Follows

variable {result : Except Error Unit}

/-- **Following some conversions and then others** is following all of them. -/
lemma append (hfirst : (convertEach platform width first).run.run w = (.ok (), w₁))
    (habreast : Abreast (first.flatMap notice) world w₁ world₁)
    (h : Follows platform width paths w₁ world₁ result world') :
    Follows platform width (first ++ paths) w world result world' := by
  cases h with
  | @done w' _ hrest hafter =>
    have hall : (convertEach platform width (first ++ paths)).run.run w = (.ok (), w') := by
      rw [convertEach_append, Action.run_bind_of_ok hfirst, hrest]
    refine .done hall ?_
    rw [List.flatMap_append]
    exact habreast.trans hafter
  | failed hfailure hfile hafter =>
    refine .failed (hfailure.append hfirst) hfile ?_
    rw [List.append_assoc, List.flatMap_append]
    exact habreast.trans hafter

/-- After a failure no other file has any effect. -/
lemma append_of_error (h : Follows platform width first w world (.error e) world')
    (paths : List Path) : Follows platform width (first ++ paths) w world (.error e) world' := by
  cases h with
  | failed hfailure hfile hafter =>
    obtain ⟨⟨after, rfl⟩, hbefore, hfails⟩ := hfailure
    exact .failed ⟨⟨after ++ paths, by simp⟩, hbefore, hfails⟩ hfile hafter

/-- What is logged does not count for how one run follows another: with another log it follows just
as well. -/
lemma withLog {log log' : List LogLine}
    (h : Follows platform width paths w ⟨world.fs, { world.session with log := log }⟩ result
      world') :
    Follows platform width paths w world result
      ⟨world'.fs, { world'.session with log := log' }⟩ := by
  cases h with
  | done hrun hafter => exact .done hrun hafter.withLog
  | failed hfailure hfile hafter => exact .failed hfailure hfile hafter.withLog

end Follows

/-- The conversion of some files follows, if the output has no limit. -/
lemma follows_convertAll (platform : Platform) (width : Width) (paths : List Path)
    (halike : w.Alike world) (hlimit : world.session.limit = none) :
    ∃ result world', (convertAll platform width paths).run.run world = (result, world') ∧
      Follows platform width paths w world (result.map fun _ => ()) world' := by
  have haccepts := Session.accepts_of_limit_none hlimit
  rcases ok_or_exists_firstFailure platform width paths w with
    ⟨w', hall⟩ | ⟨before, path, w', e, hfirst⟩
  · obtain ⟨count, world', hafter, happend⟩ := run_convertAll_append halike (haccepts _) hall
    have hrun := happend []
    rw [List.append_nil] at hrun
    exact ⟨_, _, hrun, .done hall hafter⟩
  · obtain ⟨failed, world', hfile, hrun, hafter⟩ :=
      run_convertAll_of_firstFailure halike (haccepts _) hfirst
    exact ⟨_, _, hrun, .failed hfirst hfile hafter⟩

/-- **The conversion of a target follows** the conversion of the files that it stands for, if the output
has no limit. -/
lemma follows_convert (platform : Platform) (config : Config) (target : Path)
    (halike : w.Alike world) (hlimit : world.session.limit = none) :
    ∃ result world', (convert platform config target).run.run world = (result, world') ∧
      Follows platform config.width (matched world.fs config.pattern target) w world
        (result.map fun _ => ()) world' := by
  obtain ⟨log, hconvert⟩ := exists_run_convert platform config target world
  have halike' : w.Alike ⟨world.fs, { world.session with log := log }⟩ :=
    ⟨halike.fs, halike.process, halike.clock, halike.looks⟩
  obtain ⟨result, world₁, hall, hfollows⟩ := follows_convertAll platform config.width
    (matched world.fs config.pattern target) halike' hlimit
  obtain ⟨log', hrun⟩ := hconvert _ _ hall
  refine ⟨_, _, hrun, ?_⟩
  cases result <;> exact hfollows.withLog

end Conversion

end Detab
