import Detab.Proofs.Conversion.Repeating
import Detab.Proofs.Replacement.Permissions

set_option relaxedAutoImplicit false
set_option autoImplicit false

/-!
# Conversions by different processes

What a conversion does is up to the tree. The number of the process and its clock only make the names
of the temporary files, which are gone in the end. So two processes that start from one tree, and that
nothing hinders in making their temporary files, do the same: the trees end up the same, the same is
announced, and either both succeed, with the same counts, or both fail with the same error, but for the
temporary path that it names.

## Main definitions

* `Detab.Replacement.Error.withoutTemporary`, `Detab.Conversion.Error.withoutTemporary` — an error
  without the temporary path that it names.

## Main results

* `Detab.Replacement.exists_outcome_replace`, `Detab.Conversion.exists_outcome_convertFile` — the outcome
  for one file.
* `Detab.Conversion.AtEachChoice.of_alike` — the log and the output have no part in the choice of a
  temporary path.
* `Detab.Conversion.convertAll_of_processes`, `Detab.Conversion.convert_of_processes` — **a conversion
  does the same for any two processes.**

## Design

The outcome for one file is found without saying for which process, by following the replacement up to
the choice of its temporary path. From then on only the permissions of the directory count. The files
of a target are then compared one after the other, each in the tree that both processes have come to.
-/

namespace Detab

namespace Replacement

open FileSystem

variable {fs : FileSystem} {path : Path} {contents : ByteArray}

/-- An error without the temporary path that it names. -/
def Error.withoutTemporary : Error → Error
  | .creating _ cause => .creating [] cause
  | e => e

/-- **The outcome of a replacement is up to the tree,** as long as nothing is in the way of the temporary
file.

**Proof sketch.** If no temporary path is chosen, the reason for that is in the tree. Otherwise it is
beside the file, whatever the process is, and the directory that both are in can be written or not. -/
lemma exists_outcome_replace (wf : fs.WellFormed) (hread : fs.read path = .ok contents)
    (chunks : List ByteArray) :
    ∃ outcome fs', ∀ session, Unhindered ⟨fs, session⟩ path → ∃ result session',
      (replace path chunks).run.run ⟨fs, session⟩ = (result, ⟨fs', session'⟩) ∧
        result.mapError Error.withoutTemporary = outcome := by
  obtain ⟨goal, id, old, hleads, -, -⟩ := read_eq_ok_iff.mp hread
  cases htemporary : temporary? fs ⟨0, 0⟩ path with
  | none =>
    obtain ⟨e, hfails⟩ := exists_run_replace_of_eq_none _ htemporary chunks
    refine ⟨.error e.withoutTemporary, fs, fun session _ => ?_⟩
    obtain ⟨session', hrun⟩ := hfails session
    exact ⟨.error e, session', hrun, rfl⟩
  | some temporary =>
    obtain ⟨destination, mode, hdestination, hmode, hchosen⟩ :=
      exists_destination_of_temporary? htemporary
    obtain ⟨⟨split, name⟩, hsplit, -⟩ := Option.map_eq_some_iff.mp hchosen
    obtain ⟨goal', hgoal⟩ := exists_resolve_of_modeOf hmode
    obtain rfl : goal' = goal :=
      Except.ok.inj ((resolve_of_destination? wf hdestination hgoal).symm.trans
        hleads.canonical.resolve)
    obtain ⟨parent, dirMode, entries, rfl, hlast⟩ := lastStep_of_resolve_file hsplit
      (settled_of_destination? wf hdestination) hgoal hleads.shape
    cases hwrite : dirMode.canWrite with
    | true =>
      refine ⟨.ok (), fs.overwrite parent name ⟨joined chunks, mode⟩, fun session hunhindered => ?_⟩
      obtain ⟨temporary, h⟩ :=
        exists_chosen_of_destination hdestination hmode hsplit hlast hunhindered.2
      exact ⟨.ok (), session.stamp.2,
        h.run_replace_of_canWrite wf hunhindered.1 hleads.node hwrite chunks, rfl⟩
    | false =>
      refine ⟨.error (.creating [] .permissionDenied), fs, fun session hunhindered => ?_⟩
      obtain ⟨temporary, h⟩ :=
        exists_chosen_of_destination hdestination hmode hsplit hlast hunhindered.2
      exact ⟨.error (.creating temporary .permissionDenied), session.stamp.2,
        h.run_replace_of_closed hunhindered.1 hwrite chunks, rfl⟩

end Replacement

namespace Conversion

open FileSystem Replacement Expansion

variable {platform : Platform} {width : Width} {path : Path} {paths : List Path} {fs : FileSystem}
  {w world first second : World}

/-- An error without the temporary path that it names. -/
def Error.withoutTemporary : Error → Error
  | .replacing path cause => .replacing path cause.withoutTemporary
  | e => e

/-- What cannot be read is not converted. -/
lemma run_convertFile_of_error {e : IoError} (hread : fs.read path = .error e) (platform : Platform)
    (width : Width) (session : Session) :
    (convertFile platform path width).run.run ⟨fs, session⟩ =
      (.error (.reading path e), ⟨fs, session⟩) := by
  have hfirst := Action.run_read (Error.reading path) path ⟨fs, session⟩
  rw [hread] at hfirst
  exact Action.run_bind_of_error hfirst

/-- **The outcome of a conversion of one file is up to the tree,** as long as nothing is in the way of
the temporary file, if there is to be one.

**Proof sketch.** By what is read and what its expansion gives, which is up to the tree. Only where
there is something to write is a temporary path chosen, and then `exists_outcome_replace` gives the
outcome. -/
lemma exists_outcome_convertFile (wf : fs.WellFormed) (platform : Platform) (width : Width)
    (path : Path) :
    ∃ outcome fs', ∀ session, (HasTab fs path → Unhindered ⟨fs, session⟩ path) → ∃ result session',
      (convertFile platform path width).run.run ⟨fs, session⟩ = (result, ⟨fs', session'⟩) ∧
        result.mapError Error.withoutTemporary = outcome := by
  cases hread : fs.read path with
  | error e =>
    exact ⟨.error (.reading path e), fs, fun session _ =>
      ⟨_, session, run_convertFile_of_error hread platform width session, rfl⟩⟩
  | ok contents =>
    have hrun := run_convertFile platform width hread
    rcases hexpand : expand platform.canReserve contents width with cause | _ | expanded
    · refine ⟨.error (.converting path cause), fs, fun session _ =>
        ⟨.error (.converting path cause), session, ?_, rfl⟩⟩
      rw [hrun, hexpand]
    · have htab : tab ∉ unpack contents := (expand_eq_none_iff _ _ _).mp hexpand
      refine ⟨.ok false, fs, fun session _ => ?_⟩
      obtain ⟨session', hkept⟩ :=
        exists_run_convertFile_of_notMem platform width hread htab session
      exact ⟨.ok false, session', hkept, rfl⟩
    · -- only here is a temporary path chosen
      obtain ⟨outcome, fs', hreplace⟩ := exists_outcome_replace wf hread (platform.chunks expanded)
      refine ⟨(outcome.mapError (.replacing path)).map fun _ => true, fs', fun session hfree => ?_⟩
      have htab : HasTab fs path := ⟨contents, hread, (expand_eq_some hexpand).1⟩
      obtain ⟨result, session', hended, rfl⟩ := hreplace session (hfree htab)
      refine ⟨(result.mapError (.replacing path)).map fun _ => true, session', ?_, ?_⟩
      · rw [hrun, hexpand]
        dsimp only
        rw [hended]
      · cases result <;> rfl

/-! ## Some files, one after the other -/

/-- A result and an error are changed independently. -/
lemma mapError_map {α β ε δ : Type} (f : α → β) (g : ε → δ) (result : Except ε α) :
    (result.map f).mapError g = (result.mapError g).map f := by
  cases result <;> rfl

/-- What is in the way of a temporary file is the same in alike worlds. -/
lemma unhindered_of_alike (halike : w.Alike world) (h : Unhindered w path) : Unhindered world path := by
  have hstamp : world.session.stamp.1 = w.session.stamp.1 := by
    simp only [Session.stamp, halike.process, halike.clock, halike.looks]
  unfold Unhindered Free at h ⊢
  rwa [hstamp, halike.fs]

/-- The log and the output have no part in the choice of a temporary path. -/
lemma AtEachChoice.of_alike (halike : w.Alike world)
    (h : AtEachChoice Unhindered platform width paths w) :
    AtEachChoice Unhindered platform width paths world := by
  induction paths generalizing w world with
  | nil => trivial
  | cons path rest ih =>
    refine ⟨fun htab => unhindered_of_alike halike (h.1 (halike.fs ▸ htab)),
      fun modified world' hrun => ?_⟩
    obtain ⟨hresult, hafter⟩ := halike.run (silent_convertFile platform path width)
    rw [hrun] at hresult hafter
    exact ih hafter (h.2 modified _ (Prod.ext hresult.symm rfl))

/-- **A conversion of some files does the same for any two processes,** if the output accepts everything.

**Proof sketch.** Induction on the files. The first one is announced, and its outcome is up to the tree.
If it is a failure, nothing else happens. Otherwise both processes go on from one tree. -/
lemma convertAll_of_processes (wf : fs.WellFormed) {session session' : Session}
    (hlimit : session.limit = none) (hlimit' : session'.limit = none)
    (h : AtEachChoice Unhindered platform width paths ⟨fs, session⟩)
    (h' : AtEachChoice Unhindered platform width paths ⟨fs, session'⟩) :
    let ended := (convertAll platform width paths).run.run ⟨fs, session⟩
    let ended' := (convertAll platform width paths).run.run ⟨fs, session'⟩
    ended'.2.fs = ended.2.fs ∧
      ended'.1.mapError Error.withoutTemporary = ended.1.mapError Error.withoutTemporary ∧
      ∃ sent, ended.2.session.written = session.written ++ sent ∧
        ended'.2.session.written = session'.written ++ sent := by
  intro ended ended'
  induction paths generalizing fs session session' with
  | nil => exact ⟨rfl, rfl, [], (List.append_nil _).symm, (List.append_nil _).symm⟩
  | cons path rest ih =>
    obtain ⟨outcome, fs', houtcome⟩ := exists_outcome_convertFile wf platform width path
    obtain ⟨result, session₁, hrun, hresult⟩ := houtcome session h.1
    obtain ⟨result', session₁', hrun', hresult'⟩ := houtcome session' h'.1
    obtain ⟨world, habreast, hcons⟩ := run_convertAll_cons platform width
      (⟨rfl, rfl, rfl, rfl⟩ : World.Alike ⟨fs, session⟩ ⟨fs, session⟩)
      (Session.accepts_of_limit_none hlimit (notice path))
    obtain ⟨world', habreast', hcons'⟩ := run_convertAll_cons platform width
      (⟨rfl, rfl, rfl, rfl⟩ : World.Alike ⟨fs, session'⟩ ⟨fs, session'⟩)
      (Session.accepts_of_limit_none hlimit' (notice path))
    rw [hrun] at habreast hcons
    rw [hrun'] at habreast' hcons'
    have hended : ended = _ := hcons rest
    have hended' : ended' = _ := hcons' rest
    have hsame : world'.fs = world.fs := habreast'.alike.fs.trans habreast.alike.fs.symm
    rw [← hresult] at hresult'
    cases result with
    | error e =>
      cases result' with
      | error e' =>
        have hcause : e'.withoutTemporary = e.withoutTemporary := Except.error.inj hresult'
        rw [hended, hended']
        exact ⟨hsame, congrArg Except.error hcause, _, habreast.written, habreast'.written⟩
      | ok _ => simp [Except.mapError] at hresult'
    | ok modified =>
      cases result' with
      | error e' => simp [Except.mapError] at hresult'
      | ok modified' =>
        obtain rfl : modified' = modified := Except.ok.inj hresult'
        obtain ⟨fs₁, session₂⟩ := world
        obtain ⟨fs₁', session₂'⟩ := world'
        obtain rfl : fs₁ = fs₁' := hsame.symm
        have wf' : FileSystem.WellFormed fs' := ((converted_of_run wf hrun).expands wf).wellFormed
        obtain rfl : fs₁ = fs' := habreast.alike.fs
        obtain ⟨hfs, hothers, sent, hsent, hsent'⟩ := ih wf' (habreast.limit.trans hlimit)
          (habreast'.limit.trans hlimit') ((h.2 _ _ hrun).of_alike habreast.alike)
          ((h'.2 _ _ hrun').of_alike habreast'.alike)
        rw [hended, hended']
        refine ⟨hfs, ?_, notice path ++ sent, ?_, ?_⟩
        · exact (mapError_map _ _ _).trans
            ((congrArg (Except.map _) hothers).trans (mapError_map _ _ _).symm)
        · exact hsent.trans (by rw [habreast.written, List.append_assoc])
        · exact hsent'.trans (by rw [habreast'.written, List.append_assoc])

/-- **A conversion of a target does the same for any two processes,** if their outputs accept everything
and nothing is in the way of their temporary files.

**Proof sketch.** The match set and the warnings are those of the tree, so both calls run the same
loop; `convertAll_of_processes` compares the two loops. -/
lemma convert_of_processes (wf : fs.WellFormed) (platform : Platform) (config : Config) (target : Path)
    {session session' : Session} (hlimit : session.limit = none) (hlimit' : session'.limit = none)
    (h : AtEachChoice Unhindered platform config.width (matched fs config.pattern target)
      ⟨fs, session⟩)
    (h' : AtEachChoice Unhindered platform config.width (matched fs config.pattern target)
      ⟨fs, session'⟩) :
    let ended := (convert platform config target).run.run ⟨fs, session⟩
    let ended' := (convert platform config target).run.run ⟨fs, session'⟩
    ended'.2.fs = ended.2.fs ∧
      ended'.1.mapError Error.withoutTemporary = ended.1.mapError Error.withoutTemporary ∧
      ∃ sent, ended.2.session.written = session.written ++ sent ∧
        ended'.2.session.written = session'.written ++ sent := by
  intro ended ended'
  obtain ⟨log, hconvert⟩ := exists_run_convert platform config target ⟨fs, session⟩
  obtain ⟨log', hconvert'⟩ := exists_run_convert platform config target ⟨fs, session'⟩
  obtain ⟨log₁, hrun⟩ := hconvert _ _ rfl
  obtain ⟨log₁', hrun'⟩ := hconvert' _ _ rfl
  have hended : ended = _ := hrun
  have hended' : ended' = _ := hrun'
  have halike : World.Alike ⟨fs, session⟩ ⟨fs, { session with log := log }⟩ := ⟨rfl, rfl, rfl, rfl⟩
  have halike' : World.Alike ⟨fs, session'⟩ ⟨fs, { session' with log := log' }⟩ :=
    ⟨rfl, rfl, rfl, rfl⟩
  have hopen : Session.limit { session with log := log } = none := hlimit
  have hopen' : Session.limit { session' with log := log' } = none := hlimit'
  obtain ⟨hfs, hresult, sent, hsent, hsent'⟩ :=
    convertAll_of_processes wf hopen hopen' (h.of_alike halike) (h'.of_alike halike')
  rw [hended, hended']
  exact ⟨hfs, (mapError_map _ _ _).trans
    ((congrArg (Except.map _) hresult).trans (mapError_map _ _ _).symm), sent, hsent, hsent'⟩

end Conversion

end Detab
