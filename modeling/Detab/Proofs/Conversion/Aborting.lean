import Detab.Proofs.Conversion.Announcing

set_option relaxedAutoImplicit false
set_option autoImplicit false

/-!
# Conversions that are aborted

A conversion of a target announces each file before it converts it. It ends early when a file cannot
be converted, or when the output does not accept an announcement. In both cases the error, the output
and the tree are those of one cut through the list of paths.

## Main definitions

* `Detab.Conversion.fitting` — how many announcements fit into the output.
* `Detab.Conversion.Mirrors` — a world that differs from another one in the output only.

## Main results

* `Detab.Conversion.Mirrors.convertAll_of_firstFailure`, `Detab.Conversion.Mirrors.convertAll_of_ok` —
  the two ends that there are under a limit.
* `Detab.Conversion.convert_of_limit` — **how a conversion ends** under a limit of the output.
-/

namespace Detab.Conversion

open FileSystem Replacement

variable {platform : Platform} {width : Width} {path : Path} {world world' w w' : World}
  {limit : Nat} {sent : Bytes}

/-! ## Announcements -/

/-- How many of the first announcements fit into an output that accepts `limit` bytes. -/
def fitting (limit : Nat) : List Path → Nat
  | [] => 0
  | path :: rest =>
    if (notice path).length ≤ limit then fitting (limit - (notice path).length) rest + 1 else 0

/-- No more files are announced within a limit than there are. -/
lemma fitting_le_length (limit : Nat) (paths : List Path) : fitting limit paths ≤ paths.length := by
  induction paths generalizing limit with
  | nil => exact Nat.le_refl 0
  | cons path rest ih =>
    have hrest := ih (limit - (notice path).length)
    unfold fitting
    split
    · simp only [List.length_cons]
      omega
    · exact Nat.zero_le _

/-- The announcements up to a path fit exactly when that path is counted.

**Proof sketch.** Induction on the paths before, with the room that the first announcement leaves.
-/
lemma lt_fitting_iff (limit : Nat) (before after : List Path) (path : Path) :
    before.length < fitting limit (before ++ path :: after) ↔
      ((before ++ [path]).flatMap notice).length ≤ limit := by
  induction before generalizing limit with
  | nil =>
    simp only [List.nil_append, fitting, List.length_nil, List.flatMap_cons, List.flatMap_nil,
      List.append_nil]
    split <;> simp [*]
  | cons first before ih =>
    have hrest := ih (limit - (notice first).length)
    simp only [List.cons_append, fitting, List.length_cons, List.flatMap_cons,
      List.length_append]
    split
    · rw [Nat.add_lt_add_iff_right, hrest]
      omega
    · omega

/-- What is counted fits. -/
lemma length_take_fitting (limit : Nat) (paths : List Path) :
    ((paths.take (fitting limit paths)).flatMap notice).length ≤ limit := by
  induction paths generalizing limit with
  | nil => exact Nat.zero_le _
  | cons path rest ih =>
    have hrest := ih (limit - (notice path).length)
    unfold fitting
    split
    · simp only [List.take_succ_cons, List.flatMap_cons, List.length_append]
      omega
    · exact Nat.zero_le _

/-- Behind what is counted there is nothing, or a path whose announcement does not fit.

**Proof sketch.** The paths are cut behind those that are counted; the next one would be counted too
if its announcement fitted. -/
lemma fitting_eq_length_or_exists (limit : Nat) (paths : List Path) :
    fitting limit paths = paths.length ∨
      (fitting limit paths < paths.length ∧
        ∃ path after, paths = paths.take (fitting limit paths) ++ path :: after ∧
          limit < ((paths.take (fitting limit paths) ++ [path]).flatMap notice).length) := by
  rcases Nat.eq_or_lt_of_le (fitting_le_length limit paths) with hall | hmore
  · exact .inl hall
  · obtain ⟨path, after, hdrop⟩ : ∃ path after, paths.drop (fitting limit paths) = path :: after :=
      List.exists_cons_of_ne_nil (by simpa using hmore)
    have hcut : paths.take (fitting limit paths) ++ path :: after = paths := by
      rw [← hdrop, List.take_append_drop]
    have hlength : (paths.take (fitting limit paths)).length = fitting limit paths :=
      List.length_take_of_le (fitting_le_length limit paths)
    have hnot := (lt_fitting_iff limit (paths.take (fitting limit paths)) after path).not
    rw [hcut, hlength] at hnot
    exact .inr ⟨hmore, path, after, hcut.symm, Nat.not_le.mp (hnot.mp (Nat.lt_irrefl _))⟩

/-- The first failure among the first of some files is the first failure among all of them. -/
lemma FirstFailure.of_take {start : World} {paths before : List Path} {e : Error} {n : Nat}
    (h : FirstFailure platform width start (paths.take n) before path world e) :
    FirstFailure platform width start paths before path world e ∧ before.length < n := by
  obtain ⟨⟨after, hcut⟩, hbefore, hfails⟩ := h
  have hplace : paths = before ++ path :: (after ++ paths.drop n) := by
    calc paths
        _ = paths.take n ++ paths.drop n := (List.take_append_drop _ _).symm
        _ = _ := by simp [hcut]
  refine ⟨⟨⟨_, hplace⟩, hbefore, hfails⟩, ?_⟩
  have hlength := congrArg List.length hcut
  simp only [List.length_take, List.length_append, List.length_cons] at hlength
  omega

/-! ## Outputs with a limit -/

/-- **A world that differs from another one in the output only:** `sent` was written, and the output
accepts `limit` bytes. -/
structure Mirrors (limit : Nat) (sent : Bytes) (w world : World) : Prop where
  alike : w.Alike world
  written : world.session.written = sent
  limited : world.session.limit = some limit
  fits : sent.length ≤ limit

namespace Mirrors

/-- Whether an announcement is accepted, and what is written of it. -/
lemma print (h : Mirrors limit sent w world) (bytes : Bytes) :
    world.session.print bytes =
      (if (sent ++ bytes).length ≤ limit then .ok () else .error .outputFull,
        { world.session with written := (sent ++ bytes).take limit }) := by
  have hfits := h.fits
  have htake : (sent ++ bytes).take limit = sent ++ bytes.take (limit - sent.length) := by
    rw [List.take_append, List.take_of_length_le hfits]
  have hroom : bytes.length ≤ limit - sent.length ↔ (sent ++ bytes).length ≤ limit := by
    rw [List.length_append]
    omega
  simp only [Session.print, h.limited, h.written, htake, hroom]

/-- While what was sent stays within the limit, the limited output has room for it. -/
lemma accepts (h : Mirrors limit sent w world) {bytes : Bytes}
    (hfits : (sent ++ bytes).length ≤ limit) : world.session.Accepts bytes := by
  intro limit' hlimit
  obtain rfl : limit = limit' := Option.some.inj (h.limited.symm.trans hlimit)
  rwa [h.written]

/-- What was accepted has been written. -/
lemma of_abreast (h : Mirrors limit sent w world) {bytes : Bytes}
    (hfits : (sent ++ bytes).length ≤ limit) (h' : Abreast bytes world w' world') :
    Mirrors limit (sent ++ bytes) w' world' :=
  ⟨h'.alike, by rw [h'.written, h.written], h'.limit.trans h.limited, hfits⟩

/-- A file whose announcement is not accepted. -/
lemma convertAll_cons_of_full (h : Mirrors limit sent w world) (platform : Platform)
    (width : Width) (hfull : limit < (sent ++ notice path).length) (rest : List Path) :
    ∃ world', (convertAll platform width (path :: rest)).run.run world =
        (.error (.output .outputFull), world') ∧ world'.fs = w.fs ∧
      world'.session.written = (sent ++ notice path).take limit := by
  have hprint := run_print path world
  rw [h.print, if_neg (Nat.not_le.mpr hfull)] at hprint
  refine ⟨⟨world.fs, { world.session with written := (sent ++ notice path).take limit }⟩, ?_,
    h.alike.fs, rfl⟩
  rw [convertAll, Action.run_bind_of_error hprint]

/-- Where the first file that cannot be converted is still announced, that is the cut. -/
lemma convertAll_of_firstFailure (h : Mirrors limit [] w world) {paths before : List Path}
    {e : Error} (hfirst : FirstFailure platform width w paths before path w' e)
    (hcounted : before.length < fitting limit paths) :
    ∃ failed world', (convertFile platform path width).run.run w' = (.error e, failed) ∧
      (convertAll platform width paths).run.run world = (.error e, world') ∧
      Mirrors limit ((before ++ [path]).flatMap notice) failed world' := by
  have hfits : ([] ++ (before ++ [path]).flatMap notice).length ≤ limit := by
    obtain ⟨after, hcut⟩ := hfirst.place
    rwa [List.nil_append, ← lt_fitting_iff limit before after path, ← hcut]
  obtain ⟨failed, world', hfile, hrun, habreast⟩ :=
    run_convertAll_of_firstFailure h.alike (h.accepts hfits) hfirst
  exact ⟨failed, world', hfile, hrun, h.of_abreast hfits habreast⟩

/-- Where all files that are announced can be converted, the cut is where the output is full.

**Proof sketch.** The files up to the cut are converted while the output mirrors an unlimited one.
If these are all files, everything has been printed. If not, the announcement of the next file does
not fit, the output takes what it has room for, and the run ends with this error. -/
lemma convertAll_of_ok (h : Mirrors limit [] w world) {paths : List Path}
    (hok : (convertEach platform width (paths.take (fitting limit paths))).run.run w =
      (.ok (), w')) :
    ∃ result world', (convertAll platform width paths).run.run world = (result, world') ∧
      world'.session.written = (paths.flatMap notice).take limit ∧ world'.fs = w'.fs ∧
      if fitting limit paths < paths.length then result = .error (.output .outputFull)
      else ∃ count, result = .ok count := by
  have hcounted := length_take_fitting limit paths
  obtain ⟨count, world₁, habreast, hrun⟩ :=
    run_convertAll_append h.alike (h.accepts (by simpa using hcounted)) hok
  have hmirrors := h.of_abreast (by simpa using hcounted) habreast
  rw [List.nil_append] at hmirrors
  rcases fitting_eq_length_or_exists limit paths with hall | ⟨hmore, path, after, hcut, hfull⟩
  · rw [hall, List.take_length] at hcounted hmirrors
    have hends := hrun []
    rw [List.append_nil, hall, List.take_length] at hends
    refine ⟨_, _, hends, ?_, hmirrors.alike.fs, ?_⟩
    · rw [List.take_of_length_le hcounted]
      exact hmirrors.written
    · rw [if_neg (by omega)]
      exact ⟨_, rfl⟩
  · -- the announcement of the next file does not fit
    rw [List.flatMap_append, List.flatMap_cons, List.flatMap_nil, List.append_nil] at hfull
    obtain ⟨world', hlast, hfs, hwritten⟩ :=
      hmirrors.convertAll_cons_of_full platform width hfull after
    have hends := hrun (path :: after)
    rw [← hcut, hlast] at hends
    have hnotices : paths.flatMap notice = (paths.take (fitting limit paths)).flatMap notice ++
        notice path ++ after.flatMap notice := by
      calc paths.flatMap notice
          _ = (paths.take (fitting limit paths) ++ path :: after).flatMap notice := by rw [← hcut]
          _ = _ := by simp
    refine ⟨_, world', hends, ?_, hfs, ?_⟩
    · rw [hwritten, hnotices, List.take_append_of_le_length (Nat.le_of_lt hfull)]
    · rw [if_pos hmore]
      rfl

end Mirrors

/-! ## The whole conversion -/

/-- A conversion of a file that fails in the model leaves the same tree. -/
lemma sameTree_of_run (wf : world.fs.WellFormed) (hfree : Free world path) {e : Error}
    (h : (convertFile platform path width).run.run world = (.error e, world')) :
    world.fs.SameTree world'.fs := by
  have hstart : (Moment.start world).world = world := rfl
  obtain ⟨asked, hend⟩ := (throughout_convertFile wf platform width path hstart).run
  rw [hstart, h] at hend
  exact (hend hfree).sameTree wf

/-- **How a conversion ends** when the output accepts `limit` bytes. Let `fitting limit paths` be the
number of the first paths whose announcements fit. If one of them is the first file that cannot be
converted, the conversion fails as that file does, it has announced the files up to that one, and the
tree is the one after the files before it. Otherwise the files whose announcements fit have been
converted, and the conversion fails with the error of the output exactly if there are others.

**Proof sketch.** Up to the cut the conversion announces and converts file by file, and announcing
makes no difference to converting. What is cut off is either the failing file, which leaves the tree
as it was, or an announcement that is not accepted, and then nothing is converted any more. -/
theorem convert_of_limit {fs : FileSystem} (wf : fs.WellFormed) (platform : Platform)
    (config : Config) (target : Path) (process : Nat) (clock : Nat → Nat) (limit : Nat)
    {start : World} (hstart : start = ⟨fs, .start process clock (some limit)⟩)
    {paths : List Path} (hpaths : paths = matched fs config.pattern target)
    (hfree : ∀ before path after world, paths = before ++ path :: after →
      before.length < fitting limit paths →
        (convertEach platform config.width before).run.run start = (.ok (), world) →
          Free world path)
    {result : Except Error Summary} {final : World}
    (hrun : (convert platform config target).run.run start = (result, final)) :
    (∀ before path world e,
      FirstFailure platform config.width start paths before path world e →
        before.length < fitting limit paths →
          result = .error e ∧ final.session.written = (before ++ [path]).flatMap notice ∧
            world.fs.SameTree final.fs) ∧
    ((¬ ∃ before path world e,
      FirstFailure platform config.width start paths before path world e ∧
        before.length < fitting limit paths) →
      ∃ world,
        (convertEach platform config.width (paths.take (fitting limit paths))).run.run start =
          (.ok (), world) ∧
        final.session.written = (paths.flatMap notice).take limit ∧
        world.fs.SameTree final.fs ∧
        if fitting limit paths < paths.length then result = .error (.output .outputFull)
        else ∃ modified, result = .ok ⟨paths.length, modified⟩) := by
  subst hstart
  obtain ⟨log, hconvert⟩ := exists_run_convert platform config target
    ⟨fs, .start process clock (some limit)⟩
  rw [← hpaths] at hconvert
  have hmirrors : Mirrors limit [] ⟨fs, .start process clock (some limit)⟩
      ⟨fs, { Session.start process clock (some limit) with log := log }⟩ :=
    ⟨⟨rfl, rfl, rfl, rfl⟩, rfl, rfl, Nat.zero_le _⟩
  refine ⟨fun before path world e hfirst hcounted => ?_, fun hnone => ?_⟩
  · have hfirst' := hfirst
    obtain ⟨⟨after, hcut⟩, hbefore, -⟩ := hfirst'
    obtain ⟨failed, world', hfile, hall, hmirrors'⟩ :=
      hmirrors.convertAll_of_firstFailure hfirst hcounted
    obtain ⟨log', hends⟩ := hconvert _ _ hall
    obtain ⟨rfl, rfl⟩ := Prod.mk.inj (hrun.symm.trans hends)
    have wf' : world.fs.WellFormed := wellFormed_of_convertEach wf hbefore
    have hsame : world.fs.SameTree failed.fs :=
      sameTree_of_run wf' (hfree before path after world hcut hcounted hbefore) hfile
    exact ⟨rfl, hmirrors'.written, hmirrors'.alike.fs ▸ hsame⟩
  · have hok : ∃ world,
        (convertEach platform config.width (paths.take (fitting limit paths))).run.run
          ⟨fs, .start process clock (some limit)⟩ = (.ok (), world) := by
      refine (ok_or_exists_firstFailure _ _ _ _).resolve_right ?_
      rintro ⟨before, path, world, e, hfirst⟩
      exact hnone ⟨before, path, world, e, hfirst.of_take⟩
    obtain ⟨world, hok⟩ := hok
    obtain ⟨ended, world', hall, hwritten, hfs, hended⟩ := hmirrors.convertAll_of_ok hok
    obtain ⟨log', hends⟩ := hconvert _ _ hall
    obtain ⟨rfl, rfl⟩ := Prod.mk.inj (hrun.symm.trans hends)
    refine ⟨world, hok, hwritten, hfs ▸ .refl _, ?_⟩
    split_ifs at hended ⊢
    · rw [hended]
      rfl
    · obtain ⟨count, rfl⟩ := hended
      exact ⟨count, rfl⟩

/-- An output that is full within the second announcement. -/
theorem convert_of_limit_cut :
    let start : World := ⟨aliased ⟨pack [9], 0o600⟩, .start 7 (fun n => n) (some 25)⟩
    ∃ final, (convert .standard .standard (utf8 "d")).run.run start =
        (.error (.output .outputFull), final) ∧
      final.session.written = utf8 "Converting d/a.java\nConve" ∧
      ∃ world, (convertEach .standard 4 [utf8 "d/a.java"]).run.run start = (.ok (), world) ∧
        world.fs.SameTree final.fs := by
  intro start
  have wf : start.fs.WellFormed := wellFormed_aliased ⟨pack [9], 0o600⟩
  have hpaths : [utf8 "d/a.java", utf8 "d/b.java"] =
      matched start.fs Config.standard.pattern (utf8 "d") := by
    decide +kernel
  have hfitting : fitting 25 [utf8 "d/a.java", utf8 "d/b.java"] = 1 := by
    decide +kernel
  have hfirst : ∀ before path after, [utf8 "d/a.java", utf8 "d/b.java"] = before ++ path :: after →
      before.length < 1 → before = [] ∧ path = utf8 "d/a.java" := by
    intro before path after hcut hlength
    obtain rfl : before = [] := List.eq_nil_of_length_eq_zero (by omega)
    exact ⟨rfl, (List.cons.inj hcut).1.symm⟩
  have hfree : ∀ before path after world,
      [utf8 "d/a.java", utf8 "d/b.java"] = before ++ path :: after →
        before.length < fitting 25 [utf8 "d/a.java", utf8 "d/b.java"] →
          (convertEach .standard Config.standard.width before).run.run start = (.ok (), world) →
            Free world path := by
    intro before path after world hcut hcounted hbefore
    rw [hfitting] at hcounted
    obtain ⟨rfl, rfl⟩ := hfirst before path after hcut hcounted
    obtain ⟨-, rfl⟩ := Prod.mk.inj hbefore
    have hgoal : start.fs.resolve .toFile (utf8 "d/a.java") =
        .ok ([utf8 "d"] ++ [utf8 "a.java"]) := by
      decide +kernel
    exact free_of_entry?_eq_none wf hgoal (by decide +kernel) (by decide +kernel)
  obtain ⟨result, final, hends⟩ : ∃ result final,
      (convert .standard .standard (utf8 "d")).run.run start = (result, final) := ⟨_, _, rfl⟩
  have hrun := convert_of_limit wf .standard .standard (utf8 "d") 7 (fun n => n) 25 rfl hpaths
    hfree hends
  have hnone : ¬ ∃ before path world e, FirstFailure .standard Config.standard.width start
      [utf8 "d/a.java", utf8 "d/b.java"] before path world e ∧
        before.length < fitting 25 [utf8 "d/a.java", utf8 "d/b.java"] := by
    rintro ⟨before, path, world, e, ⟨⟨after, hcut⟩, hbefore, hfails⟩, hcounted⟩
    rw [hfitting] at hcounted
    obtain ⟨rfl, rfl⟩ := hfirst before path after hcut hcounted
    obtain ⟨-, rfl⟩ := Prod.mk.inj hbefore
    have hok : ((convertFile .standard (utf8 "d/a.java") Config.standard.width).run.run start).1 =
        .ok true := by
      decide +kernel
    rw [hok] at hfails
    simp at hfails
  obtain ⟨world, hworld, hwritten, hsame, hresult⟩ := hrun.2 hnone
  rw [hfitting] at hworld hresult
  have hcut : ([utf8 "d/a.java", utf8 "d/b.java"].flatMap notice).take 25 =
      utf8 "Converting d/a.java\nConve" := by
    decide +kernel
  obtain rfl : result = .error (.output .outputFull) := by simpa using hresult
  exact ⟨final, hends, hwritten.trans hcut, world, hworld, hsame⟩

end Detab.Conversion
