import Detab.Proofs.FileSystem.Canonical
import Detab.Proofs.FileSystem.Outlines
import Detab.Proofs.Running.Traces

set_option relaxedAutoImplicit false
set_option autoImplicit false

/-!
# Runs in trees that some files tell apart

Two trees may have the same entries and still not be the same, since some of their files hold
something else or have another mode. As long as none of these files is looked into, a run cannot tell
the trees apart: it asks the same, is answered the same, and does the same to both.

## Main definitions

* `Detab.FileSystem.Twins` — two trees that only some files tell apart.

## Main results

* `Detab.FileSystem.Twins.answer` — a request that looks into no such file is answered alike.
* `Detab.FileSystem.Twins.run` — **a run that looks into no such file does the same in both trees.**
-/

namespace Detab

namespace FileSystem

/-- **Two trees that only some files tell apart:** names, links, directories and the number of files
are the same, and so is every file that is not one of those. -/
structure Twins (apart : FileId → Prop) (fs fs' : FileSystem) : Prop where
  rootMode : fs'.rootMode = fs.rootMode
  root : fs'.root = fs.root
  workingDirectory : fs'.workingDirectory = fs.workingDirectory
  length : fs'.files.length = fs.files.length
  file : ∀ id, ¬ apart id → fs'.files[id]? = fs.files[id]?

/-- Changes that fail alike, or make twins. -/
inductive SameChange (apart : FileId → Prop) :
    Except IoError FileSystem → Except IoError FileSystem → Prop
  | error (e : IoError) : SameChange apart (.error e) (.error e)
  | ok {fs fs' : FileSystem} : fs.Twins apart fs' → SameChange apart (.ok fs) (.ok fs')

namespace Twins

variable {apart : FileId → Prop} {fs fs' : FileSystem} {path source target : Path} {id : FileId}

/-- Being twins goes both ways. -/
lemma symm (h : fs.Twins apart fs') : fs'.Twins apart fs :=
  ⟨h.rootMode.symm, h.root.symm, h.workingDirectory.symm, h.length.symm,
    fun id hid => (h.file id hid).symm⟩

/-! ## Looking -/

/-- Every place has the same entry in both trees. -/
lemma entry? (h : fs.Twins apart fs') (place : Place) : fs'.entry? place = fs.entry? place := by
  rw [FileSystem.entry?, FileSystem.entry?, h.rootMode, h.root]

/-- Every place has the same node in both trees: the number of a file is the same, though its
contents may not be. -/
lemma node? (h : fs.Twins apart fs') (place : Place) : fs'.node? place = fs.node? place := by
  rw [FileSystem.node?, FileSystem.node?, h.entry?]

/-- Twins have the same outline. -/
lemma outline (h : fs.Twins apart fs') : fs'.outline = fs.outline := by
  rw [FileSystem.outline, FileSystem.outline, h.rootMode, h.root, h.workingDirectory]

/-- A survey finds the same in both trees, as it looks into no file. -/
lemma survey (h : fs.Twins apart fs') (target : Path) : fs'.survey target = fs.survey target := by
  rw [← survey_outline, h.outline, survey_outline]

/-- Every place looks the same to a walk in both trees. -/
lemma sight? (h : fs.Twins apart fs') (place : Place) : fs'.sight? place = fs.sight? place := by
  rw [FileSystem.sight?, FileSystem.sight?, h.entry?]

/-- Every path leads the same way in both trees, or fails alike. -/
lemma resolve (h : fs.Twins apart fs') (walk : Walk) (path : Path) :
    fs'.resolve walk path = fs.resolve walk path :=
  resolve_congr h.sight? h.workingDirectory walk path

/-- Looking a path up finds the same entry in both trees. -/
lemma lookUp (h : fs.Twins apart fs') (walk : Walk) (path : Path) :
    fs'.lookUp walk path = fs.lookUp walk path := by
  simp only [FileSystem.lookUp, h.resolve, h.entry?]

/-- The last step of a path is the same in both trees. -/
lemma lastStep (h : fs.Twins apart fs') (path : Path) : fs'.lastStep path = fs.lastStep path := by
  have hwalk : ∀ walk links here steps,
      walkFrom fs' walk links here steps = walkFrom fs walk links here steps := by
    intro walk links here steps
    exact walkFrom_congr h.sight? links here steps
  simp only [FileSystem.lastStep, hwalk, h.entry?, h.workingDirectory]

/-- A path leads to the same file in both trees, by its number. -/
lemma names_iff (h : fs.Twins apart fs') (walk : Walk) (path : Path) (id : FileId) :
    fs'.Names walk path id ↔ fs.Names walk path id := by
  simp only [Names, h.resolve, h.node?]

/-- A place that names no file that differs holds the same. -/
lemma item? (h : fs.Twins apart fs') {place : Place}
    (hplace : ∀ id, fs.node? place = some (.leaf (.file id)) → ¬ apart id) :
    fs'.item? place = fs.item? place := by
  rw [item?_eq_bind_node?, item?_eq_bind_node?, h.node?]
  rcases hnode : fs.node? place with _ | (id | link) | mode
  · rfl
  · simp only [Option.bind_some, Node.item?, itemOfLeaf?, h.file id (hplace id hnode)]
  · rfl
  · rfl

/-- A twin of a well-formed tree is well formed. -/
lemma wellFormed (h : fs.Twins apart fs') (wf : fs.WellFormed) : fs'.WellFormed := by
  refine ⟨?_, ?_⟩
  · rw [h.root, h.length]
    exact wf.root
  · obtain ⟨mode, hmode⟩ := wf.workingDirectory
    exact ⟨mode, by rw [h.workingDirectory, h.node?, hmode]⟩

/-- The file that a path looks into is the same, if it is not one of those that differ. -/
lemma file_of_lookUp (h : fs.Twins apart fs') (hpath : ∀ id, fs.Names .toFile path id → ¬ apart id)
    (hlook : fs.lookUp .toFile path = .ok (.leaf (.file id))) : fs'.files[id]? = fs.files[id]? := by
  obtain ⟨goal, hgoal, hentry⟩ := lookUp_eq_ok_iff.mp hlook
  exact h.file id (hpath id ⟨goal, hgoal, node?_eq_leaf_iff.mpr hentry⟩)

/-- **Reading a path gives the same in both trees,** unless it leads to one of the files that may
differ. -/
lemma read (h : fs.Twins apart fs') (hpath : ∀ id, fs.Names .toFile path id → ¬ apart id) :
    fs'.read path = fs.read path := by
  rw [FileSystem.read, FileSystem.read, h.lookUp]
  rcases hlook : fs.lookUp .toFile path with e | (id | link) | ⟨mode, entries⟩
  · rfl
  · simp only [h.file_of_lookUp hpath hlook]
  · rfl
  · rfl

/-- The mode of a path is the same in both trees, unless it leads to one of the files that may
differ. -/
lemma modeOf (h : fs.Twins apart fs') (hpath : ∀ id, fs.Names .toFile path id → ¬ apart id) :
    fs'.modeOf path = fs.modeOf path := by
  rw [FileSystem.modeOf, FileSystem.modeOf, h.lookUp]
  rcases hlook : fs.lookUp .toFile path with e | (id | link) | ⟨mode, entries⟩
  · rfl
  · simp only [h.file_of_lookUp hpath hlook]
  · rfl
  · rfl

/-! ## Changing -/

/-- The same change of a directory. -/
lemma changeDirectory (h : fs.Twins apart fs') (place : Place)
    (change : Mode → Directory → Mode × Directory) :
    (fs.changeDirectory place change).Twins apart (fs'.changeDirectory place change) := by
  simp only [FileSystem.changeDirectory, h.rootMode, h.root]
  exact ⟨rfl, rfl, h.workingDirectory, h.length, h.file⟩

/-- Changing the entries of a directory in the same way makes twins of twins. -/
lemma changeAt (h : fs.Twins apart fs') (place : Place) (change : Directory → Directory) :
    (fs.changeAt place change).Twins apart (fs'.changeAt place change) :=
  h.changeDirectory place _

/-- The same change of a file. -/
lemma changeFile (h : fs.Twins apart fs') (id : FileId) (change : File → File) :
    (fs.changeFile id change).Twins apart (fs'.changeFile id change) := by
  refine ⟨h.rootMode, h.root, h.workingDirectory, ?_, fun id' hid' => ?_⟩
  · simp only [FileSystem.changeFile, List.length_modify, h.length]
  · simp only [FileSystem.changeFile, List.getElem?_modify, h.file id' hid']

/-- One more file. -/
lemma withFile (h : fs.Twins apart fs') (file : File) :
    (fs.withFile file).Twins apart (fs'.withFile file) := by
  refine ⟨h.rootMode, h.root, h.workingDirectory, ?_, fun id' hid' => ?_⟩
  · simp only [FileSystem.withFile, List.length_append, h.length]
  · simp only [FileSystem.withFile, List.getElem?_append, h.length, h.file id' hid']

/-- Setting the mode of a path fails alike in both trees, or makes twins. -/
lemma setMode (h : fs.Twins apart fs') (path : Path) (mode : Mode) :
    SameChange apart (fs.setMode path mode) (fs'.setMode path mode) := by
  rw [FileSystem.setMode, FileSystem.setMode, h.resolve]
  cases fs.resolve .toFile path with
  | error e => exact .error e
  | ok place =>
    simp only [h.entry?]
    rcases fs.entry? place with _ | (id | link) | ⟨m, entries⟩
    · exact .error _
    · exact .ok (h.changeFile id _)
    · exact .error _
    · exact .ok (h.changeDirectory place _)

/-- Removing a path fails alike in both trees, or makes twins. -/
lemma remove (h : fs.Twins apart fs') (path : Path) :
    SameChange apart (fs.remove path) (fs'.remove path) := by
  rw [FileSystem.remove, FileSystem.remove, h.lastStep]
  rcases fs.lastStep path with e | ⟨parent, mode, entries, n, asDirectory⟩ | _
  · exact .error e
  · dsimp only
    rcases entries.find? n with _ | l | ⟨m, e⟩
    · exact .error _
    · dsimp only
      split_ifs
      · exact .error _
      · exact .ok (h.changeAt parent _)
      · exact .error _
    · exact .error _
  · exact .error _

/-- Renaming a path fails alike in both trees, or makes twins. -/
lemma rename (h : fs.Twins apart fs') (source target : Path) :
    SameChange apart (fs.rename source target) (fs'.rename source target) := by
  rw [FileSystem.rename, FileSystem.rename, h.lastStep, h.lastStep]
  rcases fs.lastStep source with e | ⟨p, m, entries, n, asDirectory⟩ | _ <;>
    rcases fs.lastStep target with e' | ⟨p', m', entries', n', asDirectory'⟩ | _
  all_goals try exact .error _
  dsimp only
  rcases entries.find? n with _ | leaf | _
  · exact .error _
  · dsimp only
    split_ifs
    · exact .error _
    · exact .ok h
    · exact .error _
    · rcases entries'.find? n' with _ | _ | _
      · exact .ok ((h.changeAt p' _).changeAt p _)
      · exact .ok ((h.changeAt p' _).changeAt p _)
      · exact .error _
  · exact .error _

/-- A new file is made in both trees or in none. -/
lemma createNew (h : fs.Twins apart fs') (path : Path) :
    (∃ e, fs.createNew path = .error e ∧ fs'.createNew path = .error e) ∨
      ∃ id new new', fs.createNew path = .ok (id, new) ∧ fs'.createNew path = .ok (id, new') ∧
        new.Twins apart new' := by
  rw [FileSystem.createNew, FileSystem.createNew, h.lastStep]
  rcases fs.lastStep path with e | ⟨parent, mode, entries, n, asDirectory⟩ | _
  · exact .inl ⟨_, rfl, rfl⟩
  · dsimp only
    split_ifs
    · exact .inl ⟨_, rfl, rfl⟩
    · rcases entries.find? n with _ | found
      · dsimp only
        rw [h.length]
        exact .inr ⟨_, _, _, rfl, rfl, (h.withFile ⟨.empty, .newFile⟩).changeAt parent _⟩
      · exact .inl ⟨_, rfl, rfl⟩
    · rcases entries.find? n with _ | found <;> exact .inl ⟨_, rfl, rfl⟩
  · exact .inl ⟨_, rfl, rfl⟩

/-! ## Running -/

/-- A change is answered alike in both trees. -/
lemma answerChange (h : fs.Twins apart fs') {change change' : Except IoError FileSystem}
    (hchange : SameChange apart change change') :
    (answerChange fs' change').1 = (answerChange fs change).1 ∧
      (answerChange fs change).2.Twins apart (answerChange fs' change').2 := by
  cases hchange with
  | error e => exact ⟨rfl, h⟩
  | ok hafter => exact ⟨rfl, hafter⟩

/-- **A request that looks into no file that differs is answered alike,** and does the same to both
trees.

**Proof sketch.** By the kinds of requests. What only looks at names and links is answered alike
because twins look the same; what looks into a file is asked of one that does not differ; and
changes make twins. -/
lemma answer {world world' : World} (h : world.fs.Twins apart world'.fs)
    (hsession : world'.session = world.session) (request : Request)
    (hlooks : ∀ id, request.LooksInto world.fs id → ¬ apart id) :
    (world'.answer request).1 = (world.answer request).1 ∧
      (world.answer request).2.fs.Twins apart (world'.answer request).2.fs ∧
      (world'.answer request).2.session = (world.answer request).2.session := by
  obtain ⟨fs, session⟩ := world
  obtain ⟨fs', session'⟩ := world'
  obtain rfl : session' = session := hsession
  cases request with
  | survey path => exact ⟨h.survey path, h, rfl⟩
  | read path => exact ⟨h.read hlooks, h, rfl⟩
  | isLink path =>
    refine ⟨?_, h, rfl⟩
    change fs'.isLink path = fs.isLink path
    rw [isLink, isLink, h.lookUp]
  | canonicalPath path =>
    refine ⟨?_, h, rfl⟩
    exact canonicalPath_congr h.sight? h.workingDirectory path
  | modeOf path => exact ⟨h.modeOf hlooks, h, rfl⟩
  | createNew path =>
    rcases h.createNew path with ⟨e, hold, hnew⟩ | ⟨id, new, new', hold, hnew, hafter⟩ <;>
      simp only [World.answer, Detab.answer, hold, hnew, true_and, and_true]
    · exact h
    · exact hafter
  | append id bytes => exact ⟨rfl, h.changeFile id _, rfl⟩
  | setMode path mode =>
    obtain ⟨hsame, hafter⟩ := h.answerChange (h.setMode path mode)
    exact ⟨hsame, hafter, rfl⟩
  | rename source target =>
    obtain ⟨hsame, hafter⟩ := h.answerChange (h.rename source target)
    exact ⟨hsame, hafter, rfl⟩
  | remove path =>
    obtain ⟨hsame, hafter⟩ := h.answerChange (h.remove path)
    exact ⟨hsame, hafter, rfl⟩
  | stamp => exact ⟨rfl, h, rfl⟩
  | sync id => exact ⟨rfl, h, rfl⟩
  | print bytes => exact ⟨rfl, h, rfl⟩
  | log line => exact ⟨rfl, h, rfl⟩

/-- **A run that looks into no file that differs does the same in both trees:** it has the same result,
it leaves the same session and twins, and what it asks of the one tree it asks of the other.

**Proof sketch.** Induction on the script. The first request is answered alike, by `Twins.answer`,
so both runs go on with the same script, in twins. -/
lemma run {α : Type} {script : Script α} {moment moment' : Moment}
    (h : moment.world.fs.Twins apart moment'.world.fs)
    (hsession : moment'.world.session = moment.world.session)
    (hlooks : ∀ request fs, (request, fs) ∈ script.trace (fun _ => none) moment →
      ∀ id, request.LooksInto fs id → ¬ apart id) :
    (script.run moment'.world).1 = (script.run moment.world).1 ∧
      (script.run moment.world).2.fs.Twins apart (script.run moment'.world).2.fs ∧
      (script.run moment'.world).2.session = (script.run moment.world).2.session ∧
      ∀ request fs', (request, fs') ∈ script.trace (fun _ => none) moment' →
        ∃ fs, (request, fs) ∈ script.trace (fun _ => none) moment ∧ fs.Twins apart fs' := by
  induction script generalizing moment moment' with
  | done a => exact ⟨rfl, h, hsession, fun _ _ hmem => absurd hmem List.not_mem_nil⟩
  | ask request next ih =>
    obtain ⟨hsame, hafter, hsession'⟩ := h.answer hsession request
      (hlooks request moment.world.fs List.mem_cons_self)
    let answered : request.Answer := (moment.world.answer request).1
    let later : Moment := (moment.after none request).2
    let later' : Moment := (moment'.after none request).2
    have hnext : (Script.ask request next).run moment'.world = (next answered).run later'.world := by
      rw [show answered = (moment'.world.answer request).1 from hsame.symm]
      rfl
    have htrace : (Script.ask request next).trace (fun _ => none) moment' =
        (request, moment'.world.fs) :: (next answered).trace (fun _ => none) later' := by
      rw [show answered = (moment'.world.answer request).1 from hsame.symm]
      rfl
    -- both runs go on with the same script, in trees that are twins again
    have hlater : later.world.fs.Twins apart later'.world.fs := hafter
    have hsessions : later'.world.session = later.world.session := hsession'
    obtain ⟨hresult, hends, hended, hasked⟩ := ih answered hlater hsessions fun request' fs hmem =>
      hlooks request' fs (List.mem_cons_of_mem _ hmem)
    rw [hnext, htrace]
    refine ⟨hresult, hends, hended, fun request' fs' hmem => ?_⟩
    rcases List.mem_cons.mp hmem with heq | hmem
    · obtain ⟨rfl, rfl⟩ := Prod.mk.inj heq
      exact ⟨moment.world.fs, List.mem_cons_self, h⟩
    · obtain ⟨fs, hold, htwins⟩ := hasked request' fs' hmem
      exact ⟨fs, List.mem_cons_of_mem _ hold, htwins⟩

end Twins

end FileSystem

end Detab
