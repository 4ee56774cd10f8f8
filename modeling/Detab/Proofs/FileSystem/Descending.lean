import Detab.Proofs.FileSystem.LastStep
import Detab.Proofs.FileSystem.Reading
import Detab.Proofs.Listing.Order

set_option relaxedAutoImplicit false
set_option autoImplicit false

/-!
# Going down by names

The entries of a directory are named by its path, extended by their names. Such a path leads to the
entry of that name in the directory that the path itself leads to, unless a link is there.

## Main results

* `Detab.FileSystem.steps_join` — the walk of a path that is extended by a name.
* `Detab.FileSystem.exists_resolve_of_join` — where such a path leads.
* `Detab.FileSystem.resolve_extend` — **going down by names** leads to what they name.
* `Detab.FileSystem.openDirectory_target`, `Detab.FileSystem.openDirectory_extend` — and what is read
  there are their entries.
-/

namespace Detab

namespace Path

/-! ## The text of an extended path -/

/-- A slash in the middle separates the pieces of both sides. -/
lemma pieces_append (a b : Path) : pieces (a ++ slash :: b) = pieces a ++ pieces b := by
  induction a with
  | nil => exact pieces_append_slash (by simp) b
  | cons c a ih =>
    obtain ⟨first, others, ha⟩ := List.exists_cons_of_ne_nil (pieces_ne_nil a)
    rw [ha, List.cons_append] at ih
    rw [List.cons_append, pieces_cons c ih, pieces_cons c ha]
    split <;> rfl

/-- What is put before a name that extends a path: the path, and a slash if it does not end with
one. -/
lemma exists_join_eq {path : Path} (hpath : path ≠ []) :
    ∃ front, (∀ name, path.join name = front ++ slash :: name) ∧
      (path = front ++ [slash] ∨ path = front ∧ path.getLast? ≠ some slash) := by
  by_cases hslash : path.getLast? = some slash
  · obtain ⟨front, rfl⟩ := List.getLast?_eq_some_iff.mp hslash
    exact ⟨front, fun name => by simp [join], .inl rfl⟩
  · exact ⟨path, fun name => by simp [join, hslash, hpath], .inr ⟨rfl, hslash⟩⟩

/-- A path with a name behind it is not empty. -/
lemma join_ne_nil (path : Path) {name : Name} (hname : name ≠ []) : path.join name ≠ [] := by
  unfold join
  split <;> simp [hname]

/-- A path that is not empty does not become so when names are put behind it. -/
lemma extend_ne_nil {path : Path} (hpath : path ≠ []) {way : List Name} (hway : ∀ n ∈ way, IsStep n) :
    path.extend way ≠ [] := by
  induction way generalizing path with
  | nil => exact hpath
  | cons n way ih =>
    exact ih (join_ne_nil path (hway n (by simp)).1) fun n' hn' => hway n' (by simp [hn'])

/-- A path with a name behind it begins where the path begins: at the root, or not. -/
lemma isAbsolute_join {path : Path} (hpath : path ≠ []) (name : Name) :
    isAbsolute (path.join name) = isAbsolute path := by
  obtain ⟨b, rest, rfl⟩ := List.exists_cons_of_ne_nil hpath
  unfold join
  split <;> simp [isAbsolute]

/-- A path that is extended by a name does not end with a slash. -/
lemma getLast?_join_ne (path : Path) {name : Name} (hname : IsStep name) :
    (path.join name).getLast? ≠ some slash := by
  have hend : name.getLast? ≠ some slash := fun h => hname.2.2.2 (List.mem_of_getLast? h)
  unfold join
  split
  · rwa [List.getLast?_append_of_ne_nil _ hname.1]
  · rwa [← List.singleton_append, ← List.append_assoc, List.getLast?_append_of_ne_nil _ hname.1]

/-- The last pieces of an extended path are the names that extend it.

**Proof sketch.** Induction on the names from behind. The first one may need a slash before it;
after a name there is always one, so each further name is one more piece. -/
lemma exists_pieces_extend {path : Path} (hpath : path ≠ []) :
    ∃ base, ∀ way, way ≠ [] → (∀ n ∈ way, IsStep n) → pieces (path.extend way) = base ++ way := by
  obtain ⟨front, hjoin, -⟩ := exists_join_eq hpath
  refine ⟨pieces front, fun way hne hway => ?_⟩
  induction way using List.reverseRecOn with
  | nil => exact absurd rfl hne
  | append_singleton way name ih =>
    have hname : IsStep name := hway name (by simp)
    rw [extend_concat]
    rcases List.eq_nil_or_concat' way with rfl | ⟨others, last, rfl⟩
    · rw [extend_nil, hjoin, pieces_append, pieces_of_notMem hname.2.2.2, List.nil_append]
    · have hothers := ih (by simp) fun n hn => hway n (List.mem_append_left _ hn)
      have hlast : IsStep last := hway last (by simp)
      have hopen : (path.extend (others ++ [last])).getLast? ≠ some slash := by
        rw [extend_concat]
        exact getLast?_join_ne _ hlast
      have hpath' : path.extend (others ++ [last]) ≠ [] := by
        rw [extend_concat]
        exact join_ne_nil _ hlast.1
      rw [join, if_neg (by simp [hopen, hpath']), pieces_append, pieces_of_notMem hname.2.2.2,
        hothers, List.append_assoc]

/-- **Different names make different paths.** -/
lemma extend_injective {path : Path} (hpath : path ≠ []) {way way' : List Name} (hne : way ≠ [])
    (hne' : way' ≠ []) (hway : ∀ n ∈ way, IsStep n) (hway' : ∀ n ∈ way', IsStep n)
    (h : path.extend way = path.extend way') : way = way' := by
  obtain ⟨base, hbase⟩ := exists_pieces_extend hpath
  have hpieces := congrArg pieces h
  rw [hbase way hne hway, hbase way' hne' hway'] at hpieces
  exact List.append_cancel_left hpieces

end Path

namespace FileSystem

open Detab.Path

variable {fs : FileSystem} {path target : Path} {name : Name} {place goal mid : Place}
  {mode : Mode} {entries : Directory} {way : List Name}

/-! ## The walk of an extended path -/

/-- **The walk of an extended path:** that of the path, but for a slash at its end, and then to the
name.

**Proof sketch.** The path is joined to the name by one slash, which may be there already. If it is,
its step is taken off; if not, the path has no such step. -/
lemma steps_join (hpath : path ≠ []) (hname : IsStep name) :
    steps (path.join name) = withoutSlash (steps path) ++ [.name name] := by
  obtain ⟨front, hjoin, hend⟩ := exists_join_eq hpath
  have hsteps : steps (path.join name) = (pieces front).filterMap step? ++ [.name name] := by
    rw [steps, if_neg (getLast?_join_ne path hname), hjoin, pieces_append,
      pieces_of_notMem hname.2.2.2]
    simp [hname.step?]
  rw [hsteps]
  congr 1
  rcases hend with rfl | ⟨rfl, hopen⟩
  · rw [steps, pieces_append]
    simp [pieces, step?, withoutSlash]
  · have hno : Step.directory ∉ (pieces path).filterMap step? := by
      intro h
      obtain ⟨piece, -, hpiece⟩ := List.mem_filterMap.mp h
      unfold step? at hpiece
      split_ifs at hpiece <;> simp at hpiece
    rw [steps, if_neg hopen, List.append_nil, withoutSlash, if_neg]
    exact fun h => hno (List.mem_of_getLast? h)

/-- A path can be looked up when the longer one with a name behind it can: it is shorter, and the
zero byte is not in it either. -/
lemma spellingError?_of_join (hpath : path ≠ []) (h : spellingError? (path.join name) = none) :
    spellingError? path = none := by
  obtain ⟨front, hjoin, hend⟩ := exists_join_eq hpath
  rw [hjoin] at h
  unfold spellingError? at h ⊢
  split_ifs at h with hzero hempty hlong
  rcases hend with rfl | ⟨rfl, -⟩
  · rw [if_neg, if_neg (by simp), if_neg]
    · simp only [List.length_append, List.length_cons, List.length_nil] at hlong ⊢
      omega
    · simp_all
  · rw [if_neg, if_neg (by simpa using hpath), if_neg]
    · simp only [List.length_append, List.length_cons] at hlong ⊢
      omega
    · simp_all

/-- **Where an extended path leads:** to the entry of that name in the directory that the path leads
to, if it is no link.

**Proof sketch.** The walk to the longer path is cut before its last step, which is the name. What
comes before it is a walk along the path, up to a slash at its end, which asks for a directory;
there is one, as the name has been looked up in it. -/
lemma exists_resolve_of_join (hpath : path ≠ []) (hname : IsStep name)
    (h : fs.resolve .toFile (path.join name) = .ok goal) :
    ∃ mid, fs.resolve .toFile path = .ok mid ∧
      (goal = mid ++ [name] ∨ ∃ target, fs.shape? (mid ++ [name]) = some (.link target)) := by
  obtain ⟨hspelling, left, hwalked⟩ := (resolve_eq_ok_iff rfl).mp h
  have hstart : startOf (path.join name) fs.workingDirectory = startOf path fs.workingDirectory := by
    simp only [startOf, isAbsolute_join hpath]
  rw [hstart] at hwalked
  obtain ⟨more, mid, hbefore, hlast⟩ := hwalked.exists_mid _ _ (steps_join hpath hname)
  have hpass : fs.Passable false mid := by
    have hany : fs.Passable true mid → fs.Passable false mid := by
      rintro ⟨mode, hmode, -⟩
      exact ⟨mode, hmode, by simp⟩
    cases hlast with
    | name hpass _ _ _ => exact hany hpass
    | link hpass _ _ _ => exact hany hpass
  refine ⟨mid, ?_, ?_⟩
  · -- a slash at the end of the path asks for the directory that the name is looked up in
    rw [resolve, spellingError?_of_join hpath hspelling, ← withoutSlash_append (steps path)]
    change walkFrom fs .toFile maxLinks _ _ = _
    rw [walkFrom_append hbefore (.inr rfl), directoryStep]
    split
    · rw [walkFrom_directory hpass, walkFrom_nil]
    · rw [walkFrom_nil]
  · cases hlast with
    | name _ _ _ hdone =>
      cases hdone
      exact .inl rfl
    | link _ _ htarget _ => exact .inr ⟨_, htarget⟩

/-- **Going down by names** leads to what they name, if that is no link.

**Proof sketch.** Induction on the names from the last one. The directory before the last name is
where the shorter path leads, and what is under the last name there is no link. -/
lemma resolve_extend (wf : fs.WellFormed) (htarget : fs.resolve .toFile target = .ok goal)
    (hsolid : fs.Solid (goal ++ way))
    (h : fs.resolve .toFile (target.extend way) = .ok place) : place = goal ++ way := by
  have hne : target ≠ [] := by
    rintro rfl
    simp [resolve, spellingError?] at htarget
  induction way using List.reverseRecOn generalizing place with
  | nil => simpa using Except.ok.inj (h.symm.trans htarget)
  | append_singleton way name ih =>
    obtain ⟨shape, hshape, hnolink⟩ := hsolid
    obtain ⟨entry, hentry⟩ : ∃ entry, fs.entry? (goal ++ (way ++ [name])) = some entry := by
      cases hentry : fs.entry? (goal ++ (way ++ [name])) with
      | none => simp [shape?_eq_none_iff.mpr hentry] at hshape
      | some entry => exact ⟨entry, rfl⟩
    have hnames : ∀ n ∈ way ++ [name], IsStep n :=
      fun n hn => (wf.isName hentry n (List.mem_append_right goal hn)).isStep
    have hway : target.extend way ≠ [] :=
      extend_ne_nil hne fun n hn => hnames n (List.mem_append_left _ hn)
    rw [← List.append_assoc] at hentry
    obtain ⟨m, e, hparent⟩ := exists_directory_of_entry?_concat hentry
    rw [extend_concat] at h
    obtain ⟨mid, hmid, hend⟩ := exists_resolve_of_join hway (hnames name (by simp)) h
    obtain rfl := ih (solid_of_directory (shape?_eq_directory_iff.mpr ⟨e, hparent⟩)) hmid
    rcases hend with rfl | ⟨link, hlink⟩
    · simp
    · rw [List.append_assoc, hshape] at hlink
      exact absurd (Option.some.inj hlink) (hnolink link)

/-! ## Reading directories -/

/-- **When a directory is opened:** the path leads to a directory through all links, and its owner
may read it.

**Proof sketch.** By what the look-up finds: a directory that can be read, one that cannot, or
something else. -/
lemma openDirectory_eq_ok_iff :
    fs.openDirectory path = .ok entries ↔
      ∃ place mode, fs.resolve .toFile path = .ok place ∧
        fs.entry? place = some (.directory mode entries) ∧ mode.canRead = true := by
  unfold openDirectory
  constructor
  · intro h
    cases hlook : fs.lookUp .toFile path with
    | error e => simp [hlook] at h
    | ok entry =>
      obtain ⟨place, hplace, hentry⟩ := lookUp_eq_ok_iff.mp hlook
      cases entry with
      | leaf l => simp [hlook] at h
      | directory m e =>
        simp only [hlook] at h
        split_ifs at h with hread
        obtain rfl := Except.ok.inj h
        exact ⟨place, m, hplace, hentry, hread⟩
  · rintro ⟨place, mode, hplace, hentry, hread⟩
    rw [lookUp_eq_ok_iff.mpr ⟨place, hplace, hentry⟩]
    simp [hread]

/-- A path that leads to a directory is one to a directory. -/
lemma isDirectory_of_resolve (htarget : fs.resolve .toFile target = .ok goal)
    (hdirectory : fs.entry? goal = some (.directory mode entries)) : fs.isDirectory target = true := by
  rw [isDirectory, lookUp_eq_ok_iff.mpr ⟨goal, htarget, hdirectory⟩]

/-- What is opened at the target are the entries of its directory. -/
lemma openDirectory_target (htarget : fs.resolve .toFile target = .ok goal)
    (hdirectory : fs.entry? goal = some (.directory mode entries)) {found : Directory}
    (hopen : fs.openDirectory target = .ok found) : found = entries := by
  obtain ⟨place, m, hplace, hentry, -⟩ := openDirectory_eq_ok_iff.mp hopen
  obtain rfl : place = goal := Except.ok.inj (hplace.symm.trans htarget)
  rw [hdirectory] at hentry
  exact (Entry.directory.inj (Option.some.inj hentry)).2.symm

/-- **What is read under the names of directories** are the entries of these directories. -/
lemma openDirectory_extend (wf : fs.WellFormed) (htarget : fs.resolve .toFile target = .ok goal)
    (hdirectory : fs.entry? (goal ++ way) = some (.directory mode entries)) {found : Directory}
    (h : fs.openDirectory (target.extend way) = .ok found) : found = entries := by
  obtain ⟨place, m, hplace, hentry, -⟩ := openDirectory_eq_ok_iff.mp h
  have hshape : fs.shape? (goal ++ way) = some (.directory mode) :=
    shape?_eq_directory_iff.mpr ⟨entries, hdirectory⟩
  rw [resolve_extend wf htarget (solid_of_directory hshape) hplace, hdirectory] at hentry
  exact (Entry.directory.inj (Option.some.inj hentry)).2.symm

end FileSystem

end Detab
