import Detab.Proofs.Config.Layout

set_option relaxedAutoImplicit false
set_option autoImplicit false

/-!
# Which settings win

Settings are found by laying layers over the defaults. A layer that is present replaces settings one
by one, so every setting is decided on its own, by the last layer that has it. It makes no difference
whether layers are laid one after another or some of them are first made into one. A run lays at most
two layers: that of a file, which has to be readable even where the command line overrides all of it,
and that of the command line.

## Main definitions

* `Detab.Layer.under` — one layer in the place of two, and `Detab.Layer.Grouping`, the ways to group
  layers.
* `Detab.Config.withLayers`, `Detab.Config.withReadings` — the settings under any number of layers,
  and under those of them that could be read.
* `Detab.Layer.lastPresent?` — the last value of a setting that is present.
* `Detab.Config.LayersOf` — the layers that a file gives.

## Main results

* `Detab.Config.pattern_withLayers`, `Detab.Config.width_withLayers` — every setting on its own.
* `Detab.Config.withLayer_grouping` — grouping layers makes no difference.
* `Detab.Config.exists_run_load` — loading settings changes nothing but the log.
* `Detab.Config.run_load_cases` — a file gives its layers, or the failure is about the file.
* `Detab.Config.load_eq_ok_iff`, `Detab.Config.exists_message_of_load` — when loading succeeds, and what
  a failure says.
* `Detab.Config.precedence_of_layers` — **which settings win.**
-/

namespace Detab

namespace Layer

/-- **One layer in the place of two.** What is present in the upper one wins. -/
def under (lower upper : Layer) : Layer where
  pattern := upper.pattern.or lower.pattern
  width := upper.width.or lower.width

/-- A way to group layers: it says which of them are made into one before they are laid. -/
inductive Grouping where
  | none
  | one (layer : Layer)
  | pair (lower upper : Grouping)

/-- The layers of a grouping, from the lowest to the uppermost. -/
def Grouping.layers : Grouping → List Layer
  | none => []
  | one layer => [layer]
  | pair lower upper => lower.layers ++ upper.layers

/-- The one layer that a grouping comes to. -/
def Grouping.layer : Grouping → Layer
  | none => ⟨.none, .none⟩
  | one layer => layer
  | pair lower upper => lower.layer.under upper.layer

/-- **The last value of a setting that is present.** -/
def lastPresent? {α : Type} (setting : Layer → Option α) (layers : List Layer) : Option α :=
  (layers.filterMap setting).getLast?

variable {α : Type} {setting : Layer → Option α} {layer : Layer} {layers : List Layer}

/-- The lowest layer only decides if no other has the setting. -/
@[simp] lemma lastPresent?_cons :
    lastPresent? setting (layer :: layers) = (lastPresent? setting layers).or (setting layer) := by
  cases hsetting : setting layer with
  | none => simp [lastPresent?, List.filterMap_cons_none hsetting]
  | some value =>
    rw [lastPresent?, List.filterMap_cons_some hsetting, List.getLast?_cons, lastPresent?]
    cases (layers.filterMap setting).getLast? <;> rfl

end Layer

namespace Config

open Layer

/-- The settings under any number of layers, from the lowest to the uppermost. -/
def withLayers (config : Config) (layers : List Layer) : Config :=
  layers.foldl withLayer config

/-- The settings after one more layer was to be read: if it is rejected, they stay as they are. -/
def withReading {ε : Type} (config : Config) : Except ε Layer → Config
  | .ok layer => config.withLayer layer
  | .error _ => config

/-- The settings under those of the layers that could be read. -/
def withReadings {ε : Type} (config : Config) (readings : List (Except ε Layer)) : Config :=
  readings.foldl withReading config

variable {ε : Type} {config : Config} {layer : Layer} {layers : List Layer}

/-- Layers are laid one after the other, beginning with the first one. -/
@[simp] lemma withLayers_cons :
    config.withLayers (layer :: layers) = (config.withLayer layer).withLayers layers :=
  rfl

/-- Layers can be grouped: laying two lists of layers one after the other is laying them as one
list. -/
@[simp] lemma withLayers_append (below above : List Layer) :
    config.withLayers (below ++ above) = (config.withLayers below).withLayers above := by
  rw [withLayers, List.foldl_append]
  rfl

/-! ### Every setting on its own -/

/-- The pattern is the last one that is present. -/
lemma pattern_withLayers (config : Config) (layers : List Layer) :
    (config.withLayers layers).pattern =
      (lastPresent? Layer.pattern layers).getD config.pattern := by
  induction layers generalizing config with
  | nil => rfl
  | cons layer above ih => rw [withLayers_cons, ih, lastPresent?_cons, Option.getD_or, withLayer]

/-- The width is the last one that is present. -/
lemma width_withLayers (config : Config) (layers : List Layer) :
    (config.withLayers layers).width = (lastPresent? Layer.width layers).getD config.width := by
  induction layers generalizing config with
  | nil => rfl
  | cons layer above ih => rw [withLayers_cons, ih, lastPresent?_cons, Option.getD_or, withLayer]

/-- What was rejected might as well not have been there. -/
lemma withReadings_eq (config : Config) (readings : List (Except ε Layer)) :
    config.withReadings readings = config.withLayers (readings.filterMap Except.toOption) := by
  induction readings generalizing config with
  | nil => rfl
  | cons reading rest ih =>
    cases reading with
    | error cause => exact ih config
    | ok layer => exact ih (config.withLayer layer)

/-! ### Grouping -/

/-- Two layers that were made into one give what they give one after the other. -/
lemma withLayer_under (config : Config) (lower upper : Layer) :
    config.withLayer (lower.under upper) = (config.withLayer lower).withLayer upper := by
  obtain ⟨pattern, width⟩ := upper
  cases pattern <;> cases width <;> rfl

/-- **Grouping layers makes no difference.** -/
lemma withLayer_grouping (config : Config) (grouping : Grouping) :
    config.withLayer grouping.layer = config.withLayers grouping.layers := by
  induction grouping generalizing config with
  | none => rfl
  | one layer => rfl
  | pair lower upper ihLower ihUpper =>
    calc config.withLayer (lower.layer.under upper.layer)
        = (config.withLayer lower.layer).withLayer upper.layer := withLayer_under _ _ _
      _ = (config.withLayers lower.layers).withLayers upper.layers := by rw [ihLower, ihUpper]
      _ = config.withLayers (lower.layers ++ upper.layers) := (withLayers_append _ _).symm

/-! ### Loading -/

/-- **The layers that a file gives:** none where no file is named; otherwise the file has to hold a
text, and the text to be settings. -/
inductive LayersOf (world : World) : Option Path → List Layer → Prop
  | nothing : LayersOf world none []
  | file {path : Path} {text : List Char} {layer : Layer} :
      Holds world path text → ofText text = .ok layer → LayersOf world (some path) [layer]

/-- The file that could not be loaded. -/
def Error.path : Error → Path
  | .unreadable path _ => path
  | .invalid path _ => path

/-- **The message names the file** that could not be loaded. -/
lemma Error.exists_message (e : Error) :
    ∃ before after, e.message = before ++ Utf8.display e.path ++ after := by
  cases e with
  | unreadable path cause =>
    refine ⟨"Couldn't read config file (", "): " ++ cause.message, ?_⟩
    rw [← String.append_assoc]
    rfl
  | invalid path cause =>
    dsimp only [Error.message, Error.path]
    cases cause.message? with
    | none => exact ⟨"Config deserialization error (", ")", rfl⟩
    | some message =>
      refine ⟨"Config deserialization error (", ")" ++ (": " ++ message), ?_⟩
      rw [← String.append_assoc, ← String.append_assoc]
      rfl

variable {world : World} {path : Path} {text : List Char} {file : Option Path} {overrides : Layer}

/-- **What reading a file of settings comes to:** if it holds a text, what the text stands for;
otherwise it is a failure.

**Proof sketch.** By what reading the path gives: an error, contents that are no text, or contents
that are one. In the first two cases the file holds no text, and the failure names the path. -/
lemma run_readLayer_cases (world : World) (path : Path) :
    (∃ text, Holds world path text ∧
      (readLayer path).run.run world = ((ofText text).mapError (.invalid path), world)) ∨
    (∀ text, ¬ Holds world path text) ∧
      ∃ cause, (readLayer path).run.run world = (.error (.unreadable path cause), world) := by
  have hfirst := Action.run_read (Error.unreadable path) path world
  cases hread : world.fs.read path with
  | error cause =>
    rw [hread] at hfirst
    refine .inr ⟨?_, cause, Action.run_bind_of_error hfirst⟩
    rintro text ⟨contents, hcontents, -⟩
    exact absurd (hread.symm.trans hcontents) (by simp)
  | ok contents =>
    cases htext : Utf8.strict? (unpack contents) with
    | some text => exact .inl ⟨text, ⟨contents, hread, htext⟩, run_readLayer hread htext⟩
    | none =>
      rw [hread] at hfirst
      refine .inr ⟨?_, .notText, ?_⟩
      · rintro text ⟨contents', hcontents, htext'⟩
        obtain rfl := Except.ok.inj (hread.symm.trans hcontents)
        exact absurd (htext.symm.trans htext') (by simp)
      · rw [readLayer, Action.run_bind_of_ok hfirst, htext]
        rfl

/-- Reading a file of settings changes nothing. -/
lemma exists_run_readLayer (path : Path) (world : World) :
    ∃ result, (readLayer path).run.run world = (result, world) := by
  rcases run_readLayer_cases world path with ⟨text, -, hrun⟩ | ⟨-, cause, hrun⟩
  · exact ⟨_, hrun⟩
  · exact ⟨_, hrun⟩

/-- Loading a file of settings is reading it, and then laying both layers. -/
lemma run_load_some (path : Path) (overrides : Layer) (world : World) :
    (load (some path) overrides).run.run world =
      let ended := (readLayer path).run.run
        ⟨world.fs, world.session.addLine ⟨.debug, s!"Reading config from {Utf8.display path}"⟩⟩
      (ended.1.map fun layer => standard.withLayers [layer, overrides], ended.2) := by
  set logged : World :=
    ⟨world.fs, world.session.addLine ⟨.debug, s!"Reading config from {Utf8.display path}"⟩⟩
  have hrun : (load (some path) overrides).run.run world =
      (readLayer path >>= fun layer =>
        pure ((standard.withLayer layer).withLayer overrides)).run.run logged := rfl
  rw [hrun, Action.run_bind]
  rcases (readLayer path).run.run logged with ⟨_ | _, _⟩ <;> rfl

/-- **Loading settings changes nothing but the log.** -/
lemma exists_run_load (file : Option Path) (overrides : Layer) (world : World) :
    ∃ result log, (load file overrides).run.run world =
      (result, ⟨world.fs, { world.session with log := log }⟩) := by
  cases file with
  | none => exact ⟨_, _, rfl⟩
  | some path =>
    rw [run_load_some]
    obtain ⟨result, hlayer⟩ := exists_run_readLayer path
      ⟨world.fs, world.session.addLine ⟨.debug, s!"Reading config from {Utf8.display path}"⟩⟩
    rw [hlayer]
    exact ⟨_, _, rfl⟩

/-- A file holds one text at most. -/
lemma Holds.eq {text' : List Char} (h : Holds world path text) (h' : Holds world path text') :
    text = text' := by
  obtain ⟨contents, hread, htext⟩ := h
  obtain ⟨contents', hread', htext'⟩ := h'
  obtain rfl := Except.ok.inj (hread.symm.trans hread')
  exact Option.some.inj (htext.symm.trans htext')

/-- A file gives at most one list of layers in a given world. -/
lemma LayersOf.eq {layers' : List Layer} (h : LayersOf world file layers)
    (h' : LayersOf world file layers') : layers = layers' := by
  cases h with
  | nothing =>
    cases h'
    rfl
  | file hholds hlayer =>
    cases h' with
    | file hholds' hlayer' =>
      obtain rfl := hholds.eq hholds'
      rw [Except.ok.inj (hlayer.symm.trans hlayer')]

/-- **What loading comes to:** where the file gives its layers, the settings under them and under the
overrides; otherwise a failure that is about the file.

**Proof sketch.** Without a file there are no layers. With one, by `run_readLayer_cases`: the file
holds a text or not, and the text is settings or not. -/
lemma run_load_cases (world : World) (file : Option Path) (overrides : Layer) :
    (∃ layers, LayersOf world file layers ∧
      ((load file overrides).run.run world).1 = .ok (standard.withLayers (layers ++ [overrides]))) ∨
    (∀ layers, ¬ LayersOf world file layers) ∧
      ∃ e : Error, file = some e.path ∧ ((load file overrides).run.run world).1 = .error e := by
  cases file with
  | none => exact .inl ⟨[], .nothing, rfl⟩
  | some path =>
    rw [run_load_some]
    rcases run_readLayer_cases _ path with ⟨text, hholds, hrun⟩ | ⟨hnot, cause, hrun⟩
    · rw [hrun]
      cases hlayer : ofText text with
      | ok layer => exact .inl ⟨[layer], .file hholds hlayer, rfl⟩
      | error cause =>
        -- a file holds at most one text, so it gives no layer at all
        refine .inr ⟨?_, .invalid path cause, rfl, rfl⟩
        rintro _ (_ | ⟨hholds', hlayer'⟩)
        obtain rfl := hholds.eq hholds'
        exact absurd (hlayer.symm.trans hlayer') (by simp)
    · rw [hrun]
      refine .inr ⟨?_, .unreadable path cause, rfl, rfl⟩
      rintro _ (_ | ⟨hholds, -⟩)
      exact hnot _ hholds

/-- **When loading succeeds,** and with which settings. -/
lemma load_eq_ok_iff {config : Config} :
    ((load file overrides).run.run world).1 = .ok config ↔
      ∃ layers, LayersOf world file layers ∧ config = standard.withLayers (layers ++ [overrides]) := by
  rcases run_load_cases world file overrides with ⟨layers, hlayers, hrun⟩ | ⟨hnot, e, -, hrun⟩
  · rw [hrun, Except.ok.injEq]
    constructor
    · rintro rfl
      exact ⟨layers, hlayers, rfl⟩
    · rintro ⟨layers', hlayers', rfl⟩
      rw [hlayers.eq hlayers']
  · rw [hrun]
    refine iff_of_false (by simp) ?_
    rintro ⟨layers, hlayers, -⟩
    exact hnot layers hlayers

/-- The message of a failure names the file that was to be loaded. -/
lemma exists_message_of_load {e : Error} (h : ((load file overrides).run.run world).1 = .error e) :
    ∃ path ∈ file, ∃ before after, e.message = before ++ Utf8.display path ++ after := by
  rcases run_load_cases world file overrides with ⟨layers, -, hrun⟩ | ⟨-, e', hfile, hrun⟩
  · exact absurd (hrun.symm.trans h) (by simp)
  · obtain rfl := Except.error.inj (hrun.symm.trans h)
    exact ⟨_, hfile, e'.exists_message⟩

/-- **Which settings win.**

* Under any number of layers, of which some may have been rejected, every setting is the last one that
  is present in a layer that was not, or else the one from before. A rejected layer leaves the settings
  as they are.
* Layers can be grouped in any way: two groupings of the same layers give the same settings.
* Loading succeeds if and only if the file, if one is named, holds a text and the text is settings,
  whatever the overrides are. The settings are then the standard ones under those of the file under
  the overrides. The message of a failure names the file.

**Proof sketch.** A list of layers is laid one after the other, so the last one that is present
wins; this is an induction on the list, and one on the grouping for the second clause. Loading is
followed by `load_eq_ok_iff`, and the message of a failure by its path. -/
theorem precedence_of_layers :
    (∀ (ε : Type) (config : Config) (readings : List (Except ε Layer)),
      (config.withReadings readings).pattern =
          (lastPresent? Layer.pattern (readings.filterMap Except.toOption)).getD config.pattern ∧
        (config.withReadings readings).width =
          (lastPresent? Layer.width (readings.filterMap Except.toOption)).getD config.width ∧
        ∀ cause, config.withReadings (readings ++ [.error cause]) = config.withReadings readings) ∧
    (∀ (config : Config) (grouping : Grouping),
      config.withLayer grouping.layer = config.withLayers grouping.layers) ∧
    (∀ (world : World) (file : Option Path),
      (∀ overrides config, ((load file overrides).run.run world).1 = .ok config ↔
        ∃ layers, LayersOf world file layers ∧
          config = standard.withLayers (layers ++ [overrides])) ∧
      (∀ overrides, (∃ config, ((load file overrides).run.run world).1 = .ok config) ↔
        ∃ layers, LayersOf world file layers) ∧
      ∀ overrides e, ((load file overrides).run.run world).1 = .error e →
        ∃ path ∈ file, ∃ before after, e.message = before ++ Utf8.display path ++ after) := by
  refine ⟨fun ε config readings => ⟨?_, ?_, fun cause => ?_⟩, withLayer_grouping, fun world file => ?_⟩
  · rw [withReadings_eq, pattern_withLayers]
  · rw [withReadings_eq, width_withLayers]
  · rw [withReadings, List.foldl_append]
    rfl
  · refine ⟨fun overrides config => load_eq_ok_iff, fun overrides => ?_,
      fun overrides e => exists_message_of_load⟩
    simp only [load_eq_ok_iff]
    constructor
    · rintro ⟨-, layers, hlayers, -⟩
      exact ⟨layers, hlayers⟩
    · rintro ⟨layers, hlayers⟩
      exact ⟨_, layers, hlayers, rfl⟩

end Config

end Detab
