import Detab.Expansion
import Detab.Glob.Pattern

set_option relaxedAutoImplicit false
set_option autoImplicit false

/-!
# Settings

A run has two settings. They are found by laying *layers* over the defaults, one after another; a
layer replaces the settings that are present in it and leaves the others.

## Main definitions

* `Detab.Config` — the settings of a run.
* `Detab.Layer` — settings that may be absent.
* `Detab.Config.withLayer` — the settings under a further layer.
-/

namespace Detab

/-- The settings of a run. -/
structure Config where
  /-- Which files below a directory are converted. -/
  pattern : Pattern
  /-- The number of spaces for a tab. -/
  width : Width
  deriving DecidableEq

/-- Settings that may be absent, from a file or from the command line. -/
structure Layer where
  pattern : Option Pattern
  width : Option Width
  deriving DecidableEq

namespace Config

/-- The pattern `*.java`. -/
def defaultPattern : Pattern where
  text := "*.java"
  tokens :=
    [.run, .literal '.', .literal 'j', .literal 'a', .literal 'v', .literal 'a']
  read := rfl

/-- The settings of a run that nothing was said about. -/
def standard : Config where
  pattern := defaultPattern
  width := 4

/-- **The settings under a further layer:** what is present in the layer wins. -/
def withLayer (config : Config) (layer : Layer) : Config where
  pattern := layer.pattern.getD config.pattern
  width := layer.width.getD config.width

end Config

end Detab
