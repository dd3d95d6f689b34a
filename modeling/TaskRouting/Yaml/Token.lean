import TaskRouting.Yaml.Cursor
import TaskRouting.Yaml.Tag
/-!
The tokens of YAML: punctuation, whether written or implied by indentation,
and scalars.
-/

namespace TaskRouting.Yaml

/-- How a scalar is written. -/
inductive Style where
  /-- Without quotes. -/
  | plain
  /-- In single or double quotes. -/
  | quoted
  /-- As an indented block whose line ends stay. -/
  | literal
  /-- As an indented block whose lines are joined. -/
  | folded
  deriving DecidableEq

/-- What a text is cut into. Marks that are not written but implied by
indentation, such as `blockSequenceStart` and `blockEnd`, are tokens like the
others. -/
inductive Token where
  | streamEnd
  | version (major minor : Nat)
  | tagDirective (handle : String) (expansion : Tag)
  | documentStart
  | documentEnd
  | blockSequenceStart
  | blockMappingStart
  | blockEnd
  | flowSequenceStart
  | flowSequenceEnd
  | flowMappingStart
  | flowMappingEnd
  | blockEntry
  | flowEntry
  | key
  | value
  | alias (name : String)
  | anchor (name : String)
  | tag (handle : String) (suffix : Tag)
  | scalar (text : String) (style : Style)
  deriving DecidableEq

end TaskRouting.Yaml
