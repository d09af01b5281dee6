/-!
# Tokens

What the text of a document is made of, before it is known what belongs to what. The
marks of block structure are not written: indentation stands for them.
-/

namespace Telemetry.Yaml

/-- How a scalar is written. -/
inductive ScalarStyle where
  /-- Without quotes. -/
  | plain
  /-- Between single quotes. -/
  | singleQuoted
  /-- Between double quotes. -/
  | doubleQuoted
  /-- As indented lines that are kept. -/
  | literal
  /-- As indented lines that are joined. -/
  | folded
deriving DecidableEq, Repr

/-- A token. -/
inductive Token where
  /-- The text starts. -/
  | streamStart
  /-- The text ends. -/
  | streamEnd
  /-- The version a document is written for. -/
  | versionDirective (major minor : Nat)
  /-- What a tag handle stands for. -/
  | tagDirective (handle expansion : String)
  /-- A document starts. -/
  | documentStart
  /-- A document ends. -/
  | documentEnd
  /-- An indented sequence starts. -/
  | blockSequenceStart
  /-- An indented mapping starts. -/
  | blockMappingStart
  /-- An indented collection ends. -/
  | blockEnd
  /-- An opening bracket. -/
  | flowSequenceStart
  /-- A closing bracket. -/
  | flowSequenceEnd
  /-- An opening brace. -/
  | flowMappingStart
  /-- A closing brace. -/
  | flowMappingEnd
  /-- The dash of an item. -/
  | blockEntry
  /-- A comma. -/
  | flowEntry
  /-- A key comes next. -/
  | key
  /-- A value comes next. -/
  | value
  /-- A reference to an anchored node. -/
  | alias (name : String)
  /-- The anchor of the node that comes next. -/
  | anchor (name : String)
  /-- The tag of the node that comes next. -/
  | tag (handle suffix : String)
  /-- A scalar. -/
  | scalar (text : String) (style : ScalarStyle)
deriving DecidableEq, Repr

end Telemetry.Yaml
