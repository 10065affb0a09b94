-- The tokens of YAML. Indentation shows only here: where a collection of
-- lines starts and ends there is a token for it. A text that breaks the
-- rules ends in the token `broken`.

namespace Phrasebook.Yaml

inductive Token where
  | streamStart
  | streamEnd
  | versionDirective (major minor : Nat)
  | tagDirective (handle : String)
  | documentStart
  | documentEnd
  | blockSequenceStart
  | blockMappingStart
  | blockEnd
  | flowSequenceStart
  | flowSequenceEnd
  | flowMappingStart
  | flowMappingEnd
  | blockEntry
  | flowEntry
  | key
  | value
  | alias (name : String)
  | anchor (name : String)
  /-- A tag, by the handle that a directive must declare, if it has one. -/
  | tag (handle : String)
  | scalar (text : String)
  | broken
  deriving DecidableEq, Repr

end Phrasebook.Yaml
