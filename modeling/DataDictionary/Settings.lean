import DataDictionary.Text.Quoted
import DataDictionary.Text.Digits

/-!
# Settings

What can be chosen about the reading of a dictionary.
-/

namespace DataDictionary

/-- How a dictionary is read. -/
structure Settings where
  /-- What the outermost source is called in diagnostics. -/
  sourceName : Option String := none
  /-- How deep inclusions may be nested. -/
  maxIncludeDepth : Nat := 8
  /-- Whether inclusions are followed. -/
  resolveIncludes : Bool := true
  /-- Whether an object for free comments is added to a dictionary that has none. -/
  insertCommentOnlyObject : Bool := false
  deriving DecidableEq

namespace Settings

def truth (b : Bool) : String := if b then "true" else "false"

/-- The settings of a reader and whether it can follow inclusions, for display. -/
def describe (s : Settings) (hasLoader : Bool) : String :=
  let sourceName := match s.sourceName with
    | some name => "Some(" ++ Text.quote name ++ ")"
    | none => "None"
  "DictionaryParser \x7b config: ParserConfig \x7b source_name: " ++ sourceName ++
    ", max_include_depth: " ++ Text.decimal s.maxIncludeDepth ++
    ", resolve_includes: " ++ truth s.resolveIncludes ++
    ", insert_comment_only_object: " ++ truth s.insertCommentOnlyObject ++
    " \x7d, loader: " ++ truth hasLoader ++ " \x7d"

end Settings

end DataDictionary
