/-!
# The mark of generated files

The mark is a comment on a line of its own. It is part of the head of each module, so a formatter
sees it as it sees the rest of the text. Nothing in the library reads it back: a file that is in the
way is replaced with or without it.
-/

namespace TypedClients.Script

/-- The first line of every generated file. -/
def generatedMarker : String := "/* AUTO-GENERATED - do not edit */"

end TypedClients.Script
