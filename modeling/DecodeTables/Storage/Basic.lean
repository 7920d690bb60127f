/-!
# Storage

What the program asks of the place where its files are. Each request says whether it was met; a
request that was not met may have created some of the directories it was to create, but changed no
file.
-/

namespace DecodeTables

/-- A monad in which files can be read and written. -/
class Storage (m : Type → Type) where
  /-- Whether a path leads to a regular file. -/
  isFile : String → m Bool
  /-- The text of a file. There is none if the file cannot be read or is not UTF-8. -/
  readText : String → m (Option String)
  /-- Creates the directories of a path that are missing. -/
  createDirectories : String → m Bool
  /-- Replaces the text of a file, which is created if it is missing. -/
  writeText : String → String → m Bool

end DecodeTables
