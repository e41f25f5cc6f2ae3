import CodeAudit.Disk.Path
import CodeAudit.Text.Find

/-!
# Kinds of source

A file is a template when its name ends in `.blade.php`, whatever the case, and program text
otherwise.
-/

namespace CodeAudit

open Text

/-- What a candidate file contains. Templates are read line by line and never parsed. -/
inductive SourceKind where
  | php
  | blade
  deriving DecidableEq, Repr

namespace SourceKind

/-- The written name. -/
def name : SourceKind → String
  | php => "php"
  | blade => "blade"

/-- The kind that a path implies (`SourceKind::from_path`). -/
def ofPath (path : String) : SourceKind :=
  if endsWith ".blade.php" (lowerAscii ((Path.fileName? path).getD [])) then blade else php

end SourceKind

end CodeAudit
