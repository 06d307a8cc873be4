import Stylesheet.IoError

/-!
# Disks

A disk knows the canonical form of a path and the bytes of a file. Paths are sequences of bytes.
-/

namespace Stylesheet

structure Disk where
  /-- The absolute path, without links and detours, of what a path leads to. -/
  canonicalize : List UInt8 → Except IoError (List UInt8)
  /-- The content of the file at a canonical path. -/
  read : List UInt8 → Except IoError (List UInt8)

end Stylesheet
