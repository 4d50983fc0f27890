import Turnstile.Table

/-!
This module contains the files of a working directory that has no directories in it.
-/

namespace Turnstile

/-- The texts of the files, by name. -/
abbrev Files := Table String

namespace Files

def longestName : Nat := 255

/--
The name of the file that a path leads to, if the path stays in the directory and does not lead to the
directory itself.
-/
def nameOf? (path : String) : Option String :=
  match (path.splitOn "/").reverse with
  | [] => none
  | name :: outer =>
    let isName := name ≠ "" && name ≠ "." && name ≠ ".." && name.utf8ByteSize ≤ longestName
    let stays := outer.all (fun part => part = "" || part = ".") && outer.getLast? ≠ some ""
    if isName && stays then some name else none

def read? (files : Files) (path : String) : Option String :=
  (nameOf? path).bind files.get?

end Files

end Turnstile
