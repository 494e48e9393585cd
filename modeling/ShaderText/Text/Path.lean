/-
The name of the file that a path leads to, and its extension. Slashes separate the parts of a path;
empty parts and parts that are a single dot mean nothing.
-/
import ShaderText.Text.Split

namespace ShaderText

/-- The last part of a path that is neither empty nor `.`; where it is `..`, there is no file. -/
def fileName? (path : String) : Option (List Char) :=
  let parts := (splitAtChar '/' path.toList).filter fun part => part != [] && part != ['.']
  match parts.getLast? with
  | some ['.', '.'] => none
  | last => last

/-- What follows the last dot of a file name, unless that dot is its first character. -/
def extensionOfName? (name : List Char) : Option (List Char) :=
  match (splitAtChar '.' name).reverse with
  | extension :: stem :: stems =>
    if stem.isEmpty && stems.isEmpty then none else some extension
  | _ => none

/-- The extension of the file that a path names. -/
def pathExtension? (path : String) : Option String :=
  (fileName? path).bind fun name => (extensionOfName? name).map String.ofList

theorem fileName?_empty : fileName? "" = none := by decide

end ShaderText
